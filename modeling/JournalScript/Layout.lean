import JournalScript.Text.Blank
import JournalScript.Text.Case
import JournalScript.Value.Basic
import JournalScript.Variables

/-!
# JournalScript.Layout

How the text of a document is cut into lines and put together again. The defaults can be changed
by environment variables, and these by explicit choices.

Main definitions: `Layout`, `Separator.ofName?`, `Layout.resolve`, `Layout.choose`.
-/

namespace JournalScript

structure Layout where
  /-- What stands between the lines of a text that is read. -/
  lineSeparator : Text
  /-- What is put between the lines of a text that is written. -/
  outputSeparator : Text
  /-- Whether raw lines without content are left out when writing. -/
  skipEmpty : Bool
  encoding : Text
  deriving DecidableEq, Repr

inductive SettingError where
  | separator (value : Text)
  | separatorVariable (name : Text)
  | switchVariable (name : Text)
  | notText (kind : String)
  deriving DecidableEq, Repr

namespace Separator

def table : List (Text × Text) :=
  [(['c', 'r', 'l', 'f'], ['\r', '\n']), (['l', 'f'], ['\n']), (['c', 'r'], ['\r']),
   (['o', 's'], ['\n'])]

def allowed : Text := Text.join [',', ' '] (table.map Prod.fst)

def ofName? (t : Text) : Option Text := table.lookup (Text.lower (Text.strip t))

end Separator

namespace Switch

def onWords : List Text := [['1'], ['t', 'r', 'u', 'e'], ['y', 'e', 's'], ['o', 'n']]

def offWords : List Text := [['0'], ['f', 'a', 'l', 's', 'e'], ['n', 'o'], ['o', 'f', 'f']]

def ofWord? (t : Text) : Option Bool :=
  if onWords.contains (Text.lower (Text.strip t)) then some true
  else if offWords.contains (Text.lower (Text.strip t)) then some false
  else none

end Switch

namespace SettingError

def message : SettingError → Text
  | .separator value =>
    "Unknown line separator '".toList ++ value ++ "'. Allowed: ".toList ++ Separator.allowed
  | .separatorVariable name => name ++ " must be one of: ".toList ++ Separator.allowed
  | .switchVariable name => name ++ " must be a boolean (1/0, true/false, yes/no)".toList
  | .notText kind => ("'" ++ kind ++ "' object has no attribute 'strip'").toList

end SettingError

namespace Layout

/-- Journals are recorded with carriage return and line feed, and written with line feed. -/
def default : Layout := ⟨['\r', '\n'], ['\n'], false, "utf-8".toList⟩

def lineVariable : Text := "JOURNAL_LINE_SEPARATOR".toList

def outputVariable : Text := "JOURNAL_OUTPUT_SEPARATOR".toList

def skipVariable : Text := "JOURNAL_SKIP_EMPTY_LINE".toList

def separatorNamed (name : Text) : Except SettingError Text :=
  match Separator.ofName? name with
  | some sep => .ok sep
  | none => .error (.separator name)

def separatorFrom (vs : Variables) (name : Text) : Except SettingError (Option Text) :=
  match vs.given? name with
  | none => .ok none
  | some value =>
    match Separator.ofName? value with
    | some sep => .ok (some sep)
    | none => .error (.separatorVariable name)

def switchFrom (vs : Variables) (name : Text) : Except SettingError (Option Bool) :=
  match vs.given? name with
  | none => .ok none
  | some value =>
    match Switch.ofWord? value with
    | some b => .ok (some b)
    | none => .error (.switchVariable name)

/-- The layout with what the variables set; the first variable that is wrong is reported. -/
def resolve (vs : Variables) (layout : Layout) : Except SettingError Layout :=
  match separatorFrom vs lineVariable with
  | .error e => .error e
  | .ok line =>
    match separatorFrom vs outputVariable with
    | .error e => .error e
    | .ok output =>
      match switchFrom vs skipVariable with
      | .error e => .error e
      | .ok skip =>
        .ok ⟨line.getD layout.lineSeparator, output.getD layout.outputSeparator,
          skip.getD layout.skipEmpty, layout.encoding⟩

structure Choices where
  lineSeparator : Value
  outputSeparator : Value
  skipEmpty : Value

def Choices.none : Choices := ⟨.null, .null, .null⟩

def separatorOr (choice : Value) (otherwise : Text) : Except SettingError Text :=
  match choice with
  | .null => .ok otherwise
  | .str name => separatorNamed name
  | other => .error (.notText other.kind)

def switchOr (choice : Value) (otherwise : Bool) : Bool :=
  match choice with
  | .null => otherwise
  | value => value.isTrue

/-- The layout of a request: explicit choices go before variables, and these before the defaults.
A variable that is wrong is an error even if a choice overrides it. -/
def choose (vs : Variables) (c : Choices) : Except SettingError Layout :=
  match resolve vs default with
  | .error e => .error e
  | .ok base =>
    match separatorOr c.lineSeparator base.lineSeparator with
    | .error e => .error e
    | .ok line =>
      match separatorOr c.outputSeparator base.outputSeparator with
      | .error e => .error e
      | .ok output => .ok ⟨line, output, switchOr c.skipEmpty base.skipEmpty, base.encoding⟩

end Layout
end JournalScript
