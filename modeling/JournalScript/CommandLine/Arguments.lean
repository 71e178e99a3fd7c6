import JournalScript.Fault
import JournalScript.Text.Digit

/-!
# JournalScript.CommandLine.Arguments

The arguments of the command line: one path and options. A long option may be shortened as long as
it stays the only one, a value may follow as the next argument or behind an equals sign, and `--`
ends the options. Arguments are taken from left to right, and the first that is wrong is reported;
asking for help ends the reading where it stands.

Main definitions: `Flag`, `Arguments`, `Arguments.parse`.
-/

namespace JournalScript

inductive Flag where
  | help
  | eol
  | outEol
  | skipEmpty
  | json
  | check
  | write
  deriving DecidableEq, Repr

namespace Flag

def spellings : List (Text × Flag) :=
  [("-h".toList, .help), ("--help".toList, .help), ("--eol".toList, .eol),
   ("--out-eol".toList, .outEol), ("--skip-empty".toList, .skipEmpty), ("--json".toList, .json),
   ("--check".toList, .check), ("--write".toList, .write)]

def takesValue : Flag → Bool
  | .eol | .outEol | .write => true
  | _ => false

def spelled (f : Flag) : List Text := (spellings.filter fun s => s.2 == f).map Prod.fst

def name (f : Flag) : Text := Text.join ['/'] f.spelled

def complaint (f : Flag) (text : Text) : Text :=
  "argument ".toList ++ f.name ++ ": ".toList ++ text

def ignoredValue (f : Flag) (value : Text) : Text :=
  f.complaint ("ignored explicit argument ".toList ++ Text.quoted value)

end Flag

inductive Word where
  | operand (text : Text)
  | option (flag : Flag) (value : Option Text)
  /-- Several `h` behind one dash, then something that is no option. -/
  | helpAnd (rest : Text)
  | unknown (text : Text)
  | endOfOptions
  deriving DecidableEq, Repr

namespace Word

/-- A number with a minus sign, which is no option; a line feed may follow. -/
def isNegativeNumber : Text → Bool
  | '-' :: t =>
    let digits := if t.getLast? = some '\n' then t.dropLast else t
    let fraction := (digits.dropWhile Text.isDecimal).drop 1
    (!digits.isEmpty && digits.all Text.isDecimal) ||
      ((digits.dropWhile Text.isDecimal).head? == some '.' && !fraction.isEmpty &&
        fraction.all Text.isDecimal)
  | _ => false

def cutValue (t : Text) : Text × Option Text :=
  match t.dropWhile (· != '=') with
  | [] => (t, none)
  | _ :: value => (t.takeWhile (· != '='), some value)

def other (t : Text) : Word :=
  if isNegativeNumber t || t.contains ' ' then .operand t else .unknown t

def candidates (start : Text) : List (Text × Flag) :=
  Flag.spellings.filter fun s => start.isPrefixOf s.1

def ambiguity (t : Text) (found : List (Text × Flag)) : Text :=
  "ambiguous option: ".toList ++ t ++ " could match ".toList ++
    Text.join [',', ' '] (found.map Prod.fst)

def ofLong (t : Text) : Except Text Word :=
  match candidates (cutValue t).1 with
  | [] => .ok (other t)
  | [(_, flag)] => .ok (.option flag (cutValue t).2)
  | found => .error (ambiguity t found)

/-- What is left of `-h` and more letters: further `h` are taken as further requests for help. -/
def ofHelp (more : Text) : Word :=
  match more.dropWhile (· == 'h') with
  | [] => .option .help none
  | rest => .helpAnd rest

/-- What an argument before the end of the options is. A spelling that is complete, with or without
a value, goes before a shortened one. -/
def ofText (t : Text) : Except Text Word :=
  match t with
  | '-' :: _ :: _ =>
    match Flag.spellings.lookup t with
    | some flag => .ok (.option flag none)
    | none =>
      match Flag.spellings.lookup (cutValue t).1, (cutValue t).2 with
      | some .help, some (c :: value) =>
        if t.take 2 = ['-', 'h'] then .ok (ofHelp (c :: value))
        else .ok (.option .help (some (c :: value)))
      | some flag, some value => .ok (.option flag (some value))
      | _, _ =>
        match t with
        | '-' :: '-' :: _ => ofLong t
        | '-' :: 'h' :: more => .ok (ofHelp more)
        | _ => .ok (other t)
  | _ => .ok (.operand t)

def ofList : List Text → Except Text (List Word)
  | [] => .ok []
  | t :: rest =>
    if t = ['-', '-'] then .ok (.endOfOptions :: rest.map .operand)
    else
      match ofText t with
      | .error e => .error e
      | .ok word =>
        match ofList rest with
        | .error e => .error e
        | .ok words => .ok (word :: words)

end Word

inductive SeparatorChoice where
  | unset
  /-- Only the end-of-options mark was attached to the option, which leaves no value at all. -/
  | void
  | chars (sep : Text)
  deriving DecidableEq, Repr

namespace SeparatorChoice

def getD (c : SeparatorChoice) (otherwise : Text) : Text :=
  match c with
  | .chars sep => sep
  | _ => otherwise

end SeparatorChoice

structure Arguments where
  path : Text
  lineSeparator : SeparatorChoice
  outputSeparator : SeparatorChoice
  skipEmpty : Bool
  json : Bool
  check : Bool
  write : Option Text
  deriving DecidableEq, Repr

inductive Stop where
  | help
  | usage (message : Text)
  deriving DecidableEq, Repr

namespace Arguments

/-- The arguments read so far: whether the path was among them, and those that have no place. -/
structure Reading where
  given : Arguments
  hasPath : Bool
  extras : List Text

def Reading.start : Reading := ⟨⟨[], .unset, .unset, false, false, false, none⟩, false, []⟩

def Reading.leave (r : Reading) (more : List Text) : Reading :=
  { r with extras := r.extras ++ more }

def Reading.takePath (r : Reading) (path : Text) : Reading :=
  { r with given := { r.given with path := path }, hasPath := true }

def separator (flag : Flag) (value : Text) : Except Stop Text :=
  match Layout.separatorNamed value with
  | .ok sep => .ok sep
  | .error e => .error (.usage (flag.complaint e.message))

def takeValue (r : Reading) (flag : Flag) (value : Text) : Except Stop Reading :=
  match flag with
  | .eol =>
    match separator flag value with
    | .error stop => .error stop
    | .ok sep => .ok { r with given := { r.given with lineSeparator := .chars sep } }
  | .outEol =>
    match separator flag value with
    | .error stop => .error stop
    | .ok sep => .ok { r with given := { r.given with outputSeparator := .chars sep } }
  | .write => .ok { r with given := { r.given with write := some value } }
  | _ => .error (.usage (flag.ignoredValue value))

def takeVoid (r : Reading) (flag : Flag) : Reading :=
  match flag with
  | .eol => { r with given := { r.given with lineSeparator := .void } }
  | .outEol => { r with given := { r.given with outputSeparator := .void } }
  | .write => { r with given := { r.given with write := some [] } }
  | _ => r

/-- Takes an option with the value that is attached to it; the end-of-options mark does not count
as a value. In this the releases of the option parser differ: others take the mark as the value, so
that it is refused as the name of a separator, and names a file to write. -/
def takeAttached (r : Reading) (flag : Flag) (value : Text) : Except Stop Reading :=
  if flag.takesValue && value == ['-', '-'] then .ok (takeVoid r flag)
  else takeValue r flag value

def takeFlag (r : Reading) (flag : Flag) : Except Stop Reading :=
  match flag with
  | .help => .error .help
  | .skipEmpty => .ok { r with given := { r.given with skipEmpty := true } }
  | .json => .ok { r with given := { r.given with json := true } }
  | .check => .ok { r with given := { r.given with check := true } }
  | _ => .error (.usage (flag.complaint "expected one argument".toList))

def operandTexts (words : List Word) : List Text :=
  words.filterMap fun
    | .operand t => some t
    | _ => none

/-- Takes the arguments from left to right. An end-of-options mark goes with the path beside it. -/
def readAll (r : Reading) : List Word → Except Stop Reading
  | [] => .ok r
  | .operand t :: .endOfOptions :: rest =>
    if r.hasPath then .ok (r.leave (t :: ['-', '-'] :: operandTexts rest))
    else .ok ((r.takePath t).leave (operandTexts rest))
  | .operand t :: rest => readAll (if r.hasPath then r.leave [t] else r.takePath t) rest
  | .endOfOptions :: rest =>
    match r.hasPath, operandTexts rest with
    | false, t :: more => .ok ((r.takePath t).leave more)
    | _, more => .ok (r.leave (['-', '-'] :: more))
  | .unknown t :: rest => readAll (r.leave [t]) rest
  | .helpAnd more :: _ => .error (.usage (Flag.help.ignoredValue more))
  | .option flag (some value) :: rest =>
    match takeAttached r flag value with
    | .error stop => .error stop
    | .ok r => readAll r rest
  | .option flag none :: .operand t :: rest =>
    if flag.takesValue then
      match takeValue r flag t with
      | .error stop => .error stop
      | .ok r => readAll r rest
    else
      match takeFlag r flag with
      | .error stop => .error stop
      | .ok r => readAll r (.operand t :: rest)
  | .option flag none :: rest =>
    match takeFlag r flag with
    | .error stop => .error stop
    | .ok r => readAll r rest

def parse (argv : List Text) : Except Stop Arguments :=
  match Word.ofList argv with
  | .error complaint => .error (.usage complaint)
  | .ok words =>
    match readAll .start words with
    | .error stop => .error stop
    | .ok r =>
      if !r.hasPath then
        .error (.usage "the following arguments are required: journal_path".toList)
      else if !r.extras.isEmpty then
        .error (.usage ("unrecognized arguments: ".toList ++ Text.join [' '] r.extras))
      else .ok r.given

end Arguments
end JournalScript
