import JournalScript.CommandLine.Help
import JournalScript.Document.Files
import JournalScript.Value.Printer

/-!
# JournalScript.CommandLine.Run

The command: list the lines of a journal, or print them as JSON, check that the journal would be
written as it was read, and write it. The console on which it prints may refuse what comes after the
first so many characters, which ends the command.

Main definitions: `CommandLine.Ending`, `CommandLine.run`, `CommandLine.runOn`.
-/

namespace JournalScript
namespace CommandLine

structure Ending where
  tree : Tree
  events : List Event
  output : Text
  errors : Text
  /-- The exit code, or a fault that the command does not report itself. -/
  exit : Except Fault Nat

def describe : Line → Text
  | .call c =>
    (if c.stamp = [] then ['-'] else c.stamp) ++ [' '] ++ c.module ++ ['.'] ++ c.action ++ ['('] ++
      Text.join [',', ' '] (c.parameters.map Parameter.value) ++ [')']
  | .raw content => "- raw ".toList ++ Text.quoted content

def entry (number : Nat) (l : Line) : Text :=
  Text.ofNat number ++ [' '] ++ describe l ++ ['\n']

def listing (d : Document) : Text :=
  (d.lines.zipIdx.flatMap fun e => entry (e.2 + 1) e.1) ++
    "\nParsed ".toList ++ Text.ofNat d.lines.length ++ " lines (".toList ++
    Text.ofNat d.callCount ++ " calls).\n".toList

def json (d : Document) : Text :=
  Value.jsonText (.list (d.lines.zipIdx.map fun e => e.1.toValue (some (Int.ofNat (e.2 + 1))))) ++
    ['\n']

def layoutOf (vs : Variables) (a : Arguments) : Except SettingError Layout :=
  match Layout.resolve vs .default with
  | .error e => .error e
  | .ok base =>
    .ok ⟨a.lineSeparator.getD base.lineSeparator, a.outputSeparator.getD base.outputSeparator,
      a.skipEmpty || base.skipEmpty, base.encoding⟩

/-- How a fault ends the command: a missing file and a wrong value are reported; anything else is
left to the caller. -/
def failure (t : Tree) (events : List Event) (fault : Fault) : Ending :=
  match fault with
  | .access (.failed .missing _) => ⟨t, events, [], fault.message ++ ['\n'], .ok 2⟩
  | .access .nullByte | .setting _ | .undecodable _ | .unencodable _ | .emptySeparator =>
    ⟨t, events, [], "Error: ".toList ++ fault.message ++ ['\n'], .ok 2⟩
  | _ => ⟨t, events, [], [], .error fault⟩

def rendered (a : Arguments) (d : Document) : Except Fault Text :=
  if a.outputSeparator = .void then .error .voidOutputSeparator else .ok d.render

def openSource (s : Surroundings) (t : Tree) (a : Arguments) (layout : Layout) :
    Reply Document Unit :=
  let name := (Path.ofText a.path).toText
  let empty := Document.new layout .unrestricted
  if a.lineSeparator = .void then
    match Storage.readPlain t s.toHost (Path.ofText name) layout.encoding with
    | .error fault => .fail empty fault
    | .ok _ => .fail empty .voidLineSeparator
  else empty.openFile t s.toHost name

def writeOut (s : Surroundings) (t : Tree) (a : Arguments) (d : Document) : Reply Tree Unit :=
  match a.write with
  | none => ⟨t, [], .ok ()⟩
  | some [] => ⟨t, [], .ok ()⟩
  | some name =>
    match rendered a d with
    | .error fault => .fail t fault
    | .ok _ => d.saveAs t s.toHost name

/-- The text to compare the document with, if there is to be a check: the source, read again. -/
def original (s : Surroundings) (t : Tree) (a : Arguments) (layout : Layout) :
    Except Fault (Option Text) :=
  if a.check then
    (Storage.readPlain t s.toHost (Path.ofText a.path) layout.encoding).map some
  else .ok none

def conclude (a : Arguments) (d : Document) (source : Option Text) (t : Tree)
    (events : List Event) : Ending :=
  let output := if a.json then json d else listing d
  match source with
  | none => ⟨t, events, output, [], .ok 0⟩
  | some source =>
    match rendered a d with
    | .error fault => ⟨t, events, output, [], .error fault⟩
    | .ok text =>
      if text = source then ⟨t, events, output, [], .ok 0⟩
      else ⟨t, events, output, "Round trip differs from the source file.\n".toList, .ok 1⟩

def execute (s : Surroundings) (t : Tree) (a : Arguments) : Ending :=
  match layoutOf s.vars a with
  | .error e => failure t [] (.setting e)
  | .ok layout =>
    match openSource s t a layout with
    | ⟨_, events, .error fault⟩ => failure t events fault
    | ⟨d, events, .ok ()⟩ =>
      match original s t a layout with
      | .error fault => failure t events fault
      | .ok source =>
        match writeOut s t a d with
        | ⟨written, more, .error fault⟩ => failure written (events ++ more) fault
        | ⟨written, more, .ok ()⟩ => conclude a d source written (events ++ more)

def run (s : Surroundings) (t : Tree) (argv : List Text) : Ending :=
  let columns := Help.columns s.vars
  match Arguments.parse argv with
  | .error .help => ⟨t, [], Help.text columns, [], .ok 0⟩
  | .error (.usage message) =>
    ⟨t, [], [], Help.usage columns ++ Help.program ++ ": error: ".toList ++ message ++ ['\n'], .ok 2⟩
  | .ok a => execute s t a

end CommandLine
end JournalScript
