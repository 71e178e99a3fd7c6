import JournalScript.CommandLine.Arguments
import JournalScript.Text.Numeral
import JournalScript.Text.Wrap

/-!
# JournalScript.CommandLine.Help

The usage and the help text of the command, laid out for a screen of a given width. Two columns
stay free at the right. The usage keeps each option in one piece, and the path starts a line of its
own as soon as not everything fits on one line.

Main definitions: `Help.columns`, `Help.usage`, `Help.text`.
-/

namespace JournalScript

namespace Flag

def all : List Flag := [.help, .eol, .outEol, .skipEmpty, .json, .check, .write]

def valueMark : Flag → Text
  | .eol => " EOL".toList
  | .outEol => " OUT_EOL".toList
  | .write => " WRITE".toList
  | _ => []

def purpose : Flag → String
  | .help => "show this help message and exit"
  | .eol => "Input line separator (crlf, lf, cr, os). Default: crlf"
  | .outEol => "Output line separator (crlf, lf, cr, os). Default: lf"
  | .skipEmpty => "Omit empty lines when writing"
  | .json => "Print lines as JSON"
  | .check => "Exit 1 unless the file round-trips byte-identically"
  | .write => "Write the re-serialized journal to this path"

def inUsage (f : Flag) : Text := ['['] ++ (f.spelled.head?.getD []) ++ f.valueMark ++ [']']

def heading (f : Flag) : Text := Text.join [',', ' '] (f.spelled.map fun s => s ++ f.valueMark)

end Flag

namespace Help

def program : Text := "journal-script".toList

def operand : Text := "journal_path".toList

def description : Text := "Parse and re-serialize journal scripts.".toList

def lead : Text := "usage: ".toList

def defaultColumns : Nat := 80

def columnsVariable : Text := "COLUMNS".toList

def columns (vs : Variables) : Nat :=
  match (vs.get? columnsVariable).bind Text.readInt? with
  | some (.ofNat (n + 1)) => n + 1
  | _ => defaultColumns

def spaces (n : Nat) : Text := List.replicate n ' '

/-- Packs parts into lines. `used` is the width of the current line less the space in front of its
next part, and each later line starts behind `indent` spaces. -/
def pack (width indent : Nat) : Nat → List Text → List Text → List (List Text)
  | _, line, [] => if line.isEmpty then [] else [line]
  | used, line, part :: rest =>
    if width < used + 1 + part.length && !line.isEmpty then
      line :: pack width indent (indent + part.length) [part] rest
    else pack width indent (used + 1 + part.length) (line ++ [part]) rest

def packed (width indent : Nat) (parts : List Text) : List Text :=
  (pack width indent (indent - 1) [] parts).map fun line => spaces indent ++ Text.join [' '] line

/-- The lines of the usage that the command and its options begin; the first starts behind the
lead. -/
def packedBehindLead (width indent : Nat) (parts : List Text) : List Text :=
  match pack width indent (lead.length - 1) [] parts with
  | [] => []
  | first :: rest =>
    (lead ++ Text.join [' '] first) ::
      rest.map fun line => spaces indent ++ Text.join [' '] line

/-- The lines of the usage. Where the name of the command takes up most of a line, it has the first
one for itself. -/
def usageLines (columns : Nat) : List Text :=
  let width := columns - 2
  let options := Flag.all.map Flag.inUsage
  let whole := lead ++ Text.join [' '] (program :: options ++ [operand])
  let named := lead.length + program.length
  if whole.length ≤ width then [whole]
  else if 4 * named ≤ 3 * width then
    packedBehindLead width (named + 1) (program :: options) ++ packed width (named + 1) [operand]
  else
    (lead ++ program) ::
      match packed width lead.length (options ++ [operand]) with
      | [line] => [line]
      | _ => packed width lead.length options ++ packed width lead.length [operand]

def ofLines (lines : List Text) : Text := lines.flatMap fun line => line ++ ['\n']

def usage (columns : Nat) : Text := ofLines (usageLines columns)

def leastWidth : Nat := 11

/-- Where the purposes of the options start: behind the longest heading, unless the screen is too
narrow for that. -/
def purposeColumn (columns : Nat) : Nat :=
  min ((Flag.all.map fun f => f.heading.length).foldl max operand.length + 4)
    (min 24 (max (columns - 22) 4))

/-- An option with its purpose, which starts on the next line if the heading is too long. -/
def optionLines (columns : Nat) (f : Flag) : List Text :=
  let start := purposeColumn columns
  let head := spaces 2 ++ f.heading
  let purpose := Text.wrap (max (columns - 2 - start) leastWidth) f.purpose.toList
  if head.length + 2 ≤ start then
    match purpose with
    | [] => [head]
    | first :: rest => (head.rightpad start ' ' ++ first) :: rest.map (spaces start ++ ·)
  else head :: purpose.map (spaces start ++ ·)

def text (columns : Nat) : Text :=
  usage columns ++
    ofLines ([] :: Text.wrap (max (columns - 2) leastWidth) description ++
      [[], "positional arguments:".toList, spaces 2 ++ operand, [], "options:".toList] ++
      Flag.all.flatMap (optionLines columns))

end Help
end JournalScript
