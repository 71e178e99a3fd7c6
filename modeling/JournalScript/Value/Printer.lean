import JournalScript.Value.Basic

/-!
# JournalScript.Value.Printer

Values as JSON text with an indent of two spaces a level. Characters beyond ASCII are written as
they are; quotes, backslashes and control characters below the space are escaped.

Main definitions: `Value.jsonText`.
-/

namespace JournalScript
namespace Value

def jsonChar (c : Char) : Text :=
  if c = '"' || c = '\\' then ['\\', c]
  else if c = '\n' then ['\\', 'n']
  else if c = '\r' then ['\\', 'r']
  else if c = '\t' then ['\\', 't']
  else if c = '\x08' then ['\\', 'b']
  else if c = '\x0c' then ['\\', 'f']
  else if c.toNat < 32 then '\\' :: 'u' :: Text.hex 4 c.toNat
  else [c]

def jsonString (s : Text) : Text := '"' :: (s.flatMap jsonChar ++ ['"'])

def jsonBreak (depth : Nat) : Text := '\n' :: List.replicate (2 * depth) ' '

mutual

def jsonAt (depth : Nat) : Value → Text
  | .null => ['n', 'u', 'l', 'l']
  | .bool true => ['t', 'r', 'u', 'e']
  | .bool false => ['f', 'a', 'l', 's', 'e']
  | .int n => Text.ofInt n
  | .decimal x => x.text
  | .str s => jsonString s
  | .list [] => ['[', ']']
  | .list (v :: rest) =>
    ['['] ++ jsonBreak (depth + 1) ++ jsonAt (depth + 1) v ++ jsonItems (depth + 1) rest ++
      jsonBreak depth ++ [']']
  | .object [] => ['\x7b', '\x7d']
  | .object ((k, v) :: rest) =>
    ['\x7b'] ++ jsonBreak (depth + 1) ++ jsonString k ++ [':', ' '] ++ jsonAt (depth + 1) v ++
      jsonFields (depth + 1) rest ++ jsonBreak depth ++ ['\x7d']

def jsonItems (depth : Nat) : List Value → Text
  | [] => []
  | v :: rest => [','] ++ jsonBreak depth ++ jsonAt depth v ++ jsonItems depth rest

def jsonFields (depth : Nat) : List (Text × Value) → Text
  | [] => []
  | (k, v) :: rest =>
    [','] ++ jsonBreak depth ++ jsonString k ++ [':', ' '] ++ jsonAt depth v ++
      jsonFields depth rest

end

def jsonText (v : Value) : Text := jsonAt 0 v

end Value
end JournalScript
