import JournalScript.Line.Parameters
import JournalScript.Line.Timestamp

/-!
# JournalScript.Line.Parser

Reading a line. A call is `module.action(parameters)suffix`, where the module is `Jrn` and three
letters, the action is one or more letters, and the parameter list runs to the last closing
parenthesis; a line with a timestamp in front must end in a semicolon. Every other line is raw and
keeps its whole text.

Main definitions: `NameFilter`, `Call.ofText?`, `Line.parse`.
-/

namespace JournalScript

/-- The names that calls may have; `none` admits every name. -/
structure NameFilter where
  modules : Option (List Text)
  actions : Option (List Text)
  deriving DecidableEq, Repr

namespace NameFilter

def unrestricted : NameFilter := ⟨none, none⟩

def admits (names : Option (List Text)) (name : Text) : Bool :=
  match names with
  | none => true
  | some names => names.contains name

def accepts (f : NameFilter) (module action : Text) : Bool :=
  admits f.modules module && admits f.actions action

end NameFilter

namespace Call

def isModuleName : Text → Bool
  | ['J', 'r', 'n', a, b, c] => a.isAlpha && b.isAlpha && c.isAlpha
  | _ => false

/-- Reads a call that takes up the whole text. The line feed is the one character that ends a
line for good, so no call holds one. -/
def ofText? (stamp t : Text) : Option Call :=
  let module := t.take 6
  match t.drop 6 with
  | '.' :: rest =>
    let action := rest.takeWhile Char.isAlpha
    match rest.dropWhile Char.isAlpha with
    | '(' :: inner =>
      if isModuleName module && !action.isEmpty && !inner.contains '\n' then
        match Text.splitLast? [')'] inner with
        | some (parameters, suffix) =>
          some ⟨stamp, module, action, Parameter.parseList parameters, suffix⟩
        | none => none
      else none
    | _ => none
  | _ => none

end Call

namespace Line

/-- Cuts the timestamp and the marks around it off a line; the rest ends in a semicolon and has no
line feed. -/
def stamped? (line : Text) : Option (Text × Text) :=
  match line with
  | '/' :: '*' :: t =>
    match Timestamp.split? t with
    | some (stamp, '*' :: '/' :: ' ' :: rest) =>
      if rest.getLast? == some ';' && !rest.contains '\n' then some (stamp, rest) else none
    | _ => none
  | _ => none

/-- Reads one line. A call whose names are not admitted is raw, like everything else that is not a
call. -/
def parse (f : NameFilter) (line : Text) : Line :=
  let (stamp, body) := (stamped? line).getD ([], line)
  match Call.ofText? stamp body with
  | some c => if f.accepts c.module c.action then .call c else .raw line
  | none => .raw line

end Line
end JournalScript
