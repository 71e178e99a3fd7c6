import JournalScript.Line.Basic

/-!
# JournalScript.Line.Parameters

The parameter list of a call. The text between the parentheses is cut at every comma, one space
after a comma belonging to the cut. The segments of a quoted string that held commas are then put
together again with bare commas, and a trailing comment is taken off each parameter.

Main definitions: `Segment`, `Segment.cut`, `Segment.groups`, `Parameter.ofLiteral`,
`Parameter.parseList`.
-/

namespace JournalScript

structure Segment where
  lead : Text
  body : Text
  deriving DecidableEq, Repr

namespace Segment

/-- A piece behind a comma, with one leading space moved into the cut. -/
def afterComma : Text → Segment
  | ' ' :: rest => ⟨[' '], rest⟩
  | piece => ⟨[], piece⟩

def cut (t : Text) : List Segment :=
  match Text.split [','] t with
  | [] => []
  | first :: others => ⟨[], first⟩ :: others.map afterComma

/-- Whether a segment starts a quoted string without closing it. -/
def opens (s : Segment) : Bool := s.body.head? == some '"' && s.body.getLast? != some '"'

def closes (s : Segment) : Bool := s.body.getLast? == some '"'

/-- Puts the segments of quoted strings together. The first argument holds the segments of a string
that is still open, last one first; a string that is never closed keeps all that it has
swallowed. -/
def groups : List Segment → List Segment → List (List Segment)
  | [], [] => []
  | s :: before, [] => [(s :: before).reverse]
  | [], next :: rest => if next.opens then groups [next] rest else [next] :: groups [] rest
  | s :: before, next :: rest =>
    if next.closes then (next :: s :: before).reverse :: groups [] rest
    else groups (next :: s :: before) rest

def groupText (g : List Segment) : Text := Text.join [','] (g.map Segment.body)

def groupLead (g : List Segment) : Text :=
  match g with
  | [] => []
  | s :: _ => s.lead

end Segment

namespace Parameter

/-- The value and the comment of a text that has a non-empty last comment. Only the first line of
the text is looked at, and what follows the comment there is dropped. -/
def detach? (t : Text) : Option (Text × Text) :=
  match Text.splitLast? ['*', '/'] (t.takeWhile (· != '\n')) with
  | none => none
  | some (before, _) =>
    match Text.splitLast? ['/', '*'] before with
    | none => none
    | some (value, comment) => if comment = [] then none else some (value, comment)

/-- Reads one parameter: a comment at its very end is taken off, and an empty one stays part of the
value so that it is written back. -/
def ofLiteral (lead t : Text) : Parameter :=
  if ['*', '/'].isSuffixOf t then
    match detach? t with
    | some (value, comment) => ⟨lead, value, comment⟩
    | none => ⟨lead, t, []⟩
  else ⟨lead, t, []⟩

def parseList (t : Text) : List Parameter :=
  if t = [] then []
  else (Segment.groups [] (Segment.cut t)).map fun g =>
    ofLiteral (Segment.groupLead g) (Segment.groupText g)

end Parameter
end JournalScript
