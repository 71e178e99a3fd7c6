import JournalScript.Text.Basic
import JournalScript.Text.Case

/-!
# JournalScript.Path

Paths as text: an anchor and a list of names. Empty names and single dots are dropped when a path
is read, while `..` stays, since what it means depends on links. Two leading slashes are kept apart
from one.

Main definitions: `Path`, `Path.ofText`, `Path.toText`, `Path.suffix`, `Path.normal`.
-/

namespace JournalScript

inductive Anchor where
  | relative
  | root
  | doubleRoot
  deriving DecidableEq, Repr

structure Path where
  anchor : Anchor
  parts : List Text
  deriving DecidableEq, Repr

namespace Path

def isIdle (name : Text) : Bool := name.isEmpty || name == ['.']

/-- The anchor of a path text: two slashes are kept, three or more count as one. -/
def anchorOf : Text → Anchor
  | '/' :: '/' :: '/' :: _ => .root
  | '/' :: '/' :: _ => .doubleRoot
  | '/' :: _ => .root
  | _ => .relative

def names (t : Text) : List Text := Text.split ['/'] t

def ofText (t : Text) : Path := ⟨anchorOf t, (names t).filter fun n => !isIdle n⟩

def anchorText : Anchor → Text
  | .relative => []
  | .root => ['/']
  | .doubleRoot => ['/', '/']

def toText (p : Path) : Text :=
  match p.anchor, p.parts with
  | .relative, [] => ['.']
  | anchor, parts => anchorText anchor ++ Text.join ['/'] parts

def isAbsolute (p : Path) : Bool := p.anchor != .relative

def name (p : Path) : Text := p.parts.getLast?.getD []

def parent (p : Path) : Path := ⟨p.anchor, p.parts.dropLast⟩

/-- The path extended by a relative one; an absolute path replaces it. -/
def append (p q : Path) : Path := if q.isAbsolute then q else ⟨p.anchor, p.parts ++ q.parts⟩

/-- A name cut at its last dot; a dot at either end of the name cuts nothing. -/
def cutName (n : Text) : Text × Text :=
  match Text.splitLast? ['.'] n with
  | some (stem, ext) => if stem.isEmpty || ext.isEmpty then (n, []) else (stem, '.' :: ext)
  | none => (n, [])

def suffix (p : Path) : Text := (cutName p.name).2

def withoutSuffix (p : Path) : Path := ⟨p.anchor, p.parts.dropLast ++ [(cutName p.name).1]⟩

def isCompressed (p : Path) : Bool := Text.lower p.suffix == ['.', 'g', 'z']

/-- Whether some name holds a null character, which no file system takes. -/
def hasNull (p : Path) : Bool := p.parts.any fun n => n.contains '\x00'

def isUnder (p base : Path) : Bool := p.anchor == base.anchor && base.parts.isPrefixOf p.parts

/-- One name of a path added to the reversed names before it, without looking at links. -/
def normalStep (done : List Text) (name : Text) : List Text :=
  if isIdle name then done
  else if name = ['.', '.'] then done.tail
  else name :: done

/-- The absolute path without idle and `..` names that a text-level reading gives, from the
working directory `cwd`. -/
def normal (cwd : List Text) (p : Path) : Path :=
  match p.anchor with
  | .relative => ⟨.root, ((cwd ++ p.parts).foldl normalStep []).reverse⟩
  | anchor => ⟨anchor, (p.parts.foldl normalStep []).reverse⟩

end Path
end JournalScript
