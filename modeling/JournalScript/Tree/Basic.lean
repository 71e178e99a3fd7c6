import JournalScript.Encoding
import JournalScript.Path

/-!
# JournalScript.Tree.Basic

A tree of files, directories and symbolic links, and how a path is followed in it. A link may have
any target; following stops after forty links. A name has at most 255 bytes and a path fewer than
4096.

Main definitions: `Node`, `Tree`, `Tree.get?`, `Tree.set`, `Tree.locate`.
-/

namespace JournalScript

inductive Node where
  | file (content : Bytes)
  | directory
  | link (target : Text)
  deriving DecidableEq, Repr

abbrev Location := List Text

structure Tree where
  entries : List (Location × Node)
  deriving DecidableEq, Repr

inductive AccessKind where
  | missing
  | exists
  | notDirectory
  | isDirectory
  | nameTooLong
  | tooManyLinks
  deriving DecidableEq, Repr

inductive Place where
  | found (loc : Location) (node : Node)
  /-- Nothing is there, but the directory that would hold it exists. -/
  | vacant (loc : Location)
  deriving DecidableEq, Repr

inductive Purpose where
  | look
  /-- To look at the last name itself, even if it is a link. -/
  | lookAtLast
  /-- To write a file, which must not be named with a slash at the end. -/
  | write
  deriving DecidableEq, Repr

namespace AccessKind

def message : AccessKind → String
  | .missing => "[Errno 2] No such file or directory: "
  | .exists => "[Errno 17] File exists: "
  | .notDirectory => "[Errno 20] Not a directory: "
  | .isDirectory => "[Errno 21] Is a directory: "
  | .nameTooLong => "[Errno 36] File name too long: "
  | .tooManyLinks => "[Errno 40] Too many levels of symbolic links: "

end AccessKind

namespace Tree

def empty : Tree := ⟨[]⟩

def get? (t : Tree) (loc : Location) : Option Node :=
  if loc = [] then some .directory else t.entries.lookup loc

def set (t : Tree) (loc : Location) (node : Node) : Tree :=
  ⟨(loc, node) :: t.entries.filter fun e => e.1 != loc⟩

/-- Whether only the empty names of slashes at the end are left. -/
def onlySlashes (rest : List Text) : Bool := !rest.isEmpty && rest.all List.isEmpty

def nameLimit : Nat := 255

/-- The number of bytes that no path reaches. -/
def pathLimit : Nat := 4096

def byteCount (t : Text) : Nat := t.foldl (fun n c => n + c.utf8Size) 0

/-- Follows names from the directory `loc`, handing each link with what is left to `onLink`. -/
def walkWith (t : Tree) (purpose : Purpose)
    (onLink : Location → List Text → Except AccessKind Place) :
    Location → List Text → Except AccessKind Place
  | loc, [] =>
    match t.get? loc with
    | some node => .ok (.found loc node)
    | none => .error .missing
  | loc, name :: rest =>
    match t.get? loc with
    | none => .error .missing
    | some (.file _) => .error .notDirectory
    | some (.link _) => .error .notDirectory
    | some .directory =>
      if Path.isIdle name then walkWith t purpose onLink loc rest
      else if name = ['.', '.'] then walkWith t purpose onLink loc.dropLast rest
      else if purpose = .write && onlySlashes rest then .error .isDirectory
      else if nameLimit < byteCount name then .error .nameTooLong
      else
        match t.get? (loc ++ [name]) with
        | none => if rest = [] then .ok (.vacant (loc ++ [name])) else .error .missing
        | some (.link target) =>
          if rest = [] && purpose = .lookAtLast then .ok (.found (loc ++ [name]) (.link target))
          else onLink (if target.head? = some '/' then [] else loc) (Path.names target ++ rest)
        | some _ => walkWith t purpose onLink (loc ++ [name]) rest

def walk (t : Tree) (purpose : Purpose) : Nat → Location → List Text → Except AccessKind Place
  | 0 => walkWith t purpose fun _ _ => .error .tooManyLinks
  | links + 1 => walkWith t purpose (walk t purpose links)

def linkLimit : Nat := 40

def locate (t : Tree) (cwd : Location) (purpose : Purpose) (p : Path) :
    Except AccessKind Place :=
  if pathLimit ≤ byteCount p.toText then .error .nameTooLong
  else walk t purpose linkLimit (if p.isAbsolute then [] else cwd) p.parts

end Tree
end JournalScript
