import JournalScript.Tree.Basic
import JournalScript.Text.Quoted

/-!
# JournalScript.Tree.Access

Reading and changing a file tree through paths. A file is emptied, or created, at the moment it is
opened for writing, before its new content is known.

Main definitions: `AccessError`, `Tree.isFile`, `Tree.contentOf`, `Tree.openForWriting`,
`Tree.ensureDirectory`.
-/

namespace JournalScript

inductive AccessError where
  | failed (kind : AccessKind) (path : Text)
  | nullByte
  deriving DecidableEq, Repr

namespace AccessError

def message : AccessError → Text
  | .failed kind path => kind.message.toList ++ Text.quoted path
  | .nullByte => "embedded null byte".toList

end AccessError

namespace Tree

/-- What a path leads to, if it leads anywhere. That a name is too long is an error; whatever else
keeps the path from leading anywhere is not. -/
def lookAt (t : Tree) (cwd : Location) (p : Path) : Except AccessError (Option Node) :=
  if p.hasNull then .ok none
  else
    match t.locate cwd .look p with
    | .error .nameTooLong => .error (.failed .nameTooLong p.toText)
    | .ok (.found _ node) => .ok (some node)
    | _ => .ok none

def isFile (t : Tree) (cwd : Location) (p : Path) : Except AccessError Bool :=
  match t.lookAt cwd p with
  | .error e => .error e
  | .ok (some (.file _)) => .ok true
  | .ok _ => .ok false

def isDirectory (t : Tree) (cwd : Location) (p : Path) : Except AccessError Bool :=
  match t.lookAt cwd p with
  | .error e => .error e
  | .ok (some .directory) => .ok true
  | .ok _ => .ok false

def contentOf (t : Tree) (cwd : Location) (p : Path) : Except AccessError Bytes :=
  if p.hasNull then .error .nullByte
  else
    match t.locate cwd .look p with
    | .error kind => .error (.failed kind p.toText)
    | .ok (.vacant _) => .error (.failed .missing p.toText)
    | .ok (.found _ (.file content)) => .ok content
    | .ok (.found _ _) => .error (.failed .isDirectory p.toText)

/-- Opens a file for writing: the tree with the file empty, and where the file is. -/
def openForWriting (t : Tree) (cwd : Location) (p : Path) :
    Except AccessError (Tree × Location) :=
  if p.hasNull then .error .nullByte
  else
    match t.locate cwd .write p with
    | .error kind => .error (.failed kind p.toText)
    | .ok (.vacant loc) => .ok (t.set loc (.file []), loc)
    | .ok (.found loc (.file _)) => .ok (t.set loc (.file []), loc)
    | .ok (.found _ _) => .error (.failed .isDirectory p.toText)

def makeDirectory (t : Tree) (cwd : Location) (p : Path) : Except AccessError Tree :=
  if p.hasNull then .error .nullByte
  else
    match t.locate cwd .lookAtLast p with
    | .error kind => .error (.failed kind p.toText)
    | .ok (.found _ _) => .error (.failed .exists p.toText)
    | .ok (.vacant loc) => .ok (t.set loc .directory)

def makeIfAbsent (t : Tree) (cwd : Location) (p : Path) : Except AccessError Tree :=
  match t.makeDirectory cwd p with
  | .ok made => .ok made
  | .error .nullByte => .error .nullByte
  | .error (.failed .missing path) => .error (.failed .missing path)
  | .error (.failed kind path) =>
    match t.isDirectory cwd p with
    | .error e => .error e
    | .ok true => .ok t
    | .ok false => .error (.failed kind path)

/-- Makes the directory with the given names, last one first, and the directories above it. The
tree is returned in either case, since directories made before a failure stay. -/
def ensureNames (t : Tree) (cwd : Location) (anchor : Anchor) :
    List Text → Tree × Except AccessError Unit
  | [] =>
    match t.makeIfAbsent cwd ⟨anchor, []⟩ with
    | .ok made => (made, .ok ())
    | .error e => (t, .error e)
  | name :: above =>
    let p : Path := ⟨anchor, (name :: above).reverse⟩
    match t.makeIfAbsent cwd p with
    | .ok made => (made, .ok ())
    | .error (.failed .missing _) =>
      match ensureNames t cwd anchor above with
      | (made, .error e) => (made, .error e)
      | (made, .ok ()) =>
        match made.makeIfAbsent cwd p with
        | .ok done => (done, .ok ())
        | .error e => (made, .error e)
    | .error e => (t, .error e)

def ensureDirectory (t : Tree) (cwd : Location) (p : Path) : Tree × Except AccessError Unit :=
  ensureNames t cwd p.anchor p.parts.reverse

end Tree
end JournalScript
