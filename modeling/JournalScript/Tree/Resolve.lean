import JournalScript.Host
import JournalScript.Text.Quoted
import JournalScript.Variables

/-!
# JournalScript.Tree.Resolve

The real path behind a path. Names are taken one by one; a link is replaced by the real path of its
target, `..` goes up from where the links have led, and names that do not exist are kept. When a
link turns up while its own target is still being resolved, the part found so far and the rest of
the text are joined and read as they stand; whether the result can be followed decides if that is an
error.

Main definitions: `PathError`, `Tree.resolve`, `Path.expandHome`, `Surroundings`,
`Surroundings.baseDirectory`, `Surroundings.confine`.
-/

namespace JournalScript

inductive PathError where
  | nullByte
  | linkLoop (path : Text)
  | noHome
  | outsideBase
  deriving DecidableEq, Repr

namespace PathError

def message : PathError → Text
  | .nullByte => "embedded null byte".toList
  | .linkLoop path => "Symlink loop from ".toList ++ Text.quoted path
  | .noHome => "Could not determine home directory.".toList
  | .outsideBase => "Path escapes base dir".toList

end PathError

/-- The links met so far, with their real paths as far as these are known. -/
abbrev LinkTable := List (Path × Option Path)

inductive Trail where
  | resolved (p : Path) (links : LinkTable)
  /-- A link came up again before its target was resolved. -/
  | stuck (p : Path) (links : LinkTable)

namespace Path

def up (p : Path) : Path :=
  match p.anchor, p.parts.getLast? with
  | .relative, none => ⟨.relative, [['.', '.']]⟩
  | .relative, some ['.', '.'] => ⟨.relative, p.parts ++ [['.', '.']]⟩
  | _, _ => p.parent

/-- The path with more names of a text behind it; the rest of a text that starts with a slash is a
path of its own. -/
def extend (p : Path) (rest : List Text) : Path :=
  match rest with
  | [] :: _ :: _ => ofText (Text.join ['/'] rest)
  | _ => ⟨p.anchor, p.parts ++ rest⟩

/-- Replaces a leading `~` by the home directory and a leading `~name` by that of an account. -/
def expandHome (accounts : List (Text × Text)) (vs : Variables) (p : Path) :
    Except PathError Path :=
  match p.anchor, p.parts with
  | .relative, ('~' :: user) :: rest =>
    if user.contains '\x00' then .error .nullByte
    else
      let home : Option Text :=
        if user = [] then
          match vs.get? "HOME".toList with
          | some home =>
            let bare := (home.reverse.dropWhile (· == '/')).reverse
            some (if bare = [] then ['/'] else bare)
          | none => accounts.lookup "root".toList
        else accounts.lookup user
      match home with
      | none => .error .noHome
      | some ('~' :: _) => .error .noHome
      | some home => .ok ⟨(ofText home).anchor, (ofText home).parts ++ rest⟩
  | _, _ => .ok p

end Path

namespace Tree

def linkTarget? (t : Tree) (cwd : Location) (p : Path) : Option Text :=
  match t.locate cwd .lookAtLast p with
  | .ok (.found _ (.link target)) => some target
  | _ => none

def traceWith (t : Tree) (cwd : Location)
    (onLink : Path → List Text → LinkTable → Except PathError Trail) :
    Path → List Text → LinkTable → Except PathError Trail
  | p, [], links => .ok (.resolved p links)
  | p, name :: rest, links =>
    if Path.isIdle name then traceWith t cwd onLink p rest links
    else if name = ['.', '.'] then traceWith t cwd onLink p.up rest links
    else if name.contains '\x00' then .error .nullByte
    else
      let next : Path := ⟨p.anchor, p.parts ++ [name]⟩
      match t.linkTarget? cwd next with
      | none => traceWith t cwd onLink next rest links
      | some target =>
        match links.lookup next with
        | some (some real) => traceWith t cwd onLink real rest links
        | some none => .ok (.stuck (next.extend rest) links)
        | none =>
          let start : Path := if target.head? = some '/' then ⟨.root, []⟩ else p
          match onLink start (Path.names target) ((next, none) :: links) with
          | .error e => .error e
          | .ok (.stuck q links) => .ok (.stuck (q.extend rest) links)
          | .ok (.resolved real links) =>
            traceWith t cwd onLink real rest ((next, some real) :: links)

def trace (t : Tree) (cwd : Location) :
    Nat → Path → List Text → LinkTable → Except PathError Trail
  | 0 => traceWith t cwd fun p rest links => .ok (.stuck (p.extend rest) links)
  | depth + 1 => traceWith t cwd (trace t cwd depth)

/-- A depth that nested links do not exceed: a link is entered again only under another spelling
of its path, and there are a relative and an absolute one. -/
def traceDepth (t : Tree) : Nat := 2 * t.entries.length + 1

/-- The real path behind a path. It is an error if the result leads into a loop of links. -/
def resolve (t : Tree) (cwd : Location) (p : Path) : Except PathError Path :=
  let start : Path := if p.isAbsolute then ⟨.root, []⟩ else ⟨.relative, []⟩
  match trace t cwd t.traceDepth start p.parts [] with
  | .error e => .error e
  | .ok (.resolved q _) | .ok (.stuck q _) =>
    let real := q.normal cwd
    if real.hasNull then .error .nullByte
    else
      match t.locate cwd .look real with
      | .error .tooManyLinks => .error (.linkLoop real.toText)
      | _ => .ok real

end Tree

structure Surroundings extends Host where
  vars : Variables
  accounts : List (Text × Text)

namespace Surroundings

/-- The directory below which all requested files must lie: the one that is configured, or the
working directory. -/
def baseDirectory (s : Surroundings) (t : Tree) : Except PathError Path :=
  match s.vars.get? "JOURNAL_BASE_DIR".toList with
  | some dir => t.resolve s.cwd (Path.ofText dir)
  | none => t.resolve s.cwd ⟨.root, s.cwd⟩

def confine (s : Surroundings) (t : Tree) (requested : Text) : Except PathError Path :=
  match s.baseDirectory t with
  | .error e => .error e
  | .ok base =>
    match (Path.ofText requested).expandHome s.accounts s.vars with
    | .error e => .error e
    | .ok p =>
      match t.resolve s.cwd (base.append p) with
      | .error e => .error e
      | .ok real => if real.isUnder base then .ok real else .error .outsideBase

end Surroundings
end JournalScript
