import JournalScript.Document.Files
import JournalScript.Summary

/-!
# JournalScript.Service

The four requests that the server answers: parse a journal into structured lines, render
structured lines to text, rewrite a journal in place or to another file, and count its lines.
Paths of journals must lie below the base directory. The arguments of a request are values; one of
the wrong kind is an error as soon as it is needed, and null stands for one that is not given.

Main definitions: `Service.parseJournal`, `Service.renderJournal`, `Service.rewriteJournal`,
`Service.summarizeJournal`.
-/

namespace JournalScript
namespace Service

structure ParseRequest where
  path : Value
  lineSeparator : Value
  includeRaw : Value
  /-- The modules whose calls are recognised; blank names are ignored. -/
  modules : Value
  limit : Value

structure NumberedLine where
  number : Nat
  line : Line
  deriving DecidableEq, Repr

/-- The answer to a parse request. The counts are those of the whole document. -/
structure ParseReport where
  filename : Text
  count : Nat
  calls : Nat
  raw : Nat
  truncated : Bool
  lines : List NumberedLine
  deriving DecidableEq, Repr

def defaultLimit : Nat := 500

def hardLimit : Nat := 10000

def limitOf (n : Int) : Except Fault Nat :=
  if n ≤ 0 then .error .limitNotPositive else .ok (min n.toNat hardLimit)

/-- The number of lines to return; a truth value counts as zero or one. With a fraction, which may
be compared but not counted to, there is none unless the highest number goes before it. -/
def effectiveLimit (limit : Value) : Except Fault (Option Nat) :=
  match limit with
  | .null => .ok (some defaultLimit)
  | .int n => (limitOf n).map some
  | .bool b => (limitOf (if b then 1 else 0)).map some
  | .decimal x =>
    if x.isPositive then .ok (if x.exceeds hardLimit then some hardLimit else none)
    else .error .limitNotPositive
  | other => .error (.limitNotNumber other.kind)

/-- Names without the blanks around them, and without those that are blank. -/
def namesOf : List Value → Except Fault (List Text)
  | [] => .ok []
  | .str name :: rest =>
    match namesOf rest with
    | .error fault => .error fault
    | .ok names => .ok (if Text.strip name = [] then names else Text.strip name :: names)
  | other :: _ => .error (.setting (.notText other.kind))

/-- The filter of the given modules; when no name is left, every module is recognised. -/
def moduleFilter (modules : Value) : Except Fault NameFilter :=
  if modules.isTrue then
    match modules.elements with
    | .error e => .error (.record e)
    | .ok items =>
      match namesOf items with
      | .error fault => .error fault
      | .ok [] => .ok .unrestricted
      | .ok names => .ok ⟨some names, none⟩
  else .ok .unrestricted

/-- The real path of a requested file. The base directory is looked for first. -/
def confine (s : Surroundings) (t : Tree) (path : Value) : Except Fault Path :=
  match s.baseDirectory t, path with
  | .error e, _ => .error (.path e)
  | .ok _, .str requested =>
    match s.confine t requested with
    | .error e => .error (.path e)
    | .ok p => .ok p
  | .ok _, other => .error (.notPath other.kind)

def numbered (lines : List Line) : List NumberedLine :=
  lines.zipIdx.map fun e => ⟨e.2 + 1, e.1⟩

def report (d : Document) (includeRaw : Bool) (limit : Nat) : ParseReport :=
  let selected := (numbered d.lines).filter fun n => includeRaw || n.line.isCall
  { filename := d.filename
    count := d.lines.length
    calls := d.callCount
    raw := d.lines.length - d.callCount
    truncated := decide (limit < selected.length)
    lines := selected.take limit }

def fetch (s : Surroundings) (t : Tree) (path lineSeparator modules : Value) :
    Except Fault Document × List Event :=
  match confine s t path with
  | .error fault => (.error fault, [])
  | .ok p =>
    match Layout.choose s.vars ⟨lineSeparator, .null, .null⟩ with
    | .error e => (.error (.setting e), [])
    | .ok layout =>
      match moduleFilter modules with
      | .error fault => (.error fault, [])
      | .ok filter => Document.fetch t s.toHost layout filter p.toText

def parseJournal (s : Surroundings) (t : Tree) (r : ParseRequest) :
    Except Fault ParseReport × List Event :=
  match effectiveLimit r.limit with
  | .error fault => (.error fault, [])
  | .ok limit =>
    match fetch s t r.path r.lineSeparator r.modules with
    | (.error fault, events) => (.error fault, events)
    | (.ok d, events) =>
      match limit with
      | none => (.error .limitNotWhole, events)
      | some n => (.ok (report d r.includeRaw.isTrue n), events)

structure RenderReport where
  count : Nat
  text : Text
  deriving DecidableEq, Repr

/-- Reads one structured line, which may also be given as a sequence of pairs. -/
def lineOf (v : Value) : Except Fault Line :=
  match v.record with
  | .error e => .error (.record e)
  | .ok fields =>
    match Line.ofValue (.object fields) with
    | .error found => .error (.payload found)
    | .ok line => .ok line

def linesOf : List Value → Except Fault (List Line)
  | [] => .ok []
  | v :: rest =>
    match lineOf v with
    | .error fault => .error fault
    | .ok line =>
      match linesOf rest with
      | .error fault => .error fault
      | .ok lines => .ok (line :: lines)

structure RenderRequest where
  lines : Value
  outputSeparator : Value
  skipEmpty : Value

def renderJournal (s : Surroundings) (r : RenderRequest) : Except Fault RenderReport :=
  match Layout.choose s.vars ⟨.null, r.outputSeparator, r.skipEmpty⟩ with
  | .error e => .error (.setting e)
  | .ok layout =>
    match r.lines.elements with
    | .error e => .error (.record e)
    | .ok items =>
      match linesOf items with
      | .error fault => .error fault
      | .ok lines =>
        .ok ⟨lines.length, (⟨[], lines, layout, .unrestricted, []⟩ : Document).render⟩

structure RewriteRequest where
  path : Value
  /-- Where to write; the journal itself unless this counts as true. -/
  outputPath : Value
  choices : Layout.Choices

structure RewriteReport where
  path : Text
  count : Nat
  roundTrip : Bool
  deriving DecidableEq, Repr

def targetOf (s : Surroundings) (t : Tree) (source : Path) (outputPath : Value) :
    Except Fault Path :=
  if outputPath.isTrue then confine s t outputPath else .ok source

def rewriteJournal (s : Surroundings) (t : Tree) (r : RewriteRequest) : Reply Tree RewriteReport :=
  match Layout.choose s.vars r.choices with
  | .error e => .fail t (.setting e)
  | .ok layout =>
    match confine s t r.path with
    | .error fault => .fail t fault
    | .ok source =>
      match targetOf s t source r.outputPath with
      | .error fault => .fail t fault
      | .ok target =>
        match Storage.readJournal t s.toHost source layout.encoding with
        | .error fault => .fail t fault
        | .ok text =>
          match Document.ofText layout .unrestricted text with
          | .error fault => .fail t fault
          | .ok d =>
            let named := { d with filename := source.toText }
            match named.store t s.toHost (some target.toText) with
            | ⟨written, events, .error fault⟩ => ⟨written, events, .error fault⟩
            | ⟨written, events, .ok out⟩ =>
              ⟨written, events, .ok ⟨out.toText, d.lines.length, decide (d.render = text)⟩⟩

structure SummaryRequest where
  path : Value
  lineSeparator : Value

structure SummaryReport where
  filename : Text
  summary : Summary
  deriving DecidableEq, Repr

def summarizeJournal (s : Surroundings) (t : Tree) (r : SummaryRequest) :
    Except Fault SummaryReport × List Event :=
  match fetch s t r.path r.lineSeparator .null with
  | (.error fault, events) => (.error fault, events)
  | (.ok d, events) => (.ok ⟨d.filename, Summary.ofLines d.lines⟩, events)

end Service
end JournalScript
