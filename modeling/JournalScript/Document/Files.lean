import JournalScript.Document.Basic
import JournalScript.Storage

/-!
# JournalScript.Document.Files

Documents and files. A document loads, opens and saves plain files itself; the journal storage
also takes compressed ones.

Main definitions: `Document.parseText`, `Document.load`, `Document.openFile`, `Document.saveAs`,
`Document.save`, `Document.fetch` and `Document.store` (through the storage).
-/

namespace JournalScript
namespace Document

def ofText (layout : Layout) (filter : NameFilter) (text : Text) : Except Fault Document :=
  match parseLines? layout filter text with
  | some lines => .ok ⟨[], lines, layout, filter, []⟩
  | none => .error .emptySeparator

/-- Adds the lines of a text. With a source, the lines that came from it are recorded. -/
def parseText (d : Document) (text : Text) (source : Option Text) : Reply Document Unit :=
  match parseLines? d.layout d.filter text with
  | none => .fail d .emptySeparator
  | some lines =>
    ⟨{ d with lines := d.lines ++ lines },
      match source with
      | some name => [.loaded name lines.length]
      | none => [],
      .ok ()⟩

def load (d : Document) (t : Tree) (host : Host) (filename : Text) : Reply Document Unit :=
  let p := Path.ofText filename
  match Storage.readPlain t host p d.layout.encoding with
  | .error fault => .fail d fault
  | .ok text => d.parseText text (some p.toText)

/-- Replaces the lines by those of a file and keeps its name. The old lines are gone once the file
has been read. -/
def openFile (d : Document) (t : Tree) (host : Host) (filename : Text) : Reply Document Unit :=
  let p := Path.ofText filename
  match Storage.readPlain t host p d.layout.encoding with
  | .error fault => .fail d fault
  | .ok text =>
    match d.clear.parseText text (some p.toText) with
    | ⟨read, events, .ok ()⟩ => ⟨{ read with filename := filename }, events, .ok ()⟩
    | failed => failed

def saveAs (d : Document) (t : Tree) (host : Host) (filename : Text) : Reply Tree Unit :=
  let p := Path.ofText filename
  match Storage.writePlain t host p d.layout.encoding d.render with
  | (written, .error fault) => .fail written fault
  | (written, .ok ()) => ⟨written, [.saved p.toText d.lines.length], .ok ()⟩

def save (d : Document) (t : Tree) (host : Host) : Reply Tree Unit :=
  if d.filename = [] then .fail t .unnamed else d.saveAs t host d.filename

def fetch (t : Tree) (host : Host) (layout : Layout) (filter : NameFilter) (filename : Text) :
    Except Fault Document × List Event :=
  match Storage.readJournal t host (Path.ofText filename) layout.encoding with
  | .error fault => (.error fault, [])
  | .ok text =>
    match (Document.new layout filter).parseText text (some filename) with
    | ⟨read, events, .ok ()⟩ => (.ok { read with filename := filename }, events)
    | ⟨_, events, .error fault⟩ => (.error fault, events)

def store (d : Document) (t : Tree) (host : Host) (target : Option Text) : Reply Tree Path :=
  let name := target.getD d.filename
  if name = [] then .fail t .noTarget
  else
    let p := Path.ofText name
    match Storage.writeJournal t host p d.layout.encoding d.render with
    | (written, .error fault) => .fail written fault
    | (written, .ok ()) => ⟨written, [.stored p.toText d.lines.length], .ok p⟩

end Document
end JournalScript
