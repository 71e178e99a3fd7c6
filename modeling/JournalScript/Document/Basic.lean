import JournalScript.Layout
import JournalScript.Line.Parser

/-!
# JournalScript.Document.Basic

A document: the lines of a journal script, each read on its own, with the layout that says how its
text is cut and joined.

Main definitions: `Document`, `Document.parseLines?`, `Document.literals`, `Document.render`.
-/

namespace JournalScript

structure Document where
  /-- The file it was opened from; empty when there is none. -/
  filename : Text
  lines : List Line
  layout : Layout
  filter : NameFilter
  /-- The indices of the calls whose parameters are the empty text in place of a list. -/
  textual : List Nat
  deriving DecidableEq, Repr

namespace Document

def new (layout : Layout) (filter : NameFilter) : Document := ⟨[], [], layout, filter, []⟩

/-- The lines of a text under a layout; an empty separator cuts nothing and gives none. -/
def parseLines? (layout : Layout) (filter : NameFilter) (text : Text) : Option (List Line) :=
  if layout.lineSeparator = [] then none
  else some ((Text.split layout.lineSeparator text).map (Line.parse filter))

def keeps (layout : Layout) (l : Line) : Bool := !(layout.skipEmpty && l.isBlankRaw)

def literals (d : Document) : List Text := (d.lines.filter (keeps d.layout)).map Line.literal

def render (d : Document) : Text := Text.join d.layout.outputSeparator d.literals

def clear (d : Document) : Document := { d with lines := [], filename := [], textual := [] }

def callCount (d : Document) : Nat := d.lines.countP Line.isCall

end Document
end JournalScript
