import JournalScript.Text.Blank

/-!
# JournalScript.Text.Wrap

Breaking a text into lines of a given width. A line is broken at a space, which is dropped, or
behind a hyphen between two letters; a piece that is wider than a line has a line of its own.

Main definitions: `Text.wrap`.
-/

namespace JournalScript
namespace Text

/-- Cuts a word behind its hyphens; the first argument is the reversed current piece. -/
def hyphenPieces : Text → Text → List Text
  | piece, [] => [piece.reverse]
  | piece, c :: rest =>
    if c == '-' && piece.head?.any Char.isAlpha && rest.head?.any Char.isAlpha then
      (c :: piece).reverse :: hyphenPieces [] rest
    else hyphenPieces (c :: piece) rest

/-- The pieces between which a line may be broken; the spaces are pieces too. -/
def wrapPieces (t : Text) : List Text :=
  List.intercalate [[' ']] ((split [' '] t).map (hyphenPieces []))

/-- Fills lines with pieces; the second argument is the current line. -/
def fill (width : Nat) : Text → List Text → List Text
  | line, [] => if line.isEmpty then [] else [stripRight line]
  | line, piece :: rest =>
    if line.isEmpty then fill width (if piece == [' '] then [] else piece) rest
    else if line.length + piece.length ≤ width then fill width (line ++ piece) rest
    else stripRight line :: fill width (if piece == [' '] then [] else piece) rest

def wrap (width : Nat) (t : Text) : List Text := fill width [] (wrapPieces t)

end Text
end JournalScript
