/-!
# JournalScript.Text.Basic

Text is a list of Unicode scalar values. This module cuts and joins it.

Main definitions: `Text.split` (cut at every occurrence of a separator), `Text.join` (the text with
a separator between consecutive pieces), `Text.splitLast?` (cut at the last occurrence of a mark).
-/

namespace JournalScript

abbrev Text := List Char

namespace Text

/-- One pass over the text. `skip` characters of a separator are still to be dropped, `piece` is
the current piece and `done` holds the finished pieces, both reversed. -/
def splitFrom (sep : Text) : Nat → Text → List Text → Text → List Text
  | _, piece, done, [] => (piece.reverse :: done).reverse
  | skip + 1, piece, done, _ :: rest => splitFrom sep skip piece done rest
  | 0, piece, done, c :: rest =>
    if sep.isPrefixOf (c :: rest) then
      splitFrom sep (sep.length - 1) [] (piece.reverse :: done) rest
    else splitFrom sep 0 (c :: piece) done rest

/-- Cuts a text at every occurrence of a non-empty separator, scanning from the left; there is one
piece more than there are cuts, so the empty text gives one empty piece. -/
def split (sep t : Text) : List Text := splitFrom sep 0 [] [] t

def join (sep : Text) (pieces : List Text) : Text := List.intercalate sep pieces

/-- Looks for the reversed `mark` in a reversed text; `after` is what lies behind the position. -/
def splitLastFrom (mark after : Text) : Text → Option (Text × Text)
  | [] => none
  | c :: rest =>
    if mark.isPrefixOf (c :: rest) then some ((rest.drop (mark.length - 1)).reverse, after)
    else splitLastFrom mark (c :: after) rest

/-- What stands before and after the last occurrence of a non-empty mark. -/
def splitLast? (mark t : Text) : Option (Text × Text) := splitLastFrom mark.reverse [] t.reverse

def ofNat (n : Nat) : Text := Nat.toDigits 10 n

def ofInt : Int → Text
  | .ofNat n => ofNat n
  | .negSucc n => '-' :: ofNat (n + 1)

def hex (width n : Nat) : Text := (Nat.toDigits 16 n).leftpad width '0'

end Text
end JournalScript
