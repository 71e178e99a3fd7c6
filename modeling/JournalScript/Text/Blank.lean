import JournalScript.Text.Basic

/-!
# JournalScript.Text.Blank

Blank characters: the Unicode white space together with the four ASCII information separators.

Main definitions: `Text.isBlank`, `Text.strip`.
-/

namespace JournalScript
namespace Text

/-- The blank code points, as ascending ranges with both ends included. -/
def blankRanges : List (Nat × Nat) :=
  [(0x09, 0x0D), (0x1C, 0x20), (0x85, 0x85), (0xA0, 0xA0), (0x1680, 0x1680), (0x2000, 0x200A),
   (0x2028, 0x2029), (0x202F, 0x202F), (0x205F, 0x205F), (0x3000, 0x3000)]

def isBlank (c : Char) : Bool := blankRanges.any fun r => r.1 ≤ c.toNat && c.toNat ≤ r.2

def stripLeft (t : Text) : Text := t.dropWhile isBlank

def stripRight (t : Text) : Text := (stripLeft t.reverse).reverse

def strip (t : Text) : Text := stripRight (stripLeft t)

end Text
end JournalScript
