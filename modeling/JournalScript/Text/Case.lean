import JournalScript.Text.Basic
import JournalScript.Text.CaseTable

/-!
# JournalScript.Text.Case

Letter case of whole texts. Lower case is the full Unicode mapping: the dotted capital I becomes
two characters, and a capital sigma becomes the final form at the end of a word. Upper case is
needed only for comparing with ASCII words, so only characters whose upper-case form is ASCII are
mapped.

Main definitions: `Text.lower`, `Text.upperAscii`.
-/

namespace JournalScript
namespace Text

def inRanges (ranges : List (Nat × Nat)) (c : Char) : Bool :=
  ranges.any fun r => r.1 ≤ c.toNat && c.toNat ≤ r.2

def LowerRun.covers (r : LowerRun) (c : Char) : Bool :=
  r.first ≤ c.toNat && c.toNat ≤ r.last && (c.toNat - r.first) % r.step == 0

def lowerChar (c : Char) : Text :=
  if c.toNat < 128 then [c.toLower]
  else if c.toNat = 0x130 then ['i', Char.ofNat 0x307]
  else
    match lowerRuns.find? (·.covers c) with
    | some r => [Char.ofNat (c.toNat + r.offset).toNat]
    | none => [c]

def meetsCased (t : Text) : Bool :=
  match t.dropWhile (inRanges caseIgnorableRanges) with
  | [] => false
  | c :: _ => inRanges casedRanges c

/-- The small form of a capital sigma between the reversed text `before` and the text `after`: the
final form after a cased letter that no cased letter follows. -/
def lowerSigma (before after : Text) : Char :=
  if meetsCased before && !meetsCased after then 'ς' else 'σ'

/-- Lower case of the text that follows the reversed text `before`. -/
def lowerFrom (before : Text) : Text → Text
  | [] => []
  | c :: after =>
    (if c = 'Σ' then [lowerSigma before after] else lowerChar c) ++ lowerFrom (c :: before) after

def lower (t : Text) : Text := lowerFrom [] t

def upperAsciiForms : List (Char × Text) :=
  [('ß', ['S', 'S']), ('ı', ['I']), ('ſ', ['S']), ('ﬀ', ['F', 'F']), ('ﬁ', ['F', 'I']),
   ('ﬂ', ['F', 'L']), ('ﬃ', ['F', 'F', 'I']), ('ﬄ', ['F', 'F', 'L']), ('ﬅ', ['S', 'T']),
   ('ﬆ', ['S', 'T'])]

/-- The upper-case form of one character where that form is ASCII, else the character itself. -/
def upperAsciiChar (c : Char) : Text :=
  if c.toNat < 128 then [c.toUpper] else (upperAsciiForms.lookup c).getD [c]

/-- The upper-case form of a text as far as it is ASCII. It equals an ASCII word exactly when the
full upper-case form does. -/
def upperAscii (t : Text) : Text := t.flatMap upperAsciiChar

end Text
end JournalScript
