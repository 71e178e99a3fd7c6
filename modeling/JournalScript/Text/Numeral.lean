import JournalScript.Text.Blank
import JournalScript.Text.Digit

/-!
# JournalScript.Text.Numeral

Reading integers. Digits of all scripts count, blanks may stand around the number, and single
underscores between its digits. The four information separators are blanks only in a text that is
not all ASCII.

Main definitions: `Text.digitValue?`, `Text.readInt?`.
-/

namespace JournalScript
namespace Text

def digitValue? (c : Char) : Option Nat :=
  match decimalZeros.find? fun z => z ≤ c.toNat && c.toNat < z + 10 with
  | some z => some (c.toNat - z)
  | none => none

/-- Reads the digits behind the number `n`. -/
def readDigits? : Nat → Text → Option Nat
  | n, [] => some n
  | n, '_' :: c :: rest =>
    match digitValue? c with
    | some d => readDigits? (10 * n + d) rest
    | none => none
  | n, c :: rest =>
    match digitValue? c with
    | some d => readDigits? (10 * n + d) rest
    | none => none

/-- The number of digits that an integer may have at most. -/
def digitLimit : Nat := 4300

def readNat? (t : Text) : Option Nat :=
  match t with
  | [] => none
  | c :: rest =>
    match digitValue? c with
    | some d => if digitLimit < (t.filter isDecimal).length then none else readDigits? d rest
    | none => none

def isInformationSeparator (c : Char) : Bool := 0x1C ≤ c.toNat && c.toNat ≤ 0x1F

/-- A numeral without the blanks around it. An information separator that is no blank stays, and no
numeral holds one. -/
def bareNumeral (t : Text) : Text :=
  if t.all (fun c => c.toNat < 128) && t.any isInformationSeparator then t else strip t

def readInt? (t : Text) : Option Int :=
  match bareNumeral t with
  | '-' :: digits => (readNat? digits).map fun n => -(Int.ofNat n)
  | '+' :: digits => (readNat? digits).map Int.ofNat
  | digits => (readNat? digits).map Int.ofNat

end Text
end JournalScript
