import JournalScript.Text.Quoted

/-!
# JournalScript.Value.Decimal

Numbers with a fraction or an exponent. They are binary numbers of limited precision, each of which
is named by the fewest decimal digits that no other one has.

Main definitions: `Decimal`, `Decimal.ofDigits`, `Decimal.exceeds`, `Decimal.text`.
-/

namespace JournalScript

/-- The digits times the power of ten. -/
structure Decimal where
  negative : Bool
  digits : Nat
  exponent : Int
  trimmed : digits % 10 = 0 → digits = 0
  deriving DecidableEq, Repr

namespace Decimal

def ofDigits (negative : Bool) (digits : Nat) (exponent : Int) : Decimal :=
  if hzero : digits = 0 then ⟨negative, 0, 0, fun _ => rfl⟩
  else if hmore : digits % 10 = 0 then ofDigits negative (digits / 10) (exponent + 1)
  else ⟨negative, digits, exponent, fun h => absurd h hmore⟩
termination_by digits
decreasing_by omega

def isPositive (x : Decimal) : Bool := !x.negative && x.digits != 0

def exceeds (x : Decimal) (n : Nat) : Bool :=
  if x.negative then false
  else if 0 ≤ x.exponent then decide (n < x.digits * Nat.pow 10 x.exponent.toNat)
  else decide (n * Nat.pow 10 x.exponent.natAbs < x.digits)

def zeros (n : Int) : Text := List.replicate n.toNat '0'

def fixed (digits : Text) (point : Int) : Text :=
  if point ≤ 0 then ['0', '.'] ++ zeros (-point) ++ digits
  else if digits.length ≤ point then digits ++ zeros (point - digits.length) ++ ['.', '0']
  else digits.take point.toNat ++ ['.'] ++ digits.drop point.toNat

def exponentText (e : Int) : Text :=
  (if e < 0 then '-' else '+') ::
    ((if e.natAbs < 10 then ['0'] else []) ++ Text.ofNat e.natAbs)

def scientific (digits : Text) (point : Int) : Text :=
  digits.take 1 ++ (if digits.length = 1 then [] else '.' :: digits.drop 1) ++
    ['e'] ++ exponentText (point - 1)

/-- The number in digits; with an exponent where it has more than sixteen digits in front of the
point, or more than three zeros behind it. -/
def text (x : Decimal) : Text :=
  let digits := Text.ofNat x.digits
  let point := if x.digits = 0 then 1 else digits.length + x.exponent
  (if x.negative then ['-'] else []) ++
    if -4 < point ∧ point ≤ 16 then fixed digits point else scientific digits point

example : text ⟨true, 125, -2, by decide⟩ = "-1.25".toList := by decide

end Decimal
end JournalScript
