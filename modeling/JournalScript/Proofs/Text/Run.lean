import JournalScript.Proofs.Text.Tighten
import Mathlib.Logic.Function.Iterate
import Mathlib.Order.MinMax

/-!
# JournalScript.Proofs.Text.Run

Runs of one character, and what tightening does to the spaces behind a comma.

* `le_longestRun_iff`: the longest run of a character, as the texts that it holds.
* `commaRun_infix_iterate`: tightening `k` times takes `k` spaces away behind every comma. Hence
  `commaSpace_infix_iterate`: how often a text can be tightened before it stays as it is.
-/

namespace JournalScript
namespace Text

/-! ## The longest run -/

/-- The length of the longest run of a character. -/
def longestRun (c : Char) : Text → Nat
  | [] => 0
  | d :: t => max ((d :: t).takeWhile (· == c)).length (longestRun c t)

theorem replicate_succ_prefix_cons {c d : Char} {n : Nat} {t : Text} :
    List.replicate (n + 1) c <+: d :: t ↔ d = c ∧ List.replicate n c <+: t := by
  rw [List.replicate_succ, List.cons_prefix_cons, eq_comm]

theorem replicate_prefix_iff {c : Char} {n : Nat} {t : Text} :
    List.replicate n c <+: t ↔ n ≤ (t.takeWhile (· == c)).length := by
  induction t generalizing n with
  | nil => cases n <;> simp
  | cons d t ih =>
    cases n with
    | zero => simp
    | succ n => by_cases h : d = c <;> simp [replicate_succ_prefix_cons, h, ih]

theorem le_longestRun_iff {c : Char} {n : Nat} {t : Text} :
    n ≤ longestRun c t ↔ List.replicate n c <:+: t := by
  induction t with
  | nil => cases n <;> simp [longestRun]
  | cons d t ih => rw [longestRun, le_max_iff, ih, List.infix_cons_iff, replicate_prefix_iff]

/-! ## Spaces behind a comma -/

def commaRun (n : Nat) : Text := ',' :: List.replicate n ' '

theorem commaRun_infix_cons {n : Nat} {c : Char} {t : Text} :
    commaRun n <:+: c :: t ↔ (c = ',' ∧ List.replicate n ' ' <+: t) ∨ commaRun n <:+: t := by
  rw [List.infix_cons_iff, commaRun, List.cons_prefix_cons, eq_comm (a := ',')]

theorem head?_of_spaces_prefix {n : Nat} {t : Text} (h : List.replicate (n + 1) ' ' <+: t) :
    t.head? = some ' ' := by
  obtain ⟨u, rfl⟩ := h
  rfl

/-- Spaces are dropped behind a comma only, so as many as before stand in front. -/
theorem spaces_prefix_tighten {n : Nat} {t : Text} :
    List.replicate n ' ' <+: tighten t ↔ List.replicate n ' ' <+: t := by
  induction t using tightenInduction generalizing n with
  | nil => rfl
  | drop t _ => cases n <;> simp [tighten_comma_space, replicate_succ_prefix_cons]
  | keep c t h ih => cases n <;> simp [tighten_cons h, replicate_succ_prefix_cons, ih]

/-- Of two or more spaces behind a comma one is dropped, and no comma gets new ones. -/
theorem commaRun_infix_tighten {n : Nat} {t : Text} :
    commaRun (n + 1) <:+: tighten t ↔ commaRun (n + 2) <:+: t := by
  induction t using tightenInduction with
  | nil => simp [commaRun]
  | drop t ih =>
    simp [tighten_comma_space, commaRun_infix_cons, spaces_prefix_tighten,
      replicate_succ_prefix_cons, ih]
  | keep c t h ih =>
    have hold : ¬ (c = ',' ∧ List.replicate (n + 2) ' ' <+: t) := fun hr =>
      h ⟨hr.1, head?_of_spaces_prefix hr.2⟩
    have hnew : ¬ (c = ',' ∧ List.replicate (n + 1) ' ' <+: tighten t) := fun hr =>
      h ⟨hr.1, head?_of_spaces_prefix (spaces_prefix_tighten.mp hr.2)⟩
    rw [tighten_cons h, commaRun_infix_cons, commaRun_infix_cons, ih, or_iff_right hold,
      or_iff_right hnew]

theorem commaRun_infix_iterate {k n : Nat} {t : Text} :
    commaRun (n + 1) <:+: tighten^[k] t ↔ commaRun (n + 1 + k) <:+: t := by
  induction k generalizing n with
  | zero => rfl
  | succ k ih =>
    rw [Function.iterate_succ_apply', commaRun_infix_tighten, ih, Nat.add_right_comm, Nat.add_assoc]

/-- A text can be tightened once more as long as a comma had more spaces behind it. -/
theorem commaSpace_infix_iterate {k : Nat} {t : Text} :
    [',', ' '] <:+: tighten^[k] t ↔ commaRun (k + 1) <:+: t := by
  have hrun : [',', ' '] = commaRun (0 + 1) := rfl
  rw [hrun, commaRun_infix_iterate, Nat.zero_add, Nat.add_comm]

theorem le_longestRun_of_commaRun {n : Nat} {t : Text} (h : commaRun n <:+: t) :
    n ≤ longestRun ' ' t :=
  le_longestRun_iff.mpr ((List.suffix_cons _ _).isInfix.trans h)

end Text
end JournalScript
