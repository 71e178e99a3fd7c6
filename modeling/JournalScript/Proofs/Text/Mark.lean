import JournalScript.Text.Basic
import Mathlib.Data.List.Infix

/-!
# JournalScript.Proofs.Text.Mark

Cutting a text at the last occurrence of a mark.

`splitLast?` looks for the reversed mark from the back. `splitLast?_eq_some_iff` says what it finds
in terms of the text itself: the mark stands between the two parts and does not occur again further
to the right, not even overlapping itself. `splitLast?_eq_none_iff` is the other outcome.
-/

namespace JournalScript
namespace Text

theorem splitLastFrom_eq_none {mark : Text} (hm : mark ≠ []) (t : Text) :
    ∀ after : Text, splitLastFrom mark after t = none ↔ ¬ mark <:+: t := by
  induction t with
  | nil => intro after; simp [splitLastFrom, hm]
  | cons c rest ih =>
    intro after
    rw [List.infix_cons_iff, splitLastFrom]
    split
    · rename_i h
      simp [List.isPrefixOf_iff_prefix.mp h]
    · rename_i h
      rw [List.isPrefixOf_iff_prefix] at h
      simp [ih, h]

/-- What is found is the first occurrence in the reversed text. -/
theorem splitLastFrom_eq_some {mark : Text} (hm : mark ≠ []) (t : Text) :
    ∀ {after a b : Text}, splitLastFrom mark after t = some (a, b) →
      ∃ front : Text, t = front ++ mark ++ a.reverse ∧ b = front.reverse ++ after ∧
        ¬ mark <:+: front ++ mark.dropLast := by
  induction t with
  | nil => intro after a b h; simp [splitLastFrom] at h
  | cons c rest ih =>
    intro after a b h
    rw [splitLastFrom] at h
    split at h
    · rename_i hp
      obtain ⟨back, hback⟩ := List.isPrefixOf_iff_prefix.mp hp
      obtain ⟨d, mark', rfl⟩ := List.exists_cons_of_ne_nil hm
      simp only [List.cons_append, List.cons.injEq] at hback
      obtain ⟨rfl, rfl⟩ := hback
      simp at h
      obtain ⟨rfl, rfl⟩ := h
      refine ⟨[], by simp, by simp, fun hi => ?_⟩
      have hlen := hi.length_le
      simp only [List.nil_append, List.length_dropLast, List.length_cons] at hlen
      omega
    · rename_i hp
      rw [List.isPrefixOf_iff_prefix] at hp
      obtain ⟨front, rfl, rfl, hno⟩ := ih h
      refine ⟨c :: front, by simp, by simp, fun hi => ?_⟩
      rw [List.cons_append, List.infix_cons_iff] at hi
      rcases hi with hi | hi
      · refine hp (hi.trans ?_)
        rw [List.cons_prefix_cons]
        refine ⟨rfl, ?_⟩
        rw [List.append_assoc]
        exact List.prefix_append_right_inj _ |>.mpr
          ((List.dropLast_prefix mark).trans (List.prefix_append _ _))
      · exact hno hi

theorem splitLast?_eq_none_iff {mark t : Text} (hm : mark ≠ []) :
    splitLast? mark t = none ↔ ¬ mark <:+: t := by
  rw [splitLast?, splitLastFrom_eq_none (by simpa using hm), List.reverse_infix]

/-- The part behind the last mark is determined: with two different ones, the longer would hold
the mark once more. -/
theorem last_mark_unique {mark a b a' b' : Text} (h : a ++ mark ++ b = a' ++ mark ++ b')
    (hb : ¬ mark <:+: mark.tail ++ b) (hb' : ¬ mark <:+: mark.tail ++ b') : a = a' ∧ b = b' := by
  have key : ∀ {x y u v : Text}, x ++ mark ++ u = y ++ mark ++ v → ¬ mark <:+: mark.tail ++ v →
      v.length ≤ u.length := by
    intro x y u v huv hv
    refine Nat.le_of_not_lt fun hlt => hv ?_
    have hu : mark ++ u <:+ y ++ mark ++ v := ⟨x, by rw [← huv, List.append_assoc]⟩
    have htail : mark.tail ++ v <:+ mark ++ v := by
      cases mark with
      | nil => exact List.suffix_refl _
      | cons c rest => exact List.suffix_cons c _
    have hv' : mark.tail ++ v <:+ y ++ mark ++ v := htail.trans ⟨y, by simp⟩
    exact (List.prefix_append mark u).isInfix.trans
      (List.suffix_of_suffix_length_le hu hv' (by simp; omega)).isInfix
  have hlen : b.length = b'.length := Nat.le_antisymm (key h.symm hb) (key h hb')
  have hab := List.append_inj' h hlen
  exact ⟨List.append_cancel_right hab.1, hab.2⟩

/-- What stands before and behind the last mark: the mark does not begin again behind its own first
character. -/
theorem splitLast?_eq_some_iff {mark t a b : Text} (hm : mark ≠ []) :
    splitLast? mark t = some (a, b) ↔ t = a ++ mark ++ b ∧ ¬ mark <:+: mark.tail ++ b := by
  have sound : ∀ {x y : Text}, splitLast? mark t = some (x, y) →
      t = x ++ mark ++ y ∧ ¬ mark <:+: mark.tail ++ y := by
    intro x y h
    obtain ⟨front, ht, rfl, hno⟩ := splitLastFrom_eq_some (by simpa using hm) _ h
    refine ⟨by simpa using congrArg List.reverse ht, fun hi => hno ?_⟩
    rw [← List.reverse_infix]
    simpa using hi
  refine ⟨sound, fun ⟨ht, hno⟩ => ?_⟩
  have hin : mark <:+: t := ⟨a, b, ht.symm⟩
  obtain ⟨⟨x, y⟩, hxy⟩ := Option.ne_none_iff_exists'.mp
    (fun hn => (splitLast?_eq_none_iff hm).mp hn hin)
  obtain ⟨ht', hno'⟩ := sound hxy
  obtain ⟨rfl, rfl⟩ := last_mark_unique (ht.symm.trans ht') hno hno'
  exact hxy

/-- A mark of one character does not occur behind its last occurrence. -/
theorem splitLast?_singleton_iff {c : Char} {t a b : Text} :
    splitLast? [c] t = some (a, b) ↔ t = a ++ [c] ++ b ∧ c ∉ b := by
  rw [splitLast?_eq_some_iff (by simp), List.tail_cons, List.nil_append, List.singleton_infix_iff]

end Text
end JournalScript
