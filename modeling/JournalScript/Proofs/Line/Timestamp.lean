import JournalScript.Line.Timestamp
import Mathlib.Data.List.Forall2

/-!
# JournalScript.Proofs.Line.Timestamp

The language of timestamps, one character per slot (`Timestamp.Fits`), and the function that takes
one off the front of a text. `split?_eq_some_iff`: it finds a timestamp exactly when the text begins
with one, and never the wrong one of the two hour widths, since no text begins with both
(`fits_append_unique`).
-/

namespace JournalScript

namespace Slot

abbrev Fill (slots : List Slot) (t : Text) : Prop :=
  List.Forall₂ (fun s c => accepts s c = true) slots t

theorem take?_eq_some_iff {slots : List Slot} {t taken rest : Text} :
    take? slots t = some (taken, rest) ↔ t = taken ++ rest ∧ Fill slots taken := by
  induction slots generalizing t taken with
  | nil =>
    constructor
    · intro h
      simp only [take?, Option.some.injEq, Prod.mk.injEq] at h
      obtain ⟨rfl, rfl⟩ := h
      exact ⟨rfl, .nil⟩
    · rintro ⟨rfl, h⟩
      cases h
      rfl
  | cons s slots ih =>
    cases t with
    | nil =>
      constructor
      · intro h; simp [take?] at h
      · rintro ⟨h, hfill⟩
        cases hfill
        simp at h
    | cons c t =>
      constructor
      · intro h
        rw [take?] at h
        split at h
        · rename_i hc
          split at h
          · cases h
          · rename_i taken' rest' hrec
            simp only [Option.some.injEq, Prod.mk.injEq] at h
            obtain ⟨rfl, rfl⟩ := h
            obtain ⟨rfl, hfill⟩ := ih.mp hrec
            exact ⟨rfl, .cons hc hfill⟩
        · cases h
      · rintro ⟨h, hfill⟩
        cases hfill with
        | cons hc hfill =>
          simp only [List.cons_append, List.cons.injEq] at h
          obtain ⟨rfl, rfl⟩ := h
          rw [take?, if_pos hc, ih.mpr ⟨rfl, hfill⟩]

theorem Fill.getElem? {slots : List Slot} {t : Text} (h : Fill slots t) {i : Nat} {s : Slot}
    (hs : slots[i]? = some s) : ∃ c, t[i]? = some c ∧ s.accepts c = true := by
  induction h generalizing i with
  | nil => simp at hs
  | @cons s' c slots t hc _ ih =>
    cases i with
    | zero =>
      simp only [List.getElem?_cons_zero, Option.some.injEq] at hs
      subst hs
      exact ⟨c, rfl, hc⟩
    | succ i => simpa using ih (by simpa using hs)

theorem Fill.not_mem {slots : List Slot} {t : Text} (h : Fill slots t) {c : Char}
    (hc : ∀ s ∈ slots, s.accepts c = false) : c ∉ t := by
  induction h with
  | nil => simp
  | @cons s d slots t hd _ ih =>
    have hs := hc s List.mem_cons_self
    rw [List.mem_cons, not_or]
    refine ⟨?_, ih fun x hx => hc x (List.mem_cons_of_mem _ hx)⟩
    rintro rfl
    rw [hs] at hd
    cases hd

end Slot

namespace Timestamp

open Slot

/-- The text is a timestamp: it fills the slots of one of the two hour widths. -/
def Fits (t : Text) : Prop := ∃ wideHour, Fill (slots wideHour) t

theorem Fits.ne_nil {t : Text} (h : Fits t) : t ≠ [] := by
  obtain ⟨wide, hfill⟩ := h
  rintro rfl
  have := hfill.length_eq
  cases wide <;> simp [slots, slotsWith] at this

theorem Fits.no_feed {t : Text} (h : Fits t) : '\n' ∉ t := by
  obtain ⟨wide, hfill⟩ := h
  refine hfill.not_mem ?_
  cases wide <;> decide

/-- Behind the second hour character the narrow form has a colon and the wide one a digit. -/
theorem narrow_wide_disjoint {s s' r r' : Text} (h : Fill (slots false) s)
    (h' : Fill (slots true) s') : s ++ r ≠ s' ++ r' := by
  intro heq
  obtain ⟨c, hc, hcolon⟩ := h.getElem? (i := 14) (s := .exactly ':') rfl
  obtain ⟨d, hd, hdigit⟩ := h'.getElem? (i := 14) (s := .digit) rfl
  have hleft : (s ++ r)[14]? = some c := by
    rw [List.getElem?_append_left (List.getElem?_eq_some_iff.mp hc).1, hc]
  have hright : (s' ++ r')[14]? = some d := by
    rw [List.getElem?_append_left (List.getElem?_eq_some_iff.mp hd).1, hd]
  rw [heq, hright, Option.some.injEq] at hleft
  subst hleft
  simp only [accepts, beq_iff_eq] at hcolon
  subst hcolon
  simp [accepts] at hdigit

theorem fits_append_unique {s s' r r' : Text} (h : Fits s) (h' : Fits s')
    (heq : s ++ r = s' ++ r') : s = s' ∧ r = r' := by
  obtain ⟨wide, hfill⟩ := h
  obtain ⟨wide', hfill'⟩ := h'
  by_cases hw : wide = wide'
  · subst hw
    exact List.append_inj heq (hfill.length_eq.symm.trans hfill'.length_eq)
  · cases wide <;> cases wide'
    · exact absurd rfl hw
    · exact absurd heq (narrow_wide_disjoint hfill hfill')
    · exact absurd heq.symm (narrow_wide_disjoint hfill' hfill)
    · exact absurd rfl hw

/-- A timestamp is cut off exactly where a text begins with one. -/
theorem split?_eq_some_iff {t s rest : Text} :
    split? t = some (s, rest) ↔ t = s ++ rest ∧ Fits s := by
  have sound : ∀ {x y : Text}, split? t = some (x, y) → t = x ++ y ∧ Fits x := by
    intro x y h
    rw [split?] at h
    split at h
    · rename_i cut hcut
      rw [h] at hcut
      obtain ⟨ht, hfill⟩ := take?_eq_some_iff.mp hcut
      exact ⟨ht, false, hfill⟩
    · obtain ⟨ht, hfill⟩ := take?_eq_some_iff.mp h
      exact ⟨ht, true, hfill⟩
  refine ⟨sound, fun ⟨ht, hfits⟩ => ?_⟩
  have hfound : split? t ≠ none := by
    obtain ⟨wide, hfill⟩ := hfits
    have htake : takeWith? wide t = some (s, rest) := take?_eq_some_iff.mpr ⟨ht, hfill⟩
    rw [split?]
    split
    · simp
    · rename_i hnone
      cases wide with
      | false => rw [htake] at hnone; cases hnone
      | true => simp [htake]
  obtain ⟨⟨x, y⟩, hxy⟩ := Option.ne_none_iff_exists'.mp hfound
  obtain ⟨ht', hfits'⟩ := sound hxy
  obtain ⟨rfl, rfl⟩ := fits_append_unique hfits hfits' (ht.symm.trans ht')
  exact hxy

end Timestamp
end JournalScript
