import JournalScript.Proofs.Text.Mark
import JournalScript.Proofs.Text.Split

/-!
# JournalScript.Proofs.Text.Tighten

Dropping one space after every comma, which is what happens to a quoted string when its segments
are put together again.

* `tighten_append`: texts are tightened apart unless a comma meets a space at the seam.
* `Mark.infix_tighten`: tightening neither makes nor loses a `Mark`. Hence
  `Mark.splitLast?_tighten`: cutting at the last mark and tightening commute.
-/

namespace JournalScript
namespace Text

/-- The text with every comma and space replaced by a comma. -/
def tighten (t : Text) : Text := replace [',', ' '] [','] t

theorem commaSpace_prefix_iff {c : Char} {t : Text} :
    [',', ' '] <+: c :: t ↔ c = ',' ∧ t.head? = some ' ' := by
  cases t <;> simp [List.cons_prefix_cons, eq_comm]

@[simp] theorem tighten_nil : tighten [] = [] := rfl

theorem tighten_comma_space (t : Text) : tighten (',' :: ' ' :: t) = ',' :: tighten t :=
  replace_append (by simp) _ t

theorem tighten_cons {c : Char} {t : Text} (h : ¬ (c = ',' ∧ t.head? = some ' ')) :
    tighten (c :: t) = c :: tighten t :=
  replace_cons (by simp) _ (by rwa [commaSpace_prefix_iff])

theorem tightenInduction {motive : Text → Prop} (nil : motive [])
    (drop : ∀ t, motive t → motive (',' :: ' ' :: t))
    (keep : ∀ c t, ¬ (c = ',' ∧ t.head? = some ' ') → motive t → motive (c :: t)) (t : Text) :
    motive t :=
  splitInduction (List.cons_ne_nil ',' [' ']) nil drop
    (fun c t h => keep c t (by rwa [commaSpace_prefix_iff] at h)) t

theorem tighten_eq_self_iff {t : Text} : tighten t = t ↔ ¬ [',', ' '] <:+: t :=
  replace_eq_self_iff (by simp)

theorem tighten_of_not_mem {t : Text} (h : ',' ∉ t) : tighten t = t :=
  tighten_eq_self_iff.mpr fun hi => h (hi.subset List.mem_cons_self)

theorem head?_tighten (t : Text) : (tighten t).head? = t.head? := by
  cases t using tightenInduction with
  | nil => rfl
  | drop t => simp [tighten_comma_space]
  | keep c t h => simp [tighten_cons h]

@[simp] theorem tighten_eq_nil_iff {t : Text} : tighten t = [] ↔ t = [] := by
  rw [← List.head?_eq_none_iff, head?_tighten, List.head?_eq_none_iff]

theorem mem_of_mem_tighten {c : Char} {t : Text} (h : c ∈ tighten t) : c ∈ t := by
  induction t using tightenInduction with
  | nil => exact h
  | drop t ih =>
    rw [tighten_comma_space, List.mem_cons] at h
    rcases h with rfl | h
    · simp
    · simp [ih h]
  | keep d t hd ih =>
    rw [tighten_cons hd, List.mem_cons] at h
    rcases h with rfl | h
    · simp
    · simp [ih h]

theorem tighten_append {a b : Text} (h : a.getLast? ≠ some ',' ∨ b.head? ≠ some ' ') :
    tighten (a ++ b) = tighten a ++ tighten b := by
  induction a using tightenInduction with
  | nil => rfl
  | drop a ih =>
    have h' : a.getLast? ≠ some ',' ∨ b.head? ≠ some ' ' := by
      cases a with
      | nil => simp
      | cons d a => simpa using h
    rw [List.cons_append, List.cons_append, tighten_comma_space, tighten_comma_space, ih h',
      List.cons_append]
  | keep c a hc ih =>
    cases a with
    | nil =>
      have hc' : ¬ (c = ',' ∧ b.head? = some ' ') := by
        rintro ⟨rfl, hb⟩
        simp [hb] at h
      simp [tighten_cons hc, tighten_cons hc']
    | cons d a =>
      have hc' : ¬ (c = ',' ∧ ((d :: a) ++ b).head? = some ' ') := by simpa using hc
      rw [List.cons_append, tighten_cons hc', tighten_cons hc, ih (by simpa using h),
        List.cons_append]

/-! ## Marks -/

/-- A mark of two characters that cannot overlap itself and that tightening leaves alone. -/
structure Mark (a b : Char) : Prop where
  apart : b ≠ a
  first_not_comma : a ≠ ','
  first_not_space : a ≠ ' '
  second_not_comma : b ≠ ','

theorem pair_infix_cons {a b c : Char} {t : Text} :
    [a, b] <:+: c :: t ↔ (c = a ∧ t.head? = some b) ∨ [a, b] <:+: t := by
  rw [List.infix_cons_iff]
  cases t with
  | nil => simp [List.cons_prefix_cons]
  | cons d t => simp [List.cons_prefix_cons, eq_comm (a := c), eq_comm (a := d)]

section Mark

variable {a b : Char} (m : Mark a b)
include m

theorem Mark.infix_tighten (t : Text) : [a, b] <:+: tighten t ↔ [a, b] <:+: t := by
  have hc := m.first_not_comma.symm
  have hs := m.first_not_space.symm
  induction t using tightenInduction with
  | nil => rfl
  | drop t ih => simp [tighten_comma_space, pair_infix_cons, ih, hc, hs]
  | keep c t h ih => simp [tighten_cons h, pair_infix_cons, ih, head?_tighten]

theorem Mark.tighten_around (front back : Text) :
    tighten (front ++ [a, b] ++ back) = tighten front ++ [a, b] ++ tighten back := by
  have hb := m.second_not_comma
  have hs := m.first_not_space
  have hmark : tighten [a, b] = [a, b] := by
    simp [tighten_cons, m.first_not_comma, hb]
  rw [tighten_append (a := front ++ [a, b]) (by simp [hb]), tighten_append (by simp [hs]), hmark]

/-- The mark begins again behind its own first character only if it occurs in what follows. -/
theorem Mark.splitLast?_eq_some_iff {t front back : Text} :
    splitLast? [a, b] t = some (front, back) ↔
      t = front ++ [a, b] ++ back ∧ ¬ [a, b] <:+: back := by
  have htail : [a, b] <:+: [a, b].tail ++ back ↔ [a, b] <:+: back := by
    simp [pair_infix_cons, m.apart]
  rw [Text.splitLast?_eq_some_iff (by simp), htail]

theorem Mark.splitLast?_tighten (t : Text) :
    splitLast? [a, b] (tighten t) =
      (splitLast? [a, b] t).map fun cut => (tighten cut.1, tighten cut.2) := by
  cases h : splitLast? [a, b] t with
  | none =>
    rw [splitLast?_eq_none_iff (by simp)] at h
    rw [Option.map_none, splitLast?_eq_none_iff (by simp), m.infix_tighten]
    exact h
  | some cut =>
    obtain ⟨front, back⟩ := cut
    rw [m.splitLast?_eq_some_iff] at h
    obtain ⟨rfl, hno⟩ := h
    rw [Option.map_some, m.splitLast?_eq_some_iff, m.infix_tighten]
    exact ⟨m.tighten_around front back, hno⟩

end Mark

end Text
end JournalScript
