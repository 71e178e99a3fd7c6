import JournalScript.Proofs.Text.Split
import Mathlib.Algebra.GroupWithZero.Nat

/-!
# JournalScript.Proofs.Text.Separator

Cutting what was joined, for separators of any length.

A separator is `Unbordered` when no proper part of it both begins and ends it. A scan then meets
every separator that a join has put in, whatever stands around it, even if a piece ends or begins
with a part of the separator. So a join is cut into the cuts of its pieces (`split_join_eq_flatMap`),
and pieces come back from their join exactly when none of them holds the separator
(`length_split_join_eq_iff`).

* `measure_join`: what adds up over texts, such as their length, adds up over a join.
-/

namespace JournalScript
namespace Text

/-- Nothing but the whole separator both begins and ends it. -/
structure Unbordered (sep : Text) : Prop where
  ne_nil : sep ≠ []
  eq_self : ∀ u, u ≠ [] → u <+: sep → u <:+ sep → u = sep

variable {sep : Text}

/-- A separator that begins in front of another one ends in front of it. -/
theorem Unbordered.prefix_of_prefix_append (h : Unbordered sep) {p : Text} (hp : p ≠ [])
    (rest : Text) (hpre : sep <+: p ++ (sep ++ rest)) : sep <+: p := by
  rcases List.prefix_or_prefix_of_prefix hpre (List.prefix_append p _) with hle | ⟨u, hu⟩
  · exact hle
  by_cases hnil : u = []
  · have hsame : p = sep := by rw [← hu, hnil, List.append_nil]
    exact hsame ▸ List.prefix_refl p
  have hbegins : u <+: sep ++ rest := by
    rw [← hu, List.prefix_append_right_inj, hu] at hpre
    exact hpre
  have hlen : u.length ≤ sep.length := by simp [← hu]
  have hself := h.eq_self u hnil
    (List.prefix_of_prefix_length_le hbegins (List.prefix_append _ _) hlen) ⟨p, hu⟩
  rw [hself] at hu
  exact absurd (by simpa using hu) hp

theorem split_append_separator (h : Unbordered sep) (p rest : Text) :
    split sep (p ++ (sep ++ rest)) = split sep p ++ split sep rest := by
  induction p using splitInduction h.ne_nil with
  | nil => rw [List.nil_append, split_append h.ne_nil]; rfl
  | sepStep p ih =>
    rw [List.append_assoc, split_append h.ne_nil, split_append h.ne_nil, ih]
    rfl
  | charStep c p hp ih =>
    have hp' : ¬ sep <+: c :: (p ++ (sep ++ rest)) := fun hpre =>
      hp (h.prefix_of_prefix_append (List.cons_ne_nil c p) rest hpre)
    obtain ⟨q, qs, hq⟩ := List.exists_cons_of_ne_nil (split_ne_nil h.ne_nil p)
    rw [List.cons_append, split_cons hp', split_cons hp, ih, hq]
    rfl

/-- A join is cut into the cuts of its pieces. -/
theorem split_join_eq_flatMap (h : Unbordered sep) {ps : List Text} (hne : ps ≠ []) :
    split sep (join sep ps) = ps.flatMap (split sep) := by
  induction ps with
  | nil => exact absurd rfl hne
  | cons p ps ih =>
    by_cases hps : ps = []
    · simp [hps]
    · rw [join_cons hps, List.append_assoc, split_append_separator h, ih hps, List.flatMap_cons]

theorem split_of_absent {t : Text} (h : ¬ sep <:+: t) : split sep t = [t] := by
  induction t with
  | nil => rfl
  | cons c t ih =>
    rw [List.infix_cons_iff, not_or] at h
    rw [split_cons h.1, ih h.2]
    rfl

theorem one_lt_length_split (hs : sep ≠ []) {t : Text} (h : sep <:+: t) :
    1 < (split sep t).length := by
  induction t using splitInduction hs with
  | nil => exact absurd (List.infix_nil.mp h) hs
  | sepStep t _ =>
    have := List.length_pos_iff.mpr (split_ne_nil hs t)
    rw [split_append hs, List.length_cons]
    omega
  | charStep c t hp ih =>
    rw [List.infix_cons_iff] at h
    rw [split_cons hp, List.length_modifyHead]
    exact ih (h.resolve_left hp)

theorem length_split_eq_one_iff (hs : sep ≠ []) {t : Text} :
    (split sep t).length = 1 ↔ ¬ sep <:+: t := by
  constructor
  · intro h hi
    have := one_lt_length_split hs hi
    omega
  · intro h
    rw [split_of_absent h]
    rfl

/-- A list of non-empty lists is as long as their concatenation only if each has one member. -/
theorem length_eq_one_of_length_flatMap {α β : Type} {f : α → List β} {xs : List α}
    (hne : ∀ x ∈ xs, f x ≠ []) (h : (xs.flatMap f).length = xs.length) :
    ∀ x ∈ xs, (f x).length = 1 := by
  have hle : ∀ ys : List α, (∀ y ∈ ys, f y ≠ []) → ys.length ≤ (ys.flatMap f).length := by
    intro ys hys
    induction ys with
    | nil => exact Nat.le_refl _
    | cons y ys ih =>
      have hy := List.length_pos_iff.mpr (hys y List.mem_cons_self)
      have := ih fun z hz => hys z (List.mem_cons_of_mem _ hz)
      rw [List.flatMap_cons, List.length_append, List.length_cons]
      omega
  induction xs with
  | nil => simp
  | cons x xs ih =>
    have hx := List.length_pos_iff.mpr (hne x List.mem_cons_self)
    have hrest := fun y hy => hne y (List.mem_cons_of_mem _ hy)
    have hxs := hle xs hrest
    rw [List.flatMap_cons, List.length_append, List.length_cons] at h
    intro y hy
    rcases List.mem_cons.mp hy with rfl | hy
    · omega
    · exact ih hrest (by omega) y hy

theorem split_join_of_absent (h : Unbordered sep) {ps : List Text} (hne : ps ≠ [])
    (hno : ∀ p ∈ ps, ¬ sep <:+: p) : split sep (join sep ps) = ps := by
  rw [split_join_eq_flatMap h hne, List.flatMap_def,
    List.map_congr_left fun p hp => split_of_absent (hno p hp), ← List.flatMap_def,
    List.flatMap_singleton']

/-- A join is cut into as many pieces as it has exactly when none of them holds the separator. -/
theorem length_split_join_eq_iff (h : Unbordered sep) {ps : List Text} (hne : ps ≠ []) :
    (split sep (join sep ps)).length = ps.length ↔ ∀ p ∈ ps, ¬ sep <:+: p := by
  constructor
  · intro hlen p hp
    rw [split_join_eq_flatMap h hne] at hlen
    exact (length_split_eq_one_iff h.ne_nil).mp
      (length_eq_one_of_length_flatMap (fun q _ => split_ne_nil h.ne_nil q) hlen p hp)
  · intro hno
    rw [split_join_of_absent h hne hno]

/-! ## Adding up -/

/-- What adds up over texts adds up over a join. -/
theorem measure_join {f : Text → Nat} (hnil : f [] = 0) (happend : ∀ a b, f (a ++ b) = f a + f b)
    (sep : Text) (ps : List Text) :
    f (join sep ps) = (ps.map f).sum + (ps.length - 1) * f sep := by
  induction ps with
  | nil => simp [hnil]
  | cons p ps ih =>
    by_cases hps : ps = []
    · simp [hps]
    · have hlen : ps.length = ps.length - 1 + 1 := by
        have := List.length_pos_iff.mpr hps
        omega
      rw [join_cons hps, happend, happend, ih, List.map_cons, List.sum_cons, List.length_cons,
        Nat.add_sub_cancel]
      conv => rhs; rw [hlen, Nat.add_mul]
      omega

theorem count_join (c : Char) (sep : Text) (ps : List Text) :
    (join sep ps).count c = (ps.map (List.count c)).sum + (ps.length - 1) * sep.count c :=
  measure_join List.count_nil (fun _ _ => List.count_append) sep ps

theorem length_join (sep : Text) (ps : List Text) :
    (join sep ps).length = (ps.map List.length).sum + (ps.length - 1) * sep.length :=
  measure_join List.length_nil (fun _ _ => List.length_append) sep ps

end Text
end JournalScript
