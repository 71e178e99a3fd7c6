import JournalScript.Proofs.Line.Comment

/-!
# JournalScript.Proofs.Line.Grouping

The parameter list as a row of segments, and how the segments of quoted strings are grouped.

* `cut_source`, `source_cut`: a text and its row of segments determine each other. A `Row` is what
  a cut leaves: no segment holds a comma, and behind a comma at most one space is taken off.
* `groups_eq_iff`: grouping finds the one way to part a row into `Grouped` pieces. A group is one
  segment that opens no string, or a string from the segment that opens it to the next one that
  closes it; only the last group may stay `Unclosed`.
-/

namespace JournalScript

theorem map_eq_self_iff {α : Type} {f : α → α} {l : List α} : l.map f = l ↔ ∀ x ∈ l, f x = x := by
  simpa using List.map_inj_left (l := l) (f := f) (g := id)

namespace Segment

open Text

/-! ## Rows -/

def text (s : Segment) : Text := s.lead ++ s.body

def source (segs : List Segment) : Text := join [','] (segs.map text)

/-- What a cut leaves behind a comma. -/
def FollowsComma (s : Segment) : Prop :=
  ',' ∉ s.body ∧ (s.lead = [' '] ∨ s.lead = [] ∧ s.body.head? ≠ some ' ')

inductive Row : List Segment → Prop where
  | mk {body : Text} {others : List Segment} (hbody : ',' ∉ body)
      (hothers : ∀ s ∈ others, s.FollowsComma) : Row (⟨[], body⟩ :: others)

theorem text_afterComma (t : Text) : (afterComma t).text = t := by
  unfold afterComma
  split <;> simp [text]

theorem followsComma_afterComma {t : Text} (h : ',' ∉ t) : (afterComma t).FollowsComma := by
  unfold afterComma
  split
  · simp only [List.mem_cons, not_or] at h
    exact ⟨h.2, .inl rfl⟩
  · rename_i hno
    refine ⟨h, .inr ⟨rfl, ?_⟩⟩
    cases t with
    | nil => simp
    | cons c rest =>
      intro hc
      simp at hc
      exact hno rest (by rw [hc])

theorem afterComma_text {s : Segment} (h : s.FollowsComma) : afterComma s.text = s := by
  obtain ⟨lead, body⟩ := s
  obtain ⟨-, hl | ⟨hl, hb⟩⟩ := h
  · simp only at hl; subst hl; rfl
  · simp only at hl hb; subst hl
    unfold afterComma text
    split
    · rename_i hs
      simp at hs
      simp [hs] at hb
    · rfl

theorem comma_not_mem_text {s : Segment} (h : s.FollowsComma) : ',' ∉ s.text := by
  obtain ⟨hb, hl | ⟨hl, -⟩⟩ := h <;> simp [text, hl, hb]

theorem row_cut (t : Text) : Row (cut t) := by
  obtain ⟨first, others, h⟩ := exists_split_cons ',' t
  have hmem := fun p hp => not_mem_of_mem_split (c := ',') (p := p) t hp
  rw [h] at hmem
  simp only [cut, h]
  refine .mk (hmem first List.mem_cons_self) fun s hs => ?_
  obtain ⟨p, hp, rfl⟩ := List.mem_map.mp hs
  exact followsComma_afterComma (hmem p (List.mem_cons_of_mem _ hp))

theorem source_cut (t : Text) : source (cut t) = t := by
  obtain ⟨first, others, h⟩ := exists_split_cons ',' t
  have hjoin := join_split_singleton ',' t
  have hmap : others.map (text ∘ afterComma) = others := by
    simp [Function.comp_def, text_afterComma]
  rw [h] at hjoin
  simp only [source, cut, h, List.map_cons, List.map_map, hmap]
  exact hjoin

theorem cut_source {segs : List Segment} (h : Row segs) : cut (source segs) = segs := by
  obtain ⟨hbody, hothers⟩ := h
  rename_i body others
  have hpieces : ∀ p ∈ body :: others.map text, ',' ∉ p := by
    intro p hp
    rcases List.mem_cons.mp hp with rfl | hp
    · exact hbody
    · obtain ⟨s, hs, rfl⟩ := List.mem_map.mp hp
      exact comma_not_mem_text (hothers s hs)
  have hsplit : split [','] (source (⟨[], body⟩ :: others)) = body :: others.map text :=
    split_join (by simp) hpieces
  have hmap : others.map (afterComma ∘ text) = others :=
    map_eq_self_iff.mpr fun s hs => afterComma_text (hothers s hs)
  simp [cut, hsplit, hmap]

/-! ## Groups -/

inductive Closed : List Segment → Prop where
  | plain {s : Segment} (h : s.opens = false) : Closed [s]
  | quoted {first last : Segment} {mid : List Segment} (hopen : first.opens = true)
      (hmid : ∀ m ∈ mid, m.closes = false) (hlast : last.closes = true) :
      Closed (first :: (mid ++ [last]))

inductive Unclosed : List Segment → Prop where
  | mk {first : Segment} {rest : List Segment} (hopen : first.opens = true)
      (hrest : ∀ m ∈ rest, m.closes = false) : Unclosed (first :: rest)

/-- Groups in order; only the last one may be a string that is not closed. -/
inductive Grouped : List (List Segment) → Prop where
  | nil : Grouped []
  | last {g : List Segment} (h : Unclosed g) : Grouped [g]
  | cons {g : List Segment} {gs : List (List Segment)} (h : Closed g) (hs : Grouped gs) :
      Grouped (g :: gs)

theorem Closed.ne_nil {g : List Segment} (h : Closed g) : g ≠ [] := by cases h <;> simp

theorem Unclosed.ne_nil {g : List Segment} (h : Unclosed g) : g ≠ [] := by cases h; simp

theorem Unclosed.extend {g : List Segment} {s : Segment} (h : Unclosed g)
    (hs : s.closes = false) : Unclosed (g ++ [s]) := by
  cases h with
  | mk hopen hrest =>
    refine .mk hopen fun m hm => ?_
    rcases List.mem_append.mp hm with hm | hm
    · exact hrest m hm
    · rw [List.mem_singleton] at hm; subst hm; exact hs

theorem Unclosed.close {g : List Segment} {s : Segment} (h : Unclosed g)
    (hs : s.closes = true) : Closed (g ++ [s]) := by
  cases h with
  | mk hopen hrest => exact .quoted hopen hrest hs

theorem Grouped.ne_nil {gs : List (List Segment)} (h : Grouped gs) : ∀ g ∈ gs, g ≠ [] := by
  induction h with
  | nil => simp
  | last h => simpa using h.ne_nil
  | cons h _ ih => simpa using ⟨h.ne_nil, ih⟩

/-- One pass over the segments; the invariant is that the held ones are a string still open. -/
theorem groups_spec (before segs : List Segment) :
    (before = [] ∨ Unclosed before.reverse) →
      Grouped (groups before segs) ∧ (groups before segs).flatten = before.reverse ++ segs := by
  fun_induction groups before segs with
  | case1 => intro _; exact ⟨.nil, rfl⟩
  | case2 s before =>
    intro h
    exact ⟨.last (h.resolve_left (by simp)), by simp⟩
  | case3 next rest hopen ih =>
    intro _
    have hun : Unclosed [next] := .mk hopen (by simp)
    obtain ⟨hg, hf⟩ := ih (.inr hun)
    exact ⟨hg, by simpa using hf⟩
  | case4 next rest hopen ih =>
    intro _
    obtain ⟨hg, hf⟩ := ih (.inl rfl)
    exact ⟨.cons (.plain (by simpa using hopen)) hg, by simpa using hf⟩
  | case5 s before next rest hclose ih =>
    intro h
    obtain ⟨hg, hf⟩ := ih (.inl rfl)
    refine ⟨.cons ?_ hg, by simpa using hf⟩
    rw [List.reverse_cons]
    exact (h.resolve_left (by simp)).close hclose
  | case6 s before next rest hclose ih =>
    intro h
    have hun : Unclosed (next :: s :: before).reverse := by
      rw [List.reverse_cons]
      exact (h.resolve_left (by simp)).extend (by simpa using hclose)
    obtain ⟨hg, hf⟩ := ih (.inr hun)
    exact ⟨hg, by simpa using hf⟩

theorem groups_unclosed {before rest : List Segment} (hb : before ≠ [])
    (h : ∀ m ∈ rest, m.closes = false) : groups before rest = [before.reverse ++ rest] := by
  induction rest generalizing before with
  | nil =>
    obtain ⟨s, before, rfl⟩ := List.exists_cons_of_ne_nil hb
    simp [groups]
  | cons m rest ih =>
    obtain ⟨s, before, rfl⟩ := List.exists_cons_of_ne_nil hb
    have hm := h m List.mem_cons_self
    rw [groups, if_neg (by simp [hm]),
      ih (by simp) fun x hx => h x (List.mem_cons_of_mem _ hx)]
    simp

theorem groups_closed {before mid : List Segment} {last : Segment} (rest : List Segment)
    (hb : before ≠ []) (h : ∀ m ∈ mid, m.closes = false) (hlast : last.closes = true) :
    groups before (mid ++ last :: rest) =
      (before.reverse ++ mid ++ [last]) :: groups [] rest := by
  induction mid generalizing before with
  | nil =>
    obtain ⟨s, before, rfl⟩ := List.exists_cons_of_ne_nil hb
    rw [List.nil_append, groups, if_pos hlast]
    simp
  | cons m mid ih =>
    obtain ⟨s, before, rfl⟩ := List.exists_cons_of_ne_nil hb
    have hm := h m List.mem_cons_self
    rw [List.cons_append, groups, if_neg (by simp [hm]),
      ih (by simp) fun x hx => h x (List.mem_cons_of_mem _ hx)]
    simp

theorem groups_flatten {gs : List (List Segment)} (h : Grouped gs) :
    groups [] gs.flatten = gs := by
  induction h with
  | nil => rfl
  | last h =>
    obtain ⟨hopen, hrest⟩ := h
    simp [groups, hopen, groups_unclosed _ hrest]
  | cons h _ ih =>
    cases h with
    | plain h => simp [groups, h, ih]
    | quoted hopen hmid hlast =>
      rw [List.flatten_cons, List.cons_append, List.append_assoc, groups, if_pos hopen,
        List.singleton_append, groups_closed _ (by simp) hmid hlast, ih]
      simp

/-- Grouping finds the only way to part a row of segments into groups. -/
theorem groups_eq_iff {segs : List Segment} {gs : List (List Segment)} :
    groups [] segs = gs ↔ Grouped gs ∧ gs.flatten = segs := by
  constructor
  · rintro rfl
    exact groups_spec [] segs (.inl rfl)
  · rintro ⟨hg, rfl⟩
    exact groups_flatten hg

end Segment
end JournalScript
