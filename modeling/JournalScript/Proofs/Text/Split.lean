import JournalScript.Text.Basic

/-!
# JournalScript.Proofs.Text.Split

Cutting a text at a separator, joining pieces, and replacing one text by another.

`split` is a single pass with two accumulators. Here it gets the three equations of a scan (at the
end, at a separator, at any other character), and `splitInduction` is the induction that goes with
them. `split_singleton` identifies the cut at one character with the library's `List.splitOn`.

* `join_split`: the pieces, joined, are the text.
* `replace`: every occurrence of one text replaced by another, scanning from the left.
* `replace_eq_self_iff`: a replacement that shortens changes exactly the texts that hold what is
  replaced.
-/

namespace JournalScript
namespace Text

/-! ## The equations of `split` -/

/-- The accumulators only collect: they can be taken out in front of the pass. -/
theorem splitFrom_acc (sep : Text) (t : Text) :
    ∀ (skip : Nat) (piece : Text) (done : List Text),
      splitFrom sep skip piece done t =
        done.reverse ++ (splitFrom sep skip [] [] t).modifyHead (piece.reverse ++ ·) := by
  induction t with
  | nil => intro skip piece done; cases skip <;> simp [splitFrom]
  | cons c rest ih =>
    intro skip piece done
    cases skip with
    | succ n =>
      simp only [splitFrom]
      exact ih n piece done
    | zero =>
      simp only [splitFrom]
      split
      · rw [ih _ [] (piece.reverse :: done), ih _ [] [[].reverse]]
        simp
      · rw [ih 0 (c :: piece) done, ih 0 [c] []]
        simp [Function.comp_def]

theorem splitFrom_skip (sep : Text) (t : Text) :
    ∀ n : Nat, splitFrom sep n [] [] t = split sep (t.drop n) := by
  induction t with
  | nil => intro n; cases n <;> simp [split, splitFrom]
  | cons c rest ih =>
    intro n
    cases n with
    | zero => rfl
    | succ n => simp only [splitFrom, List.drop_succ_cons]; exact ih n

@[simp] theorem split_nil (sep : Text) : split sep [] = [[]] := rfl

theorem split_append {sep : Text} (h : sep ≠ []) (t : Text) :
    split sep (sep ++ t) = [] :: split sep t := by
  obtain ⟨c, rest, rfl⟩ := List.exists_cons_of_ne_nil h
  have hp : ((c :: rest).isPrefixOf (c :: (rest ++ t))) = true := by simp
  rw [List.cons_append, split, splitFrom, if_pos hp, splitFrom_acc, splitFrom_skip]
  cases hs : split (c :: rest) t <;> simp [hs]

theorem split_cons {sep t : Text} {c : Char} (h : ¬ sep <+: c :: t) :
    split sep (c :: t) = (split sep t).modifyHead (c :: ·) := by
  rw [split, splitFrom, if_neg (by simpa using h), splitFrom_acc]
  simp [split]

/-- Induction along a scan for a separator. -/
theorem splitInduction {sep : Text} (hs : sep ≠ []) {motive : Text → Prop} (nil : motive [])
    (sepStep : ∀ t, motive t → motive (sep ++ t))
    (charStep : ∀ c t, ¬ sep <+: c :: t → motive t → motive (c :: t)) (t : Text) : motive t := by
  induction hn : t.length using Nat.strongRecOn generalizing t with
  | _ n ih =>
    subst hn
    cases t with
    | nil => exact nil
    | cons c rest =>
      by_cases hp : sep <+: c :: rest
      · obtain ⟨u, hu⟩ := hp
        have hlen : u.length < (c :: rest).length := by
          have := List.length_pos_iff.mpr hs
          rw [← hu, List.length_append]; omega
        rw [← hu]
        exact sepStep u (ih _ hlen u rfl)
      · exact charStep c rest hp (ih _ (Nat.lt_succ_self _) rest rfl)

theorem split_ne_nil {sep : Text} (hs : sep ≠ []) (t : Text) : split sep t ≠ [] := by
  induction t using splitInduction hs with
  | nil => simp
  | sepStep t _ => simp [split_append hs]
  | charStep c t hp ih => simpa [split_cons hp] using ih

/-! ## Joining -/

@[simp] theorem join_nil (sep : Text) : join sep [] = [] := rfl

@[simp] theorem join_singleton (sep p : Text) : join sep [p] = p := List.intercalate_singleton

theorem join_cons_cons (sep p q : Text) (ps : List Text) :
    join sep (p :: q :: ps) = p ++ sep ++ join sep (q :: ps) := List.intercalate_cons_cons

theorem join_cons {ps : List Text} (h : ps ≠ []) (sep p : Text) :
    join sep (p :: ps) = p ++ sep ++ join sep ps := List.intercalate_cons_of_ne_nil h

theorem join_append_cons (sep p q : Text) (ps : List Text) :
    join sep ((p ++ q) :: ps) = p ++ join sep (q :: ps) := by
  cases ps with
  | nil => simp
  | cons r ps => simp [join_cons_cons]

theorem join_cons_append (sep : Text) (c : Char) (p : Text) (ps : List Text) :
    join sep ((c :: p) :: ps) = c :: join sep (p :: ps) :=
  join_append_cons sep [c] p ps

theorem join_modifyHead_cons {ps : List Text} (h : ps ≠ []) (sep : Text) (c : Char) :
    join sep (ps.modifyHead (c :: ·)) = c :: join sep ps := by
  obtain ⟨p, ps, rfl⟩ := List.exists_cons_of_ne_nil h
  exact join_cons_append sep c p ps

theorem join_append {ps qs : List Text} (hp : ps ≠ []) (hq : qs ≠ []) (sep : Text) :
    join sep (ps ++ qs) = join sep ps ++ sep ++ join sep qs := by
  induction ps with
  | nil => exact absurd rfl hp
  | cons p ps ih =>
    by_cases h : ps = []
    · simp [h, join_cons hq]
    · rw [List.cons_append, join_cons (by simp [h]), ih h, join_cons h]
      simp

theorem join_concat_append (sep : Text) (ps : List Text) (p q : Text) :
    join sep (ps ++ [p ++ q]) = join sep (ps ++ [p]) ++ q := by
  by_cases h : ps = []
  · simp [h]
  · rw [join_append h (List.cons_ne_nil _ _), join_append h (List.cons_ne_nil _ _)]
    simp

theorem join_flatten (sep : Text) {gs : List (List Text)} (h : ∀ g ∈ gs, g ≠ []) :
    join sep gs.flatten = join sep (gs.map (join sep)) := by
  induction gs with
  | nil => rfl
  | cons g gs ih =>
    have hg := h g List.mem_cons_self
    have hrest := fun x hx => h x (List.mem_cons_of_mem _ hx)
    cases gs with
    | nil => simp
    | cons g' gs =>
      have hflat : (g' :: gs).flatten ≠ [] := by simp [hrest g' List.mem_cons_self]
      rw [List.flatten_cons, join_append hg hflat, ih hrest]
      exact (join_cons (by simp) sep _).symm

theorem join_split {sep : Text} (hs : sep ≠ []) (t : Text) : join sep (split sep t) = t := by
  induction t using splitInduction hs with
  | nil => rfl
  | sepStep t ih => rw [split_append hs, join_cons (split_ne_nil hs t), ih]; simp
  | charStep c t hp ih =>
    rw [split_cons hp, join_modifyHead_cons (split_ne_nil hs t), ih]

theorem mem_join {sep : Text} {c : Char} {ps : List Text} (h : c ∈ join sep ps) :
    c ∈ sep ∨ ∃ p ∈ ps, c ∈ p := by
  induction ps with
  | nil => simp at h
  | cons p ps ih =>
    by_cases hps : ps = []
    · subst hps; exact .inr ⟨p, by simp, by simpa using h⟩
    · rw [join_cons hps, List.mem_append, List.mem_append] at h
      rcases h with (h | h) | h
      · exact .inr ⟨p, by simp, h⟩
      · exact .inl h
      · rcases ih h with h | ⟨q, hq, hc⟩
        · exact .inl h
        · exact .inr ⟨q, by simp [hq], hc⟩

theorem infix_join_of_mem {sep p : Text} {ps : List Text} (hp : p ∈ ps) : p <:+: join sep ps := by
  induction ps with
  | nil => simp at hp
  | cons q ps ih =>
    by_cases hps : ps = []
    · subst hps; simp at hp; subst hp; simp
    · rw [join_cons hps]
      rcases List.mem_cons.mp hp with rfl | hp
      · exact ((List.prefix_append _ _).trans (List.prefix_append _ _)).isInfix
      · exact (ih hp).trans (List.suffix_append _ _).isInfix

theorem mem_join_of_mem {sep p : Text} {c : Char} {ps : List Text} (hp : p ∈ ps) (hc : c ∈ p) :
    c ∈ join sep ps :=
  (infix_join_of_mem hp).subset hc

/-! ## One character as the separator -/

theorem split_singleton (c : Char) (t : Text) : split [c] t = t.splitOn c := by
  induction t with
  | nil => simp
  | cons d t ih =>
    by_cases h : d = c
    · subst h
      have := split_append (List.cons_ne_nil d []) t
      simpa [List.splitOn_cons_eq_if_modifyHead, ih] using this
    · have hp : ¬ [c] <+: d :: t := by simpa [eq_comm] using h
      simp [split_cons hp, List.splitOn_cons_eq_if_modifyHead, ih, h]

theorem join_split_singleton (c : Char) (t : Text) : join [c] (split [c] t) = t :=
  join_split (List.cons_ne_nil c []) t

theorem exists_split_cons (c : Char) (t : Text) : ∃ p ps, split [c] t = p :: ps :=
  List.exists_cons_of_ne_nil (split_ne_nil (List.cons_ne_nil c []) t)

/-- Pieces without the separator are what their join is cut into. -/
theorem split_join {c : Char} {ps : List Text} (hne : ps ≠ []) (h : ∀ p ∈ ps, c ∉ p) :
    split [c] (join [c] ps) = ps := by
  rw [split_singleton]; exact List.splitOn_intercalate c h hne

theorem not_mem_of_mem_split {c : Char} {p : Text} (t : Text) (h : p ∈ split [c] t) : c ∉ p := by
  induction t generalizing p with
  | nil => simp at h; simp [h]
  | cons d t ih =>
    by_cases hd : d = c
    · subst hd
      rw [show d :: t = [d] ++ t from rfl, split_append (by simp)] at h
      rcases List.mem_cons.mp h with rfl | h
      · simp
      · exact ih h
    · have hp : ¬ [c] <+: d :: t := by simpa [eq_comm] using hd
      obtain ⟨q, qs, hq⟩ := exists_split_cons c t
      rw [split_cons hp, hq] at h
      simp only [List.modifyHead_cons, List.mem_cons] at h
      rcases h with rfl | h
      · have := ih (p := q) (by simp [hq])
        simpa [Ne.symm hd] using this
      · exact ih (by simp [hq, h])

theorem split_surrounded {c : Char} {a t z first last : Text} {mid : List Text} (ha : c ∉ a)
    (hz : c ∉ z) (h : split [c] t = first :: (mid ++ [last])) :
    split [c] (a ++ (t ++ z)) = (a ++ first) :: (mid ++ [last ++ z]) := by
  have hno : ∀ p ∈ first :: (mid ++ [last]), c ∉ p := fun p hp =>
    not_mem_of_mem_split t (by rw [h]; exact hp)
  have hjoin : join [c] ((a ++ first) :: (mid ++ [last ++ z])) = a ++ (t ++ z) := by
    rw [join_append_cons, ← List.cons_append, join_concat_append, List.cons_append, ← h,
      join_split_singleton]
  rw [← hjoin]
  refine split_join (List.cons_ne_nil _ _) fun p hp => ?_
  rcases List.mem_cons.mp hp with rfl | hp
  · simp [ha, hno first List.mem_cons_self]
  rcases List.mem_append.mp hp with hp | hp
  · exact hno p (by simp [hp])
  · obtain rfl := List.mem_singleton.mp hp
    simp [hz, hno last (by simp)]

/-! ## Replacing -/

/-- The text with every occurrence of `old`, found from the left, replaced by `new`. -/
def replace (old new t : Text) : Text := join new (split old t)

@[simp] theorem replace_nil (old new : Text) : replace old new [] = [] := rfl

theorem replace_append {old : Text} (ho : old ≠ []) (new t : Text) :
    replace old new (old ++ t) = new ++ replace old new t := by
  rw [replace, split_append ho, join_cons (split_ne_nil ho t)]; rfl

theorem replace_cons {old t : Text} {c : Char} (ho : old ≠ []) (new : Text)
    (h : ¬ old <+: c :: t) : replace old new (c :: t) = c :: replace old new t := by
  rw [replace, split_cons h, join_modifyHead_cons (split_ne_nil ho t)]; rfl

theorem replace_of_not_infix {old t : Text} (ho : old ≠ []) (new : Text) (h : ¬ old <:+: t) :
    replace old new t = t := by
  induction t with
  | nil => rfl
  | cons c t ih =>
    rw [List.infix_cons_iff, not_or] at h
    rw [replace_cons ho new h.1, ih h.2]

theorem length_replace_le {old new : Text} (ho : old ≠ []) (hl : new.length ≤ old.length)
    (t : Text) : (replace old new t).length ≤ t.length := by
  induction t using splitInduction ho with
  | nil => simp
  | sepStep t ih => rw [replace_append ho]; simp; omega
  | charStep c t hp ih => rw [replace_cons ho new hp]; simpa using ih

theorem length_replace_lt {old new t : Text} (hl : new.length < old.length) (h : old <:+: t) :
    (replace old new t).length < t.length := by
  have ho : old ≠ [] := by rintro rfl; simp at hl
  induction t using splitInduction ho with
  | nil => exact absurd (List.infix_nil.mp h) ho
  | sepStep t _ =>
    have := length_replace_le ho (Nat.le_of_lt hl) t
    rw [replace_append ho]; simp; omega
  | charStep c t hp ih =>
    rw [List.infix_cons_iff] at h
    have := ih (h.resolve_left hp)
    rw [replace_cons ho new hp]; simpa using this

theorem replace_eq_self_iff {old new t : Text} (hl : new.length < old.length) :
    replace old new t = t ↔ ¬ old <:+: t := by
  have ho : old ≠ [] := by rintro rfl; simp at hl
  refine ⟨fun h hi => ?_, replace_of_not_infix ho new⟩
  have := length_replace_lt hl hi
  rw [h] at this
  exact absurd this (Nat.lt_irrefl _)

end Text
end JournalScript
