import JournalScript.Proofs.Line.SecondPass

/-!
# JournalScript.Proofs.Line.PrintingLoss

What is lost when a line is read and printed.

A `Stretch` is the part of a parameter list that one parameter was read from, with the separator in
front of it. `parse_literal_loss`: raw lines are printed as they are; the parameter list of a call is
parted into stretches, each of which is printed with every comma and space replaced by a comma,
while all else of the line is printed as it is. So the line comes back exactly when no stretch holds
a comma followed by a space.

* `source_reread_eq_iff`: the same for the parameter list alone. Printed and original text give the
  same segments only when every group is cut again as it was.
-/

namespace JournalScript

open Text Segment

/-- The part of a parameter list that one parameter is read from. -/
structure Stretch where
  /-- What stands between the parameter before and this one; nothing for the first. -/
  separator : Text
  text : Text

namespace Stretch

/-- The stretches, one after the other, are the parameter list. -/
structure Cover (gs : List Stretch) (t : Text) : Prop where
  text_eq : t = gs.flatMap fun g => g.separator ++ g.text
  first : ∀ g ∈ gs.head?, g.separator = []
  others : ∀ g ∈ gs.tail, g.separator = [','] ∨ g.separator = [',', ' ']

/-- How a parameter is read from its stretch and printed. -/
structure PrintsAs (g : Stretch) (q : Parameter) : Prop where
  lead : q.lead = g.separator.drop 1
  quoted : ',' ∈ g.text → g.text.head? = some '"'
  literal : q.literal = q.lead ++ replace [',', ' '] [','] g.text

end Stretch

namespace Segment

def stretches : List (List Segment) → List Stretch
  | [] => []
  | g :: gs => ⟨[], groupSource g⟩ :: gs.map fun g => ⟨',' :: groupLead g, groupSource g⟩

theorem join_eq_flatMap (sep p : Text) (ps : List Text) :
    join sep (p :: ps) = p ++ ps.flatMap (sep ++ ·) := by
  induction ps generalizing p with
  | nil => simp
  | cons q ps ih => rw [join_cons_cons, ih, List.flatMap_cons]; simp

theorem head?_join_of_head? {sep p : Text} {c : Char} {ps : List Text} (h : p.head? = some c) :
    (join sep (p :: ps)).head? = some c := by
  rw [join_eq_flatMap, List.head?_append, h]; rfl

theorem groupLead_of_followsComma {g : List Segment} (hne : g ≠ [])
    (h : ∀ r ∈ g, r.FollowsComma) : groupLead g = [] ∨ groupLead g = [' '] := by
  obtain ⟨s, rest, rfl⟩ := List.exists_cons_of_ne_nil hne
  obtain ⟨-, hl | ⟨hl, -⟩⟩ := h s List.mem_cons_self
  · exact .inr hl
  · exact .inl hl

theorem cover_stretches {gs : List (List Segment)} (h : Parted gs) :
    Stretch.Cover (stretches gs) (source gs.flatten) := by
  have hne := h.ne_nil
  obtain ⟨s, rest, others, rfl, hlead, -, hothers⟩ := h.exists_first
  refine ⟨?_, by simp [stretches], ?_⟩
  · have hfirst : source (s :: rest) = groupSource (s :: rest) := by
      rw [← groupLead_append_groupSource]; simp [groupLead, hlead]
    rw [source_flatten hne, List.map_cons, join_eq_flatMap, hfirst, List.flatMap_map]
    simp [stretches, List.flatMap_map, ← groupLead_append_groupSource]
  · intro x hx
    obtain ⟨g, hg, rfl⟩ := List.mem_map.mp hx
    rcases groupLead_of_followsComma (hne g (List.mem_cons_of_mem _ hg)) (hothers g hg) with h | h
    · exact .inl (by simp [h])
    · exact .inr (by simp [h])

theorem quoted_of_comma_mem {g : List Segment} (hg : Closed g ∨ Unclosed g) (hpart : Part g)
    (hc : ',' ∈ groupSource g) : (groupSource g).head? = some '"' := by
  have hquote : ∀ {s : Segment} {rest : List Segment}, s.opens = true →
      (groupSource (s :: rest)).head? = some '"' := by
    intro s rest hopen
    simp only [opens, Bool.and_eq_true, beq_iff_eq] at hopen
    exact head?_join_of_head? hopen.1
  rcases hg with hg | hg
  · cases hg with
    | plain h =>
      cases hpart with
      | mk hfirst hrest => exact absurd (by simpa [groupSource] using hc) hfirst
    | quoted hopen hmid hlast => exact hquote hopen
  · cases hg with
    | mk hopen hrest => exact hquote hopen

theorem Grouped.closed_or_unclosed {gs : List (List Segment)} (h : Grouped gs) :
    ∀ g ∈ gs, Closed g ∨ Unclosed g := by
  induction h with
  | nil => simp
  | last h => simpa using .inr h
  | cons h _ ih => simpa using ⟨.inl h, ih⟩

/-- Groups are determined by their text, so those that print as they were read are cut again as they
were. -/
theorem reread_of_source_eq {gs : List (List Segment)} (h : Parted gs)
    (heq : source (gs.map reread).flatten = source gs.flatten) : ∀ g ∈ gs, reread g = g :=
  map_eq_self_iff.mp (h.map_reread.eq_of_source_eq h heq)

/-- The printed list is the list it was read from exactly when no group has lost a space. -/
theorem source_reread_eq_iff {gs : List (List Segment)} (h : Parted gs) :
    source (gs.map reread).flatten = source gs.flatten ↔
      ∀ g ∈ gs, ¬ [',', ' '] <:+: groupSource g := by
  constructor
  · intro heq g hg
    have htext : groupLead g ++ groupText g = groupLead g ++ groupSource g := by
      rw [← source_reread, reread_of_source_eq h heq g hg, groupLead_append_groupSource]
    rw [← Text.tighten_eq_self_iff, tighten_groupSource (h.part g hg)]
    exact List.append_cancel_left htext
  · intro htight
    rw [source_flatten h.map_reread.ne_nil, source_flatten h.ne_nil, List.map_map]
    refine congrArg _ (List.map_congr_left fun g hg => ?_)
    rw [Function.comp_apply, source_reread, ← tighten_groupSource (h.part g hg),
      Text.tighten_eq_self_iff.mpr (htight g hg), groupLead_append_groupSource]

theorem printsAs_stretches {gs : List (List Segment)} (h : Parted gs)
    (hfeed : ∀ g ∈ gs, '\n' ∉ groupText g) :
    List.Forall₂ Stretch.PrintsAs (stretches gs) (gs.map Parameter.ofGroup) := by
  have hprint : ∀ g ∈ gs, ∀ sep : Text, sep.drop 1 = groupLead g →
      Stretch.PrintsAs ⟨sep, groupSource g⟩ (Parameter.ofGroup g) := by
    intro g hg sep hsep
    have hlead := Parameter.ofLiteral_lead (groupLead g) (hfeed g hg)
    have hgroup := h.grouped.closed_or_unclosed g hg
    refine ⟨hlead.trans hsep.symm, quoted_of_comma_mem hgroup (h.part g hg), ?_⟩
    rw [Parameter.ofGroup, Parameter.ofLiteral_literal _ (hfeed g hg), hlead,
      ← tighten_groupSource (h.part g hg)]
    rfl
  obtain ⟨s, rest, others, rfl, hlead, -⟩ := h.exists_first
  rw [stretches, List.map_cons]
  refine .cons (hprint _ List.mem_cons_self [] (by simp [groupLead, hlead])) ?_
  rw [List.forall₂_map_left_iff, List.forall₂_map_right_iff]
  refine List.forall₂_same.mpr fun g hg => ?_
  exact hprint g (List.mem_cons_of_mem _ hg) _ (by simp)

/-- The parameter list alone: its stretches, what each is read as, and when printing gives it
back. -/
theorem exists_cover {t : Text} (h : '\n' ∉ t) :
    ∃ gs : List Stretch, Stretch.Cover gs t ∧ (gs = [] ↔ t = []) ∧
      List.Forall₂ Stretch.PrintsAs gs (Parameter.parseList t) ∧
      (join [','] ((Parameter.parseList t).map Parameter.literal) = t ↔
        ∀ g ∈ gs, ¬ [',', ' '] <:+: g.text) := by
  obtain ⟨gs, hparted, rfl⟩ := exists_parted t
  by_cases hnil : source gs.flatten = []
  · rw [hnil]
    exact ⟨[], ⟨rfl, by simp, by simp⟩, by simp, .nil, by simp [Parameter.parseList]⟩
  · have hfeed := no_feed_groupText h
    rw [Parameter.parseList_source hparted hnil, Parameter.join_literal_map_ofGroup hparted hfeed,
      source_reread_eq_iff hparted]
    obtain ⟨s, rest, others, rfl, -⟩ := hparted.exists_first
    refine ⟨stretches _, cover_stretches hparted, ?_, printsAs_stretches hparted hfeed, ?_⟩
    · exact iff_of_false (by simp [stretches]) hnil
    · simp [stretches]

end Segment

namespace Line

/-- Reading a line and printing it loses one space behind every comma inside a parameter, and
nothing else. -/
theorem parse_literal_loss (f : NameFilter) (line : Text) :
    match parse f line with
    | .raw content => (Line.raw content).literal = line
    | .call c => ∃ (p : Spelling) (gs : List Stretch), p.Spells f line ∧ c = p.call ∧
        Stretch.Cover gs p.parameters ∧ (gs = [] ↔ p.parameters = []) ∧
        List.Forall₂ Stretch.PrintsAs gs c.parameters ∧
        c.literal =
          { p with parameters := join [','] (c.parameters.map Parameter.literal) }.text ∧
        (c.literal = line ↔ ∀ g ∈ gs, ¬ [',', ' '] <:+: g.text) := by
  cases h : parse f line with
  | raw content => exact parse_raw h
  | call c =>
    obtain ⟨p, hp, rfl⟩ := exists_spells h
    obtain ⟨gs, hcover, hnil, hprints, hiff⟩ := exists_cover hp.no_feed_parameters
    refine ⟨p, gs, hp, rfl, hcover, hnil, hprints, hp.literal_call, ?_⟩
    rw [hp.literal_call, hp.text_eq, ← hiff]
    simp [Spelling.text, Spelling.head, Spelling.body, Spelling.printed]

example : (parse .unrestricted "JrnCmd.A(\"a, b\", 1);".toList).literal =
    "JrnCmd.A(\"a,b\", 1);".toList := by
  decide

end Line
end JournalScript
