import JournalScript.Proofs.Line.Grouping

/-!
# JournalScript.Proofs.Line.ParameterList

What reading a parameter list does to its text, group by group.

A group stands in the text as `groupSource`, with the spaces behind its inner commas; the parameter
holds `groupText`, without them (`tighten_groupSource`). Every text has exactly one `Parted` row of
groups (`exists_parted`, `Parted.eq_of_source_eq`), and `parseList_source` reads one parameter from
each. Printing the parameters and reading them again meets the groups of `reread`, which are `Parted`
too (`Parted.map_reread`). So `parseList_printed`: a second pass tightens every parameter once more
and changes nothing else.
-/

namespace JournalScript

open Text

namespace Segment

def groupSource : List Segment → Text
  | [] => []
  | s :: rest => join [','] (s.body :: rest.map text)

/-- The segments of a group when its printed text is cut again. -/
def reread : List Segment → List Segment
  | [] => []
  | s :: rest => s :: rest.map fun r => afterComma r.body

/-- A group of a row: behind its first segment every segment follows a comma. -/
inductive Part : List Segment → Prop where
  | mk {first : Segment} {rest : List Segment} (hfirst : ',' ∉ first.body)
      (hrest : ∀ s ∈ rest, s.FollowsComma) : Part (first :: rest)

theorem groupLead_append_groupSource (g : List Segment) :
    groupLead g ++ groupSource g = source g := by
  cases g with
  | nil => rfl
  | cons s rest => simp [source, groupLead, groupSource, text, join_append_cons]

theorem source_flatten {gs : List (List Segment)} (h : ∀ g ∈ gs, g ≠ []) :
    source gs.flatten = join [','] (gs.map source) := by
  rw [source, List.map_flatten, join_flatten, List.map_map]
  · rfl
  · intro x hx
    obtain ⟨g, hg, rfl⟩ := List.mem_map.mp hx
    simpa using h g hg

theorem row_flatten_iff {s : Segment} {rest : List Segment} {gs : List (List Segment)} :
    Row ((s :: rest) :: gs).flatten ↔
      s.lead = [] ∧ Part (s :: rest) ∧ ∀ g ∈ gs, ∀ r ∈ g, r.FollowsComma := by
  rw [List.flatten_cons, List.cons_append]
  constructor
  · intro h
    cases h with
    | mk hbody hothers =>
      refine ⟨rfl, .mk hbody fun r hr => hothers r (by simp [hr]), fun g hg r hr => ?_⟩
      exact hothers r (List.mem_append_right _ (List.mem_flatten.mpr ⟨g, hg, hr⟩))
  · rintro ⟨hlead, hpart, hgs⟩
    obtain ⟨lead, body⟩ := s
    simp only at hlead
    subst hlead
    cases hpart with
    | mk hfirst hrest =>
      refine .mk hfirst fun r hr => ?_
      rcases List.mem_append.mp hr with hr | hr
      · exact hrest r hr
      · obtain ⟨g, hg, hr⟩ := List.mem_flatten.mp hr
        exact hgs g hg r hr

structure Parted (gs : List (List Segment)) : Prop where
  grouped : Grouped gs
  row : Row gs.flatten

theorem Parted.ne_nil {gs : List (List Segment)} (h : Parted gs) : ∀ g ∈ gs, g ≠ [] :=
  h.grouped.ne_nil

theorem Parted.exists_first {gs : List (List Segment)} (h : Parted gs) :
    ∃ (s : Segment) (rest : List Segment) (others : List (List Segment)),
      gs = (s :: rest) :: others ∧ s.lead = [] ∧ Part (s :: rest) ∧
        ∀ g ∈ others, ∀ r ∈ g, r.FollowsComma := by
  cases gs with
  | nil => cases h.row
  | cons g others =>
    obtain ⟨s, rest, rfl⟩ := List.exists_cons_of_ne_nil (h.ne_nil g List.mem_cons_self)
    exact ⟨s, rest, others, rfl, row_flatten_iff.mp h.row⟩

theorem part_of_followsComma {g : List Segment} (hne : g ≠ [])
    (h : ∀ r ∈ g, r.FollowsComma) : Part g := by
  obtain ⟨s, rest, rfl⟩ := List.exists_cons_of_ne_nil hne
  exact .mk (h s List.mem_cons_self).1 fun r hr => h r (List.mem_cons_of_mem _ hr)

theorem Parted.part {gs : List (List Segment)} (h : Parted gs) : ∀ g ∈ gs, Part g := by
  have hne := h.ne_nil
  obtain ⟨s, rest, others, rfl, -, hpart, hothers⟩ := h.exists_first
  intro g hg
  rcases List.mem_cons.mp hg with rfl | hg
  · exact hpart
  · exact part_of_followsComma (hne g (List.mem_cons_of_mem _ hg)) (hothers g hg)

theorem Parted.eq_of_source_eq {gs gs' : List (List Segment)} (h : Parted gs) (h' : Parted gs')
    (heq : source gs.flatten = source gs'.flatten) : gs = gs' := by
  have hflat : gs.flatten = gs'.flatten := by
    rw [← cut_source h.row, heq, cut_source h'.row]
  rw [← groups_flatten h.grouped, hflat, groups_flatten h'.grouped]

theorem exists_parted (t : Text) : ∃ gs, Parted gs ∧ source gs.flatten = t := by
  obtain ⟨hg, hf⟩ := groups_spec [] (cut t) (.inl rfl)
  rw [List.reverse_nil, List.nil_append] at hf
  exact ⟨groups [] (cut t), ⟨hg, by rw [hf]; exact row_cut t⟩, by rw [hf]; exact source_cut t⟩

/-! ## Tightening a group -/

theorem tighten_append_of_not_mem {a : Text} (h : ',' ∉ a) (b : Text) :
    tighten (a ++ b) = a ++ tighten b := by
  rw [tighten_append (.inl fun hl => h (List.mem_of_getLast? hl)), tighten_of_not_mem h]

theorem head?_join {p : Text} {ps : List Text} (h : p.head? ≠ some ' ') :
    (join [','] (p :: ps)).head? ≠ some ' ' := by
  cases ps with
  | nil => simpa using h
  | cons q ps =>
    rw [join_cons_cons]
    cases p with
    | nil => simp
    | cons c p => simpa using h

/-- Tightening takes the leading space off every piece but the first. -/
theorem tighten_join {p : Text} {ps : List Text} (hp : ',' ∉ p) (hps : ∀ q ∈ ps, ',' ∉ q) :
    tighten (join [','] (p :: ps)) = join [','] (p :: ps.map fun q => (afterComma q).body) := by
  induction ps generalizing p with
  | nil =>
    have := tighten_append_of_not_mem hp []
    simpa using this
  | cons q ps ih =>
    have hq := hps q List.mem_cons_self
    have hrest := fun x hx => hps x (List.mem_cons_of_mem _ hx)
    have hcomma : tighten (',' :: join [','] (q :: ps)) =
        ',' :: tighten (join [','] ((afterComma q).body :: ps)) := by
      by_cases hs : q.head? = some ' '
      · obtain ⟨q', rfl⟩ := List.head?_eq_some_iff.mp hs
        rw [join_cons_append, tighten_comma_space]; rfl
      · have hbody : (afterComma q).body = q := by
          unfold afterComma
          split
          · simp at hs
          · rfl
        rw [hbody, tighten_cons fun h => head?_join hs h.2]
    have hq' : ',' ∉ (afterComma q).body := (followsComma_afterComma hq).1
    rw [join_cons_cons, List.append_assoc, tighten_append_of_not_mem hp, List.singleton_append,
      hcomma, ih hq' hrest, List.map_cons, join_cons_cons, List.append_assoc, List.singleton_append]

theorem tighten_groupSource {g : List Segment} (h : Part g) :
    tighten (groupSource g) = groupText g := by
  cases h with
  | @mk first rest hfirst hrest =>
    have htext : ∀ q ∈ rest.map text, ',' ∉ q := by
      intro q hq
      obtain ⟨s, hs, rfl⟩ := List.mem_map.mp hq
      exact comma_not_mem_text (hrest s hs)
    have hbody : rest.map ((fun q => (afterComma q).body) ∘ text) = rest.map body :=
      List.map_congr_left fun s hs => congrArg body (afterComma_text (hrest s hs))
    rw [groupSource, tighten_join hfirst htext, List.map_map, hbody]
    rfl

theorem tighten_groupText {g : List Segment} (h : Part g) :
    tighten (groupText g) = groupText (reread g) := by
  cases h with
  | @mk first rest hfirst hrest =>
    have hbody : ∀ q ∈ rest.map body, ',' ∉ q := by
      intro q hq
      obtain ⟨s, hs, rfl⟩ := List.mem_map.mp hq
      exact (hrest s hs).1
    rw [groupText, List.map_cons, tighten_join hfirst hbody, List.map_map]
    simp [groupText, reread, Function.comp_def]

/-! ## The segments of the printed text -/

theorem closes_afterComma (s : Segment) : (afterComma s.body).closes = s.closes := by
  unfold afterComma
  split
  · rename_i rest h
    cases rest <;> simp [closes, h]
  · rfl

theorem closed_reread {g : List Segment} (h : Closed g) : Closed (reread g) := by
  cases h with
  | plain h => exact .plain h
  | quoted hopen hmid hlast =>
    rw [reread, List.map_append, List.map_singleton]
    refine .quoted hopen (fun m hm => ?_) (by rw [closes_afterComma]; exact hlast)
    obtain ⟨s, hs, rfl⟩ := List.mem_map.mp hm
    rw [closes_afterComma]
    exact hmid s hs

theorem unclosed_reread {g : List Segment} (h : Unclosed g) : Unclosed (reread g) := by
  cases h with
  | mk hopen hrest =>
    refine .mk hopen fun m hm => ?_
    obtain ⟨s, hs, rfl⟩ := List.mem_map.mp hm
    rw [closes_afterComma]
    exact hrest s hs

theorem grouped_reread {gs : List (List Segment)} (h : Grouped gs) : Grouped (gs.map reread) := by
  induction h with
  | nil => exact .nil
  | last h => exact .last (unclosed_reread h)
  | cons h _ ih => exact .cons (closed_reread h) ih

theorem source_reread (g : List Segment) : source (reread g) = groupLead g ++ groupText g := by
  cases g with
  | nil => rfl
  | cons s rest =>
    have hmap : rest.map (text ∘ fun r => afterComma r.body) = rest.map body :=
      List.map_congr_left fun r _ => text_afterComma r.body
    rw [reread, source, List.map_cons, List.map_map, hmap, text, join_append_cons]
    rfl

theorem Parted.map_reread {gs : List (List Segment)} (h : Parted gs) : Parted (gs.map reread) := by
  refine ⟨grouped_reread h.grouped, ?_⟩
  obtain ⟨s, rest, others, rfl, hlead, hpart, hothers⟩ := h.exists_first
  have hmapped : ∀ {rs : List Segment}, (∀ r ∈ rs, r.FollowsComma) →
      ∀ x ∈ rs.map fun r => afterComma r.body, x.FollowsComma := by
    intro rs hrs x hx
    obtain ⟨r, hr, rfl⟩ := List.mem_map.mp hx
    exact followsComma_afterComma (hrs r hr).1
  rw [List.map_cons, reread, row_flatten_iff]
  refine ⟨hlead, ?_, ?_⟩
  · cases hpart with
    | mk hfirst hrest => exact .mk hfirst (hmapped hrest)
  · intro x hx r hr
    obtain ⟨g, hg, rfl⟩ := List.mem_map.mp hx
    cases g with
    | nil => exact absurd hr List.not_mem_nil
    | cons s' rest' =>
      have hall := hothers _ hg
      rcases List.mem_cons.mp hr with rfl | hr
      · exact hall r List.mem_cons_self
      · exact hmapped (fun y hy => hall y (List.mem_cons_of_mem _ hy)) r hr

theorem eq_empty_of_source_eq_nil {gs : List (List Segment)} (h : Parted gs)
    (hs : source gs.flatten = []) : gs = [[⟨[], []⟩]] := by
  have hempty : Parted [[⟨[], []⟩]] :=
    ⟨.cons (.plain rfl) .nil, .mk List.not_mem_nil (by simp)⟩
  exact h.eq_of_source_eq hempty (by rw [hs]; rfl)

theorem source_reread_ne_nil {gs : List (List Segment)} (h : Parted gs)
    (hne : source gs.flatten ≠ []) : source (gs.map reread).flatten ≠ [] := by
  intro hnil
  have hempty := eq_empty_of_source_eq_nil h.map_reread hnil
  obtain ⟨s, rest, others, rfl, -⟩ := h.exists_first
  simp only [List.map_cons, reread, List.cons.injEq, List.map_eq_nil_iff] at hempty
  obtain ⟨⟨rfl, rfl⟩, rfl⟩ := hempty
  exact hne rfl

/-! ## Characters of a group -/

theorem mem_source {gs : List (List Segment)} {g : List Segment} {s : Segment} {c : Char}
    (hg : g ∈ gs) (hs : s ∈ g) (hc : c ∈ s.text) : c ∈ source gs.flatten :=
  mem_join_of_mem (List.mem_map_of_mem (List.mem_flatten.mpr ⟨g, hg, hs⟩)) hc

theorem no_feed_groupText {gs : List (List Segment)} (h : '\n' ∉ source gs.flatten) :
    ∀ g ∈ gs, '\n' ∉ groupText g := by
  intro g hg hc
  rcases mem_join hc with hc | ⟨p, hp, hc⟩
  · simp at hc
  · obtain ⟨s, hs, rfl⟩ := List.mem_map.mp hp
    exact h (mem_source hg hs (List.mem_append_right _ hc))

theorem no_feed_groupLead {gs : List (List Segment)} (h : '\n' ∉ source gs.flatten) :
    ∀ g ∈ gs, '\n' ∉ groupLead g := by
  intro g hg hc
  cases g with
  | nil => exact absurd hc List.not_mem_nil
  | cons s rest => exact h (mem_source hg List.mem_cons_self (List.mem_append_left _ hc))

end Segment

namespace Parameter

open Segment

def ofGroup (g : List Segment) : Parameter := ofLiteral (groupLead g) (groupText g)

theorem parseList_source {gs : List (List Segment)} (h : Parted gs)
    (hne : source gs.flatten ≠ []) : parseList (source gs.flatten) = gs.map ofGroup := by
  rw [parseList, if_neg hne, cut_source h.row, groups_flatten h.grouped]
  rfl

theorem exists_infix_of_mem_parseList {t : Text} {q : Parameter} (h : '\n' ∉ t)
    (hq : q ∈ parseList t) : ∃ s, s <:+: t ∧ q.body = Text.tighten s := by
  obtain ⟨gs, hparted, rfl⟩ := exists_parted t
  have hne : source gs.flatten ≠ [] := by
    intro hnil
    simp [parseList, hnil] at hq
  rw [parseList_source hparted hne, List.mem_map] at hq
  obtain ⟨g, hg, rfl⟩ := hq
  have hgroup : groupSource g <:+: source g := by
    rw [← groupLead_append_groupSource]
    exact (List.suffix_append _ _).isInfix
  have htext : source g <:+: source gs.flatten := by
    rw [source_flatten hparted.ne_nil]
    exact infix_join_of_mem (List.mem_map_of_mem hg)
  refine ⟨groupSource g, hgroup.trans htext, ?_⟩
  rw [ofGroup, ofLiteral_body _ (no_feed_groupText h g hg), tighten_groupSource (hparted.part g hg)]

theorem ofGroup_reread {g : List Segment} (hpart : Part g) (h : '\n' ∉ groupText g) :
    ofGroup (reread g) = (ofGroup g).tighten := by
  have hlead : groupLead (reread g) = groupLead g := by cases g <;> rfl
  rw [ofGroup, hlead, ← tighten_groupText hpart, ofLiteral_tighten _ h]
  rfl

theorem join_literal_map_ofGroup {gs : List (List Segment)} (h : Parted gs)
    (hfeed : ∀ g ∈ gs, '\n' ∉ groupText g) :
    join [','] ((gs.map ofGroup).map literal) = source (gs.map reread).flatten := by
  rw [source_flatten h.map_reread.ne_nil, List.map_map, List.map_map]
  congr 1
  refine List.map_congr_left fun g hg => ?_
  exact (ofLiteral_literal _ (hfeed g hg)).trans (source_reread g).symm

/-- Printing the parameters of a list and reading them again drops one more space after every comma
inside a parameter. -/
theorem parseList_printed {t : Text} (h : '\n' ∉ t) :
    parseList (join [','] ((parseList t).map literal)) = (parseList t).map tighten := by
  obtain ⟨gs, hparted, rfl⟩ := exists_parted t
  by_cases hnil : source gs.flatten = []
  · simp [hnil, parseList]
  · have hfeed := no_feed_groupText h
    rw [parseList_source hparted hnil, join_literal_map_ofGroup hparted hfeed,
      parseList_source hparted.map_reread (source_reread_ne_nil hparted hnil), List.map_map,
      List.map_map]
    exact List.map_congr_left fun g hg => ofGroup_reread (hparted.part g hg) (hfeed g hg)

end Parameter
end JournalScript
