import JournalScript.Proofs.Line.PrintingLoss

/-!
# JournalScript.Proofs.Line.Survival

Which calls come back when they are printed and read.

`Call.Survives` lists what the fields must be like, whatever texts they hold: names of the grammar, a
suffix that ends the call where it should, a stamp that is a timestamp, and parameters that can be
told apart again (`Parameter.ListSurvives`). `parse_literal_eq_iff`: these calls survive, and no
others.

* `quoting_iff`: the rule for quotes, piece by piece, is the rule of groups.
* `parseList_join_literal_iff`: the same for a list of parameters.
-/

namespace JournalScript

open Text Segment

/-- The text begins a quoted string and does not end it. -/
def OpensQuote (t : Text) : Prop := t.head? = some '"' ∧ t.getLast? ≠ some '"'

/-- How the pieces of a parameter, cut at its commas, are quoted. Only the final parameter may leave
its string open. -/
structure Quoting (final : Prop) (pieces : List Text) : Prop where
  several : ∀ first mid last, pieces = first :: (mid ++ [last]) →
    OpensQuote first ∧ (∀ m ∈ mid, m.getLast? ≠ some '"') ∧ (last.getLast? = some '"' ∨ final)
  single : ∀ only, pieces = [only] → OpensQuote only → final

/-- What parameters must be like for their printed list to be read as them again. -/
structure Parameter.ListSurvives (ps : List Parameter) : Prop where
  not_vacant : ∀ p, ps = [p] → p.literal ≠ []
  no_feed : ∀ p ∈ ps, '\n' ∉ p.body
  first_lead : ∀ p ∈ ps.head?, p.lead = []
  other_lead : ∀ p ∈ ps.tail, p.lead = [' '] ∨ p.lead = [] ∧ p.body.head? ≠ some ' '
  tight : ∀ p ∈ ps, ¬ [',', ' '] <:+: p.body
  quoting : ∀ p ∈ ps.dropLast, Quoting False (split [','] p.body)
  quoting_final : ∀ p ∈ ps.getLast?, Quoting True (split [','] p.body)
  settled : ∀ p ∈ ps, p.Settled

/-- What a call must be like for its text to be read as this call again. -/
structure Call.Survives (c : Call) : Prop where
  module_name : IsModuleName c.module
  action_name : IsActionName c.action
  suffix_open : ')' ∉ c.suffix ∧ '\n' ∉ c.suffix
  stamp_fits : c.stamp = [] ∨ Timestamp.Fits c.stamp ∧ c.suffix.getLast? = some ';'
  parameters : Parameter.ListSurvives c.parameters

namespace Segment

theorem opens_iff {s : Segment} : s.opens = true ↔ OpensQuote s.body := by
  simp [opens, OpensQuote]

theorem closes_iff {s : Segment} : s.closes = true ↔ s.body.getLast? = some '"' := by
  simp [closes]

theorem not_closes_iff {s : Segment} : s.closes = false ↔ s.body.getLast? ≠ some '"' := by
  rw [ne_eq, ← closes_iff, Bool.not_eq_true]

theorem quoting_iff {final : Prop} {g : List Segment} (hne : g ≠ []) :
    Quoting final (g.map body) ↔ Closed g ∨ final ∧ Unclosed g := by
  obtain ⟨s, rest, rfl⟩ := List.exists_cons_of_ne_nil hne
  constructor
  · intro h
    rcases List.eq_nil_or_concat' rest with rfl | ⟨mid, last, rfl⟩
    · cases hopen : s.opens with
      | false => exact .inl (.plain hopen)
      | true => exact .inr ⟨h.single s.body rfl (opens_iff.mp hopen), .mk hopen (by simp)⟩
    · obtain ⟨hopen, hmid, hlast⟩ := h.several s.body (mid.map body) last.body (by simp)
      have hmid' : ∀ m ∈ mid, m.closes = false := fun m hm =>
        not_closes_iff.mpr (hmid m.body (List.mem_map_of_mem hm))
      cases hclose : last.closes with
      | true => exact .inl (by simpa using .quoted (opens_iff.mpr hopen) hmid' hclose)
      | false =>
        have hheld : Unclosed (s :: mid) := .mk (opens_iff.mpr hopen) hmid'
        exact .inr ⟨hlast.resolve_left (not_closes_iff.mp hclose), hheld.extend hclose⟩
  · rintro (h | ⟨hfinal, h⟩)
    · cases h with
      | plain h =>
        refine ⟨fun first mid last hp => by simp at hp, fun only hp ho => ?_⟩
        simp only [List.map_cons, List.map_nil, List.cons.injEq, and_true] at hp
        subst hp
        rw [← opens_iff, h] at ho
        cases ho
      | @quoted _ last' mid' hopen hmid hlast =>
        refine ⟨fun first mid last hp => ?_, fun only hp => by simp at hp⟩
        rw [List.map_cons, List.map_append, List.map_singleton, List.cons.injEq] at hp
        obtain ⟨rfl, hp⟩ := hp
        obtain ⟨rfl, hl⟩ := List.append_inj' hp rfl
        simp only [List.cons.injEq, and_true] at hl
        subst hl
        refine ⟨opens_iff.mp hopen, fun m hm => ?_, .inl (closes_iff.mp hlast)⟩
        obtain ⟨r, hr, rfl⟩ := List.mem_map.mp hm
        exact not_closes_iff.mp (hmid r hr)
    · cases h with
      | mk hopen hrest =>
        refine ⟨fun first mid last hp => ?_, fun _ _ _ => hfinal⟩
        rw [List.map_cons, List.cons.injEq] at hp
        obtain ⟨rfl, hp⟩ := hp
        refine ⟨opens_iff.mp hopen, fun m hm => ?_, .inr hfinal⟩
        have hmem : m ∈ rest.map body := by rw [hp]; exact List.mem_append_left _ hm
        obtain ⟨r, hr, rfl⟩ := List.mem_map.mp hmem
        exact not_closes_iff.mp (hrest r hr)

theorem grouped_iff {gs : List (List Segment)} :
    Grouped gs ↔ (∀ g ∈ gs.dropLast, Closed g) ∧ ∀ g ∈ gs.getLast?, Closed g ∨ Unclosed g := by
  induction gs with
  | nil => simpa using Grouped.nil
  | cons g gs ih =>
    cases gs with
    | nil =>
      constructor
      · intro h
        cases h with
        | last h => simpa using .inr h
        | cons h hs => simpa using .inl h
      · rintro ⟨-, h⟩
        rcases h g rfl with h | h
        · exact .cons h .nil
        · exact .last h
    | cons g' gs =>
      rw [List.dropLast_cons_cons, List.getLast?_cons_cons]
      constructor
      · intro h
        cases h with
        | cons h hs =>
          obtain ⟨hinit, hlast⟩ := ih.mp hs
          exact ⟨by simpa using ⟨h, hinit⟩, hlast⟩
      · rintro ⟨hinit, hlast⟩
        exact .cons (hinit g List.mem_cons_self)
          (ih.mpr ⟨fun x hx => hinit x (List.mem_cons_of_mem _ hx), hlast⟩)

theorem split_groupText {g : List Segment} (h : Part g) : split [','] (groupText g) = g.map body := by
  cases h with
  | mk hfirst hrest =>
    refine split_join (by simp) fun p hp => ?_
    obtain ⟨r, hr, rfl⟩ := List.mem_map.mp hp
    rcases List.mem_cons.mp hr with rfl | hr
    · exact hfirst
    · exact (hrest r hr).1

theorem listSurvives_ofGroup {gs : List (List Segment)} (h : Parted gs)
    (hsame : ∀ g ∈ gs, reread g = g) (hfeed : ∀ g ∈ gs, '\n' ∉ groupText g)
    (hnil : source gs.flatten ≠ []) : Parameter.ListSurvives (gs.map Parameter.ofGroup) := by
  have hread : ∀ g ∈ gs, (Parameter.ofGroup g).lead = groupLead g ∧
      (Parameter.ofGroup g).body = groupText g ∧ (Parameter.ofGroup g).Settled := fun g hg =>
    (Parameter.ofLiteral_eq_iff (hfeed g hg)).mp rfl
  have hquote : ∀ {final : Prop}, ∀ g ∈ gs, Closed g ∨ final ∧ Unclosed g →
      Quoting final (split [','] (Parameter.ofGroup g).body) := by
    intro final g hg hgroup
    rw [(hread g hg).2.1, split_groupText (h.part g hg)]
    exact (quoting_iff (h.ne_nil g hg)).mpr hgroup
  obtain ⟨hclosed, hlast⟩ := grouped_iff.mp h.grouped
  constructor
  case not_vacant =>
    intro p hp hempty
    have hjoin := Parameter.join_literal_map_ofGroup h hfeed
    rw [hp, map_eq_self_iff.mpr hsame] at hjoin
    exact hnil (by simpa [hempty] using hjoin.symm)
  case no_feed =>
    intro p hp
    obtain ⟨g, hg, rfl⟩ := List.mem_map.mp hp
    rw [(hread g hg).2.1]
    exact hfeed g hg
  case first_lead =>
    obtain ⟨s, rest, others, rfl, hlead, -⟩ := h.exists_first
    intro p hp
    simp only [List.map_cons, List.head?_cons, Option.mem_def, Option.some.injEq] at hp
    subst hp
    rw [(hread _ List.mem_cons_self).1]
    exact hlead
  case other_lead =>
    have hne := h.ne_nil
    obtain ⟨s, rest, others, rfl, -, -, hothers⟩ := h.exists_first
    intro p hp
    obtain ⟨g, hg, rfl⟩ := List.mem_map.mp hp
    have hg' : g ∈ (s :: rest) :: others := List.mem_cons_of_mem _ hg
    rw [(hread g hg').1, (hread g hg').2.1]
    obtain ⟨s', rest', rfl⟩ := List.exists_cons_of_ne_nil (hne g hg')
    obtain ⟨-, hl | ⟨hl, hspace⟩⟩ := hothers _ hg s' List.mem_cons_self
    · exact .inl hl
    · exact .inr ⟨hl, head?_join hspace⟩
  case tight =>
    intro p hp
    obtain ⟨g, hg, rfl⟩ := List.mem_map.mp hp
    rw [(hread g hg).2.1, ← Text.tighten_eq_self_iff, tighten_groupText (h.part g hg), hsame g hg]
  case quoting =>
    intro p hp
    rw [← List.map_dropLast] at hp
    obtain ⟨g, hg, rfl⟩ := List.mem_map.mp hp
    exact hquote g (List.dropLast_subset gs hg) (.inl (hclosed g hg))
  case quoting_final =>
    intro p hp
    rw [List.getLast?_map] at hp
    obtain ⟨g, hg, rfl⟩ := Option.map_eq_some_iff.mp hp
    refine hquote g (List.mem_of_getLast? hg) ?_
    exact (hlast g hg).imp id fun h => ⟨trivial, h⟩
  case settled =>
    intro p hp
    obtain ⟨g, hg, rfl⟩ := List.mem_map.mp hp
    exact (hread g hg).2.2

end Segment

namespace Parameter

def segments (p : Parameter) : List Segment :=
  match split [','] p.body with
  | [] => []
  | b :: bs => ⟨p.lead, b⟩ :: bs.map fun b => ⟨[], b⟩

theorem exists_segments (p : Parameter) :
    ∃ b bs, split [','] p.body = b :: bs ∧
      p.segments = ⟨p.lead, b⟩ :: bs.map fun b => (⟨[], b⟩ : Segment) := by
  obtain ⟨b, bs, h⟩ := exists_split_cons ',' p.body
  exact ⟨b, bs, h, by rw [segments, h]⟩

theorem map_body_segments (p : Parameter) : p.segments.map Segment.body = split [','] p.body := by
  obtain ⟨b, bs, hsplit, hseg⟩ := p.exists_segments
  simp [hsplit, hseg, Function.comp_def]

theorem groupText_segments (p : Parameter) : groupText p.segments = p.body := by
  rw [groupText, map_body_segments, join_split_singleton]

theorem ofGroup_segments {p : Parameter} (h : '\n' ∉ p.body) (hs : p.Settled) :
    ofGroup p.segments = p := by
  have hlead : groupLead p.segments = p.lead := by
    obtain ⟨b, bs, -, hseg⟩ := p.exists_segments
    rw [hseg]; rfl
  rw [ofGroup, hlead, groupText_segments, ofLiteral_eq_iff h]
  exact ⟨rfl, rfl, hs⟩

theorem followsComma_of_tight {p : Parameter} {b : Text} {bs : List Text}
    (h : ¬ [',', ' '] <:+: p.body) (hsplit : split [','] p.body = b :: bs) :
    ∀ q ∈ bs, (⟨[], q⟩ : Segment).FollowsComma := by
  intro q hq
  refine ⟨not_mem_of_mem_split p.body (by rw [hsplit]; exact List.mem_cons_of_mem _ hq),
    .inr ⟨rfl, fun hspace => h ?_⟩⟩
  obtain ⟨left, right, rfl⟩ := List.append_of_mem hq
  obtain ⟨q', rfl⟩ := List.head?_eq_some_iff.mp hspace
  have hbody := join_split_singleton ',' p.body
  rw [hsplit, ← List.cons_append, join_append (by simp) (by simp), join_cons_append] at hbody
  exact ⟨join [','] (b :: left), join [','] (q' :: right), by rw [← hbody]; simp⟩

theorem reread_segments {p : Parameter} (h : ¬ [',', ' '] <:+: p.body) :
    reread p.segments = p.segments := by
  obtain ⟨b, bs, hsplit, hseg⟩ := p.exists_segments
  have hfollow := followsComma_of_tight h hsplit
  rw [hseg, reread, List.map_map]
  refine congrArg _ (List.map_congr_left fun q hq => ?_)
  exact afterComma_text (hfollow q hq)

theorem grouped_segments {ps : List Parameter} (h : ListSurvives ps) :
    Grouped (ps.map segments) := by
  have hgroup : ∀ {final : Prop} {p : Parameter}, Quoting final (split [','] p.body) →
      Closed p.segments ∨ final ∧ Unclosed p.segments := by
    intro final p hq
    obtain ⟨b, bs, -, hseg⟩ := p.exists_segments
    rw [← map_body_segments] at hq
    exact (quoting_iff (by simp [hseg])).mp hq
  rw [grouped_iff, ← List.map_dropLast, List.getLast?_map]
  constructor
  · intro g hg
    obtain ⟨p, hp, rfl⟩ := List.mem_map.mp hg
    exact (hgroup (h.quoting p hp)).resolve_right fun hf => hf.1
  · intro g hg
    obtain ⟨p, hp, rfl⟩ := Option.map_eq_some_iff.mp hg
    exact (hgroup (h.quoting_final p hp)).imp id And.right

theorem row_segments {ps : List Parameter} (h : ListSurvives ps) (hne : ps ≠ []) :
    Row (ps.map segments).flatten := by
  obtain ⟨p, others, rfl⟩ := List.exists_cons_of_ne_nil hne
  obtain ⟨b, bs, hsplit, hseg⟩ := p.exists_segments
  have hpiece := not_mem_of_mem_split (p := b) p.body (by rw [hsplit]; exact List.mem_cons_self)
  have hrest : ∀ {q : Parameter} {b : Text} {bs : List Text}, ¬ [',', ' '] <:+: q.body →
      split [','] q.body = b :: bs →
      ∀ r ∈ bs.map fun b => (⟨[], b⟩ : Segment), r.FollowsComma := by
    intro q b bs htight hsplit r hr
    obtain ⟨x, hx, rfl⟩ := List.mem_map.mp hr
    exact followsComma_of_tight htight hsplit x hx
  rw [List.map_cons, hseg, row_flatten_iff]
  refine ⟨h.first_lead p rfl, .mk hpiece (hrest (h.tight p List.mem_cons_self) hsplit), ?_⟩
  intro g hg r hr
  obtain ⟨q, hq, rfl⟩ := List.mem_map.mp hg
  obtain ⟨b', bs', hsplit', hseg'⟩ := q.exists_segments
  rw [hseg'] at hr
  rcases List.mem_cons.mp hr with rfl | hr
  · refine ⟨not_mem_of_mem_split q.body (by rw [hsplit']; exact List.mem_cons_self), ?_⟩
    rcases h.other_lead q hq with hl | ⟨hl, hspace⟩
    · exact .inl hl
    · refine .inr ⟨hl, fun hb => hspace ?_⟩
      have hbody := join_split_singleton ',' q.body
      rw [hsplit'] at hbody
      rw [← hbody]
      exact head?_join_of_head? hb
  · exact hrest (h.tight q (List.mem_cons_of_mem _ hq)) hsplit' r hr

theorem join_literal_ne_nil {ps : List Parameter} (h : ListSurvives ps) (hne : ps ≠ []) :
    join [','] (ps.map literal) ≠ [] := by
  cases ps with
  | nil => exact absurd rfl hne
  | cons p others =>
    cases others with
    | nil => simpa using h.not_vacant p rfl
    | cons q others => simp [join_cons_cons]

theorem ListSurvives.no_feed_join {ps : List Parameter} (h : ListSurvives ps) :
    '\n' ∉ join [','] (ps.map literal) := by
  have hlead : ∀ p ∈ ps, '\n' ∉ p.lead := by
    intro p hp
    cases ps with
    | nil => exact absurd hp List.not_mem_nil
    | cons q others =>
      rcases List.mem_cons.mp hp with rfl | hp
      · rw [h.first_lead p rfl]; simp
      · rcases h.other_lead p hp with hl | ⟨hl, -⟩ <;> simp [hl]
  exact no_feed_join_literal hlead h.no_feed

theorem ListSurvives.parseList_join_literal {ps : List Parameter} (h : ListSurvives ps) :
    parseList (join [','] (ps.map literal)) = ps := by
  by_cases hne : ps = []
  · subst hne; rfl
  · have hparted : Parted (ps.map segments) := ⟨grouped_segments h, row_segments h hne⟩
    have hread : (ps.map segments).map ofGroup = ps := by
      rw [List.map_map, map_eq_self_iff]
      exact fun p hp => ofGroup_segments (h.no_feed p hp) (h.settled p hp)
    have hsame : (ps.map segments).map reread = ps.map segments := by
      rw [map_eq_self_iff, List.forall_mem_map]
      exact fun p hp => reread_segments (h.tight p hp)
    have hfeed : ∀ g ∈ ps.map segments, '\n' ∉ groupText g := by
      rw [List.forall_mem_map]
      intro p hp
      rw [groupText_segments]
      exact h.no_feed p hp
    have hsource := join_literal_map_ofGroup hparted hfeed
    rw [hread, hsame] at hsource
    have hnil := join_literal_ne_nil h hne
    rw [hsource] at hnil ⊢
    rw [parseList_source hparted hnil, hread]

theorem listSurvives_of_parseList {ps : List Parameter}
    (hfeed : '\n' ∉ join [','] (ps.map literal))
    (h : parseList (join [','] (ps.map literal)) = ps) : ListSurvives ps := by
  by_cases hnil : join [','] (ps.map literal) = []
  · rw [hnil] at h
    obtain rfl : ps = [] := h.symm
    constructor <;> simp
  · obtain ⟨gs, hparted, hsource⟩ := exists_parted (join [','] (ps.map literal))
    rw [← hsource] at h hnil hfeed
    rw [parseList_source hparted hnil] at h
    have hfeed' := no_feed_groupText hfeed
    rw [← h, join_literal_map_ofGroup hparted hfeed'] at hsource
    rw [← h]
    exact listSurvives_ofGroup hparted (reread_of_source_eq hparted hsource.symm) hfeed' hnil

/-- The parameters that are read from their own printed list. -/
theorem parseList_join_literal_iff {ps : List Parameter}
    (hfeed : '\n' ∉ join [','] (ps.map literal)) :
    parseList (join [','] (ps.map literal)) = ps ↔ ListSurvives ps :=
  ⟨listSurvives_of_parseList hfeed, ListSurvives.parseList_join_literal⟩

end Parameter

namespace Spelling

def ofCall (c : Call) : Spelling :=
  ⟨if c.stamp = [] then none else some c.stamp, c.module, c.action,
    join [','] (c.parameters.map Parameter.literal), c.suffix⟩

theorem call_ofCall {c : Call} (h : Parameter.ListSurvives c.parameters) :
    (ofCall c).call = c := by
  have hstamp : (ofCall c).stamp.getD [] = c.stamp := by
    by_cases hs : c.stamp = [] <;> simp [ofCall, hs]
  have hparameters : Parameter.parseList (ofCall c).parameters = c.parameters :=
    h.parseList_join_literal
  rw [call, hstamp, hparameters]
  rfl

theorem text_ofCall (c : Call) : (ofCall c).text = c.literal := by
  by_cases h : c.stamp = [] <;>
    simp [ofCall, text, head, body, Call.literal, Call.literalWith, Call.head, h]

end Spelling

namespace Line

theorem spells_ofCall {c : Call} (h : c.Survives) :
    (Spelling.ofCall c).Spells .unrestricted c.literal where
  text_eq := (Spelling.text_ofCall c).symm
  no_feed := by
    have hbody : '\n' ∉ (Spelling.ofCall c).body :=
      (Spelling.no_feed_body_iff (p := Spelling.ofCall c) h.module_name h.action_name).mpr
        ⟨h.parameters.no_feed_join, h.suffix_open.2⟩
    have hhead : '\n' ∉ (Spelling.ofCall c).head := by
      by_cases hs : c.stamp = []
      · simp [Spelling.head, Spelling.ofCall, hs]
      · have hfits := (h.stamp_fits.resolve_left hs).1
        simp [Spelling.head, Spelling.ofCall, hs, hfits.no_feed]
    rw [← Spelling.text_ofCall, Spelling.text, List.mem_append, not_or]
    exact ⟨hhead, hbody⟩
  module_name := h.module_name
  action_name := h.action_name
  suffix_open := h.suffix_open.1
  module_admitted := by simp [NameFilter.unrestricted]
  action_admitted := by simp [NameFilter.unrestricted]
  stamp_fits := by
    intro s hs
    have hne : c.stamp ≠ [] := by
      intro hnil
      simp [Spelling.ofCall, hnil] at hs
    obtain rfl : c.stamp = s := by simpa [Spelling.ofCall, hne] using hs
    obtain ⟨hfits, hlast⟩ := h.stamp_fits.resolve_left hne
    rw [← Spelling.text_ofCall, Spelling.text_ends_iff]
    exact ⟨hfits, hlast⟩

theorem stamp_of_spells {p : Spelling} {f : NameFilter} {line : Text} (h : p.Spells f line) :
    p.call.stamp = [] ∨ Timestamp.Fits p.call.stamp ∧ p.call.suffix.getLast? = some ';' := by
  cases hs : p.stamp with
  | none => exact .inl (by simp [Spelling.call, hs])
  | some s =>
    obtain ⟨hfits, hlast⟩ := h.stamp_fits s hs
    rw [h.text_eq, Spelling.text_ends_iff] at hlast
    exact .inr ⟨by simpa [Spelling.call, hs] using hfits, hlast⟩

/-- Printing and reading gives a call back exactly when its fields are those of a call that
survives, whatever texts they hold. -/
theorem parse_literal_eq_iff (c : Call) :
    parse .unrestricted c.literal = .call c ↔ c.Survives := by
  constructor
  · intro h
    obtain ⟨p, hp, rfl⟩ := exists_spells h
    have hprinted : join [','] ((Parameter.parseList p.parameters).map Parameter.literal) =
        p.parameters := by
      have htext := hp.literal_call.symm.trans hp.text_eq
      simpa [Spelling.text, Spelling.head, Spelling.body, Spelling.printed] using htext
    have hfeed := hp.no_feed_parameters
    rw [← hprinted] at hfeed
    exact {
      module_name := hp.module_name
      action_name := hp.action_name
      suffix_open := ⟨hp.suffix_open, hp.no_feed_suffix⟩
      stamp_fits := stamp_of_spells hp
      parameters := Parameter.listSurvives_of_parseList hfeed
        (congrArg Parameter.parseList hprinted) }
  · intro h
    rw [parse_of_spells (spells_ofCall h), Spelling.call_ofCall h.parameters]

end Line
end JournalScript
