import JournalScript.Proofs.Line.Survival
import JournalScript.Proofs.Text.Separator

/-!
# JournalScript.Proofs.Line.Strings

Quoted strings and barewords in a parameter list.

A parameter is `Written` when its value is a string or a bareword and its comment can be told apart
from the value. A printed list of such parameters is read as it was, but for two kinds of strings
(`parseList_written_iff`). One that begins with a comma is cut behind its first quote, and a lone
quote counts as a whole string. One that has a comment does not end in a quote, so it goes on into
the parameters behind it.

* `quoting_body_iff`: the rule for quotes, for one such parameter.
* `parseList_strings_iff`: lists without comments, where only the comma in front is left to ask for.
* `parseList_commented_iff`: lists whose strings hold no comma, where only the comments are.
-/

namespace JournalScript

open Text Segment

def Text.inQuotes (t : Text) : Text := '"' :: (t ++ ['"'])

def IsPlain (t : Text) : Prop := ∀ c ∈ t, c ≠ ',' ∧ c ≠ '"' ∧ c ≠ '\n'

/-- A quoted string without a quote inside it. No comma in it has a space behind it. -/
def IsString (t : Text) : Prop :=
  ∃ b, t = inQuotes b ∧ '"' ∉ b ∧ '\n' ∉ b ∧ ¬ [',', ' '] <:+: b

structure IsBareword (t : Text) : Prop where
  ne_nil : t ≠ []
  plain : IsPlain t
  no_space : t.head? ≠ some ' '

instance : DecidablePred IsPlain := fun t => List.decidableBAll _ t

instance : DecidablePred IsBareword := fun t =>
  decidable_of_iff (t ≠ [] ∧ IsPlain t ∧ t.head? ≠ some ' ')
    ⟨fun ⟨hne, hplain, hspace⟩ => ⟨hne, hplain, hspace⟩, fun h => ⟨h.ne_nil, h.plain, h.no_space⟩⟩

theorem isString_iff {t : Text} :
    IsString t ↔ t = inQuotes t.tail.dropLast ∧ '"' ∉ t.tail.dropLast ∧ '\n' ∉ t.tail.dropLast ∧
      ¬ [',', ' '] <:+: t.tail.dropLast := by
  constructor
  · rintro ⟨b, rfl, h⟩
    simpa [inQuotes] using h
  · exact fun h => ⟨_, h⟩

instance : DecidablePred IsString := fun _ => decidable_of_iff _ isString_iff.symm

namespace IsPlain

variable {t : Text}

theorem no_comma (h : IsPlain t) : ',' ∉ t := fun hc => (h _ hc).1 rfl

theorem no_quote (h : IsPlain t) : '"' ∉ t := fun hc => (h _ hc).2.1 rfl

theorem no_feed (h : IsPlain t) : '\n' ∉ t := fun hc => (h _ hc).2.2 rfl

theorem append {s : Text} (hs : IsPlain s) (h : IsPlain t) : IsPlain (s ++ t) :=
  fun c hc => (List.mem_append.mp hc).elim (hs c) (h c)

theorem annotation (h : IsPlain t) : IsPlain (Parameter.annotation t) := by
  have hmarks : IsPlain ['/', '*'] ∧ IsPlain ['*', '/'] := by simp [IsPlain]
  rw [Parameter.annotation]
  split
  · simp [IsPlain]
  · exact (hmarks.1.append h).append hmarks.2

end IsPlain

namespace IsString

variable {t : Text}

theorem head? (h : IsString t) : t.head? = some '"' := by
  obtain ⟨b, rfl, -⟩ := h
  rfl

theorem not_plain (h : IsString t) : ¬ IsPlain t := fun hplain =>
  hplain.no_quote (List.mem_of_head? h.head?)

theorem no_feed (h : IsString t) : '\n' ∉ t := by
  obtain ⟨b, rfl, -, hfeed, -⟩ := h
  simp [inQuotes, hfeed]

theorem not_close_suffix (h : IsString t) : ¬ ['*', '/'] <:+ t := by
  obtain ⟨b, rfl, -⟩ := h
  rintro ⟨front, hfront⟩
  have hlast := congrArg List.getLast? hfront
  simp [inQuotes, List.getLast?_cons] at hlast

theorem tighten_eq (h : IsString t) : tighten t = t := by
  obtain ⟨b, rfl, -, -, htight⟩ := h
  rw [inQuotes, tighten_cons (by simp), tighten_append (.inr (by simp)),
    tighten_eq_self_iff.mpr htight, tighten_of_not_mem (t := ['"']) (by simp)]

end IsString

/-! ## The rule for quotes -/

section Quoting

variable {final : Prop}

theorem quoting_singleton_iff {t : Text} : Quoting final [t] ↔ (OpensQuote t → final) := by
  constructor
  · exact fun h => h.single t rfl
  · intro h
    refine ⟨fun first mid last hp => by simp at hp, fun only hp => ?_⟩
    obtain rfl : t = only := by simpa using hp
    exact h

theorem quoting_several_iff {first last : Text} {mid : List Text} :
    Quoting final (first :: (mid ++ [last])) ↔ OpensQuote first ∧
      (∀ m ∈ mid, m.getLast? ≠ some '"') ∧ (last.getLast? = some '"' ∨ final) := by
  constructor
  · exact fun h => h.several first mid last rfl
  · intro h
    refine ⟨fun first' mid' last' hp => ?_, fun only hp => by simp at hp⟩
    rw [List.cons.injEq] at hp
    obtain ⟨rfl, hrest⟩ := hp
    obtain ⟨rfl, hl⟩ := List.append_inj' hrest rfl
    obtain rfl : last = last' := by simpa using hl
    exact h

theorem getLast?_annotation_iff {t c : Text} :
    (t ++ '"' :: Parameter.annotation c).getLast? = some '"' ↔ c = [] := by
  by_cases h : c = [] <;> simp [Parameter.annotation, h, List.getLast?_append, List.getLast?_cons]

theorem opensQuote_cons_iff {t : Text} (h : '"' ∉ t) : OpensQuote ('"' :: t) ↔ t ≠ [] := by
  rw [OpensQuote, List.getLast?_cons]
  cases hl : t.getLast? with
  | none => simp [List.getLast?_eq_none_iff.mp hl]
  | some c =>
    have hc := List.mem_of_getLast? hl
    have hne : c ≠ '"' := by rintro rfl; exact h hc
    simp [hne, List.ne_nil_of_mem hc]

theorem head?_ne_comma_iff {t first : Text} {rest : List Text} (h : split [','] t = first :: rest) :
    t.head? ≠ some ',' ↔ rest = [] ∨ first ≠ [] := by
  have hjoin := join_split_singleton ',' t
  have hno : ',' ∉ first := not_mem_of_mem_split t (by rw [h]; exact List.mem_cons_self)
  rw [← hjoin, h]
  cases first with
  | nil =>
    cases rest with
    | nil => simp
    | cons p ps => simp [join_cons_cons]
  | cons d first =>
    rw [join_cons_append]
    have hd : d ≠ ',' := by rintro rfl; simp at hno
    simp [hd]

/-- A string is one piece, or it is cut at its commas; its first piece has the first quote and its
last piece the other one and the comment. -/
theorem quoting_string_iff {b c : Text} (hb : '"' ∉ b) (hc : IsPlain c) :
    Quoting final (split [','] ('"' :: (b ++ '"' :: Parameter.annotation c))) ↔
      b.head? ≠ some ',' ∧ (c = [] ∨ final) := by
  have hquote : ',' ∉ ['"'] := by simp
  have htail : ',' ∉ '"' :: Parameter.annotation c := by simp [hc.annotation.no_comma]
  obtain ⟨first, rest, hsplit⟩ := exists_split_cons ',' b
  have hjoin := join_split_singleton ',' b
  rw [hsplit] at hjoin
  have hno : ',' ∉ first := not_mem_of_mem_split b (by rw [hsplit]; exact List.mem_cons_self)
  rcases List.eq_nil_or_concat' rest with rfl | ⟨mid, last, rfl⟩
  · obtain rfl : first = b := by simpa using hjoin
    have hwhole : ',' ∉ '"' :: (first ++ '"' :: Parameter.annotation c) := by
      simpa [hno] using htail
    rw [split_of_absent (by rwa [List.singleton_infix_iff]), quoting_singleton_iff, OpensQuote,
      ← List.cons_append, ne_eq, getLast?_annotation_iff, head?_ne_comma_iff hsplit]
    simp [Classical.or_iff_not_imp_left]
  · have hquotes : ∀ p ∈ first :: (mid ++ [last]), '"' ∉ p := fun p hp hq =>
      hb (by rw [← hjoin]; exact mem_join_of_mem hp hq)
    have hmid : ∀ m ∈ mid, m.getLast? ≠ some '"' := fun m hm hl =>
      hquotes m (by simp [hm]) (List.mem_of_getLast? hl)
    have hcut := split_surrounded hquote htail hsplit
    rw [List.singleton_append, List.singleton_append] at hcut
    rw [hcut, quoting_several_iff, getLast?_annotation_iff,
      opensQuote_cons_iff (hquotes first List.mem_cons_self), head?_ne_comma_iff hsplit]
    constructor
    · rintro ⟨hfirst, -, hend⟩
      exact ⟨.inr hfirst, hend⟩
    · rintro ⟨hfirst, hend⟩
      exact ⟨hfirst.resolve_left (by simp), hmid, hend⟩

end Quoting

namespace Parameter

/-- A string or a bareword, with a comment that can be told apart from it. -/
structure Written (p : Parameter) : Prop where
  value : IsString p.value ∨ IsBareword p.value
  comment : IsPlain p.comment
  settled : p.Settled

/-- Behind a comma there may be one space, in front of the list none. -/
structure Spaced (ps : List Parameter) : Prop where
  first : ∀ p ∈ ps.head?, p.lead = []
  others : ∀ p ∈ ps.tail, p.lead = [] ∨ p.lead = [' ']

instance : DecidablePred Spaced := fun ps =>
  decidable_of_iff
    ((∀ p ∈ ps.head?, p.lead = []) ∧ ∀ p ∈ ps.tail, p.lead = [] ∨ p.lead = [' '])
    ⟨fun ⟨hfirst, hothers⟩ => ⟨hfirst, hothers⟩, fun h => ⟨h.first, h.others⟩⟩

variable {p : Parameter} {ps : List Parameter} {final : Prop}

/-! ## One parameter -/

theorem body_of_string {b : Text} (h : p.value = inQuotes b) :
    p.body = '"' :: (b ++ '"' :: annotation p.comment) := by
  rw [body, h, inQuotes, List.cons_append, List.append_assoc, List.singleton_append]

theorem Written.no_feed (h : p.Written) : '\n' ∉ p.body := by
  rw [body, List.mem_append, not_or]
  refine ⟨?_, h.comment.annotation.no_feed⟩
  rcases h.value with hstring | hword
  · exact hstring.no_feed
  · exact hword.plain.no_feed

theorem Written.value_ne_nil (h : p.Written) : p.value ≠ [] := by
  rcases h.value with hstring | hword
  · intro hnil
    simpa [hnil] using hstring.head?
  · exact hword.ne_nil

theorem Written.head?_body (h : p.Written) : p.body.head? ≠ some ' ' := by
  rw [body, List.head?_append_of_ne_nil _ h.value_ne_nil]
  rcases h.value with hstring | hword
  · simp [hstring.head?]
  · exact hword.no_space

theorem Written.tight (h : p.Written) : ¬ [',', ' '] <:+: p.body := by
  have hvalue : Text.tighten p.value = p.value := by
    rcases h.value with hstring | hword
    · exact hstring.tighten_eq
    · exact tighten_of_not_mem hword.plain.no_comma
  rw [← tighten_eq_self_iff, tighten, hvalue, tighten_of_not_mem h.comment.no_comma]

/-- The rule for quotes, for a parameter in front of others or at the end. -/
theorem quoting_body_iff (h : p.Written) :
    Quoting final (split [','] p.body) ↔
      ¬ ['"', ','] <+: p.value ∧ (IsString p.value → p.comment = [] ∨ final) := by
  rcases h.value with hstring | hword
  · obtain ⟨b, hb, hquote, -⟩ := id hstring
    have hfront : ['"', ','] <+: p.value ↔ b.head? = some ',' := by
      rw [hb, inQuotes]
      cases b <;> simp [List.cons_prefix_cons, eq_comm]
    rw [body_of_string hb, quoting_string_iff hquote h.comment, hfront]
    simp [hstring]
  · have hplain : IsPlain p.body := hword.plain.append h.comment.annotation
    have hopen : ¬ OpensQuote p.body := fun ho => hplain.no_quote (List.mem_of_head? ho.1)
    have hfront : ¬ ['"', ','] <+: p.value := fun hf =>
      hword.plain.no_quote (hf.subset List.mem_cons_self)
    rw [split_of_absent (by rw [List.singleton_infix_iff]; exact hplain.no_comma),
      quoting_singleton_iff]
    have hno : ¬ IsString p.value := fun hstring => hstring.not_plain hword.plain
    simp [hopen, hfront, hno]

/-! ## Lists -/

theorem Spaced.no_feed (hs : Spaced ps) : ∀ p ∈ ps, '\n' ∉ p.lead := by
  intro p hp
  cases ps with
  | nil => exact absurd hp List.not_mem_nil
  | cons q others =>
    rcases List.mem_cons.mp hp with rfl | hp
    · simp [hs.first p rfl]
    · rcases hs.others p hp with hl | hl <;> simp [hl]

theorem listSurvives_written_iff (hs : Spaced ps) (h : ∀ p ∈ ps, p.Written) :
    ListSurvives ps ↔ (∀ p ∈ ps, ¬ ['"', ','] <+: p.value) ∧
      ∀ p ∈ ps.dropLast, IsString p.value → p.comment = [] := by
  constructor
  · intro hl
    refine ⟨fun p hp => ?_, fun p hp hstring => ?_⟩
    · rcases List.eq_nil_or_concat' ps with rfl | ⟨init, last, rfl⟩
      · exact absurd hp List.not_mem_nil
      rcases List.mem_append.mp hp with hinit | hlast
      · exact ((quoting_body_iff (h p hp)).mp (hl.quoting p (by simpa using hinit))).1
      · obtain rfl := List.mem_singleton.mp hlast
        exact ((quoting_body_iff (h p hp)).mp (hl.quoting_final p (by simp))).1
    · have hwritten := h p (List.dropLast_subset ps hp)
      exact (((quoting_body_iff hwritten).mp (hl.quoting p hp)).2 hstring).resolve_right id
  · rintro ⟨hfront, hcomment⟩
    constructor
    case not_vacant =>
      rintro p rfl hempty
      have hvalue := (h p List.mem_cons_self).value_ne_nil
      simp only [literal, body, List.append_eq_nil_iff] at hempty
      exact hvalue hempty.2.1
    case no_feed => exact fun p hp => (h p hp).no_feed
    case first_lead => exact hs.first
    case other_lead =>
      intro p hp
      rcases hs.others p hp with hl | hl
      · exact .inr ⟨hl, (h p (List.mem_of_mem_tail hp)).head?_body⟩
      · exact .inl hl
    case tight => exact fun p hp => (h p hp).tight
    case quoting =>
      intro p hp
      have hmem := List.dropLast_subset ps hp
      exact (quoting_body_iff (h p hmem)).mpr
        ⟨hfront p hmem, fun hstring => .inl (hcomment p hp hstring)⟩
    case quoting_final =>
      intro p hp
      have hmem := List.mem_of_getLast? hp
      exact (quoting_body_iff (h p hmem)).mpr ⟨hfront p hmem, fun _ => .inr trivial⟩
    case settled => exact fun p hp => (h p hp).settled

/-- Which lists of strings and barewords are read from their own text. -/
theorem parseList_written_iff (hs : Spaced ps) (h : ∀ p ∈ ps, p.Written) :
    parseList (join [','] (ps.map literal)) = ps ↔ (∀ p ∈ ps, ¬ ['"', ','] <+: p.value) ∧
      ∀ p ∈ ps.dropLast, IsString p.value → p.comment = [] := by
  rw [parseList_join_literal_iff (no_feed_join_literal hs.no_feed fun p hp => (h p hp).no_feed),
    listSurvives_written_iff hs h]

/-! ## How many parameters are read -/

theorem row_of_no_comma (hs : Spaced ps) (hne : ps ≠ []) (hcomma : ∀ p ∈ ps, ',' ∉ p.body)
    (hspace : ∀ p ∈ ps, p.body.head? ≠ some ' ') :
    Row (ps.map fun p => ⟨p.lead, p.body⟩) := by
  obtain ⟨p, others, rfl⟩ := List.exists_cons_of_ne_nil hne
  rw [List.map_cons, hs.first p rfl]
  refine .mk (hcomma p List.mem_cons_self) fun s hmem => ?_
  obtain ⟨q, hq, rfl⟩ := List.mem_map.mp hmem
  refine ⟨hcomma q (List.mem_cons_of_mem _ hq), ?_⟩
  rcases hs.others q hq with hl | hl
  · exact .inr ⟨hl, hspace q (List.mem_cons_of_mem _ hq)⟩
  · exact .inl hl

theorem map_singleton_flatten {gs : List (List Segment)} (hne : ∀ g ∈ gs, g ≠ [])
    (hlen : gs.flatten.length = gs.length) : gs.flatten.map ([·]) = gs := by
  have hone : ∀ g ∈ gs, g.length = 1 :=
    length_eq_one_of_length_flatMap (f := id) hne (by rwa [List.flatMap_id])
  have hsingle : ∀ g ∈ gs, g.map ([·]) = [g] := by
    intro g hg
    obtain ⟨s, rfl⟩ := List.length_eq_one_iff.mp (hone g hg)
    rfl
  rw [List.map_flatten, List.map_congr_left hsingle, ← List.flatMap_def, List.flatMap_singleton']

/-- If as many parameters are read as were printed, they are the same ones. -/
theorem parseList_of_length (hs : Spaced ps) (h : ∀ p ∈ ps, p.Written)
    (hcomma : ∀ p ∈ ps, ',' ∉ p.body)
    (hlen : (parseList (join [','] (ps.map literal))).length = ps.length) :
    parseList (join [','] (ps.map literal)) = ps := by
  by_cases hne : ps = []
  · subst hne; rfl
  have hrow := row_of_no_comma hs hne hcomma fun p hp => (h p hp).head?_body
  have hsource : join [','] (ps.map literal) = source (ps.map fun p => ⟨p.lead, p.body⟩) := by
    rw [source, List.map_map]; rfl
  obtain ⟨gs, hparted, hgs⟩ := exists_parted (join [','] (ps.map literal))
  have hflat : gs.flatten = ps.map fun p => ⟨p.lead, p.body⟩ := by
    rw [← cut_source hrow, ← hsource, ← hgs, cut_source hparted.row]
  have hnil : source gs.flatten ≠ [] := by
    obtain ⟨p, hp⟩ := List.exists_mem_of_ne_nil ps hne
    obtain ⟨c, hc⟩ := List.exists_mem_of_ne_nil p.value (h p hp).value_ne_nil
    have hmem : c ∈ p.literal := List.mem_append_right _ (List.mem_append_left _ hc)
    rw [hgs]
    exact List.ne_nil_of_mem (mem_join_of_mem (List.mem_map_of_mem hp) hmem)
  rw [← hgs, parseList_source hparted hnil] at hlen ⊢
  rw [List.length_map] at hlen
  have hsingle := map_singleton_flatten hparted.ne_nil (by rw [hflat, List.length_map, hlen])
  rw [← hsingle, hflat, List.map_map, List.map_map, map_eq_self_iff]
  intro p hp
  have hread : ofLiteral p.lead p.body = p :=
    (ofLiteral_eq_iff (h p hp).no_feed).mpr ⟨rfl, rfl, (h p hp).settled⟩
  simpa [ofGroup, groupLead, groupText] using hread

/-! ## Strings with commas, strings with comments -/

theorem written_of_value (hvalue : IsString p.value ∨ IsBareword p.value ∧ ¬ ['*', '/'] <:+ p.value)
    (hcomment : IsPlain p.comment) (hopen : ¬ ['/', '*'] <:+: p.comment) : p.Written := by
  refine ⟨hvalue.imp id And.left, hcomment, ?_⟩
  have hend : ¬ ['*', '/'] <:+ p.value := hvalue.elim IsString.not_close_suffix And.right
  rw [Settled]
  split
  · rintro ⟨v, c, hcut, -⟩
    exact hend ⟨v ++ ['/', '*'] ++ c, hcut.symm⟩
  · exact hopen

/-- Commas inside strings split none of them, unless a string begins with one. -/
theorem parseList_strings_iff (hs : Spaced ps) (hnone : ∀ p ∈ ps, p.comment = [])
    (hvalue : ∀ p ∈ ps, IsString p.value ∨ IsBareword p.value ∧ ¬ ['*', '/'] <:+ p.value) :
    parseList (join [','] (ps.map literal)) = ps ↔ ∀ p ∈ ps, ¬ ['"', ','] <+: p.value := by
  have hwritten : ∀ p ∈ ps, p.Written := fun p hp =>
    written_of_value (hvalue p hp) (by simp [hnone p hp, IsPlain]) (by simp [hnone p hp])
  rw [parseList_written_iff hs hwritten]
  exact ⟨And.left, fun hfront => ⟨hfront, fun p hp _ => hnone p (List.dropLast_subset ps hp)⟩⟩

/-- Commas in the middle of a string and at its end. -/
theorem parseList_strings_mixed :
    let ps : List Parameter := [⟨[], "\"a,,b,\"".toList, []⟩, ⟨[' '], "\"\"".toList, []⟩,
      ⟨[], "c".toList, []⟩]
    parseList (join [','] (ps.map literal)) = ps := by
  intro ps
  have hspaced : Spaced ps := by decide
  have hnone : ∀ p ∈ ps, p.comment = [] := by decide
  have hvalue : ∀ p ∈ ps, IsString p.value ∨ IsBareword p.value ∧ ¬ ['*', '/'] <:+ p.value := by
    decide
  exact (parseList_strings_iff hspaced hnone hvalue).mpr (by decide)

/-- A string that begins with a comma is split. -/
theorem parseList_strings_split :
    let p : Parameter := ⟨[], "\",a\"".toList, []⟩
    Spaced [p] ∧ IsString p.value ∧ p.comment = [] ∧
      parseList (join [','] ([p].map literal)) ≠ [p] := by
  decide

/-- A comment behind a string, unless it is the last parameter, makes the string go on: the list is
not read as it was, nor as many parameters. Any other comment belongs to its own parameter. -/
theorem parseList_commented_iff (hs : Spaced ps)
    (hvalue : ∀ p ∈ ps, IsString p.value ∧ ',' ∉ p.value ∨
      IsBareword p.value ∧ ¬ ['*', '/'] <:+ p.value)
    (hcomment : ∀ p ∈ ps, IsPlain p.comment ∧ ¬ ['/', '*'] <:+: p.comment) :
    (parseList (join [','] (ps.map literal)) = ps ↔
        ∀ p ∈ ps.dropLast, IsString p.value → p.comment = []) ∧
      ((parseList (join [','] (ps.map literal))).length = ps.length ↔
        ∀ p ∈ ps.dropLast, IsString p.value → p.comment = []) := by
  have hwritten : ∀ p ∈ ps, p.Written := fun p hp =>
    written_of_value ((hvalue p hp).imp And.left id) (hcomment p hp).1 (hcomment p hp).2
  have hvalue' : ∀ p ∈ ps, ',' ∉ p.value := fun p hp =>
    (hvalue p hp).elim And.right fun hword => hword.1.plain.no_comma
  have hbody : ∀ p ∈ ps, ',' ∉ p.body := fun p hp => by
    rw [body, List.mem_append, not_or]
    exact ⟨hvalue' p hp, (hwritten p hp).comment.annotation.no_comma⟩
  have hlist : parseList (join [','] (ps.map literal)) = ps ↔
      ∀ p ∈ ps.dropLast, IsString p.value → p.comment = [] := by
    rw [parseList_written_iff hs hwritten]
    refine ⟨And.right, fun h => ⟨fun p hp hfront => hvalue' p hp (hfront.subset ?_), h⟩⟩
    exact List.mem_cons_of_mem _ List.mem_cons_self
  refine ⟨hlist, fun hlen => hlist.mp (parseList_of_length hs hwritten hbody hlen), fun h => ?_⟩
  rw [hlist.mpr h]

/-- A word with a comment, a string without one, and a string with a comment at the end. -/
theorem parseList_commented_last :
    let ps : List Parameter := [⟨[], "1".toList, "one".toList⟩, ⟨[' '], "\"a\"".toList, []⟩,
      ⟨[], "\"b\"".toList, "/".toList⟩]
    parseList (join [','] (ps.map literal)) = ps := by
  intro ps
  have hspaced : Spaced ps := by decide
  have hvalue : ∀ p ∈ ps, IsString p.value ∧ ',' ∉ p.value ∨
      IsBareword p.value ∧ ¬ ['*', '/'] <:+ p.value := by decide
  have hcomment : ∀ p ∈ ps, IsPlain p.comment ∧ ¬ ['/', '*'] <:+: p.comment := by decide
  exact (parseList_commented_iff hspaced hvalue hcomment).1.mpr (by decide)

/-- A comment behind a string in front of another parameter, which the string takes in. -/
theorem parseList_commented_swallowed :
    let ps : List Parameter := [⟨[], "\"a\"".toList, "c".toList⟩, ⟨[], "1".toList, []⟩]
    Spaced ps ∧ (∀ p ∈ ps, IsString p.value ∧ ',' ∉ p.value ∨ IsBareword p.value ∧
        ¬ ['/', '*'] <:+: p.value ∧ ¬ ['*', '/'] <:+: p.value) ∧
      (∀ p ∈ ps, IsPlain p.comment ∧ ¬ ['/', '*'] <:+: p.comment ∧ ¬ ['*', '/'] <:+: p.comment) ∧
      parseList (join [','] (ps.map literal)) = [⟨[], "\"a\"/*c*/,1".toList, []⟩] := by
  decide

end Parameter
end JournalScript
