import JournalScript.Proofs.Line.SecondPass

/-!
# JournalScript.Proofs.Line.SpaceLoss

A printed line has everything but spaces from the line it was read from.

`Thinned short long`: `short` is `long` with some spaces left out. This is coarser than what is known
about the parameters of one call, but it passes through joins and appends, so it can be carried from
the lines to a whole text: `thinned_literal`.
-/

namespace JournalScript
namespace Text

/-- The text with some of its spaces left out. -/
structure Thinned (short long : Text) : Prop where
  sublist : short.Sublist long
  count_eq : ∀ c, c ≠ ' ' → short.count c = long.count c

namespace Thinned

variable {a b a' b' : Text}

theorem refl (t : Text) : Thinned t t := ⟨List.Sublist.refl t, fun _ _ => rfl⟩

theorem append (h : Thinned a b) (h' : Thinned a' b') : Thinned (a ++ a') (b ++ b') where
  sublist := h.sublist.append h'.sublist
  count_eq c hc := by rw [List.count_append, List.count_append, h.count_eq c hc, h'.count_eq c hc]

theorem cons (c : Char) (h : Thinned a b) : Thinned (c :: a) (c :: b) :=
  (refl [c]).append h

theorem join (sep : Text) {as bs : List Text} (h : List.Forall₂ Thinned as bs) :
    Thinned (join sep as) (join sep bs) := by
  induction h with
  | nil => exact refl []
  | @cons a b as bs hab htail ih =>
    cases htail with
    | nil => simpa using hab
    | cons hab' htail' =>
      rw [join_cons_cons, join_cons_cons]
      exact (hab.append (refl sep)).append ih

theorem length_le (h : Thinned a b) : a.length ≤ b.length := h.sublist.length_le

theorem eq_of_length (h : Thinned a b) (hlen : a.length = b.length) : a = b :=
  h.sublist.eq_of_length hlen

end Thinned

theorem thinned_tighten (t : Text) : Thinned (tighten t) t := by
  induction t using tightenInduction with
  | nil => exact .refl []
  | drop t ih =>
    rw [tighten_comma_space]
    refine .cons ',' ⟨ih.sublist.cons ' ', fun c hc => ?_⟩
    rw [ih.count_eq c hc, List.count_cons_of_ne hc.symm]
  | keep c t h ih =>
    rw [tighten_cons h]
    exact .cons c ih

end Text

open Text Segment

namespace Parameter

theorem thinned_printed {t : Text} (h : '\n' ∉ t) :
    Thinned (join [','] ((parseList t).map literal)) t := by
  obtain ⟨gs, hparted, rfl⟩ := exists_parted t
  by_cases hnil : source gs.flatten = []
  · simpa [hnil, parseList] using Thinned.refl []
  · rw [parseList_source hparted hnil, join_literal_map_ofGroup hparted (no_feed_groupText h),
      source_flatten hparted.map_reread.ne_nil, source_flatten hparted.ne_nil, List.map_map]
    refine Thinned.join [','] ?_
    rw [List.forall₂_map_left_iff, List.forall₂_map_right_iff]
    refine List.forall₂_same.mpr fun g hg => ?_
    rw [Function.comp_apply, source_reread, ← tighten_groupSource (hparted.part g hg),
      ← groupLead_append_groupSource]
    exact (Thinned.refl _).append (thinned_tighten _)

end Parameter

namespace Spelling

theorem thinned_text_printed {p : Spelling} (h : '\n' ∉ p.parameters) :
    Thinned p.printed.text p.text := by
  have hbody : Thinned p.printed.body p.body :=
    (((Thinned.refl _).append (Parameter.thinned_printed h)).append (.refl [')'])).append (.refl _)
  exact (Thinned.refl p.head).append hbody

end Spelling

namespace Line

theorem thinned_literal (f : NameFilter) (line : Text) :
    Thinned (parse f line).literal line := by
  cases h : parse f line with
  | raw content =>
    rw [literal, parse_raw h]
    exact .refl line
  | call c =>
    obtain ⟨p, hp, rfl⟩ := exists_spells h
    rw [literal, hp.literal_call]
    conv => rhs; rw [hp.text_eq]
    exact Spelling.thinned_text_printed hp.no_feed_parameters

/-- Only an empty line is read as a raw line without content. -/
theorem isBlankRaw_parse_iff {f : NameFilter} {line : Text} :
    (parse f line).isBlankRaw = true ↔ line = [] := by
  constructor
  · intro h
    cases hp : parse f line with
    | raw content =>
      rw [hp, isBlankRaw, List.isEmpty_iff] at h
      rw [← parse_raw hp, h]
    | call c =>
      rw [hp] at h
      cases h
  · rintro rfl
    rfl

end Line
end JournalScript
