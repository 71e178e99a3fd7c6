import JournalScript.Proofs.Document.Reload
import JournalScript.Proofs.Line.SpaceLoss
import Mathlib.Algebra.Order.BigOperators.Group.List
import Mathlib.Algebra.Order.Group.Nat

/-!
# JournalScript.Proofs.Document.RoundTrip

When a text comes back unchanged from being read and written.

Three things can be lost: the separators are written differently, empty lines are left out, and
quoted strings lose spaces. `render_eq_text_iff`: the text comes back exactly when none of the three
happens (`Faithful`), so no loss makes up for another.

The proof counts carriage returns and line feeds. The lines keep theirs, so those of the separators
must agree, and then there are as many lines as before. With the separators and the lines left out of
the account, a line that is shorter than before would make the whole text shorter.
-/

namespace JournalScript
namespace Document

open Text

/-- Nothing of a text is lost when it is read and written. -/
structure Faithful (layout : Layout) (filter : NameFilter) (text : Text) : Prop where
  separator : layout.lineSeparator = layout.outputSeparator ∨ ¬ layout.lineSeparator <:+: text
  empty : layout.skipEmpty = false ∨ text = [] ∨
    ∀ piece ∈ split layout.lineSeparator text, piece ≠ []
  literal : ∀ piece ∈ split layout.lineSeparator text, (Line.parse filter piece).literal = piece

variable {layout : Layout} {filter : NameFilter} {text : Text} {d : Document}

theorem ofText_eq_ok_iff : ofText layout filter text = .ok d ↔ layout.lineSeparator ≠ [] ∧
    d = ⟨[], (split layout.lineSeparator text).map (Line.parse filter), layout, filter, []⟩ := by
  by_cases h : layout.lineSeparator = []
  · simp [ofText, parseLines?, h]
  · simp [ofText, parseLines?, h, eq_comm]

/-! ## What is written -/

theorem literal_of_not_keeps {l : Line} (h : keeps layout l = false) : l.literal = [] := by
  simp only [keeps, Bool.not_eq_false', Bool.and_eq_true] at h
  cases l with
  | call c => cases h.2
  | raw content => simpa [Line.isBlankRaw, Line.literal] using h.2

/-- What adds up over texts adds up over the lines and the separators that are written; lines that
are left out add nothing. -/
theorem measure_render {f : Text → Nat} (hnil : f [] = 0) (happend : ∀ a b, f (a ++ b) = f a + f b)
    (d : Document) : f d.render = (d.lines.map fun l => f l.literal).sum +
      (d.kept.length - 1) * f d.layout.outputSeparator := by
  have hsum : ∀ lines : List Line, ((lines.filter (keeps d.layout)).map fun l => f l.literal).sum =
      (lines.map fun l => f l.literal).sum := by
    intro lines
    induction lines with
    | nil => rfl
    | cons l lines ih =>
      cases hl : keeps d.layout l with
      | true => simp [hl, ih]
      | false => simp [hl, ih, literal_of_not_keeps hl, hnil]
  rw [render_eq_join, measure_join hnil happend, List.map_map, List.length_map, ← hsum]
  rfl

theorem keeps_of_length {lines : List Line}
    (h : (lines.filter (keeps layout)).length = lines.length) : ∀ l ∈ lines, keeps layout l = true :=
  List.length_filter_eq_length_iff.mp h

theorem keeps_parse_iff {piece : Text} : keeps layout (Line.parse filter piece) = true ↔
    layout.skipEmpty = false ∨ piece ≠ [] := by
  have hblank : (Line.parse filter piece).isBlankRaw = true ↔ piece = [] :=
    Line.isBlankRaw_parse_iff
  rw [keeps, Bool.not_eq_true', Bool.and_eq_false_iff, ne_eq, ← hblank, Bool.not_eq_true]

/-! ## Counting -/

/-- Lists that add up to the same are the same if one is nowhere greater. -/
theorem eq_of_sum_eq {α : Type} {f g : α → Nat} {xs : List α} (hle : ∀ x ∈ xs, f x ≤ g x)
    (hsum : (xs.map f).sum = (xs.map g).sum) : ∀ x ∈ xs, f x = g x := by
  intro x hx
  refine Nat.le_antisymm (hle x hx) (Nat.le_of_not_lt fun hlt => ?_)
  exact absurd hsum (Nat.ne_of_lt (List.sum_lt_sum f g hle ⟨x, hx, hlt⟩))

/-- The carriage returns and the line feeds of the separators are kept. -/
theorem count_separators (hline : layout.lineSeparator ≠ []) (hd : ofText layout filter text = .ok d)
    (h : d.render = text) {c : Char} (hc : c ≠ ' ') :
    ((split layout.lineSeparator text).length - 1) * layout.lineSeparator.count c =
      (d.kept.length - 1) * layout.outputSeparator.count c := by
  obtain ⟨-, rfl⟩ := ofText_eq_ok_iff.mp hd
  have hread := count_join c layout.lineSeparator (split layout.lineSeparator text)
  have hwritten := measure_render (f := List.count c) List.count_nil
    (fun _ _ => List.count_append) ⟨[], (split layout.lineSeparator text).map (Line.parse filter),
      layout, filter, []⟩
  rw [join_split hline] at hread
  rw [h, hread, List.map_map] at hwritten
  have hlines : (split layout.lineSeparator text).map
      ((fun l => l.literal.count c) ∘ Line.parse filter) =
      (split layout.lineSeparator text).map (List.count c) :=
    List.map_congr_left fun piece _ => (Line.thinned_literal filter piece).count_eq c hc
  rw [hlines] at hwritten
  exact Nat.add_left_cancel hwritten

/-- Either the text is one piece and is written as such, or nothing changes about the separators. -/
theorem separators_of_render_eq (hline : IsLineEnd layout.lineSeparator)
    (hout : IsLineEnd layout.outputSeparator) (hd : ofText layout filter text = .ok d)
    (h : d.render = text) :
    ((split layout.lineSeparator text).length = 1 ∧ d.kept.length - 1 = 0) ∨
      (layout.lineSeparator = layout.outputSeparator ∧
        d.kept.length = (split layout.lineSeparator text).length) := by
  have hpos := List.length_pos_iff.mpr (split_ne_nil hline.ne_nil text)
  have hkept : d.kept.length ≤ (split layout.lineSeparator text).length := by
    obtain ⟨-, rfl⟩ := ofText_eq_ok_iff.mp hd
    exact (List.length_filter_le _ _).trans (List.length_map _).le
  by_cases hone : (split layout.lineSeparator text).length = 1
  · exact .inl ⟨hone, by omega⟩
  · obtain ⟨hsep, hlen⟩ := hline.eq_of_count hout (by omega)
      (count_separators hline.ne_nil hd h (by decide))
      (count_separators hline.ne_nil hd h (by decide))
    exact .inr ⟨hsep, by omega⟩

theorem literal_of_render_eq (hline : IsLineEnd layout.lineSeparator)
    (hout : IsLineEnd layout.outputSeparator) (hd : ofText layout filter text = .ok d)
    (h : d.render = text) :
    ∀ piece ∈ split layout.lineSeparator text, (Line.parse filter piece).literal = piece := by
  have hseparators : ((split layout.lineSeparator text).length - 1) * layout.lineSeparator.length =
      (d.kept.length - 1) * layout.outputSeparator.length := by
    rcases separators_of_render_eq hline hout hd h with ⟨hone, hkept⟩ | ⟨hsep, hlen⟩
    · rw [hone, hkept]
      simp
    · rw [hlen, hsep]
  obtain ⟨-, rfl⟩ := ofText_eq_ok_iff.mp hd
  have hread := length_join layout.lineSeparator (split layout.lineSeparator text)
  have hwritten := measure_render (f := List.length) List.length_nil
    (fun _ _ => List.length_append) ⟨[], (split layout.lineSeparator text).map (Line.parse filter),
      layout, filter, []⟩
  rw [join_split hline.ne_nil] at hread
  rw [h, hread, ← hseparators, List.map_map] at hwritten
  have hsum := (Nat.add_right_cancel hwritten).symm
  intro piece hpiece
  have hthin := Line.thinned_literal filter piece
  refine hthin.eq_of_length (eq_of_sum_eq (fun p _ => ?_) hsum piece hpiece)
  exact (Line.thinned_literal filter p).length_le

/-! ## Coming back -/

theorem faithful_of_render_eq (hline : IsLineEnd layout.lineSeparator)
    (hout : IsLineEnd layout.outputSeparator) (hd : ofText layout filter text = .ok d)
    (h : d.render = text) : Faithful layout filter text := by
  have hliteral := literal_of_render_eq hline hout hd h
  rcases separators_of_render_eq hline hout hd h with ⟨hone, -⟩ | ⟨hsep, hlen⟩
  · have hno := (length_split_eq_one_iff hline.ne_nil).mp hone
    refine ⟨.inr hno, ?_, hliteral⟩
    rw [split_of_absent hno]
    by_cases hnil : text = []
    · exact .inr (.inl hnil)
    · exact .inr (.inr (by simpa using hnil))
  · refine ⟨.inl hsep, ?_, hliteral⟩
    obtain ⟨-, rfl⟩ := ofText_eq_ok_iff.mp hd
    have hkeeps := keeps_of_length (hlen.trans (List.length_map _).symm)
    cases hskip : layout.skipEmpty with
    | false => exact .inl rfl
    | true =>
      refine .inr (.inr fun piece hpiece => ?_)
      have hkept := keeps_parse_iff.mp (hkeeps _ (List.mem_map_of_mem hpiece))
      simpa [hskip] using hkept

theorem render_of_faithful (hline : IsLineEnd layout.lineSeparator)
    (hd : ofText layout filter text = .ok d) (h : Faithful layout filter text) :
    d.render = text := by
  obtain ⟨-, rfl⟩ := ofText_eq_ok_iff.mp hd
  have hjoin : join layout.outputSeparator (split layout.lineSeparator text) = text := by
    rcases h.separator with hsep | hno
    · rw [← hsep, join_split hline.ne_nil]
    · rw [split_of_absent hno, join_singleton]
  by_cases hnil : text = []
  · subst hnil
    have hempty : (Line.parse filter []).literal = [] := h.literal [] (by simp)
    cases hkeeps : keeps layout (Line.parse filter []) <;> simp [render_eq_join, kept, hkeeps, hempty]
  have hkeeps : ∀ l ∈ (split layout.lineSeparator text).map (Line.parse filter),
      keeps layout l = true := by
    intro l hl
    obtain ⟨piece, hpiece, rfl⟩ := List.mem_map.mp hl
    refine keeps_parse_iff.mpr ?_
    rcases h.empty with hskip | hempty | hne
    · exact .inl hskip
    · exact absurd hempty hnil
    · exact .inr (hne piece hpiece)
  have hliterals : ((split layout.lineSeparator text).map (Line.parse filter)).map Line.literal =
      split layout.lineSeparator text := by
    rw [List.map_map, map_eq_self_iff]
    exact h.literal
  rw [render_eq_join, kept, List.filter_eq_self.mpr hkeeps, hliterals, hjoin]

/-- A text that is read and written comes back exactly when nothing of it is lost. -/
theorem render_eq_text_iff (hline : IsLineEnd layout.lineSeparator)
    (hout : IsLineEnd layout.outputSeparator) (hd : ofText layout filter text = .ok d) :
    d.render = text ↔ Faithful layout filter text :=
  ⟨faithful_of_render_eq hline hout hd, render_of_faithful hline hd⟩

end Document
end JournalScript
