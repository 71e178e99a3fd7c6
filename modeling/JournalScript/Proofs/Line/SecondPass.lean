import JournalScript.Proofs.Line.Grammar
import JournalScript.Proofs.Line.ParameterList

/-!
# JournalScript.Proofs.Line.SecondPass

Printing a line that was read and reading it again.

`parse_literal_of_call`: the second reading finds the same call, its parameters tightened once more.
A quoted string with two spaces behind a comma loses one of them in each pass, so reading is not
idempotent (`parse_literal_parse_ne`); `parse_literal_parse_iff` says on which lines it is.
-/

namespace JournalScript

open Text Segment

namespace Parameter

theorem no_feed_join_literal {ps : List Parameter} (hlead : ∀ p ∈ ps, '\n' ∉ p.lead)
    (hbody : ∀ p ∈ ps, '\n' ∉ p.body) : '\n' ∉ join [','] (ps.map literal) := by
  intro hmem
  rcases mem_join hmem with hc | ⟨t, ht, hc⟩
  · simp at hc
  · obtain ⟨p, hp, rfl⟩ := List.mem_map.mp ht
    rcases List.mem_append.mp hc with hc | hc
    · exact hlead p hp hc
    · exact hbody p hp hc

theorem no_feed_printed {t : Text} (h : '\n' ∉ t) :
    '\n' ∉ join [','] ((parseList t).map literal) := by
  obtain ⟨gs, hparted, rfl⟩ := exists_parted t
  by_cases hnil : source gs.flatten = []
  · simp [hnil, parseList]
  · have hfeed := no_feed_groupText h
    rw [parseList_source hparted hnil]
    refine no_feed_join_literal (fun p hp => ?_) fun p hp => ?_
    · obtain ⟨g, hg, rfl⟩ := List.mem_map.mp hp
      rw [ofGroup, ofLiteral_lead _ (hfeed g hg)]
      exact no_feed_groupLead h g hg
    · obtain ⟨g, hg, rfl⟩ := List.mem_map.mp hp
      rw [ofGroup, ofLiteral_body _ (hfeed g hg)]
      exact hfeed g hg

end Parameter

namespace Call

def tighten (c : Call) : Call := { c with parameters := c.parameters.map Parameter.tighten }

end Call

namespace Spelling

/-- The spelling with the parameters as they are printed. -/
def printed (p : Spelling) : Spelling :=
  { p with parameters := join [','] ((Parameter.parseList p.parameters).map Parameter.literal) }

theorem literal_call {p : Spelling} (h : ∀ s, p.stamp = some s → s ≠ []) :
    p.call.literal = p.printed.text := by
  have hhead : Call.head (p.stamp.getD []) = p.head := by
    cases hs : p.stamp with
    | none => simp [Call.head, head, hs]
    | some s => simp [Call.head, head, hs, h s hs]
  have hhead' : p.printed.head = p.head := rfl
  rw [text, hhead', ← hhead]
  simp [Call.literal, Call.literalWith, call, body, printed]

theorem Spells.literal_call {p : Spelling} {f : NameFilter} {line : Text} (h : p.Spells f line) :
    p.call.literal = p.printed.text :=
  Spelling.literal_call fun s hs => (h.stamp_fits s hs).1.ne_nil

theorem Spells.printed {p : Spelling} {f : NameFilter} {line : Text} (h : p.Spells f line) :
    p.printed.Spells f p.printed.text where
  text_eq := rfl
  no_feed := by
    have hbody : '\n' ∉ p.printed.body :=
      (no_feed_body_iff (p := p.printed) h.module_name h.action_name).mpr
        ⟨Parameter.no_feed_printed h.no_feed_parameters, h.no_feed_suffix⟩
    have hhead : '\n' ∉ p.head := fun hc =>
      h.no_feed (by rw [h.text_eq]; exact List.mem_append_left _ hc)
    rw [text, List.mem_append, not_or]
    exact ⟨hhead, hbody⟩
  module_name := h.module_name
  action_name := h.action_name
  suffix_open := h.suffix_open
  module_admitted := h.module_admitted
  action_admitted := h.action_admitted
  stamp_fits := by
    intro s hs
    obtain ⟨hfits, hlast⟩ := h.stamp_fits s hs
    refine ⟨hfits, ?_⟩
    rw [h.text_eq, text_ends_iff] at hlast
    exact text_ends_iff.mpr hlast

theorem call_printed {p : Spelling} (h : '\n' ∉ p.parameters) :
    p.printed.call = p.call.tighten := by
  simp only [call, Call.tighten, printed, Parameter.parseList_printed h]

end Spelling

namespace Line

/-- The second reading finds the same call with its parameters tightened. -/
theorem parse_literal_of_call {f : NameFilter} {line : Text} {c : Call}
    (h : parse f line = .call c) : parse f c.literal = .call c.tighten := by
  obtain ⟨p, hp, rfl⟩ := exists_spells h
  rw [hp.literal_call, parse_of_spells hp.printed, Spelling.call_printed hp.no_feed_parameters]

theorem tighten_call_eq_self_iff {c : Call} :
    c.tighten = c ↔ ∀ q ∈ c.parameters, ¬ [',', ' '] <:+: q.body := by
  obtain ⟨stamp, module, action, parameters, suffix⟩ := c
  simp only [Call.tighten, Call.mk.injEq, true_and, and_true, map_eq_self_iff,
    Parameter.tighten_eq_self_iff]

/-- Reading the printed line again changes nothing exactly when no parameter of the line holds a
comma that is followed by a space. -/
theorem parse_literal_parse_iff (f : NameFilter) (line : Text) :
    parse f (parse f line).literal = parse f line ↔
      ∀ c, parse f line = .call c → ∀ q ∈ c.parameters, ¬ [',', ' '] <:+: q.body := by
  cases h : parse f line with
  | raw content =>
    have hraw := parse_raw h
    subst hraw
    simp [literal, h]
  | call c =>
    rw [literal, parse_literal_of_call h]
    simp [tighten_call_eq_self_iff]

/-- A quoted string with two spaces behind a comma is read differently the second time. -/
theorem parse_literal_parse_ne :
    parse .unrestricted (parse .unrestricted "JrnCmd.A(\"a,  b\")".toList).literal ≠
      parse .unrestricted "JrnCmd.A(\"a,  b\")".toList := by
  decide

end Line
end JournalScript
