import JournalScript.Layout
import JournalScript.Proofs.Text.Separator

/-!
# JournalScript.Proofs.Layout

The separators that a layout can have.

Every name of a separator stands for one of three line ends (`Separator.IsName.isLineEnd`), so the
layout of a request has no others (`isRequested_of_choose`). Line ends are unbordered, and copies of
two of them have the same carriage returns and line feeds only if the line ends are the same
(`IsLineEnd.eq_of_count`).
-/

namespace JournalScript

inductive IsLineEnd : Text → Prop where
  | crlf : IsLineEnd ['\r', '\n']
  | lf : IsLineEnd ['\n']
  | cr : IsLineEnd ['\r']

namespace IsLineEnd

theorem ne_nil {sep : Text} (h : IsLineEnd sep) : sep ≠ [] := by
  cases h <;> simp

theorem unbordered {sep : Text} (h : IsLineEnd sep) : Text.Unbordered sep := by
  refine ⟨h.ne_nil, fun u hu hpre hsuf => ?_⟩
  have hle := hpre.length_le
  have hpos := List.length_pos_iff.mpr hu
  by_cases hlen : u.length = sep.length
  · exact hpre.eq_of_length hlen
  cases h with
  | crlf =>
    have hone : u.length = 1 := by
      simp only [List.length_cons, List.length_nil] at hle hlen
      omega
    obtain ⟨c, rfl⟩ := List.length_eq_one_iff.mp hone
    have hfirst : c = '\r' := by simpa using hpre
    have hlast : c = '\n' := by simpa using List.suffix_iff_eq_drop.mp hsuf
    rw [hfirst] at hlast
    cases hlast
  | lf =>
    simp only [List.length_cons, List.length_nil] at hle hlen
    omega
  | cr =>
    simp only [List.length_cons, List.length_nil] at hle hlen
    omega

/-- Some copies of one line end and some of another have the same characters only if the line ends
are the same, and as many. -/
theorem eq_of_count {sep sep' : Text} (h : IsLineEnd sep) (h' : IsLineEnd sep') {n m : Nat}
    (hn : n ≠ 0) (hcr : n * sep.count '\r' = m * sep'.count '\r')
    (hlf : n * sep.count '\n' = m * sep'.count '\n') : sep = sep' ∧ n = m := by
  cases h <;> cases h' <;> simp at hcr hlf <;> simp <;> omega

end IsLineEnd

/-! ## Names -/

namespace Separator

/-- The names of the separators. The line end of the system is a line feed. -/
inductive IsName : Text → Text → Prop where
  | crlf : IsName ['c', 'r', 'l', 'f'] ['\r', '\n']
  | lf : IsName ['l', 'f'] ['\n']
  | cr : IsName ['c', 'r'] ['\r']
  | os : IsName ['o', 's'] ['\n']

def Means (t sep : Text) : Prop := IsName (Text.lower (Text.strip t)) sep

theorem IsName.isLineEnd {name sep : Text} (h : IsName name sep) : IsLineEnd sep := by
  cases h with
  | crlf => exact .crlf
  | lf => exact .lf
  | cr => exact .cr
  | os => exact .lf

theorem lookup_table_iff {name sep : Text} : table.lookup name = some sep ↔ IsName name sep := by
  constructor
  · intro h
    obtain ⟨before, after, htable, -⟩ := List.lookup_eq_some_iff.mp h
    have hmem : (name, sep) ∈ table := by
      rw [htable]
      simp
    simp only [table, List.mem_cons, Prod.mk.injEq, List.not_mem_nil, or_false] at hmem
    rcases hmem with ⟨rfl, rfl⟩ | ⟨rfl, rfl⟩ | ⟨rfl, rfl⟩ | ⟨rfl, rfl⟩
    · exact .crlf
    · exact .lf
    · exact .cr
    · exact .os
  · intro h
    cases h <;> rfl

theorem ofName?_eq_some_iff {t sep : Text} : ofName? t = some sep ↔ Means t sep :=
  lookup_table_iff

end Separator

namespace Layout

theorem isLineEnd_of_ofName? {name sep : Text} (h : Separator.ofName? name = some sep) :
    IsLineEnd sep := (Separator.ofName?_eq_some_iff.mp h).isLineEnd

theorem isLineEnd_of_separatorFrom {vs : Variables} {name sep : Text}
    (h : separatorFrom vs name = .ok (some sep)) : IsLineEnd sep := by
  unfold separatorFrom at h
  split at h
  · cases h
  split at h
  · rename_i found hfound
    cases h
    exact isLineEnd_of_ofName? hfound
  · cases h

theorem isLineEnd_of_separatorOr {choice : Value} {otherwise sep : Text}
    (hdefault : IsLineEnd otherwise) (h : separatorOr choice otherwise = .ok sep) :
    IsLineEnd sep := by
  unfold separatorOr at h
  split at h
  · cases h
    exact hdefault
  · unfold separatorNamed at h
    split at h
    · rename_i found hfound
      cases h
      exact isLineEnd_of_ofName? hfound
    · cases h
  · cases h

/-- A layout that a request can have. -/
structure IsRequested (layout : Layout) : Prop where
  line : IsLineEnd layout.lineSeparator
  output : IsLineEnd layout.outputSeparator
  encoding : layout.encoding = "utf-8".toList

theorem isRequested_of_resolve {vs : Variables} {layout resolved : Layout}
    (hlayout : layout.IsRequested) (h : resolve vs layout = .ok resolved) :
    resolved.IsRequested := by
  have hsep : ∀ {name otherwise : Text} {found : Option Text}, IsLineEnd otherwise →
      separatorFrom vs name = .ok found → IsLineEnd (found.getD otherwise) := by
    intro name otherwise found hdefault hfound
    cases found with
    | none => exact hdefault
    | some sep => exact isLineEnd_of_separatorFrom hfound
  unfold resolve at h
  split at h
  · cases h
  rename_i hline
  split at h
  · cases h
  rename_i houtput
  split at h
  · cases h
  cases h
  exact ⟨hsep hlayout.line hline, hsep hlayout.output houtput, hlayout.encoding⟩

theorem isRequested_default : default.IsRequested := ⟨.crlf, .lf, rfl⟩

theorem choose_eq_ok_iff {vs : Variables} {c : Choices} {layout : Layout} :
    choose vs c = .ok layout ↔ ∃ base, resolve vs default = .ok base ∧
      separatorOr c.lineSeparator base.lineSeparator = .ok layout.lineSeparator ∧
      separatorOr c.outputSeparator base.outputSeparator = .ok layout.outputSeparator ∧
      layout.skipEmpty = switchOr c.skipEmpty base.skipEmpty ∧ layout.encoding = base.encoding := by
  obtain ⟨line, output, skip, encoding⟩ := layout
  unfold choose
  cases resolve vs default with
  | error e => simp
  | ok base =>
    cases hline : separatorOr c.lineSeparator base.lineSeparator with
    | error e => simp [hline]
    | ok line' =>
      cases houtput : separatorOr c.outputSeparator base.outputSeparator with
      | error e => simp [hline, houtput]
      | ok output' => simp [hline, houtput, eq_comm]

theorem isRequested_of_choose {vs : Variables} {c : Choices} {layout : Layout}
    (h : choose vs c = .ok layout) : layout.IsRequested := by
  obtain ⟨base, hbase, hline, houtput, -, hencoding⟩ := choose_eq_ok_iff.mp h
  have hrequested := isRequested_of_resolve isRequested_default hbase
  exact ⟨isLineEnd_of_separatorOr hrequested.line hline,
    isLineEnd_of_separatorOr hrequested.output houtput, hencoding.trans hrequested.encoding⟩

end Layout
end JournalScript
