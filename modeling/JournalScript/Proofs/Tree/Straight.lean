import JournalScript.Proofs.Storage
import JournalScript.Proofs.Text.Case
import JournalScript.Proofs.Tree.Confine

/-!
# JournalScript.Proofs.Tree.Straight

Path texts that mean the same with and without confining.

Confining works on names, while opening a file walks the tree. For an absolute path without `..` and
without links the two agree (`Straight.confine_eq_ok_iff`, `Straight.locate_eq_ok_iff`), but for one
thing: confining reads two slashes in front as one, so a path with two slashes may be too long to be
opened and yet be confined to a path that is not. What is read from such a path, and what can be
written to it, is then the same as well.
-/

namespace JournalScript

/-- A path text that leads, below the base directory, where its names say, to a file that is not
compressed. -/
structure Surroundings.Straight (s : Surroundings) (t : Tree) (requested : Text) : Prop where
  absolute : (Path.ofText requested).isAbsolute = true
  no_up : ['.', '.'] ∉ (Path.ofText requested).parts
  linkless : ∀ front, front ≠ [] → front <+: (Path.ofText requested).parts →
    t.linkTarget? s.cwd ⟨.root, front⟩ = none
  short : (Path.ofText requested).anchor = .doubleRoot →
    Tree.byteCount (Path.ofText requested).toText < Tree.pathLimit
  below : ∃ base, s.baseDirectory t = .ok base ∧
    Path.isUnder ⟨.root, (Path.ofText requested).parts⟩ base = true
  plain : ¬ (Path.ofText requested).HasGzSuffix

namespace Path

theorem eq_root_of_isAbsolute {p : Path} (habs : p.isAbsolute = true) (h : p.anchor ≠ .doubleRoot) :
    p = ⟨.root, p.parts⟩ := by
  obtain ⟨anchor, parts⟩ := p
  cases anchor with
  | relative => cases habs
  | root => rfl
  | doubleRoot => exact absurd rfl h

/-- A home is looked for in relative paths only. -/
theorem expandHome_of_isAbsolute {p : Path} (habs : p.isAbsolute = true)
    (accounts : List (Text × Text)) (vs : Variables) : p.expandHome accounts vs = .ok p := by
  obtain ⟨anchor, parts⟩ := p
  cases anchor with
  | relative => cases habs
  | root => rfl
  | doubleRoot => rfl

end Path

namespace Tree

variable {t : Tree} {cwd : Location} {p : Path} {purpose : Purpose} {place : Place}

theorem byteCount_root_le (habs : p.isAbsolute = true) :
    byteCount (Path.toText ⟨.root, p.parts⟩) ≤ byteCount p.toText := by
  obtain ⟨anchor, parts⟩ := p
  cases anchor with
  | relative => cases habs
  | root => exact Nat.le_refl _
  | doubleRoot =>
    rw [Path.toText_eq (by simp), Path.toText_eq (by simp), byteCount_append, byteCount_append]
    exact Nat.add_le_add_right (by decide) _

/-- With one slash in front a path leads where it leads with two. -/
theorem locate_root (habs : p.isAbsolute = true) (h : t.locate cwd purpose p = .ok place) :
    t.locate cwd purpose ⟨.root, p.parts⟩ = .ok place := by
  obtain ⟨hshort, hleads⟩ := locate_eq_ok_iff.mp h
  rw [startOf, if_pos habs] at hleads
  exact locate_eq_ok_iff.mpr ⟨Nat.lt_of_le_of_lt (byteCount_root_le habs) hshort, hleads⟩

theorem resolve_root (habs : p.isAbsolute = true) :
    t.resolve cwd p = t.resolve cwd ⟨.root, p.parts⟩ := by
  obtain ⟨anchor, parts⟩ := p
  cases anchor with
  | relative => cases habs
  | root => rfl
  | doubleRoot => rfl

theorem no_null_of_traceWith {names : List Text} (hproper : ∀ name ∈ names, Path.IsProper name)
    (hlinkless : ∀ front, front ≠ [] → front <+: names → t.linkTarget? cwd ⟨.root, front⟩ = none)
    {onLink : Path → List Text → LinkTable → Except PathError Trail} {links : LinkTable}
    {trail : Trail} (rest : List Text) : ∀ front, front ++ rest = names →
      traceWith t cwd onLink ⟨.root, front⟩ rest links = .ok trail →
      ∀ name ∈ rest, '\x00' ∉ name := by
  induction rest with
  | nil => exact fun _ _ _ name hname => absurd hname List.not_mem_nil
  | cons name rest ih =>
    intro front hnames htrace
    have hname := hproper name (by simp [← hnames])
    have hlink : t.linkTarget? cwd ⟨.root, front ++ [name]⟩ = none :=
      hlinkless _ (by simp) (by simp [← hnames])
    rw [traceWith] at htrace
    simp only [hname.not_idle, Bool.false_eq_true, if_false, hname.not_up, List.contains_iff_mem,
      hlink] at htrace
    split at htrace
    · cases htrace
    · rename_i hnull
      exact List.forall_mem_cons.mpr ⟨hnull, ih _ (by simpa using hnames) htrace⟩

end Tree

namespace Surroundings.Straight

open JournalScript.Tree

variable {s : Surroundings} {t : Tree} {requested : Text} {purpose : Purpose} {place : Place}
  (h : s.Straight t requested)
include h

theorem isProper : ∀ name ∈ (Path.ofText requested).parts, Path.IsProper name :=
  fun name hname => ⟨(Path.isSpelled_ofText name hname).not_idle, fun hup => h.no_up (hup ▸ hname)⟩

theorem isCompressed : (Path.ofText requested).isCompressed = false := by
  rw [Bool.eq_false_iff]
  exact mt Path.isCompressed_iff.mp h.plain

theorem locate_eq_ok_iff : t.locate s.cwd purpose (Path.ofText requested) = .ok place ↔
    t.locate s.cwd purpose ⟨.root, (Path.ofText requested).parts⟩ = .ok place := by
  refine ⟨locate_root h.absolute, fun hplace => ?_⟩
  obtain ⟨hshort, hleads⟩ := Tree.locate_eq_ok_iff.mp hplace
  refine Tree.locate_eq_ok_iff.mpr ⟨?_, by rwa [startOf, if_pos h.absolute]⟩
  by_cases hdouble : (Path.ofText requested).anchor = .doubleRoot
  · exact h.short hdouble
  · rw [Path.eq_root_of_isAbsolute h.absolute hdouble]
    exact hshort

theorem unlinked (hnull : (Path.ofText requested).hasNull = false) :
    t.Unlinked s.cwd ⟨.root, (Path.ofText requested).parts⟩ where
  anchor := rfl
  proper := h.isProper
  no_null name hname := by
    rw [Path.hasNull, List.any_eq_false] at hnull
    simpa using hnull name hname
  linkless := h.linkless

theorem hasNull_of_resolve {q : Path}
    (hreal : t.resolve s.cwd ⟨.root, (Path.ofText requested).parts⟩ = .ok q) :
    (Path.ofText requested).hasNull = false := by
  obtain ⟨trail, htrace, -, -⟩ := resolve_eq_ok_iff.mp hreal
  have hnull : ∀ name ∈ (Path.ofText requested).parts, '\x00' ∉ name := by
    cases hdepth : t.traceDepth with
    | zero =>
      rw [hdepth] at htrace
      exact no_null_of_traceWith h.isProper h.linkless _ [] rfl htrace
    | succ depth =>
      rw [hdepth] at htrace
      exact no_null_of_traceWith h.isProper h.linkless _ [] rfl htrace
  rw [Path.hasNull, List.any_eq_false]
  exact fun name hname => by simpa using hnull name hname

/-- Confining changes nothing but the number of slashes in front, and refuses null characters
only. -/
theorem confine_eq_ok_iff {q : Path} : s.confine t requested = .ok q ↔
    (Path.ofText requested).hasNull = false ∧ q = ⟨.root, (Path.ofText requested).parts⟩ := by
  obtain ⟨base, hbase, hunder⟩ := h.below
  have hexpand := Path.expandHome_of_isAbsolute h.absolute s.accounts s.vars
  have happend : base.append (Path.ofText requested) = Path.ofText requested := if_pos h.absolute
  rw [Surroundings.confine_eq_ok_iff]
  constructor
  · rintro ⟨base', asked, hbase', hasked, hreal, -⟩
    obtain rfl := Except.ok.inj (hbase.symm.trans hbase')
    obtain rfl := Except.ok.inj (hexpand.symm.trans hasked)
    rw [happend, resolve_root h.absolute] at hreal
    have hnull := h.hasNull_of_resolve hreal
    exact ⟨hnull, Except.ok.inj (hreal.symm.trans (resolve_of_unlinked (h.unlinked hnull)))⟩
  · rintro ⟨hnull, rfl⟩
    refine ⟨base, _, hbase, hexpand, ?_, hunder⟩
    rw [happend, resolve_root h.absolute]
    exact resolve_of_unlinked (h.unlinked hnull)

/-! ## Files -/

theorem contentOf_eq_ok_iff {bs : Bytes} : t.contentOf s.cwd (Path.ofText requested) = .ok bs ↔
    t.contentOf s.cwd ⟨.root, (Path.ofText requested).parts⟩ = .ok bs := by
  rw [Storage.contentOf_eq_ok_iff, Storage.contentOf_eq_ok_iff]
  simp only [h.locate_eq_ok_iff, Path.hasNull]

theorem readPlain_eq_ok_iff {encoding text : Text} :
    Storage.readPlain t s.toHost (Path.ofText requested) encoding = .ok text ↔
      Storage.readJournal t s.toHost ⟨.root, (Path.ofText requested).parts⟩ encoding = .ok text := by
  have hplain : Path.isCompressed ⟨.root, (Path.ofText requested).parts⟩ = false := h.isCompressed
  rw [Storage.readJournal_of_not_compressed hplain, Storage.readPlain_eq_ok_iff,
    Storage.readPlain_eq_ok_iff]
  simp only [h.contentOf_eq_ok_iff]

end Surroundings.Straight
end JournalScript
