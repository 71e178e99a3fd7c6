import JournalScript.Proofs.Path
import JournalScript.Proofs.Text.Case
import JournalScript.Proofs.Text.Mark

/-!
# JournalScript.Proofs.Path.Extension

Names as a stem and an extension.

A name is cut at its last dot, unless one of the two parts would be empty (`cutName_eq_cons_iff`). So a
path has an extension, in whatever letter case, exactly when its name is a stem with the extension
behind it (`lower_suffix_eq_iff`); and a compressed one has an extension in front of `.gz` exactly when
both stand behind a stem (`endsIn_compressed_iff`).
-/

namespace JournalScript
namespace Path

open Text

/-- A name that is a stem and an extension, this one in capital or small letters. -/
def EndsIn (ext name : Text) : Prop :=
  ∃ stem tail, stem ≠ [] ∧ name = stem ++ tail ∧ tail.map Char.toLower = ext

theorem cutName_eq_cons_iff {name stem ext : Text} {c : Char} :
    cutName name = (stem, c :: ext) ↔
      name = stem ++ ['.'] ++ ext ∧ c = '.' ∧ stem ≠ [] ∧ ext ≠ [] ∧ '.' ∉ ext := by
  rw [cutName]
  cases hsplit : splitLast? ['.'] name with
  | none =>
    have hno : '.' ∉ name := by
      rwa [splitLast?_eq_none_iff (by simp), List.singleton_infix_iff] at hsplit
    simp only [Prod.mk.injEq, reduceCtorEq, and_false, false_iff]
    rintro ⟨rfl, -⟩
    simp at hno
  | some cut =>
    obtain ⟨front, back⟩ := cut
    obtain ⟨rfl, hback⟩ := splitLast?_singleton_iff.mp hsplit
    dsimp only
    split
    · rename_i hempty
      simp only [Bool.or_eq_true, List.isEmpty_iff] at hempty
      simp only [Prod.mk.injEq, reduceCtorEq, and_false, false_iff]
      rintro ⟨hname, -, hstem, hext, hdot⟩
      have hsame := splitLast?_singleton_iff.mpr ⟨hname, hdot⟩
      rw [hsplit] at hsame
      cases hsame
      exact hempty.elim hstem hext
    · rename_i hempty
      simp only [Bool.or_eq_true, List.isEmpty_iff, not_or] at hempty
      constructor
      · intro h
        cases h
        exact ⟨rfl, rfl, hempty.1, hempty.2, hback⟩
      · rintro ⟨hname, rfl, -, -, hdot⟩
        have hsame := splitLast?_singleton_iff.mpr ⟨hname, hdot⟩
        rw [hsplit] at hsame
        cases hsame
        rfl

theorem stem_append_suffix (p : Path) : (cutName p.name).1 ++ p.suffix = p.name := by
  rw [suffix]
  rcases hcut : cutName p.name with ⟨stem, _ | ⟨c, ext⟩⟩
  · rw [cutName] at hcut
    split at hcut
    · split at hcut <;> cases hcut
      exact List.append_nil _
    · cases hcut
      exact List.append_nil _
  · obtain ⟨hname, rfl, -⟩ := cutName_eq_cons_iff.mp hcut
    rw [hname, List.append_assoc]
    rfl

theorem name_withoutSuffix (p : Path) : p.withoutSuffix.name = (cutName p.name).1 := by
  simp [withoutSuffix, name]

/-! ## Extensions in any letters -/

theorem toLower_eq_point_iff {c : Char} : c.toLower = '.' ↔ c = '.' := by
  rw [toLower_eq_iff (by decide), show Char.toUpper '.' = '.' by decide, or_self]

/-- A tail that is an extension in some letters starts at the last dot of the name. -/
theorem cutName_of_map_toLower {w stem tail : Text} (hne : w ≠ []) (hpoint : '.' ∉ w)
    (hstem : stem ≠ []) (htail : tail.map Char.toLower = '.' :: w) :
    cutName (stem ++ tail) = (stem, tail) := by
  obtain ⟨c, ext, rfl, hc, rfl⟩ := List.map_eq_cons_iff.mp htail
  obtain rfl := toLower_eq_point_iff.mp hc
  have hext : '.' ∉ ext := fun hmem => hpoint (List.mem_map.mpr ⟨'.', hmem, rfl⟩)
  exact cutName_eq_cons_iff.mpr ⟨by simp, rfl, hstem, by simpa using hne, hext⟩

section Letters

variable {w : Text} (hw : ∀ d ∈ '.' :: w, d ∈ extensionChars) (hne : w ≠ []) (hpoint : '.' ∉ w)
include hw hne hpoint

theorem lower_suffix_eq_iff {p : Path} : lower p.suffix = '.' :: w ↔ EndsIn ('.' :: w) p.name := by
  rw [lower_eq_iff hw]
  constructor
  · intro h
    refine ⟨_, p.suffix, ?_, (stem_append_suffix p).symm, h⟩
    rw [suffix] at h
    rcases hcut : cutName p.name with ⟨stem, _ | ⟨c, ext⟩⟩
    · rw [hcut] at h
      cases h
    · exact (cutName_eq_cons_iff.mp hcut).2.2.1
  · rintro ⟨stem, tail, hstem, hname, htail⟩
    rw [suffix, hname, cutName_of_map_toLower hne hpoint hstem htail, htail]

theorem endsIn_compressed_iff {p : Path} :
    EndsIn ('.' :: w ++ ['.', 'g', 'z']) p.name ↔
      p.isCompressed = true ∧ lower p.withoutSuffix.suffix = '.' :: w := by
  have hgz : p.isCompressed = true ↔ p.suffix.map Char.toLower = ['.', 'g', 'z'] := by
    rw [isCompressed, beq_iff_eq, lower_eq_iff (by simp [extensionChars])]
  rw [hgz, lower_suffix_eq_iff hw hne hpoint, name_withoutSuffix]
  constructor
  · rintro ⟨stem, tail, hstem, hname, htail⟩
    obtain ⟨inner, gz, rfl, hinner, hgz⟩ := List.map_eq_append_iff.mp htail
    have hcut : cutName p.name = (stem ++ inner, gz) := by
      rw [hname, ← List.append_assoc]
      exact cutName_of_map_toLower (by simp) (by simp) (by simp [hstem]) hgz
    rw [suffix, hcut]
    exact ⟨hgz, stem, inner, hstem, rfl, hinner⟩
  · rintro ⟨hgz, stem, inner, hstem, hfront, hinner⟩
    refine ⟨stem, inner ++ p.suffix, hstem, ?_, ?_⟩
    · rw [← List.append_assoc, ← hfront, stem_append_suffix]
    · rw [List.map_append, hinner, hgz]

end Letters

end Path
end JournalScript
