import JournalScript.Path
import JournalScript.Text.Case

/-!
# JournalScript.Proofs.Text.Case

Which names have an extension, in capital or small letters.

No character beyond ASCII has a character of the extensions in its lower-case form, which the table
of mappings shows run by run (`lowerRuns_apart`). So the lower-case form of a text is an extension
exactly when its ASCII lower-case form is (`lower_eq_iff`). The extension of compressed files has the
four spellings in ASCII letters and no other: `isCompressed_iff`.
-/

namespace JournalScript
namespace Text

/-- The characters of the extensions of journals, compressed ones included. -/
def extensionChars : Text := ['.', 'g', 'j', 'l', 'n', 'o', 'r', 't', 'x', 'z']

def suffixChars : Text := ['.', 'g', 'z']

/-- What a run maps to lies beyond the extensions' characters, or between their letters. -/
theorem lowerRuns_apart : ∀ r ∈ lowerRuns, ∀ code ∈ extensionChars.map Char.toNat,
    (code : Int) < r.first + r.offset ∨ r.last + r.offset < (code : Int) := by
  decide +kernel

theorem extensionChars_ascii : ∀ d ∈ extensionChars, 0 < d.toNat ∧ d.toNat < 128 := by
  simp [extensionChars]

theorem toNat_ofNat (n : Nat) : (Char.ofNat n).toNat = n ∨ (Char.ofNat n).toNat = 0 := by
  rw [Char.ofNat]
  by_cases h : n.isValidChar
  · rw [dif_pos h]
    exact .inl rfl
  · rw [dif_neg h]
    exact .inr rfl

theorem lowerRun_ne {r : LowerRun} {c d : Char} (hr : r ∈ lowerRuns) (hc : r.covers c = true)
    (hd : d ∈ extensionChars) : Char.ofNat (c.toNat + r.offset).toNat ≠ d := by
  intro heq
  have hpositive := (extensionChars_ascii d hd).1
  simp only [LowerRun.covers, Bool.and_eq_true, decide_eq_true_eq] at hc
  have hapart := lowerRuns_apart r hr d.toNat (List.mem_map_of_mem hd)
  have hnat := toNat_ofNat (c.toNat + r.offset).toNat
  rw [heq] at hnat
  omega

theorem toNat_toLower (c : Char) :
    c.toLower.toNat = if 65 ≤ c.toNat ∧ c.toNat ≤ 90 then c.toNat + 32 else c.toNat := by
  have hcapital : c.val ≥ 'A'.val ∧ c.val ≤ 'Z'.val ↔ 65 ≤ c.toNat ∧ c.toNat ≤ 90 :=
    and_congr UInt32.le_iff_toNat_le UInt32.le_iff_toNat_le
  unfold Char.toLower
  by_cases h : c.val ≥ 'A'.val ∧ c.val ≤ 'Z'.val
  · have hle := (hcapital.mp h).2
    rw [dif_pos h, if_pos (hcapital.mp h)]
    show (c.val + ('a'.val - 'A'.val)).toNat = c.toNat + 32
    rw [UInt32.toNat_add]
    exact Nat.mod_eq_of_lt (Nat.lt_of_le_of_lt (Nat.add_le_add_right hle 32) (by decide))
  · rw [dif_neg h, if_neg (mt hcapital.mpr h)]

theorem toLower_eq_iff {c d : Char} (hd : d ∈ suffixChars) :
    c.toLower = d ↔ c = d ∨ c = d.toUpper := by
  simp only [suffixChars, List.mem_cons, List.not_mem_nil, or_false] at hd
  rw [← Char.toNat_inj, ← Char.toNat_inj, ← Char.toNat_inj, toNat_toLower]
  rcases hd with rfl | rfl | rfl
  · rw [show Char.toNat '.' = 46 by rfl, show ('.'.toUpper).toNat = 46 by rfl]
    split <;> omega
  · rw [show Char.toNat 'g' = 103 by rfl, show ('g'.toUpper).toNat = 71 by rfl]
    split <;> omega
  · rw [show Char.toNat 'z' = 122 by rfl, show ('z'.toUpper).toNat = 90 by rfl]
    split <;> omega

theorem toLower_of_not_ascii {c : Char} (h : ¬ c.toNat < 128) : c.toLower = c := by
  rw [← Char.toNat_inj, toNat_toLower, if_neg (by omega)]

/-- Only an ASCII character has a character of the extensions in its lower-case form. -/
theorem lowerChar_eq_cons_iff {c d : Char} {rest : Text} (hd : d ∈ extensionChars) :
    lowerChar c = d :: rest ↔ rest = [] ∧ c.toLower = d := by
  by_cases hc : c.toNat < 128
  · rw [lowerChar, if_pos hc, List.cons.injEq, and_comm, eq_comm (a := [])]
  rw [toLower_of_not_ascii hc]
  have hne : c ≠ d := by
    rintro rfl
    exact hc (extensionChars_ascii c hd).2
  refine iff_of_false (fun h => ?_) fun h => hne h.2
  rw [lowerChar, if_neg hc] at h
  split at h
  · cases h
    revert hd
    decide
  split at h
  · rename_i r hfind
    have hcovers : r.covers c = true := by simpa using List.find?_some hfind
    exact lowerRun_ne (List.mem_of_find?_eq_some hfind) hcovers hd (List.cons.inj h).1
  · exact hne (List.cons.inj h).1

theorem lowerSigma_ne {before after : Text} {d : Char} (hd : d ∈ extensionChars) :
    lowerSigma before after ≠ d := by
  intro h
  rw [lowerSigma] at h
  split at h
  · rw [← h] at hd
    revert hd
    decide
  · rw [← h] at hd
    revert hd
    decide

theorem lowerFrom_cons (before after : Text) (c : Char) :
    ∃ d form, lowerFrom before (c :: after) = d :: form ++ lowerFrom (c :: before) after ∧
      (d ∈ extensionChars → (d :: form) = lowerChar c) := by
  rw [lowerFrom]
  split
  · exact ⟨_, [], rfl, fun hd => absurd rfl (lowerSigma_ne hd)⟩
  · obtain ⟨d, form, hform⟩ : ∃ d form, lowerChar c = d :: form := by
      unfold lowerChar
      split
      · exact ⟨_, _, rfl⟩
      split
      · exact ⟨_, _, rfl⟩
      split <;> exact ⟨_, _, rfl⟩
    exact ⟨d, form, by rw [hform], fun _ => hform.symm⟩

theorem lowerFrom_eq_nil_iff {before t : Text} : lowerFrom before t = [] ↔ t = [] := by
  cases t with
  | nil => exact iff_of_true rfl rfl
  | cons c after =>
    obtain ⟨d, form, hform, -⟩ := lowerFrom_cons before after c
    simp [hform]

theorem lowerFrom_eq_cons_iff {before t rest : Text} {d : Char} (hd : d ∈ extensionChars) :
    lowerFrom before t = d :: rest ↔
      ∃ c after, t = c :: after ∧ c.toLower = d ∧ lowerFrom (c :: before) after = rest := by
  constructor
  · intro h
    cases t with
    | nil => cases h
    | cons c after =>
      obtain ⟨d', form, hform, hchar⟩ := lowerFrom_cons before after c
      rw [hform, List.cons_append] at h
      obtain ⟨rfl, hrest⟩ := List.cons.inj h
      obtain ⟨rfl, hletter⟩ := (lowerChar_eq_cons_iff hd).mp (hchar hd).symm
      exact ⟨c, after, rfl, hletter, hrest⟩
  · rintro ⟨c, after, rfl, hletter, rfl⟩
    have hchar : lowerChar c = [d] := (lowerChar_eq_cons_iff hd).mpr ⟨rfl, hletter⟩
    have hsigma : c ≠ 'Σ' := by
      rintro rfl
      revert hd
      rw [← hletter]
      decide
    rw [lowerFrom, if_neg hsigma, hchar]
    rfl

theorem lowerFrom_eq_iff {w : Text} (hw : ∀ d ∈ w, d ∈ extensionChars) :
    ∀ before t : Text, lowerFrom before t = w ↔ t.map Char.toLower = w := by
  induction w with
  | nil =>
    intro before t
    rw [lowerFrom_eq_nil_iff, List.map_eq_nil_iff]
  | cons d w ih =>
    intro before t
    have hrest := ih fun d hd => hw d (List.mem_cons_of_mem _ hd)
    simp only [lowerFrom_eq_cons_iff (hw d List.mem_cons_self), hrest, List.map_eq_cons_iff]

/-- The lower-case form of a text is an extension exactly when its letters, taken one by one as
small ASCII letters, are those of the extension. -/
theorem lower_eq_iff {w t : Text} (hw : ∀ d ∈ w, d ∈ extensionChars) :
    lower t = w ↔ t.map Char.toLower = w := lowerFrom_eq_iff hw [] t

theorem lower_eq_suffix_iff {t : Text} : lower t = ['.', 'g', 'z'] ↔
    ∃ g z, t = ['.', g, z] ∧ (g = 'g' ∨ g = 'G') ∧ (z = 'z' ∨ z = 'Z') := by
  have hdot : ∀ c : Char, c = '.' ∨ c = Char.toUpper '.' ↔ c = '.' := by
    simp [show Char.toUpper '.' = '.' by decide]
  rw [lower_eq_iff (by simp [extensionChars])]
  simp only [List.map_eq_cons_iff, List.map_eq_nil_iff, toLower_eq_iff (d := '.') (by decide),
    toLower_eq_iff (d := 'g') (by decide), toLower_eq_iff (d := 'z') (by decide), hdot,
    show Char.toUpper 'g' = 'G' by decide, show Char.toUpper 'z' = 'Z' by decide]
  constructor
  · rintro ⟨c, after, rfl, rfl, g, after, rfl, hg, z, after, rfl, hz, rfl⟩
    exact ⟨g, z, rfl, hg, hz⟩
  · rintro ⟨g, z, rfl, hg, hz⟩
    exact ⟨'.', _, rfl, rfl, g, _, rfl, hg, z, _, rfl, hz, rfl⟩

end Text

namespace Path

/-- Whether the extension is that of compressed files, in capital or small letters. -/
def HasGzSuffix (p : Path) : Prop :=
  ∃ g z, p.suffix = ['.', g, z] ∧ (g = 'g' ∨ g = 'G') ∧ (z = 'z' ∨ z = 'Z')

theorem isCompressed_iff {p : Path} : p.isCompressed = true ↔ p.HasGzSuffix := by
  rw [isCompressed, beq_iff_eq, Text.lower_eq_suffix_iff, HasGzSuffix]

end Path
end JournalScript
