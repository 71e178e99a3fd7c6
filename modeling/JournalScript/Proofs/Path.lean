import JournalScript.Path
import JournalScript.Proofs.Text.Split

/-!
# JournalScript.Proofs.Path

Names of paths, and paths as text.

* `names_normal`: reading a path as text leaves proper names only, neither idle nor `..`; and
  `normal_eq_self`: a path from the root with proper names is left as it is.
* `ofText_toText`: a path whose names could stand in a path text is read back from its text.
-/

namespace JournalScript
namespace Path

/-- A name that leads to an entry of a directory. -/
structure IsProper (name : Text) : Prop where
  not_idle : isIdle name = false
  not_up : name ≠ ['.', '.']

theorem IsProper.ne_nil {name : Text} (h : IsProper name) : name ≠ [] := by
  rintro rfl
  cases h.not_idle

/-! ## Normal paths -/

theorem isProper_of_mem_foldl {names done : List Text} (h : ∀ name ∈ done, IsProper name) :
    ∀ name ∈ names.foldl normalStep done, IsProper name := by
  induction names generalizing done with
  | nil => exact h
  | cons name names ih =>
    rw [List.foldl_cons]
    refine ih ?_
    rw [normalStep]
    split
    · exact h
    split
    · exact fun x hx => h x (List.mem_of_mem_tail hx)
    · rename_i hidle hup
      intro x hx
      rcases List.mem_cons.mp hx with rfl | hx
      · exact ⟨by simpa using hidle, hup⟩
      · exact h x hx

theorem names_normal (cwd : List Text) (p : Path) :
    ∀ name ∈ (p.normal cwd).parts, IsProper name := by
  intro name hname
  rw [normal] at hname
  split at hname <;>
    exact isProper_of_mem_foldl (by simp) name (List.mem_reverse.mp hname)

theorem mem_of_mem_foldl_normalStep {name : Text} {names done : List Text}
    (h : name ∈ names.foldl normalStep done) : name ∈ names ∨ name ∈ done := by
  induction names generalizing done with
  | nil => exact .inr h
  | cons x names ih =>
    rw [List.foldl_cons] at h
    rcases ih h with h | h
    · exact .inl (List.mem_cons_of_mem _ h)
    · rw [normalStep] at h
      split at h
      · exact .inr h
      split at h
      · exact .inr (List.mem_of_mem_tail h)
      · rcases List.mem_cons.mp h with rfl | h
        · exact .inl List.mem_cons_self
        · exact .inr h

theorem mem_normal {cwd : List Text} {p : Path} {name : Text} (h : name ∈ (p.normal cwd).parts) :
    name ∈ p.parts ∨ name ∈ cwd := by
  rw [normal] at h
  split at h
  · rcases mem_of_mem_foldl_normalStep (List.mem_reverse.mp h) with h | h
    · exact (List.mem_append.mp h).symm
    · simp at h
  · rcases mem_of_mem_foldl_normalStep (List.mem_reverse.mp h) with h | h
    · exact .inl h
    · simp at h

theorem foldl_normalStep_proper {names : List Text} (h : ∀ name ∈ names, IsProper name) :
    ∀ done, names.foldl normalStep done = names.reverse ++ done := by
  induction names with
  | nil => intro done; rfl
  | cons name names ih =>
    intro done
    have hname := h name List.mem_cons_self
    have hstep : normalStep done name = name :: done := by
      simp [normalStep, hname.not_idle, hname.not_up]
    rw [List.foldl_cons, hstep, ih (fun x hx => h x (List.mem_cons_of_mem _ hx))]
    simp

theorem normal_eq_self {cwd : List Text} {p : Path} (ha : p.isAbsolute = true)
    (h : ∀ name ∈ p.parts, IsProper name) : p.normal cwd = p := by
  obtain ⟨anchor, parts⟩ := p
  cases anchor with
  | relative => cases ha
  | root => simp [normal, foldl_normalStep_proper h]
  | doubleRoot => simp [normal, foldl_normalStep_proper h]

theorem isAbsolute_normal (cwd : List Text) (p : Path) : (p.normal cwd).isAbsolute = true := by
  obtain ⟨anchor, parts⟩ := p
  cases anchor <;> rfl

/-! ## Paths as text -/

/-- A name as it can stand between the slashes of a path text. -/
structure IsSpelled (name : Text) : Prop where
  not_idle : isIdle name = false
  no_slash : '/' ∉ name

theorem no_slash_of_mem_names {name t : Text} (h : name ∈ names t) : '/' ∉ name :=
  Text.not_mem_of_mem_split t h

theorem no_slash_ofText (t : Text) : ∀ name ∈ (ofText t).parts, '/' ∉ name := by
  intro name h
  exact no_slash_of_mem_names (List.mem_filter.mp h).1

theorem names_join {parts : List Text} (hne : parts ≠ []) (h : ∀ name ∈ parts, IsSpelled name) :
    names (Text.join ['/'] parts) = parts :=
  Text.split_join hne fun name hname => (h name hname).no_slash

theorem filter_spelled {parts : List Text} (h : ∀ name ∈ parts, IsSpelled name) :
    (parts.filter fun n => !isIdle n) = parts := by
  rw [List.filter_eq_self]
  intro name hname
  simp [(h name hname).not_idle]

theorem head?_join_ne_slash {parts : List Text} (h : ∀ name ∈ parts, IsSpelled name) :
    (Text.join ['/'] parts).head? ≠ some '/' := by
  cases parts with
  | nil => simp
  | cons name parts =>
    have hname := h name List.mem_cons_self
    cases name with
    | nil => cases hname.not_idle
    | cons c name =>
      have hc : c ≠ '/' := fun hc => hname.no_slash (by simp [hc])
      rw [Text.join_cons_append]
      simpa using hc

theorem names_slash (t : Text) : names ('/' :: t) = [] :: names t :=
  Text.split_append (List.cons_ne_nil '/' []) t

/-- The names of a joined text, apart from idle ones, are those that were joined. -/
theorem filter_names_join {parts : List Text} (h : ∀ name ∈ parts, IsSpelled name) :
    ((names (Text.join ['/'] parts)).filter fun n => !isIdle n) = parts := by
  by_cases hne : parts = []
  · subst hne; rfl
  · rw [names_join hne h, filter_spelled h]

theorem anchorOf_anchorText {t : Text} (h : t.head? ≠ some '/') (anchor : Anchor) :
    anchorOf (anchorText anchor ++ t) = anchor := by
  cases t with
  | nil => cases anchor <;> rfl
  | cons c t =>
    have hc : c ≠ '/' := by simpa using h
    cases anchor <;> simp [anchorText, anchorOf, hc]

theorem filter_names_anchorText (anchor : Anchor) (t : Text) :
    ((names (anchorText anchor ++ t)).filter fun n => !isIdle n) =
      (names t).filter fun n => !isIdle n := by
  have hidle : isIdle [] = true := rfl
  cases anchor with
  | relative => rfl
  | root => simp [anchorText, names_slash, hidle]
  | doubleRoot => simp [anchorText, names_slash, hidle]

/-- Only the path of the working directory is not written as its names. -/
theorem toText_eq {anchor : Anchor} {parts : List Text} (h : ¬ (anchor = .relative ∧ parts = [])) :
    toText ⟨anchor, parts⟩ = anchorText anchor ++ Text.join ['/'] parts := by
  unfold toText
  split
  · rename_i ha hp
    exact absurd ⟨ha, hp⟩ h
  · rfl

theorem toText_prefix {anchor : Anchor} {parts : List Text} (h : ¬ (anchor = .relative ∧ parts = []))
    (rest : List Text) : toText ⟨anchor, parts⟩ <+: toText ⟨anchor, parts ++ rest⟩ := by
  have hall : ¬ (anchor = .relative ∧ parts ++ rest = []) := by
    rintro ⟨ha, hnil⟩
    exact h ⟨ha, (List.append_eq_nil_iff.mp hnil).1⟩
  rw [toText_eq h, toText_eq hall, List.prefix_append_right_inj]
  by_cases hparts : parts = []
  · subst hparts
    exact List.nil_prefix
  by_cases hrest : rest = []
  · subst hrest
    simp
  · rw [Text.join_append hparts hrest, List.append_assoc]
    exact List.prefix_append _ _

theorem ofText_toText {p : Path} (h : ∀ name ∈ p.parts, IsSpelled name) :
    ofText p.toText = p := by
  obtain ⟨anchor, parts⟩ := p
  by_cases hdot : anchor = .relative ∧ parts = []
  · obtain ⟨rfl, rfl⟩ := hdot
    rfl
  · rw [toText_eq hdot, ofText, anchorOf_anchorText (head?_join_ne_slash h),
      filter_names_anchorText, filter_names_join h]

theorem isSpelled_ofText {requested : Text} : ∀ name ∈ (ofText requested).parts, IsSpelled name := by
  intro name hname
  exact ⟨by simpa using (List.mem_filter.mp hname).2, no_slash_ofText requested name hname⟩

theorem toText_ne_nil {p : Path} (h : p.isAbsolute = true) : p.toText ≠ [] := by
  obtain ⟨anchor, parts⟩ := p
  cases anchor with
  | relative => cases h
  | root => simp [toText, anchorText]
  | doubleRoot => simp [toText, anchorText]

end Path
end JournalScript
