import JournalScript.Proofs.Path
import JournalScript.Proofs.Tree.Walk

/-!
# JournalScript.Proofs.Tree.Directories

Making the directories above a file, and opening the file.

`Grown t made loc`: `made` is `t` with new directories down to `loc`, which is still empty.
`ensureNames_spec`: making directories leaves the tree as it is, or grows it down to the directory
that was asked for, or meets a name that is too long. In a grown tree nothing but such a name keeps
a file from being opened (`openForWriting_grown`), so no directory is made in vain.

* `locate_of_opened`: a path that was opened for writing leads to what is written.
* `ensureDirectory_of_locate`: above what is there already no directory has to be made.
-/

namespace JournalScript
namespace Tree

variable {t made : Tree} {cwd : Location} {p : Path}

/-- Every entry of the tree lies in a directory. -/
def WellFormed (t : Tree) : Prop :=
  ∀ (loc : Location) (name : Text), t.get? (loc ++ [name]) ≠ none → t.get? loc = some .directory

theorem wellFormed_of_entries
    (h : ∀ e ∈ t.entries, t.get? e.1.dropLast = some .directory) : t.WellFormed := by
  intro loc name hentry
  obtain ⟨node, hnode⟩ := Option.ne_none_iff_exists'.mp hentry
  rw [get?, if_neg (by simp)] at hnode
  obtain ⟨before, after, hentries, -⟩ := List.lookup_eq_some_iff.mp hnode
  have hmem : (loc ++ [name], node) ∈ t.entries := by
    rw [hentries]
    simp
  simpa using h _ hmem

theorem WellFormed.get?_below (h : t.WellFormed) {loc : Location} (hloc : t.get? loc = none)
    (rest : List Text) : t.get? (loc ++ rest) = none := by
  induction rest generalizing loc with
  | nil => simpa using hloc
  | cons name rest ih =>
    have hname : t.get? (loc ++ [name]) = none := by
      cases hc : t.get? (loc ++ [name]) with
      | none => rfl
      | some node =>
        have hdir := h loc name (by simp [hc])
        rw [hloc] at hdir
        cases hdir
    simpa using ih hname

/-! ## Growing -/

/-- The tree with new directories down to `loc`. -/
structure Grown (t made : Tree) (loc : Location) : Prop where
  vacant : t.get? loc = none
  directory : made.get? loc = some .directory
  empty : ∀ rest, rest ≠ [] → made.get? (loc ++ rest) = none
  frame : ∀ l, made.get? l = t.get? l ∨
    (t.get? l = none ∧ made.get? l = some .directory ∧ l <+: loc)

theorem ne_nil_of_vacant {loc : Location} (h : t.get? loc = none) : loc ≠ [] := by
  rintro rfl
  cases h

theorem Grown.first (hwf : t.WellFormed) {loc : Location} (h : t.get? loc = none) :
    Grown t (t.set loc .directory) loc where
  vacant := h
  directory := get?_set_self (ne_nil_of_vacant h)
  empty rest hrest := by rw [get?_set_of_ne (by simpa using hrest), hwf.get?_below h]
  frame l := by
    by_cases hl : l = loc
    · subst hl
      exact .inr ⟨h, get?_set_self (ne_nil_of_vacant h), List.prefix_refl _⟩
    · exact .inl (get?_set_of_ne hl)

theorem Grown.vacant_below {loc : Location} (h : Grown t made loc) (name : Text) :
    t.get? (loc ++ [name]) = none := by
  rcases h.frame (loc ++ [name]) with heq | ⟨hnone, -⟩
  · rw [← heq]; exact h.empty [name] (by simp)
  · exact hnone

theorem Grown.next {loc : Location} (h : Grown t made loc) (name : Text) :
    Grown t (made.set (loc ++ [name]) .directory) (loc ++ [name]) where
  vacant := h.vacant_below name
  directory := get?_set_self (by simp)
  empty rest hrest := by
    rw [get?_set_of_ne (by simpa using hrest), List.append_assoc]
    exact h.empty _ (by simp)
  frame l := by
    by_cases hl : l = loc ++ [name]
    · subst hl
      exact .inr ⟨h.vacant_below name, get?_set_self (by simp), List.prefix_refl _⟩
    · rw [get?_set_of_ne hl]
      rcases h.frame l with heq | ⟨hnone, hdir, hpre⟩
      · exact .inl heq
      · exact .inr ⟨hnone, hdir, hpre.trans (List.prefix_append _ _)⟩

/-- The tree with the new directories of a path, which leads to the last of them. -/
def GrownTo (t made : Tree) (cwd : Location) (p : Path) : Prop :=
  ∃ loc, Grown t made loc ∧ Leads made .look linkLimit (startOf cwd p) p.parts (.found loc .directory)

theorem locate_fresh {anchor : Anchor} {names : List Text} {name : Text} {loc : Location}
    (hleads : Leads t .look linkLimit (startOf cwd ⟨anchor, names⟩) names (.found loc .directory))
    (hempty : t.get? (loc ++ [name]) = none) (hname : Path.IsProper name) (purpose : Purpose) :
    t.locate cwd purpose ⟨anchor, names ++ [name]⟩ = .ok (.vacant (loc ++ [name])) ∨
      t.locate cwd purpose ⟨anchor, names ++ [name]⟩ = .error .nameTooLong := by
  rw [locate]
  split
  · exact .inr rfl
  have hdir : t.get? loc = some .directory := hleads.get?_location
  obtain ⟨more, hmore⟩ := hleads.walk_append ⟨name, List.mem_singleton_self _, hname.ne_nil⟩ purpose
  have hstart : (if Path.isAbsolute ⟨anchor, names ++ [name]⟩ then [] else cwd) =
      startOf cwd ⟨anchor, names⟩ := rfl
  obtain ⟨onLink, hw⟩ := walk_eq_walkWith t purpose more
  rw [hstart, hmore, hw]
  by_cases hlong : nameLimit < byteCount name
  · exact .inr (by simp [walkWith, hdir, hname.not_idle, hname.not_up, onlySlashes, hlong])
  · exact .inl (by simp [walkWith, hdir, hname.not_idle, hname.not_up, onlySlashes, hlong, hempty])

/-! ## One directory -/

theorem makeDirectory_eq_ok_iff :
    t.makeDirectory cwd p = .ok made ↔ p.hasNull = false ∧
      ∃ loc, t.locate cwd .lookAtLast p = .ok (.vacant loc) ∧ made = t.set loc .directory := by
  rw [makeDirectory]
  split
  · rename_i hnull
    simp [hnull]
  · rename_i hnull
    simp only [Bool.not_eq_true] at hnull
    cases t.locate cwd .lookAtLast p with
    | error kind => simp
    | ok place => cases place <;> simp [hnull, eq_comm]

theorem grownTo_of_makeDirectory (hwf : t.WellFormed) (h : t.makeDirectory cwd p = .ok made) :
    GrownTo t made cwd p := by
  obtain ⟨-, loc, hloc, rfl⟩ := makeDirectory_eq_ok_iff.mp h
  have hleads := (locate_eq_ok_iff.mp hloc).2
  have hvacant : t.get? loc = none := hleads.get?_location
  have hgrown := Grown.first hwf hvacant
  refine ⟨loc, hgrown, hleads.reach ?_ hgrown.directory (by simp) fun l hl => get?_set_of_ne hl⟩
  intro node hnode
  cases hnode

theorem makeIfAbsent_ok (h : t.makeIfAbsent cwd p = .ok made) :
    made = t ∨ t.makeDirectory cwd p = .ok made := by
  rw [makeIfAbsent] at h
  split at h
  · rename_i made' hmade
    cases h
    exact .inr hmade
  · cases h
  · cases h
  · split at h
    · cases h
    · cases h
      exact .inl rfl
    · cases h

theorem hasNull_of_missing {kind : AccessKind} {path : Text}
    (h : t.makeIfAbsent cwd p = .error (.failed kind path)) : p.hasNull = false := by
  cases hnull : p.hasNull with
  | false => rfl
  | true => simp [makeIfAbsent, makeDirectory, hnull] at h

theorem makeIfAbsent_grown {anchor : Anchor} {names : List Text} {name : Text}
    (h : GrownTo t made cwd ⟨anchor, names⟩) (hname : Path.IsProper name)
    (hnull : Path.hasNull ⟨anchor, names ++ [name]⟩ = false) :
    (∃ done, made.makeIfAbsent cwd ⟨anchor, names ++ [name]⟩ = .ok done ∧
        GrownTo t done cwd ⟨anchor, names ++ [name]⟩) ∨
      ∃ path, made.makeIfAbsent cwd ⟨anchor, names ++ [name]⟩ =
        .error (.failed .nameTooLong path) := by
  obtain ⟨loc, hgrown, hleads⟩ := h
  have hempty := hgrown.empty [name] (by simp)
  rcases locate_fresh hleads hempty hname .lookAtLast with hlast | hlast
  · refine .inl ⟨made.set (loc ++ [name]) .directory, ?_, loc ++ [name], hgrown.next name, ?_⟩
    · simp [makeIfAbsent, makeDirectory, hnull, hlast]
    · exact (locate_eq_ok_iff.mp hlast).2.reach (fun _ hnode => by cases hnode)
        (get?_set_self (by simp)) (by simp) fun l hl => get?_set_of_ne hl
  · refine .inr ⟨Path.toText ⟨anchor, names ++ [name]⟩, ?_⟩
    rcases locate_fresh hleads hempty hname .look with hlook | hlook
    · simp [makeIfAbsent, makeDirectory, isDirectory, lookAt, hnull, hlast, hlook]
    · simp [makeIfAbsent, makeDirectory, isDirectory, lookAt, hnull, hlast, hlook]

/-! ## All directories of a path -/

/-- By induction on the names: a directory is missing only if the one above it was, and then it is
made in a new one. -/
theorem ensureNames_spec (hwf : t.WellFormed) {anchor : Anchor} {names : List Text}
    (hproper : ∀ name ∈ names, Path.IsProper name) :
    ∀ {made : Tree} {r : Except AccessError Unit}, t.ensureNames cwd anchor names = (made, r) →
      made = t ∨ (r = .ok () ∧ GrownTo t made cwd ⟨anchor, names.reverse⟩) ∨
        ∃ path, r = .error (.failed .nameTooLong path) := by
  induction names with
  | nil =>
    intro made r h
    rw [ensureNames] at h
    split at h
    · rename_i made' hmade
      cases h
      rcases makeIfAbsent_ok hmade with rfl | hnew
      · exact .inl rfl
      · exact .inr (.inl ⟨rfl, grownTo_of_makeDirectory hwf hnew⟩)
    · cases h
      exact .inl rfl
  | cons name above ih =>
    intro made r h
    have habove := fun x hx => hproper x (List.mem_cons_of_mem _ hx)
    rw [ensureNames] at h
    split at h
    · rename_i made' hmade
      cases h
      rcases makeIfAbsent_ok hmade with rfl | hnew
      · exact .inl rfl
      · exact .inr (.inl ⟨rfl, grownTo_of_makeDirectory hwf hnew⟩)
    · rename_i path hmissing
      have hnull := hasNull_of_missing hmissing
      split at h
      · rename_i made' e hfailed
        cases h
        rcases ih habove hfailed with rfl | ⟨hok, -⟩ | hlong
        · exact .inl rfl
        · cases hok
        · exact .inr (.inr hlong)
      · rename_i made' hensured
        rcases ih habove hensured with rfl | ⟨-, hgrown⟩ | ⟨path, hlong⟩
        · rw [hmissing] at h
          cases h
          exact .inl rfl
        · rw [List.reverse_cons] at h hnull ⊢
          rcases makeIfAbsent_grown hgrown (hproper name List.mem_cons_self) hnull with
            ⟨done, hdone, hgrown'⟩ | ⟨path, hlong⟩
          · rw [hdone] at h
            cases h
            exact .inr (.inl ⟨rfl, hgrown'⟩)
          · rw [hlong] at h
            cases h
            exact .inr (.inr ⟨path, rfl⟩)
        · cases hlong
    · rename_i e hmissing
      cases h
      exact .inl rfl

theorem ensureDirectory_spec (hwf : t.WellFormed) (hproper : ∀ name ∈ p.parts, Path.IsProper name)
    {r : Except AccessError Unit} (h : t.ensureDirectory cwd p = (made, r)) :
    made = t ∨ (r = .ok () ∧ GrownTo t made cwd p) ∨
      ∃ path, r = .error (.failed .nameTooLong path) := by
  have := ensureNames_spec hwf (by simpa using hproper) h
  rwa [List.reverse_reverse] at this

/-! ## Opening a file -/

theorem place_of_openForWriting {opened : Tree} {loc : Location}
    (h : t.openForWriting cwd p = .ok (opened, loc)) : opened = t.set loc (.file []) ∧
      ∃ place, t.locate cwd .write p = .ok place ∧ place.location = loc ∧ place.Writable := by
  rw [openForWriting] at h
  split at h
  · cases h
  split at h
  · cases h
  · rename_i l hlocate
    cases h
    exact ⟨rfl, _, hlocate, rfl, fun _ hnode => by cases hnode⟩
  · rename_i l content hlocate
    cases h
    exact ⟨rfl, _, hlocate, rfl, fun _ hnode => by cases hnode; exact ⟨content, rfl⟩⟩
  · cases h

theorem openForWriting_of_locate {place : Place} (hnull : p.hasNull = false)
    (hlocate : t.locate cwd .write p = .ok place) (hplace : place.Writable) :
    t.openForWriting cwd p = .ok (t.set place.location (.file []), place.location) := by
  cases place with
  | vacant l => simp [openForWriting, hnull, hlocate, Place.location]
  | found l node =>
    obtain ⟨content, rfl⟩ := hplace node rfl
    simp [openForWriting, hnull, hlocate, Place.location]

theorem hasNull_of_openForWriting {opened : Tree × Location}
    (h : t.openForWriting cwd p = .ok opened) : p.hasNull = false := by
  cases hnull : p.hasNull with
  | false => rfl
  | true => simp [openForWriting, hnull] at h

theorem failed_of_openForWriting {e : AccessError} (hnull : p.hasNull = false)
    (h : t.openForWriting cwd p = .error e) : ∃ kind path, e = .failed kind path := by
  rw [openForWriting, hnull] at h
  simp only [Bool.false_eq_true, if_false] at h
  split at h <;> cases h
  · exact ⟨_, _, rfl⟩
  · exact ⟨_, _, rfl⟩

theorem locate_of_opened {opened written : Tree} {loc : Location} {content : Bytes}
    (h : t.openForWriting cwd p = .ok (opened, loc))
    (hput : written.get? loc = some (.file content))
    (hframe : ∀ l, l ≠ loc → written.get? l = t.get? l) :
    written.locate cwd .look p = .ok (.found loc (.file content)) := by
  obtain ⟨-, place, hlocate, rfl, hplace⟩ := place_of_openForWriting h
  obtain ⟨hshort, hleads⟩ := locate_eq_ok_iff.mp hlocate
  exact locate_eq_ok_iff.mpr ⟨hshort, hleads.reach hplace hput (by simp) hframe⟩

theorem openForWriting_grown {anchor : Anchor} {names : List Text} {name : Text}
    (h : GrownTo t made cwd ⟨anchor, names⟩) (hname : Path.IsProper name)
    (hnull : Path.hasNull ⟨anchor, names ++ [name]⟩ = false) :
    (∃ opened loc, Grown t made loc ∧ made.openForWriting cwd ⟨anchor, names ++ [name]⟩ =
        .ok (opened, loc ++ [name])) ∨
      ∃ path, made.openForWriting cwd ⟨anchor, names ++ [name]⟩ =
        .error (.failed .nameTooLong path) := by
  obtain ⟨loc, hgrown, hleads⟩ := h
  rcases locate_fresh hleads (hgrown.empty [name] (by simp)) hname .write with hwrite | hwrite
  · exact .inl ⟨_, loc, hgrown,
      openForWriting_of_locate hnull hwrite fun _ hnode => by cases hnode⟩
  · exact .inr ⟨_, by simp [openForWriting, hnull, hwrite]; rfl⟩

/-! ## What is there already -/

theorem locate_parent {anchor : Anchor} {names : List Text} {name : Text} {purpose : Purpose}
    {place : Place} (h : t.locate cwd purpose ⟨anchor, names ++ [name]⟩ = .ok place) :
    ∃ l, t.locate cwd .look ⟨anchor, names⟩ = .ok (.found l .directory) := by
  obtain ⟨hshort, hleads⟩ := locate_eq_ok_iff.mp h
  obtain ⟨l, hl⟩ := hleads.exists_directory (by simp)
  refine ⟨l, locate_eq_ok_iff.mpr ⟨?_, hl⟩⟩
  by_cases hdot : anchor = .relative ∧ names = []
  · obtain ⟨rfl, rfl⟩ := hdot
    decide
  · have hle := byteCount_le_of_prefix (Path.toText_prefix hdot [name])
    omega

theorem makeIfAbsent_of_directory {l : Location} (hnull : p.hasNull = false)
    (h : t.locate cwd .look p = .ok (.found l .directory)) : t.makeIfAbsent cwd p = .ok t := by
  obtain ⟨hshort, hleads⟩ := locate_eq_ok_iff.mp h
  obtain ⟨l', node', hlast⟩ := hleads.exists_lookAtLast
  have hlast' := locate_eq_ok_iff.mpr ⟨hshort, hlast⟩
  simp [makeIfAbsent, makeDirectory, isDirectory, lookAt, hnull, hlast', h]

def Holds (t : Tree) (cwd : Location) (p : Path) (content : Bytes) : Prop :=
  ∃ l, t.locate cwd .look p = .ok (.found l (.file content))

theorem isFile_eq_true_iff : t.isFile cwd p = .ok true ↔
    p.hasNull = false ∧ ∃ content, t.Holds cwd p content := by
  rw [isFile, lookAt]
  cases hnull : p.hasNull with
  | true => simp
  | false =>
    simp only [Holds]
    cases t.locate cwd .look p with
    | error kind => cases kind <;> simp
    | ok place =>
      cases place with
      | vacant l => simp
      | found l node => cases node <;> simp

/-- Only a name that is too long keeps the question from being answered. -/
theorem isFile_eq_error_iff {e : AccessError} : t.isFile cwd p = .error e ↔
    p.hasNull = false ∧ t.locate cwd .look p = .error .nameTooLong ∧
      e = .failed .nameTooLong p.toText := by
  rw [isFile, lookAt]
  cases hnull : p.hasNull with
  | true => simp
  | false =>
    cases t.locate cwd .look p with
    | error kind => cases kind <;> simp [eq_comm]
    | ok place =>
      cases place with
      | vacant l => simp
      | found l node => cases node <;> simp

theorem isFile_eq_false_iff (hnull : p.hasNull = false) : t.isFile cwd p = .ok false ↔
    t.locate cwd .look p ≠ .error .nameTooLong ∧ ∀ content, ¬ t.Holds cwd p content := by
  simp only [isFile, lookAt, hnull, Bool.false_eq_true, if_false, Holds]
  cases t.locate cwd .look p with
  | error kind => cases kind <;> simp
  | ok place =>
    cases place with
    | vacant l => simp
    | found l node => cases node <;> simp

theorem ensureDirectory_of_directory {l : Location} (hnull : p.hasNull = false)
    (h : t.locate cwd .look p = .ok (.found l .directory)) :
    t.ensureDirectory cwd p = (t, .ok ()) := by
  obtain ⟨anchor, names⟩ := p
  have hmake := makeIfAbsent_of_directory hnull h
  rw [ensureDirectory]
  dsimp only
  cases hnames : names.reverse with
  | nil =>
    have hnil : names = [] := by simpa using hnames
    subst hnil
    rw [ensureNames, hmake]
  | cons last above =>
    have hrev : (last :: above).reverse = names := by rw [← hnames, List.reverse_reverse]
    rw [ensureNames, hrev, hmake]

theorem ensureDirectory_of_locate {anchor : Anchor} {names : List Text} {name : Text}
    {purpose : Purpose} {place : Place} (hnull : Path.hasNull ⟨anchor, names ++ [name]⟩ = false)
    (h : t.locate cwd purpose ⟨anchor, names ++ [name]⟩ = .ok place) :
    t.ensureDirectory cwd ⟨anchor, names⟩ = (t, .ok ()) := by
  have hparent : Path.hasNull ⟨anchor, names⟩ = false := by
    simp only [Path.hasNull, List.any_append, Bool.or_eq_false_iff] at hnull ⊢
    exact hnull.1
  obtain ⟨l, hl⟩ := locate_parent h
  exact ensureDirectory_of_directory hparent hl

theorem parts_ne_nil_of_writable {place : Place} (hstart : t.get? (startOf cwd p) = some .directory)
    (hlocate : t.locate cwd .write p = .ok place) (hplace : place.Writable) : p.parts ≠ [] := by
  intro hnil
  have hleads := (locate_eq_ok_iff.mp hlocate).2
  rw [hnil] at hleads
  cases hleads with
  | here hnode =>
    obtain ⟨content, rfl⟩ := hplace _ rfl
    cases hstart.symm.trans hnode

theorem ensureDirectory_of_writable {place : Place}
    (hstart : t.get? (startOf cwd p) = some .directory) (hnull : p.hasNull = false)
    (hlocate : t.locate cwd .write p = .ok place) (hplace : place.Writable) :
    t.ensureDirectory cwd p.parent = (t, .ok ()) := by
  have hne := parts_ne_nil_of_writable hstart hlocate hplace
  obtain ⟨anchor, parts⟩ := p
  obtain ⟨names, name, rfl⟩ := (List.eq_nil_or_concat parts).resolve_left hne
  rw [List.concat_eq_append] at hlocate hnull
  simpa [Path.parent] using ensureDirectory_of_locate hnull hlocate

end Tree
end JournalScript
