import JournalScript.Proofs.Path.Extension
import JournalScript.Proofs.Storage
import JournalScript.Proofs.Tree.Confine
import JournalScript.Resource

/-!
# JournalScript.Proofs.Resource

Which files are served as resources, and how they are read.

The gate looks at the extension, and for a compressed file at the one in front of `.gz`; the reader
looks at the last extension alone. Both agree for every name: a name that passes is either plain or
packed (`isAllowed_iff`), and the reader unpacks the packed ones and no others
(`isCompressed_iff_packed`). What keeps a path from being served is said once, by `Refused`. The main result is `serves_exactly`.
-/

namespace JournalScript
namespace Resource

open JournalScript.Tree

/-- The extensions of journals and of other texts that may be served. -/
inductive IsExtension : Text → Prop where
  | jrn : IsExtension ['.', 'j', 'r', 'n']
  | txt : IsExtension ['.', 't', 'x', 't']
  | log : IsExtension ['.', 'l', 'o', 'g']

/-- A stem with an extension behind it. -/
def IsPlainName (name : Text) : Prop := ∃ ext, IsExtension ext ∧ Path.EndsIn ext name

/-- A stem with an extension and that of compressed files behind it. -/
def IsPackedName (name : Text) : Prop :=
  ∃ ext, IsExtension ext ∧ Path.EndsIn (ext ++ ['.', 'g', 'z']) name

variable {p : Path} {s : Surroundings} {t : Tree} {path : Text} {fault : Fault} {content : Bytes}

/-! ## The names -/

theorem mem_allowedSuffixes_iff {ext : Text} : ext ∈ allowedSuffixes ↔ IsExtension ext := by
  constructor
  · intro h
    rcases List.mem_cons.mp h with rfl | h
    · exact .jrn
    rcases List.mem_cons.mp h with rfl | h
    · exact .log
    · obtain rfl := List.mem_singleton.mp h
      exact .txt
  · rintro (_ | _ | _) <;> decide

theorem IsExtension.shape {ext : Text} (h : IsExtension ext) :
    ∃ w, ext = '.' :: w ∧ (∀ d ∈ '.' :: w, d ∈ Text.extensionChars) ∧ w ≠ [] ∧ '.' ∉ w ∧
      ext ≠ ['.', 'g', 'z'] := by
  cases h <;> exact ⟨_, rfl, by simp [Text.extensionChars], by simp, by simp, by simp⟩

theorem isPlainName_iff : IsPlainName p.name ↔ IsExtension (Text.lower p.suffix) := by
  constructor
  · rintro ⟨ext, hext, hends⟩
    obtain ⟨w, rfl, hw, hne, hpoint, -⟩ := hext.shape
    rwa [(Path.lower_suffix_eq_iff hw hne hpoint).mpr hends]
  · intro hext
    obtain ⟨w, hlower, hw, hne, hpoint, -⟩ := hext.shape
    exact ⟨_, hext, hlower ▸ (Path.lower_suffix_eq_iff hw hne hpoint).mp hlower⟩

theorem isPackedName_iff : IsPackedName p.name ↔
    p.isCompressed = true ∧ IsExtension (Text.lower p.withoutSuffix.suffix) := by
  constructor
  · rintro ⟨ext, hext, hends⟩
    obtain ⟨w, rfl, hw, hne, hpoint, -⟩ := hext.shape
    obtain ⟨hcompressed, hlower⟩ := (Path.endsIn_compressed_iff hw hne hpoint).mp hends
    exact ⟨hcompressed, by rwa [hlower]⟩
  · rintro ⟨hcompressed, hext⟩
    obtain ⟨w, hlower, hw, hne, hpoint, -⟩ := hext.shape
    exact ⟨_, hext, hlower ▸ (Path.endsIn_compressed_iff hw hne hpoint).mpr ⟨hcompressed, hlower⟩⟩

theorem not_isCompressed_of_isPlainName (h : IsPlainName p.name) : p.isCompressed = false := by
  obtain ⟨w, -, -, -, -, hgz⟩ := (isPlainName_iff.mp h).shape
  simpa [Path.isCompressed] using hgz

theorem isAllowed_iff : isAllowed p = true ↔ IsPlainName p.name ∨ IsPackedName p.name := by
  rw [isAllowed, List.contains_iff_mem, mem_allowedSuffixes_iff, effectiveSuffix]
  cases hcompressed : p.isCompressed with
  | true =>
    have hplain : ¬ IsPlainName p.name := fun h => by
      rw [not_isCompressed_of_isPlainName h] at hcompressed
      cases hcompressed
    simp [hplain, isPackedName_iff, hcompressed]
  | false => simp [isPlainName_iff, isPackedName_iff, hcompressed]

theorem isCompressed_iff_packed (h : IsPlainName p.name ∨ IsPackedName p.name) :
    p.isCompressed = true ↔ IsPackedName p.name := by
  constructor
  · intro hcompressed
    refine h.resolve_left fun hplain => ?_
    rw [not_isCompressed_of_isPlainName hplain] at hcompressed
    cases hcompressed
  · exact fun hpacked => (isPackedName_iff.mp hpacked).1

/-! ## The gate -/

/-- What keeps a path from being served, and the fault that tells. -/
inductive Refused (s : Surroundings) (t : Tree) (path : Text) : Fault → Prop where
  | path {e : PathError} : s.confine t path = .error e → Refused s t path (.path e)
  /-- The path is too long, or a name in it, so that it cannot be looked at. -/
  | tooLong {p : Path} : s.confine t path = .ok p → t.locate s.cwd .look p = .error .nameTooLong →
      Refused s t path (.access (.failed .nameTooLong p.toText))
  | missing {p : Path} : s.confine t path = .ok p → t.locate s.cwd .look p ≠ .error .nameTooLong →
      (∀ content, ¬ t.Holds s.cwd p content) → Refused s t path (.fileNotFound p.toText)
  | extension {p : Path} {content : Bytes} : s.confine t path = .ok p → t.Holds s.cwd p content →
      ¬ IsPlainName p.name → ¬ IsPackedName p.name → Refused s t path .suffixNotAllowed

theorem hasNull_of_confine (h : s.confine t path = .ok p) : p.hasNull = false := by
  obtain ⟨base, asked, -, -, hreal, -⟩ := Surroundings.confine_eq_ok_iff.mp h
  exact hasNull_of_resolve hreal

theorem resolvePath_eq_ok_iff : resolvePath s t path = .ok p ↔
    s.confine t path = .ok p ∧ (∃ content, t.Holds s.cwd p content) ∧
      (IsPlainName p.name ∨ IsPackedName p.name) := by
  constructor
  · intro h
    rw [resolvePath] at h
    split at h
    · cases h
    rename_i hconfine
    split at h
    · cases h
    · cases h
    rename_i hfile
    split at h
    · rename_i hallowed
      cases h
      exact ⟨hconfine, (isFile_eq_true_iff.mp hfile).2, isAllowed_iff.mp hallowed⟩
    · cases h
  · rintro ⟨hconfine, hholds, hname⟩
    have hfile := isFile_eq_true_iff.mpr ⟨hasNull_of_confine hconfine, hholds⟩
    simp [resolvePath, hconfine, hfile, isAllowed_iff.mpr hname]

theorem resolvePath_eq_error_iff : resolvePath s t path = .error fault ↔ Refused s t path fault := by
  constructor
  · intro h
    rw [resolvePath] at h
    split at h
    · rename_i hconfine
      cases h
      exact .path hconfine
    rename_i hconfine
    have hnull := hasNull_of_confine hconfine
    split at h
    · rename_i hfile
      obtain ⟨-, hlong, rfl⟩ := isFile_eq_error_iff.mp hfile
      cases h
      exact .tooLong hconfine hlong
    · rename_i hfile
      obtain ⟨hshort, habsent⟩ := (isFile_eq_false_iff hnull).mp hfile
      cases h
      exact .missing hconfine hshort habsent
    · rename_i hfile
      obtain ⟨-, content, hholds⟩ := isFile_eq_true_iff.mp hfile
      split at h
      · cases h
      · rename_i hallowed
        obtain ⟨hplain, hpacked⟩ := not_or.mp (mt isAllowed_iff.mpr hallowed)
        cases h
        exact .extension hconfine hholds hplain hpacked
  · intro h
    cases h with
    | path hconfine => simp [resolvePath, hconfine]
    | tooLong hconfine hlong =>
      have hfile := isFile_eq_error_iff.mpr ⟨hasNull_of_confine hconfine, hlong, rfl⟩
      simp [resolvePath, hconfine, hfile]
    | missing hconfine hshort habsent =>
      have hfile := (isFile_eq_false_iff (hasNull_of_confine hconfine)).mpr ⟨hshort, habsent⟩
      simp [resolvePath, hconfine, hfile]
    | extension hconfine hholds hplain hpacked =>
      have hfile := isFile_eq_true_iff.mpr ⟨hasNull_of_confine hconfine, _, hholds⟩
      have hrefused := mt isAllowed_iff.mp (not_or.mpr ⟨hplain, hpacked⟩)
      simp [resolvePath, hconfine, hfile, hrefused]

/-! ## The reader -/

def served (bs : Bytes) : Except Fault Value :=
  ((Encoding.utf8.codec.decode bs).mapError .undecodable).map Value.str

def servedUnpacked (content : Bytes) : Except Fault Value :=
  match Gzip.decompress content with
  | .error e => .error (.gzip e)
  | .ok bs => served bs

theorem read_of_resolvePath (h : resolvePath s t path = .ok p) (hholds : t.Holds s.cwd p content) :
    read s t (.file path) = if p.isCompressed then servedUnpacked content else served content := by
  have hread : Storage.readJournal t s.toHost p encoding = _ :=
    Storage.readJournal_of_holds (hasNull_of_confine (resolvePath_eq_ok_iff.mp h).1) hholds
  have hnamed : Storage.codecNamed s.toHost encoding = .ok Encoding.utf8.codec :=
    Storage.codecNamed_utf8
  have hdecode : ∀ bs, Storage.decodeNamed s.toHost encoding bs =
      (Encoding.utf8.codec.decode bs).mapError .undecodable := fun _ => rfl
  simp only [read, h, hread]
  cases p.isCompressed with
  | true =>
    simp only [if_true, servedUnpacked, Storage.decodeCompressed, hnamed, hdecode]
    cases Gzip.decompress content with
    | error e => rfl
    | ok bs =>
      simp only [served]
      cases (Encoding.utf8.codec.decode bs).mapError Fault.undecodable <;> rfl
  | false =>
    simp only [Bool.false_eq_true, if_false, served, hdecode]
    cases (Encoding.utf8.codec.decode content).mapError Fault.undecodable <;> rfl

theorem ofUri?_template {uri : String} (h : uri ∈ templates) (path : Text) :
    ofUri? uri path = some (.file path) := by
  rcases List.mem_cons.mp h with rfl | h
  · rfl
  · obtain rfl := List.mem_singleton.mp h
    rfl

/-! ## Gate and reader together -/

/-- **A path is served exactly when it leads, inside the base directory, to a file with a plain or a
packed name; every other path is refused for the first reason there is; and what is served is
unpacked exactly under a packed name**, whichever of the two addresses is asked. -/
theorem serves_exactly (s : Surroundings) (t : Tree) (path : Text) :
    (∀ p, resolvePath s t path = .ok p ↔
      s.confine t path = .ok p ∧ (∃ content, t.Holds s.cwd p content) ∧
        (IsPlainName p.name ∨ IsPackedName p.name)) ∧
    (∀ fault, resolvePath s t path = .error fault ↔ Refused s t path fault) ∧
    ∀ p content, resolvePath s t path = .ok p → t.Holds s.cwd p content →
      ∀ uri ∈ templates, ∃ r, ofUri? uri path = some r ∧
        (IsPackedName p.name → read s t r = servedUnpacked content) ∧
        (¬ IsPackedName p.name → IsPlainName p.name ∧ read s t r = served content) := by
  refine ⟨fun p => resolvePath_eq_ok_iff, fun fault => resolvePath_eq_error_iff, ?_⟩
  intro p content hpass hholds uri huri
  have hname := (resolvePath_eq_ok_iff.mp hpass).2.2
  have hread := read_of_resolvePath hpass hholds
  have hpacked := isCompressed_iff_packed hname
  refine ⟨_, ofUri?_template huri path, fun h => ?_, fun h => ⟨hname.resolve_right h, ?_⟩⟩
  · rw [hread, if_pos (hpacked.mpr h)]
  · rw [hread, if_neg (mt hpacked.mp h)]

/-- Behind a link without any extension: the name of its target decides. -/
theorem serves_exactly_linked :
    let content : Bytes := Gzip.compress [0x78]
    let t : Tree := ⟨[(["b".toList], .directory), (["b".toList, "a.Log.gZ".toList], .file content),
      (["b".toList, "l".toList], .link "a.Log.gZ".toList)]⟩
    let s : Surroundings := ⟨.plain [], ⟨[("JOURNAL_BASE_DIR".toList, "/b".toList)]⟩, []⟩
    ∃ r, ofUri? "journal://\x7bpath\x7d" "l".toList = some r ∧
      read s t r = .ok (.str ['x']) := by
  intro content t s
  have hunpack : Gzip.decompress content = .ok [0x78] := Gzip.decompress_compress _
  obtain ⟨hpass, -, hserved⟩ := serves_exactly s t "l".toList
  have hholds : t.Holds s.cwd ⟨.root, ["b".toList, "a.Log.gZ".toList]⟩ content :=
    ⟨["b".toList, "a.Log.gZ".toList], by decide +kernel⟩
  have hpacked : IsPackedName "a.Log.gZ".toList :=
    ⟨_, .log, ['a'], ".Log.gZ".toList, by decide, by decide, by decide⟩
  have hresolved := (hpass ⟨.root, ["b".toList, "a.Log.gZ".toList]⟩).mpr
    ⟨by decide +kernel, ⟨_, hholds⟩, .inr hpacked⟩
  obtain ⟨r, hr, hread, -⟩ := hserved _ _ hresolved hholds "journal://\x7bpath\x7d" (by decide)
  refine ⟨r, hr, ?_⟩
  rw [hread hpacked, servedUnpacked, hunpack]
  rfl

/-- A name that is too long to be looked up: no file is there, and yet the fault does not say that
none was found. -/
theorem serves_exactly_too_long :
    let t : Tree := ⟨[(["b".toList], .directory)]⟩
    let s : Surroundings := ⟨.plain [], ⟨[("JOURNAL_BASE_DIR".toList, "/b".toList)]⟩, []⟩
    let name : Text := List.replicate 256 'n'
    let p : Path := ⟨.root, ["b".toList, name]⟩
    s.confine t name = .ok p ∧ (∀ content, ¬ t.Holds s.cwd p content) ∧
      resolvePath s t name = .error (.access (.failed .nameTooLong p.toText)) ∧
      resolvePath s t name ≠ .error (.fileNotFound p.toText) := by
  intro t s name p
  have hlong : t.locate s.cwd .look p = .error .nameTooLong := by decide +kernel
  have hfault : resolvePath s t name = .error (.access (.failed .nameTooLong p.toText)) := by
    decide +kernel
  refine ⟨by decide +kernel, ?_, hfault, by rw [hfault]; simp⟩
  rintro content ⟨loc, hfound⟩
  rw [hlong] at hfound
  cases hfound

end Resource
end JournalScript
