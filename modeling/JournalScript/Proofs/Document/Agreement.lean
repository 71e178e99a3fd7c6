import JournalScript.Proofs.Document.FailedRead
import JournalScript.Proofs.Document.Reload
import JournalScript.Proofs.Text.Case

/-!
# JournalScript.Proofs.Document.Agreement

The two ways to a file: a document reads and writes plain files itself, and the journal storage does
it for the requests.

For a path that is not compressed the storage does what the document does, in the tree in which the
missing directories have been made (`store_alike`). A document never makes directories, so where it
could save there was nothing to make (`ensureDirectory_of_saveAs`). A regular file is read alike
(`fetch_alike`). The main result is `layers_agree`.
-/

namespace JournalScript

namespace Storage

variable {t made : Tree} {host : Host} {p : Path} {encoding text : Text}

theorem writeJournal_of_not_compressed (h : p.isCompressed = false)
    (hmade : t.ensureDirectory host.cwd p.parent = (made, .ok ())) :
    writeJournal t host p encoding text = writePlain made host p encoding text := by
  rw [writeJournal, hmade]
  simp [h]

theorem readJournal_of_isFile (h : p.isCompressed = false) (hfile : t.isFile host.cwd p = .ok true) :
    readJournal t host p encoding = readPlain t host p encoding := by
  rw [readJournal, hfile]
  simp [h]

end Storage

namespace Document

open JournalScript.Tree

variable {d : Document} {t made : Tree} {host : Host} {name : Text} {p : Path}

/-- The storage and the document have left the same files, and both have saved or have failed for
the same reason. -/
structure SavedAlike (stored : Reply Tree Path) (saved : Reply Tree Unit) : Prop where
  state : stored.state = saved.state
  result : stored.result.map (fun _ => ()) = saved.result

/-- The document and the storage have read the same lines under the same name, or have failed for
the same reason. -/
inductive ReadAlike (opened : Reply Document Unit) : Except Fault Document → Prop where
  | read {fetched : Document} (result : opened.result = .ok ())
      (lines : opened.state.lines = fetched.lines)
      (filename : opened.state.filename = fetched.filename) : ReadAlike opened (.ok fetched)
  | failed {fault : Fault} (result : opened.result = .error fault) :
      ReadAlike opened (.error fault)

/-! ## Saving -/

theorem store_alike (hplain : (Path.ofText name).isCompressed = false) (hname : name ≠ [])
    (hmade : t.ensureDirectory host.cwd (Path.ofText name).parent = (made, .ok ())) :
    SavedAlike (d.store t host (some name)) (d.saveAs made host name) := by
  rw [store, saveAs]
  simp only [Option.getD_some, if_neg hname, Storage.writeJournal_of_not_compressed hplain hmade]
  rcases Storage.writePlain made host (Path.ofText name) d.layout.encoding d.render with
    ⟨written, fault | _⟩
  · exact ⟨rfl, rfl⟩
  · exact ⟨rfl, rfl⟩

theorem place_of_saveAs (h : (d.saveAs t host name).result = .ok ()) :
    (Path.ofText name).hasNull = false ∧
      ∃ place, t.locate host.cwd .write (Path.ofText name) = .ok place ∧ place.Writable := by
  rw [saveAs] at h
  split at h
  · cases h
  rename_i written hwrite
  obtain ⟨-, codec, bs, hcodec, hbs⟩ := Storage.encode_of_writePlain hwrite
  rw [Storage.writePlain_of_encode hcodec hbs] at hwrite
  split at hwrite
  · cases hwrite
  rename_i opened loc hopen
  obtain ⟨-, place, hlocate, -, hplace⟩ := place_of_openForWriting hopen
  exact ⟨hasNull_of_openForWriting hopen, place, hlocate, hplace⟩

theorem ensureDirectory_of_saveAs (hcwd : t.get? host.cwd = some .directory)
    (h : (d.saveAs t host name).result = .ok ()) :
    name ≠ [] ∧ t.ensureDirectory host.cwd (Path.ofText name).parent = (t, .ok ()) := by
  obtain ⟨hnull, place, hlocate, hplace⟩ := place_of_saveAs h
  have hstart : t.get? (startOf host.cwd (Path.ofText name)) = some .directory := by
    rw [startOf]
    split
    · rfl
    · exact hcwd
  refine ⟨?_, ensureDirectory_of_writable hstart hnull hlocate hplace⟩
  rintro rfl
  exact parts_ne_nil_of_writable hstart hlocate hplace rfl

theorem holds_of_store (hplain : (Path.ofText name).isCompressed = false)
    (h : (d.store t host (some name)).result = .ok p) :
    ∃ codec bs, Storage.codecNamed host d.layout.encoding = .ok codec ∧ codec.encode d.render = .ok bs ∧
      (d.store t host (some name)).state.Holds host.cwd (Path.ofText name) bs := by
  have hwrite := writeJournal_of_store h
  rw [Option.getD_some] at hwrite
  obtain ⟨-, codec, bs, hcodec, hbs⟩ := Storage.encode_of_writeJournal hwrite
  obtain ⟨-, loc, hfound⟩ := Storage.locate_of_writeJournal hcodec hbs hwrite
  rw [Storage.fileContent, if_neg (by simp [hplain])] at hfound
  exact ⟨codec, bs, hcodec, hbs, loc, hfound⟩

theorem ensureDirectory_of_store (h : (d.store t host (some name)).result = .ok p) :
    name ≠ [] ∧ ∃ made, t.ensureDirectory host.cwd (Path.ofText name).parent = (made, .ok ()) := by
  have hname : name ≠ [] := by
    rintro rfl
    cases h
  refine ⟨hname, ?_⟩
  have hwrite := writeJournal_of_store h
  rw [Option.getD_some, Storage.writeJournal] at hwrite
  split at hwrite
  · cases hwrite
  · rename_i made hmade
    exact ⟨made, hmade⟩

/-! ## Reading -/

theorem fetch_alike (hplain : (Path.ofText name).isCompressed = false)
    (hfile : t.isFile host.cwd (Path.ofText name) = .ok true) :
    ReadAlike (d.openFile t host name) (fetch t host d.layout d.filter name).1 := by
  have hread : Storage.readJournal t host (Path.ofText name) d.layout.encoding = _ :=
    Storage.readJournal_of_isFile hplain hfile
  rcases unread_or_read d t host name with ⟨fault, hunread⟩ | ⟨hsep, text, htext⟩
  · have hfetch : (fetch t host d.layout d.filter name).1 = .error fault := by
      rw [fetch, hread]
      cases hunread with
      | text h => rw [h]
      | lines hsep h =>
        rw [h]
        dsimp only
        rw [parseText_of_eq_nil (d := new d.layout d.filter) hsep]
        rfl
    rw [hfetch, openFile_of_unread hunread]
    exact .failed rfl
  · obtain ⟨events, hopen⟩ := openFile_of_readPlain hsep htext
    obtain ⟨events', hfetch⟩ := fetch_of_readJournal d.filter hsep (hread.trans htext)
    rw [hopen, hfetch]
    exact .read rfl rfl rfl

/-! ## Both layers -/

/-- **Written texts are read back, and the two ways to a file agree.** What was written under a path is
read from it, in every encoding that is defined here, from plain and from compressed files. For a
path that is not compressed: where a document saves itself, the storage does the same; the storage
does what the document does once the missing directories have been made, failures included; the file
that it has saved holds the bytes of the document, and nothing but the directories can have been
missing; and a regular file is read alike by both. -/
theorem layers_agree (t : Tree) (host : Host) (hcwd : t.get? host.cwd = some .directory) :
    (∀ p encoding text written own, Encoding.ofName? encoding = some own →
      Storage.writeJournal t host p encoding text = (written, .ok ()) →
      Storage.readJournal written host p encoding = .ok text) ∧
    ∀ (d : Document) (name : Text), ¬ (Path.ofText name).HasGzSuffix →
      ((d.saveAs t host name).result = .ok () →
        SavedAlike (d.store t host (some name)) (d.saveAs t host name)) ∧
      (∀ made, name ≠ [] → t.ensureDirectory host.cwd (Path.ofText name).parent = (made, .ok ()) →
        SavedAlike (d.store t host (some name)) (d.saveAs made host name)) ∧
      (∀ p, (d.store t host (some name)).result = .ok p →
        (∃ made, t.ensureDirectory host.cwd (Path.ofText name).parent = (made, .ok ()) ∧
          SavedAlike (d.store t host (some name)) (d.saveAs made host name)) ∧
        ∃ codec bs, Storage.codecNamed host d.layout.encoding = .ok codec ∧
          codec.encode d.render = .ok bs ∧
          (d.store t host (some name)).state.Holds host.cwd (Path.ofText name) bs) ∧
      (t.isFile host.cwd (Path.ofText name) = .ok true →
        ReadAlike (d.openFile t host name) (fetch t host d.layout d.filter name).1) := by
  refine ⟨fun p encoding text written own hown h => Storage.readJournal_writeJournal hown h, ?_⟩
  intro d name hsuffix
  have hplain : (Path.ofText name).isCompressed = false := by
    rw [Bool.eq_false_iff]
    exact mt Path.isCompressed_iff.mp hsuffix
  refine ⟨fun hsave => ?_, fun made hname hmade => store_alike hplain hname hmade,
    fun p hstore => ?_, fun hfile => fetch_alike hplain hfile⟩
  · obtain ⟨hname, hmade⟩ := ensureDirectory_of_saveAs hcwd hsave
    exact store_alike hplain hname hmade
  · obtain ⟨hname, made, hmade⟩ := ensureDirectory_of_store hstore
    exact ⟨⟨made, hmade, store_alike hplain hname hmade⟩, holds_of_store hplain hstore⟩

/-- From a working directory over `..` into another one, where a file is replaced by one that starts
with a mark of its encoding and ends in a single carriage return. -/
theorem layers_agree_relative :
    let t : Tree := ⟨[(["w".toList], .directory), (["d".toList], .directory),
      (["d".toList, "a".toList], .file [0xEF, 0xBB, 0xBF, 0x78])]⟩
    let d : Document := ⟨[], [.raw ['\uFEFF', 'x', '\r']],
      ⟨['\n'], ['\n'], false, "utf-8-sig".toList⟩, .unrestricted, []⟩
    SavedAlike (d.store t (.plain ["w".toList]) (some "../d/a".toList))
        (d.saveAs t (.plain ["w".toList]) "../d/a".toList) ∧
      ReadAlike (d.openFile t (.plain ["w".toList]) "../d/a".toList)
        (fetch t (.plain ["w".toList]) d.layout d.filter "../d/a".toList).1 := by
  intro t d
  have hsuffix : ¬ (Path.ofText "../d/a".toList).HasGzSuffix := by
    rw [← Path.isCompressed_iff]
    decide
  obtain ⟨hsave, -, -, hread⟩ :=
    (layers_agree t (.plain ["w".toList]) rfl).2 d "../d/a".toList hsuffix
  exact ⟨hsave (by decide +kernel), hread (by decide +kernel)⟩

/-- A directory that is missing is made by the storage alone; and the storage takes the extension of
compressed files in capital letters as well. -/
theorem layers_agree_no_directory :
    let d : Document := ⟨[], [.raw ['x']], Layout.default, .unrestricted, []⟩
    (d.saveAs Tree.empty (.plain []) "d/a".toList).result =
        .error (.access (.failed .missing "d/a".toList)) ∧
      (d.store Tree.empty (.plain []) (some "d/a".toList)).result = .ok (Path.ofText "d/a".toList) ∧
      (d.saveAs Tree.empty (.plain []) "a.GZ".toList).state.get? ["a.GZ".toList] = some (.file [0x78]) ∧
      (d.store Tree.empty (.plain []) (some "a.GZ".toList)).state.get? ["a.GZ".toList] =
        some (.file (Gzip.compress [0x78])) ∧
      Gzip.compress [0x78] ≠ [0x78] := by
  decide +kernel

end Document
end JournalScript
