import JournalScript.Proofs.Document.Files

/-!
# JournalScript.Proofs.Document.FailedSave

What is left of the files when a document could not be saved.

A file is opened, and so emptied, before its encoding is looked up, its text is encoded and anything
is written. So a fault of the encoding, or a writing that breaks off, costs the content of the file
that was to be written. No other file loses anything, and before the file is opened nothing does
(`failed_save`).
-/

namespace JournalScript

/-- Whether a fault says that a text has no bytes in an encoding. -/
def Fault.isEncoding : Fault → Bool
  | .unknownEncoding _ | .notTextEncoding _ | .nullInEncoding | .unencodable _ => true
  | _ => false

def Fault.isWriting : Fault → Bool
  | .unwritten _ => true
  | _ => false

theorem Fault.isWriting_of_isEncoding {fault : Fault} (h : fault.isEncoding = true) :
    fault.isWriting = false := by
  cases fault <;> first | rfl | cases h

namespace Tree

variable {t made : Tree} {cwd : Location} {p : Path}

/-- Whatever was in the first tree is still there in the second. -/
def Widened (t made : Tree) : Prop := ∀ l node, t.get? l = some node → made.get? l = some node

theorem Widened.refl (t : Tree) : Widened t t := fun _ _ h => h

theorem Widened.trans {done : Tree} (h : Widened t made) (h' : Widened made done) :
    Widened t done :=
  fun l node hnode => h' l node (h l node hnode)

theorem widened_of_makeIfAbsent (h : t.makeIfAbsent cwd p = .ok made) : Widened t made := by
  rcases makeIfAbsent_ok h with rfl | hmake
  · exact .refl _
  · obtain ⟨-, loc, hlocate, rfl⟩ := makeDirectory_eq_ok_iff.mp hmake
    have hvacant : t.get? loc = none := (locate_eq_ok_iff.mp hlocate).2.get?_location
    intro l node hnode
    rw [get?_set_of_ne, hnode]
    rintro rfl
    rw [hvacant] at hnode
    cases hnode

/-- By induction on the names: each directory is made where there was nothing. -/
theorem widened_of_ensureNames {anchor : Anchor} {names : List Text} :
    ∀ {made : Tree} {r : Except AccessError Unit}, t.ensureNames cwd anchor names = (made, r) →
      Widened t made := by
  induction names with
  | nil =>
    intro made r h
    rw [ensureNames] at h
    split at h
    · rename_i hmake
      cases h
      exact widened_of_makeIfAbsent hmake
    · cases h
      exact .refl _
  | cons name above ih =>
    intro made r h
    rw [ensureNames] at h
    split at h
    · rename_i hmake
      cases h
      exact widened_of_makeIfAbsent hmake
    · split at h
      · rename_i habove
        cases h
        exact ih habove
      · rename_i habove
        split at h
        · rename_i hmake
          cases h
          exact (ih habove).trans (widened_of_makeIfAbsent hmake)
        · cases h
          exact ih habove
    · cases h
      exact .refl _

theorem widened_ensureDirectory (t : Tree) (cwd : Location) (p : Path) :
    Widened t (t.ensureDirectory cwd p).1 := widened_of_ensureNames rfl

end Tree

namespace Storage

open JournalScript.Tree

variable {t opened after : Tree} {host : Host} {p : Path} {loc : Location} {encoding text : Text}
  {fault : Fault} {content : Bytes}

/-! ## Writes that fail -/

/-- What a fault leaves in a file that has been opened. A plain file is not opened for an encoding
whose name holds a null character, and no stream is in it. -/
inductive Leaves (host : Host) (p : Path) : Fault → Bytes → Prop where
  | empty {fault : Fault} (hfault : fault.isEncoding = true)
      (hnull : fault = .nullInEncoding → p.isCompressed = true) : Leaves host p fault []
  | stream {fault : Fault} (hfault : fault.isEncoding = true) (hpacked : p.isCompressed = true) :
      Leaves host p fault (Gzip.compress [])
  | broken {left : Bytes} {reason : Text} (hhost : host.writing = .broken left reason) :
      Leaves host p (.unwritten reason) left

section Leaves

variable (h : Leaves host p fault content)
include h

theorem Leaves.isWriting_of_complete (hhost : host.writing = .complete) :
    fault.isWriting = false := by
  cases h with
  | empty hfault _ | stream hfault _ => exact fault.isWriting_of_isEncoding hfault
  | broken hbroken =>
    rw [hhost] at hbroken
    cases hbroken

theorem Leaves.isEncoding_or_isWriting : fault.isEncoding = true ∨ fault.isWriting = true := by
  cases h with
  | empty hfault _ | stream hfault _ => exact .inl hfault
  | broken _ => exact .inr rfl

theorem Leaves.content_of_isEncoding (hfault : fault.isEncoding = true) :
    content = [] ∨ p.isCompressed = true ∧ content = Gzip.compress [] := by
  cases h with
  | empty _ _ => exact .inl rfl
  | stream _ hpacked => exact .inr ⟨hpacked, rfl⟩
  | broken _ => cases hfault

theorem Leaves.isCompressed_of_null (hfault : fault = .nullInEncoding) :
    p.isCompressed = true := by
  cases h with
  | empty _ hnull => exact hnull hfault
  | stream _ hpacked => exact hpacked
  | broken _ => cases hfault

end Leaves

/-- What a write that failed has done: nothing, or it has opened its file, and no other one has
changed. -/
inductive Failed (t : Tree) (host : Host) (p : Path) (fault : Fault) (after : Tree) : Prop where
  | unopened (hafter : after = t) (hfault : (∃ e, fault = .access e) ∨ fault = .nullInEncoding)
  | opened {place : Place} {content : Bytes} (hlocate : t.locate host.cwd .write p = .ok place)
      (here : after.get? place.location = some (.file content))
      (others : ∀ l, l ≠ place.location → after.get? l = t.get? l)
      (hleaves : Leaves host p fault content)

theorem failed_of_filled (hopen : t.openForWriting host.cwd p = .ok (opened, loc))
    (hleaves : Leaves host p fault content) :
    Failed t host p fault (opened.set loc (.file content)) := by
  obtain ⟨-, place, hlocate, rfl, hplace⟩ := place_of_openForWriting hopen
  exact .opened hlocate (get?_set_self ((locate_eq_ok_iff.mp hlocate).2.location_ne_nil hplace))
    (fun l hl => get?_filled hopen hl) hleaves

theorem isEncoding_of_codecNamed (h : codecNamed host encoding = .error fault) :
    fault.isEncoding = true := by
  rw [codecNamed] at h
  split at h
  · cases h; rfl
  split at h
  · cases h
  split at h
  · cases h; rfl
  split at h
  · cases h
  · cases h; rfl

theorem hasNullName_of_error (h : codecNamed host encoding = .error .nullInEncoding) :
    hasNullName encoding = true := by
  rw [codecNamed] at h
  split at h
  · assumption
  split at h
  · cases h
  split at h
  · cases h
  split at h <;> cases h

theorem failed_of_codecNamed (hopen : t.openForWriting host.cwd p = .ok (opened, loc))
    (hcodec : codecNamed host encoding = .error fault)
    (hnull : hasNullName encoding = true → p.isCompressed = true) :
    Failed t host p fault opened := by
  obtain ⟨rfl, place, hlocate, rfl, hplace⟩ := place_of_openForWriting hopen
  refine .opened hlocate (get?_set_self ((locate_eq_ok_iff.mp hlocate).2.location_ne_nil hplace))
    (fun l hl => get?_set_of_ne hl) (.empty (isEncoding_of_codecNamed hcodec) fun hfault => ?_)
  rw [hfault] at hcodec
  exact hnull (hasNullName_of_error hcodec)

theorem failed_writeOpened {pack : Bytes → Bytes} {codec : Codec}
    (hpack : pack [] = [] ∨ pack [] = Gzip.compress [] ∧ p.isCompressed = true)
    (hopen : t.openForWriting host.cwd p = .ok (opened, loc))
    (h : writeOpened host pack opened loc codec text = (after, .error fault)) :
    Failed t host p fault after := by
  obtain ⟨content, result, heq, hfilled⟩ := writeOpened_filled host pack opened loc codec text
  obtain ⟨rfl, rfl⟩ := Prod.mk.inj (heq.symm.trans h)
  refine failed_of_filled hopen ?_
  cases hfilled with
  | unencodable _ =>
    rcases hpack with hpack | ⟨hpack, hpacked⟩
    · rw [hpack]
      exact .empty rfl nofun
    · rw [hpack]
      exact .stream rfl hpacked
  | broken hhost => exact .broken hhost

theorem failed_writePlain (h : writePlain t host p encoding text = (after, .error fault)) :
    Failed t host p fault after := by
  rw [writePlain] at h
  split at h
  · cases h
    exact .unopened rfl (.inr rfl)
  rename_i hnull
  split at h
  · cases h
    exact .unopened rfl (.inl ⟨_, rfl⟩)
  rename_i hopen
  split at h
  · rename_i hcodec
    cases h
    exact failed_of_codecNamed hopen hcodec fun hnull' => absurd hnull' hnull
  · exact failed_writeOpened (.inl rfl) hopen h

theorem failed_writeCompressed (hpacked : p.isCompressed = true)
    (h : writeCompressed t host p encoding text = (after, .error fault)) :
    Failed t host p fault after := by
  rw [writeCompressed] at h
  split at h
  · cases h
    exact .unopened rfl (.inl ⟨_, rfl⟩)
  rename_i hopen
  split at h
  · rename_i hcodec
    cases h
    exact failed_of_codecNamed hopen hcodec fun _ => hpacked
  · exact failed_writeOpened (.inr ⟨rfl, hpacked⟩) hopen h

theorem failed_writeJournal (h : writeJournal t host p encoding text = (after, .error fault)) :
    Failed (t.ensureDirectory host.cwd p.parent).1 host p fault after := by
  rw [writeJournal] at h
  split at h
  · rename_i made e hensure
    cases h
    rw [hensure]
    exact .unopened rfl (.inl ⟨_, rfl⟩)
  · rename_i made hensure
    rw [hensure]
    split at h
    · exact failed_writeCompressed ‹_› h
    · exact failed_writePlain h

/-! ## Texts that can be encoded -/

def Encodable (host : Host) (encoding text : Text) : Prop :=
  ∃ codec bs, codecNamed host encoding = .ok codec ∧ codec.encode text = .ok bs

theorem isEncoding_of_fill (h : fill host opened loc content = (after, .error fault)) :
    fault.isEncoding = false := by
  rw [fill] at h
  split at h
  · cases h
  · cases h; rfl

theorem Encodable.writePlain (henc : Encodable host encoding text)
    (h : writePlain t host p encoding text = (after, .error fault)) : fault.isEncoding = false := by
  obtain ⟨codec, bs, hcodec, hbs⟩ := henc
  rw [writePlain_of_encode hcodec hbs] at h
  split at h
  · cases h; rfl
  · exact isEncoding_of_fill h

theorem Encodable.writeJournal (henc : Encodable host encoding text)
    (h : writeJournal t host p encoding text = (after, .error fault)) :
    fault.isEncoding = false := by
  obtain ⟨codec, bs, hcodec, hbs⟩ := henc
  rw [writeJournal_of_encode hcodec hbs] at h
  split at h
  · cases h; rfl
  split at h
  · cases h; rfl
  · exact isEncoding_of_fill h

end Storage

namespace Document

open JournalScript.Tree

variable {d : Document} {t aimed after : Tree} {host : Host} {p : Path} {fault : Fault}

/-- Every file of the first tree has its content in the second. -/
def Keeps (t after : Tree) : Prop :=
  ∀ l content, t.get? l = some (.file content) → after.get? l = some (.file content)

/-- What is left of the files after a document could not be saved under a path, which leads where it
leads in `aimed`. -/
structure Spared (d : Document) (t aimed : Tree) (host : Host) (p : Path) (fault : Fault)
    (after : Tree) : Prop where
  /-- A text that has an encoding does not fail for want of one. -/
  encodable : Storage.Encodable host d.layout.encoding d.render → fault.isEncoding = false
  /-- On a host that writes everything no writing breaks off. -/
  complete : host.writing = .complete → fault.isWriting = false
  kept : fault.isEncoding = false → fault.isWriting = false → Keeps t after
  /-- Any file but the one that was to be written is spared by every fault. -/
  others : ∀ l content, t.get? l = some (.file content) → after.get? l = some (.file content) ∨
    ∃ place, aimed.locate host.cwd .write p = .ok place ∧ place.location = l
  emptied : fault.isEncoding = true → (fault = .nullInEncoding ∧ Keeps t after) ∨
    ∃ place, aimed.locate host.cwd .write p = .ok place ∧
      (after.get? place.location = some (.file []) ∨
        p.isCompressed = true ∧ after.get? place.location = some (.file (Gzip.compress [])))
  untouched : fault = .nullInEncoding → p.isCompressed = false → Keeps t after

theorem spared_of_same (hencoding : fault.isEncoding = false) (hwriting : fault.isWriting = false) :
    Spared d t aimed host p fault t where
  encodable _ := hencoding
  complete _ := hwriting
  kept _ _ _ _ h := h
  others _ _ h := .inl h
  emptied h := by
    rw [hencoding] at h
    cases h
  untouched _ _ _ _ h := h

theorem spared_of_failed (hwidened : Widened t aimed)
    (hencodable : Storage.Encodable host d.layout.encoding d.render → fault.isEncoding = false)
    (h : Storage.Failed aimed host p fault after) : Spared d t aimed host p fault after := by
  cases h with
  | unopened hafter hfault =>
    subst hafter
    have hkeeps : Keeps t after := fun l content hfile => hwidened l _ hfile
    refine ⟨hencodable, fun _ => ?_, fun _ _ => hkeeps, fun l content hfile =>
      .inl (hkeeps l content hfile), fun hencoding => .inl ⟨?_, hkeeps⟩, fun _ _ => hkeeps⟩
    · rcases hfault with ⟨e, rfl⟩ | rfl <;> rfl
    · rcases hfault with ⟨e, rfl⟩ | rfl
      · cases hencoding
      · rfl
  | @opened place content hlocate here hothers hleaves =>
    refine ⟨hencodable, hleaves.isWriting_of_complete, fun hencoding hwriting => ?_,
      fun l content hfile => ?_, fun hencoding => .inr ⟨place, hlocate, ?_⟩, fun hnull hplain => ?_⟩
    · rcases hleaves.isEncoding_or_isWriting with h | h
      · rw [h] at hencoding
        cases hencoding
      · rw [h] at hwriting
        cases hwriting
    · by_cases hl : l = place.location
      · exact .inr ⟨place, hlocate, hl.symm⟩
      · exact .inl (by rw [hothers l hl, hwidened l _ hfile])
    · rcases hleaves.content_of_isEncoding hencoding with rfl | ⟨hpacked, rfl⟩
      · exact .inl here
      · exact .inr ⟨hpacked, here⟩
    · rw [hleaves.isCompressed_of_null hnull] at hplain
      cases hplain

theorem spared_saveAs {name : Text} (h : (d.saveAs t host name).result = .error fault) :
    Spared d t t host (Path.ofText name) fault (d.saveAs t host name).state := by
  rw [saveAs] at h ⊢
  split at h
  · rename_i written fault' hwrite
    cases h
    exact spared_of_failed (.refl t) (fun henc => henc.writePlain hwrite)
      (Storage.failed_writePlain hwrite)
  · cases h

theorem spared_store {target : Option Text} (h : (d.store t host target).result = .error fault) :
    Spared d t (t.ensureDirectory host.cwd (Path.ofText (target.getD d.filename)).parent).1 host
      (Path.ofText (target.getD d.filename)) fault (d.store t host target).state := by
  rw [store] at h ⊢
  dsimp only at h ⊢
  split at h
  · rename_i hname
    cases h
    rw [if_pos hname]
    exact spared_of_same rfl rfl
  rename_i hname
  rw [if_neg hname]
  split at h
  · rename_i written fault' hwrite
    cases h
    exact spared_of_failed (widened_ensureDirectory _ _ _) (fun henc => henc.writeJournal hwrite)
      (Storage.failed_writeJournal hwrite)
  · cases h

/-- A document that could not be saved has cost no file its content but the one that was to be
written, and that one only after it was opened: when its text has no bytes in its encoding, which
leaves it empty, or when the host breaks the writing off. -/
theorem failed_save (d : Document) (t : Tree) (host : Host) (fault : Fault) :
    (∀ name, (d.saveAs t host name).result = .error fault →
      Spared d t t host (Path.ofText name) fault (d.saveAs t host name).state) ∧
    ((d.save t host).result = .error fault →
      Spared d t t host (Path.ofText d.filename) fault (d.save t host).state) ∧
    ∀ target, (d.store t host target).result = .error fault →
      Spared d t (t.ensureDirectory host.cwd (Path.ofText (target.getD d.filename)).parent).1 host
        (Path.ofText (target.getD d.filename)) fault (d.store t host target).state := by
  refine ⟨fun name => spared_saveAs, fun h => ?_, fun target => spared_store⟩
  rw [save] at h ⊢
  split at h
  · rename_i hname
    cases h
    rw [if_pos hname]
    exact spared_of_same rfl rfl
  · rename_i hname
    rw [if_neg hname]
    exact spared_saveAs h

/-- A text that is not ASCII, saved to a directory and to a file beside another, and to that file on
a host whose disk is full. -/
theorem failed_save_ascii :
    let t : Tree := ⟨[(["a".toList], .file [111]), (["b".toList], .file [112]),
      (["d".toList], .directory)]⟩
    let full : Host := { Host.plain [] with
      writing := .broken [195] "No space left".toList }
    let d := fun encoding : String => (⟨[], [.raw ['é']],
      ⟨['\n'], ['\n'], false, encoding.toList⟩, .unrestricted, []⟩ : Document)
    ((d "ascii").saveAs t (.plain []) "d".toList).state.get? ["a".toList] = some (.file [111]) ∧
      ((d "ascii").saveAs t (.plain []) "a".toList).state.get? ["b".toList] =
        some (.file [112]) ∧
      ((d "utf-8").saveAs t full "a".toList).state.get? ["b".toList] = some (.file [112]) := by
  intro t full d
  have hdirectory : ((d "ascii").saveAs t (.plain []) "d".toList).result =
      .error (.access (.failed .isDirectory "d".toList)) := rfl
  have hfile : ((d "ascii").saveAs t (.plain []) "a".toList).result =
      .error (.unencodable (EncodeError.message "ascii" ⟨0, 1, 'é', 128⟩)) := rfl
  have hfull : ((d "utf-8").saveAs t full "a".toList).result =
      .error (.unwritten "No space left".toList) := rfl
  have hbeside : ∀ {fault : Fault} {host : Host} {encoding : String}, host.cwd = [] →
      ((d encoding).saveAs t host "a".toList).result = .error fault →
      ((d encoding).saveAs t host "a".toList).state.get? ["b".toList] = some (.file [112]) := by
    intro fault host encoding hcwd hfault
    rcases ((failed_save (d encoding) t host fault).1 _ hfault).others ["b".toList] [112] rfl with
      hsame | ⟨place, hplace, hlocation⟩
    · exact hsame
    · have hfound : t.locate [] .write (Path.ofText "a".toList) =
          .ok (.found ["a".toList] (.file [111])) := rfl
      rw [hcwd, hfound] at hplace
      cases hplace
      cases hlocation
  exact ⟨((failed_save (d "ascii") t (.plain []) _).1 _ hdirectory).kept rfl rfl _ _ rfl,
    hbeside rfl hfile, hbeside rfl hfull⟩

/-- The file that was to be written loses its content: its encoding lacks a character, or the disk is
full. -/
theorem failed_save_loses :
    let t : Tree := ⟨[(["a".toList], .file [111])]⟩
    let d : Document := ⟨[], [.raw ['é']], ⟨['\n'], ['\n'], false, "ascii".toList⟩, .unrestricted, []⟩
    let d' : Document := { d with layout := .default }
    let full : Host := { Host.plain [] with writing := .broken [] "No space left".toList }
    let fault : Fault := .unencodable (EncodeError.message "ascii" ⟨0, 1, 'é', 128⟩)
    ((d.saveAs t (.plain []) "a".toList).result = .error fault ∧
      (d.saveAs t (.plain []) "a".toList).state.get? ["a".toList] = some (.file [])) ∧
    ((d.store t (.plain []) (some "a".toList)).result = .error fault ∧
      (d.store t (.plain []) (some "a".toList)).state.get? ["a".toList] = some (.file [])) ∧
    (d'.store t full (some "a".toList)).result = .error (.unwritten "No space left".toList) ∧
      (d'.store t full (some "a".toList)).state.get? ["a".toList] = some (.file []) :=
  ⟨⟨rfl, rfl⟩, ⟨rfl, rfl⟩, rfl, rfl⟩

end Document
end JournalScript
