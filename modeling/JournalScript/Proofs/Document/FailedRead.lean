import JournalScript.Proofs.Document.FailedSave

/-!
# JournalScript.Proofs.Document.FailedRead

What is left of a document when no lines could be read into it.

A file fails to give lines in two ways: its text cannot be had, or the text cannot be cut because
the separator is empty (`Unread`). The lines of a text are added once all of them are there, so a
document that could not be given a text, or could not load a file, is as it was. A file that is
opened replaces the old lines as soon as its text is there, which is too early when it cannot be cut:
`failed_read`.
-/

namespace JournalScript

namespace Storage

variable {t : Tree} {host : Host} {p : Path} {encoding : Text} {fault : Fault}

/-- A plain file is not read because of the file, of the encoding, or of the bytes. -/
theorem readPlain_error (h : readPlain t host p encoding = .error fault) :
    (∃ e, fault = .access e) ∨ fault.isEncoding = true ∨
      ∃ message, fault = .undecodable message := by
  rw [readPlain] at h
  split at h
  · cases h
    exact .inr (.inl rfl)
  split at h
  · cases h
    exact .inl ⟨_, rfl⟩
  rename_i content _
  rw [decodeNamed] at h
  split at h
  · rename_i hcodec
    cases h
    exact .inr (.inl (isEncoding_of_codecNamed hcodec))
  rename_i codec _
  cases hdecode : codec.decode content with
  | error message =>
    rw [hdecode] at h
    cases h
    exact .inr (.inr ⟨_, rfl⟩)
  | ok text =>
    rw [hdecode] at h
    cases h

theorem readPlain_ne_emptySeparator : readPlain t host p encoding ≠ .error .emptySeparator := by
  intro h
  rcases readPlain_error h with ⟨e, hfault⟩ | hfault | ⟨message, hfault⟩ <;> cases hfault

end Storage

namespace Document

variable {d : Document} {t : Tree} {host : Host} {filename text : Text} {fault : Fault}

/-- Why a file gives a document no lines. -/
inductive Unread (d : Document) (t : Tree) (host : Host) (filename : Text) : Fault → Prop where
  | text {fault : Fault}
      (h : Storage.readPlain t host (Path.ofText filename) d.layout.encoding = .error fault) :
      Unread d t host filename fault
  | lines {text : Text} (hsep : d.layout.lineSeparator = [])
      (h : Storage.readPlain t host (Path.ofText filename) d.layout.encoding = .ok text) :
      Unread d t host filename .emptySeparator

theorem unread_emptySeparator_iff : Unread d t host filename .emptySeparator ↔
    d.layout.lineSeparator = [] ∧
      ∃ text, Storage.readPlain t host (Path.ofText filename) d.layout.encoding = .ok text := by
  constructor
  · intro h
    cases h with
    | text h => exact absurd h Storage.readPlain_ne_emptySeparator
    | lines hsep h => exact ⟨hsep, _, h⟩
  · rintro ⟨hsep, text, h⟩
    exact .lines hsep h

theorem parseText_of_eq_nil (hsep : d.layout.lineSeparator = []) (text : Text)
    (source : Option Text) : d.parseText text source = .fail d .emptySeparator := by
  rw [parseText, parseLines?, if_pos hsep]

theorem parseText_error_iff {source : Option Text} :
    (d.parseText text source).result = .error fault ↔
      d.layout.lineSeparator = [] ∧ fault = .emptySeparator := by
  by_cases hsep : d.layout.lineSeparator = []
  · simp [parseText_of_eq_nil hsep, Reply.fail, hsep, eq_comm]
  · obtain ⟨events, hparse⟩ := parseText_of_ne_nil hsep text source
    simp [hparse, hsep]

theorem load_of_unread (h : Unread d t host filename fault) :
    d.load t host filename = .fail d fault := by
  cases h with
  | text h => exact load_of_error h
  | lines hsep h =>
    rw [load, h]
    exact parseText_of_eq_nil hsep _ _

theorem openFile_of_unread (h : Unread d t host filename fault) :
    d.openFile t host filename = .fail (if fault = .emptySeparator then d.clear else d) fault := by
  cases h with
  | text h =>
    rw [if_neg fun hfault => Storage.readPlain_ne_emptySeparator (hfault ▸ h)]
    exact openFile_of_error h
  | lines hsep h =>
    rw [if_pos rfl, openFile, h]
    dsimp only
    -- The text is cut for the document that has been cleared, whose separator is the same.
    rw [parseText_of_eq_nil (d := d.clear) hsep]
    rfl

theorem unread_or_read (d : Document) (t : Tree) (host : Host) (filename : Text) :
    (∃ fault, Unread d t host filename fault) ∨ d.layout.lineSeparator ≠ [] ∧
      ∃ text, Storage.readPlain t host (Path.ofText filename) d.layout.encoding = .ok text := by
  cases hread : Storage.readPlain t host (Path.ofText filename) d.layout.encoding with
  | error fault => exact .inl ⟨fault, .text hread⟩
  | ok text =>
    by_cases hsep : d.layout.lineSeparator = []
    · exact .inl ⟨_, .lines hsep hread⟩
    · exact .inr ⟨hsep, text, rfl⟩

theorem unread_of_load (h : (d.load t host filename).result = .error fault) :
    Unread d t host filename fault := by
  rcases unread_or_read d t host filename with ⟨found, hunread⟩ | ⟨hsep, text, hread⟩
  · rw [load_of_unread hunread] at h
    cases h
    exact hunread
  · obtain ⟨events, hload⟩ := load_of_readPlain hsep hread
    rw [hload] at h
    cases h

theorem unread_of_openFile (h : (d.openFile t host filename).result = .error fault) :
    Unread d t host filename fault := by
  rcases unread_or_read d t host filename with ⟨found, hunread⟩ | ⟨hsep, text, hread⟩
  · rw [openFile_of_unread hunread] at h
    cases h
    exact hunread
  · obtain ⟨events, hopen⟩ := openFile_of_readPlain hsep hread
    rw [hopen] at h
    cases h

/-- A document that no lines could be read into is as it was, and nothing is reported, with one
exception: a file that has been read but cannot be cut into lines leaves the document empty and
without a name when it was to be opened. -/
theorem failed_read (d : Document) (t : Tree) (host : Host) (fault : Fault) :
    (∀ text source, (d.parseText text source).result = .error fault →
      d.parseText text source = .fail d fault) ∧
    (∀ filename, (d.load t host filename).result = .error fault →
      d.load t host filename = .fail d fault) ∧
    ∀ filename, (d.openFile t host filename).result = .error fault →
      d.openFile t host filename = .fail (if fault = .emptySeparator then d.clear else d) fault ∧
      (fault = .emptySeparator ↔ d.layout.lineSeparator = [] ∧ ∃ text,
        Storage.readPlain t host (Path.ofText filename) d.layout.encoding = .ok text) := by
  refine ⟨fun text source h => ?_, fun filename h => load_of_unread (unread_of_load h),
    fun filename h => ?_⟩
  · obtain ⟨hsep, rfl⟩ := parseText_error_iff.mp h
    exact parseText_of_eq_nil hsep text source
  · have hunread := unread_of_openFile h
    refine ⟨openFile_of_unread hunread, ?_⟩
    rw [← unread_emptySeparator_iff]
    refine ⟨fun hfault => hfault ▸ hunread, fun hcut => ?_⟩
    have hfail := openFile_of_unread hcut
    rw [hfail] at h
    cases h
    rfl

/-- A file that is not there and a directory are opened, and a file is loaded, with an empty
separator. -/
theorem failed_read_missing :
    let t : Tree := ⟨[(["a".toList], .file [120]), (["d".toList], .directory)]⟩
    let layout : Layout := ⟨[], [], false, "utf-8".toList⟩
    let d : Document := ⟨"a".toList, [.raw ['x']], layout, .unrestricted, []⟩
    (d.openFile t (.plain []) "b".toList).state = d ∧ (d.openFile t (.plain []) "d".toList).state = d ∧
      (d.load t (.plain []) "a".toList).state = d ∧ (d.parseText ['y'] none).state = d := by
  intro t layout d
  have hmissing : (d.openFile t (.plain []) "b".toList).result =
      .error (.access (.failed .missing "b".toList)) := rfl
  have hdirectory : (d.openFile t (.plain []) "d".toList).result =
      .error (.access (.failed .isDirectory "d".toList)) := rfl
  have hload : (d.load t (.plain []) "a".toList).result = .error .emptySeparator := rfl
  have htext : (d.parseText ['y'] none).result = .error .emptySeparator := rfl
  refine ⟨?_, ?_, ?_, ?_⟩
  · rw [((failed_read d t (.plain []) _).2.2 _ hmissing).1]; rfl
  · rw [((failed_read d t (.plain []) _).2.2 _ hdirectory).1]; rfl
  · rw [(failed_read d t (.plain []) _).2.1 _ hload]; rfl
  · rw [(failed_read d t (.plain []) _).1 _ _ htext]; rfl

/-- A file that is opened with an empty separator costs the document its lines and its name. -/
theorem failed_read_clears :
    let t : Tree := ⟨[(["a".toList], .file [120])]⟩
    let layout : Layout := ⟨[], [], false, "utf-8".toList⟩
    let d : Document := ⟨"a".toList, [.raw ['x']], layout, .unrestricted, []⟩
    (d.openFile t (.plain []) "a".toList).result = .error .emptySeparator ∧
      (d.openFile t (.plain []) "a".toList).state.lines = [] ∧
      (d.openFile t (.plain []) "a".toList).state.filename = [] :=
  ⟨rfl, rfl, rfl⟩

end Document
end JournalScript
