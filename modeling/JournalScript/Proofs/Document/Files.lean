import JournalScript.Document.Files
import JournalScript.Proofs.Storage

/-!
# JournalScript.Proofs.Document.Files

What a document does with files, one equation for each outcome.

A document whose lines can be cut takes every text that it is given (`parseText_of_ne_nil`). So
loading and opening fail only in reading, and then nothing has happened yet (`load_of_readPlain`,
`openFile_of_readPlain`, and `load_of_error`, `openFile_of_error` for what cannot be read).
-/

namespace JournalScript
namespace Document

open Text

variable {d : Document} {t : Tree} {host : Host} {filename text : Text}

def linesOf (layout : Layout) (filter : NameFilter) (text : Text) : List Line :=
  (split layout.lineSeparator text).map (Line.parse filter)

theorem parseLines?_of_ne_nil {layout : Layout} (hsep : layout.lineSeparator ≠ [])
    (filter : NameFilter) (text : Text) :
    parseLines? layout filter text = some (linesOf layout filter text) := if_neg hsep

theorem parseText_of_ne_nil (hsep : d.layout.lineSeparator ≠ []) (text : Text)
    (source : Option Text) : ∃ events, d.parseText text source =
      ⟨{ d with lines := d.lines ++ linesOf d.layout d.filter text }, events, .ok ()⟩ := by
  rw [parseText, parseLines?_of_ne_nil hsep]
  exact ⟨_, rfl⟩

theorem load_of_error {fault : Fault}
    (h : Storage.readPlain t host (Path.ofText filename) d.layout.encoding = .error fault) :
    d.load t host filename = .fail d fault := by
  rw [load, h]

theorem load_of_readPlain (hsep : d.layout.lineSeparator ≠ [])
    (h : Storage.readPlain t host (Path.ofText filename) d.layout.encoding = .ok text) :
    ∃ events, d.load t host filename =
      ⟨{ d with lines := d.lines ++ linesOf d.layout d.filter text }, events, .ok ()⟩ := by
  rw [load, h]
  exact parseText_of_ne_nil hsep text _

theorem openFile_of_error {fault : Fault}
    (h : Storage.readPlain t host (Path.ofText filename) d.layout.encoding = .error fault) :
    d.openFile t host filename = .fail d fault := by
  rw [openFile, h]

theorem openFile_of_readPlain (hsep : d.layout.lineSeparator ≠ [])
    (h : Storage.readPlain t host (Path.ofText filename) d.layout.encoding = .ok text) :
    ∃ events, d.openFile t host filename =
      ⟨⟨filename, linesOf d.layout d.filter text, d.layout, d.filter, []⟩, events, .ok ()⟩ := by
  obtain ⟨events, hparse⟩ := parseText_of_ne_nil (d := d.clear) hsep text
    (some (Path.ofText filename).toText)
  refine ⟨events, ?_⟩
  rw [openFile, h]
  dsimp only
  rw [hparse]
  rfl

/-! ## Saving -/

/-- A document that was saved is in its file, and no other file has changed. -/
theorem saveAs_ok {name : Text} (h : (d.saveAs t host name).result = .ok ()) :
    ∃ codec bs loc, Storage.codecNamed host d.layout.encoding = .ok codec ∧
      codec.encode d.render = .ok bs ∧
      (d.saveAs t host name).state.locate host.cwd .look (Path.ofText name) =
        .ok (.found loc (.file bs)) ∧
      ∀ l, l ≠ loc → (d.saveAs t host name).state.get? l = t.get? l := by
  rw [saveAs] at h ⊢
  split at h
  · cases h
  · rename_i written hwrite
    exact Storage.writePlain_spec hwrite

/-- With an encoding that is known, saving fails where the file cannot be opened, because of a
character that the encoding lacks, or because the host breaks the writing off. -/
theorem saveAs_error {name : Text} {codec : Codec} {fault : Fault}
    (hcodec : Storage.codecNamed host d.layout.encoding = .ok codec)
    (hnull : (Path.ofText name).hasNull = false)
    (h : (d.saveAs t host name).result = .error fault) :
    (∃ kind path, fault = .access (.failed kind path)) ∨
      (∃ message, codec.encode d.render = .error message ∧ fault = .unencodable message) ∨
      ∃ left reason, host.writing = .broken left reason ∧ fault = .unwritten reason := by
  rw [saveAs, Storage.writePlain_of_codecNamed hcodec] at h
  cases hopen : t.openForWriting host.cwd (Path.ofText name) with
  | error e =>
    rw [hopen] at h
    cases h
    obtain ⟨kind, path, rfl⟩ := Tree.failed_of_openForWriting hnull hopen
    exact .inl ⟨kind, path, rfl⟩
  | ok place =>
    obtain ⟨content, result, hwrite, hfilled⟩ :=
      Storage.writeOpened_filled host id place.1 place.2 codec d.render
    simp only [hopen, hwrite] at h
    cases hfilled with
    | written hbs hhost => cases h
    | unencodable hencode =>
      cases h
      exact .inr (.inl ⟨_, hencode, rfl⟩)
    | broken hhost =>
      cases h
      exact .inr (.inr ⟨_, _, hhost, rfl⟩)

end Document
end JournalScript
