import JournalScript.Proofs.Encoding
import JournalScript.Proofs.Gzip
import JournalScript.Proofs.Tree.Directories
import JournalScript.Storage

/-!
# JournalScript.Proofs.Storage

Journals in files, written and read.

What can become of a file once it is open is said once (`Filled`, `writeOpened_filled`): it holds the
packed text, or what is left where the text has no bytes or the host has broken the writing off.

* `readJournal_writeJournal`: a text that was written is read back, from a plain file and from a
  compressed one, in any of the encodings that are defined here.
* `writeJournal_spec`: writing either fails and leaves the tree as it was, or changes nothing but the
  file and the missing directories above it (`Written`). Only a name that is too long can make it
  fail halfway, and only a writing that breaks off after the file was opened.
* `writeJournal_of_locate`: where a file is, or nothing is in a directory, writing succeeds if the
  host writes everything.
-/

namespace JournalScript
namespace Storage

open JournalScript.Tree

variable {t opened written : Tree} {host : Host} {p : Path} {loc : Location}
  {encoding text : Text} {codec : Codec} {bs : Bytes}

def fileContent (p : Path) (bs : Bytes) : Bytes := if p.isCompressed then Gzip.compress bs else bs

/-! ## Codecs -/

theorem hasNullName_of_codecNamed (h : codecNamed host encoding = .ok codec) :
    hasNullName encoding = false := by
  cases hnull : hasNullName encoding with
  | false => rfl
  | true => simp [codecNamed, hnull] at h

theorem codecNamed_utf8 : codecNamed host "utf-8".toList = .ok Encoding.utf8.codec := rfl

/-- No codec of the host stands in for an encoding that is defined here. -/
theorem eq_codec_of_ofName? {own : Encoding} (hown : Encoding.ofName? encoding = some own)
    (h : codecNamed host encoding = .ok codec) : codec = own.codec := by
  rw [codecNamed, hasNullName_of_codecNamed h, hown] at h
  exact (Except.ok.inj h).symm

/-! ## What becomes of an open file -/

theorem fill_of_complete (h : host.writing = .complete) (content : Bytes) :
    fill host opened loc content = (opened.set loc (.file content), .ok ()) := by
  rw [fill, h]

theorem fill_of_broken {left : Bytes} {reason : Text} (h : host.writing = .broken left reason)
    (content : Bytes) :
    fill host opened loc content =
      (opened.set loc (.file left), .error (.unwritten reason)) := by
  rw [fill, h]

/-- What a file holds after a text was to be written into it, and what that has come to. -/
inductive Filled (host : Host) (pack : Bytes → Bytes) (codec : Codec) (text : Text) :
    Bytes → Except Fault Unit → Prop where
  | written {bs : Bytes} (hbs : codec.encode text = .ok bs) (hhost : host.writing = .complete) :
      Filled host pack codec text (pack bs) (.ok ())
  | unencodable {message : Text} (h : codec.encode text = .error message) :
      Filled host pack codec text (pack []) (.error (.unencodable message))
  | broken {left : Bytes} {reason : Text} (hhost : host.writing = .broken left reason) :
      Filled host pack codec text left (.error (.unwritten reason))

theorem writeOpened_filled (host : Host) (pack : Bytes → Bytes) (opened : Tree) (loc : Location)
    (codec : Codec) (text : Text) : ∃ content result,
      writeOpened host pack opened loc codec text = (opened.set loc (.file content), result) ∧
        Filled host pack codec text content result := by
  rw [writeOpened]
  cases hhost : host.writing with
  | complete =>
    cases hbs : codec.encode text with
    | ok bs => exact ⟨_, _, fill_of_complete hhost _, .written hbs hhost⟩
    | error message =>
      simp only [fill_of_complete hhost]
      exact ⟨_, _, rfl, .unencodable hbs⟩
  | broken left reason =>
    refine ⟨left, .error (.unwritten reason), ?_, .broken hhost⟩
    cases codec.encode text <;> simp only [fill_of_broken hhost]

theorem writeOpened_ok {pack : Bytes → Bytes}
    (h : writeOpened host pack opened loc codec text = (written, .ok ())) :
    host.writing = .complete ∧ ∃ bs, codec.encode text = .ok bs := by
  obtain ⟨content, result, heq, hfilled⟩ := writeOpened_filled host pack opened loc codec text
  obtain ⟨rfl, rfl⟩ := Prod.mk.inj (heq.symm.trans h)
  cases hfilled with
  | written hbs hhost => exact ⟨hhost, _, hbs⟩

/-! ## What writing does -/

/-- With an encoding that is known, writing a plain file fails in opening it or once it is open. -/
theorem writePlain_of_codecNamed (hcodec : codecNamed host encoding = .ok codec) :
    writePlain t host p encoding text =
      match t.openForWriting host.cwd p with
      | .error e => (t, .error (.access e))
      | .ok (opened, loc) => writeOpened host id opened loc codec text := by
  rw [writePlain, hasNullName_of_codecNamed hcodec]
  cases t.openForWriting host.cwd p with
  | error e => rfl
  | ok opened => simp [hcodec]

/-- Writing a text that its encoding can encode: all is decided by the tree and the host. -/
theorem writePlain_of_encode (hcodec : codecNamed host encoding = .ok codec)
    (hbs : codec.encode text = .ok bs) :
    writePlain t host p encoding text =
      match t.openForWriting host.cwd p with
      | .error e => (t, .error (.access e))
      | .ok (opened, loc) => fill host opened loc bs := by
  rw [writePlain_of_codecNamed hcodec]
  cases t.openForWriting host.cwd p with
  | error e => rfl
  | ok opened => simp [writeOpened, hbs]

theorem writeJournal_of_encode (hcodec : codecNamed host encoding = .ok codec)
    (hbs : codec.encode text = .ok bs) :
    writeJournal t host p encoding text =
      match t.ensureDirectory host.cwd p.parent with
      | (made, .error e) => (made, .error (.access e))
      | (made, .ok ()) =>
        match made.openForWriting host.cwd p with
        | .error e => (made, .error (.access e))
        | .ok (opened, loc) => fill host opened loc (fileContent p bs) := by
  rw [writeJournal]
  rcases t.ensureDirectory host.cwd p.parent with ⟨made, e | _⟩
  · rfl
  cases hcompressed : p.isCompressed with
  | true =>
    simp only [if_true, writeCompressed]
    cases made.openForWriting host.cwd p with
    | error e => rfl
    | ok opened => simp [hcodec, writeOpened, hbs, fileContent, hcompressed]
  | false =>
    simp only [Bool.false_eq_true, if_false, writePlain_of_encode hcodec hbs, fileContent,
      hcompressed]

theorem encode_of_writePlain (h : writePlain t host p encoding text = (written, .ok ())) :
    host.writing = .complete ∧
      ∃ codec bs, codecNamed host encoding = .ok codec ∧ codec.encode text = .ok bs := by
  rw [writePlain] at h
  split at h
  · cases h
  split at h
  · cases h
  split at h
  · cases h
  · rename_i codec hcodec
    obtain ⟨hhost, bs, hbs⟩ := writeOpened_ok h
    exact ⟨hhost, codec, bs, hcodec, hbs⟩

theorem encode_of_writeJournal (h : writeJournal t host p encoding text = (written, .ok ())) :
    host.writing = .complete ∧
      ∃ codec bs, codecNamed host encoding = .ok codec ∧ codec.encode text = .ok bs := by
  rw [writeJournal] at h
  split at h
  · cases h
  split at h
  · rw [writeCompressed] at h
    split at h
    · cases h
    split at h
    · cases h
    · rename_i codec hcodec
      obtain ⟨hhost, bs, hbs⟩ := writeOpened_ok h
      exact ⟨hhost, codec, bs, hcodec, hbs⟩
  · exact encode_of_writePlain h

/-! ## What reading needs -/

theorem contentOf_eq_ok_iff {cwd : Location} : t.contentOf cwd p = .ok bs ↔
    p.hasNull = false ∧ ∃ loc, t.locate cwd .look p = .ok (.found loc (.file bs)) := by
  rw [contentOf]
  split
  · rename_i hnull
    simp [hnull]
  · rename_i hnull
    simp only [Bool.not_eq_true] at hnull
    cases t.locate cwd .look p with
    | error kind => simp
    | ok place =>
      cases place with
      | vacant loc => simp
      | found loc node => cases node <;> simp [hnull]

theorem decodeNamed_eq_ok_iff : decodeNamed host encoding bs = .ok text ↔
    ∃ codec, codecNamed host encoding = .ok codec ∧ codec.decode bs = .ok text := by
  rw [decodeNamed]
  cases codecNamed host encoding with
  | error fault => simp
  | ok codec => simp [mapError_eq_ok_iff]

theorem readPlain_eq_ok_iff : readPlain t host p encoding = .ok text ↔
    ∃ codec bs, codecNamed host encoding = .ok codec ∧ t.contentOf host.cwd p = .ok bs ∧
      codec.decode bs = .ok text := by
  rw [readPlain]
  split
  · rename_i hnull
    simp [codecNamed, hnull]
  · cases t.contentOf host.cwd p with
    | error e => simp
    | ok bs => simp [decodeNamed_eq_ok_iff]

theorem readJournal_of_not_compressed (h : p.isCompressed = false) :
    readJournal t host p encoding = .ok text ↔ readPlain t host p encoding = .ok text := by
  constructor
  · intro hread
    rw [readJournal] at hread
    split at hread
    · cases hread
    · cases hread
    · simpa [h] using hread
  · intro hread
    obtain ⟨codec, bs, -, hcontent, -⟩ := readPlain_eq_ok_iff.mp hread
    obtain ⟨hnull, loc, hfound⟩ := contentOf_eq_ok_iff.mp hcontent
    have hfile : t.isFile host.cwd p = .ok true := by simp [isFile, lookAt, hnull, hfound]
    rw [readJournal, hfile]
    simpa [h] using hread

theorem readJournal_of_holds {content : Bytes} (hnull : p.hasNull = false)
    (h : t.Holds host.cwd p content) :
    readJournal t host p encoding =
      if p.isCompressed then decodeCompressed host encoding content
      else decodeNamed host encoding content := by
  have hcontent : t.contentOf host.cwd p = .ok content := contentOf_eq_ok_iff.mpr ⟨hnull, h⟩
  rw [readJournal, isFile_eq_true_iff.mpr ⟨hnull, content, h⟩]
  simp only [hcontent, readPlain]
  cases hname : hasNullName encoding with
  | true => simp [decodeNamed, codecNamed, hname]
  | false => simp

/-! ## Reading back -/

theorem readJournal_of_content (hnull : p.hasNull = false)
    (hcodec : codecNamed host encoding = .ok codec) (hdecode : codec.decode bs = .ok text)
    (hfound : t.locate host.cwd .look p = .ok (.found loc (.file (fileContent p bs)))) :
    readJournal t host p encoding = .ok text := by
  have hread : decodeNamed host encoding bs = .ok text :=
    decodeNamed_eq_ok_iff.mpr ⟨codec, hcodec, hdecode⟩
  rw [readJournal_of_holds hnull ⟨loc, hfound⟩, fileContent]
  split
  · simpa [decodeCompressed, hcodec, Gzip.decompress_compress] using hread
  · exact hread

theorem locate_written {cwd : Location} {content : Bytes}
    (h : t.openForWriting cwd p = .ok (opened, loc)) :
    (opened.set loc (.file content)).locate cwd .look p = .ok (.found loc (.file content)) := by
  obtain ⟨rfl, place, hlocate, rfl, hplace⟩ := place_of_openForWriting h
  have hne := (locate_eq_ok_iff.mp hlocate).2.location_ne_nil hplace
  exact locate_of_opened h (get?_set_self hne) fun l hl => by
    rw [get?_set_of_ne hl, get?_set_of_ne hl]

/-- Of a tree in which a file was opened and filled, only that file is another. -/
theorem get?_filled {cwd l : Location} {content : Bytes}
    (h : t.openForWriting cwd p = .ok (opened, loc)) (hl : l ≠ loc) :
    (opened.set loc (.file content)).get? l = t.get? l := by
  rw [get?_set_of_ne hl, (place_of_openForWriting h).1, get?_set_of_ne hl]

theorem writePlain_spec (h : writePlain t host p encoding text = (written, .ok ())) :
    ∃ codec bs loc, codecNamed host encoding = .ok codec ∧ codec.encode text = .ok bs ∧
      written.locate host.cwd .look p = .ok (.found loc (.file bs)) ∧
      ∀ l, l ≠ loc → written.get? l = t.get? l := by
  obtain ⟨hhost, codec, bs, hcodec, hbs⟩ := encode_of_writePlain h
  rw [writePlain_of_encode hcodec hbs] at h
  split at h
  · cases h
  · rename_i opened loc hopen
    rw [fill_of_complete hhost] at h
    cases h
    exact ⟨codec, bs, loc, hcodec, hbs, locate_written hopen, fun l => get?_filled hopen⟩

theorem locate_of_writeJournal (hcodec : codecNamed host encoding = .ok codec)
    (hbs : codec.encode text = .ok bs)
    (h : writeJournal t host p encoding text = (written, .ok ())) :
    p.hasNull = false ∧
      ∃ loc, written.locate host.cwd .look p = .ok (.found loc (.file (fileContent p bs))) := by
  have hhost := (encode_of_writeJournal h).1
  rw [writeJournal_of_encode hcodec hbs] at h
  split at h
  · cases h
  split at h
  · cases h
  · rename_i made _ _ opened loc hopen
    rw [fill_of_complete hhost] at h
    cases h
    exact ⟨hasNull_of_openForWriting hopen, loc, locate_written hopen⟩

theorem readJournal_writeJournal {own : Encoding} (hown : Encoding.ofName? encoding = some own)
    (h : writeJournal t host p encoding text = (written, .ok ())) :
    readJournal written host p encoding = .ok text := by
  obtain ⟨-, codec, bs, hcodec, hbs⟩ := encode_of_writeJournal h
  obtain ⟨hnull, loc, hfound⟩ := locate_of_writeJournal hcodec hbs h
  obtain rfl := eq_codec_of_ofName? hown hcodec
  exact readJournal_of_content hnull hcodec (Encoding.decode_encode_codec hbs) hfound

/-! ## What writing leaves alone -/

variable {made : Tree} {cwd : Location}

/-- The tree with a file, and with new directories above it where there were none. -/
structure Written (t written : Tree) (loc : Location) (content : Bytes) : Prop where
  file : written.get? loc = some (.file content)
  before : ∀ node, t.get? loc = some node → ∃ old, node = .file old
  frame : ∀ l, l ≠ loc → written.get? l = t.get? l ∨
    (t.get? l = none ∧ written.get? l = some .directory ∧ l <+: loc)

theorem written_of_opened (content : Bytes)
    (h : t.openForWriting cwd p = .ok (opened, loc)) :
    Written t (opened.set loc (.file content)) loc content := by
  obtain ⟨rfl, place, hlocate, rfl, hplace⟩ := place_of_openForWriting h
  have hleads := (locate_eq_ok_iff.mp hlocate).2
  refine ⟨get?_set_self (hleads.location_ne_nil hplace), ?_, ?_⟩
  · intro node hnode
    exact hplace node (by rw [← hleads.get?_location, hnode])
  · intro l hl
    exact .inl (by rw [get?_set_of_ne hl, get?_set_of_ne hl])

theorem written_of_grown {name : Text} (content : Bytes)
    (hgrown : Grown t made loc)
    (h : made.openForWriting cwd p = .ok (opened, loc ++ [name])) :
    Written t (opened.set (loc ++ [name]) (.file content)) (loc ++ [name]) content := by
  have hwritten := written_of_opened content h
  refine ⟨hwritten.file, ?_, ?_⟩
  · intro node hnode
    rw [hgrown.vacant_below] at hnode
    cases hnode
  · intro l hl
    rcases hwritten.frame l hl with heq | ⟨hnone, hdir, hpre⟩
    · rw [heq]
      rcases hgrown.frame l with heq' | ⟨hnone, hdir, hpre⟩
      · exact .inl heq'
      · exact .inr ⟨hnone, hdir, hpre.trans (List.prefix_append _ _)⟩
    · rcases hgrown.frame l with heq' | ⟨-, hdir', -⟩
      · exact .inr ⟨by rw [← heq', hnone], hdir, hpre⟩
      · rw [hnone] at hdir'
        cases hdir'

theorem exists_name_of_grownTo (habs : p.isAbsolute = true)
    (h : GrownTo t made cwd p.parent) : ∃ names name, p = ⟨p.anchor, names ++ [name]⟩ := by
  obtain ⟨anchor, parts⟩ := p
  rcases List.eq_nil_or_concat parts with rfl | ⟨names, name, rfl⟩
  · obtain ⟨loc, hgrown, hleads⟩ := h
    have hroot : startOf cwd (Path.parent ⟨anchor, []⟩) = [] := if_pos habs
    rw [hroot] at hleads
    cases hleads
    have := hgrown.vacant
    cases this
  · exact ⟨names, name, by simp⟩

theorem openForWriting_of_grown_parent (habs : p.isAbsolute = true)
    (hproper : ∀ name ∈ p.parts, Path.IsProper name) (hnull : p.hasNull = false)
    (h : GrownTo t made cwd p.parent) :
    (∃ opened loc name, Grown t made loc ∧
        made.openForWriting cwd p = .ok (opened, loc ++ [name])) ∨
      ∃ path, made.openForWriting cwd p = .error (.failed .nameTooLong path) := by
  obtain ⟨names, name, hp⟩ := exists_name_of_grownTo habs h
  rw [hp] at h hproper hnull ⊢
  rw [Path.parent, List.dropLast_concat] at h
  rcases openForWriting_grown h (hproper name (by simp)) hnull with
    ⟨opened, loc, hgrown, hopen⟩ | hlong
  · exact .inl ⟨opened, loc, name, hgrown, hopen⟩
  · exact .inr hlong

theorem written_of_ensured (content : Bytes) (habs : p.isAbsolute = true)
    (hproper : ∀ name ∈ p.parts, Path.IsProper name)
    (hensured : made = t ∨ GrownTo t made cwd p.parent)
    (hopen : made.openForWriting cwd p = .ok (opened, loc)) :
    Written t (opened.set loc (.file content)) loc content := by
  rcases hensured with rfl | hgrown
  · exact written_of_opened content hopen
  · have hnull := hasNull_of_openForWriting hopen
    rcases openForWriting_of_grown_parent habs hproper hnull hgrown with
      ⟨opened', loc', name, hgrown', hopen'⟩ | ⟨path, hlong⟩
    · rw [hopen] at hopen'
      cases hopen'
      exact written_of_grown content hgrown' hopen
    · rw [hopen] at hlong
      cases hlong

/-- In a new directory a file can be opened, but for a name that is too long. -/
theorem eq_or_nameTooLong_of_openForWriting {e : AccessError} (habs : p.isAbsolute = true)
    (hproper : ∀ name ∈ p.parts, Path.IsProper name) (hnull : p.hasNull = false)
    (hensured : made = t ∨ GrownTo t made cwd p.parent)
    (hopen : made.openForWriting cwd p = .error e) :
    made = t ∨ ∃ path, e = .failed .nameTooLong path := by
  rcases hensured with rfl | hgrown
  · exact .inl rfl
  rcases openForWriting_of_grown_parent habs hproper hnull hgrown with
    ⟨opened', loc', name, -, hopen'⟩ | ⟨path, hlong⟩
  · rw [hopen] at hopen'
    cases hopen'
  · rw [hopen] at hlong
    cases hlong
    exact .inr ⟨path, rfl⟩

/-- Writing a text to the path of a journal: all or nothing, but for names that are too long, and for
a writing that breaks off, which costs no more than the file. -/
theorem writeJournal_spec (hwf : t.WellFormed) (hcodec : codecNamed host encoding = .ok codec)
    (hbs : codec.encode text = .ok bs) (habs : p.isAbsolute = true)
    (hproper : ∀ name ∈ p.parts, Path.IsProper name) (hnull : p.hasNull = false)
    {r : Except Fault Unit} (h : writeJournal t host p encoding text = (written, r)) :
    (r = .ok () ∧ ∃ loc, Written t written loc (fileContent p bs) ∧
        written.locate host.cwd .look p = .ok (.found loc (.file (fileContent p bs)))) ∨
      (∃ e, r = .error (.access e) ∧ (written = t ∨ ∃ path, e = .failed .nameTooLong path)) ∨
      ∃ left reason loc, host.writing = .broken left reason ∧ r = .error (.unwritten reason) ∧
        Written t written loc left ∧
        written.locate host.cwd .look p = .ok (.found loc (.file left)) := by
  have hproper' : ∀ name ∈ p.parent.parts, Path.IsProper name := fun name hname =>
    hproper name ((List.dropLast_sublist _).subset hname)
  rw [writeJournal_of_encode hcodec hbs] at h
  rcases hensure : t.ensureDirectory host.cwd p.parent with ⟨made, e | _⟩
  · rw [hensure] at h
    cases h
    refine .inr (.inl ⟨e, rfl, ?_⟩)
    rcases ensureDirectory_spec hwf hproper' hensure with rfl | ⟨hok, -⟩ | ⟨path, hlong⟩
    · exact .inl rfl
    · cases hok
    · cases hlong
      exact .inr ⟨path, rfl⟩
  have hensured : made = t ∨ GrownTo t made host.cwd p.parent := by
    rcases ensureDirectory_spec hwf hproper' hensure with rfl | ⟨-, hgrown⟩ | ⟨path, hlong⟩
    · exact .inl rfl
    · exact .inr hgrown
    · cases hlong
  rw [hensure] at h
  simp only at h
  cases hopen : made.openForWriting host.cwd p with
  | error e =>
    rw [hopen] at h
    cases h
    refine .inr (.inl ⟨e, rfl, ?_⟩)
    rcases eq_or_nameTooLong_of_openForWriting habs hproper hnull hensured hopen with rfl | hlong
    · exact .inl rfl
    · exact .inr hlong
  | ok opened =>
    obtain ⟨opened, loc⟩ := opened
    rw [hopen] at h
    have hwritten := fun content => written_of_ensured content habs hproper hensured hopen
    cases hhost : host.writing with
    | complete =>
      simp only [fill_of_complete hhost] at h
      cases h
      exact .inl ⟨rfl, loc, hwritten _, locate_written hopen⟩
    | broken left reason =>
      simp only [fill_of_broken hhost] at h
      cases h
      exact .inr (.inr ⟨left, reason, loc, rfl, rfl, hwritten _, locate_written hopen⟩)

/-! ## What can be written -/

theorem writeJournal_of_locate {place : Place} (hhost : host.writing = .complete)
    (habs : p.isAbsolute = true) (hnull : p.hasNull = false)
    (hcodec : codecNamed host encoding = .ok codec) (hbs : codec.encode text = .ok bs)
    (hlocate : t.locate host.cwd .write p = .ok place) (hplace : place.Writable) :
    ∃ written, writeJournal t host p encoding text = (written, .ok ()) := by
  have hstart : t.get? (startOf host.cwd p) = some .directory := by
    rw [startOf, if_pos habs, get?_nil]
  have hensure := ensureDirectory_of_writable hstart hnull hlocate hplace
  rw [writeJournal_of_encode hcodec hbs, hensure]
  simp only [openForWriting_of_locate hnull hlocate hplace, fill_of_complete hhost]
  exact ⟨_, rfl⟩

theorem file_of_readJournal (h : readJournal t host p encoding = .ok text) :
    ∃ loc content, t.locate host.cwd .look p = .ok (.found loc (.file content)) := by
  have hfile : t.isFile host.cwd p = .ok true := by
    rw [readJournal] at h
    split at h
    · cases h
    · cases h
    · assumption
  obtain ⟨-, content, loc, hfound⟩ := isFile_eq_true_iff.mp hfile
  exact ⟨loc, content, hfound⟩

theorem locate_of_readJournal (h : readJournal t host p encoding = .ok text) :
    ∃ place, t.locate host.cwd .write p = .ok place ∧ place.Writable := by
  obtain ⟨loc, content, hfound⟩ := file_of_readJournal h
  obtain ⟨hshort, hleads⟩ := locate_eq_ok_iff.mp hfound
  refine ⟨_, locate_eq_ok_iff.mpr ⟨hshort, hleads.write⟩, fun node hnode => ?_⟩
  cases hnode
  exact ⟨content, rfl⟩

end Storage
end JournalScript
