import JournalScript.Document.Files
import JournalScript.Proofs.Layout
import JournalScript.Proofs.Line.Grouping
import JournalScript.Proofs.Storage

/-!
# JournalScript.Proofs.Document.Reload

Storing a document and fetching it again.

`fetch_store`: whatever the lines, the encoding and the kind of file, a document that was stored can
be fetched, and it has the same lines exactly when no line holds the separator and every line is read
from its own text. `map_parse_split_eq_iff` is that equivalence for the text alone: a line with a
separator in it makes more lines of the text than there were, and no other line can make up for it.
-/

namespace JournalScript
namespace Document

open Text

def kept (d : Document) : List Line := d.lines.filter (keeps d.layout)

theorem render_eq_join (d : Document) :
    d.render = join d.layout.outputSeparator (d.kept.map Line.literal) := rfl

/-- Lines that are joined and cut come back exactly when each of them does, and alone. -/
theorem map_parse_split_eq_iff {sep : Text} (hsep : Unbordered sep) (f : NameFilter)
    {lines : List Line} (hne : lines ≠ []) :
    (split sep (join sep (lines.map Line.literal))).map (Line.parse f) = lines ↔
      (∀ l ∈ lines, ¬ sep <:+: l.literal) ∧ ∀ l ∈ lines, Line.parse f l.literal = l := by
  have hne' : lines.map Line.literal ≠ [] := by simpa using hne
  have hself : (∀ l ∈ lines, Line.parse f l.literal = l) ↔
      (lines.map Line.literal).map (Line.parse f) = lines := by
    rw [List.map_map, map_eq_self_iff]
    rfl
  constructor
  · intro h
    have hlen : (split sep (join sep (lines.map Line.literal))).length =
        (lines.map Line.literal).length := by
      rw [← List.length_map (f := Line.parse f), h, List.length_map]
    have hno := (length_split_join_eq_iff hsep hne').mp hlen
    rw [split_join_of_absent hsep hne' hno] at h
    exact ⟨fun l hl => hno _ (List.mem_map_of_mem hl), hself.mpr h⟩
  · rintro ⟨hno, hparse⟩
    rw [split_join_of_absent hsep hne']
    · exact hself.mp hparse
    · intro p hp
      obtain ⟨l, hl, rfl⟩ := List.mem_map.mp hp
      exact hno l hl

variable {t : Tree} {host : Host} {layout : Layout}

theorem fetch_of_readJournal {filename text : Text} (filter : NameFilter)
    (hsep : layout.lineSeparator ≠ [])
    (h : Storage.readJournal t host (Path.ofText filename) layout.encoding = .ok text) :
    ∃ events, fetch t host layout filter filename =
      (.ok ⟨filename, (split layout.lineSeparator text).map (Line.parse filter), layout, filter, []⟩,
        events) := by
  refine ⟨[.loaded filename (split layout.lineSeparator text).length], ?_⟩
  rw [fetch, h]
  simp [parseText, parseLines?, hsep, new]

theorem writeJournal_of_store {d : Document} {target : Option Text} {p : Path}
    (h : (d.store t host target).result = .ok p) :
    Storage.writeJournal t host (Path.ofText (target.getD d.filename)) d.layout.encoding d.render =
      ((d.store t host target).state, .ok ()) := by
  rw [store] at h ⊢
  dsimp only at h ⊢
  split at h
  · cases h
  rename_i hname
  rw [if_neg hname]
  split at h
  · cases h
  · rename_i written hwrite
    rw [hwrite]

/-- A stored document can be fetched again. A document without lines comes back as one empty line;
any other has the lines that were written exactly when none of them holds the separator and each is
read from its own text. -/
theorem fetch_store (layout : Layout) {d : Document} {target : Option Text} {p : Path}
    {own : Encoding} (hown : Encoding.ofName? d.layout.encoding = some own)
    (hsep : IsLineEnd d.layout.outputSeparator)
    (hline : layout.lineSeparator = d.layout.outputSeparator)
    (hencoding : layout.encoding = d.layout.encoding)
    (h : (d.store t host target).result = .ok p) :
    ∃ read loaded, fetch (d.store t host target).state host layout .unrestricted
        (target.getD d.filename) = (.ok read, loaded) ∧
      (d.kept = [] → read.lines = [.raw []]) ∧
      (d.kept ≠ [] → (read.lines = d.kept ↔
        (∀ l ∈ d.kept, ¬ d.layout.outputSeparator <:+: l.literal) ∧
          ∀ l ∈ d.kept, Line.parse .unrestricted l.literal = l)) := by
  have hread := Storage.readJournal_writeJournal hown (writeJournal_of_store h)
  rw [← hencoding] at hread
  obtain ⟨loaded, hfetch⟩ := fetch_of_readJournal .unrestricted
    (by rw [hline]; exact hsep.ne_nil) hread
  refine ⟨_, loaded, hfetch, fun hnil => ?_, fun hne => ?_⟩
  · rw [render_eq_join, hnil]
    rfl
  · rw [hline, render_eq_join]
    exact map_parse_split_eq_iff hsep.unbordered .unrestricted hne

/-- A compressed journal with an empty line, which is left out, and with parts of the separator
around the separator. -/
theorem fetch_store_compressed :
    let d : Document := ⟨"a.gz".toList, [.raw ['x', '\r'], .raw [], .raw ['\n', 'y']],
      ⟨['\n'], ['\r', '\n'], true, "utf-8".toList⟩, .unrestricted, []⟩
    (d.store Tree.empty (.plain []) none).result = .ok (Path.ofText d.filename) ∧
      ∃ read loaded, fetch (d.store Tree.empty (.plain []) none).state (.plain [])
        ⟨['\r', '\n'], ['\n'], false, "utf-8".toList⟩ .unrestricted d.filename = (.ok read, loaded) ∧
      read.lines = [.raw ['x', '\r'], .raw ['\n', 'y']] := by
  intro d
  have hstore : (d.store Tree.empty (.plain []) none).result = .ok (Path.ofText d.filename) := rfl
  have hown : Encoding.ofName? d.layout.encoding = some .utf8 := rfl
  obtain ⟨read, loaded, hfetch, -, hlines⟩ := fetch_store
    ⟨['\r', '\n'], ['\n'], false, "utf-8".toList⟩ hown .crlf rfl rfl hstore
  exact ⟨hstore, read, loaded, hfetch, (hlines (by decide)).mpr (by decide)⟩

end Document
end JournalScript
