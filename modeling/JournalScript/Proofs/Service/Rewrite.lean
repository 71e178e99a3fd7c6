import JournalScript.Proofs.Document.RoundTrip
import JournalScript.Proofs.Text.Case
import JournalScript.Proofs.Tree.Confine
import JournalScript.Service

/-!
# JournalScript.Proofs.Service.Rewrite

What rewriting a journal does to the files, and what it reports.

All that can fail, but for the writing itself, comes before the writing and changes nothing
(`prepared_or_fail`). So a failed request leaves the files as they were, unless the host has broken
the writing off, and then no file but the target has changed; nor has any other when the request
succeeds: `rewriteJournal_atomic`. `rewriteJournal_roundTrip_iff`: the report
says that the text came back exactly when nothing of it was lost.
-/

namespace JournalScript

/-- A path as confining gives it: from the root, without names that a path text or a file system
would not take. -/
structure Path.IsReal (p : Path) : Prop where
  absolute : p.isAbsolute = true
  proper : ∀ name ∈ p.parts, IsProper name
  spelled : ∀ name ∈ p.parts, IsSpelled name
  no_null : p.hasNull = false

namespace Service

open Text JournalScript.Tree

variable {s : Surroundings} {t : Tree} {r : RewriteRequest}

theorem isReal_confine {path : Value} {p : Path} (hcwd : NoSlash s.cwd)
    (h : confine s t path = .ok p) : p.IsReal := by
  have hconfined : ∃ requested, s.confine t requested = .ok p := by
    unfold confine at h
    split at h
    · cases h
    · split at h
      · cases h
      · rename_i requested _ _ _ hconfine
        cases h
        exact ⟨_, hconfine⟩
    · cases h
  obtain ⟨requested, hconfine⟩ := hconfined
  obtain ⟨base, asked, -, -, hreal, -⟩ := Surroundings.confine_eq_ok_iff.mp hconfine
  exact ⟨isAbsolute_of_resolve hreal, isProper_of_resolve hreal,
    Surroundings.isSpelled_confine hcwd hconfine, hasNull_of_resolve hreal⟩

/-! ## Before the writing -/

/-- A request for which nothing is left to do but write. -/
structure Prepared (s : Surroundings) (t : Tree) (r : RewriteRequest) (layout : Layout)
    (source target : Path) (text : Text) : Prop where
  chosen : Layout.choose s.vars r.choices = .ok layout
  confined : confine s t r.path = .ok source
  aimed : targetOf s t source r.outputPath = .ok target
  read : Storage.readJournal t s.toHost source layout.encoding = .ok text

def rewritten (layout : Layout) (source : Path) (text : Text) : Document :=
  ⟨source.toText, (split layout.lineSeparator text).map (Line.parse .unrestricted), layout,
    .unrestricted, []⟩

theorem prepared_or_fail (s : Surroundings) (t : Tree) (r : RewriteRequest) :
    (∃ layout source target text, Prepared s t r layout source target text) ∨
      ∃ fault, rewriteJournal s t r = .fail t fault := by
  rw [rewriteJournal]
  split
  · exact .inr ⟨_, rfl⟩
  rename_i layout hlayout
  split
  · exact .inr ⟨_, rfl⟩
  rename_i source hsource
  split
  · exact .inr ⟨_, rfl⟩
  rename_i target htarget
  split
  · exact .inr ⟨_, rfl⟩
  rename_i text htext
  exact .inl ⟨layout, source, target, text, hlayout, hsource, htarget, htext⟩

section Prepared

variable {layout : Layout} {source target : Path} {text : Text}
  (h : Prepared s t r layout source target text)
include h

theorem Prepared.isRequested : layout.IsRequested := Layout.isRequested_of_choose h.chosen

theorem Prepared.isReal_source (hcwd : NoSlash s.cwd) : source.IsReal :=
  isReal_confine hcwd h.confined

theorem Prepared.isReal_target (hcwd : NoSlash s.cwd) : target.IsReal := by
  have htarget := h.aimed
  rw [targetOf] at htarget
  split at htarget
  · exact isReal_confine hcwd htarget
  · cases htarget
    exact h.isReal_source hcwd

theorem Prepared.ofText_eq : Document.ofText layout .unrestricted text =
    .ok { rewritten layout source text with filename := [] } :=
  Document.ofText_eq_ok_iff.mpr ⟨h.isRequested.line.ne_nil, rfl⟩

theorem Prepared.rewriteJournal_eq_store : rewriteJournal s t r =
    match (rewritten layout source text).store t s.toHost (some target.toText) with
    | ⟨written, events, .error fault⟩ => ⟨written, events, .error fault⟩
    | ⟨written, events, .ok out⟩ => ⟨written, events, .ok ⟨out.toText,
        (rewritten layout source text).lines.length,
        decide ((rewritten layout source text).render = text)⟩⟩ := by
  rw [rewriteJournal, h.chosen]
  dsimp only
  rw [h.confined]
  dsimp only
  rw [h.aimed]
  dsimp only
  rw [h.read]
  dsimp only
  rw [h.ofText_eq]
  rfl

theorem Prepared.rewriteJournal_eq_of_isReal (hreal : target.IsReal) :
    rewriteJournal s t r =
      match Storage.writeJournal t s.toHost target layout.encoding
        (rewritten layout source text).render with
      | (written, .error fault) => .fail written fault
      | (written, .ok ()) => ⟨written, [.stored target.toText (split layout.lineSeparator text).length],
          .ok ⟨target.toText, (split layout.lineSeparator text).length,
            decide ((rewritten layout source text).render = text)⟩⟩ := by
  have hname : target.toText ≠ [] := Path.toText_ne_nil hreal.absolute
  have hpath : Path.ofText target.toText = target := Path.ofText_toText hreal.spelled
  have hlines : (rewritten layout source text).lines.length =
      (split layout.lineSeparator text).length := List.length_map _
  have hstore : (rewritten layout source text).store t s.toHost (some target.toText) =
      match Storage.writeJournal t s.toHost target layout.encoding
        (rewritten layout source text).render with
      | (written, .error fault) => .fail written fault
      | (written, .ok ()) => ⟨written,
          [.stored target.toText (split layout.lineSeparator text).length], .ok target⟩ := by
    rw [Document.store]
    dsimp only [Option.getD_some]
    rw [if_neg hname, hpath, hlines]
    rfl
  rw [h.rewriteJournal_eq_store, hstore, hlines]
  rcases Storage.writeJournal t s.toHost target layout.encoding
    (rewritten layout source text).render with ⟨written, fault | _⟩
  · rfl
  · rfl

theorem Prepared.rewriteJournal_eq (hcwd : NoSlash s.cwd) :
    rewriteJournal s t r =
      match Storage.writeJournal t s.toHost target layout.encoding
        (rewritten layout source text).render with
      | (written, .error fault) => .fail written fault
      | (written, .ok ()) => ⟨written, [.stored target.toText (split layout.lineSeparator text).length],
          .ok ⟨target.toText, (split layout.lineSeparator text).length,
            decide ((rewritten layout source text).render = text)⟩⟩ :=
  h.rewriteJournal_eq_of_isReal (h.isReal_target hcwd)

theorem Prepared.writeJournal_of_report (hcwd : NoSlash s.cwd) {report : RewriteReport}
    (hreport : (rewriteJournal s t r).result = .ok report) :
    Storage.writeJournal t s.toHost target layout.encoding (rewritten layout source text).render =
      ((rewriteJournal s t r).state, .ok ()) := by
  rw [h.rewriteJournal_eq hcwd] at hreport ⊢
  split at hreport
  · cases hreport
  · rename_i written hwrite
    rw [hwrite]

theorem Prepared.codecNamed_eq :
    Storage.codecNamed s.toHost layout.encoding = .ok Encoding.utf8.codec := by
  rw [h.isRequested.encoding, Storage.codecNamed_utf8]

theorem Prepared.exists_report (hcwd : NoSlash s.cwd) {place : Place}
    (hhost : s.writing = .complete)
    (hlocate : t.locate s.cwd .write target = .ok place) (hplace : place.Writable) :
    ∃ report, (rewriteJournal s t r).result = .ok report := by
  have hreal := h.isReal_target hcwd
  obtain ⟨written, hwrite⟩ := Storage.writeJournal_of_locate hhost hreal.absolute hreal.no_null
    h.codecNamed_eq (Encoding.encode_utf8_codec (rewritten layout source text).render) hlocate hplace
  rw [h.rewriteJournal_eq hcwd, hwrite]
  exact ⟨_, rfl⟩

end Prepared

/-! ## What is written -/

/-- A request that fails leaves the files as they were, unless a name turns out to be too long, or the
host breaks the writing off: then only the target has changed, and directories above it may have been
made. A request that succeeds makes the missing directories above its target, puts there what the
text of the source is read and written as, and changes nothing else. It does succeed if its source can
be read, its target is a file, or vacant in a directory, and the host writes everything. -/
theorem rewriteJournal_atomic (hwf : t.WellFormed) (hcwd : NoSlash s.cwd) :
    (∀ fault, (rewriteJournal s t r).result = .error fault →
      (rewriteJournal s t r).state = t ∨ (∃ path, fault = .access (.failed .nameTooLong path)) ∨
        ∃ left reason loc, s.writing = .broken left reason ∧ fault = .unwritten reason ∧
          Storage.Written t (rewriteJournal s t r).state loc left) ∧
    (∀ report, (rewriteJournal s t r).result = .ok report →
      ∃ layout source target text d loc content, Prepared s t r layout source target text ∧
        Document.ofText layout .unrestricted text = .ok d ∧
        (target.HasGzSuffix → content = Gzip.compress (Utf8.encode d.render)) ∧
        (¬ target.HasGzSuffix → content = Utf8.encode d.render) ∧
        Storage.Written t (rewriteJournal s t r).state loc content ∧
        (rewriteJournal s t r).state.locate s.cwd .look target =
          .ok (.found loc (.file content)) ∧
        report.count = (split layout.lineSeparator text).length) ∧
    ∀ layout source target text place, s.writing = .complete →
      Prepared s t r layout source target text →
      t.locate s.cwd .write target = .ok place → place.Writable →
      ∃ report, (rewriteJournal s t r).result = .ok report := by
  rw [← and_assoc]
  refine ⟨?_, fun _ _ _ _ _ hhost h => h.exists_report hcwd hhost⟩
  rcases prepared_or_fail s t r with ⟨layout, source, target, text, h⟩ | ⟨fault, hfail⟩
  · have hreal := h.isReal_target hcwd
    rw [h.rewriteJournal_eq hcwd]
    rcases hwrite : Storage.writeJournal t s.toHost target layout.encoding
      (rewritten layout source text).render with ⟨written, outcome⟩
    rcases Storage.writeJournal_spec hwf h.codecNamed_eq (Encoding.encode_utf8_codec _)
      hreal.absolute hreal.proper hreal.no_null hwrite with
      ⟨rfl, loc, hwritten, hfound⟩ | ⟨e, rfl, hunchanged⟩ |
      ⟨left, reason, loc, hhost, rfl, hwritten, -⟩
    · refine ⟨fun fault hfault => (by cases hfault), fun report hreport => ?_⟩
      cases hreport
      refine ⟨layout, source, target, text, _, loc, _, h, h.ofText_eq, fun hgz => ?_,
        fun hgz => ?_, hwritten, hfound, rfl⟩
      · rw [Storage.fileContent, if_pos (Path.isCompressed_iff.mpr hgz)]
        rfl
      · rw [Storage.fileContent, if_neg (mt Path.isCompressed_iff.mp hgz)]
        rfl
    · refine ⟨fun fault hfault => ?_, fun report hreport => by cases hreport⟩
      cases hfault
      rcases hunchanged with rfl | ⟨path, rfl⟩
      · exact .inl rfl
      · exact .inr (.inl ⟨path, rfl⟩)
    · refine ⟨fun fault hfault => ?_, fun report hreport => by cases hreport⟩
      cases hfault
      exact .inr (.inr ⟨left, reason, loc, hhost, rfl, hwritten⟩)
  · rw [hfail]
    exact ⟨fun _ _ => .inl rfl, fun report hreport => by cases hreport⟩

/-- A journal that is written, compressed, below a new directory; and one that is not there. -/
theorem rewriteJournal_atomic_new :
    let t : Tree := ⟨[(["j".toList], .file [120, 13, 10, 121])]⟩
    let s : Surroundings := ⟨.plain [], .empty, []⟩
    let r : RewriteRequest := ⟨.str "j".toList, .str "d/j.Gz".toList, .none⟩
    (∃ loc content, (rewriteJournal s t r).result = .ok ⟨"/d/j.Gz".toList, 2, false⟩ ∧
      Storage.Written t (rewriteJournal s t r).state loc content) ∧
    (rewriteJournal s t { r with path := .str "k".toList }).state = t := by
  intro t s r
  have hwf : t.WellFormed := wellFormed_of_entries (by decide +kernel)
  have hcwd : NoSlash s.cwd := by simp [NoSlash, s]
  have hresult : (rewriteJournal s t r).result = .ok ⟨"/d/j.Gz".toList, 2, false⟩ := by
    decide +kernel
  have hmissing : (rewriteJournal s t { r with path := .str "k".toList }).result =
      .error (.journalNotFound "/k".toList) := by
    decide +kernel
  constructor
  · obtain ⟨-, -, -, -, -, loc, content, -, -, -, -, hwritten, -⟩ :=
      (rewriteJournal_atomic hwf hcwd).2.1 _ hresult
    exact ⟨loc, content, hresult, hwritten⟩
  · rcases (rewriteJournal_atomic hwf hcwd).1 _ hmissing with
      hsame | ⟨path, hlong⟩ | ⟨left, reason, loc, -, hbroken, -⟩
    · exact hsame
    · cases hlong
    · cases hbroken

/-! ## What is reported -/

/-- The report says that the text came back exactly when nothing of it was lost; and a journal that
can be read can be rewritten in its place by a host that writes everything. -/
theorem rewriteJournal_roundTrip_iff {layout : Layout} {source : Path} {text : Text}
    (hcwd : NoSlash s.cwd) (hchosen : Layout.choose s.vars r.choices = .ok layout)
    (hconfined : confine s t r.path = .ok source)
    (hread : Storage.readJournal t s.toHost source layout.encoding = .ok text) :
    (∀ report, (rewriteJournal s t r).result = .ok report →
      (report.roundTrip = true ↔ Document.Faithful layout .unrestricted text)) ∧
    (s.writing = .complete → r.outputPath.isTrue = false →
      ∃ report, (rewriteJournal s t r).result = .ok report) := by
  constructor
  · intro report hreport
    rcases prepared_or_fail s t r with ⟨layout', source', target, text', h⟩ | ⟨fault, hfail⟩
    · have hlayout := h.chosen
      rw [hchosen] at hlayout
      cases hlayout
      have hsource := h.confined
      rw [hconfined] at hsource
      cases hsource
      have htext := h.read
      rw [hread] at htext
      cases htext
      rw [h.rewriteJournal_eq hcwd] at hreport
      split at hreport
      · cases hreport
      · cases hreport
        rw [decide_eq_true_iff]
        have hiff := Document.render_eq_text_iff h.isRequested.line h.isRequested.output h.ofText_eq
        exact hiff
    · rw [hfail] at hreport
      cases hreport
  · intro hhost hinPlace
    have haimed : targetOf s t source r.outputPath = .ok source := by
      rw [targetOf, hinPlace]
      rfl
    have h : Prepared s t r layout source source text := ⟨hchosen, hconfined, haimed, hread⟩
    obtain ⟨place, hlocate, hplace⟩ := Storage.locate_of_readJournal hread
    exact h.exists_report hcwd hhost hlocate hplace

/-- A journal whose separators are written differently is rewritten, and the report says so. -/
theorem rewriteJournal_roundTrip_changed :
    let t : Tree := ⟨[(["j".toList], .file [120, 13, 10, 121])]⟩
    let s : Surroundings := ⟨.plain [], .empty, []⟩
    let r : RewriteRequest := ⟨.str "j".toList, .null, .none⟩
    ∃ report, (rewriteJournal s t r).result = .ok report ∧ report.roundTrip = false := by
  intro t s r
  have hcwd : NoSlash s.cwd := by simp [NoSlash, s]
  have hchosen : Layout.choose s.vars r.choices = .ok .default := by decide +kernel
  have hconfined : confine s t r.path = .ok ⟨.root, ["j".toList]⟩ := by decide +kernel
  have hread : Storage.readJournal t s.toHost ⟨.root, ["j".toList]⟩ Layout.default.encoding =
      .ok ['x', '\r', '\n', 'y'] := by
    decide +kernel
  obtain ⟨hiff, hplace⟩ := rewriteJournal_roundTrip_iff hcwd hchosen hconfined hread
  obtain ⟨report, hreport⟩ := hplace rfl rfl
  refine ⟨report, hreport, Bool.eq_false_iff.mpr fun htrue => ?_⟩
  have hseparator := ((hiff report hreport).mp htrue).separator
  revert hseparator
  decide

end Service
end JournalScript
