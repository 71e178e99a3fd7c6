import JournalScript.Proofs.Line.Payload
import JournalScript.Proofs.Service.Rewrite

/-!
# JournalScript.Proofs.Service.Structured

A journal that is parsed into structured lines and rendered from them.

`renderJournal_parseJournal`: rendering the lines that a parse request gives is the same as rewriting
the journal. The two share nothing but the base of their layouts: parsing chooses how the text is cut
and rendering how it is joined (`choose_apart`), while the lines go through their values and come
back as they were (`linesOf_toValue`).
-/

namespace JournalScript

namespace Layout

/-- Choices for reading and for writing can be made one after the other. -/
theorem choose_apart {vs : Variables} {line output skip : Value} {layout : Layout}
    (h : choose vs ⟨line, output, skip⟩ = .ok layout) :
    (∃ reading, choose vs ⟨line, .null, .null⟩ = .ok reading ∧
      reading.lineSeparator = layout.lineSeparator ∧ reading.encoding = layout.encoding) ∧
    ∃ writing, choose vs ⟨.null, output, skip⟩ = .ok writing ∧
      writing.outputSeparator = layout.outputSeparator ∧
      writing.skipEmpty = layout.skipEmpty := by
  obtain ⟨base, hbase, hline, houtput, hskip, hencoding⟩ := choose_eq_ok_iff.mp h
  constructor
  · exact ⟨⟨layout.lineSeparator, base.outputSeparator, base.skipEmpty, base.encoding⟩,
      choose_eq_ok_iff.mpr ⟨base, hbase, hline, rfl, rfl, rfl⟩, rfl, hencoding.symm⟩
  · exact ⟨⟨base.lineSeparator, layout.outputSeparator, layout.skipEmpty, base.encoding⟩,
      choose_eq_ok_iff.mpr ⟨base, hbase, rfl, houtput, hskip, rfl⟩, rfl, rfl⟩

end Layout

namespace Document

/-- What is written depends on the lines and on how they are written only. -/
theorem render_congr {d d' : Document} (hlines : d.lines = d'.lines)
    (houtput : d.layout.outputSeparator = d'.layout.outputSeparator)
    (hskip : d.layout.skipEmpty = d'.layout.skipEmpty) : d.render = d'.render := by
  have hkeeps : keeps d.layout = keeps d'.layout := by
    funext l
    rw [keeps, keeps, hskip]
  rw [render_eq_join, render_eq_join, kept, kept, hlines, houtput, hkeeps]

end Document

namespace Service

open Text JournalScript.Tree

variable {s : Surroundings} {t : Tree}

/-! ## Lines through their values -/

def NumberedLine.toValue (n : NumberedLine) : Value := n.line.toValue (some (Int.ofNat n.number))

theorem lineOf_toValue (n : NumberedLine) : lineOf n.toValue = .ok n.line := by
  have hread := Line.ofValue_toValue (some (Int.ofNat n.number)) n.line
  rw [Line.toValue.eq_def] at hread
  rw [lineOf, NumberedLine.toValue, Line.toValue.eq_def, Value.record]
  simp only [hread]

theorem linesOf_toValue (ns : List NumberedLine) :
    linesOf (ns.map NumberedLine.toValue) = .ok (ns.map NumberedLine.line) := by
  induction ns with
  | nil => rfl
  | cons n ns ih => simp only [List.map_cons, linesOf, lineOf_toValue, ih]

theorem map_line_numbered (lines : List Line) : (numbered lines).map NumberedLine.line = lines := by
  rw [numbered, List.map_map]
  exact List.zipIdx_map_fst 0 lines

/-! ## Parsing -/

def parsed (layout : Layout) (filter : NameFilter) (source : Path) (text : Text) : Document :=
  ⟨source.toText, (split layout.lineSeparator text).map (Line.parse filter), layout, filter, []⟩

theorem fetch_of_readJournal {path line modules : Value} {layout : Layout} {filter : NameFilter}
    {source : Path} {text : Text} (hcwd : NoSlash s.cwd)
    (hchosen : Layout.choose s.vars ⟨line, .null, .null⟩ = .ok layout)
    (hfilter : moduleFilter modules = .ok filter)
    (hconfined : confine s t path = .ok source)
    (hread : Storage.readJournal t s.toHost source layout.encoding = .ok text) :
    ∃ events, fetch s t path line modules = (.ok (parsed layout filter source text), events) := by
  have hpath : Path.ofText source.toText = source :=
    Path.ofText_toText (isReal_confine hcwd hconfined).spelled
  have hnamed : Storage.readJournal t s.toHost (Path.ofText source.toText) layout.encoding =
      .ok text := by rw [hpath, hread]
  obtain ⟨events, hfetch⟩ := Document.fetch_of_readJournal filter
    (Layout.isRequested_of_choose hchosen).line.ne_nil hnamed
  refine ⟨events, ?_⟩
  simp only [fetch, hconfined, hchosen, hfilter, hfetch]
  rfl

theorem parseJournal_of_readJournal {r : ParseRequest} {layout : Layout} {filter : NameFilter}
    {source : Path} {text : Text} {limit : Nat} (hcwd : NoSlash s.cwd)
    (hlimit : effectiveLimit r.limit = .ok (some limit))
    (hchosen : Layout.choose s.vars ⟨r.lineSeparator, .null, .null⟩ = .ok layout)
    (hfilter : moduleFilter r.modules = .ok filter)
    (hconfined : confine s t r.path = .ok source)
    (hread : Storage.readJournal t s.toHost source layout.encoding = .ok text) :
    ∃ events, parseJournal s t r =
      (.ok (report (parsed layout filter source text) r.includeRaw.isTrue limit), events) := by
  obtain ⟨events, hfetch⟩ := fetch_of_readJournal hcwd hchosen hfilter hconfined hread
  refine ⟨events, ?_⟩
  rw [parseJournal, hlimit]
  simp only [hfetch]

theorem length_parsed (layout : Layout) (filter : NameFilter) (source : Path) (text : Text) :
    (parsed layout filter source text).lines.length = (split layout.lineSeparator text).length :=
  List.length_map _

theorem lines_report {d : Document} {limit : Nat} (h : d.lines.length ≤ limit) :
    (report d true limit).lines = numbered d.lines := by
  have hlen : (numbered d.lines).length = d.lines.length := by simp [numbered]
  simp only [report, Bool.true_or, List.filter_true]
  exact List.take_of_length_le (hlen.trans_le h)

theorem effectiveLimit_int {limit : Int} {count : Nat} (hpos : 0 < count) (hcount : count ≤ limit)
    (hhard : count ≤ hardLimit) :
    ∃ n, effectiveLimit (.int limit) = .ok (some n) ∧ count ≤ n := by
  refine ⟨min limit.toNat hardLimit, ?_, by omega⟩
  rw [effectiveLimit, limitOf, if_neg (by omega)]
  rfl

/-! ## Rendering -/

theorem renderJournal_toValue {output skip : Value} {layout : Layout}
    (hchosen : Layout.choose s.vars ⟨.null, output, skip⟩ = .ok layout) (lines : List Line) :
    renderJournal s ⟨.list ((numbered lines).map NumberedLine.toValue), output, skip⟩ =
      .ok ⟨lines.length, (⟨[], lines, layout, .unrestricted, []⟩ : Document).render⟩ := by
  rw [renderJournal, hchosen]
  simp only [Value.elements, Value.elements?, linesOf_toValue, map_line_numbered]

/-! ## Rewriting -/

/-- The one request that given choices, a given path and a given text prepare. -/
theorem prepared_of_report {r : RewriteRequest} {layout : Layout} {source : Path} {text : Text}
    {answer : RewriteReport} (hchosen : Layout.choose s.vars r.choices = .ok layout)
    (hconfined : confine s t r.path = .ok source)
    (hread : Storage.readJournal t s.toHost source layout.encoding = .ok text)
    (hanswer : (rewriteJournal s t r).result = .ok answer) :
    ∃ target, Prepared s t r layout source target text := by
  rcases prepared_or_fail s t r with ⟨layout', source', target, text', h⟩ | ⟨fault, hfail⟩
  · obtain rfl := Except.ok.inj (hchosen.symm.trans h.chosen)
    obtain rfl := Except.ok.inj (hconfined.symm.trans h.confined)
    obtain rfl := Except.ok.inj (hread.symm.trans h.read)
    exact ⟨target, h⟩
  · rw [hfail] at hanswer
    cases hanswer

theorem exists_report_in_place {r : RewriteRequest} {layout : Layout} {source : Path} {text : Text}
    (hcwd : NoSlash s.cwd) (hchosen : Layout.choose s.vars r.choices = .ok layout)
    (hconfined : confine s t r.path = .ok source)
    (hread : Storage.readJournal t s.toHost source layout.encoding = .ok text)
    (hhost : s.writing = .complete) (hplace : r.outputPath.isTrue = false) :
    ∃ answer, (rewriteJournal s t r).result = .ok answer := by
  have haimed : targetOf s t source r.outputPath = .ok source := by
    rw [targetOf, hplace]
    rfl
  have h : Prepared s t r layout source source text := ⟨hchosen, hconfined, haimed, hread⟩
  obtain ⟨place, hlocate, hwritable⟩ := Storage.locate_of_readJournal hread
  exact h.exists_report hcwd hhost hlocate hwritable

theorem Prepared.target_holds {r : RewriteRequest} {layout : Layout} {source target : Path}
    {text : Text} {answer : RewriteReport} (h : Prepared s t r layout source target text)
    (hcwd : NoSlash s.cwd) (hanswer : (rewriteJournal s t r).result = .ok answer) :
    (∃ loc, (rewriteJournal s t r).state.locate s.cwd .look target = .ok (.found loc (.file
        (Storage.fileContent target (Utf8.encode (rewritten layout source text).render))))) ∧
      Storage.readJournal (rewriteJournal s t r).state s.toHost target layout.encoding =
        .ok (rewritten layout source text).render := by
  have hwrite := h.writeJournal_of_report hcwd hanswer
  have hown : Encoding.ofName? layout.encoding = some .utf8 := by
    rw [h.isRequested.encoding]
    rfl
  exact ⟨(Storage.locate_of_writeJournal h.codecNamed_eq rfl hwrite).2,
    Storage.readJournal_writeJournal hown hwrite⟩

/-! ## Both ways -/

/-- Parsing a journal and rendering its lines gives the text that rewriting it writes, whatever
separators and whatever treatment of empty lines are asked for, and wherever it is written. In its own
place it is written by any host that writes everything. -/
theorem renderJournal_parseJournal {path line output skip : Value} {layout : Layout} {source : Path}
    {text : Text} {limit : Int} (hcwd : NoSlash s.cwd)
    (hchosen : Layout.choose s.vars ⟨line, output, skip⟩ = .ok layout)
    (hconfined : confine s t path = .ok source)
    (hread : Storage.readJournal t s.toHost source layout.encoding = .ok text)
    (hhard : (split layout.lineSeparator text).length ≤ hardLimit)
    (hlimit : (split layout.lineSeparator text).length ≤ limit) :
    ∃ parsing events rendering,
      parseJournal s t ⟨path, line, .bool true, .null, .int limit⟩ = (.ok parsing, events) ∧
      renderJournal s ⟨.list (parsing.lines.map NumberedLine.toValue), output, skip⟩ =
        .ok rendering ∧
      rendering.count = parsing.count ∧
      ∀ outputPath, let rewriting := rewriteJournal s t ⟨path, outputPath, ⟨line, output, skip⟩⟩
        (s.writing = .complete → outputPath.isTrue = false →
          ∃ answer, rewriting.result = .ok answer) ∧
        ∀ answer, rewriting.result = .ok answer →
          ∃ target loc, targetOf s t source outputPath = .ok target ∧
            rewriting.state.locate s.cwd .look target =
              .ok (.found loc (.file (Storage.fileContent target (Utf8.encode rendering.text)))) ∧
            Storage.readJournal rewriting.state s.toHost target layout.encoding =
              .ok rendering.text := by
  obtain ⟨⟨reading, hreading, hcut, hcoding⟩, writing, hwriting, hjoin, hskip⟩ :=
    Layout.choose_apart hchosen
  have hsep : layout.lineSeparator ≠ [] := (Layout.isRequested_of_choose hchosen).line.ne_nil
  obtain ⟨n, hn, hall⟩ := effectiveLimit_int (List.length_pos_iff.mpr (split_ne_nil hsep text))
    hlimit hhard
  obtain ⟨events, hparse⟩ :=
    parseJournal_of_readJournal (r := ⟨path, line, .bool true, .null, .int limit⟩)
      hcwd hn hreading rfl hconfined (hcoding ▸ hread)
  have hlines : (parsed reading .unrestricted source text).lines =
      (rewritten layout source text).lines := by
    rw [parsed, rewritten, hcut]
  have hparsing : (report (parsed reading .unrestricted source text) true n).lines =
      numbered (rewritten layout source text).lines := by
    rw [lines_report (by rw [length_parsed, hcut]; exact hall), hlines]
  have hrender := renderJournal_toValue hwriting (rewritten layout source text).lines
  have htext : (⟨[], (rewritten layout source text).lines, writing, .unrestricted, []⟩ :
      Document).render = (rewritten layout source text).render :=
    Document.render_congr rfl hjoin hskip
  rw [htext, ← hparsing] at hrender
  refine ⟨_, events, _, hparse, hrender, congrArg List.length hlines.symm, fun outputPath => ⟨?_, ?_⟩⟩
  · exact exists_report_in_place (r := ⟨path, outputPath, ⟨line, output, skip⟩⟩)
      hcwd hchosen hconfined hread
  · intro answer hanswer
    obtain ⟨target, h⟩ := prepared_of_report hchosen hconfined hread hanswer
    obtain ⟨⟨loc, hfound⟩, hback⟩ := h.target_holds hcwd hanswer
    exact ⟨target, loc, h.aimed, hfound, hback⟩

/-- A journal with a call and an empty line, which is left out, rewritten to a compressed file: both
ways give the same text. -/
theorem renderJournal_parseJournal_compressed :
    let t : Tree := ⟨[(["j".toList], .file (Utf8.encode "JrnCmd.A(1/*n*/, \"b\");\r\n\r\nx".toList))]⟩
    let s : Surroundings := ⟨.plain [], ⟨[("JOURNAL_SKIP_EMPTY_LINE".toList, "on".toList)]⟩, []⟩
    let cr : Value := .str "cr".toList
    ∃ parsing events rendering,
      parseJournal s t ⟨.str "j".toList, .null, .bool true, .null, .int 3⟩ = (.ok parsing, events) ∧
      renderJournal s ⟨.list (parsing.lines.map NumberedLine.toValue), cr, .null⟩ = .ok rendering ∧
      rendering.text = "JrnCmd.A(1/*n*/, \"b\");\rx".toList := by
  intro t s cr
  have hchosen : Layout.choose s.vars ⟨.null, cr, .null⟩ =
      .ok ⟨['\r', '\n'], ['\r'], true, "utf-8".toList⟩ := by decide +kernel
  have hconfined : confine s t (.str "j".toList) = .ok ⟨.root, ["j".toList]⟩ := by decide +kernel
  have hread : Storage.readJournal t s.toHost ⟨.root, ["j".toList]⟩ "utf-8".toList =
      .ok "JrnCmd.A(1/*n*/, \"b\");\r\n\r\nx".toList := by decide +kernel
  have hlimit : (split ['\r', '\n'] "JrnCmd.A(1/*n*/, \"b\");\r\n\r\nx".toList).length ≤ (3 : Int) := by
    decide +kernel
  obtain ⟨parsing, events, rendering, hparse, hrender, -, hrewrite⟩ :=
    renderJournal_parseJournal (by simp [NoSlash, s]) hchosen hconfined hread (by decide +kernel)
      hlimit
  have hanswer : (rewriteJournal s t ⟨.str "j".toList, .str "j.gz".toList, ⟨.null, cr, .null⟩⟩).result =
      .ok ⟨"/j.gz".toList, 3, false⟩ := by decide +kernel
  obtain ⟨target, loc, haimed, -, hback⟩ := (hrewrite (.str "j.gz".toList)).2 _ hanswer
  have htarget : targetOf s t ⟨.root, ["j".toList]⟩ (.str "j.gz".toList) =
      .ok ⟨.root, ["j.gz".toList]⟩ := by decide +kernel
  obtain rfl := Except.ok.inj (haimed.symm.trans htarget)
  have hwritten : Storage.readJournal
      (rewriteJournal s t ⟨.str "j".toList, .str "j.gz".toList, ⟨.null, cr, .null⟩⟩).state s.toHost
      ⟨.root, ["j.gz".toList]⟩ "utf-8".toList = .ok "JrnCmd.A(1/*n*/, \"b\");\rx".toList := by
    decide +kernel
  exact ⟨parsing, events, rendering, hparse, hrender, Except.ok.inj (hback.symm.trans hwritten)⟩

end Service
end JournalScript
