import JournalScript.Proofs.Service.Window

/-!
# JournalScript.Proofs.Service.Narrowing

The same journal under a wider and a narrower filter of names.

A filter is asked only once a line has been read as a call, and what it refuses is the line as it
stood. So a narrower filter turns calls into raw lines and does nothing else (`parse_narrowed`). A
raw line is written as it was read, so nothing that came back under the wider filter is lost under
the narrower one.

`narrower_filter_demotes`: this for whole documents, and what filter a parse request asks for.
-/

namespace JournalScript

namespace NameFilter

structure Within (f g : NameFilter) : Prop where
  modules : ∀ name, admits f.modules name = true → admits g.modules name = true
  actions : ∀ name, admits f.actions name = true → admits g.actions name = true

theorem Within.accepts {f g : NameFilter} (h : f.Within g) {module action : Text}
    (haccepts : f.accepts module action = true) : g.accepts module action = true := by
  rw [NameFilter.accepts, Bool.and_eq_true] at haccepts ⊢
  exact ⟨h.modules module haccepts.1, h.actions action haccepts.2⟩

/-- The filter that admits the calls of the given modules, and every call if there are none. -/
def ofModules (names : List Text) : NameFilter := ⟨if names = [] then none else some names, none⟩

end NameFilter

/-! ## Lines and documents -/

namespace Line

/-- What is left of a line under a filter: a call that it does not admit goes back to the text that
it was read from. -/
inductive Narrowed (f : NameFilter) (piece : Text) : Line → Line → Prop where
  | raw (content : Text) : Narrowed f piece (.raw content) (.raw content)
  | kept {c : Call} (h : f.accepts c.module c.action = true) : Narrowed f piece (.call c) (.call c)
  | demoted {c : Call} (h : f.accepts c.module c.action = false) :
      Narrowed f piece (.call c) (.raw piece)

theorem parse_narrowed {f g : NameFilter} (h : f.Within g) (piece : Text) :
    Narrowed f piece (parse g piece) (parse f piece) := by
  rw [parse, parse]
  dsimp only
  cases hread : Call.ofText? ((stamped? piece).getD ([], piece)).1
      ((stamped? piece).getD ([], piece)).2 with
  | none => exact .raw piece
  | some c =>
    dsimp only
    cases hf : f.accepts c.module c.action with
    | true =>
      rw [if_pos (h.accepts hf), if_pos rfl]
      exact .kept hf
    | false =>
      rw [if_neg Bool.false_ne_true]
      cases hg : g.accepts c.module c.action with
      | true =>
        rw [if_pos rfl]
        exact .demoted hf
      | false =>
        rw [if_neg Bool.false_ne_true]
        exact .raw piece

/-- A line that comes back from the text that it is read as still does when it is demoted. -/
theorem Narrowed.literal_eq {f : NameFilter} {piece : Text} {wide narrow : Line}
    (h : Narrowed f piece wide narrow) (hwide : wide.literal = piece) : narrow.literal = piece := by
  cases h with
  | raw => exact hwide
  | kept => exact hwide
  | demoted => rfl

end Line

namespace Document

open Text

theorem Faithful.narrowed {f g : NameFilter} (h : f.Within g) {layout : Layout} {text : Text}
    (hwide : Faithful layout g text) : Faithful layout f text where
  separator := hwide.separator
  empty := hwide.empty
  literal piece hpiece := (Line.parse_narrowed h piece).literal_eq (hwide.literal piece hpiece)

end Document

/-! ## Requests -/

namespace Service

open Text JournalScript.Tree

/-- The names of modules without the blanks around them, and without those that are blank. -/
def givenNames (modules : Option (List Text)) : List Text :=
  ((modules.getD []).map strip).filter fun name => name ≠ []

theorem namesOf_map_str (names : List Text) :
    namesOf (names.map .str) = .ok ((names.map strip).filter fun name => name ≠ []) := by
  induction names with
  | nil => rfl
  | cons name names ih =>
    rw [List.map_cons, namesOf, ih, List.map_cons, List.filter_cons]
    by_cases h : strip name = [] <;> simp [h]

theorem moduleFilter_elim (modules : Option (List Text)) :
    moduleFilter (modules.elim .null .texts) = .ok (.ofModules (givenNames modules)) := by
  cases modules with
  | none => rfl
  | some names =>
    cases names with
    | nil => rfl
    | cons name names =>
      have htrue : (Value.texts (name :: names)).isTrue = true := rfl
      rw [Option.elim_some, moduleFilter, if_pos htrue]
      simp only [Value.texts, Value.elements, Value.elements?, namesOf_map_str]
      rw [givenNames, Option.getD_some, NameFilter.ofModules]
      cases ((name :: names).map strip).filter fun name => name ≠ [] <;> rfl

/-- Between two filters, of which one admits no name that the other does not, the documents have the
same lines but for calls that the narrower filter does not admit: those stand as they were read. So
if the text comes back under the wider filter, it does under the narrower one. The modules of a parse
request make the filter of their names, without the blanks around them; if no name is left, there is
no filter. -/
theorem narrower_filter_demotes :
    (∀ (f g : NameFilter) (layout : Layout) (text : Text), f.Within g →
      IsLineEnd layout.lineSeparator →
      ∃ narrow wide, Document.ofText layout f text = .ok narrow ∧
        Document.ofText layout g text = .ok wide ∧ narrow.lines.length = wide.lines.length ∧
        (∀ (i : Nat) (l : Line), wide.lines[i]? = some l → ∃ piece l',
          (split layout.lineSeparator text)[i]? = some piece ∧ narrow.lines[i]? = some l' ∧
            Line.Narrowed f piece l l') ∧
        (IsLineEnd layout.outputSeparator → wide.render = text → narrow.render = text)) ∧
    ∀ (s : Surroundings) (t : Tree) (path line : Value) (layout : Layout) (source : Path)
      (text : Text), NoSlash s.cwd →
      Readable s t path line .null layout .unrestricted source text →
      ∀ (modules : Option (List Text)) (includeRaw : Value) (limit : Option Int),
        0 < limit.getD 500 →
        ∃ answer, (parseJournal s t ⟨path, line, includeRaw, modules.elim .null .texts,
            limit.elim .null .int⟩).1 = .ok answer ∧
          Reports ((split layout.lineSeparator text).map
              (Line.parse (.ofModules (givenNames modules))))
            (fun l => includeRaw.isTrue || l.isCall) (min (limit.getD 500) 10000).toNat answer := by
  constructor
  · intro f g layout text hwithin hline
    have hread : ∀ filter, Document.ofText layout filter text =
        .ok ⟨[], (split layout.lineSeparator text).map (Line.parse filter), layout, filter, []⟩ :=
      fun filter => Document.ofText_eq_ok_iff.mpr ⟨hline.ne_nil, rfl⟩
    refine ⟨_, _, hread f, hread g, by simp only [List.length_map], fun i l hl => ?_, ?_⟩
    · rw [List.getElem?_map, Option.map_eq_some_iff] at hl
      obtain ⟨piece, hpiece, rfl⟩ := hl
      refine ⟨piece, Line.parse f piece, hpiece, ?_, Line.parse_narrowed hwithin piece⟩
      rw [List.getElem?_map, hpiece, Option.map_some]
    · intro hout hwide
      have hfaithful := Document.faithful_of_render_eq hline hout (hread g) hwide
      exact Document.render_of_faithful hline (hread f) (hfaithful.narrowed hwithin)
  · intro s t path line layout source text hcwd h modules includeRaw limit hpos
    have hfiltered : Readable s t path line (modules.elim .null .texts) layout
        (.ofModules (givenNames modules)) source text :=
      ⟨h.chosen, moduleFilter_elim modules, h.confined, h.read⟩
    exact ⟨_, hfiltered.parseJournal_fst hcwd includeRaw hpos,
      reports_report (parsed layout (.ofModules (givenNames modules)) source text) _ _⟩

/-- A call that is not admitted keeps its timestamp as text, the call behind it stays, and the text
comes back under both filters. A parse request with the same module, blanks around it, finds the one
call. -/
theorem narrower_filter_demotes_stamped :
    let text := "/*[2024-01-02 03:04:05(678)]*/ JrnCmd.A();\r\nJrnKey.B(1, 2)\r\n".toList
    let layout : Layout := ⟨['\r', '\n'], ['\r', '\n'], false, "utf-8".toList⟩
    let f : NameFilter := ⟨some ["JrnKey".toList], none⟩
    let g : NameFilter := ⟨some ["JrnCmd".toList, "JrnKey".toList], none⟩
    let t : Tree := ⟨[(["j".toList], .file (Utf8.encode text))]⟩
    let s : Surroundings := ⟨.plain [], .empty, []⟩
    (∃ narrow wide, Document.ofText layout f text = .ok narrow ∧
      Document.ofText layout g text = .ok wide ∧ wide.callCount = 2 ∧ narrow.lines.length = 3 ∧
      narrow.lines.head? = some (.raw "/*[2024-01-02 03:04:05(678)]*/ JrnCmd.A();".toList) ∧
      narrow.render = text) ∧
    ∃ answer, (parseJournal s t ⟨.str "j".toList, .null, .bool true,
        .texts [" JrnKey\t".toList, " ".toList], .null⟩).1 = .ok answer ∧
      answer.count = 3 ∧ answer.calls = 1 := by
  intro text layout f g t s
  obtain ⟨hdocuments, hrequests⟩ := narrower_filter_demotes
  have hwithin : f.Within g := by
    constructor
    · intro name hname
      rw [admits_iff] at hname ⊢
      intro names hnames
      obtain rfl := Option.some.inj hnames
      exact List.mem_cons_of_mem _ (hname _ rfl)
    · exact fun name hname => hname
  have hread : Readable s t (.str "j".toList) .null .null .default .unrestricted
      ⟨.root, ["j".toList]⟩ text :=
    ⟨by decide +kernel, rfl, by decide +kernel, by decide +kernel⟩
  constructor
  · obtain ⟨narrow, wide, hnarrow, hwide, hlength, hlines, hrender⟩ :=
      hdocuments f g layout text hwithin .crlf
    obtain ⟨-, rfl⟩ := Document.ofText_eq_ok_iff.mp hwide
    refine ⟨narrow, _, hnarrow, hwide, by decide +kernel, hlength.trans (by decide +kernel), ?_,
      hrender .crlf (by decide +kernel)⟩
    obtain ⟨piece, l, hpiece, hl, hfirst⟩ := hlines 0
      (.call ⟨"[2024-01-02 03:04:05(678)]".toList, "JrnCmd".toList, ['A'], [], [';']⟩)
      (by decide +kernel)
    have hline : (split ['\r', '\n'] text)[0]? =
        some "/*[2024-01-02 03:04:05(678)]*/ JrnCmd.A();".toList := by decide +kernel
    obtain rfl := Option.some.inj (hpiece.symm.trans hline)
    rw [List.head?_eq_getElem?, hl]
    cases hfirst with
    | kept hadmitted => exact absurd hadmitted (by decide)
    | demoted => rfl
  · obtain ⟨answer, hanswer, hreports⟩ := hrequests s t _ _ _ _ _ (by simp [NoSlash, s]) hread
      (some [" JrnKey\t".toList, " ".toList]) (.bool true) none (by decide)
    refine ⟨answer, hanswer, hreports.count_eq.trans ?_, hreports.calls_eq.trans ?_⟩
    · decide +kernel
    · decide +kernel

end Service
end JournalScript
