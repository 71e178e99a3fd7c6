import JournalScript.Proofs.Service.Structured
import JournalScript.Proofs.Summary

/-!
# JournalScript.Proofs.Service.Window

Which lines the answer to a parse request shows, and what it counts.

The lines are numbered before any is left out, and cut at the limit after that. So a line is shown
exactly when it is asked for and fewer lines that are asked for than the limit stand in front of it
(`isWindow_take`), and it keeps the number that it has in the document. The counts see neither what
is asked for nor the limit. `parseJournal_window` says so for every journal that can be read.
-/

namespace JournalScript
namespace Service

open Text JournalScript.Tree

variable {s : Surroundings} {t : Tree} {path line modules : Value} {layout : Layout}
  {filter : NameFilter} {source : Path} {text : Text}

/-- A journal that a request can read, with the layout, the filter, the path and the text that it is
read with. -/
structure Readable (s : Surroundings) (t : Tree) (path line modules : Value) (layout : Layout)
    (filter : NameFilter) (source : Path) (text : Text) : Prop where
  chosen : Layout.choose s.vars ⟨line, .null, .null⟩ = .ok layout
  filtered : moduleFilter modules = .ok filter
  confined : confine s t path = .ok source
  read : Storage.readJournal t s.toHost source layout.encoding = .ok text

/-! ## Limits -/

/-- A limit that is not given is 500, and none counts for more than 10000. -/
theorem effectiveLimit_elim (limit : Option Int) :
    effectiveLimit (limit.elim .null .int) =
      if limit.getD 500 ≤ 0 then .error .limitNotPositive
      else .ok (some (min (limit.getD 500) 10000).toNat) := by
  cases limit with
  | none => rfl
  | some n =>
    have hmin : min n.toNat hardLimit = (min n 10000).toNat := by
      rw [hardLimit]
      omega
    rw [Option.elim_some, Option.getD_some, effectiveLimit, limitOf, hmin]
    split <;> rfl

theorem effectiveLimit_of_pos {limit : Option Int} (h : 0 < limit.getD 500) :
    effectiveLimit (limit.elim .null .int) = .ok (some (min (limit.getD 500) 10000).toNat) := by
  rw [effectiveLimit_elim, if_neg (by omega)]

theorem Readable.parseJournal_fst (h : Readable s t path line modules layout filter source text)
    (hcwd : NoSlash s.cwd) (includeRaw : Value) {limit : Option Int} (hpos : 0 < limit.getD 500) :
    (parseJournal s t ⟨path, line, includeRaw, modules, limit.elim .null .int⟩).1 =
      .ok (report (parsed layout filter source text) includeRaw.isTrue
        (min (limit.getD 500) 10000).toNat) := by
  obtain ⟨events, hparse⟩ := parseJournal_of_readJournal
    (r := ⟨path, line, includeRaw, modules, limit.elim .null .int⟩) hcwd (effectiveLimit_of_pos hpos)
    h.chosen h.filtered h.confined h.read
  rw [hparse]

theorem parseJournal_of_not_pos {r : ParseRequest} {n : Int} (hlimit : r.limit = .int n)
    (h : n ≤ 0) : parseJournal s t r = (.error .limitNotPositive, []) := by
  rw [parseJournal, hlimit, effectiveLimit, limitOf, if_pos h]
  rfl

/-! ## Lines -/

/-- The first lines of a document that are wanted, at most as many as the limit, each with its number
in the document. -/
structure IsWindow (wanted : Line → Bool) (limit : Nat) (lines : List Line)
    (shown : List NumberedLine) : Prop where
  /-- A wanted line is shown unless too many wanted lines stand in front of it. -/
  mem_iff : ∀ n, n ∈ shown ↔ ∃ i, n.number = i + 1 ∧ lines[i]? = some n.line ∧
    wanted n.line = true ∧ (lines.take i).countP wanted < limit
  increasing : shown.Pairwise fun a b => a.number < b.number
  length_eq : shown.length = min limit (lines.countP wanted)
  toValue_eq : ∀ n ∈ shown, ∃ l, lines[n.number - 1]? = some l ∧
    n.toValue = l.toValue (some (Int.ofNat n.number))

/-- The members of a list that was numbered, filtered and cut. The numbers may start anywhere, since
those of the tail start one higher. -/
theorem mem_take_filter_zipIdx {α : Type} (p : α → Bool) (xs : List α) :
    ∀ (k n : Nat) (e : α × Nat), e ∈ ((xs.zipIdx k).filter fun e => p e.1).take n ↔
      ∃ i, e.2 = k + i ∧ xs[i]? = some e.1 ∧ p e.1 = true ∧ (xs.take i).countP p < n := by
  induction xs with
  | nil => simp
  | cons x xs ih =>
    intro k n e
    have hsplit : (∃ i, e.2 = k + i ∧ (x :: xs)[i]? = some e.1 ∧ p e.1 = true ∧
          ((x :: xs).take i).countP p < n) ↔
        (e = (x, k) ∧ p x = true ∧ 0 < n) ∨
        ∃ i, e.2 = k + 1 + i ∧ xs[i]? = some e.1 ∧ p e.1 = true ∧
          ((x :: xs).take (i + 1)).countP p < n := by
      constructor
      · rintro ⟨i, hi, hget, hp, hcount⟩
        cases i with
        | zero =>
          obtain rfl : x = e.1 := by simpa using hget
          exact .inl ⟨Prod.ext rfl hi, hp, by simpa using hcount⟩
        | succ i => exact .inr ⟨i, by omega, by simpa using hget, hp, hcount⟩
      · rintro (⟨rfl, hp, hn⟩ | ⟨i, hi, hget, hp, hcount⟩)
        · exact ⟨0, rfl, rfl, hp, by simpa using hn⟩
        · exact ⟨i + 1, by omega, by simpa using hget, hp, hcount⟩
    rw [hsplit, List.zipIdx_cons, List.filter_cons]
    by_cases hx : p x = true
    · cases n with
      | zero => simp
      | succ n =>
        rw [if_pos hx, List.take_succ_cons, List.mem_cons, ih]
        simp [hx]
    · rw [if_neg hx, ih]
      simp [hx]

theorem filter_numbered (wanted : Line → Bool) (lines : List Line) :
    ((numbered lines).filter fun n => wanted n.line) =
      (lines.zipIdx.filter fun e => wanted e.1).map fun e => ⟨e.2 + 1, e.1⟩ := by
  rw [numbered, List.filter_map]
  rfl

theorem length_filter_numbered (wanted : Line → Bool) (lines : List Line) :
    ((numbered lines).filter fun n => wanted n.line).length = lines.countP wanted := by
  conv => rhs; rw [← map_line_numbered lines, List.countP_map]
  exact List.countP_eq_length_filter.symm

theorem increasing_numbered (lines : List Line) :
    (numbered lines).Pairwise fun a b => a.number < b.number := by
  have hindices : lines.zipIdx.Pairwise fun a b => a.2 < b.2 := by
    rw [← List.pairwise_map, List.zipIdx_map_snd]
    exact List.pairwise_lt_range' 1
  rw [numbered, List.pairwise_map]
  exact hindices.imp fun hlt => Nat.succ_lt_succ hlt

theorem isWindow_take (wanted : Line → Bool) (limit : Nat) (lines : List Line) :
    IsWindow wanted limit lines
      (((numbered lines).filter fun n => wanted n.line).take limit) := by
  have hmem : ∀ n, n ∈ ((numbered lines).filter fun n => wanted n.line).take limit ↔
      ∃ i, n.number = i + 1 ∧ lines[i]? = some n.line ∧ wanted n.line = true ∧
        (lines.take i).countP wanted < limit := by
    rintro ⟨number, l⟩
    rw [filter_numbered, ← List.map_take, List.mem_map]
    constructor
    · rintro ⟨⟨l', k⟩, hmem, heq⟩
      obtain ⟨rfl, rfl⟩ := NumberedLine.mk.inj heq
      obtain ⟨i, hi, hshown⟩ := (mem_take_filter_zipIdx wanted lines 0 limit (l', k)).mp hmem
      obtain rfl : k = i := by simpa using hi
      exact ⟨k, rfl, hshown⟩
    · rintro ⟨i, rfl, hshown⟩
      exact ⟨(l, i), (mem_take_filter_zipIdx wanted lines 0 limit (l, i)).mpr
        ⟨i, (Nat.zero_add i).symm, hshown⟩, rfl⟩
  refine ⟨hmem, (increasing_numbered lines).filter _ |>.take, ?_, fun n hn => ?_⟩
  · rw [List.length_take, length_filter_numbered]
  · obtain ⟨i, hi, hget, -⟩ := (hmem n).mp hn
    exact ⟨n.line, by rw [hi]; exact hget, rfl⟩

/-! ## Answers -/

/-- What an answer says of a document with the given lines. -/
structure Reports (lines : List Line) (wanted : Line → Bool) (limit : Nat)
    (answer : ParseReport) : Prop where
  count_eq : answer.count = lines.length
  calls_eq : answer.calls = lines.countP Line.isCall
  raw_eq : answer.raw = lines.countP fun l => !l.isCall
  calls_add_raw : answer.calls + answer.raw = answer.count
  truncated_iff : answer.truncated = true ↔ limit < lines.countP wanted
  window : IsWindow wanted limit lines answer.lines

theorem reports_report (d : Document) (includeRaw : Bool) (limit : Nat) :
    Reports d.lines (fun l => includeRaw || l.isCall) limit (report d includeRaw limit) := by
  have hsum := Summary.calls_add_raw d.lines
  constructor
  · rfl
  · rfl
  · simp only [report, Document.callCount]
    omega
  · simp only [report, Document.callCount]
    omega
  · rw [report, decide_eq_true_iff, length_filter_numbered fun l => includeRaw || l.isCall]
  · exact isWindow_take _ limit d.lines

/-- A limit that is not positive is refused, whatever else is asked. Otherwise a journal that can be
read is answered: the counts are those of the whole document, and of the lines that are asked for the
first are shown, up to the limit. A higher limit only adds lines at the end. -/
theorem parseJournal_window :
    (∀ (s : Surroundings) (t : Tree) (r : ParseRequest) (n : Int), r.limit = .int n → n ≤ 0 →
      parseJournal s t r = (.error .limitNotPositive, [])) ∧
    ∀ (s : Surroundings) (t : Tree) (path line modules : Value) (layout : Layout)
      (filter : NameFilter) (source : Path) (text : Text), NoSlash s.cwd →
      Readable s t path line modules layout filter source text → ∀ includeRaw : Value,
      let answers := fun limit : Option Int =>
        (parseJournal s t ⟨path, line, includeRaw, modules, limit.elim .null .int⟩).1
      (∀ limit : Option Int, 0 < limit.getD 500 → ∃ answer, answers limit = .ok answer ∧
        answer.filename = source.toText ∧
        Reports ((split layout.lineSeparator text).map (Line.parse filter))
          (fun l => includeRaw.isTrue || l.isCall) (min (limit.getD 500) 10000).toNat answer) ∧
      ∀ limit limit' answer answer', limit.getD 500 ≤ limit'.getD 500 →
        answers limit = .ok answer → answers limit' = .ok answer' →
        answer.lines <+: answer'.lines := by
  refine ⟨fun s t r n hlimit hn => parseJournal_of_not_pos hlimit hn, ?_⟩
  intro s t path line modules layout filter source text hcwd h includeRaw answers
  refine ⟨fun limit hpos => ⟨_, h.parseJournal_fst hcwd includeRaw hpos, rfl,
    reports_report (parsed layout filter source text) includeRaw.isTrue _⟩, ?_⟩
  intro limit limit' answer answer' hle hanswer hanswer'
  have hpos : 0 < limit.getD 500 := by
    by_contra hnot
    have hrefused : answers limit = .error .limitNotPositive := by
      simp only [answers, parseJournal, effectiveLimit_elim, if_pos (not_lt.mp hnot)]
    rw [hrefused] at hanswer
    cases hanswer
  obtain rfl := Except.ok.inj ((h.parseJournal_fst hcwd includeRaw hpos).symm.trans hanswer)
  obtain rfl := Except.ok.inj
    ((h.parseJournal_fst hcwd includeRaw (hpos.trans_le hle)).symm.trans hanswer')
  exact List.take_prefix_take_left (by omega)

/-- Of two calls between raw lines, a limit of one shows the first, with its number among all lines;
without a limit both are shown, and a limit of zero is refused. -/
theorem parseJournal_window_calls :
    let t : Tree := ⟨[(["j".toList],
      .file (Utf8.encode "x\r\nJrnCmd.A(1)\r\n\r\nJrnCmd.B()".toList))]⟩
    let s : Surroundings := ⟨.plain [], .empty, []⟩
    let answers := fun limit =>
      (parseJournal s t ⟨.str "j".toList, .null, .bool false, .null, limit⟩).1
    answers (.int 0) = .error .limitNotPositive ∧
    ∃ answer answer', answers (.int 1) = .ok answer ∧ answers .null = .ok answer' ∧
      answer.count = 4 ∧ answer.truncated = true ∧ answer'.truncated = false ∧
      answer.lines.length = 1 ∧ answer'.lines.length = 2 ∧ (∀ n ∈ answer.lines, n.number = 2) ∧
      answer.lines <+: answer'.lines := by
  intro t s answers
  obtain ⟨hrefused, hanswered⟩ := parseJournal_window
  have hread : Readable s t (.str "j".toList) .null .null .default .unrestricted
      ⟨.root, ["j".toList]⟩ "x\r\nJrnCmd.A(1)\r\n\r\nJrnCmd.B()".toList :=
    ⟨by decide +kernel, rfl, by decide +kernel, by decide +kernel⟩
  obtain ⟨hall, hprefix⟩ := hanswered s t _ _ _ _ _ _ _ (by simp [NoSlash, s]) hread (.bool false)
  obtain ⟨answer, hanswer, -, hreports⟩ := hall (some 1) (by decide)
  obtain ⟨answer', hanswer', -, hreports'⟩ := hall none (by decide)
  have hlines : (split ['\r', '\n'] "x\r\nJrnCmd.A(1)\r\n\r\nJrnCmd.B()".toList).map
      (Line.parse .unrestricted) =
    [.raw ['x'], .call ⟨[], "JrnCmd".toList, ['A'], [⟨[], ['1'], []⟩], []⟩, .raw [],
      .call ⟨[], "JrnCmd".toList, ['B'], [], []⟩] := by decide +kernel
  rw [Layout.default, hlines] at hreports hreports'
  refine ⟨congrArg Prod.fst (hrefused s t _ 0 rfl (le_refl 0)), answer, answer', hanswer, hanswer',
    hreports.count_eq, hreports.truncated_iff.mpr (by decide), ?_, hreports.window.length_eq,
    hreports'.window.length_eq, fun n hn => ?_, hprefix (some 1) none _ _ (by decide) hanswer hanswer'⟩
  · rw [Bool.eq_false_iff]
    exact mt hreports'.truncated_iff.mp (by decide)
  · -- The second call has the first one in front of it.
    obtain ⟨i, hi, hget, hcall, hcount⟩ := (hreports.window.mem_iff n).mp hn
    match i with
    | 1 => exact hi
    | 0 | 2 =>
      have hraw := Option.some.inj hget
      rw [← hraw] at hcall
      cases hcall
    | i + 3 => simp [List.countP_cons, Line.isCall] at hcount

end Service
end JournalScript
