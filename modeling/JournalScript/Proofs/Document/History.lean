import JournalScript.Proofs.Document.Files
import JournalScript.Proofs.Document.RoundTrip

/-!
# JournalScript.Proofs.Document.History

A document in use: what it holds is what its past says.

Every use of a document leaves a deed: it brings a text, opens a file, empties the document, or does
nothing to it, as every use does that fails. The texts and the name of a document are read off its
deeds, from the latest back to the last opening or emptying (`textsOf`, `nameOf`). What a step can do
is said once (`step_does`); it keeps the document in agreement with its past (`View.does`), so every
run does (`view_run`).

* `run_refines`: the lines are those of the texts, joined with the separator; saving works under the
  name of the file that was opened last.
* `run_refines_not_ascii`: a document that has a name need not be saved: its text may have a character
  that its encoding lacks.
-/

namespace JournalScript

/-- Whether a fault is about a value, such as a name or a text, and not about the files or about the
kind of a value. -/
def Fault.isWrongValue : Fault → Bool
  | .access .nullByte | .path .nullByte | .path .outsideBase => true
  | .setting (.notText _) => false
  | .setting _ | .nullInEncoding | .undecodable _ | .unencodable _ | .payload _ => true
  | .record (.pairLength _ _) | .suffixNotAllowed | .emptySeparator | .unnamed | .noTarget => true
  | .limitNotPositive | .levelFormat _ => true
  | _ => false

/-- What can be done with a document. Between its uses the files may be changed by others, and
whatever the host does with what is written. -/
inductive Use where
  | parseText (text : Text) (source : Option Text)
  | load (filename : Text)
  | openFile (filename : Text)
  | clear
  | close
  | save
  | saveAs (filename : Text)
  | elsewhere (tree : Tree) (cwd : Location) (writing : Writing)

inductive Deed where
  | brought (text : Text)
  | opened (filename text : Text)
  | emptied
  | nothing

/-- The texts since the last opening, or since the document was empty; the latest deed is the first. -/
def textsOf : List Deed → List Text
  | [] => []
  | .brought text :: past => textsOf past ++ [text]
  | .opened _ text :: _ => [text]
  | .emptied :: _ => []
  | .nothing :: past => textsOf past

def nameOf : List Deed → Text
  | [] => []
  | .opened filename _ :: _ => filename
  | .emptied :: _ => []
  | .brought _ :: past => nameOf past
  | .nothing :: past => nameOf past

structure Session where
  document : Document
  tree : Tree
  host : Host

namespace Session

variable (σ : Session)

def read (filename : Text) : Except Fault Text :=
  Storage.readPlain σ.tree σ.host (Path.ofText filename) σ.document.layout.encoding

def step : Use → Session × Except Fault Unit
  | .parseText text source =>
    ({ σ with document := (σ.document.parseText text source).state },
      (σ.document.parseText text source).result)
  | .load filename =>
    ({ σ with document := (σ.document.load σ.tree σ.host filename).state },
      (σ.document.load σ.tree σ.host filename).result)
  | .openFile filename =>
    ({ σ with document := (σ.document.openFile σ.tree σ.host filename).state },
      (σ.document.openFile σ.tree σ.host filename).result)
  | .clear | .close => ({ σ with document := σ.document.clear }, .ok ())
  | .save =>
    ({ σ with tree := (σ.document.save σ.tree σ.host).state },
      (σ.document.save σ.tree σ.host).result)
  | .saveAs filename =>
    ({ σ with tree := (σ.document.saveAs σ.tree σ.host filename).state },
      (σ.document.saveAs σ.tree σ.host filename).result)
  | .elsewhere tree cwd writing =>
    (⟨σ.document, tree, ⟨cwd, σ.host.codecs, writing⟩⟩, .ok ())

/-- What a use does. The text of a file is what is read from it at that moment. -/
def deed (u : Use) : Deed :=
  match (σ.step u).2, u with
  | .error _, _ => .nothing
  | .ok (), .parseText text _ => .brought text
  | .ok (), .load filename => .brought ((σ.read filename).toOption.getD [])
  | .ok (), .openFile filename => .opened filename ((σ.read filename).toOption.getD [])
  | .ok (), .clear => .emptied
  | .ok (), .close => .emptied
  | .ok (), _ => .nothing

/-- A run, and its deeds with the latest first. -/
def run (uses : List Use) : Session × List Deed :=
  uses.foldl (fun r u => ((r.1.step u).1, r.1.deed u :: r.2)) (σ, [])

end Session

namespace Document

open Text

variable {layout : Layout} {filter : NameFilter} {past : List Deed} {σ : Session}

/-- A document holds what its past says. The file that was opened last had a path and an encoding
that could be read with. -/
structure View (layout : Layout) (filter : NameFilter) (past : List Deed) (σ : Session) : Prop where
  layout_eq : σ.document.layout = layout
  filter_eq : σ.document.filter = filter
  filename : σ.document.filename = nameOf past
  lines : σ.document.lines = (textsOf past).flatMap (linesOf layout filter)
  opened : nameOf past ≠ [] → (∃ codec, Storage.codecNamed σ.host layout.encoding = .ok codec) ∧
    (Path.ofText (nameOf past)).hasNull = false

theorem view_new (layout : Layout) (filter : NameFilter) (t : Tree) (host : Host) :
    View layout filter [] ⟨new layout filter, t, host⟩ :=
  ⟨rfl, rfl, rfl, rfl, fun h => absurd rfl h⟩

/-! ## One step -/

/-- What a step can do to the document, with the deed that it leaves and its result. A step that
fails does nothing. -/
inductive Does (σ : Session) : Deed → Except Fault Unit → Document → Prop where
  | bring (text : Text) :
      Does σ (.brought text) (.ok ()) { σ.document with
        lines := σ.document.lines ++ linesOf σ.document.layout σ.document.filter text }
  | openFile {filename text : Text} (hread : σ.read filename = .ok text) :
      Does σ (.opened filename text) (.ok ())
        ⟨filename, linesOf σ.document.layout σ.document.filter text, σ.document.layout,
          σ.document.filter, []⟩
  | empty : Does σ .emptied (.ok ()) σ.document.clear
  | nothing (result : Except Fault Unit) : Does σ .nothing result σ.document

theorem step_does (hsep : σ.document.layout.lineSeparator ≠ []) (u : Use) :
    Does σ (σ.deed u) (σ.step u).2 (σ.step u).1.document := by
  cases u with
  | parseText text source =>
    obtain ⟨events, hparse⟩ := parseText_of_ne_nil hsep text source
    simp only [Session.deed, Session.step, hparse]
    exact .bring text
  | load filename =>
    cases hread : σ.read filename with
    | error fault =>
      simp only [Session.deed, Session.step, load_of_error hread, Reply.fail]
      exact .nothing _
    | ok text =>
      obtain ⟨events, hload⟩ := load_of_readPlain hsep hread
      simp only [Session.deed, Session.step, hload, hread]
      exact .bring text
  | openFile filename =>
    cases hread : σ.read filename with
    | error fault =>
      simp only [Session.deed, Session.step, openFile_of_error hread, Reply.fail]
      exact .nothing _
    | ok text =>
      obtain ⟨events, hopen⟩ := openFile_of_readPlain hsep hread
      simp only [Session.deed, Session.step, hopen, hread]
      exact .openFile hread
  | clear => exact .empty
  | close => exact .empty
  | save =>
    have hdeed : σ.deed .save = .nothing := by
      unfold Session.deed
      cases (σ.step .save).2 <;> rfl
    rw [hdeed]
    exact .nothing _
  | saveAs filename =>
    have hdeed : σ.deed (.saveAs filename) = .nothing := by
      unfold Session.deed
      cases (σ.step (.saveAs filename)).2 <;> rfl
    rw [hdeed]
    exact .nothing _
  | elsewhere tree cwd writing => exact .nothing _

theorem step_of_error (hsep : σ.document.layout.lineSeparator ≠ []) {u : Use} {fault : Fault}
    (h : (σ.step u).2 = .error fault) : (σ.step u).1.document = σ.document := by
  have hdoes := step_does hsep u
  rw [h] at hdoes
  generalize σ.deed u = deed, (σ.step u).1.document = after at hdoes
  cases hdoes
  rfl

theorem codecs_step (σ : Session) (u : Use) : (σ.step u).1.host.codecs = σ.host.codecs := by
  cases u <;> rfl

theorem codecNamed_congr {host host' : Host} (h : host'.codecs = host.codecs) (encoding : Text) :
    Storage.codecNamed host' encoding = Storage.codecNamed host encoding := by
  rw [Storage.codecNamed, Storage.codecNamed, h]

theorem View.does {deed : Deed} {result : Except Fault Unit} {after : Session}
    (h : View layout filter past σ) (hcodecs : after.host.codecs = σ.host.codecs)
    (hdoes : Does σ deed result after.document) : View layout filter (deed :: past) after := by
  have hnamed := codecNamed_congr hcodecs layout.encoding
  have hopened : nameOf past ≠ [] →
      (∃ codec, Storage.codecNamed after.host layout.encoding = .ok codec) ∧
        (Path.ofText (nameOf past)).hasNull = false := by
    rw [hnamed]
    exact h.opened
  obtain ⟨document, tree, host⟩ := after
  cases hdoes with
  | bring text =>
    refine ⟨h.layout_eq, h.filter_eq, h.filename, ?_, hopened⟩
    rw [textsOf, List.flatMap_append, List.flatMap_singleton, ← h.lines, h.layout_eq, h.filter_eq]
  | openFile hread =>
    refine ⟨h.layout_eq, h.filter_eq, rfl, ?_, fun _ => ?_⟩
    · rw [textsOf, List.flatMap_singleton, h.layout_eq, h.filter_eq]
    · obtain ⟨codec, bs, hcodec, hcontent, -⟩ := Storage.readPlain_eq_ok_iff.mp hread
      rw [h.layout_eq] at hcodec
      exact ⟨⟨codec, hnamed.trans hcodec⟩, (Storage.contentOf_eq_ok_iff.mp hcontent).1⟩
  | empty => exact ⟨h.layout_eq, h.filter_eq, rfl, rfl, fun hname => absurd rfl hname⟩
  | nothing => exact ⟨h.layout_eq, h.filter_eq, h.filename, h.lines, hopened⟩

theorem View.step (hsep : layout.lineSeparator ≠ []) (h : View layout filter past σ) (u : Use) :
    View layout filter (σ.deed u :: past) (σ.step u).1 :=
  h.does (codecs_step σ u) (step_does (by rwa [h.layout_eq]) u)

/-! ## Runs -/

/-- By induction on the uses, from any session that agrees with its past. -/
theorem view_foldl (hsep : layout.lineSeparator ≠ []) (uses : List Use) :
    ∀ r : Session × List Deed, View layout filter r.2 r.1 →
      let last := uses.foldl (fun r u => ((r.1.step u).1, r.1.deed u :: r.2)) r
      View layout filter last.2 last.1 := by
  induction uses with
  | nil => exact fun r h => h
  | cons u uses ih => exact fun r h => ih _ (h.step hsep u)

theorem view_run (hsep : layout.lineSeparator ≠ []) (filter : NameFilter) (t : Tree) (host : Host)
    (uses : List Use) :
    View layout filter (Session.run ⟨new layout filter, t, host⟩ uses).2
      (Session.run ⟨new layout filter, t, host⟩ uses).1 :=
  view_foldl hsep uses _ (view_new layout filter t host)

theorem flatMap_linesOf (hsep : IsLineEnd layout.lineSeparator) {texts : List Text}
    (hne : texts ≠ []) : texts.flatMap (linesOf layout filter) =
      linesOf layout filter (join layout.lineSeparator texts) := by
  rw [linesOf, split_join_eq_flatMap hsep.unbordered hne, List.map_flatMap]
  rfl

def added (σ : Session) (text : Text) : Session :=
  ⟨⟨σ.document.filename, σ.document.lines ++ linesOf σ.document.layout σ.document.filter text,
    σ.document.layout, σ.document.filter, σ.document.textual⟩, σ.tree, σ.host⟩

theorem step_load (hsep : σ.document.layout.lineSeparator ≠ []) {filename text : Text}
    (hread : σ.read filename = .ok text) : (σ.step (.load filename)).1 = added σ text := by
  obtain ⟨events, hload⟩ := load_of_readPlain hsep hread
  simp only [Session.step, hload]
  rfl

theorem lines_load_load (hsep : IsLineEnd σ.document.layout.lineSeparator) {a b c x y : Text}
    (ha : σ.read a = .ok x) (hb : σ.read b = .ok y)
    (hc : σ.read c = .ok (x ++ σ.document.layout.lineSeparator ++ y)) :
    (σ.run [.load a, .load b]).1.document.lines = (σ.run [.load c]).1.document.lines := by
  have hboth : (σ.run [.load a, .load b]).1 = ((σ.step (.load a)).1.step (.load b)).1 := rfl
  have hjoined : (σ.run [.load c]).1 = (σ.step (.load c)).1 := rfl
  have hsecond : (added σ x).read b = .ok y := hb
  have hsep' : (added σ x).document.layout.lineSeparator ≠ [] := hsep.ne_nil
  rw [hboth, hjoined, step_load hsep.ne_nil hc, step_load hsep.ne_nil ha, step_load hsep' hsecond]
  simp only [added, linesOf]
  rw [List.append_assoc, List.append_assoc x, split_append_separator hsep.unbordered,
    List.map_append]

/-! ## Saving -/

/-- What saving a document under the name of the file that was opened last comes to. -/
structure Saves (σ : Session) : Prop where
  step_eq : σ.step .save = σ.step (.saveAs σ.document.filename)
  written : (σ.step .save).2 = .ok () → ∃ codec bs loc,
    Storage.codecNamed σ.host σ.document.layout.encoding = .ok codec ∧
    codec.encode σ.document.render = .ok bs ∧
    (σ.step .save).1.tree.locate σ.host.cwd .look (Path.ofText σ.document.filename) =
      .ok (.found loc (.file bs)) ∧
    ∀ l, l ≠ loc → (σ.step .save).1.tree.get? l = σ.tree.get? l
  failed : ∀ fault, (σ.step .save).2 = .error fault →
    (∃ kind path, fault = .access (.failed kind path)) ∨
      (∃ codec message, Storage.codecNamed σ.host σ.document.layout.encoding = .ok codec ∧
        codec.encode σ.document.render = .error message ∧ fault = .unencodable message) ∨
      ∃ left reason, σ.host.writing = .broken left reason ∧ fault = .unwritten reason

theorem View.saves (h : View layout filter past σ) (hname : σ.document.filename ≠ []) :
    Saves σ := by
  have hsave : σ.step .save = σ.step (.saveAs σ.document.filename) := by
    simp only [Session.step, save, if_neg hname]
  obtain ⟨⟨codec, hcodec⟩, hnull⟩ := h.opened (by rwa [← h.filename])
  rw [← h.layout_eq] at hcodec
  rw [← h.filename] at hnull
  refine ⟨hsave, fun hok => ?_, fun fault hfault => ?_⟩
  · rw [hsave] at hok ⊢
    exact saveAs_ok hok
  · rw [hsave] at hfault
    rcases saveAs_error hcodec hnull hfault with hopen | ⟨message, hencode, rfl⟩ | hbroken
    · exact .inl hopen
    · exact .inr (.inl ⟨codec, message, hcodec, hencode, rfl⟩)
    · exact .inr (.inr hbroken)

theorem View.save_unnamed_iff (h : View layout filter past σ) :
    (σ.step .save).2 = .error .unnamed ↔ σ.document.filename = [] := by
  constructor
  · intro hfault
    by_contra hname
    rcases (h.saves hname).failed _ hfault with ⟨kind, path, hopen⟩ | ⟨-, message, -, -, hencode⟩ |
      ⟨left, reason, -, hbroken⟩
    · cases hopen
    · cases hencode
    · cases hbroken
  · intro hname
    simp only [Session.step, save, if_pos hname, Reply.fail]

/-! ## Runs of a document -/

/-- After any run the name of a document is that of the last file that was opened since it was empty,
and its lines are those of the texts since then, joined with the separator. A step that fails leaves
the document as it was. Saving complains about a missing name exactly when there is none, and
otherwise writes the file of that name, unless it cannot be opened, the encoding lacks a character, or
the host breaks the writing off. -/
theorem run_refines (hsep : IsLineEnd layout.lineSeparator) (filter : NameFilter) (t : Tree)
    (host : Host) (uses : List Use) :
    let ran := Session.run ⟨new layout filter, t, host⟩ uses
    let σ := ran.1
    σ.document.filename = nameOf ran.2 ∧
      (textsOf ran.2 = [] → σ.document.lines = []) ∧
      (textsOf ran.2 ≠ [] → ∃ parsed,
        ofText layout filter (join layout.lineSeparator (textsOf ran.2)) = .ok parsed ∧
          σ.document.lines = parsed.lines) ∧
      (∀ a b c x y, σ.read a = .ok x → σ.read b = .ok y →
        σ.read c = .ok (x ++ layout.lineSeparator ++ y) →
        (σ.run [.load a, .load b]).1.document.lines = (σ.run [.load c]).1.document.lines) ∧
      (∀ u fault, (σ.step u).2 = .error fault → (σ.step u).1.document = σ.document) ∧
      ((σ.step .save).2 = .error .unnamed ↔ σ.document.filename = []) ∧
      (σ.document.filename ≠ [] → Saves σ) := by
  intro ran σ
  have hview : View layout filter ran.2 σ := view_run hsep.ne_nil filter t host uses
  have hlayout : σ.document.layout.lineSeparator = layout.lineSeparator := by rw [hview.layout_eq]
  refine ⟨hview.filename, fun hnone => ?_, fun hsome => ?_, fun a b c x y ha hb hc => ?_, ?_,
    hview.save_unnamed_iff, hview.saves⟩
  · rw [hview.lines, hnone]
    rfl
  · refine ⟨_, ofText_eq_ok_iff.mpr ⟨hsep.ne_nil, rfl⟩, ?_⟩
    rw [hview.lines, flatMap_linesOf hsep hsome]
    rfl
  · rw [← hlayout] at hc hsep
    exact lines_load_load hsep ha hb hc
  · exact fun u fault => step_of_error (by rw [hlayout]; exact hsep.ne_nil)

/-- A text is given up for a file, another file is loaded behind it, a third is not there; no separator
comes about between the two that were read. -/
theorem run_refines_loaded :
    let t : Tree := ⟨[(["a".toList], .file [120, 13]), (["b".toList], .file [10, 121])]⟩
    let uses : List Use := [.parseText ['q'] none, .openFile "a".toList, .load "b".toList,
      .openFile "c".toList]
    let σ := (Session.run ⟨new .default .unrestricted, t, .plain []⟩ uses).1
    σ.document.filename = "a".toList ∧
      σ.document.lines = [.raw ['x', '\r'], .raw ['\n', 'y']] ∧ Saves σ := by
  intro t uses σ
  have hsep : IsLineEnd Layout.default.lineSeparator := .crlf
  obtain ⟨hname, -, hlines, -, -, -, hsaves⟩ := run_refines hsep .unrestricted t (.plain []) uses
  have hpast : nameOf (Session.run ⟨new .default .unrestricted, t, .plain []⟩ uses).2 = "a".toList := by
    decide +kernel
  have htexts : textsOf (Session.run ⟨new .default .unrestricted, t, .plain []⟩ uses).2 =
      [['x', '\r'], ['\n', 'y']] := by decide +kernel
  rw [htexts] at hlines
  obtain ⟨parsed, hparsed, hsame⟩ := hlines (by simp)
  obtain ⟨-, rfl⟩ := ofText_eq_ok_iff.mp hparsed
  refine ⟨hname.trans hpast, hsame.trans (by decide +kernel), hsaves ?_⟩
  rw [hname, hpast]
  decide

/-- A document that has a name, but not a text that its encoding can write, nor a disk to write it
to. -/
theorem run_refines_not_ascii :
    let layout : Layout := ⟨['\n'], ['\n'], false, "ascii".toList⟩
    let t : Tree := ⟨[(["a".toList], .file [120])]⟩
    let σ := (Session.run ⟨new layout .unrestricted, t, .plain []⟩
      [.openFile "a".toList, .parseText ['é'] none]).1
    let full := (Session.run ⟨new layout .unrestricted, t, .plain []⟩
      [.openFile "a".toList, .elsewhere t [] (.broken [] "No space left".toList)]).1
    σ.document.filename = "a".toList ∧
      (∃ fault, (σ.step .save).2 = .error fault ∧ fault.isWrongValue = true) ∧
      (σ.step .save).1.tree.get? ["a".toList] = some (.file []) ∧
      full.document.filename = "a".toList ∧
      (full.step .save).2 = .error (.unwritten "No space left".toList) ∧
      (full.step .save).1.tree.get? ["a".toList] = some (.file []) :=
  ⟨rfl, ⟨_, rfl, rfl⟩, rfl, rfl, rfl, rfl⟩

end Document
end JournalScript
