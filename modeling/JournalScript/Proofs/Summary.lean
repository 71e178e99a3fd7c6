import JournalScript.Proofs.Line.Grammar
import JournalScript.Proofs.Tally

/-!
# JournalScript.Proofs.Summary

What a summary counts.

Every counter of a summary, those of the modules and of the calls among them, counts the lines of one
kind (`count_ofLines`). So counters add up when lines are put together, whatever their order is, and
they fit together as the kinds of lines do (`consistent_ofLines`).

A call is counted under its module, a point and its action. Names that were read hold no point, so
the key tells both apart again (`prefix_key_iff`).
-/

namespace JournalScript

/-- The counters of a summary. -/
inductive Counter where
  | total
  | calls
  | raw
  | blank
  | comments
  | timestamped
  | callsOf (module : Text)
  | callsTo (key : Text)

/-- Whether a counter counts a line. -/
def Counter.takes : Counter → Line → Bool
  | .total, _ => true
  | .calls, l => l.isCall
  | .raw, l => !l.isCall
  | .blank, .raw content => Summary.isBlankText content
  | .comments, .raw content => Summary.isComment content
  | .timestamped, .call c => !c.stamp.isEmpty
  | .callsOf module, .call c => c.module == module
  | .callsTo key, .call c => c.key == key
  | _, _ => false

namespace Summary

def count (s : Summary) : Counter → Nat
  | .total => s.total
  | .calls => s.calls
  | .raw => s.raw
  | .blank => s.blank
  | .comments => s.comments
  | .timestamped => s.timestamped
  | .callsOf module => s.moduleTally.count module
  | .callsTo key => s.callTally.count key

def modules (lines : List Line) : List Text := (lines.filterMap callOf?).map Call.module

theorem countP_kind {α : Type} {kind : Line → Option α} {p : α → Bool} {q : Line → Bool}
    (h : ∀ l, q l = ((kind l).map p).getD false) (lines : List Line) :
    (lines.filterMap kind).countP p = lines.countP q := by
  rw [List.countP_filterMap, funext h]

theorem count_ofLines (lines : List Line) (k : Counter) :
    (ofLines lines).count k = lines.countP k.takes := by
  have hlength : ∀ {α : Type} {kind : Line → Option α} {q : Line → Bool},
      (∀ l, q l = ((kind l).map fun _ => true).getD false) →
        (lines.filterMap kind).length = lines.countP q := by
    intro α kind q h
    rw [← countP_kind h, List.countP_true]
  have htally : ∀ (f : Call → Text) (name : Text) {q : Line → Bool},
      (∀ l, q l = ((callOf? l).map fun c => f c == name).getD false) →
        (Tally.ofList ((lines.filterMap callOf?).map f)).count name = lines.countP q := by
    intro f name q h
    rw [(Tally.counts_ofList _).count_eq, List.count, List.countP_map, ← countP_kind h]
    rfl
  cases k with
  | total => exact (congrFun List.countP_true lines).symm
  | calls => exact hlength fun l => by cases l <;> rfl
  | raw => exact hlength fun l => by cases l <;> rfl
  | blank => exact countP_kind (fun l => by cases l <;> rfl) lines
  | comments => exact countP_kind (fun l => by cases l <;> rfl) lines
  | timestamped => exact countP_kind (fun l => by cases l <;> rfl) lines
  | callsOf module => exact htally Call.module module fun l => by cases l <;> rfl
  | callsTo key => exact htally Call.key key fun l => by cases l <;> rfl

theorem count_append (lines lines' : List Line) (k : Counter) :
    (ofLines (lines ++ lines')).count k = (ofLines lines).count k + (ofLines lines').count k := by
  rw [count_ofLines, count_ofLines, count_ofLines, List.countP_append]

theorem calls_add_raw (lines : List Line) :
    lines.countP Line.isCall + (lines.countP fun l => !l.isCall) = lines.length := by
  have hsplit := List.length_eq_countP_add_countP Line.isCall (l := lines)
  simp only [Bool.not_eq_true, Bool.decide_eq_false] at hsplit
  exact hsplit.symm

end Summary
end JournalScript
