import JournalScript.Proofs.Line.SecondPass
import JournalScript.Proofs.Text.Run

/-!
# JournalScript.Proofs.Line.Passes

Printing a line that was read and reading it again, any number of times.

Each pass tightens the parameters of a call once more and leaves the rest of it alone
(`pass_iterate_call`). The comma with the most spaces behind it in a parameter therefore tells how
many passes change the call (`pass_iterate_eq_self_iff`). In the line that comma has one space more,
which the first reading has dropped (`lt_longestRun_of_mem_parameters`), so the longest run of spaces
in the line is a bound: `parse_literal_settles`.
-/

namespace JournalScript

open Text

namespace Parameter

theorem body_iterate_tighten (n : Nat) (q : Parameter) :
    (tighten^[n] q).body = Text.tighten^[n] q.body :=
  Function.Semiconj.iterate_right body_tighten n q

end Parameter

namespace Call

theorem iterate_tighten (n : Nat) (c : Call) :
    tighten^[n] c = { c with parameters := c.parameters.map Parameter.tighten^[n] } := by
  induction n generalizing c with
  | zero => simp
  | succ n ih => simp [ih, tighten, Function.iterate_succ]

theorem tighten_iterate_eq_self_iff {n : Nat} {c : Call} :
    (tighten^[n] c).tighten = tighten^[n] c ↔
      ∀ q ∈ c.parameters, ¬ commaRun (n + 1) <:+: q.body := by
  rw [Line.tighten_call_eq_self_iff, iterate_tighten]
  simp [Parameter.body_iterate_tighten, commaSpace_infix_iterate]

end Call

theorem Spelling.parameters_infix (p : Spelling) : p.parameters <:+: p.text :=
  ⟨p.head ++ p.module ++ ['.'] ++ p.action ++ ['('], [')'] ++ p.suffix, by simp [text, body]⟩

namespace Line

def pass (f : NameFilter) (l : Line) : Line := parse f l.literal

theorem pass_iterate_call {f : NameFilter} {line : Text} {c : Call} (h : parse f line = .call c)
    (n : Nat) : (pass f)^[n] (.call c) = .call (Call.tighten^[n] c) := by
  -- The first pass makes another line and another call, to which the hypothesis applies.
  induction n generalizing line c with
  | zero => rfl
  | succ n ih =>
    have hpass : parse f c.literal = .call c.tighten := parse_literal_of_call h
    rw [Function.iterate_succ_apply, Function.iterate_succ_apply, pass, literal, hpass, ih hpass]

/-- A call that was read is settled after exactly as many passes as there are spaces behind a comma
of its parameters. -/
theorem pass_iterate_eq_self_iff {f : NameFilter} {line : Text} {c : Call}
    (h : parse f line = .call c) (n : Nat) :
    pass f ((pass f)^[n] (.call c)) = (pass f)^[n] (.call c) ↔
      ∀ q ∈ c.parameters, ¬ commaRun (n + 1) <:+: q.body := by
  rw [← Function.iterate_succ_apply' (pass f), pass_iterate_call h, pass_iterate_call h,
    Line.call.injEq, Function.iterate_succ_apply', Call.tighten_iterate_eq_self_iff]

/-- Behind a comma a parameter holds fewer spaces than the line has in a row. -/
theorem lt_longestRun_of_mem_parameters {f : NameFilter} {line : Text} {c : Call}
    (h : parse f line = .call c) {q : Parameter} (hq : q ∈ c.parameters) {n : Nat}
    (hrun : commaRun (n + 1) <:+: q.body) : n + 1 < longestRun ' ' line := by
  obtain ⟨p, hp, rfl⟩ := exists_spells h
  obtain ⟨s, hs, hbody⟩ := Parameter.exists_infix_of_mem_parseList hp.no_feed_parameters hq
  rw [hbody, commaRun_infix_tighten] at hrun
  rw [hp.text_eq]
  exact le_longestRun_of_commaRun (hrun.trans (hs.trans p.parameters_infix))

/-- The second reading finds the same call, each value and each comment with `, ` replaced by a bare
comma. Reading and printing go on to change the call for fewer passes than the line has spaces in a
row. -/
theorem parse_literal_settles {f : NameFilter} {line : Text} {x : Call}
    (h : parse f line = .call x) :
    (∃ y : Call, parse f x.literal = .call y ∧ y.stamp = x.stamp ∧ y.module = x.module ∧
      y.action = x.action ∧ y.suffix = x.suffix ∧
      List.Forall₂ (fun p q : Parameter => q.lead = p.lead ∧
        q.value = replace [',', ' '] [','] p.value ∧
        q.comment = replace [',', ' '] [','] p.comment) x.parameters y.parameters) ∧
    ∀ n, longestRun ' ' line ≤ n + 1 →
      pass f ((pass f)^[n] (.call x)) = (pass f)^[n] (.call x) := by
  refine ⟨⟨x.tighten, parse_literal_of_call h, rfl, rfl, rfl, rfl, ?_⟩, fun n hn => ?_⟩
  · rw [Call.tighten, List.forall₂_map_right_iff]
    exact List.forall₂_same.mpr fun p _ => ⟨rfl, rfl, rfl⟩
  · refine (pass_iterate_eq_self_iff h n).mpr fun q hq hrun => ?_
    have := lt_longestRun_of_mem_parameters h hq hrun
    omega

/-- Three spaces behind a comma: the first reading drops one, the two passes after it the others. -/
theorem parse_literal_settles_spaces :
    let line : Text := "JrnCmd.A(1, \"a,   b\"/*x,  y*/);".toList
    let x : Call := ⟨[], "JrnCmd".toList, ['A'],
      [⟨[], ['1'], []⟩, ⟨[' '], "\"a,  b\"".toList, "x, y".toList⟩], [';']⟩
    parse .unrestricted line = .call x ∧ longestRun ' ' line = 3 ∧
      (∃ y : Call, parse .unrestricted x.literal = .call y ∧ y.suffix = [';']) ∧
      pass .unrestricted ((pass .unrestricted)^[2] (.call x)) =
        (pass .unrestricted)^[2] (.call x) ∧
      pass .unrestricted ((pass .unrestricted)^[1] (.call x)) ≠
        (pass .unrestricted)^[1] (.call x) := by
  intro line x
  have hread : parse .unrestricted line = .call x := by decide
  have hrun : longestRun ' ' line = 3 := by decide
  obtain ⟨⟨y, hy, -, -, -, hsuffix, -⟩, hsettled⟩ := parse_literal_settles hread
  exact ⟨hread, hrun, ⟨y, hy, hsuffix⟩, hsettled 2 hrun.le, by decide⟩

end Line
end JournalScript
