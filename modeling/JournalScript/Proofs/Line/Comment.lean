import JournalScript.Line.Parameters
import JournalScript.Proofs.Text.Tighten
import Mathlib.Data.List.TakeWhile

/-!
# JournalScript.Proofs.Line.Comment

How one parameter is cut into value and comment.

* `ofLiteral_eq_iff`: on a text without a line feed, reading a parameter gives exactly the one
  whose text this is and whose value and comment are `Settled`, that is, cut apart at the last
  comment.
* `ofLiteral_last_comment`: seen from the text, what is read is its `CommentCut` if it has one, and
  no text has two (`CommentCut.unique`).
* `ofLiteral_tighten`: tightening the text tightens value and comment and moves no cut.
-/

namespace JournalScript

open Text

theorem openMark : Mark '/' '*' := by constructor <;> decide

theorem closeMark : Mark '*' '/' := by constructor <;> decide

/-- The text ends in a comment that is taken off when it is read: one that is not empty and in
which no other comment begins. -/
def EndsInComment (t : Text) : Prop :=
  ∃ v c : Text, t = v ++ ['/', '*'] ++ c ++ ['*', '/'] ∧ c ≠ [] ∧ ¬ ['/', '*'] <:+: c

theorem endsInComment_iff {t : Text} :
    EndsInComment t ↔ ∃ before v c : Text, splitLast? ['*', '/'] t = some (before, []) ∧
      splitLast? ['/', '*'] before = some (v, c) ∧ c ≠ [] := by
  constructor
  · rintro ⟨v, c, rfl, hc, hno⟩
    refine ⟨v ++ ['/', '*'] ++ c, v, c, ?_, ?_, hc⟩
    · rw [closeMark.splitLast?_eq_some_iff]; simp
    · rw [openMark.splitLast?_eq_some_iff]; exact ⟨rfl, hno⟩
  · rintro ⟨before, v, c, hclose, hopen, hc⟩
    rw [closeMark.splitLast?_eq_some_iff] at hclose
    rw [openMark.splitLast?_eq_some_iff] at hopen
    obtain ⟨rfl, -⟩ := hclose
    obtain ⟨rfl, hno⟩ := hopen
    exact ⟨v, c, by simp, hc, hno⟩

/-- A text cut into a value and the comment behind it. Another comment may end in the comment, but
none begins in it. -/
structure CommentCut (t value comment : Text) : Prop where
  spelled : t = value ++ ['/', '*'] ++ comment ++ ['*', '/']
  ne_nil : comment ≠ []
  last : ¬ ['/', '*'] <:+: comment

theorem endsInComment_iff_cut {t : Text} : EndsInComment t ↔ ∃ v c, CommentCut t v c := by
  constructor
  · rintro ⟨v, c, ht, hc, hno⟩
    exact ⟨v, c, ht, hc, hno⟩
  · rintro ⟨v, c, ht, hc, hno⟩
    exact ⟨v, c, ht, hc, hno⟩

/-- The marks of two cuts may overlap, as in `/*/*/`, but the comment begins at the last mark that
leaves room for its end. -/
theorem CommentCut.unique {t v c v' c' : Text} (h : CommentCut t v c) (h' : CommentCut t v' c') :
    v = v' ∧ c = c' := by
  have hbefore : v ++ ['/', '*'] ++ c = v' ++ ['/', '*'] ++ c' :=
    List.append_cancel_right (h.spelled.symm.trans h'.spelled)
  have hcut : splitLast? ['/', '*'] (v ++ ['/', '*'] ++ c) = some (v, c) :=
    openMark.splitLast?_eq_some_iff.mpr ⟨rfl, h.last⟩
  have hcut' : splitLast? ['/', '*'] (v ++ ['/', '*'] ++ c) = some (v', c') :=
    openMark.splitLast?_eq_some_iff.mpr ⟨hbefore, h'.last⟩
  simpa using hcut.symm.trans hcut'

theorem endsInComment_tighten {t : Text} : EndsInComment (tighten t) ↔ EndsInComment t := by
  rw [endsInComment_iff, endsInComment_iff, closeMark.splitLast?_tighten]
  constructor
  · rintro ⟨before, v, c, h, h', hc⟩
    simp only [Option.map_eq_some_iff, Prod.mk.injEq, tighten_eq_nil_iff] at h
    obtain ⟨⟨b, e⟩, hb, rfl, rfl⟩ := h
    rw [openMark.splitLast?_tighten, Option.map_eq_some_iff] at h'
    obtain ⟨⟨v', c'⟩, hv, hvc⟩ := h'
    refine ⟨b, v', c', hb, hv, ?_⟩
    rintro rfl
    simp at hvc
    exact hc hvc.2
  · rintro ⟨before, v, c, h, h', hc⟩
    exact ⟨tighten before, tighten v, tighten c, by simp [h],
      by simp [openMark.splitLast?_tighten, h'], by simpa using hc⟩

namespace Parameter

/-- Value and comment are cut apart where a reader cuts them. -/
def Settled (p : Parameter) : Prop :=
  if p.comment = [] then ¬ EndsInComment p.value else ¬ ['/', '*'] <:+: p.comment

theorem body_of_comment_eq_nil {p : Parameter} (h : p.comment = []) : p.body = p.value := by
  simp [body, annotation, h]

theorem Settled.cut {p : Parameter} (h : p.Settled) (hc : p.comment ≠ []) :
    CommentCut p.body p.value p.comment := by
  refine ⟨by simp [body, annotation, hc], hc, ?_⟩
  simpa [Settled, hc] using h

theorem Settled.comment_ne_nil_iff {p : Parameter} (h : p.Settled) :
    p.comment ≠ [] ↔ ∃ v c, CommentCut p.body v c := by
  constructor
  · intro hc
    exact ⟨p.value, p.comment, h.cut hc⟩
  · intro hcut hc
    rw [← endsInComment_iff_cut, body_of_comment_eq_nil hc] at hcut
    rw [Settled, if_pos hc] at h
    exact h hcut

def tighten (p : Parameter) : Parameter := ⟨p.lead, Text.tighten p.value, Text.tighten p.comment⟩

theorem detach?_append {before : Text} (h : '\n' ∉ before) :
    detach? (before ++ ['*', '/']) =
      (splitLast? ['/', '*'] before).filter fun cut => !cut.2.isEmpty := by
  have htake : (before ++ ['*', '/']).takeWhile (· != '\n') = before ++ ['*', '/'] := by
    rw [List.takeWhile_eq_self_iff]
    intro c hc
    have : c ≠ '\n' := by
      rintro rfl
      simp [h] at hc
    simpa using this
  have hsplit : splitLast? ['*', '/'] (before ++ ['*', '/']) = some (before, []) := by
    rw [closeMark.splitLast?_eq_some_iff]; simp
  simp only [detach?, htake, hsplit]
  cases splitLast? ['/', '*'] before with
  | none => rfl
  | some cut => by_cases hc : cut.2 = [] <;> simp [Option.filter, hc]

theorem ofLiteral_comment {t v c : Text} (lead : Text) (h : '\n' ∉ t) (hcut : CommentCut t v c) :
    ofLiteral lead t = ⟨lead, v, c⟩ := by
  obtain ⟨rfl, hc, hno⟩ := hcut
  have hsuf : ['*', '/'].isSuffixOf (v ++ ['/', '*'] ++ c ++ ['*', '/']) = true := by
    rw [List.isSuffixOf_iff_suffix]; exact List.suffix_append _ _
  have hsplit : splitLast? ['/', '*'] (v ++ ['/', '*'] ++ c) = some (v, c) :=
    openMark.splitLast?_eq_some_iff.mpr ⟨rfl, hno⟩
  rw [ofLiteral, if_pos hsuf, detach?_append (by simp at h; simp [h]), hsplit]
  simp [Option.filter, hc]

theorem ofLiteral_plain {t : Text} (lead : Text) (h : '\n' ∉ t) (hno : ¬ EndsInComment t) :
    ofLiteral lead t = ⟨lead, t, []⟩ := by
  rw [ofLiteral]
  split
  · rename_i hsuf
    obtain ⟨before, rfl⟩ := List.isSuffixOf_iff_suffix.mp hsuf
    rw [endsInComment_iff] at hno
    rw [detach?_append (by simp at h; simp [h])]
    cases hs : splitLast? ['/', '*'] before with
    | none => rfl
    | some cut =>
      obtain ⟨v, c⟩ := cut
      have hc : c = [] := by
        refine Classical.byContradiction fun hc => hno ⟨before, v, c, ?_, hs, hc⟩
        rw [closeMark.splitLast?_eq_some_iff]; simp
      simp [Option.filter, hc]
  · rfl

theorem ofLiteral_eq_iff {lead t : Text} {p : Parameter} (h : '\n' ∉ t) :
    ofLiteral lead t = p ↔ p.lead = lead ∧ p.body = t ∧ p.Settled := by
  have complete : ∀ q : Parameter, q.body = t → q.Settled → ofLiteral q.lead t = q := by
    rintro ⟨l, v, c⟩ rfl hq
    by_cases hc : c = []
    · subst hc
      rw [body_of_comment_eq_nil rfl] at h ⊢
      exact ofLiteral_plain l h (by simpa [Settled] using hq)
    · exact ofLiteral_comment l h (hq.cut hc)
  constructor
  · rintro rfl
    by_cases hend : EndsInComment t
    · obtain ⟨v, c, hcut⟩ := endsInComment_iff_cut.mp hend
      rw [ofLiteral_comment lead h hcut]
      obtain ⟨rfl, hc, hno⟩ := hcut
      exact ⟨rfl, by simp [body, annotation, hc], by simpa [Settled, hc] using hno⟩
    · rw [ofLiteral_plain lead h hend]
      exact ⟨rfl, by simp [body, annotation], by simpa [Settled] using hend⟩
  · rintro ⟨rfl, hbody, hset⟩
    exact complete p hbody hset

theorem ofLiteral_lead {t : Text} (lead : Text) (h : '\n' ∉ t) : (ofLiteral lead t).lead = lead :=
  ((ofLiteral_eq_iff h).mp rfl).1

theorem ofLiteral_body {t : Text} (lead : Text) (h : '\n' ∉ t) : (ofLiteral lead t).body = t :=
  ((ofLiteral_eq_iff h).mp rfl).2.1

theorem ofLiteral_settled {t : Text} (lead : Text) (h : '\n' ∉ t) : (ofLiteral lead t).Settled :=
  ((ofLiteral_eq_iff h).mp rfl).2.2

theorem ofLiteral_literal {t : Text} (lead : Text) (h : '\n' ∉ t) :
    (ofLiteral lead t).literal = lead ++ t := by
  rw [literal, ofLiteral_lead lead h, ofLiteral_body lead h]

/-- Reading takes off the last comment and loses nothing. A comment is read exactly from a text that
can be cut in front of one; every such cut is the one that is read, and a text without any is the
value. -/
theorem ofLiteral_last_comment {t : Text} (lead : Text) (h : '\n' ∉ t) :
    (ofLiteral lead t).literal = lead ++ t ∧ (ofLiteral lead t).lead = lead ∧
      ((ofLiteral lead t).comment ≠ [] ↔ ∃ v c, CommentCut t v c) ∧
      (∀ v c, CommentCut t v c →
        v = (ofLiteral lead t).value ∧ c = (ofLiteral lead t).comment) ∧
      ((¬ ∃ v c, CommentCut t v c) → (ofLiteral lead t).value = t) := by
  have hbody := ofLiteral_body lead h
  have hset := ofLiteral_settled lead h
  have hiff := hset.comment_ne_nil_iff
  rw [hbody] at hiff
  refine ⟨ofLiteral_literal lead h, ofLiteral_lead lead h, hiff, fun v c hcut => ?_, fun hnone => ?_⟩
  · have hread := hset.cut (hiff.mpr ⟨v, c, hcut⟩)
    rw [hbody] at hread
    exact hcut.unique hread
  · have hc : (ofLiteral lead t).comment = [] := by
      by_contra hc
      exact hnone (hiff.mp hc)
    rw [← body_of_comment_eq_nil hc, hbody]

/-- The marks around the last comment overlap, and another comment stands in front. -/
theorem ofLiteral_last_comment_overlap :
    let t := "a/*b*//*/*/".toList
    '\n' ∉ t ∧ CommentCut t "a/*b*/".toList ['/'] ∧
      (ofLiteral [' '] t).literal = ' ' :: t ∧
      (ofLiteral [' '] t).value = "a/*b*/".toList ∧ (ofLiteral [' '] t).comment = ['/'] := by
  intro t
  have hfeed : '\n' ∉ t := by decide
  have hcut : CommentCut t "a/*b*/".toList ['/'] := ⟨by decide, by decide, by decide⟩
  obtain ⟨hliteral, -, -, hpair, -⟩ := ofLiteral_last_comment [' '] hfeed
  obtain ⟨hvalue, hcomment⟩ := hpair _ _ hcut
  exact ⟨hfeed, hcut, hliteral, hvalue.symm, hcomment.symm⟩

/-- Behind a line feed the text would be lost. -/
example : (ofLiteral [] "a/*b*/\n*/".toList).literal = "a/*b*/".toList := by decide

theorem body_tighten (p : Parameter) : p.tighten.body = Text.tighten p.body := by
  by_cases hc : p.comment = []
  · simp [tighten, body, annotation, hc]
  · have hopen := openMark.tighten_around p.value p.comment
    have hclose := closeMark.tighten_around (p.value ++ ['/', '*'] ++ p.comment) []
    rw [hopen] at hclose
    simpa [tighten, body, annotation, hc] using hclose.symm

theorem settled_tighten {p : Parameter} (h : p.Settled) : p.tighten.Settled := by
  by_cases hc : p.comment = []
  · simpa [Settled, tighten, hc, endsInComment_tighten] using h
  · simp only [Settled, hc, if_false] at h
    simpa [Settled, tighten, hc, openMark.infix_tighten] using h

theorem ofLiteral_tighten {t : Text} (lead : Text) (h : '\n' ∉ t) :
    ofLiteral lead (Text.tighten t) = (ofLiteral lead t).tighten := by
  rw [ofLiteral_eq_iff fun hf => h (mem_of_mem_tighten hf), body_tighten, ofLiteral_body lead h]
  exact ⟨ofLiteral_lead lead h, rfl, settled_tighten (ofLiteral_settled lead h)⟩

theorem tighten_eq_self_iff {p : Parameter} : p.tighten = p ↔ ¬ [',', ' '] <:+: p.body := by
  rw [← Text.tighten_eq_self_iff, ← body_tighten]
  constructor
  · intro h; rw [h]
  · intro h
    rw [body_tighten, Text.tighten_eq_self_iff] at h
    have hv : ¬ [',', ' '] <:+: p.value := fun hi =>
      h (hi.trans (List.prefix_append p.value _).isInfix)
    have hc : ¬ [',', ' '] <:+: p.comment := by
      intro hi
      have hne : p.comment ≠ [] := by rintro hn; simp [hn] at hi
      refine h (hi.trans ?_)
      exact ⟨p.value ++ ['/', '*'], ['*', '/'], by simp [body, annotation, hne]⟩
    rw [← Text.tighten_eq_self_iff] at hv hc
    simp [tighten, hv, hc]

end Parameter
end JournalScript
