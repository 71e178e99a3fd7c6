import JournalScript.Line.Parser
import JournalScript.Proofs.Line.Timestamp
import JournalScript.Proofs.Text.Mark
import Mathlib.Data.List.Infix
import Mathlib.Data.List.TakeWhile

/-!
# JournalScript.Proofs.Line.Grammar

The grammar of call lines and its agreement with the reader.

A `Spelling` is a way to cut a line into the parts of a call, and `Spells` says which cuts the
grammar allows. `parse_call_iff_spells`: a line is read as a call exactly when it has a spelling that
the name filter admits; there is then only one, the call is the one that it spells, and every other
line is raw and whole.

* `ofText?_spelled`, `exists_spelling`: reading the part behind the timestamp, both ways.
* `stamped?_eq_some_iff`: cutting the timestamp off.
-/

namespace JournalScript

def IsModuleName (t : Text) : Prop :=
  ∃ x y z : Char, t = ['J', 'r', 'n', x, y, z] ∧
    x.isAlpha = true ∧ y.isAlpha = true ∧ z.isAlpha = true

def IsActionName (t : Text) : Prop := t ≠ [] ∧ ∀ c ∈ t, c.isAlpha = true

/-- The parts of a call line, with the text between the parentheses left as it is. -/
structure Spelling where
  stamp : Option Text
  module : Text
  action : Text
  parameters : Text
  suffix : Text

namespace Spelling

def head (p : Spelling) : Text :=
  match p.stamp with
  | none => []
  | some s => ['/', '*'] ++ s ++ ['*', '/', ' ']

def body (p : Spelling) : Text :=
  p.module ++ ['.'] ++ p.action ++ ['('] ++ p.parameters ++ [')'] ++ p.suffix

def text (p : Spelling) : Text := p.head ++ p.body

def call (p : Spelling) : Call :=
  ⟨p.stamp.getD [], p.module, p.action, Parameter.parseList p.parameters, p.suffix⟩

/-- The grammar of call lines under a name filter. -/
structure Spells (p : Spelling) (f : NameFilter) (line : Text) : Prop where
  text_eq : line = p.text
  no_feed : '\n' ∉ line
  module_name : IsModuleName p.module
  action_name : IsActionName p.action
  suffix_open : ')' ∉ p.suffix
  module_admitted : ∀ names, f.modules = some names → p.module ∈ names
  action_admitted : ∀ names, f.actions = some names → p.action ∈ names
  stamp_fits : ∀ s, p.stamp = some s → Timestamp.Fits s ∧ line.getLast? = some ';'

end Spelling

theorem admits_iff {names : Option (List Text)} {name : Text} :
    NameFilter.admits names name = true ↔ ∀ ns, names = some ns → name ∈ ns := by
  cases names <;> simp [NameFilter.admits]

theorem accepts_iff {f : NameFilter} {module action : Text} :
    f.accepts module action = true ↔ (∀ names, f.modules = some names → module ∈ names) ∧
      ∀ names, f.actions = some names → action ∈ names := by
  rw [NameFilter.accepts, Bool.and_eq_true, admits_iff, admits_iff]

/-! ## The part behind the timestamp -/

theorem IsModuleName.no_feed {t : Text} (h : IsModuleName t) : '\n' ∉ t := by
  obtain ⟨x, y, z, rfl, hx, hy, hz⟩ := h
  have hne : ∀ c : Char, c.isAlpha = true → '\n' ≠ c := by
    rintro c hc rfl
    cases hc
  simp [hne x hx, hne y hy, hne z hz]

theorem IsActionName.no_feed {t : Text} (h : IsActionName t) : '\n' ∉ t := by
  intro hmem
  cases h.2 _ hmem

namespace Spelling

theorem no_feed_body_iff {p : Spelling} (hm : IsModuleName p.module)
    (ha : IsActionName p.action) : '\n' ∉ p.body ↔ '\n' ∉ p.parameters ∧ '\n' ∉ p.suffix := by
  simp [body, hm.no_feed, ha.no_feed]

theorem Spells.no_feed_body {p : Spelling} {f : NameFilter} {line : Text} (h : p.Spells f line) :
    '\n' ∉ p.body := fun hc => h.no_feed (by rw [h.text_eq]; exact List.mem_append_right _ hc)

theorem Spells.no_feed_parameters {p : Spelling} {f : NameFilter} {line : Text}
    (h : p.Spells f line) : '\n' ∉ p.parameters :=
  ((no_feed_body_iff h.module_name h.action_name).mp h.no_feed_body).1

theorem Spells.no_feed_suffix {p : Spelling} {f : NameFilter} {line : Text}
    (h : p.Spells f line) : '\n' ∉ p.suffix :=
  ((no_feed_body_iff h.module_name h.action_name).mp h.no_feed_body).2

theorem getLast?_body (p : Spelling) : p.body.getLast? = p.suffix.getLast?.or (some ')') := by
  rw [body, List.getLast?_append, List.getLast?_append]
  cases p.suffix.getLast? <;> rfl

theorem getLast?_text (p : Spelling) : p.text.getLast? = p.body.getLast? := by
  rw [text, List.getLast?_append, getLast?_body]
  cases p.suffix.getLast? <;> rfl

/-- A call line ends in a semicolon only behind its parenthesis. -/
theorem text_ends_iff {p : Spelling} :
    p.text.getLast? = some ';' ↔ p.suffix.getLast? = some ';' := by
  rw [getLast?_text, getLast?_body]
  cases p.suffix.getLast? <;> simp

end Spelling

namespace Call

theorem isModuleName_iff {t : Text} : isModuleName t = true ↔ IsModuleName t := by
  constructor
  · intro h
    unfold isModuleName at h
    split at h
    · rename_i x y z
      simp only [Bool.and_eq_true] at h
      exact ⟨x, y, z, rfl, h.1.1, h.1.2, h.2⟩
    · cases h
  · rintro ⟨x, y, z, rfl, hx, hy, hz⟩
    simp [isModuleName, hx, hy, hz]

theorem splitLast?_paren {t front back : Text} :
    Text.splitLast? [')'] t = some (front, back) ↔ t = front ++ [')'] ++ back ∧ ')' ∉ back :=
  Text.splitLast?_singleton_iff

theorem ofText?_spelled {p : Spelling} (stamp : Text) (hm : IsModuleName p.module)
    (ha : IsActionName p.action) (hp : '\n' ∉ p.parameters) (hs : '\n' ∉ p.suffix)
    (ho : ')' ∉ p.suffix) :
    ofText? stamp p.body =
      some ⟨stamp, p.module, p.action, Parameter.parseList p.parameters, p.suffix⟩ := by
  have hmod := isModuleName_iff.mpr hm
  obtain ⟨x, y, z, hxyz, -⟩ := hm
  have hlen : p.module.length = 6 := by simp [hxyz]
  have hbody : p.body =
      p.module ++ '.' :: (p.action ++ '(' :: (p.parameters ++ [')'] ++ p.suffix)) := by
    simp [Spelling.body]
  have htake : p.body.take 6 = p.module := by rw [hbody, ← hlen, List.take_left]
  have hdrop : p.body.drop 6 =
      '.' :: (p.action ++ '(' :: (p.parameters ++ [')'] ++ p.suffix)) := by
    rw [hbody, ← hlen, List.drop_left]
  have hletters : (p.action ++ '(' :: (p.parameters ++ [')'] ++ p.suffix)).takeWhile Char.isAlpha =
      p.action := by
    rw [List.takeWhile_append_of_pos ha.2]; simp
  have hrest : (p.action ++ '(' :: (p.parameters ++ [')'] ++ p.suffix)).dropWhile Char.isAlpha =
      '(' :: (p.parameters ++ [')'] ++ p.suffix) := by
    rw [List.dropWhile_append_of_pos ha.2]; simp
  have hsplit : Text.splitLast? [')'] (p.parameters ++ [')'] ++ p.suffix) =
      some (p.parameters, p.suffix) := splitLast?_paren.mpr ⟨rfl, ho⟩
  have hnofeed : (p.parameters ++ [')'] ++ p.suffix).contains '\n' = false := by
    simp [hp, hs]
  have hne : p.action.isEmpty = false := by simpa using ha.1
  simp only [ofText?, htake, hdrop, hletters, hrest, hsplit, hmod, hne, hnofeed, Bool.not_false,
    Bool.and_self, if_true]

theorem exists_spelling {stamp t : Text} {c : Call} (h : ofText? stamp t = some c) :
    ∃ p : Spelling, t = p.body ∧ IsModuleName p.module ∧ IsActionName p.action ∧
      '\n' ∉ p.body ∧ ')' ∉ p.suffix ∧
      c = ⟨stamp, p.module, p.action, Parameter.parseList p.parameters, p.suffix⟩ := by
  simp only [ofText?] at h
  split at h
  · rename_i rest hdrop
    split at h
    · rename_i inner hinner
      split at h
      · rename_i hcond
        split at h
        · rename_i parameters suffix hsplit
          rw [splitLast?_paren] at hsplit
          obtain ⟨rfl, hopen⟩ := hsplit
          simp only [Bool.and_eq_true, Bool.not_eq_true', isModuleName_iff] at hcond
          obtain ⟨⟨hmod, hne⟩, hfeed⟩ := hcond
          have ht : t = t.take 6 ++ '.' :: (rest.takeWhile Char.isAlpha ++
              '(' :: (parameters ++ [')'] ++ suffix)) := by
            rw [← hinner, List.takeWhile_append_dropWhile, ← hdrop, List.take_append_drop]
          have hact : IsActionName (rest.takeWhile Char.isAlpha) :=
            ⟨by simpa using hne, fun c hc => List.mem_takeWhile_imp hc⟩
          refine ⟨⟨none, t.take 6, rest.takeWhile Char.isAlpha, parameters, suffix⟩, ?_, hmod, hact,
            ?_, hopen, by simpa using h.symm⟩
          · exact ht.trans (by simp [Spelling.body])
          · rw [Spelling.no_feed_body_iff hmod hact]
            simpa using hfeed
        · cases h
      · cases h
    · cases h
  · cases h

end Call

/-! ## Whole lines -/

namespace Line

theorem stamped?_eq_some_iff {line s rest : Text} :
    stamped? line = some (s, rest) ↔ line = ['/', '*'] ++ s ++ ['*', '/', ' '] ++ rest ∧
      Timestamp.Fits s ∧ rest.getLast? = some ';' ∧ '\n' ∉ rest := by
  constructor
  · intro h
    unfold stamped? at h
    split at h
    · rename_i t
      split at h
      · rename_i stamp rest' hsplit
        split at h
        · rename_i hcond
          simp only [Option.some.injEq, Prod.mk.injEq] at h
          obtain ⟨rfl, rfl⟩ := h
          obtain ⟨rfl, hfits⟩ := Timestamp.split?_eq_some_iff.mp hsplit
          simp only [Bool.and_eq_true, beq_iff_eq, Bool.not_eq_true'] at hcond
          exact ⟨by simp, hfits, hcond.1, by simpa using hcond.2⟩
        · cases h
      · cases h
    · cases h
  · rintro ⟨rfl, hfits, hlast, hfeed⟩
    have hsplit : Timestamp.split? (s ++ '*' :: '/' :: ' ' :: rest) =
        some (s, '*' :: '/' :: ' ' :: rest) := Timestamp.split?_eq_some_iff.mpr ⟨rfl, hfits⟩
    simp [stamped?, hsplit, hlast, hfeed]

theorem stamped?_eq_none {line : Text} (h : line.head? ≠ some '/') : stamped? line = none := by
  cases hs : stamped? line with
  | none => rfl
  | some cut =>
    obtain ⟨rfl, -⟩ := stamped?_eq_some_iff.mp hs
    simp at h

theorem parse_raw {f : NameFilter} {line content : Text} (h : parse f line = .raw content) :
    content = line := by
  unfold parse at h
  split at h
  split at h
  · split at h <;> simp at h
    exact h.symm
  · simpa using h.symm

theorem parse_of_spells {f : NameFilter} {p : Spelling} {line : Text} (h : p.Spells f line) :
    parse f line = .call p.call := by
  have hacc : f.accepts p.module p.action = true :=
    accepts_iff.mpr ⟨h.module_admitted, h.action_admitted⟩
  have hread := fun stamp => Call.ofText?_spelled stamp h.module_name h.action_name
    h.no_feed_parameters h.no_feed_suffix h.suffix_open
  have hcut : (stamped? line).getD ([], line) = (p.stamp.getD [], p.body) := by
    cases hstamp : p.stamp with
    | none =>
      have hline : line = p.body := by rw [h.text_eq, Spelling.text, Spelling.head, hstamp]; rfl
      obtain ⟨x, y, z, hm, -⟩ := h.module_name
      rw [stamped?_eq_none (by rw [hline]; simp [Spelling.body, hm]), hline]
      rfl
    | some s =>
      obtain ⟨hfits, hlast⟩ := h.stamp_fits s hstamp
      have hline : line = ['/', '*'] ++ s ++ ['*', '/', ' '] ++ p.body := by
        rw [h.text_eq, Spelling.text, Spelling.head, hstamp]
      have hlast' : p.body.getLast? = some ';' := by
        rw [← Spelling.getLast?_text, ← h.text_eq]; exact hlast
      rw [stamped?_eq_some_iff.mpr ⟨hline, hfits, hlast', h.no_feed_body⟩]
      rfl
  simp only [parse, hcut, hread, hacc, if_true]
  rfl

theorem exists_spells {f : NameFilter} {line : Text} {c : Call} (h : parse f line = .call c) :
    ∃ p : Spelling, p.Spells f line ∧ c = p.call := by
  unfold parse at h
  split at h
  rename_i stamp body hcut
  split at h
  · rename_i c' hread
    split at h
    · rename_i hacc
      simp only [Line.call.injEq] at h
      subst h
      obtain ⟨p, rfl, hm, ha, hfeed, hopen, rfl⟩ := Call.exists_spelling hread
      obtain ⟨hmods, hacts⟩ := accepts_iff.mp hacc
      cases hs : stamped? line with
      | none =>
        rw [hs] at hcut
        simp only [Option.getD_none, Prod.mk.injEq] at hcut
        obtain ⟨rfl, hline⟩ := hcut
        exact ⟨{ p with stamp := none }, ⟨hline, by rw [hline]; exact hfeed, hm, ha, hopen, hmods,
          hacts, by simp⟩, rfl⟩
      | some cut =>
        rw [hs] at hcut
        simp only [Option.getD_some] at hcut
        subst hcut
        obtain ⟨hline, hfits, hlast, -⟩ := stamped?_eq_some_iff.mp hs
        refine ⟨{ p with stamp := some stamp }, ⟨hline, ?_, hm, ha, hopen, hmods, hacts, ?_⟩, rfl⟩
        · rw [hline]
          simp [hfits.no_feed, hfeed]
        · rintro s hs'
          simp only [Option.some.injEq] at hs'
          subst hs'
          refine ⟨hfits, ?_⟩
          rw [hline, List.getLast?_append, hlast]
          rfl
    · cases h
  · cases h

theorem spells_unique {f : NameFilter} {p q : Spelling} {line : Text} (hp : p.Spells f line)
    (hq : q.Spells f line) : q = p := by
  have hcall : q.call = p.call := by
    have := (parse_of_spells hq).symm.trans (parse_of_spells hp)
    simpa using this
  simp only [Spelling.call, Call.mk.injEq] at hcall
  obtain ⟨hstamp, hm, ha, -, hs⟩ := hcall
  have hstamp' : q.stamp = p.stamp := by
    cases hqs : q.stamp with
    | none =>
      cases hps : p.stamp with
      | none => rfl
      | some s =>
        rw [hqs, hps] at hstamp
        exact absurd hstamp.symm (hp.stamp_fits s hps).1.ne_nil
    | some s =>
      cases hps : p.stamp with
      | none =>
        rw [hqs, hps] at hstamp
        exact absurd hstamp (hq.stamp_fits s hqs).1.ne_nil
      | some s' => rw [hqs, hps] at hstamp; exact congrArg some hstamp
  have htext : q.text = p.text := hq.text_eq.symm.trans hp.text_eq
  obtain ⟨qstamp, qm, qa, qp, qs⟩ := q
  obtain ⟨pstamp, pm, pa, pp, ps⟩ := p
  simp only at hm ha hs hstamp'
  subst hm ha hs hstamp'
  simpa [Spelling.text, Spelling.head, Spelling.body] using htext

/-- Exactly the lines of the grammar are calls. A line of the grammar has one spelling, and the call
is the one that it spells; every other line is kept whole. -/
theorem parse_call_iff_spells (f : NameFilter) (line : Text) :
    ((parse f line).isCall = true ↔ ∃ p : Spelling, p.Spells f line) ∧
      (∀ p : Spelling, p.Spells f line →
        parse f line = .call p.call ∧ ∀ q : Spelling, q.Spells f line → q = p) ∧
      ((¬ ∃ p : Spelling, p.Spells f line) → parse f line = .raw line) := by
  refine ⟨⟨fun h => ?_, ?_⟩, fun p hp => ⟨parse_of_spells hp, fun q => spells_unique hp⟩, ?_⟩
  · cases hparse : parse f line with
    | call c =>
      obtain ⟨p, hp, -⟩ := exists_spells hparse
      exact ⟨p, hp⟩
    | raw content => rw [hparse] at h; cases h
  · rintro ⟨p, hp⟩
    rw [parse_of_spells hp]; rfl
  · intro hno
    cases hparse : parse f line with
    | call c =>
      obtain ⟨p, hp, -⟩ := exists_spells hparse
      exact absurd ⟨p, hp⟩ hno
    | raw content => rw [parse_raw hparse]

end Line
end JournalScript
