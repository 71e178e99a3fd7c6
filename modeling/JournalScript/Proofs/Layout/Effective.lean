import JournalScript.Proofs.Layout

/-!
# JournalScript.Proofs.Layout.Effective

The layout that comes of the defaults, the variables and the options.

What a variable sets is a relation between its value and what the value means (`Setting`); both kinds
of variables are read alike (`fromVariable_eq_ok_iff`, `fromVariable_eq_error_iff`). A layout is refused
for the first variable that is wrong, even if an option overrides it, and only then for an option
(`choose_eq_error_iff`). Otherwise each of its fields goes back to the option, to the variable or to the
default (`choose_eq_ok_iff_effective`).
-/

namespace JournalScript

namespace Switch

inductive IsWord : Text → Bool → Prop where
  | one : IsWord ['1'] true
  | true : IsWord ['t', 'r', 'u', 'e'] true
  | yes : IsWord ['y', 'e', 's'] true
  | on : IsWord ['o', 'n'] true
  | zero : IsWord ['0'] false
  | false : IsWord ['f', 'a', 'l', 's', 'e'] false
  | no : IsWord ['n', 'o'] false
  | off : IsWord ['o', 'f', 'f'] false

def Means (t : Text) (b : Bool) : Prop := IsWord (Text.lower (Text.strip t)) b

theorem isWord_true_iff {w : Text} : IsWord w Bool.true ↔ w ∈ onWords := by
  constructor
  · intro h
    cases h <;> decide
  · intro h
    simp only [onWords, List.mem_cons, List.not_mem_nil, or_false] at h
    rcases h with rfl | rfl | rfl | rfl
    · exact .one
    · exact .true
    · exact .yes
    · exact .on

theorem isWord_false_iff {w : Text} : IsWord w Bool.false ↔ w ∈ offWords := by
  constructor
  · intro h
    cases h <;> decide
  · intro h
    simp only [offWords, List.mem_cons, List.not_mem_nil, or_false] at h
    rcases h with rfl | rfl | rfl | rfl
    · exact .zero
    · exact .false
    · exact .no
    · exact .off

theorem not_mem_offWords {w : Text} (h : w ∈ onWords) : w ∉ offWords := by
  revert w
  decide

theorem ofWord?_eq_some_iff {t : Text} {b : Bool} : ofWord? t = some b ↔ Means t b := by
  rw [ofWord?, Means]
  simp only [List.contains_iff_mem]
  cases b with
  | true =>
    rw [isWord_true_iff]
    split
    · simp_all
    · split <;> simp_all
  | false =>
    rw [isWord_false_iff]
    split
    · simp [not_mem_offWords ‹_›]
    · split <;> simp_all

end Switch

namespace Layout

/-! ## Variables -/

section Variable

variable {α : Type} {means : Text → α → Prop} {vs : Variables} {name : Text}

/-- What a variable sets, which is nothing when it is unset or empty. -/
inductive Setting (means : Text → α → Prop) (vs : Variables) (name : Text) : Option α → Prop where
  | unset (h : vs.get? name = none) : Setting means vs name none
  | empty (h : vs.get? name = some []) : Setting means vs name none
  | set {value : Text} {a : α} (h : vs.get? name = some value) (hne : value ≠ [])
      (hmeans : means value a) : Setting means vs name (some a)

/-- A variable has a value that means nothing. -/
def Misset (means : Text → α → Prop) (vs : Variables) (name : Text) : Prop :=
  ∃ value, vs.get? name = some value ∧ value ≠ [] ∧ ∀ a, ¬ means value a

/-- How a variable is read, whatever its values mean. -/
def fromVariable (read : Text → Option α) (fault : SettingError) (vs : Variables) (name : Text) :
    Except SettingError (Option α) :=
  match vs.given? name with
  | none => .ok none
  | some value =>
    match read value with
    | some a => .ok (some a)
    | none => .error fault

variable {read : Text → Option α} (hread : ∀ value a, read value = some a ↔ means value a)
  {fault e : SettingError} {found : Option α}
include hread

theorem read_eq_none_iff {value : Text} : read value = none ↔ ∀ a, ¬ means value a := by
  rw [Option.eq_none_iff_forall_not_mem]
  exact forall_congr' fun a => not_congr (hread value a)

theorem fromVariable_eq_ok_iff :
    fromVariable read fault vs name = .ok found ↔ Setting means vs name found := by
  constructor
  · intro h
    rw [fromVariable, Variables.given?] at h
    cases hvalue : vs.get? name with
    | none =>
      simp only [hvalue] at h
      cases h
      exact .unset hvalue
    | some value =>
      cases value with
      | nil =>
        simp only [hvalue] at h
        cases h
        exact .empty hvalue
      | cons c rest =>
        simp only [hvalue] at h
        split at h
        · rename_i a ha
          cases h
          exact .set hvalue (by simp) ((hread _ a).mp ha)
        · cases h
  · intro h
    rw [fromVariable, Variables.given?]
    cases h with
    | unset h => simp [h]
    | empty h => simp [h]
    | set h hne hmeans =>
      obtain ⟨c, rest, rfl⟩ := List.exists_cons_of_ne_nil hne
      simp [h, (hread _ _).mpr hmeans]

theorem fromVariable_eq_error_iff :
    fromVariable read fault vs name = .error e ↔ Misset means vs name ∧ e = fault := by
  constructor
  · intro h
    rw [fromVariable, Variables.given?] at h
    split at h
    · cases h
    rename_i value hgiven
    split at hgiven
    · rename_i c rest hvalue
      cases hgiven
      split at h
      · cases h
      · rename_i hnone
        cases h
        exact ⟨⟨_, hvalue, by simp, (read_eq_none_iff hread).mp hnone⟩, rfl⟩
    · cases hgiven
  · rintro ⟨⟨value, hvalue, hne, hmeans⟩, rfl⟩
    obtain ⟨c, rest, rfl⟩ := List.exists_cons_of_ne_nil hne
    simp [fromVariable, Variables.given?, hvalue, (read_eq_none_iff hread).mpr hmeans]

theorem exists_fromVariable (h : ¬ Misset means vs name) :
    ∃ found, fromVariable read fault vs name = .ok found := by
  cases hfrom : fromVariable read fault vs name with
  | ok found => exact ⟨found, rfl⟩
  | error e => exact absurd ((fromVariable_eq_error_iff hread).mp hfrom).1 h

end Variable

variable {vs : Variables} {name : Text} {e : SettingError} {layout resolved : Layout}

theorem separatorFrom_eq_fromVariable : separatorFrom vs name =
    fromVariable Separator.ofName? (.separatorVariable name) vs name := by
  rw [separatorFrom, fromVariable]
  cases vs.given? name with
  | none => rfl
  | some value =>
    dsimp only
    cases Separator.ofName? value <;> rfl

theorem separatorFrom_eq_ok_iff {found : Option Text} :
    separatorFrom vs name = .ok found ↔ Setting Separator.Means vs name found := by
  rw [separatorFrom_eq_fromVariable]
  exact fromVariable_eq_ok_iff @Separator.ofName?_eq_some_iff

theorem separatorFrom_eq_error_iff : separatorFrom vs name = .error e ↔
    Misset Separator.Means vs name ∧ e = .separatorVariable name := by
  rw [separatorFrom_eq_fromVariable]
  exact fromVariable_eq_error_iff @Separator.ofName?_eq_some_iff

theorem not_misset_of_separatorFrom {found : Option Text} (h : separatorFrom vs name = .ok found) :
    ¬ Misset Separator.Means vs name := by
  intro hmisset
  rw [separatorFrom_eq_error_iff.mpr ⟨hmisset, rfl⟩] at h
  cases h

theorem exists_separatorFrom (h : ¬ Misset Separator.Means vs name) :
    ∃ found, separatorFrom vs name = .ok found := by
  rw [separatorFrom_eq_fromVariable]
  exact exists_fromVariable @Separator.ofName?_eq_some_iff h

theorem switchFrom_eq_fromVariable : switchFrom vs name =
    fromVariable Switch.ofWord? (.switchVariable name) vs name := by
  rw [switchFrom, fromVariable]
  cases vs.given? name with
  | none => rfl
  | some value =>
    dsimp only
    cases Switch.ofWord? value <;> rfl

theorem switchFrom_eq_ok_iff {found : Option Bool} :
    switchFrom vs name = .ok found ↔ Setting Switch.Means vs name found := by
  rw [switchFrom_eq_fromVariable]
  exact fromVariable_eq_ok_iff @Switch.ofWord?_eq_some_iff

theorem switchFrom_eq_error_iff : switchFrom vs name = .error e ↔
    Misset Switch.Means vs name ∧ e = .switchVariable name := by
  rw [switchFrom_eq_fromVariable]
  exact fromVariable_eq_error_iff @Switch.ofWord?_eq_some_iff

/-- The first variable that is wrong, and what is said about it. -/
inductive WrongVariable (vs : Variables) : SettingError → Prop where
  | line (h : Misset Separator.Means vs lineVariable) :
      WrongVariable vs (.separatorVariable lineVariable)
  | output (hline : ¬ Misset Separator.Means vs lineVariable)
      (h : Misset Separator.Means vs outputVariable) :
      WrongVariable vs (.separatorVariable outputVariable)
  | skip (hline : ¬ Misset Separator.Means vs lineVariable)
      (houtput : ¬ Misset Separator.Means vs outputVariable)
      (h : Misset Switch.Means vs skipVariable) : WrongVariable vs (.switchVariable skipVariable)

theorem resolve_eq_error_iff : resolve vs layout = .error e ↔ WrongVariable vs e := by
  constructor
  · intro h
    rw [resolve] at h
    split at h
    · rename_i hfrom
      cases h
      obtain ⟨hline, rfl⟩ := separatorFrom_eq_error_iff.mp hfrom
      exact .line hline
    rename_i line hfrom
    have hline := not_misset_of_separatorFrom hfrom
    split at h
    · rename_i hfrom
      cases h
      obtain ⟨houtput, rfl⟩ := separatorFrom_eq_error_iff.mp hfrom
      exact .output hline houtput
    rename_i output hfrom
    have houtput := not_misset_of_separatorFrom hfrom
    split at h
    · rename_i hfrom
      cases h
      obtain ⟨hskip, rfl⟩ := switchFrom_eq_error_iff.mp hfrom
      exact .skip hline houtput hskip
    · cases h
  · intro h
    cases h with
    | line h => simp [resolve, separatorFrom_eq_error_iff.mpr ⟨h, rfl⟩]
    | output hline h =>
      obtain ⟨line, hfrom⟩ := exists_separatorFrom hline
      simp [resolve, hfrom, separatorFrom_eq_error_iff.mpr ⟨h, rfl⟩]
    | skip hline houtput h =>
      obtain ⟨line, hfrom⟩ := exists_separatorFrom hline
      obtain ⟨output, hfrom'⟩ := exists_separatorFrom houtput
      simp [resolve, hfrom, hfrom', switchFrom_eq_error_iff.mpr ⟨h, rfl⟩]

theorem resolve_eq_ok_iff : resolve vs layout = .ok resolved ↔
    ∃ line output skip, Setting Separator.Means vs lineVariable line ∧
      Setting Separator.Means vs outputVariable output ∧
      Setting Switch.Means vs skipVariable skip ∧
      resolved = ⟨line.getD layout.lineSeparator, output.getD layout.outputSeparator,
        skip.getD layout.skipEmpty, layout.encoding⟩ := by
  simp only [← separatorFrom_eq_ok_iff, ← switchFrom_eq_ok_iff]
  constructor
  · intro h
    rw [resolve] at h
    split at h
    · cases h
    split at h
    · cases h
    split at h
    · cases h
    cases h
    exact ⟨_, _, _, ‹_›, ‹_›, ‹_›, rfl⟩
  · rintro ⟨line, output, skip, hline, houtput, hskip, rfl⟩
    simp [resolve, hline, houtput, hskip]

theorem resolve_resolve (h : resolve vs layout = .ok resolved) :
    resolve vs resolved = .ok resolved ∧ resolved.encoding = layout.encoding := by
  obtain ⟨line, output, skip, hline, houtput, hskip, rfl⟩ := resolve_eq_ok_iff.mp h
  refine ⟨resolve_eq_ok_iff.mpr ⟨line, output, skip, hline, houtput, hskip, ?_⟩, rfl⟩
  cases line <;> cases output <;> cases skip <;> rfl

/-! ## Options -/

/-- The options of a request: separators by name, and whether empty lines are left out. -/
structure Options where
  line : Option Text
  output : Option Text
  skip : Option Bool

def Options.choices (o : Options) : Choices :=
  ⟨o.line.elim .null .str, o.output.elim .null .str, o.skip.elim .null .bool⟩

/-- A separator that is given has no name of one. -/
def Misnamed (option : Option Text) : Prop :=
  ∃ value, option = some value ∧ ∀ sep, ¬ Separator.Means value sep

/-- Where a field comes from: the option, else the variable, else the default. -/
inductive Chosen {α β : Type} (tells : β → α → Prop) (means : Text → α → Prop) (option : Option β)
    (vs : Variables) (name : Text) (otherwise : α) : α → Prop where
  | option {b : β} {a : α} (h : option = some b) (htells : tells b a) :
      Chosen tells means option vs name otherwise a
  | setting {a : α} (h : option = none) (hset : Setting means vs name (some a)) :
      Chosen tells means option vs name otherwise a
  | default (h : option = none) (hset : Setting means vs name none) :
      Chosen tells means option vs name otherwise otherwise

/-- The layout that the options and the variables give. -/
structure Effective (vs : Variables) (o : Options) (layout : Layout) : Prop where
  line : Chosen Separator.Means Separator.Means o.line vs lineVariable ['\r', '\n']
    layout.lineSeparator
  output : Chosen Separator.Means Separator.Means o.output vs outputVariable ['\n']
    layout.outputSeparator
  skip : Chosen Eq Switch.Means o.skip vs skipVariable false layout.skipEmpty
  encoding : layout.encoding = "utf-8".toList

/-- Why there is no layout. Options count only when all variables are right. -/
inductive Refused (vs : Variables) (o : Options) : SettingError → Prop where
  | environment {e : SettingError} (h : WrongVariable vs e) : Refused vs o e
  | line {value : Text} (hvars : ∀ e, ¬ WrongVariable vs e) (hline : o.line = some value)
      (h : ∀ sep, ¬ Separator.Means value sep) : Refused vs o (.separator value)
  | output {value : Text} (hvars : ∀ e, ¬ WrongVariable vs e) (hline : ¬ Misnamed o.line)
      (houtput : o.output = some value) (h : ∀ sep, ¬ Separator.Means value sep) :
      Refused vs o (.separator value)

theorem separatorNamed_eq_ok_iff {value sep : Text} :
    separatorNamed value = .ok sep ↔ Separator.Means value sep := by
  rw [← Separator.ofName?_eq_some_iff, separatorNamed]
  cases Separator.ofName? value <;> simp

theorem separatorNamed_eq_error_iff {value : Text} : separatorNamed value = .error e ↔
    (∀ sep, ¬ Separator.Means value sep) ∧ e = .separator value := by
  rw [← read_eq_none_iff @Separator.ofName?_eq_some_iff, separatorNamed]
  cases Separator.ofName? value <;> simp [eq_comm]

section Chosen

variable {α β : Type} {tells : β → α → Prop} {means : Text → α → Prop} {read : Text → Option α}
  {fault : SettingError} {found : Option α} {option : Option β} {otherwise a : α}

theorem chosen_some_iff {b : β} :
    Chosen tells means (some b) vs name otherwise a ↔ tells b a := by
  constructor
  · intro h
    cases h with
    | option hb h =>
      cases hb
      exact h
    | setting hnone => cases hnone
    | default hnone => cases hnone
  · exact fun h => .option rfl h

theorem chosen_none_iff (hread : ∀ value a, read value = some a ↔ means value a)
    (hfound : fromVariable read fault vs name = .ok found) :
    Chosen tells means none vs name otherwise a ↔ found.getD otherwise = a := by
  have hset := (fromVariable_eq_ok_iff hread).mp hfound
  constructor
  · intro h
    cases h with
    | option hsome => cases hsome
    | setting _ h =>
      rw [(fromVariable_eq_ok_iff hread).mpr h] at hfound
      cases hfound
      rfl
    | default _ h =>
      rw [(fromVariable_eq_ok_iff hread).mpr h] at hfound
      cases hfound
      rfl
  · rintro rfl
    cases found with
    | none => exact .default rfl hset
    | some a => exact .setting rfl hset

end Chosen

theorem separatorOr_eq_ok_iff {option found : Option Text} {otherwise sep : Text}
    (hfound : separatorFrom vs name = .ok found) :
    separatorOr (option.elim .null .str) (found.getD otherwise) = .ok sep ↔
      Chosen Separator.Means Separator.Means option vs name otherwise sep := by
  cases option with
  | some value =>
    rw [chosen_some_iff]
    exact separatorNamed_eq_ok_iff
  | none =>
    rw [separatorFrom_eq_fromVariable] at hfound
    rw [chosen_none_iff @Separator.ofName?_eq_some_iff hfound, Option.elim_none, separatorOr,
      Except.ok.injEq]

theorem separatorOr_eq_error_iff {option : Option Text} {otherwise : Text} :
    separatorOr (option.elim .null .str) otherwise = .error e ↔
      ∃ value, option = some value ∧ (∀ sep, ¬ Separator.Means value sep) ∧
        e = .separator value := by
  cases option with
  | none => simp [separatorOr]
  | some value =>
    have hnamed : separatorNamed value = .error e ↔ _ := separatorNamed_eq_error_iff
    simpa [separatorOr] using hnamed

theorem not_misnamed_of_separatorOr {option : Option Text} {otherwise sep : Text}
    (h : separatorOr (option.elim .null .str) otherwise = .ok sep) : ¬ Misnamed option := by
  rintro ⟨value, hvalue, hmeans⟩
  rw [separatorOr_eq_error_iff.mpr ⟨value, hvalue, hmeans, rfl⟩] at h
  cases h

theorem exists_separatorOr {option : Option Text} (h : ¬ Misnamed option) (otherwise : Text) :
    ∃ sep, separatorOr (option.elim .null .str) otherwise = .ok sep := by
  cases hor : separatorOr (option.elim .null .str) otherwise with
  | ok sep => exact ⟨sep, rfl⟩
  | error e =>
    obtain ⟨value, hvalue, hmeans, -⟩ := separatorOr_eq_error_iff.mp hor
    exact absurd ⟨value, hvalue, hmeans⟩ h

theorem switchOr_eq_iff {option found : Option Bool} {otherwise b : Bool}
    (hfound : switchFrom vs name = .ok found) :
    switchOr (option.elim .null .bool) (found.getD otherwise) = b ↔
      Chosen Eq Switch.Means option vs name otherwise b := by
  cases option with
  | some given =>
    rw [chosen_some_iff]
    rfl
  | none =>
    rw [switchFrom_eq_fromVariable] at hfound
    rw [chosen_none_iff @Switch.ofWord?_eq_some_iff hfound]
    rfl

/-! ## The layout of a request -/

variable {o : Options}

theorem not_wrongVariable_of_resolve (h : resolve vs layout = .ok resolved) :
    ¬ WrongVariable vs e := by
  intro he
  rw [resolve_eq_error_iff.mpr he] at h
  cases h

theorem exists_resolve (h : ∀ e, ¬ WrongVariable vs e) (layout : Layout) :
    ∃ resolved, resolve vs layout = .ok resolved := by
  cases hresolve : resolve vs layout with
  | ok resolved => exact ⟨resolved, rfl⟩
  | error e => exact absurd (resolve_eq_error_iff.mp hresolve) (h e)

theorem choose_eq_ok_iff_effective : choose vs o.choices = .ok layout ↔
    (∀ e, ¬ WrongVariable vs e) ∧ Effective vs o layout := by
  constructor
  · intro h
    obtain ⟨base, hbase, hline, houtput, hskip, hencoding⟩ := choose_eq_ok_iff.mp h
    obtain ⟨line, output, skip, hline', houtput', hskip', rfl⟩ := resolve_eq_ok_iff.mp hbase
    refine ⟨fun e => not_wrongVariable_of_resolve hbase, ?_, ?_, ?_, hencoding⟩
    · exact (separatorOr_eq_ok_iff (separatorFrom_eq_ok_iff.mpr hline')).mp hline
    · exact (separatorOr_eq_ok_iff (separatorFrom_eq_ok_iff.mpr houtput')).mp houtput
    · exact (switchOr_eq_iff (switchFrom_eq_ok_iff.mpr hskip')).mp hskip.symm
  · rintro ⟨hvars, heffective⟩
    obtain ⟨base, hbase⟩ := exists_resolve hvars default
    obtain ⟨line, output, skip, hline', houtput', hskip', rfl⟩ := resolve_eq_ok_iff.mp hbase
    refine choose_eq_ok_iff.mpr ⟨_, hbase, ?_, ?_, ?_, heffective.encoding⟩
    · exact (separatorOr_eq_ok_iff (separatorFrom_eq_ok_iff.mpr hline')).mpr heffective.line
    · exact (separatorOr_eq_ok_iff (separatorFrom_eq_ok_iff.mpr houtput')).mpr heffective.output
    · exact ((switchOr_eq_iff (switchFrom_eq_ok_iff.mpr hskip')).mpr heffective.skip).symm

theorem choose_eq_error_iff : choose vs o.choices = .error e ↔ Refused vs o e := by
  constructor
  · intro h
    rw [choose] at h
    split at h
    · rename_i hbase
      cases h
      exact .environment (resolve_eq_error_iff.mp hbase)
    rename_i base hbase
    have hvars : ∀ e, ¬ WrongVariable vs e := fun e => not_wrongVariable_of_resolve hbase
    split at h
    · rename_i hline
      cases h
      obtain ⟨value, hvalue, hmeans, rfl⟩ := separatorOr_eq_error_iff.mp hline
      exact .line hvars hvalue hmeans
    rename_i line hline
    have hnamed : ¬ Misnamed o.line := not_misnamed_of_separatorOr hline
    split at h
    · rename_i houtput
      cases h
      obtain ⟨value, hvalue, hmeans, rfl⟩ := separatorOr_eq_error_iff.mp houtput
      exact .output hvars hnamed hvalue hmeans
    · cases h
  · intro h
    rw [choose, Options.choices]
    cases h with
    | environment h => rw [resolve_eq_error_iff.mpr h]
    | line hvars hline h =>
      obtain ⟨base, hbase⟩ := exists_resolve hvars default
      simp only [hbase, separatorOr_eq_error_iff.mpr ⟨_, hline, h, rfl⟩]
    | output hvars hline houtput h =>
      obtain ⟨base, hbase⟩ := exists_resolve hvars default
      obtain ⟨line, hor⟩ := exists_separatorOr hline base.lineSeparator
      simp only [hbase, hor, separatorOr_eq_error_iff.mpr ⟨_, houtput, h, rfl⟩]

theorem refused_iff : (∃ e, Refused vs o e) ↔
    Misset Separator.Means vs lineVariable ∨ Misset Separator.Means vs outputVariable ∨
      Misset Switch.Means vs skipVariable ∨ Misnamed o.line ∨ Misnamed o.output := by
  constructor
  · rintro ⟨e, h⟩
    cases h with
    | environment h =>
      cases h with
      | line h => exact .inl h
      | output _ h => exact .inr (.inl h)
      | skip _ _ h => exact .inr (.inr (.inl h))
    | line _ hline h => exact .inr (.inr (.inr (.inl ⟨_, hline, h⟩)))
    | output _ _ houtput h => exact .inr (.inr (.inr (.inr ⟨_, houtput, h⟩)))
  · intro h
    refine Classical.byContradiction fun hnone => ?_
    have hvars : ∀ e, ¬ WrongVariable vs e := fun e he => hnone ⟨e, .environment he⟩
    have hline : ¬ Misset Separator.Means vs lineVariable := fun h => hvars _ (.line h)
    have houtput : ¬ Misset Separator.Means vs outputVariable := fun h => hvars _ (.output hline h)
    have hskip : ¬ Misset Switch.Means vs skipVariable := fun h => hvars _ (.skip hline houtput h)
    have hnamed : ¬ Misnamed o.line := fun ⟨value, hvalue, h⟩ => hnone ⟨_, .line hvars hvalue h⟩
    have hnamed' : ¬ Misnamed o.output := fun ⟨value, hvalue, h⟩ =>
      hnone ⟨_, .output hvars hnamed hvalue h⟩
    rcases h with h | h | h | h | h
    · exact hline h
    · exact houtput h
    · exact hskip h
    · exact hnamed h
    · exact hnamed' h

end Layout
end JournalScript
