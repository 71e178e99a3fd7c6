import JournalScript.Line.Payload
import Mathlib.Data.List.Forall2

/-!
# JournalScript.Proofs.Line.Payload

Lines as structured values, written and read.

`Describes` says which objects describe which lines, field by field: a text that must be there, a
text that may be absent, a list of parameters that may be absent. `ofValue_eq_ok_iff`: reading
succeeds on exactly the values that describe a line, and gives that line. What reading asks for is
found by name, so `ofValue_congr`: two objects that agree on the fields of their kind are read alike,
refusals included, whatever stands beside these fields. `toValue_of_describes`: the line that was read
is written as the object it was read from, with the absent fields filled in and the text computed
anew.

Main definitions: `Payload.Describes`, `Payload.Alike`, `Payload.normal`.
-/

namespace JournalScript
namespace Payload

variable {fields fields' more : List (Text × Value)} {name s : Text} {path : List Step}

/-! ### Texts -/

def Holds (fields : List (Text × Value)) (name s : Text) : Prop :=
  Value.get? name fields = some (.str s)

def MayHold (fields : List (Text × Value)) (name s : Text) : Prop :=
  Holds fields name s ∨ Value.get? name fields = none ∧ s = []

theorem get?_append_of_eq_some {v : Value} (h : Value.get? name fields = some v) :
    Value.get? name (fields ++ more) = some v := by
  induction fields with
  | nil => cases h
  | cons field fields ih =>
    obtain ⟨k, u⟩ := field
    rw [List.cons_append, Value.get?]
    rw [Value.get?] at h
    split at h
    · rename_i hk
      rw [if_pos hk]
      exact h
    · rename_i hk
      rw [if_neg hk]
      exact ih h

theorem requiredText_eq_ok_iff : requiredText path name fields = .ok s ↔ Holds fields name s := by
  rw [requiredText, Holds]
  cases Value.get? name fields with
  | none => simp
  | some v => cases v <;> simp

theorem optionalText_eq_ok_iff : optionalText path name fields = .ok s ↔ MayHold fields name s := by
  rw [optionalText, MayHold, Holds]
  cases Value.get? name fields with
  | none => simp [eq_comm]
  | some v => cases v <;> simp

theorem requiredText_congr (h : Value.get? name fields = Value.get? name fields') :
    requiredText path name fields = requiredText path name fields' := by
  simp only [requiredText, h]

theorem optionalText_congr (h : Value.get? name fields = Value.get? name fields') :
    optionalText path name fields = optionalText path name fields' := by
  simp only [optionalText, h]

/-! ### What describes a line -/

inductive DescribesParameter : Value → Parameter → Prop
  | object {fields : List (Text × Value)} {p : Parameter}
      (value : Holds fields "value".toList p.value)
      (lead : MayHold fields "prefix".toList p.lead)
      (comment : MayHold fields "comment".toList p.comment) :
      DescribesParameter (.object fields) p

/-- Of the field that holds the parameters; its absence stands for the empty list. -/
inductive DescribesParameters : Option Value → List Parameter → Prop
  | absent : DescribesParameters none []
  | list {items : List Value} {ps : List Parameter}
      (h : List.Forall₂ DescribesParameter items ps) : DescribesParameters (some (.list items)) ps

structure DescribesCall (fields : List (Text × Value)) (c : Call) : Prop where
  stamp : MayHold fields "prefix".toList c.stamp
  module : Holds fields "module".toList c.module
  action : Holds fields "action".toList c.action
  parameters : DescribesParameters (Value.get? "parameters".toList fields) c.parameters
  suffix : MayHold fields "suffix".toList c.suffix

inductive Describes : Value → Line → Prop
  | call {fields : List (Text × Value)} {c : Call}
      (tag : Holds fields "type".toList "parameterized".toList) (h : DescribesCall fields c) :
      Describes (.object fields) (.call c)
  | raw {fields : List (Text × Value)} {content : Text}
      (tag : Holds fields "type".toList "raw".toList) (h : Holds fields "content".toList content) :
      Describes (.object fields) (.raw content)

theorem parameter_eq_ok_iff {v : Value} {p : Parameter} :
    parameter path v = .ok p ↔ DescribesParameter v p := by
  constructor
  · intro h
    cases v with
    | object fields =>
      rw [parameter] at h
      split at h
      · rename_i hvalue hlead hcomment
        cases h
        exact .object (requiredText_eq_ok_iff.1 hvalue) (optionalText_eq_ok_iff.1 hlead)
          (optionalText_eq_ok_iff.1 hcomment)
      · cases h
    | _ => cases h
  · rintro ⟨hvalue, hlead, hcomment⟩
    rw [parameter, requiredText_eq_ok_iff.2 hvalue, optionalText_eq_ok_iff.2 hlead,
      optionalText_eq_ok_iff.2 hcomment]

theorem parametersFrom_eq_ok_iff {items : List Value} {ps : List Parameter} :
    ∀ i, parametersFrom path i items = .ok ps ↔ List.Forall₂ DescribesParameter items ps := by
  -- The index is only told in refusals, so it may be any.
  induction items generalizing ps with
  | nil =>
    intro i
    rw [parametersFrom, List.forall₂_nil_left_iff, Except.ok.injEq, eq_comm]
  | cons v items ih =>
    intro i
    rw [parametersFrom]
    constructor
    · intro h
      split at h
      · rename_i p ps' hp hps
        cases h
        exact .cons (parameter_eq_ok_iff.1 hp) ((ih (i + 1)).1 hps)
      · cases h
    · rintro (_ | ⟨hp, hps⟩)
      rw [parameter_eq_ok_iff.2 hp, (ih (i + 1)).2 hps]

theorem parameters_eq_ok_iff {ps : List Parameter} :
    parameters path fields = .ok ps ↔
      DescribesParameters (Value.get? "parameters".toList fields) ps := by
  rw [parameters]
  cases Value.get? "parameters".toList fields with
  | none =>
    refine ⟨fun h => ?_, fun h => ?_⟩
    · cases h
      exact .absent
    · cases h
      rfl
  | some v =>
    cases v with
    | list items =>
      refine ⟨fun h => .list ((parametersFrom_eq_ok_iff 0).1 h), fun h => ?_⟩
      cases h with
      | list h => exact (parametersFrom_eq_ok_iff 0).2 h
    | _ => exact ⟨nofun, nofun⟩

theorem call_eq_ok_iff {l : Line} :
    call fields = .ok l ↔ ∃ c, l = .call c ∧ DescribesCall fields c := by
  rw [call]
  constructor
  · intro h
    split at h
    · rename_i hstamp hmodule haction hparameters hsuffix
      cases h
      exact ⟨_, rfl, optionalText_eq_ok_iff.1 hstamp, requiredText_eq_ok_iff.1 hmodule,
        requiredText_eq_ok_iff.1 haction, parameters_eq_ok_iff.1 hparameters,
        optionalText_eq_ok_iff.1 hsuffix⟩
    · cases h
  · rintro ⟨c, rfl, h⟩
    rw [optionalText_eq_ok_iff.2 h.stamp, requiredText_eq_ok_iff.2 h.module,
      requiredText_eq_ok_iff.2 h.action, parameters_eq_ok_iff.2 h.parameters,
      optionalText_eq_ok_iff.2 h.suffix]

theorem raw_eq_ok_iff {l : Line} :
    raw fields = .ok l ↔ ∃ content, l = .raw content ∧ Holds fields "content".toList content := by
  rw [raw]
  constructor
  · intro h
    split at h
    · rename_i content hcontent
      cases h
      exact ⟨content, rfl, requiredText_eq_ok_iff.1 hcontent⟩
    · cases h
  · rintro ⟨content, rfl, h⟩
    rw [requiredText_eq_ok_iff.2 h]

/-! ### What a line is read from -/

def parameterNames : List Text := ["value".toList, "prefix".toList, "comment".toList]

def callNames : List Text :=
  ["prefix".toList, "module".toList, "action".toList, "suffix".toList]

inductive AlikeParameter : Value → Value → Prop
  | refl (v : Value) : AlikeParameter v v
  | object {fields fields' : List (Text × Value)}
      (h : ∀ name ∈ parameterNames, Value.get? name fields = Value.get? name fields') :
      AlikeParameter (.object fields) (.object fields')

inductive AlikeParameters : Option Value → Option Value → Prop
  | refl (v : Option Value) : AlikeParameters v v
  | list {items items' : List Value} (h : List.Forall₂ AlikeParameter items items') :
      AlikeParameters (some (.list items)) (some (.list items'))

/-- Two objects of one type that agree on the fields of this type. Every other field may differ, also
one that the other type has. -/
structure Alike (fields fields' : List (Text × Value)) : Prop where
  tag : Value.get? "type".toList fields = Value.get? "type".toList fields'
  content : Holds fields "type".toList "raw".toList →
    Value.get? "content".toList fields = Value.get? "content".toList fields'
  texts : Holds fields "type".toList "parameterized".toList →
    ∀ name ∈ callNames, Value.get? name fields = Value.get? name fields'
  parameters : Holds fields "type".toList "parameterized".toList →
    AlikeParameters (Value.get? "parameters".toList fields)
      (Value.get? "parameters".toList fields')

theorem parameter_congr {v v' : Value} (h : AlikeParameter v v') :
    parameter path v = parameter path v' := by
  cases h with
  | refl => rfl
  | object h =>
    have hvalue := h "value".toList (by simp [parameterNames])
    have hlead := h "prefix".toList (by simp [parameterNames])
    have hcomment := h "comment".toList (by simp [parameterNames])
    simp only [parameter, requiredText_congr hvalue, optionalText_congr hlead,
      optionalText_congr hcomment]

theorem parametersFrom_congr {items items' : List Value}
    (h : List.Forall₂ AlikeParameter items items') :
    ∀ i, parametersFrom path i items = parametersFrom path i items' := by
  induction h with
  | nil => intro i; rfl
  | cons hv _ ih =>
    intro i
    simp only [parametersFrom, parameter_congr hv, ih (i + 1)]

theorem parameters_congr (h : AlikeParameters (Value.get? "parameters".toList fields)
    (Value.get? "parameters".toList fields')) :
    parameters path fields = parameters path fields' := by
  rw [parameters, parameters]
  generalize Value.get? "parameters".toList fields = v at h ⊢
  generalize Value.get? "parameters".toList fields' = v' at h ⊢
  cases h with
  | refl => rfl
  | list h => exact parametersFrom_congr h 0

theorem call_congr (htexts : ∀ name ∈ callNames, Value.get? name fields = Value.get? name fields')
    (hparameters : AlikeParameters (Value.get? "parameters".toList fields)
      (Value.get? "parameters".toList fields')) : call fields = call fields' := by
  have hstamp := htexts "prefix".toList (by simp [callNames])
  have hmodule := htexts "module".toList (by simp [callNames])
  have haction := htexts "action".toList (by simp [callNames])
  have hsuffix := htexts "suffix".toList (by simp [callNames])
  simp only [call, optionalText_congr hstamp, requiredText_congr hmodule,
    requiredText_congr haction, parameters_congr hparameters, optionalText_congr hsuffix]

theorem raw_congr (h : Value.get? "content".toList fields = Value.get? "content".toList fields') :
    raw fields = raw fields' := by
  simp only [raw, requiredText_congr h]

/-! ### The normal form -/

def textField (fields : List (Text × Value)) (name : Text) : Text × Value :=
  (name, (Value.get? name fields).getD (.str []))

def normalParameter : Value → Value
  | .object fields => .object (parameterNames.map (textField fields))
  | v => v

def normalParameters : Option Value → Value
  | none => .list []
  | some (.list items) => .list (items.map normalParameter)
  | some v => v

def isRaw (fields : List (Text × Value)) : Bool :=
  match Value.get? "type".toList fields with
  | some (.str tag) => tag = "raw".toList
  | _ => false

/-- The fields of the object's type in their order, the absent ones filled in; the others are
dropped. -/
def normal (fields : List (Text × Value)) : List (Text × Value) :=
  if isRaw fields then ["type".toList, "content".toList].map (textField fields)
  else
    ["type".toList, "prefix".toList, "module".toList, "action".toList].map (textField fields) ++
      [("parameters".toList, normalParameters (Value.get? "parameters".toList fields)),
        textField fields "suffix".toList]

theorem Holds.textField_eq (h : Holds fields name s) : textField fields name = (name, .str s) := by
  rw [textField, h, Option.getD_some]

theorem MayHold.textField_eq (h : MayHold fields name s) :
    textField fields name = (name, .str s) := by
  rcases h with h | ⟨h, rfl⟩
  · exact h.textField_eq
  · rw [textField, h, Option.getD_none]

theorem DescribesParameter.normal_eq {v : Value} {p : Parameter} (h : DescribesParameter v p) :
    normalParameter v = p.toValue := by
  obtain ⟨hvalue, hlead, hcomment⟩ := h
  simp only [normalParameter, parameterNames, List.map_cons, List.map_nil, hvalue.textField_eq,
    hlead.textField_eq, hcomment.textField_eq, Parameter.toValue]

theorem DescribesParameters.normal_eq {v : Option Value} {ps : List Parameter}
    (h : DescribesParameters v ps) : normalParameters v = .list (ps.map Parameter.toValue) := by
  cases h with
  | absent => rfl
  | list h =>
    rw [normalParameters]
    induction h with
    | nil => rfl
    | cons hp _ ih =>
      have htail := Value.list.inj ih
      rw [List.map_cons, List.map_cons, hp.normal_eq, htail]

theorem Describes.normal_eq {l : Line} (h : Describes (.object fields) l) :
    normal fields = l.fields := by
  cases h with
  | raw tag h =>
    have hraw : isRaw fields = true := by rw [isRaw, show Value.get? _ fields = _ from tag]; rfl
    simp only [normal, hraw, if_true, List.map_cons, List.map_nil, tag.textField_eq,
      h.textField_eq, Line.fields]
  | call tag h =>
    have hraw : isRaw fields = false := by rw [isRaw, show Value.get? _ fields = _ from tag]; rfl
    simp only [normal, hraw, Bool.false_eq_true, if_false, List.map_cons, List.map_nil,
      tag.textField_eq, h.stamp.textField_eq, h.module.textField_eq, h.action.textField_eq,
      h.parameters.normal_eq, h.suffix.textField_eq, List.cons_append, List.nil_append, Line.fields]

end Payload

namespace Line

open Payload

variable {fields fields' : List (Text × Value)}

theorem ofValue_eq_ok_iff {d : Value} {l : Line} : ofValue d = .ok l ↔ Describes d l := by
  constructor
  · intro h
    cases d with
    | object fields =>
      rw [ofValue] at h
      split at h
      · cases h
      · rename_i tag htag
        split at h
        · rename_i hcall
          subst hcall
          obtain ⟨c, rfl, hc⟩ := call_eq_ok_iff.1 h
          exact .call htag hc
        · split at h
          · rename_i hraw
            subst hraw
            obtain ⟨content, rfl, hcontent⟩ := raw_eq_ok_iff.1 h
            exact .raw htag hcontent
          · cases h
      · cases h
    | _ => cases h
  · intro h
    cases h with
    | call tag h =>
      rw [ofValue, show Value.get? _ _ = _ from tag]
      exact call_eq_ok_iff.2 ⟨_, rfl, h⟩
    | raw tag h =>
      rw [ofValue, show Value.get? _ _ = _ from tag]
      exact raw_eq_ok_iff.2 ⟨_, rfl, h⟩

theorem ofValue_congr (h : Alike fields fields') :
    ofValue (.object fields) = ofValue (.object fields') := by
  rw [ofValue, ofValue, ← h.tag]
  split
  · rfl
  · rename_i tag htag
    split
    · rename_i hcall
      subst hcall
      exact call_congr (h.texts htag) (h.parameters htag)
    · split
      · rename_i hraw
        subst hraw
        exact raw_congr (h.content htag)
      · rfl
  · rfl

theorem describes_fields (l : Line) (more : List (Text × Value)) :
    Describes (.object (l.fields ++ more)) l := by
  have hget : ∀ {name v}, Value.get? name l.fields = some v →
      Value.get? name (l.fields ++ more) = some v :=
    fun h => get?_append_of_eq_some h
  cases l with
  | call c =>
    refine .call (hget rfl) ⟨.inl (hget rfl), hget rfl, hget rfl, ?_, .inl (hget rfl)⟩
    rw [hget (v := .list (c.parameters.map Parameter.toValue)) rfl]
    refine .list (List.forall₂_map_left_iff.2 (List.forall₂_same.2 fun p _ => ?_))
    exact .object rfl (.inl rfl) (.inl rfl)
  | raw content => exact .raw (hget rfl) (hget rfl)

theorem ofValue_toValue (number : Option Int) (l : Line) :
    ofValue (l.toValue number) = .ok l := by
  rw [toValue.eq_def, List.append_assoc, ofValue_eq_ok_iff]
  exact describes_fields l _

theorem toValue_of_describes {l : Line} (h : Describes (.object fields) l) :
    l.toValue none = .object (normal fields ++ [("literal".toList, .str l.literal)]) := by
  rw [toValue.eq_def, h.normal_eq, List.append_nil]

/-- Values and lines. Every line is read back from its value, with or without a number. A value is
read exactly if it describes a line, and the line is the one it describes. What is read, refusals
included, depends on the fields of the object's type only. And the line that was read is written as
the object in its normal form, with its text computed from the fields. -/
theorem ofValue_exact :
    (∀ (l : Line) (number : Option Int), ofValue (l.toValue number) = .ok l) ∧
    (∀ (d : Value) (l : Line), ofValue d = .ok l ↔ Describes d l) ∧
    (∀ fields fields', Alike fields fields' →
      ofValue (.object fields) = ofValue (.object fields')) ∧
    ∀ (fields : List (Text × Value)) (l : Line), ofValue (.object fields) = .ok l →
      l.toValue none = .object (normal fields ++ [("literal".toList, .str l.literal)]) :=
  ⟨fun l number => ofValue_toValue number l, fun _ _ => ofValue_eq_ok_iff,
    fun _ _ => ofValue_congr, fun _ _ h => toValue_of_describes (ofValue_eq_ok_iff.1 h)⟩

/-- A call with an outdated text, a field of the other type and a number in its parameter. -/
def crowded : List (Text × Value) :=
  [("literal".toList, .str "A.b()".toList), ("content".toList, .int 5),
    ("action".toList, .str "Foo".toList), ("module".toList, .str "JrnCmd".toList),
    ("parameters".toList,
      .list [.object [("line_no".toList, .int 7), ("value".toList, .str "1".toList)]]),
    ("type".toList, .str "parameterized".toList)]

def sparse : List (Text × Value) :=
  [("type".toList, .str "parameterized".toList), ("module".toList, .str "JrnCmd".toList),
    ("action".toList, .str "Foo".toList),
    ("parameters".toList, .list [.object [("value".toList, .str "1".toList)]])]

theorem ofValue_exact_crowded :
    Alike crowded sparse ∧
    ofValue (.object crowded) = ofValue (.object sparse) ∧
    ofValue (.object crowded) =
      .ok (.call ⟨[], "JrnCmd".toList, "Foo".toList, [⟨[], "1".toList, []⟩], []⟩) ∧
    (Line.call ⟨[], "JrnCmd".toList, "Foo".toList, [⟨[], "1".toList, []⟩], []⟩).toValue none =
      .object (normal sparse ++ [("literal".toList, .str "JrnCmd.Foo(1)".toList)]) := by
  have hparameter : AlikeParameter
      (.object [("line_no".toList, .int 7), ("value".toList, .str "1".toList)])
      (.object [("value".toList, .str "1".toList)]) := by
    refine .object ?_
    simp only [parameterNames, List.forall_mem_cons]
    exact ⟨rfl, rfl, rfl, nofun⟩
  have htexts : ∀ name ∈ callNames, Value.get? name crowded = Value.get? name sparse := by
    simp only [callNames, List.forall_mem_cons]
    exact ⟨rfl, rfl, rfl, rfl, nofun⟩
  have hparameters : AlikeParameters (Value.get? "parameters".toList crowded)
      (Value.get? "parameters".toList sparse) := .list (.cons hparameter .nil)
  have halike : Alike crowded sparse :=
    ⟨rfl, nofun, fun _ => htexts, fun _ => hparameters⟩
  have hsparse : ofValue (.object sparse) =
      .ok (.call ⟨[], "JrnCmd".toList, "Foo".toList, [⟨[], "1".toList, []⟩], []⟩) := rfl
  have hsame := ofValue_exact.2.2.1 crowded sparse halike
  exact ⟨halike, hsame, hsame.trans hsparse, ofValue_exact.2.2.2 sparse _ hsparse⟩

end Line
end JournalScript
