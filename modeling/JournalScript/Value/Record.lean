import JournalScript.Value.Basic

/-!
# JournalScript.Value.Record

Values taken as collections. A list, the characters of a text and the names of an object can be
gone through; an object, or anything that can be gone through in pairs, makes a record.

Main definitions: `RecordError`, `Value.elements`, `Value.record`.
-/

namespace JournalScript

inductive RecordError where
  | notCollection (kind : String)
  | notSequence (index : Nat)
  | pairLength (index length : Nat)
  /-- A list or an object stands where a name is needed. -/
  | compoundName (kind : String)
  deriving DecidableEq, Repr

namespace RecordError

def message : RecordError → Text
  | .notCollection kind => ("'" ++ kind ++ "' object is not iterable").toList
  | .notSequence i =>
    "cannot convert dictionary update sequence element #".toList ++ Text.ofNat i ++
      " to a sequence".toList
  | .pairLength i n =>
    "dictionary update sequence element #".toList ++ Text.ofNat i ++ " has length ".toList ++
      Text.ofNat n ++ "; 2 is required".toList
  | .compoundName kind => ("unhashable type: '" ++ kind ++ "'").toList

end RecordError

namespace Value

/-- What a value is made of, if it can be gone through. -/
def elements? : Value → Option (List Value)
  | .list items => some items
  | .str s => some (s.map fun c => .str [c])
  | .object fields => some (fields.map fun f => .str f.1)
  | _ => none

def elements (v : Value) : Except RecordError (List Value) :=
  match v.elements? with
  | some items => .ok items
  | none => .error (.notCollection v.kind)

/-- Adds the pairs, counted from `i`, to a record. Only texts name a field; other simple values are
taken as names that nobody asks for. -/
def recordFrom : Nat → List Value → List (Text × Value) →
    Except RecordError (List (Text × Value))
  | _, [], fields => .ok fields
  | i, pair :: rest, fields =>
    match pair.elements? with
    | none => .error (.notSequence i)
    | some [.str name, value] => recordFrom (i + 1) rest (put name value fields)
    | some [.list _, _] => .error (.compoundName "list")
    | some [.object _, _] => .error (.compoundName "dict")
    | some [_, _] => recordFrom (i + 1) rest fields
    | some other => .error (.pairLength i other.length)

def record : Value → Except RecordError (List (Text × Value))
  | .object fields => .ok fields
  | v =>
    match v.elements with
    | .error e => .error e
    | .ok pairs => recordFrom 0 pairs []

end Value
end JournalScript
