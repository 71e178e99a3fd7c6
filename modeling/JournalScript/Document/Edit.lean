import JournalScript.Document.Basic

/-!
# JournalScript.Document.Edit

Changing the lines of a document by position. A negative position counts from the end. The
parameters of a call can be set to the empty text; the call then has no parameters, and the document
remembers that a text stands in place of their list.

Main definitions: `EditError`, `Document.setField`, `Document.setParameterField`,
`Document.parameterAt`, `Document.clearLine`, `Document.eraseLine`, `Document.insertLine`.
-/

namespace JournalScript

inductive Owner where
  | call
  | raw
  | parameter
  deriving DecidableEq, Repr

inductive EditError where
  | noLine
  | noParameter
  /-- The parameters are the empty text, which has no characters. -/
  | noCharacter
  | notCall
  | noField (owner : Owner) (name : Text)
  /-- The name is that of something that is worked out from the fields. -/
  | derived (owner : Owner) (name : Text)
  | notParameters
  deriving DecidableEq, Repr

/-- The index that a position stands for in a list of the given length. -/
def indexAt? (length : Nat) (position : Int) : Option Nat :=
  let index := if position < 0 then position + length else position
  if 0 ≤ index ∧ index < length then some index.toNat else none

namespace Owner

def derivedNames : Owner → List Text
  | .parameter => ["literal".toList]
  | _ => ["literal".toList, "is_valid".toList, "is_empty".toList, "clear".toList]

def refuse (owner : Owner) (name : Text) : EditError :=
  if owner.derivedNames.contains name then .derived owner name else .noField owner name

end Owner

namespace Parameter

def setField (name value : Text) (p : Parameter) : Except EditError Parameter :=
  if name = "value".toList then .ok { p with value := value }
  else if name = "prefix".toList then .ok { p with lead := value }
  else if name = "comment".toList then .ok { p with comment := value }
  else .error (Owner.parameter.refuse name)

end Parameter

namespace Line

/-- The line with one field changed. The parameters can only be set to the empty text, which stands
for none. -/
def setField (name value : Text) : Line → Except EditError Line
  | .call c =>
    if name = "prefix".toList then .ok (.call { c with stamp := value })
    else if name = "module".toList then .ok (.call { c with module := value })
    else if name = "action".toList then .ok (.call { c with action := value })
    else if name = "suffix".toList then .ok (.call { c with suffix := value })
    else if name = "parameters".toList then
      if value = [] then .ok (.call { c with parameters := [] }) else .error .notParameters
    else .error (Owner.call.refuse name)
  | .raw _ =>
    if name = "content".toList then .ok (.raw value) else .error (Owner.raw.refuse name)

def setParameterField (position : Int) (name value : Text) : Line → Except EditError Line
  | .raw _ => .error .notCall
  | .call c =>
    match indexAt? c.parameters.length position with
    | none => .error .noParameter
    | some i =>
      match c.parameters[i]? with
      | none => .error .noParameter
      | some p =>
        match p.setField name value with
        | .error e => .error e
        | .ok changed => .ok (.call { c with parameters := c.parameters.set i changed })

def parameterAt (position : Int) : Line → Except EditError Parameter
  | .raw _ => .error .notCall
  | .call c =>
    match (indexAt? c.parameters.length position).bind fun i => c.parameters[i]? with
    | none => .error .noParameter
    | some p => .ok p

end Line

namespace Document

def lineAt (d : Document) (position : Int) : Except EditError Line :=
  match (indexAt? d.lines.length position).bind fun i => d.lines[i]? with
  | none => .error .noLine
  | some l => .ok l

def isTextual (d : Document) (position : Int) : Bool :=
  match indexAt? d.lines.length position with
  | none => false
  | some i => d.textual.contains i

def parameterAt (d : Document) (line parameter : Int) : Except EditError Parameter :=
  if d.isTextual line then .error .noCharacter
  else
    match d.lineAt line with
    | .error e => .error e
    | .ok l => l.parameterAt parameter

def changeLine (d : Document) (position : Int) (change : Line → Except EditError Line) :
    Except EditError Document :=
  match indexAt? d.lines.length position with
  | none => .error .noLine
  | some i =>
    match d.lines[i]? with
    | none => .error .noLine
    | some l =>
      match change l with
      | .error e => .error e
      | .ok changed => .ok { d with lines := d.lines.set i changed }

def markTextual (d : Document) (position : Int) (isText : Bool) : Document :=
  match indexAt? d.lines.length position with
  | none => d
  | some i =>
    let others := d.textual.filter (· != i)
    { d with textual := if isText then i :: others else others }

def setField (d : Document) (position : Int) (name value : Text) : Except EditError Document :=
  match d.changeLine position (Line.setField name value) with
  | .error e => .error e
  | .ok changed =>
    .ok (if name = "parameters".toList then changed.markTextual position true else changed)

def setParameterField (d : Document) (line parameter : Int) (name value : Text) :
    Except EditError Document :=
  if d.isTextual line then .error .noCharacter
  else d.changeLine line (Line.setParameterField parameter name value)

/-- Empties a line; the parameters of a call are a list again. -/
def clearLine (d : Document) (position : Int) : Except EditError Document :=
  match d.changeLine position fun l => .ok l.clear with
  | .error e => .error e
  | .ok changed => .ok (changed.markTextual position false)

def eraseLine (d : Document) (position : Int) : Except EditError Document :=
  match indexAt? d.lines.length position with
  | none => .error .noLine
  | some i =>
    .ok { d with
      lines := d.lines.eraseIdx i
      textual := (d.textual.filter (· != i)).map fun k => if i < k then k - 1 else k }

/-- Inserts a line before a position; a position beyond either end means that end. -/
def insertLine (d : Document) (position : Int) (l : Line) : Document :=
  let index := (if position < 0 then position + d.lines.length else position).toNat
  { d with
    lines := d.lines.take index ++ l :: d.lines.drop index
    textual := d.textual.map fun k => if index ≤ k then k + 1 else k }

end Document
end JournalScript
