import JournalScript.Line.Basic
import JournalScript.Value.Basic

/-!
# JournalScript.Line.Payload

Lines as structured values. A line is an object whose `type` tells its kind; reading one checks
every field and reports all that is wrong, in field order. Other fields are ignored, in particular
the `literal`, which is always recomputed.

Main definitions: `Issue`, `Line.toValue`, `Line.ofValue`.
-/

namespace JournalScript

inductive Step where
  | field (name : Text)
  | item (index : Nat)
  deriving DecidableEq, Repr

inductive IssueKind where
  | notObject
  | tagMissing
  | tagUnknown (tag : Text)
  | missing
  | notText
  | notList
  | notParameter
  deriving DecidableEq, Repr

structure Issue where
  kind : IssueKind
  path : List Step
  deriving DecidableEq, Repr

namespace IssueKind

def expectedTags : Text := "'parameterized', 'raw'".toList

def expectedMark : Text := "\x7bexpected_tags\x7d".toList

def code : IssueKind → String
  | .notObject => "model_attributes_type"
  | .tagMissing => "union_tag_not_found"
  | .tagUnknown _ => "union_tag_invalid"
  | .missing => "missing"
  | .notText => "string_type"
  | .notList => "list_type"
  | .notParameter => "model_type"

/-- The issue in words. An unknown tag is shown first and the expected tags are filled in after it,
also where their mark stands in the tag itself. -/
def message : IssueKind → Text
  | .notObject => "Input should be a valid dictionary or object to extract fields from".toList
  | .tagMissing => "Unable to extract tag using discriminator 'type'".toList
  | .tagUnknown tag =>
    "Input tag '".toList ++ Text.join expectedTags (Text.split expectedMark tag) ++
      "' found using 'type' does not match any of the expected tags: ".toList ++ expectedTags
  | .missing => "Field required".toList
  | .notText => "Input should be a valid string".toList
  | .notList => "Input should be a valid list".toList
  | .notParameter =>
    "Input should be a valid dictionary or instance of ParameterPayload".toList

end IssueKind

namespace Payload

abbrev Checked (α : Type) := Except (List Issue) α

def issues {α : Type} : Checked α → List Issue
  | .ok _ => []
  | .error found => found

def requiredText (path : List Step) (name : Text) (fields : List (Text × Value)) : Checked Text :=
  match Value.get? name fields with
  | some (.str s) => .ok s
  | some _ => .error [⟨.notText, path ++ [.field name]⟩]
  | none => .error [⟨.missing, path ++ [.field name]⟩]

def optionalText (path : List Step) (name : Text) (fields : List (Text × Value)) : Checked Text :=
  match Value.get? name fields with
  | some (.str s) => .ok s
  | some _ => .error [⟨.notText, path ++ [.field name]⟩]
  | none => .ok []

def parameter (path : List Step) : Value → Checked Parameter
  | .object fields =>
    match requiredText path "value".toList fields, optionalText path "prefix".toList fields,
      optionalText path "comment".toList fields with
    | .ok value, .ok lead, .ok comment => .ok ⟨lead, value, comment⟩
    | value, lead, comment => .error (issues value ++ issues lead ++ issues comment)
  | _ => .error [⟨.notParameter, path⟩]

def parametersFrom (path : List Step) : Nat → List Value → Checked (List Parameter)
  | _, [] => .ok []
  | i, v :: rest =>
    match parameter (path ++ [.item i]) v, parametersFrom path (i + 1) rest with
    | .ok p, .ok ps => .ok (p :: ps)
    | p, ps => .error (issues p ++ issues ps)

def parameters (path : List Step) (fields : List (Text × Value)) : Checked (List Parameter) :=
  match Value.get? "parameters".toList fields with
  | some (.list items) => parametersFrom (path ++ [.field "parameters".toList]) 0 items
  | some _ => .error [⟨.notList, path ++ [.field "parameters".toList]⟩]
  | none => .ok []

def call (fields : List (Text × Value)) : Checked Line :=
  let path := [Step.field "parameterized".toList]
  match optionalText path "prefix".toList fields, requiredText path "module".toList fields,
    requiredText path "action".toList fields, parameters path fields,
    optionalText path "suffix".toList fields with
  | .ok stamp, .ok module, .ok action, .ok ps, .ok suffix =>
    .ok (.call ⟨stamp, module, action, ps, suffix⟩)
  | stamp, module, action, ps, suffix =>
    .error (issues stamp ++ issues module ++ issues action ++ issues ps ++ issues suffix)

def raw (fields : List (Text × Value)) : Checked Line :=
  match requiredText [.field "raw".toList] "content".toList fields with
  | .ok content => .ok (.raw content)
  | .error found => .error found

end Payload

namespace Parameter

def toValue (p : Parameter) : Value :=
  .object [("value".toList, .str p.value), ("prefix".toList, .str p.lead),
    ("comment".toList, .str p.comment)]

end Parameter

namespace Line

def fields : Line → List (Text × Value)
  | .call c =>
    [("type".toList, .str "parameterized".toList), ("prefix".toList, .str c.stamp),
      ("module".toList, .str c.module), ("action".toList, .str c.action),
      ("parameters".toList, .list (c.parameters.map Parameter.toValue)),
      ("suffix".toList, .str c.suffix)]
  | .raw content => [("type".toList, .str "raw".toList), ("content".toList, .str content)]

def toValue (number : Option Int) (l : Line) : Value :=
  .object (l.fields ++ [("literal".toList, .str l.literal)] ++
    match number with
    | none => []
    | some n => [("line_no".toList, .int n)])

def ofValue : Value → Payload.Checked Line
  | .object fields =>
    match Value.get? "type".toList fields with
    | none => .error [⟨.tagMissing, []⟩]
    | some (.str tag) =>
      if tag = "parameterized".toList then Payload.call fields
      else if tag = "raw".toList then Payload.raw fields
      else .error [⟨.tagUnknown tag, []⟩]
    | some tag => .error [⟨.tagUnknown tag.display, []⟩]
  | _ => .error [⟨.notObject, []⟩]

end Line
end JournalScript
