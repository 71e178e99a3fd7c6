import JournalScript.Value.Basic

/-!
# JournalScript.Line.Schema

The JSON schema of the structured form of a line.

Main definitions: `Schema.parameter`, `Schema.call`, `Schema.raw`, `Line.schema`.
-/

namespace JournalScript
namespace Schema

def object (fields : List (String × Value)) : Value :=
  .object (fields.map fun f => (f.1.toList, f.2))

def text (s : String) : Value := .str s.toList

def requiredText (title description : String) : Value :=
  object [("description", text description), ("title", text title), ("type", text "string")]

def optionalText (title description : String) : Value :=
  object [("default", text ""), ("description", text description), ("title", text title),
    ("type", text "string")]

def tag (name : String) : Value :=
  object [("const", text name), ("default", text name), ("title", text "Type"),
    ("type", text "string")]

def reference (name : String) : Value := object [("$ref", text ("#/$defs/" ++ name))]

def kind (title : String) (required : List String) (properties : List (String × Value)) : Value :=
  object [("properties", object properties), ("required", .list (required.map text)),
    ("title", text title), ("type", text "object")]

def parameter : Value :=
  kind "ParameterPayload" ["value"]
    [("value", requiredText "Value" "Parameter text, quotes included for strings."),
     ("prefix", optionalText "Prefix" "Separator space kept from the source."),
     ("comment", optionalText "Comment" "Body of a trailing /*...*/ annotation.")]

def call : Value :=
  kind "ParameterizedLinePayload" ["module", "action"]
    [("type", tag "parameterized"),
     ("prefix", optionalText "Prefix" "Timestamp text without the /* */ wrapper."),
     ("module", requiredText "Module" "Module name, e.g. JrnCmd."),
     ("action", requiredText "Action" "Action name, e.g. MouseMove."),
     ("parameters", object [("items", reference "ParameterPayload"), ("title", text "Parameters"),
       ("type", text "array")]),
     ("suffix", optionalText "Suffix" "Text after the closing paren, usually ';'.")]

def raw : Value :=
  kind "RawLinePayload" ["content"]
    [("type", tag "raw"),
     ("content", requiredText "Content" "Line text, stored verbatim.")]

end Schema

/-- The schema of a line: a call or a raw line, told apart by `type`. -/
def Line.schema : Value :=
  Schema.object
    [("$defs", Schema.object [("ParameterPayload", Schema.parameter),
       ("ParameterizedLinePayload", Schema.call), ("RawLinePayload", Schema.raw)]),
     ("discriminator", Schema.object
       [("mapping", Schema.object
         [("parameterized", Schema.text "#/$defs/ParameterizedLinePayload"),
          ("raw", Schema.text "#/$defs/RawLinePayload")]),
        ("propertyName", Schema.text "type")]),
     ("oneOf", .list [Schema.reference "ParameterizedLinePayload",
       Schema.reference "RawLinePayload"])]

end JournalScript
