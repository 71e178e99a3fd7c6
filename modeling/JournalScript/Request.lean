import JournalScript.Prompt
import JournalScript.Service

/-!
# JournalScript.Request

Requests as they arrive: named arguments with values. Each request has one argument that must be
given and others that have a value of their own when they are not. An argument that the request
does not take is reported first.

Main definitions: `Signature`, `Request.parse`, `Request.render`, `Request.rewrite`,
`Request.summary`, `Request.summarizeResource`, `Request.reviewJournal`.
-/

namespace JournalScript

structure Signature where
  request : String
  required : String
  optional : List (String × Value)

namespace Signature

def takes (s : Signature) (name : Text) : Bool :=
  name == s.required.toList || s.optional.any fun o => name == o.1.toList

def check (s : Signature) (given : List (Text × Value)) : Except Fault Unit :=
  match given.find? fun g => !s.takes g.1 with
  | some g => .error (.unexpectedArgument s.request g.1)
  | none =>
    match Value.get? s.required.toList given with
    | some _ => .ok ()
    | none => .error (.missingArgument s.request s.required)

def value (s : Signature) (given : List (Text × Value)) (name : String) : Value :=
  match Value.get? name.toList given with
  | some v => v
  | none => (s.optional.lookup name).getD .null

def read {α : Type} (s : Signature) (given : List (Text × Value))
    (build : (String → Value) → α) : Except Fault α :=
  match s.check given with
  | .error fault => .error fault
  | .ok () => .ok (build (s.value given))

end Signature

namespace Request

def parse (given : List (Text × Value)) : Except Fault Service.ParseRequest :=
  Signature.read
    ⟨"parse_journal", "path",
      [("line_separator", .null), ("include_raw_lines", .bool true), ("modules", .null),
        ("limit", .null)]⟩ given
    fun value => ⟨value "path", value "line_separator", value "include_raw_lines",
      value "modules", value "limit"⟩

def render (given : List (Text × Value)) : Except Fault Service.RenderRequest :=
  Signature.read
    ⟨"render_journal", "lines", [("output_separator", .null), ("skip_empty_line", .null)]⟩ given
    fun value => ⟨value "lines", value "output_separator", value "skip_empty_line"⟩

def rewrite (given : List (Text × Value)) : Except Fault Service.RewriteRequest :=
  Signature.read
    ⟨"rewrite_journal", "path",
      [("output_path", .null), ("line_separator", .null), ("output_separator", .null),
        ("skip_empty_line", .null)]⟩ given
    fun value => ⟨value "path", value "output_path",
      ⟨value "line_separator", value "output_separator", value "skip_empty_line"⟩⟩

def summary (given : List (Text × Value)) : Except Fault Service.SummaryRequest :=
  Signature.read ⟨"summarize_journal", "path", [("line_separator", .null)]⟩ given
    fun value => ⟨value "path", value "line_separator"⟩

def summarizeResource (given : List (Text × Value)) : Except Fault Value :=
  Signature.read ⟨"summarize_resource", "uri", []⟩ given
    fun value => Prompt.summarizeResource (value "uri")

def reviewJournal (given : List (Text × Value)) : Except Fault Value :=
  match
    Signature.read
      ⟨"review_journal", "path",
        [("line_separator", .str "crlf".toList), ("modules", .null)]⟩ given
      fun value => Prompt.reviewJournal (value "path") (value "line_separator") (value "modules")
  with
  | .error fault => .error fault
  | .ok (.error e) => .error (.record e)
  | .ok (.ok prompt) => .ok prompt

end Request
end JournalScript
