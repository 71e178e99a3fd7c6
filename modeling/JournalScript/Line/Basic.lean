import JournalScript.Text.Basic

/-!
# JournalScript.Line.Basic

The lines of a journal script. A line is a call `module.action(parameters)suffix`, possibly behind
a timestamp, or a raw line that is kept verbatim. Every field holds the exact source text.

Main definitions: `Parameter`, `Call`, `Line`, and `literal` of each, the text that is written.
-/

namespace JournalScript

structure Parameter where
  /-- The space between the preceding comma and the argument, or nothing. -/
  lead : Text
  value : Text
  /-- Body of a trailing `/*...*/` annotation; empty when there is none. -/
  comment : Text
  deriving DecidableEq, Repr

namespace Parameter

def annotation (comment : Text) : Text :=
  if comment = [] then [] else ['/', '*'] ++ comment ++ ['*', '/']

def body (p : Parameter) : Text := p.value ++ annotation p.comment

def literal (p : Parameter) : Text := p.lead ++ p.body

end Parameter

structure Call where
  /-- The timestamp with its brackets, without the comment marks around it; empty when absent. -/
  stamp : Text
  module : Text
  action : Text
  parameters : List Parameter
  /-- Everything after the closing parenthesis, usually a semicolon. -/
  suffix : Text
  deriving DecidableEq, Repr

namespace Call

def blank : Call := ⟨[], [], [], [], []⟩

def head (stamp : Text) : Text := if stamp = [] then [] else ['/', '*'] ++ stamp ++ ['*', '/', ' ']

def literalWith (sep : Text) (c : Call) : Text :=
  head c.stamp ++ c.module ++ ['.'] ++ c.action ++ ['('] ++
    Text.join sep (c.parameters.map Parameter.literal) ++ [')'] ++ c.suffix

def literal (c : Call) : Text := c.literalWith [',']

def key (c : Call) : Text := c.module ++ ['.'] ++ c.action

/-- A call is empty when it has neither timestamp nor names nor parameters; the suffix does not
count. -/
def isEmpty (c : Call) : Bool :=
  c.stamp.isEmpty && c.module.isEmpty && c.action.isEmpty && c.parameters.isEmpty

end Call

inductive Line where
  | call (c : Call)
  | raw (content : Text)
  deriving DecidableEq, Repr

namespace Line

def literal : Line → Text
  | .call c => c.literal
  | .raw content => content

def isCall : Line → Bool
  | .call _ => true
  | .raw _ => false

/-- Raw lines are valid as they stand; no call has been checked against the names that exist. -/
def isValid (l : Line) : Bool := !l.isCall

def isEmpty : Line → Bool
  | .call c => c.isEmpty
  | .raw content => content.isEmpty

def clear : Line → Line
  | .call _ => .call Call.blank
  | .raw _ => .raw []

/-- A raw line without content, which may be left out when a document is written. -/
def isBlankRaw : Line → Bool
  | .call _ => false
  | .raw content => content.isEmpty

end Line
end JournalScript
