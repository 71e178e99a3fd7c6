import JournalScript.Text.Basic

/-!
# JournalScript.Variables

The environment variables of a request.

Main definitions: `Variables`, `Variables.get?`, `Variables.set`, `Variables.unset`.
-/

namespace JournalScript

structure Variables where
  entries : List (Text × Text)
  deriving DecidableEq, Repr

namespace Variables

def empty : Variables := ⟨[]⟩

def get? (vs : Variables) (name : Text) : Option Text := vs.entries.lookup name

/-- The value of a variable, where an empty one counts as not set. -/
def given? (vs : Variables) (name : Text) : Option Text :=
  match vs.get? name with
  | some (c :: rest) => some (c :: rest)
  | _ => none

def unset (vs : Variables) (name : Text) : Variables :=
  ⟨vs.entries.filter fun e => e.1 != name⟩

def set (vs : Variables) (name value : Text) : Variables :=
  ⟨(name, value) :: (vs.unset name).entries⟩

end Variables
end JournalScript
