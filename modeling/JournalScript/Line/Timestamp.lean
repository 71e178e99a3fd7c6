import JournalScript.Text.Basic

/-!
# JournalScript.Line.Timestamp

Timestamps `[YYYY-MM-DD HH:MM:SS(mmm)]`. Every position is fixed; a leading digit may be a space,
and the hour may be three characters wide.

Main definitions: `Slot`, `Timestamp.slots`, `Timestamp.split?`.
-/

namespace JournalScript

inductive Slot where
  | digit
  /-- A digit or a space. -/
  | padded
  | exactly (c : Char)
  deriving DecidableEq, Repr

namespace Slot

def accepts : Slot → Char → Bool
  | .digit, c => c.isDigit
  | .padded, c => c.isDigit || c == ' '
  | .exactly d, c => c == d

def take? : List Slot → Text → Option (Text × Text)
  | [], t => some ([], t)
  | _ :: _, [] => none
  | s :: slots, c :: t =>
    if s.accepts c then
      match take? slots t with
      | none => none
      | some (taken, rest) => some (c :: taken, rest)
    else none

end Slot

namespace Timestamp

open Slot in
def slotsWith (hour : List Slot) : List Slot :=
  [exactly '[', digit, digit, digit, digit, exactly '-', padded, digit, exactly '-', padded, digit,
    exactly ' '] ++ hour ++
  [exactly ':', padded, digit, exactly ':', padded, digit, exactly '(', padded, padded, padded,
    exactly ')', exactly ']']

/-- The positions of a timestamp with a two- or a three-character hour. -/
def slots (wideHour : Bool) : List Slot :=
  slotsWith (if wideHour then [.padded, .padded, .digit] else [.padded, .digit])

def takeWith? (wideHour : Bool) (t : Text) : Option (Text × Text) := Slot.take? (slots wideHour) t

def split? (t : Text) : Option (Text × Text) :=
  match takeWith? false t with
  | some cut => some cut
  | none => takeWith? true t

end Timestamp
end JournalScript
