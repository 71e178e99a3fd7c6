import JournalScript.Document.Basic
import JournalScript.Text.Blank

/-!
# JournalScript.Summary

A census of a document: how many lines of each kind it has, and how often each module and each
call occurs.

Main definitions: `Tally`, `Summary`, `Summary.ofLines`.
-/

namespace JournalScript

abbrev Tally := List (Text × Nat)

namespace Tally

def add (name : Text) : Tally → Tally
  | [] => [(name, 1)]
  | (k, n) :: rest => if k = name then (k, n + 1) :: rest else (k, n) :: add name rest

def ofList (names : List Text) : Tally := names.foldl (fun tally name => add name tally) []

/-- Most frequent names first; equally frequent ones stay in the order of first occurrence. -/
def ranked (tally : Tally) : Tally := tally.mergeSort fun a b => b.2 ≤ a.2

end Tally

structure Summary where
  total : Nat
  calls : Nat
  raw : Nat
  /-- Raw lines of blank characters only. -/
  blank : Nat
  /-- Raw lines that start with two slashes, blanks aside. -/
  comments : Nat
  timestamped : Nat
  moduleTally : Tally
  callTally : Tally
  deriving DecidableEq, Repr

namespace Summary

def callOf? : Line → Option Call
  | .call c => some c
  | .raw _ => none

def rawOf? : Line → Option Text
  | .call _ => none
  | .raw content => some content

def isBlankText (content : Text) : Bool := (Text.strip content).isEmpty

def isComment (content : Text) : Bool := ['/', '/'].isPrefixOf (Text.strip content)

def ofLines (lines : List Line) : Summary :=
  let calls := lines.filterMap callOf?
  let raws := lines.filterMap rawOf?
  { total := lines.length
    calls := calls.length
    raw := raws.length
    blank := raws.countP isBlankText
    comments := raws.countP isComment
    timestamped := calls.countP fun c => !c.stamp.isEmpty
    moduleTally := Tally.ofList (calls.map Call.module)
    callTally := Tally.ofList (calls.map Call.key) }

end Summary
end JournalScript
