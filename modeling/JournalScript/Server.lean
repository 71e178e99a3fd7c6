import JournalScript.Resource

/-!
# JournalScript.Server

What the server says about itself, and how it starts: the level of its log is read from a variable,
and the start is recorded.

Main definitions: `Server.name`, `Server.tools`, `Server.prompts`, `Server.logLevel`,
`Server.start`.
-/

namespace JournalScript
namespace Server

def name : String := "journal-script"

def tools : List String :=
  ["parse_journal", "render_journal", "rewrite_journal", "summarize_journal"]

def resources : List String :=
  (Resource.notes.map Prod.fst).mergeSort fun a b => decide (a ≤ b)

def prompts : List String := ["review_journal", "summarize_resource"]

def transport : String := "stdio"

def levelVariable : Text := "JOURNAL_LOG_LEVEL".toList

def levels : List (Text × Nat) :=
  [("CRITICAL".toList, 50), ("FATAL".toList, 50), ("ERROR".toList, 40), ("WARNING".toList, 30),
   ("WARN".toList, 30), ("INFO".toList, 20), ("DEBUG".toList, 10), ("NOTSET".toList, 0)]

def defaultLevel : Nat := 20

/-- A format that has a name among those of the levels. -/
def basicFormat : Text := "%(levelname)s:%(name)s:%(message)s".toList

def logFormat : String := "%(asctime)s %(levelname)s %(name)s: %(message)s"

/-- The log level that the variables set: names are taken in any letter case, and an unknown one
means the default. -/
def logLevel (vs : Variables) : Except Fault Nat :=
  let level := Text.upperAscii ((vs.get? levelVariable).getD "INFO".toList)
  if level = "BASIC_FORMAT".toList then .error (.levelFormat basicFormat)
  else if level = "_STYLES".toList then .error .levelStyles
  else .ok ((levels.lookup level).getD defaultLevel)

def start (vs : Variables) : Except Fault (Nat × List Event) :=
  match logLevel vs with
  | .error fault => .error fault
  | .ok level => .ok (level, [.started])

end Server
end JournalScript
