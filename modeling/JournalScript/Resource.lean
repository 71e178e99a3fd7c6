import JournalScript.Line.Schema
import JournalScript.Storage

/-!
# JournalScript.Resource

The resources that the server offers: notes on itself, and the journals below the base directory.
A file is served only if its extension is allowed; the extension of a compressed file is the one
in front of `.gz`.

Main definitions: `Resource`, `Resource.ofUri?`, `Resource.read`, `Resource.resolvePath`.
-/

namespace JournalScript

inductive Resource where
  | help
  | grammar
  | schema
  | sample
  | file (path : Text)
  deriving DecidableEq, Repr

namespace Resource

def notes : List (String × Resource) :=
  [("app://journal/help", .help), ("app://journal/grammar", .grammar),
   ("app://journal/schemas/line", .schema), ("app://journal/examples/sample-journal", .sample)]

def templates : List String := ["file://\x7bpath\x7d", "journal://\x7bpath\x7d"]

/-- The resource at an address; the path stands for the variable part of a pattern. -/
def ofUri? (uri : String) (path : Text) : Option Resource :=
  match notes.lookup uri with
  | some note => some note
  | none => if templates.contains uri then some (.file path) else none

def allowedSuffixes : List Text := [".jrn".toList, ".log".toList, ".txt".toList]

/-- The extension that decides whether a file is served. -/
def effectiveSuffix (p : Path) : Text :=
  if p.isCompressed then Text.lower p.withoutSuffix.suffix else Text.lower p.suffix

def isAllowed (p : Path) : Bool := allowedSuffixes.contains (effectiveSuffix p)

def resolvePath (s : Surroundings) (t : Tree) (path : Text) : Except Fault Path :=
  match s.confine t path with
  | .error e => .error (.path e)
  | .ok p =>
    match t.isFile s.cwd p with
    | .error e => .error (.access e)
    | .ok false => .error (.fileNotFound p.toText)
    | .ok true => if isAllowed p then .ok p else .error .suffixNotAllowed

def helpText (base : Path) : Text :=
  ("Resources:\n" ++
    "- app://journal/help\n" ++
    "- app://journal/grammar\n" ++
    "- app://journal/schemas/line\n" ++
    "- app://journal/examples/sample-journal\n" ++
    "- file://\x7bpath\x7d (restricted to JOURNAL_BASE_DIR; allowed: .jrn, .log, .txt, .gz)\n" ++
    "- journal://\x7bpath\x7d (same rules as file://; intended for journals)\n" ++
    "\nBase directory: ").toList ++ base.toText ++ ['\n']

def grammarText : String :=
  "line        := full_line | raw_line\n" ++
  "full_line   := \"/*\" timestamp \"*/ \" call_or_raw\n" ++
  "call        := module \".\" action \"(\" params \")\" suffix\n" ++
  "module      := \"Jrn\" letter letter letter\n" ++
  "action      := letter+\n" ++
  "params      := parameter (\",\" \" \"? parameter)*\n" ++
  "parameter   := quoted_string | bareword    ; optionally followed by \"/*\" comment \"*/\"\n" ++
  "timestamp   := \"[\" YYYY \"-\" MM \"-\" DD \" \" HH \":\" MM \":\" SS \"(\" mmm \")\" \"]\"\n" ++
  "\n" ++
  "Timestamp digits may be padded with spaces. The parameter list runs to the\n" ++
  "last \")\" on the line; everything after it is the suffix. Lines that do not\n" ++
  "match, and lines starting with \"//\", are kept verbatim as raw lines.\n"

def sampleText : String :=
  "// journal recorded by the test harness\r\n" ++
  "/*[2023- 1-15 09:05:30(123)]*/ JrnWdt.MouseMove(10,20);\r\n" ++
  "/*[2023- 1-15 09:05:31(  7)]*/ " ++
    "JrnCmd.Execute(\"ExportToGFCCommand\", \"a,b\", 1/*count*/);\r\n" ++
  "\r\n" ++
  "JrnCmd.CompareExpectedResult(\"ExportToGFCCommand\", \"Gfc导出数据对比成功\", \"Text\");\r\n" ++
  "JrnDbg.Flush();"

def encoding : Text := "utf-8".toList

def read (s : Surroundings) (t : Tree) : Resource → Except Fault Value
  | .help =>
    match s.baseDirectory t with
    | .error e => .error (.path e)
    | .ok base => .ok (.str (helpText base))
  | .grammar => .ok (.str grammarText.toList)
  | .schema => .ok Line.schema
  | .sample => .ok (.str sampleText.toList)
  | .file path =>
    match resolvePath s t path with
    | .error fault => .error fault
    | .ok p =>
      match Storage.readJournal t s.toHost p encoding with
      | .error fault => .error fault
      | .ok text => .ok (.str text)

end Resource
end JournalScript
