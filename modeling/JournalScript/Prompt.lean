import JournalScript.Text.Blank
import JournalScript.Value.Record

/-!
# JournalScript.Prompt

The conversation starters that the server offers. Each is a list of messages with a role and a
content.

Main definitions: `Prompt.modulesText`, `Prompt.summarizeResource`, `Prompt.reviewJournal`.
-/

namespace JournalScript
namespace Prompt

/-- The names that a choice of modules gives: the parts of a text between commas, or what the
choice is made of as texts. -/
def givenNames : Value → Except RecordError (List Text)
  | .null => .ok []
  | .str s => .ok (Text.split [','] s)
  | v =>
    match v.elements with
    | .error e => .error e
    | .ok items => .ok (items.map Value.display)

/-- Names in quotes, without the blanks around them, or `null` when no name is left. -/
def namesText (given : List Text) : Text :=
  match (given.map Text.strip).filter fun name => !name.isEmpty with
  | [] => "null".toList
  | names => ['['] ++ Text.join [',', ' '] (names.map fun n => ['"'] ++ n ++ ['"']) ++ [']']

def modulesText (modules : Value) : Except RecordError Text :=
  match givenNames modules with
  | .error e => .error e
  | .ok given => .ok (namesText given)

def message (role : String) (content : Value) : Value :=
  .object [("role".toList, .str role.toList), ("content".toList, content)]

def summarizeResource (uri : Value) : Value :=
  .list
    [message "system" (.str
      ("You are a precise assistant. Summarize the provided resource clearly and " ++
        "concisely. Extract key points, risks, and actionable items.").toList),
     message "user" (.list
      [.object [("type".toList, .str "text".toList),
         ("text".toList, .str "Summarize this resource:".toList)],
       .object [("type".toList, .str "resource".toList), ("uri".toList, uri)]])]

def callBlock (path lineSeparator : Value) (modules : Text) : Text :=
  "- path: ".toList ++ path.display ++ "\n- line_separator: ".toList ++ lineSeparator.display ++
    "\n- modules: ".toList ++ modules ++ "\n- include_raw_lines: true".toList

def review (parameters : Text) : Value :=
  .list
    [message "system" (.str
      ("You are a test automation assistant reviewing recorded journal scripts. " ++
        "Each call line looks like JrnXxx.Action(params); and may carry a " ++
        "/*[timestamp]*/ prefix. Do not invent lines; quote only tool output.").toList),
     message "user" (.str
      (("Review the journal using summarize_journal and parse_journal. " ++
        "Follow this workflow:\n" ++
        "- Call summarize_journal first to see which modules and actions occur.\n" ++
        "- Then call parse_journal with the parameters below.\n" ++
        "- Point out raw lines that look like malformed calls " ++
        "(e.g., a Jrn prefix that did not parse).\n" ++
        "- Note long gaps between consecutive timestamps.\n" ++
        "- Keep the response concise.\n\n" ++
        "Call parse_journal with:\n").toList ++
        parameters ++
        ("\n\nReturn this structure:\n" ++
        "1) Overview (line counts, modules)\n" ++
        "2) Suspicious lines (line_no + literal)\n" ++
        "3) Timing notes\n").toList))]

def reviewJournal (path lineSeparator modules : Value) : Except RecordError Value :=
  match modulesText modules with
  | .error e => .error e
  | .ok shown => .ok (review (callBlock path lineSeparator shown))

end Prompt
end JournalScript
