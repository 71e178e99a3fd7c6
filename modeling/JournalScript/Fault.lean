import JournalScript.Gzip.Basic
import JournalScript.Layout
import JournalScript.Line.Payload
import JournalScript.Tree.Access
import JournalScript.Tree.Resolve
import JournalScript.Value.Record

/-!
# JournalScript.Fault

Everything that can go wrong with a request, and how it is put in words.

Main definitions: `Fault`, `Fault.message`.
-/

namespace JournalScript

inductive Fault where
  | access (e : AccessError)
  | path (e : PathError)
  | setting (e : SettingError)
  | unknownEncoding (name : Text)
  /-- The encoding has the name of a transformation that is no encoding of texts. -/
  | notTextEncoding (name : Text)
  | nullInEncoding
  | undecodable (message : Text)
  | unencodable (message : Text)
  /-- Writing to an open file has broken off. -/
  | unwritten (reason : Text)
  /-- The console has refused what was printed on it. -/
  | unprinted (reason : Text)
  | gzip (e : GzipError)
  | payload (found : List Issue)
  | record (e : RecordError)
  | journalNotFound (path : Text)
  | fileNotFound (path : Text)
  | suffixNotAllowed
  | emptySeparator
  | unnamed
  | noTarget
  | limitNotPositive
  | limitNotNumber (kind : String)
  | limitNotWhole
  | notPath (kind : String)
  | missingArgument (request argument : String)
  | unexpectedArgument (request : String) (argument : Text)
  /-- The name of a log level is that of a format. -/
  | levelFormat (format : Text)
  /-- The name of a log level is that of the table of format styles. -/
  | levelStyles
  /-- A text is cut at a separator that an option left without a value. -/
  | voidLineSeparator
  /-- Lines are joined with a separator that an option left without a value. -/
  | voidOutputSeparator
  deriving DecidableEq, Repr

namespace Fault

def message : Fault → Text
  | .access e => e.message
  | .path e => e.message
  | .setting e => e.message
  | .unknownEncoding name => "unknown encoding: ".toList ++ name
  | .notTextEncoding name =>
    ['\''] ++ name ++ ("' is not a text encoding; use codecs.open() to handle arbitrary " ++
      "codecs").toList
  | .nullInEncoding => "embedded null character".toList
  | .undecodable message => message
  | .unencodable message => message
  | .unwritten reason => reason
  | .unprinted reason => reason
  | .gzip e => e.message
  | .payload found => Text.join ['\n'] (found.map fun i => i.kind.message)
  | .record e => e.message
  | .journalNotFound place => "Journal file not found: ".toList ++ place
  | .fileNotFound place => "File not found: ".toList ++ place
  | .suffixNotAllowed => "File type not allowed. Allowed: .jrn, .log, .txt.".toList
  | .emptySeparator => "empty separator".toList
  | .unnamed => "Document has no filename; use save_as()".toList
  | .noTarget => "Document has no filename; pass a path".toList
  | .limitNotPositive => "limit must be > 0".toList
  | .limitNotNumber kind =>
    ("'<=' not supported between instances of '" ++ kind ++ "' and 'int'").toList
  | .limitNotWhole =>
    "slice indices must be integers or None or have an __index__ method".toList
  | .notPath kind => ("expected str, bytes or os.PathLike object, not " ++ kind).toList
  | .missingArgument request argument =>
    (request ++ "() missing 1 required positional argument: '" ++ argument ++ "'").toList
  | .unexpectedArgument request argument =>
    (request ++ "() got an unexpected keyword argument '").toList ++ argument ++ ['\'']
  | .levelFormat format => "Unknown level: ".toList ++ Text.quoted format
  | .levelStyles =>
    ("Level not an integer or a valid string: \x7b" ++
      "'%': (<class 'logging.PercentStyle'>, '%(levelname)s:%(name)s:%(message)s'), " ++
      "'\x7b': (<class 'logging.StrFormatStyle'>, " ++
      "'\x7blevelname\x7d:\x7bname\x7d:\x7bmessage\x7d'), " ++
      "'$': (<class 'logging.StringTemplateStyle'>, " ++
      "'$\x7blevelname\x7d:$\x7bname\x7d:$\x7bmessage\x7d')\x7d").toList
  | .voidLineSeparator => "must be str or None, not list".toList
  | .voidOutputSeparator => "'list' object has no attribute 'join'".toList

end Fault

inductive Event where
  | loaded (source : Text) (lines : Nat)
  | saved (target : Text) (lines : Nat)
  /-- A document was written through the storage, compressed where the name says so. -/
  | stored (target : Text) (lines : Nat)
  | started
  deriving DecidableEq, Repr

namespace Event

def lineCount (n : Nat) : Text := " (".toList ++ Text.ofNat n ++ " lines)".toList

def message : Event → Text
  | .loaded source n => "Loaded ".toList ++ source ++ lineCount n
  | .saved target n => "Saved ".toList ++ target ++ lineCount n
  | .stored target n => "Saved ".toList ++ target ++ lineCount n
  | .started => "Starting MCP server (transport=stdio)".toList

end Event

structure Reply (σ α : Type) where
  state : σ
  events : List Event
  result : Except Fault α

namespace Reply

def fail {σ α : Type} (state : σ) (fault : Fault) : Reply σ α := ⟨state, [], .error fault⟩

end Reply
end JournalScript
