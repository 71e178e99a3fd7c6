import JournalScript.Fault
import JournalScript.Host

/-!
# JournalScript.Storage

Texts in files. A plain file holds the encoded text as it is, line ends included. The journal
storage also takes compressed files, which it knows by their extension, and makes the directories
that a new file needs. A file is emptied before its encoding is looked up and its text is encoded, so
a text that cannot be encoded leaves it empty. Only an encoding whose name holds a null character is
refused before a plain file is opened.

A compressed file has its stream from the moment its encoding is found. Without an encoding its
writer is given up with the file empty; whether and when the runtime still puts an empty stream there
on behalf of the abandoned writer is not described.

Main definitions: `Storage.codecNamed`, `Storage.readPlain`, `Storage.readJournal`,
`Storage.writePlain`, `Storage.writeJournal`.
-/

namespace JournalScript
namespace Storage

def hasNullName (encoding : Text) : Bool := encoding.contains '\x00'

def codecNamed (host : Host) (encoding : Text) : Except Fault Codec :=
  if hasNullName encoding then .error .nullInEncoding
  else
    match Encoding.ofName? encoding with
    | some own => .ok own.codec
    | none =>
      if Encoding.isTransform encoding then .error (.notTextEncoding encoding)
      else
        match host.codecs encoding with
        | some codec => .ok codec
        | none => .error (.unknownEncoding encoding)

def decodeNamed (host : Host) (encoding : Text) (bs : Bytes) : Except Fault Text :=
  match codecNamed host encoding with
  | .error fault => .error fault
  | .ok codec => (codec.decode bs).mapError .undecodable

def readPlain (t : Tree) (host : Host) (p : Path) (encoding : Text) : Except Fault Text :=
  if hasNullName encoding then .error .nullInEncoding
  else
    match t.contentOf host.cwd p with
    | .error e => .error (.access e)
    | .ok content => decodeNamed host encoding content

def decodeCompressed (host : Host) (encoding : Text) (content : Bytes) : Except Fault Text :=
  match codecNamed host encoding with
  | .error fault => .error fault
  | .ok _ =>
    match Gzip.decompress content with
    | .error e => .error (.gzip e)
    | .ok bs => decodeNamed host encoding bs

def readJournal (t : Tree) (host : Host) (p : Path) (encoding : Text) : Except Fault Text :=
  match t.isFile host.cwd p with
  | .error e => .error (.access e)
  | .ok false => .error (.journalNotFound p.toText)
  | .ok true =>
    if p.isCompressed then
      match t.contentOf host.cwd p with
      | .error e => .error (.access e)
      | .ok content => decodeCompressed host encoding content
    else readPlain t host p encoding

def fill (host : Host) (opened : Tree) (loc : Location) (content : Bytes) :
    Tree × Except Fault Unit :=
  match host.writing with
  | .complete => (opened.set loc (.file content), .ok ())
  | .broken left reason => (opened.set loc (.file left), .error (.unwritten reason))

/-- Writes a text into an open file with the given packing of its bytes. When the text cannot be
encoded, the packed empty content stays. -/
def writeOpened (host : Host) (pack : Bytes → Bytes) (opened : Tree) (loc : Location)
    (codec : Codec) (text : Text) : Tree × Except Fault Unit :=
  match codec.encode text with
  | .ok bs => fill host opened loc (pack bs)
  | .error message =>
    match fill host opened loc (pack []) with
    | (filled, .ok ()) => (filled, .error (.unencodable message))
    | failed => failed

def writePlain (t : Tree) (host : Host) (p : Path) (encoding text : Text) :
    Tree × Except Fault Unit :=
  if hasNullName encoding then (t, .error .nullInEncoding)
  else
    match t.openForWriting host.cwd p with
    | .error e => (t, .error (.access e))
    | .ok (opened, loc) =>
      match codecNamed host encoding with
      | .error fault => (opened, .error fault)
      | .ok codec => writeOpened host id opened loc codec text

def writeCompressed (t : Tree) (host : Host) (p : Path) (encoding text : Text) :
    Tree × Except Fault Unit :=
  match t.openForWriting host.cwd p with
  | .error e => (t, .error (.access e))
  | .ok (opened, loc) =>
    match codecNamed host encoding with
    | .error fault => (opened, .error fault)
    | .ok codec => writeOpened host Gzip.compress opened loc codec text

/-- Writes a journal, compressed if its extension says so, after making the directories above
it. -/
def writeJournal (t : Tree) (host : Host) (p : Path) (encoding text : Text) :
    Tree × Except Fault Unit :=
  match t.ensureDirectory host.cwd p.parent with
  | (made, .error e) => (made, .error (.access e))
  | (made, .ok ()) =>
    if p.isCompressed then writeCompressed made host p encoding text
    else writePlain made host p encoding text

end Storage
end JournalScript
