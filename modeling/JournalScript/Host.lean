import JournalScript.Tree.Basic

/-!
# JournalScript.Host

What is around the files: the working directory, the codecs of further encodings, and whether what
is written to an open file gets there. A host may break a writing off for any reason, at any moment
after the file was opened; what is in the file then is left open, and so is the reason.

Main definitions: `Codec`, `Encoding.codec`, `Writing`, `Host`.
-/

namespace JournalScript

/-- Texts as bytes and back, or what is wrong with them. -/
structure Codec where
  decode : Bytes → Except Text Text
  encode : Text → Except Text Bytes

def Encoding.codec (e : Encoding) : Codec where
  decode bs := (e.decode bs).mapError (DecodeError.message e.name)
  encode t := (e.encode t).mapError (EncodeError.message e.name)

inductive Writing where
  | complete
  | broken (left : Bytes) (reason : Text)
  deriving DecidableEq, Repr

structure Host where
  cwd : Location
  /-- The codecs of encodings besides those that are defined here, by their names. -/
  codecs : Text → Option Codec
  writing : Writing

namespace Host

/-- A host with no further encodings, where everything is written. -/
def plain (cwd : Location) : Host := ⟨cwd, fun _ => none, .complete⟩

@[simp] theorem plain_cwd (cwd : Location) : (plain cwd).cwd = cwd := rfl

@[simp] theorem plain_writing (cwd : Location) : (plain cwd).writing = .complete := rfl

end Host
end JournalScript
