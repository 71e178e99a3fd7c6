import JournalScript.CommandLine.Run
import JournalScript.Proofs.Document.Files
import JournalScript.Proofs.Encoding
import JournalScript.Proofs.Layout

/-!
# JournalScript.Proofs.CommandLine.Stages

The stages of a command: it makes its layout, reads its source, writes its target and prints.

A command that can read its source goes on to write and to print (`Ready`); any other fails before it
has changed or printed anything (`ready_or_fail`). What the writing can come to is said once
(`WroteOut`), and from it what the whole command can (`Executed`).
-/

namespace JournalScript

/-- A value that asks a request for the separator that an option of the command asks for. -/
inductive SeparatorChoice.IsAsked : SeparatorChoice → Value → Prop where
  | unset : IsAsked .unset .null
  | chars {name sep : Text} (h : Layout.separatorNamed name = .ok sep) :
      IsAsked (.chars sep) (.str name)

/-- Choices that ask a request for what the options of the command ask for. -/
structure Arguments.Match (a : Arguments) (c : Layout.Choices) : Prop where
  line : a.lineSeparator.IsAsked c.lineSeparator
  output : a.outputSeparator.IsAsked c.outputSeparator
  skip : c.skipEmpty = if a.skipEmpty then .bool true else .null

namespace CommandLine

open Text JournalScript.Tree

variable {s : Surroundings} {t : Tree} {a : Arguments} {layout : Layout} {text : Text}

/-! ## Layouts -/

theorem separatorOr_of_isAsked {choice : SeparatorChoice} {v : Value} (h : choice.IsAsked v)
    (otherwise : Text) : Layout.separatorOr v otherwise = .ok (choice.getD otherwise) := by
  cases h with
  | unset => rfl
  | chars h => exact h

theorem choose_eq_layoutOf {vs : Variables} {c : Layout.Choices} (h : a.Match c) :
    Layout.choose vs c = layoutOf vs a := by
  rw [Layout.choose, layoutOf]
  cases Layout.resolve vs .default with
  | error e => rfl
  | ok base =>
    simp only [separatorOr_of_isAsked h.line, separatorOr_of_isAsked h.output]
    rw [h.skip]
    cases a.skipEmpty <;> rfl

theorem codecNamed_of_layoutOf (h : layoutOf s.vars a = .ok layout) :
    Storage.codecNamed s.toHost layout.encoding = .ok Encoding.utf8.codec := by
  rw [layoutOf] at h
  split at h
  · cases h
  · rename_i base hbase
    cases h
    rw [(Layout.isRequested_of_resolve Layout.isRequested_default hbase).encoding,
      Storage.codecNamed_utf8]

/-! ## The source -/

def opened (a : Arguments) (layout : Layout) (text : Text) : Document :=
  ⟨(Path.ofText a.path).toText, Document.linesOf layout .unrestricted text, layout, .unrestricted, []⟩

/-- What writing the target can come to: the tree that it leaves, and its result. -/
inductive WroteOut (s : Surroundings) (t : Tree) (a : Arguments) (d : Document) :
    Tree → Except Fault Unit → Prop where
  | nowhere (h : a.write.getD [] = []) : WroteOut s t a d t (.ok ())
  | void {out : Text} (hout : a.write = some out) (hne : out ≠ [])
      (hvoid : a.outputSeparator = .void) : WroteOut s t a d t (.error .voidOutputSeparator)
  | unopened {out : Text} {e : AccessError} (hout : a.write = some out) (hne : out ≠ [])
      (hvoid : a.outputSeparator ≠ .void)
      (hopen : t.openForWriting s.cwd (Path.ofText out) = .error e) :
      WroteOut s t a d t (.error (.access e))
  | broken {out reason : Text} {left : Bytes} {open' : Tree} {loc : Location}
      (hout : a.write = some out) (hne : out ≠ []) (hvoid : a.outputSeparator ≠ .void)
      (hopen : t.openForWriting s.cwd (Path.ofText out) = .ok (open', loc))
      (hhost : s.writing = .broken left reason) :
      WroteOut s t a d (open'.set loc (.file left)) (.error (.unwritten reason))
  | written {out : Text} {open' : Tree} {loc : Location} (hout : a.write = some out)
      (hne : out ≠ []) (hvoid : a.outputSeparator ≠ .void)
      (hopen : t.openForWriting s.cwd (Path.ofText out) = .ok (open', loc))
      (hhost : s.writing = .complete) :
      WroteOut s t a d (open'.set loc (.file (Utf8.encode d.render))) (.ok ())

/-- What a command needs to go on and write and print. -/
structure Ready (s : Surroundings) (t : Tree) (a : Arguments) (layout : Layout) (text : Text) :
    Prop where
  layout_eq : layoutOf s.vars a = .ok layout
  bounded : a.lineSeparator ≠ .void
  separated : layout.lineSeparator ≠ []
  read : Storage.readPlain t s.toHost (Path.ofText a.path) layout.encoding = .ok text

theorem Ready.contentOf_eq (h : Ready s t a layout text) :
    t.contentOf s.cwd (Path.ofText a.path) = .ok (Utf8.encode text) := by
  obtain ⟨codec, bs, hcodec, hcontent, hdecode⟩ := Storage.readPlain_eq_ok_iff.mp h.read
  obtain rfl := Except.ok.inj (hcodec.symm.trans (codecNamed_of_layoutOf h.layout_eq))
  rwa [Utf8.decode_eq_ok_iff.mp (Encoding.decode_codec_eq_ok_iff.mp hdecode)]

end CommandLine
end JournalScript
