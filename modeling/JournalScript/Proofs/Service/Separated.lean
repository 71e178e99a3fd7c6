import JournalScript.Proofs.Document.FailedRead
import JournalScript.Proofs.Document.Reload
import JournalScript.Proofs.Document.RoundTrip
import JournalScript.Service

/-!
# JournalScript.Proofs.Service.Separated

No request cuts a text at an empty separator.

Only cutting a text can fail for want of a separator; everything else that a request does has its own
faults. The layout of a request has a line end between the lines, so the fault does not occur.
-/

namespace JournalScript

/-- A fault that is handed on is none that its origin cannot have. -/
theorem error_ne_of_ne {ε α β : Type} {x : Except ε α} {e absent : ε} (hne : x ≠ .error absent)
    (h : x = .error e) : (.error e : Except ε β) ≠ .error absent := by
  intro heq
  cases heq
  exact hne h

namespace Storage

variable {t : Tree} {host : Host} {p : Path} {encoding text : Text} {bs : Bytes}

theorem codecNamed_ne_emptySeparator : codecNamed host encoding ≠ .error .emptySeparator := by
  intro h
  cases isEncoding_of_codecNamed h

theorem decodeNamed_ne_emptySeparator : decodeNamed host encoding bs ≠ .error .emptySeparator := by
  rw [decodeNamed]
  split
  · exact error_ne_of_ne codecNamed_ne_emptySeparator ‹_›
  · rename_i codec _
    intro h
    cases hdecode : codec.decode bs with
    | error message =>
      rw [hdecode] at h
      cases h
    | ok text =>
      rw [hdecode] at h
      cases h

theorem decodeCompressed_ne_emptySeparator :
    decodeCompressed host encoding bs ≠ .error .emptySeparator := by
  rw [decodeCompressed]
  split
  · exact error_ne_of_ne codecNamed_ne_emptySeparator ‹_›
  split
  · simp
  · exact decodeNamed_ne_emptySeparator

theorem readJournal_ne_emptySeparator : readJournal t host p encoding ≠ .error .emptySeparator := by
  rw [readJournal]
  split
  · simp
  · simp
  split
  · split
    · simp
    · exact decodeCompressed_ne_emptySeparator
  · exact readPlain_ne_emptySeparator

theorem fill_ne_emptySeparator {loc : Location} :
    (fill host t loc bs).2 ≠ .error .emptySeparator := by
  rw [fill]
  split <;> simp

theorem writeOpened_ne_emptySeparator {pack : Bytes → Bytes} {loc : Location} {codec : Codec} :
    (writeOpened host pack t loc codec text).2 ≠ .error .emptySeparator := by
  rw [writeOpened]
  split
  · exact fill_ne_emptySeparator
  split
  · simp
  · exact fill_ne_emptySeparator

theorem writePlain_ne_emptySeparator :
    (writePlain t host p encoding text).2 ≠ .error .emptySeparator := by
  rw [writePlain]
  split
  · simp
  split
  · simp
  split
  · exact error_ne_of_ne codecNamed_ne_emptySeparator ‹_›
  · exact writeOpened_ne_emptySeparator

theorem writeCompressed_ne_emptySeparator :
    (writeCompressed t host p encoding text).2 ≠ .error .emptySeparator := by
  rw [writeCompressed]
  split
  · simp
  split
  · exact error_ne_of_ne codecNamed_ne_emptySeparator ‹_›
  · exact writeOpened_ne_emptySeparator

theorem writeJournal_ne_emptySeparator :
    (writeJournal t host p encoding text).2 ≠ .error .emptySeparator := by
  rw [writeJournal]
  split
  · simp
  split
  · exact writeCompressed_ne_emptySeparator
  · exact writePlain_ne_emptySeparator

end Storage

namespace Document

variable {d : Document} {t : Tree} {host : Host} {layout : Layout} {filter : NameFilter}
  {filename text : Text}

theorem ofText_ne_emptySeparator (hsep : layout.lineSeparator ≠ []) :
    ofText layout filter text ≠ .error .emptySeparator := by
  rw [ofText_eq_ok_iff.mpr ⟨hsep, rfl⟩]
  simp

theorem fetch_ne_emptySeparator (hsep : layout.lineSeparator ≠ []) :
    (fetch t host layout filter filename).1 ≠ .error .emptySeparator := by
  cases hread : Storage.readJournal t host (Path.ofText filename) layout.encoding with
  | error fault =>
    rw [fetch, hread]
    exact error_ne_of_ne Storage.readJournal_ne_emptySeparator hread
  | ok text =>
    obtain ⟨events, hfetch⟩ := fetch_of_readJournal filter hsep hread
    rw [hfetch]
    simp

theorem store_ne_emptySeparator {target : Option Text} :
    (d.store t host target).result ≠ .error .emptySeparator := by
  rw [store]
  dsimp only
  split
  · simp [Reply.fail]
  split
  · rename_i hwrite
    exact error_ne_of_ne Storage.writeJournal_ne_emptySeparator (congrArg Prod.snd hwrite)
  · simp

end Document

namespace Service

variable {s : Surroundings} {t : Tree} {path v : Value}

theorem confine_ne_emptySeparator : confine s t path ≠ .error .emptySeparator := by
  rw [confine.eq_def]
  split
  · simp
  · split <;> simp
  · simp

theorem map_limitOf_ne_emptySeparator (n : Int) :
    (limitOf n).map some ≠ .error .emptySeparator := by
  rw [limitOf]
  split <;> simp [Except.map]

theorem effectiveLimit_ne_emptySeparator : effectiveLimit v ≠ .error .emptySeparator := by
  rw [effectiveLimit.eq_def]
  split
  · simp
  · exact map_limitOf_ne_emptySeparator _
  · exact map_limitOf_ne_emptySeparator _
  · split <;> simp
  · simp

theorem namesOf_ne_emptySeparator (vs : List Value) : namesOf vs ≠ .error .emptySeparator := by
  induction vs with
  | nil => simp [namesOf]
  | cons v rest ih =>
    cases v with
    | str name =>
      rw [namesOf]
      split
      · exact error_ne_of_ne ih ‹_›
      · simp
    | _ => simp [namesOf]

theorem moduleFilter_ne_emptySeparator : moduleFilter v ≠ .error .emptySeparator := by
  rw [moduleFilter]
  split
  · split
    · simp
    split
    · exact error_ne_of_ne (namesOf_ne_emptySeparator _) ‹_›
    · simp
    · simp
  · simp

theorem lineOf_ne_emptySeparator : lineOf v ≠ .error .emptySeparator := by
  rw [lineOf]
  split
  · simp
  · split <;> simp

theorem linesOf_ne_emptySeparator (vs : List Value) : linesOf vs ≠ .error .emptySeparator := by
  induction vs with
  | nil => simp [linesOf]
  | cons v rest ih =>
    rw [linesOf]
    split
    · exact error_ne_of_ne lineOf_ne_emptySeparator ‹_›
    split
    · exact error_ne_of_ne ih ‹_›
    · simp

theorem fetch_ne_emptySeparator {line modules : Value} :
    (fetch s t path line modules).1 ≠ .error .emptySeparator := by
  rw [fetch]
  split
  · exact error_ne_of_ne confine_ne_emptySeparator ‹_›
  split
  · simp
  rename_i hlayout
  split
  · exact error_ne_of_ne moduleFilter_ne_emptySeparator ‹_›
  · exact Document.fetch_ne_emptySeparator (Layout.isRequested_of_choose hlayout).line.ne_nil

theorem targetOf_ne_emptySeparator {source : Path} {output : Value} :
    targetOf s t source output ≠ .error .emptySeparator := by
  rw [targetOf]
  split
  · exact confine_ne_emptySeparator
  · simp

/-! ## The requests -/

theorem parseJournal_ne_emptySeparator (r : ParseRequest) :
    (parseJournal s t r).1 ≠ .error .emptySeparator := by
  rw [parseJournal]
  split
  · exact error_ne_of_ne effectiveLimit_ne_emptySeparator ‹_›
  split
  · rename_i hfetch
    exact error_ne_of_ne fetch_ne_emptySeparator (congrArg Prod.fst hfetch)
  · split <;> simp

theorem summarizeJournal_ne_emptySeparator (r : SummaryRequest) :
    (summarizeJournal s t r).1 ≠ .error .emptySeparator := by
  rw [summarizeJournal]
  split
  · rename_i hfetch
    exact error_ne_of_ne fetch_ne_emptySeparator (congrArg Prod.fst hfetch)
  · simp

theorem renderJournal_ne_emptySeparator (r : RenderRequest) :
    renderJournal s r ≠ .error .emptySeparator := by
  rw [renderJournal]
  split
  · simp
  split
  · simp
  split
  · exact error_ne_of_ne (linesOf_ne_emptySeparator _) ‹_›
  · simp

theorem rewriteJournal_ne_emptySeparator (r : RewriteRequest) :
    (rewriteJournal s t r).result ≠ .error .emptySeparator := by
  rw [rewriteJournal]
  split
  · simp [Reply.fail]
  rename_i layout hlayout
  have hsep := (Layout.isRequested_of_choose hlayout).line.ne_nil
  split
  · exact error_ne_of_ne confine_ne_emptySeparator ‹_›
  split
  · exact error_ne_of_ne targetOf_ne_emptySeparator ‹_›
  split
  · exact error_ne_of_ne Storage.readJournal_ne_emptySeparator ‹_›
  split
  · exact error_ne_of_ne (Document.ofText_ne_emptySeparator hsep) ‹_›
  · dsimp only
    split
    · rename_i hstore
      exact error_ne_of_ne Document.store_ne_emptySeparator (congrArg Reply.result hstore)
    · simp

end Service
end JournalScript
