import JournalScript.Proofs.CommandLine.Stages
import JournalScript.Proofs.Layout.Effective
import JournalScript.Proofs.Service.Separated

/-!
# JournalScript.Proofs.CommandLine.Options

What the options of the command line come to.

The options among the words are read one after another (`givenOptions`), and of two that set the same
field the last one counts. `readAll_reads` says so by induction on the reading; each way of taking an
option is one step (`takeValue_reads`, `takeAttached_reads`, `takeFlag_reads`).
-/

namespace JournalScript

def SeparatorChoice.ofValue (value : Text) : SeparatorChoice :=
  if value = ['-', '-'] then .void
  else
    match Separator.ofName? value with
    | some sep => .chars sep
    | none => .unset

/-- What values that are given one after another make of it: the last one counts. -/
def SeparatorChoice.after (c : SeparatorChoice) (values : List Text) : SeparatorChoice :=
  (values.getLast?.map ofValue).getD c

theorem SeparatorChoice.after_append (c : SeparatorChoice) (values more : List Text) :
    c.after (values ++ more) = (c.after values).after more := by
  simp only [after, List.getLast?_append]
  cases more.getLast? <;> rfl

namespace Arguments

open Layout

/-- The options in front of the end-of-options mark, each with its value. -/
def givenOptions : List Word → List (Flag × Option Text)
  | [] => []
  | .endOfOptions :: _ => []
  | .option flag none :: .operand t :: rest =>
    if flag.takesValue then (flag, some t) :: givenOptions rest
    else (flag, none) :: givenOptions (.operand t :: rest)
  | .option flag value :: rest => (flag, value) :: givenOptions rest
  | _ :: rest => givenOptions rest

def valuesOf (flag : Flag) (given : List (Flag × Option Text)) : List Text :=
  given.filterMap fun o => if o.1 = flag then o.2 else none

theorem valuesOf_append (flag : Flag) (given given' : List (Flag × Option Text)) :
    valuesOf flag (given ++ given') = valuesOf flag given ++ valuesOf flag given' :=
  List.filterMap_append

def asksSkip (given : List (Flag × Option Text)) : Bool := given.any fun o => o.1 == .skipEmpty

/-- Taking options turns the one arguments into the other, as far as layouts are concerned. -/
structure Reads (given : List (Flag × Option Text)) (a a' : Arguments) : Prop where
  line : a'.lineSeparator = a.lineSeparator.after (valuesOf .eol given)
  output : a'.outputSeparator = a.outputSeparator.after (valuesOf .outEol given)
  skip : a'.skipEmpty = (a.skipEmpty || asksSkip given)
  named : ∀ value ∈ valuesOf .eol given ++ valuesOf .outEol given,
    value = ['-', '-'] ∨ ∃ sep, Separator.Means value sep

namespace Reads

variable {given given' : List (Flag × Option Text)} {a a' a'' : Arguments}

theorem same (hline : a'.lineSeparator = a.lineSeparator)
    (houtput : a'.outputSeparator = a.outputSeparator) (hskip : a'.skipEmpty = a.skipEmpty) :
    Reads [] a a' := ⟨hline, houtput, by simp [hskip, asksSkip], by simp [valuesOf]⟩

theorem trans (h : Reads given a a') (h' : Reads given' a' a'') :
    Reads (given ++ given') a a'' where
  line := by rw [h'.line, h.line, valuesOf_append, SeparatorChoice.after_append]
  output := by rw [h'.output, h.output, valuesOf_append, SeparatorChoice.after_append]
  skip := by
    rw [h'.skip, h.skip, asksSkip, asksSkip, asksSkip, List.any_append, Bool.or_assoc]
  named := by
    intro value hvalue
    simp only [valuesOf_append, List.mem_append] at hvalue
    rcases hvalue with (hvalue | hvalue) | hvalue | hvalue
    · exact h.named value (List.mem_append_left _ hvalue)
    · exact h'.named value (List.mem_append_left _ hvalue)
    · exact h.named value (List.mem_append_right _ hvalue)
    · exact h'.named value (List.mem_append_right _ hvalue)

end Reads

variable {r r' : Reading} {flag : Flag} {value : Text}

theorem ofValue_eq_chars {sep : Text} (h : Separator.ofName? value = some sep) :
    SeparatorChoice.ofValue value = .chars sep := by
  have hmark : value ≠ ['-', '-'] := by
    rintro rfl
    have hnone : Separator.ofName? ['-', '-'] = none := by decide
    rw [hnone] at h
    cases h
  rw [SeparatorChoice.ofValue, if_neg hmark, h]

theorem separator_eq_ok_iff {sep : Text} :
    separator flag value = .ok sep ↔ Separator.ofName? value = some sep := by
  rw [separator, separatorNamed]
  cases Separator.ofName? value <;> simp

theorem takeValue_reads (h : takeValue r flag value = .ok r') :
    Reads [(flag, some value)] r.given r'.given := by
  cases flag with
  | eol =>
    rw [takeValue] at h
    split at h
    · cases h
    · rename_i sep hsep
      cases h
      have hname := separator_eq_ok_iff.mp hsep
      refine ⟨(ofValue_eq_chars hname).symm, rfl, by simp [asksSkip], fun v hv => ?_⟩
      obtain rfl : v = value := by simpa [valuesOf] using hv
      exact .inr ⟨sep, Separator.ofName?_eq_some_iff.mp hname⟩
  | outEol =>
    rw [takeValue] at h
    split at h
    · cases h
    · rename_i sep hsep
      cases h
      have hname := separator_eq_ok_iff.mp hsep
      refine ⟨rfl, (ofValue_eq_chars hname).symm, by simp [asksSkip], fun v hv => ?_⟩
      obtain rfl : v = value := by simpa [valuesOf] using hv
      exact .inr ⟨sep, Separator.ofName?_eq_some_iff.mp hname⟩
  | write =>
    cases h
    exact ⟨rfl, rfl, by simp [asksSkip], by simp [valuesOf]⟩
  | _ => cases h

theorem takeVoid_reads (h : flag.takesValue = true) :
    Reads [(flag, some ['-', '-'])] r.given (takeVoid r flag).given := by
  cases flag with
  | eol => exact ⟨rfl, rfl, by simp [takeVoid, asksSkip], by simp [valuesOf]⟩
  | outEol => exact ⟨rfl, rfl, by simp [takeVoid, asksSkip], by simp [valuesOf]⟩
  | write => exact ⟨rfl, rfl, by simp [takeVoid, asksSkip], by simp [valuesOf]⟩
  | _ => cases h

theorem takeAttached_reads (h : takeAttached r flag value = .ok r') :
    Reads [(flag, some value)] r.given r'.given := by
  rw [takeAttached] at h
  split at h
  · rename_i hvoid
    simp only [Bool.and_eq_true, beq_iff_eq] at hvoid
    obtain ⟨htakes, rfl⟩ := hvoid
    cases h
    exact takeVoid_reads htakes
  · exact takeValue_reads h

theorem takeFlag_reads (h : takeFlag r flag = .ok r') : Reads [(flag, none)] r.given r'.given := by
  cases flag with
  | skipEmpty =>
    cases h
    exact ⟨rfl, rfl, by simp [asksSkip], by simp [valuesOf]⟩
  | json =>
    cases h
    exact ⟨rfl, rfl, by simp [asksSkip], by simp [valuesOf]⟩
  | check =>
    cases h
    exact ⟨rfl, rfl, by simp [asksSkip], by simp [valuesOf]⟩
  | _ => cases h

theorem leave_reads (more : List Text) : Reads [] r.given (r.leave more).given := .same rfl rfl rfl

theorem takePath_reads (path : Text) : Reads [] r.given (r.takePath path).given := .same rfl rfl rfl

/-- By induction on the reading, one step for each option. -/
theorem readAll_reads {words : List Word} (h : readAll r words = .ok r') :
    Reads (givenOptions words) r.given r'.given := by
  induction r, words using readAll.induct with
  | case1 r =>
    cases h
    exact .same rfl rfl rfl
  | case2 r t rest hpath =>
    rw [readAll, if_pos hpath] at h
    cases h
    exact leave_reads _
  | case3 r t rest hpath =>
    rw [readAll, if_neg hpath] at h
    cases h
    exact (takePath_reads t).trans (leave_reads _)
  | case4 r t rest hmark ih =>
    have hfirst : Reads [] r.given (if r.hasPath then r.leave [t] else r.takePath t).given := by
      split
      · exact leave_reads _
      · exact takePath_reads t
    rw [readAll] at h
    · exact hfirst.trans (ih h)
    · exact hmark
  | case5 r rest t more hmore hpath =>
    rw [readAll] at h
    simp only [hpath, hmore] at h
    cases h
    exact (takePath_reads t).trans (leave_reads _)
  | case6 r rest hmore =>
    rw [readAll] at h
    split at h
    · exact absurd ‹_› fun hpath => hmore _ _ hpath ‹_›
    · cases h
      exact leave_reads _
  | case7 r t rest ih =>
    rw [readAll] at h
    exact (leave_reads [t]).trans (ih h)
  | case8 r more tail => cases h
  | case9 r flag value rest stop htake =>
    rw [readAll, htake] at h
    cases h
  | case10 r flag value rest r₁ htake ih =>
    rw [readAll, htake] at h
    exact (takeAttached_reads htake).trans (ih h)
  | case11 r flag t rest htakes stop htake =>
    rw [readAll, if_pos htakes, htake] at h
    cases h
  | case12 r flag t rest htakes r₁ htake ih =>
    rw [readAll, if_pos htakes, htake] at h
    rw [givenOptions, if_pos htakes]
    exact (takeValue_reads htake).trans (ih h)
  | case13 r flag t rest htakes stop htake =>
    rw [readAll, if_neg htakes, htake] at h
    cases h
  | case14 r flag t rest htakes r₁ htake ih =>
    rw [readAll, if_neg htakes, htake] at h
    rw [givenOptions, if_neg htakes]
    exact (takeFlag_reads htake).trans (ih h)
  | case15 r flag rest hoperand stop htake =>
    rw [readAll, htake] at h
    · cases h
    · exact hoperand
  | case16 r flag rest hoperand r₁ htake ih =>
    rw [readAll, htake] at h
    · rw [givenOptions]
      · exact (takeFlag_reads htake).trans (ih h)
      · exact fun t rest' hrest _ => hoperand t rest' hrest
    · exact hoperand

/-! ## The layout that the options ask for -/

/-- The options of a layout among the words: the last separators that are named, and the switch. -/
def optionsOf (words : List Word) : Options :=
  ⟨(valuesOf .eol (givenOptions words)).getLast?, (valuesOf .outEol (givenOptions words)).getLast?,
    if asksSkip (givenOptions words) then some true else none⟩

variable {argv : List Text} {words : List Word} {a : Arguments}

theorem parse_reads (hwords : Word.ofList argv = .ok words) (h : parse argv = .ok a) :
    Reads (givenOptions words) Reading.start.given a := by
  rw [parse, hwords] at h
  dsimp only at h
  split at h
  · cases h
  rename_i r hread
  split at h
  · cases h
  split at h
  · cases h
  · cases h
    exact readAll_reads hread

theorem ofValue_isAsked (hmark : value ≠ ['-', '-'])
    (hnamed : value = ['-', '-'] ∨ ∃ sep, Separator.Means value sep) :
    (SeparatorChoice.ofValue value).IsAsked (.str value) := by
  obtain ⟨sep, hmeans⟩ := hnamed.resolve_left hmark
  rw [ofValue_eq_chars (Separator.ofName?_eq_some_iff.mpr hmeans)]
  exact .chars (separatorNamed_eq_ok_iff.mpr hmeans)

theorem after_isAsked {values : List Text} (hmark : values.getLast? ≠ some ['-', '-'])
    (hnamed : ∀ value ∈ values, value = ['-', '-'] ∨ ∃ sep, Separator.Means value sep) :
    (SeparatorChoice.unset.after values).IsAsked (values.getLast?.elim .null .str) := by
  rw [SeparatorChoice.after]
  cases hlast : values.getLast? with
  | none => exact .unset
  | some value =>
    rw [hlast] at hmark
    exact ofValue_isAsked (fun h => hmark (by rw [h])) (hnamed _ (List.mem_of_getLast? hlast))

theorem parse_match (hwords : Word.ofList argv = .ok words) (h : parse argv = .ok a)
    (hline : (optionsOf words).line ≠ some ['-', '-'])
    (houtput : (optionsOf words).output ≠ some ['-', '-']) : a.Match (optionsOf words).choices := by
  have hreads := parse_reads hwords h
  refine ⟨?_, ?_, ?_⟩
  · rw [hreads.line]
    exact after_isAsked hline fun value hvalue => hreads.named value (List.mem_append_left _ hvalue)
  · rw [hreads.output]
    exact after_isAsked houtput fun value hvalue =>
      hreads.named value (List.mem_append_right _ hvalue)
  · rw [hreads.skip, optionsOf, Options.choices]
    cases asksSkip (givenOptions words) <;> rfl

/-- Whatever the options, what stands between the lines is a line end: an option without a value does
not touch the layout. -/
theorem isLineEnd_after {values : List Text} {otherwise : Text} (h : IsLineEnd otherwise)
    (hnamed : ∀ value ∈ values, value = ['-', '-'] ∨ ∃ sep, Separator.Means value sep) :
    IsLineEnd ((SeparatorChoice.unset.after values).getD otherwise) := by
  rw [SeparatorChoice.after]
  cases hlast : values.getLast? with
  | none => exact h
  | some value =>
    rcases hnamed value (List.mem_of_getLast? hlast) with rfl | ⟨sep, hmeans⟩
    · exact h
    · have hname := Separator.ofName?_eq_some_iff.mpr hmeans
      simpa [ofValue_eq_chars hname, SeparatorChoice.getD] using hmeans.isLineEnd

end Arguments

namespace CommandLine

open Layout Arguments

variable {s : Surroundings} {t : Tree} {vs : Variables} {a : Arguments} {layout : Layout}
  {argv : List Text} {words : List Word}

theorem isLineEnd_of_layoutOf (h : Arguments.parse argv = .ok a)
    (hlayout : layoutOf vs a = .ok layout) : IsLineEnd layout.lineSeparator := by
  obtain ⟨words, hwords⟩ : ∃ words, Word.ofList argv = .ok words := by
    cases hwords : Word.ofList argv with
    | ok words => exact ⟨words, rfl⟩
    | error complaint =>
      rw [Arguments.parse, hwords] at h
      cases h
  have hreads := parse_reads hwords h
  rw [layoutOf] at hlayout
  split at hlayout
  · cases hlayout
  · rename_i base hbase
    cases hlayout
    rw [hreads.line]
    exact isLineEnd_after (isRequested_of_resolve isRequested_default hbase).line
      fun value hvalue => hreads.named value (List.mem_append_left _ hvalue)

theorem openSource_ne_emptySeparator (hsep : layout.lineSeparator ≠ []) :
    (openSource s t a layout).result ≠ .error .emptySeparator := by
  intro h
  rw [openSource] at h
  split at h
  · split at h
    · rename_i hread
      cases h
      exact Storage.readPlain_ne_emptySeparator hread
    · cases h
  · have hunread := Document.unread_of_openFile h
    exact hsep (Document.unread_emptySeparator_iff.mp hunread).1

/-- **The layout that a request works with.** There is none exactly when a variable has a value that
means nothing, or a separator that is given is none; the first of the variables is reported, and an
option only when all variables are right. Otherwise every field is what the option says, else what the
variable says, else the default; both separators are line ends, so that no request and no command cuts a
text at nothing. A command whose options all have a value works with the layout that a request would
have with these options. And resolving a layout again does not change it. -/
theorem effective_layout (vs : Variables) (o : Options) :
    ((∃ e, choose vs o.choices = .error e) ↔
      Misset Separator.Means vs lineVariable ∨ Misset Separator.Means vs outputVariable ∨
        Misset Switch.Means vs skipVariable ∨ Misnamed o.line ∨ Misnamed o.output) ∧
    (∀ e, choose vs o.choices = .error e ↔ Refused vs o e) ∧
    (∀ layout, choose vs o.choices = .ok layout ↔ (∀ e, ¬ Refused vs o e) ∧ Effective vs o layout) ∧
    (∀ layout, choose vs o.choices = .ok layout →
      IsLineEnd layout.lineSeparator ∧ IsLineEnd layout.outputSeparator) ∧
    (∀ layout resolved, resolve vs layout = .ok resolved →
      resolve vs resolved = .ok resolved ∧ resolved.encoding = layout.encoding) ∧
    (∀ s t, (∀ r, (Service.parseJournal s t r).1 ≠ .error .emptySeparator) ∧
      (∀ r, (Service.summarizeJournal s t r).1 ≠ .error .emptySeparator) ∧
      (∀ r, Service.renderJournal s r ≠ .error .emptySeparator) ∧
      ∀ r, (Service.rewriteJournal s t r).result ≠ .error .emptySeparator) ∧
    ∀ argv words a, Word.ofList argv = .ok words → Arguments.parse argv = .ok a →
      ((optionsOf words).line ≠ some ['-', '-'] → (optionsOf words).output ≠ some ['-', '-'] →
        layoutOf vs a = choose vs (optionsOf words).choices) ∧
      ∀ s t layout, layoutOf vs a = .ok layout → IsLineEnd layout.lineSeparator ∧
        (openSource s t a layout).result ≠ .error .emptySeparator := by
  refine ⟨?_, fun e => choose_eq_error_iff, fun layout => ?_, fun layout h => ?_,
    fun layout resolved => resolve_resolve, fun s t => ?_, fun argv words a hwords h => ⟨?_, ?_⟩⟩
  · simp only [choose_eq_error_iff]
    exact refused_iff
  · constructor
    · intro h
      refine ⟨fun e he => ?_, (choose_eq_ok_iff_effective.mp h).2⟩
      rw [choose_eq_error_iff.mpr he] at h
      cases h
    · rintro ⟨hrefused, heffective⟩
      exact choose_eq_ok_iff_effective.mpr
        ⟨fun e he => hrefused e (.environment he), heffective⟩
  · have hrequested := isRequested_of_choose h
    exact ⟨hrequested.line, hrequested.output⟩
  · exact ⟨Service.parseJournal_ne_emptySeparator, Service.summarizeJournal_ne_emptySeparator,
      Service.renderJournal_ne_emptySeparator, Service.rewriteJournal_ne_emptySeparator⟩
  · intro hline houtput
    exact (choose_eq_layoutOf (parse_match hwords h hline houtput)).symm
  · intro s t layout hlayout
    have hend := isLineEnd_of_layoutOf h hlayout
    exact ⟨hend, openSource_ne_emptySeparator hend.ne_nil⟩

/-- An empty variable, one with blanks and capitals, and one that an option overrides; and a command
with an option that is given twice. -/
theorem effective_layout_mixed :
    let vs : Variables := ⟨[(lineVariable, []), (outputVariable, " Cr\t".toList),
      (skipVariable, "ON".toList)]⟩
    let o : Options := ⟨none, none, some false⟩
    let argv : List Text :=
      ["j".toList, "--out=LF".toList, "--eol".toList, "cr".toList, "--out=lf ".toList]
    Effective vs o ⟨['\r', '\n'], ['\r'], false, "utf-8".toList⟩ ∧
      ∃ words a, Word.ofList argv = .ok words ∧ Arguments.parse argv = .ok a ∧
        (optionsOf words).output = some "lf ".toList ∧
        layoutOf vs a = .ok ⟨['\r'], ['\n'], true, "utf-8".toList⟩ := by
  intro vs o argv
  obtain ⟨-, -, heffective, -, -, -, hcommand⟩ := effective_layout vs o
  obtain ⟨hsame, -⟩ := hcommand argv _ _ rfl rfl
  exact ⟨((heffective _).mp rfl).2, _, _, rfl, rfl, rfl, (hsame (by decide) (by decide)).trans rfl⟩

/-- The end-of-options mark that is attached to an option is no name of a separator, but the command
takes it and finds no value in it: it works with a layout that no request would have, and fails when it
cuts the text. -/
theorem effective_layout_void :
    let s : Surroundings := ⟨.plain [], ⟨[]⟩, []⟩
    let t : Tree := ⟨[(["j".toList], .file [0x78])]⟩
    let argv : List Text := ["j".toList, "--eol=--".toList]
    ∃ words a, Word.ofList argv = .ok words ∧ Arguments.parse argv = .ok a ∧
      choose s.vars (optionsOf words).choices = .error (.separator "--".toList) ∧
      layoutOf s.vars a = .ok .default ∧
      (run s t argv).exit = .error .voidLineSeparator :=
  ⟨_, _, rfl, rfl, rfl, rfl, rfl⟩

end CommandLine
end JournalScript
