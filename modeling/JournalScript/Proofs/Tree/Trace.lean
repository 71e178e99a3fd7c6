import JournalScript.Proofs.Path
import JournalScript.Proofs.Tree.Walk
import JournalScript.Tree.Resolve

/-!
# JournalScript.Proofs.Tree.Trace

What holds of the paths that tracing links gives.

A `TraceInvariant` holds of the root, survives `..` and every name that is no link, and says what
may be known of a path on which the trace gets stuck. `trace_meets`: what the invariant says holds of
the result, at any depth of links. It is used twice: the names of a real path have no slash
(`no_slash_resolve`), and no part of a path that was resolved to its end is a link
(`unlinked_of_settles`). Such an `Unlinked` path is its own real path (`resolve_of_unlinked`), and
whatever is found under it is where its names say (`location_of_unlinked`).
-/

namespace JournalScript

/-- What is known of the links of a table. -/
def LinkTable.Known (Done : Path → Prop) (links : LinkTable) : Prop :=
  ∀ key real, (key, some real) ∈ links → Done real

def Trail.path : Trail → Path
  | .resolved p _ => p
  | .stuck p _ => p

def Trail.Meets (Done Stuck : Path → Prop) : Trail → Prop
  | .resolved p links => Done p ∧ LinkTable.Known Done links
  | .stuck p links => Stuck p ∧ LinkTable.Known Done links

namespace Tree

/-- What every step of a trace preserves: of the paths resolved so far, given what is known of the
names to follow, and of the paths on which the trace gets stuck. -/
structure TraceInvariant (t : Tree) (cwd : Location) (Done : Path → Prop) (Name : Text → Prop)
    (Stuck : Path → Prop) : Prop where
  root : Done ⟨.root, []⟩
  up : ∀ p, Done p → Done p.up
  next : ∀ p name, Done p → Name name → Path.IsProper name → '\x00' ∉ name →
    t.linkTarget? cwd ⟨p.anchor, p.parts ++ [name]⟩ = none → Done ⟨p.anchor, p.parts ++ [name]⟩
  target : ∀ target, ∀ name ∈ Path.names target, Name name
  stop : ∀ p rest, Done p → (∀ name ∈ rest, Name name) → Stuck (p.extend rest)
  loop : ∀ p name rest, Done p → Name name → (∀ name ∈ rest, Name name) →
    Stuck (Path.extend ⟨p.anchor, p.parts ++ [name]⟩ rest)
  extend : ∀ p rest, Stuck p → (∀ name ∈ rest, Name name) → Stuck (p.extend rest)

section Invariant

variable {t : Tree} {cwd : Location} {Done Stuck : Path → Prop} {Name : Text → Prop}

/-- One level of the trace, if the levels below meet the invariant. -/
theorem traceWith_meets (inv : TraceInvariant t cwd Done Name Stuck)
    {onLink : Path → List Text → LinkTable → Except PathError Trail}
    (hlink : ∀ p names links trail, Done p → (∀ name ∈ names, Name name) →
      LinkTable.Known Done links → onLink p names links = .ok trail → trail.Meets Done Stuck)
    (names : List Text) : ∀ p links trail, Done p → (∀ name ∈ names, Name name) →
      LinkTable.Known Done links → traceWith t cwd onLink p names links = .ok trail →
        trail.Meets Done Stuck := by
  induction names with
  | nil =>
    intro p links trail hp _ hlinks h
    cases h
    exact ⟨hp, hlinks⟩
  | cons name rest ih =>
    intro p links trail hp hnames hlinks h
    have hname := hnames name List.mem_cons_self
    have hrest := fun n hn => hnames n (List.mem_cons_of_mem _ hn)
    rw [traceWith] at h
    by_cases hidle : Path.isIdle name = true
    · rw [if_pos hidle] at h
      exact ih _ _ _ hp hrest hlinks h
    rw [if_neg hidle] at h
    by_cases hup : name = ['.', '.']
    · rw [if_pos hup] at h
      exact ih _ _ _ (inv.up p hp) hrest hlinks h
    rw [if_neg hup] at h
    split at h
    · cases h
    rename_i hnull
    dsimp only at h
    split at h
    · rename_i hlinkless
      exact ih _ _ _ (inv.next p name hp hname ⟨by simpa using hidle, hup⟩ (by simpa using hnull)
        hlinkless) hrest hlinks h
    split at h
    · rename_i real hreal
      obtain ⟨before, after, htable, -⟩ := List.lookup_eq_some_iff.mp hreal
      have hmem : (⟨p.anchor, p.parts ++ [name]⟩, some real) ∈ links := by
        rw [htable]
        simp
      exact ih _ _ _ (hlinks _ real hmem) hrest hlinks h
    · cases h
      exact ⟨inv.loop p name rest hp hname hrest, hlinks⟩
    · rename_i target _ _ _
      have hstart : Done (if target.head? = some '/' then ⟨.root, []⟩ else p) := by
        split
        · exact inv.root
        · exact hp
      have hopen : LinkTable.Known Done ((⟨p.anchor, p.parts ++ [name]⟩, none) :: links) := by
        intro key real hmem
        rcases List.mem_cons.mp hmem with heq | hmem
        · cases heq
        · exact hlinks key real hmem
      split at h
      · cases h
      · rename_i hinner
        cases h
        obtain ⟨hstuck, hlinks'⟩ := hlink _ _ _ _ hstart (inv.target target) hopen hinner
        exact ⟨inv.extend _ rest hstuck hrest, hlinks'⟩
      · rename_i real links' hinner
        obtain ⟨hreal, hlinks'⟩ := hlink _ _ _ _ hstart (inv.target target) hopen hinner
        refine ih _ _ _ hreal hrest ?_ h
        intro key real' hmem
        rcases List.mem_cons.mp hmem with heq | hmem
        · cases heq
          exact hreal
        · exact hlinks' key real' hmem

/-- The result of a trace meets the invariant, however deep its links are nested. -/
theorem trace_meets (inv : TraceInvariant t cwd Done Name Stuck) (depth : Nat) :
    ∀ p names links trail, Done p → (∀ name ∈ names, Name name) → LinkTable.Known Done links →
      trace t cwd depth p names links = .ok trail → trail.Meets Done Stuck := by
  induction depth with
  | zero =>
    intro p names links trail hp hnames hlinks h
    refine traceWith_meets inv (fun p rest links trail hp hrest hlinks h => ?_) names p links trail
      hp hnames hlinks h
    cases h
    exact ⟨inv.stop p rest hp hrest, hlinks⟩
  | succ depth ih =>
    intro p names links trail hp hnames hlinks h
    exact traceWith_meets inv ih names p links trail hp hnames hlinks h

end Invariant

/-! ## Real paths -/

variable {t : Tree} {cwd : Location} {p q : Path}

def traceStart (p : Path) : Path := if p.isAbsolute then ⟨.root, []⟩ else ⟨.relative, []⟩

/-- No link on the way comes up again before its own target is resolved. -/
def Settles (t : Tree) (cwd : Location) (p : Path) : Prop :=
  ∃ q links, trace t cwd t.traceDepth (traceStart p) p.parts [] = .ok (.resolved q links)

instance (t : Tree) (cwd : Location) (p : Path) : Decidable (Settles t cwd p) :=
  match h : trace t cwd t.traceDepth (traceStart p) p.parts [] with
  | .ok (.resolved q links) => .isTrue ⟨q, links, h⟩
  | .ok (.stuck q links) => .isFalse fun ⟨_, _, h'⟩ => by
      rw [h] at h'
      cases h'
  | .error e => .isFalse fun ⟨_, _, h'⟩ => by
      rw [h] at h'
      cases h'

/-- The traced path, read as text, is given back unless it leads into a loop. -/
theorem real_eq_ok_iff {traced : Path} :
    (if (traced.normal cwd).hasNull then .error .nullByte
      else match t.locate cwd .look (traced.normal cwd) with
        | .error .tooManyLinks => .error (.linkLoop (traced.normal cwd).toText)
        | _ => .ok (traced.normal cwd)) = (.ok q : Except PathError Path) ↔
      q = traced.normal cwd ∧ q.hasNull = false ∧ t.locate cwd .look q ≠ .error .tooManyLinks := by
  constructor
  · intro h
    split at h
    · cases h
    rename_i hnull
    split at h
    · cases h
    · rename_i hloop
      cases h
      exact ⟨rfl, by simpa using hnull, hloop⟩
  · rintro ⟨rfl, hnull, hloop⟩
    rw [hnull]
    split
    · rename_i h
      cases h
    split
    · rename_i h
      exact absurd h hloop
    · rfl

/-- The real path is the traced path, read as text, unless it leads into a loop. -/
theorem resolve_eq_ok_iff : t.resolve cwd p = .ok q ↔
    ∃ trail, trace t cwd t.traceDepth (traceStart p) p.parts [] = .ok trail ∧
      q = trail.path.normal cwd ∧ q.hasNull = false ∧
      t.locate cwd .look q ≠ .error .tooManyLinks := by
  rw [resolve]
  dsimp only
  rw [← traceStart]
  cases htrace : trace t cwd t.traceDepth (traceStart p) p.parts [] with
  | error e => simp
  | ok trail =>
    simp only [Except.ok.injEq, exists_eq_left']
    cases trail with
    | resolved traced links => exact real_eq_ok_iff
    | stuck traced links => exact real_eq_ok_iff

theorem isAbsolute_of_resolve (h : t.resolve cwd p = .ok q) : q.isAbsolute = true := by
  obtain ⟨trail, -, rfl, -⟩ := resolve_eq_ok_iff.mp h
  exact Path.isAbsolute_normal cwd _

theorem isProper_of_resolve (h : t.resolve cwd p = .ok q) :
    ∀ name ∈ q.parts, Path.IsProper name := by
  obtain ⟨trail, -, rfl, -⟩ := resolve_eq_ok_iff.mp h
  exact Path.names_normal cwd _

theorem hasNull_of_resolve (h : t.resolve cwd p = .ok q) : q.hasNull = false := by
  obtain ⟨trail, -, -, hnull, -⟩ := resolve_eq_ok_iff.mp h
  exact hnull

/-! ## Names without slashes -/

def NoSlash (names : List Text) : Prop := ∀ name ∈ names, '/' ∉ name

theorem noSlash_extend {rest : List Text} (hp : NoSlash p.parts) (hrest : NoSlash rest) :
    NoSlash (p.extend rest).parts := by
  unfold Path.extend
  split
  · exact Path.no_slash_ofText _
  · exact List.forall_mem_append.mpr ⟨hp, hrest⟩

theorem noSlash_up (hp : NoSlash p.parts) : NoSlash p.up.parts := by
  unfold Path.up
  split
  · simp [NoSlash]
  · exact List.forall_mem_append.mpr ⟨hp, by simp⟩
  · exact fun name hname => hp name ((List.dropLast_sublist _).subset hname)

theorem noSlash_snoc {names : List Text} {name : Text} (h : NoSlash names) (hname : '/' ∉ name) :
    NoSlash (names ++ [name]) :=
  List.forall_mem_append.mpr ⟨h, by simpa using hname⟩

theorem noSlash_invariant (t : Tree) (cwd : Location) : TraceInvariant t cwd
    (fun p => NoSlash p.parts) (fun name => '/' ∉ name) fun p => NoSlash p.parts where
  root := by simp [NoSlash]
  up _ hp := noSlash_up hp
  next _ _ hp hname _ _ _ := noSlash_snoc hp hname
  target _ _ hname := Path.no_slash_of_mem_names hname
  stop _ _ hp hrest := noSlash_extend hp hrest
  loop _ _ _ hp hname hrest := noSlash_extend (noSlash_snoc hp hname) hrest
  extend _ _ hp hrest := noSlash_extend hp hrest

theorem noSlash_of_resolve (hcwd : NoSlash cwd) (hp : NoSlash p.parts)
    (h : t.resolve cwd p = .ok q) : NoSlash q.parts := by
  obtain ⟨trail, htrace, rfl, -⟩ := resolve_eq_ok_iff.mp h
  have hstart : NoSlash (traceStart p).parts := by
    rw [traceStart]
    split <;> simp [NoSlash]
  have hmeets := trace_meets (noSlash_invariant t cwd) _ _ _ _ _ hstart hp
    (fun _ _ hmem => absurd hmem List.not_mem_nil) htrace
  have htrail : NoSlash trail.path.parts := by
    cases trail with
    | resolved p links => exact hmeets.1
    | stuck p links => exact hmeets.1
  intro name hname
  exact (Path.mem_normal hname).elim (htrail name) (hcwd name)

/-! ## Paths without links -/

/-- A path from the root, no part of which is a link. -/
structure Unlinked (t : Tree) (cwd : Location) (p : Path) : Prop where
  anchor : p.anchor = .root
  proper : ∀ name ∈ p.parts, Path.IsProper name
  no_null : ∀ name ∈ p.parts, '\x00' ∉ name
  linkless : ∀ front, front ≠ [] → front <+: p.parts → t.linkTarget? cwd ⟨.root, front⟩ = none

theorem unlinked_up (h : Unlinked t cwd p) : Unlinked t cwd p.up := by
  obtain ⟨anchor, parts⟩ := p
  obtain ⟨rfl, hproper, hnull, hlinkless⟩ := h
  have hup : Path.up ⟨.root, parts⟩ = ⟨.root, parts.dropLast⟩ := by
    rw [Path.up]
    split <;> simp_all [Path.parent]
  have hsub := List.dropLast_prefix parts
  rw [hup]
  exact ⟨rfl, fun name hname => hproper name (hsub.subset hname),
    fun name hname => hnull name (hsub.subset hname),
    fun front hne hfront => hlinkless front hne (hfront.trans hsub)⟩

theorem unlinked_snoc {name : Text} (h : Unlinked t cwd p) (hname : Path.IsProper name)
    (hnull : '\x00' ∉ name) (hlink : t.linkTarget? cwd ⟨p.anchor, p.parts ++ [name]⟩ = none) :
    Unlinked t cwd ⟨p.anchor, p.parts ++ [name]⟩ where
  anchor := h.anchor
  proper := List.forall_mem_append.mpr ⟨h.proper, by simpa using hname⟩
  no_null := List.forall_mem_append.mpr ⟨h.no_null, by simpa using hnull⟩
  linkless front hne hfront := by
    rcases List.prefix_concat_iff.mp hfront with rfl | hfront
    · rwa [h.anchor] at hlink
    · exact h.linkless front hne hfront

theorem unlinked_invariant (t : Tree) (cwd : Location) :
    TraceInvariant t cwd (Unlinked t cwd) (fun _ => True) fun _ => True where
  root := ⟨rfl, by simp, by simp, fun front hne hfront => absurd (List.prefix_nil.mp hfront) hne⟩
  up _ hp := unlinked_up hp
  next _ _ hp _ hname hnull hlink := unlinked_snoc hp hname hnull hlink
  target _ _ _ := trivial
  stop _ _ _ _ := trivial
  loop _ _ _ _ _ _ := trivial
  extend _ _ _ _ := trivial

/-- A path that is resolved to its end has no link left in it. -/
theorem unlinked_of_settles (habs : p.isAbsolute = true) (hsettles : Settles t cwd p)
    (h : t.resolve cwd p = .ok q) : Unlinked t cwd q := by
  obtain ⟨traced, links, htrace⟩ := hsettles
  obtain ⟨trail, htrail, rfl, -⟩ := resolve_eq_ok_iff.mp h
  rw [htrace] at htrail
  cases htrail
  have hstart : Unlinked t cwd (traceStart p) := by
    rw [traceStart, if_pos habs]
    exact (unlinked_invariant t cwd).root
  have hmeets := trace_meets (unlinked_invariant t cwd) _ _ _ _ _ hstart (fun _ _ => trivial)
    (fun _ _ hmem => absurd hmem List.not_mem_nil) htrace
  have hunlinked : Unlinked t cwd traced := hmeets.1
  have hnormal : traced.normal cwd = traced :=
    Path.normal_eq_self (by simp [Path.isAbsolute, hunlinked.anchor]) hunlinked.proper
  rwa [Trail.path, hnormal]

/-! ## Paths without links are their own real paths -/

/-- What following a path without links can give. -/
structure EndsAt (loc : Location) (r : Except AccessKind Place) : Prop where
  not_looping : r ≠ .error .tooManyLinks
  location : ∀ place, r = .ok place → place.location = loc

theorem EndsAt.error {loc : Location} {kind : AccessKind} (h : kind ≠ .tooManyLinks) :
    EndsAt loc (.error kind) :=
  ⟨fun heq => h (Except.error.inj heq), fun _ hplace => by cases hplace⟩

theorem EndsAt.ok {loc : Location} {place : Place} (h : place.location = loc) :
    EndsAt loc (.ok place) :=
  ⟨by simp, fun _ hplace => by cases hplace; exact h⟩

section Unlinked

variable (h : Unlinked t cwd p)
include h

theorem traceWith_unlinked
    (onLink : Path → List Text → LinkTable → Except PathError Trail) (links : LinkTable)
    (rest : List Text) : ∀ front, front ++ rest = p.parts →
      traceWith t cwd onLink ⟨.root, front⟩ rest links = .ok (.resolved p links) := by
  induction rest with
  | nil =>
    intro front hparts
    rw [List.append_nil] at hparts
    obtain ⟨anchor, parts⟩ := p
    have hanchor := h.anchor
    simp only at hanchor hparts
    rw [traceWith, hparts, hanchor]
  | cons name rest ih =>
    intro front hparts
    have hname : name ∈ p.parts := by simp [← hparts]
    have hproper := h.proper name hname
    have hlinkless : t.linkTarget? cwd ⟨.root, front ++ [name]⟩ = none :=
      h.linkless _ (by simp) (by simp [← hparts])
    rw [traceWith]
    simp only [hproper.not_idle, Bool.false_eq_true, if_false, hproper.not_up,
      List.contains_iff_mem, h.no_null name hname, hlinkless]
    exact ih _ (by simpa using hparts)

theorem get?_ne_link {front : List Text} {name : Text} (hfront : front ++ [name] <+: p.parts)
    (hshort : byteCount p.toText < pathLimit) (hname : ¬ nameLimit < byteCount name)
    (hdir : t.get? front = some .directory)
    (hreach : Leads t .look linkLimit [] front (.found front .directory)) (target : Text) :
    t.get? (front ++ [name]) ≠ some (.link target) := by
  intro hlink
  have hproper := h.proper name (hfront.subset (by simp))
  obtain ⟨more, hmore⟩ :=
    hreach.walk_append ⟨name, List.mem_singleton_self _, hproper.ne_nil⟩ .lookAtLast
  have hlast : Leads t .lookAtLast more front [name] (.found (front ++ [name]) (.link target)) :=
    .lastLink hdir ⟨hproper.not_idle, hproper.not_up, rfl, hname⟩ rfl hlink
  rw [walk_of_leads hlast] at hmore
  have hle : byteCount (Path.toText ⟨.root, front ++ [name]⟩) ≤ byteCount p.toText := by
    obtain ⟨rest, hrest⟩ := hfront
    have hp : p = ⟨.root, front ++ [name] ++ rest⟩ := by
      rw [hrest, ← h.anchor]
    rw [hp]
    have hroot : ¬ (Anchor.root = .relative ∧ front ++ [name] = []) := by simp
    exact byteCount_le_of_prefix (Path.toText_prefix hroot rest)
  have hlocate := locate_eq_ok_iff.mpr
    ⟨Nat.lt_of_le_of_lt hle hshort, (walk_eq_ok_iff.mp hmore : Leads t .lookAtLast linkLimit
      (startOf cwd ⟨.root, front ++ [name]⟩) (front ++ [name]) _)⟩
  have hnone := h.linkless (front ++ [name]) (by simp) hfront
  rw [linkTarget?, hlocate] at hnone
  cases hnone

/-- The walk along a path without links goes where the names say, and follows no link. By induction
on the names left; the walk has come to every directory in front of them without following one. -/
theorem walkWith_unlinked (hshort : byteCount p.toText < pathLimit) (purpose : Purpose)
    {onLink : Location → List Text → Except AccessKind Place} (rest : List Text) :
    ∀ front, front ++ rest = p.parts →
      (t.get? front = some .directory →
        Leads t .look linkLimit [] front (.found front .directory)) →
      EndsAt p.parts (walkWith t purpose onLink front rest) := by
  induction rest with
  | nil =>
    intro front hparts _
    rw [List.append_nil] at hparts
    rw [walkWith]
    split
    · exact .ok hparts
    · exact .error (by decide)
  | cons name rest ih =>
    intro front hparts hreach
    have hfront : front ++ [name] <+: p.parts := by simp [← hparts]
    have hproper := h.proper name (hfront.subset (by simp))
    rw [walkWith]
    split
    · exact .error (by decide)
    · exact .error (by decide)
    · exact .error (by decide)
    rename_i hdir
    simp only [hproper.not_idle, Bool.false_eq_true, if_false, hproper.not_up]
    split
    · exact .error (by decide)
    split
    · exact .error (by decide)
    rename_i hname
    split
    · split
      · rename_i hrest
        subst hrest
        exact .ok hparts
      · exact .error (by decide)
    · rename_i target hlink
      exact absurd hlink (get?_ne_link h hfront hshort hname hdir (hreach hdir) target)
    · rename_i node hnode hentry
      refine ih _ (by simpa using hparts) fun hnext => ?_
      obtain ⟨more, hmore⟩ :=
        (hreach hdir).walk_append ⟨name, List.mem_singleton_self _, hproper.ne_nil⟩ .look
      have hdown : Leads t .look more front [name] (.found (front ++ [name]) .directory) :=
        .down hdir ⟨hproper.not_idle, hproper.not_up, rfl, hname⟩ hnext (by simp) (.here hnext)
      rw [walk_of_leads hdown] at hmore
      exact walk_eq_ok_iff.mp hmore

theorem locate_unlinked (purpose : Purpose) : EndsAt p.parts (t.locate cwd purpose p) := by
  have habs : p.isAbsolute = true := by simp [Path.isAbsolute, h.anchor]
  rw [locate, habs]
  split
  · exact .error (by decide)
  · rename_i hshort
    obtain ⟨onLink, hw⟩ := walk_eq_walkWith t purpose linkLimit
    rw [if_pos rfl, hw]
    exact walkWith_unlinked h (Nat.lt_of_not_le hshort) purpose p.parts [] rfl
      fun hdir => .here hdir

theorem location_of_unlinked {purpose : Purpose} {place : Place}
    (hplace : t.locate cwd purpose p = .ok place) : place.location = p.parts :=
  (locate_unlinked h purpose).location place hplace

theorem resolve_of_unlinked : t.resolve cwd p = .ok p := by
  have habs : p.isAbsolute = true := by simp [Path.isAbsolute, h.anchor]
  have hstart : traceStart p = ⟨.root, []⟩ := by rw [traceStart, if_pos habs]
  have htrace : trace t cwd t.traceDepth (traceStart p) p.parts [] = .ok (.resolved p []) := by
    rw [hstart]
    cases t.traceDepth with
    | zero => exact traceWith_unlinked h _ [] p.parts [] rfl
    | succ depth => exact traceWith_unlinked h _ [] p.parts [] rfl
  refine resolve_eq_ok_iff.mpr ⟨_, htrace, (Path.normal_eq_self habs h.proper).symm, ?_,
    (locate_unlinked h .look).not_looping⟩
  rw [Path.hasNull, List.any_eq_false]
  exact fun name hname => by simpa using h.no_null name hname

end Unlinked

end Tree
end JournalScript
