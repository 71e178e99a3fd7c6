import JournalScript.Tree.Access

/-!
# JournalScript.Proofs.Tree.Walk

Following a path, as a relation.

`Leads t purpose links loc names place`: the names, followed from `loc` with at most `links` links,
lead to `place`. `walk_eq_ok_iff` says that the walk finds a place exactly when the names lead there,
so what is true of every walk is proved by induction over `Leads`, one case for each kind of name.

* `Leads.reach`: names that led to a file or to nothing lead to whatever is put there.
* `Leads.walk_append`: names that lead to a directory can be followed further.
* `Leads.exists_directory`: whatever names lead to, the names in front of the last lead to a
  directory.
-/

namespace JournalScript
namespace Tree

/-! ## Nodes -/

theorem get?_nil (t : Tree) : t.get? [] = some .directory := rfl

theorem lookup_filter_ne {loc loc' : Location} (h : loc' ≠ loc) (entries : List (Location × Node)) :
    (entries.filter fun e => e.1 != loc).lookup loc' = entries.lookup loc' := by
  induction entries with
  | nil => rfl
  | cons e entries ih =>
    obtain ⟨l, node⟩ := e
    by_cases hl : l = loc
    · subst hl
      have hne : (loc' == l) = false := by simpa using h
      simp [ih, List.lookup_cons, hne]
    · simp [hl, ih, List.lookup_cons]

@[simp] theorem get?_set_self {t : Tree} {loc : Location} {node : Node} (h : loc ≠ []) :
    (t.set loc node).get? loc = some node := by
  simp [get?, set, h]

theorem get?_set_of_ne {t : Tree} {loc loc' : Location} {node : Node} (h : loc' ≠ loc) :
    (t.set loc node).get? loc' = t.get? loc' := by
  have hne : (loc' == loc) = false := by simpa using h
  simp [get?, set, List.lookup_cons, hne, lookup_filter_ne h]

/-! ## The relation -/

/-- Whether a name stands for an entry of a directory, given the names behind it. -/
structure IsEntry (purpose : Purpose) (name : Text) (rest : List Text) : Prop where
  not_idle : Path.isIdle name = false
  not_up : name ≠ ['.', '.']
  not_slashed : (purpose = .write && onlySlashes rest) = false
  short : ¬ nameLimit < byteCount name

inductive Leads (t : Tree) (purpose : Purpose) : Nat → Location → List Text → Place → Prop where
  | here {links : Nat} {loc : Location} {node : Node} (h : t.get? loc = some node) :
      Leads t purpose links loc [] (.found loc node)
  | idle {links : Nat} {loc : Location} {name : Text} {rest : List Text} {place : Place}
      (hd : t.get? loc = some .directory) (hn : Path.isIdle name = true)
      (h : Leads t purpose links loc rest place) : Leads t purpose links loc (name :: rest) place
  | up {links : Nat} {loc : Location} {rest : List Text} {place : Place}
      (hd : t.get? loc = some .directory) (h : Leads t purpose links loc.dropLast rest place) :
      Leads t purpose links loc (['.', '.'] :: rest) place
  | vacant {links : Nat} {loc : Location} {name : Text} (hd : t.get? loc = some .directory)
      (hn : IsEntry purpose name []) (hc : t.get? (loc ++ [name]) = none) :
      Leads t purpose links loc [name] (.vacant (loc ++ [name]))
  | down {links : Nat} {loc : Location} {name : Text} {rest : List Text} {place : Place}
      {node : Node} (hd : t.get? loc = some .directory) (hn : IsEntry purpose name rest)
      (hc : t.get? (loc ++ [name]) = some node) (hnode : ∀ target, node ≠ .link target)
      (h : Leads t purpose links (loc ++ [name]) rest place) :
      Leads t purpose links loc (name :: rest) place
  | lastLink {links : Nat} {loc : Location} {name target : Text}
      (hd : t.get? loc = some .directory) (hn : IsEntry purpose name [])
      (hp : purpose = .lookAtLast) (hc : t.get? (loc ++ [name]) = some (.link target)) :
      Leads t purpose links loc [name] (.found (loc ++ [name]) (.link target))
  | follow {links : Nat} {loc : Location} {name target : Text} {rest : List Text} {place : Place}
      (hd : t.get? loc = some .directory) (hn : IsEntry purpose name rest)
      (hp : (rest = [] && purpose = .lookAtLast) = false)
      (hc : t.get? (loc ++ [name]) = some (.link target))
      (h : Leads t purpose links (if target.head? = some '/' then [] else loc)
        (Path.names target ++ rest) place) :
      Leads t purpose (links + 1) loc (name :: rest) place

/-- One level of the walk, for any number of links and what is done with a link. -/
theorem leads_of_walkWith {t : Tree} {purpose : Purpose} {links : Nat}
    {onLink : Location → List Text → Except AccessKind Place}
    (hlink : ∀ loc names place, onLink loc names = .ok place →
      ∃ fewer, links = fewer + 1 ∧ Leads t purpose fewer loc names place)
    (names : List Text) : ∀ (loc : Location) (place : Place),
      walkWith t purpose onLink loc names = .ok place → Leads t purpose links loc names place := by
  induction names with
  | nil =>
    intro loc place h
    rw [walkWith] at h
    split at h
    · rename_i node hnode
      cases h
      exact .here hnode
    · cases h
  | cons name rest ih =>
    intro loc place h
    rw [walkWith] at h
    split at h
    · cases h
    · cases h
    · cases h
    rename_i hd
    by_cases hidle : Path.isIdle name = true
    · rw [if_pos hidle] at h
      exact .idle hd hidle (ih _ _ h)
    rw [if_neg hidle] at h
    by_cases hup : name = ['.', '.']
    · rw [if_pos hup] at h
      subst hup
      exact .up hd (ih _ _ h)
    rw [if_neg hup] at h
    split at h
    · cases h
    split at h
    · cases h
    rename_i hslash hshort
    have hn : IsEntry purpose name rest :=
      ⟨by simpa using hidle, hup, by simpa using hslash, hshort⟩
    split at h
    · rename_i hc
      split at h
      · rename_i hrest
        subst hrest
        cases h
        exact .vacant hd hn hc
      · cases h
    · rename_i target hc
      split at h
      · rename_i hlast
        simp only [Bool.and_eq_true, decide_eq_true_eq] at hlast
        obtain ⟨rfl, hp⟩ := hlast
        cases h
        exact .lastLink hd hn hp hc
      · rename_i hlast
        obtain ⟨fewer, rfl, hleads⟩ := hlink _ _ _ h
        exact .follow hd hn (by simpa using hlast) hc hleads
    · rename_i node hnode hc
      exact .down hd hn hc hnode (ih _ _ h)

theorem leads_of_walk {t : Tree} {purpose : Purpose} (links : Nat) :
    ∀ {loc : Location} {names : List Text} {place : Place},
      walk t purpose links loc names = .ok place → Leads t purpose links loc names place := by
  induction links with
  | zero =>
    intro loc names place h
    exact leads_of_walkWith (fun _ _ _ h => by cases h) names loc place h
  | succ links ih =>
    intro loc names place h
    exact leads_of_walkWith (fun _ _ _ h => ⟨links, rfl, ih h⟩) names loc place h

/-- Both forms of the walk, with and without links to spare, follow names in the same way. -/
theorem walk_eq_walkWith (t : Tree) (purpose : Purpose) (links : Nat) :
    ∃ onLink, walk t purpose links = walkWith t purpose onLink := by
  cases links with
  | zero => exact ⟨_, rfl⟩
  | succ links => exact ⟨_, rfl⟩

theorem walk_of_leads {t : Tree} {purpose : Purpose} {links : Nat} {loc : Location}
    {names : List Text} {place : Place} (h : Leads t purpose links loc names place) :
    walk t purpose links loc names = .ok place := by
  induction h with
  | @here links loc node h =>
    obtain ⟨onLink, hw⟩ := walk_eq_walkWith t purpose links
    rw [hw, walkWith, h]
  | @idle links loc name rest place hd hn h ih =>
    obtain ⟨onLink, hw⟩ := walk_eq_walkWith t purpose links
    rw [hw] at ih ⊢
    simp only [walkWith, hd, hn, if_true, ih]
  | @up links loc rest place hd h ih =>
    obtain ⟨onLink, hw⟩ := walk_eq_walkWith t purpose links
    rw [hw] at ih ⊢
    have hidle : Path.isIdle ['.', '.'] = false := by decide
    simp [walkWith, hd, hidle, ih]
  | @vacant links loc name hd hn hc =>
    obtain ⟨onLink, hw⟩ := walk_eq_walkWith t purpose links
    rw [hw]
    simp [walkWith, hd, hn.not_idle, hn.not_up, hn.not_slashed, hn.short, hc]
  | @down links loc name rest place node hd hn hc hnode h ih =>
    obtain ⟨onLink, hw⟩ := walk_eq_walkWith t purpose links
    rw [hw] at ih ⊢
    cases node with
    | link target => exact absurd rfl (hnode target)
    | file content => simp [walkWith, hd, hn.not_idle, hn.not_up, hn.not_slashed, hn.short, hc, ih]
    | directory => simp [walkWith, hd, hn.not_idle, hn.not_up, hn.not_slashed, hn.short, hc, ih]
  | @lastLink links loc name target hd hn hp hc =>
    obtain ⟨onLink, hw⟩ := walk_eq_walkWith t purpose links
    rw [hw]
    subst hp
    simp [walkWith, hd, hn.not_idle, hn.not_up, hn.short, hc]
  | @follow links loc name target rest place hd hn hp hc h ih =>
    have hw : walk t purpose (links + 1) = walkWith t purpose (walk t purpose links) := rfl
    rw [hw]
    simp [walkWith, hd, hn.not_idle, hn.not_up, hn.not_slashed, hn.short, hc, hp, ih]

theorem walk_eq_ok_iff {t : Tree} {purpose : Purpose} {links : Nat} {loc : Location}
    {names : List Text} {place : Place} :
    walk t purpose links loc names = .ok place ↔ Leads t purpose links loc names place :=
  ⟨leads_of_walk links, walk_of_leads⟩

/-! ## What is found -/

end Tree

namespace Place

def location : Place → Location
  | .found loc _ => loc
  | .vacant loc => loc

def node? : Place → Option Node
  | .found _ node => some node
  | .vacant _ => none

def Writable (place : Place) : Prop :=
  ∀ node, place.node? = some node → ∃ content, node = .file content

end Place

namespace Tree

variable {t t' : Tree} {purpose : Purpose} {links : Nat} {loc : Location} {names rest : List Text}
  {place : Place}

theorem Leads.get?_location (h : Leads t purpose links loc names place) :
    t.get? place.location = place.node? := by
  induction h with
  | here h => exact h
  | vacant hd hn hc => exact hc
  | lastLink hd hn hp hc => exact hc
  | idle hd hn h ih => exact ih
  | up hd h ih => exact ih
  | down hd hn hc hnode h ih => exact ih
  | follow hd hn hp hc h ih => exact ih

theorem IsEntry.look {name : Text} (h : IsEntry purpose name rest) (rest' : List Text) :
    IsEntry .look name rest' := ⟨h.not_idle, h.not_up, rfl, h.short⟩

/-- Names that led to a file, or to nothing, lead to whatever is put in its place. -/
theorem Leads.reach {node : Node} (h : Leads t purpose links loc names place)
    (hplace : place.Writable) (hput : t'.get? place.location = some node)
    (hnode : ∀ target, node ≠ .link target)
    (hframe : ∀ l, l ≠ place.location → t'.get? l = t.get? l) :
    Leads t' .look links loc names (.found place.location node) := by
  have hkeep : ∀ {l : Location} {found : Node}, t.get? l = some found →
      (∀ content, found ≠ .file content) → t'.get? l = some found := by
    intro l found hl hfile
    rw [hframe l, hl]
    rintro rfl
    obtain ⟨content, rfl⟩ := hplace found (by rw [← h.get?_location, hl])
    exact hfile content rfl
  induction h with
  | here h => exact .here hput
  | idle hd hn h ih => exact .idle (hkeep hd (by simp)) hn (ih hplace hput hframe)
  | up hd h ih => exact .up (hkeep hd (by simp)) (ih hplace hput hframe)
  | vacant hd hn hc => exact .down (hkeep hd (by simp)) (hn.look []) hput hnode (.here hput)
  | lastLink hd hn hp hc =>
    obtain ⟨content, hcontent⟩ := hplace _ rfl
    cases hcontent
  | @down links loc name rest place found hd hn hc hfound h ih =>
    have hih := ih hplace hput hframe
    by_cases hl : loc ++ [name] = place.location
    · exact .down (hkeep hd (by simp)) (hn.look rest) (hl ▸ hput) hnode hih
    · exact .down (hkeep hd (by simp)) (hn.look rest) ((hframe _ hl).trans hc) hfound hih
  | @follow links loc name target rest place hd hn hp hc h ih =>
    exact .follow (hkeep hd (by simp)) (hn.look rest) (by simp) (hkeep hc (by simp))
      (ih hplace hput hframe)

theorem Leads.location_ne_nil (h : Leads t purpose links loc names place)
    (hplace : place.Writable) : place.location ≠ [] := by
  intro hnil
  have hdir := h.get?_location
  rw [hnil, get?_nil] at hdir
  obtain ⟨content, hcontent⟩ := hplace _ hdir.symm
  cases hcontent

/-! ## Going on, and stopping before -/

theorem onlySlashes_append {rest : List Text} (h : ∃ name ∈ rest, name ≠ []) (names : List Text) :
    onlySlashes (names ++ rest) = false := by
  obtain ⟨name, hmem, hne⟩ := h
  simp only [onlySlashes, Bool.and_eq_false_iff, List.all_eq_false]
  exact .inr ⟨name, List.mem_append_right _ hmem, by simpa using hne⟩

theorem Leads.walk_append {l : Location}
    (h : Leads t .look links loc names (.found l .directory))
    (hname : ∃ name ∈ rest, name ≠ []) (purpose : Purpose) :
    ∃ more, walk t purpose links loc (names ++ rest) = walk t purpose more l rest := by
  have hne : rest ≠ [] := by
    rintro rfl
    simp at hname
  have hslash := onlySlashes_append hname
  generalize hdir : Place.found l .directory = dir at h
  induction h with
  | @here links loc node h => cases hdir; exact ⟨links, rfl⟩
  | @idle links loc name names place hd hn h ih =>
    obtain ⟨more, hmore⟩ := ih hdir
    obtain ⟨onLink, hw⟩ := walk_eq_walkWith t purpose links
    refine ⟨more, ?_⟩
    rw [← hmore, hw]
    simp [walkWith, hd, hn]
  | @up links loc names place hd h ih =>
    obtain ⟨more, hmore⟩ := ih hdir
    obtain ⟨onLink, hw⟩ := walk_eq_walkWith t purpose links
    refine ⟨more, ?_⟩
    have hidle : Path.isIdle ['.', '.'] = false := by decide
    rw [← hmore, hw]
    simp [walkWith, hd, hidle]
  | vacant hd hn hc => cases hdir
  | lastLink hd hn hp hc => cases hdir
  | @down links loc name names place node hd hn hc hnode h ih =>
    obtain ⟨more, hmore⟩ := ih hdir
    obtain ⟨onLink, hw⟩ := walk_eq_walkWith t purpose links
    refine ⟨more, ?_⟩
    rw [← hmore, hw]
    cases node with
    | link target => exact absurd rfl (hnode target)
    | file content => simp [walkWith, hd, hn.not_idle, hn.not_up, hn.short, hslash, hc]
    | directory => simp [walkWith, hd, hn.not_idle, hn.not_up, hn.short, hslash, hc]
  | @follow links loc name target names place hd hn hp hc h ih =>
    obtain ⟨more, hmore⟩ := ih hdir
    refine ⟨more, ?_⟩
    rw [← hmore, List.append_assoc]
    have hw : walk t purpose (links + 1) = walkWith t purpose (walk t purpose links) := rfl
    rw [hw]
    simp [walkWith, hd, hn.not_idle, hn.not_up, hn.short, hslash, hc, hne]

theorem Leads.exists_directory (h : Leads t purpose links loc (names ++ rest) place)
    (hne : rest ≠ []) : ∃ l, Leads t .look links loc names (.found l .directory) := by
  generalize hall : names ++ rest = all at h
  induction h generalizing names with
  | here h => simp [hne] at hall
  | idle hd hn h ih =>
    rcases List.append_eq_cons_iff.mp hall with ⟨rfl, -⟩ | ⟨names', rfl, rfl⟩
    · exact ⟨_, .here hd⟩
    · obtain ⟨l, hl⟩ := ih rfl
      exact ⟨l, .idle hd hn hl⟩
  | up hd h ih =>
    rcases List.append_eq_cons_iff.mp hall with ⟨rfl, -⟩ | ⟨names', rfl, rfl⟩
    · exact ⟨_, .here hd⟩
    · obtain ⟨l, hl⟩ := ih rfl
      exact ⟨l, .up hd hl⟩
  | vacant hd hn hc =>
    rcases List.append_eq_cons_iff.mp hall with ⟨rfl, -⟩ | ⟨names', rfl, hnil⟩
    · exact ⟨_, .here hd⟩
    · simp [hne] at hnil
  | lastLink hd hn hp hc =>
    rcases List.append_eq_cons_iff.mp hall with ⟨rfl, -⟩ | ⟨names', rfl, hnil⟩
    · exact ⟨_, .here hd⟩
    · simp [hne] at hnil
  | down hd hn hc hnode h ih =>
    rcases List.append_eq_cons_iff.mp hall with ⟨rfl, -⟩ | ⟨names', rfl, rfl⟩
    · exact ⟨_, .here hd⟩
    · obtain ⟨l, hl⟩ := ih rfl
      exact ⟨l, .down hd (hn.look names') hc hnode hl⟩
  | follow hd hn hp hc h ih =>
    rcases List.append_eq_cons_iff.mp hall with ⟨rfl, -⟩ | ⟨names', rfl, rfl⟩
    · exact ⟨_, .here hd⟩
    · obtain ⟨l, hl⟩ := ih (List.append_assoc _ _ _)
      exact ⟨l, .follow hd (hn.look names') (by simp) hc hl⟩

/-! ## One purpose and another -/

theorem IsEntry.ne_nil {name : Text} (h : IsEntry purpose name rest) : name ≠ [] := by
  rintro rfl
  cases h.not_idle

theorem Leads.node?_of_slash (h : Leads t purpose links loc (names ++ [[]]) place) :
    place.node? = some .directory := by
  generalize hall : names ++ [[]] = all at h
  induction h generalizing names with
  | here h => simp at hall
  | @idle links loc name rest place hd hn h ih =>
    rcases List.append_eq_cons_iff.mp hall with ⟨-, hnil⟩ | ⟨names', rfl, rfl⟩
    · obtain ⟨rfl, rfl⟩ := List.cons.inj hnil
      cases h
      rw [← hd]
      exact Eq.symm ‹_›
    · exact ih rfl
  | up hd h ih =>
    rcases List.append_eq_cons_iff.mp hall with ⟨-, hnil⟩ | ⟨names', rfl, rfl⟩
    · simp at hnil
    · exact ih rfl
  | vacant hd hn hc =>
    rcases List.append_eq_cons_iff.mp hall with ⟨-, hnil⟩ | ⟨names', rfl, hnil⟩
    · exact absurd (List.cons.inj hnil).1.symm hn.ne_nil
    · simp at hnil
  | lastLink hd hn hp hc =>
    rcases List.append_eq_cons_iff.mp hall with ⟨-, hnil⟩ | ⟨names', rfl, hnil⟩
    · exact absurd (List.cons.inj hnil).1.symm hn.ne_nil
    · simp at hnil
  | down hd hn hc hnode h ih =>
    rcases List.append_eq_cons_iff.mp hall with ⟨-, hnil⟩ | ⟨names', rfl, rfl⟩
    · exact absurd (List.cons.inj hnil).1.symm hn.ne_nil
    · exact ih rfl
  | follow hd hn hp hc h ih =>
    rcases List.append_eq_cons_iff.mp hall with ⟨-, hnil⟩ | ⟨names', rfl, rfl⟩
    · exact absurd (List.cons.inj hnil).1.symm hn.ne_nil
    · exact ih (List.append_assoc _ _ _)

theorem exists_of_onlySlashes (h : onlySlashes rest = true) : ∃ init, rest = init ++ [[]] := by
  simp only [onlySlashes, Bool.and_eq_true, List.all_eq_true] at h
  have hne : rest ≠ [] := by simpa using h.1
  have hlast : rest.getLast hne = [] := by simpa using h.2 _ (List.getLast_mem hne)
  exact ⟨rest.dropLast, by rw [← hlast, List.dropLast_concat_getLast]⟩

theorem Leads.write {l : Location} {content : Bytes}
    (h : Leads t .look links loc names (.found l (.file content))) :
    Leads t .write links loc names (.found l (.file content)) := by
  generalize hfile : Place.found l (.file content) = file at h
  have hentry : ∀ {more : Nat} {l' : Location} {name : Text} {behind : List Text}
      (front : List Text), IsEntry .look name behind →
        Leads t .look more l' (front ++ behind) file → IsEntry .write name behind := by
    intro more l' name behind front hn hleads
    refine ⟨hn.not_idle, hn.not_up, Bool.eq_false_iff.mpr fun hslash => ?_, hn.short⟩
    obtain ⟨init, rfl⟩ := exists_of_onlySlashes (by simpa using hslash)
    rw [← List.append_assoc] at hleads
    have := hleads.node?_of_slash
    rw [← hfile] at this
    cases this
  induction h with
  | here h => exact .here h
  | idle hd hn h ih => exact .idle hd hn (ih hfile hentry)
  | up hd h ih => exact .up hd (ih hfile hentry)
  | vacant hd hn hc => cases hfile
  | lastLink hd hn hp hc => cases hfile
  | down hd hn hc hnode h ih => exact .down hd (hentry [] hn h) hc hnode (ih hfile hentry)
  | follow hd hn hp hc h ih => exact .follow hd (hentry _ hn h) (by simp) hc (ih hfile hentry)

/-- Something found by looking is also found when a link at the end is not followed. -/
theorem Leads.exists_lookAtLast {l : Location} {node : Node}
    (h : Leads t .look links loc names (.found l node)) :
    ∃ l' node', Leads t .lookAtLast links loc names (.found l' node') := by
  have hentry : ∀ {name : Text} {behind : List Text}, IsEntry .look name behind →
      IsEntry .lookAtLast name behind := fun hn => ⟨hn.not_idle, hn.not_up, rfl, hn.short⟩
  generalize hfound : Place.found l node = found at h
  induction h with
  | here h => exact ⟨_, _, .here h⟩
  | idle hd hn h ih =>
    obtain ⟨l', node', h'⟩ := ih hfound
    exact ⟨l', node', .idle hd hn h'⟩
  | up hd h ih =>
    obtain ⟨l', node', h'⟩ := ih hfound
    exact ⟨l', node', .up hd h'⟩
  | vacant hd hn hc => cases hfound
  | lastLink hd hn hp hc => cases hp
  | down hd hn hc hnode h ih =>
    obtain ⟨l', node', h'⟩ := ih hfound
    exact ⟨l', node', .down hd (hentry hn) hc hnode h'⟩
  | @follow links loc name target rest place hd hn hp hc h ih =>
    by_cases hrest : rest = []
    · subst hrest
      exact ⟨_, _, .lastLink hd (hentry hn) rfl hc⟩
    · obtain ⟨l', node', h'⟩ := ih hfound
      exact ⟨l', node', .follow hd (hentry hn) (by simp [hrest]) hc h'⟩

/-! ## Paths -/

def startOf (cwd : Location) (p : Path) : Location := if p.isAbsolute then [] else cwd

theorem byteCount_append (a b : Text) : byteCount (a ++ b) = byteCount a + byteCount b := by
  have hstart : ∀ (b : Text) (n : Nat),
      b.foldl (fun n c => n + c.utf8Size) n = n + b.foldl (fun n c => n + c.utf8Size) 0 := by
    intro b
    induction b with
    | nil => intro n; rfl
    | cons c b ih =>
      intro n
      rw [List.foldl_cons, List.foldl_cons, ih (n + _), ih (0 + _)]
      omega
  rw [byteCount, List.foldl_append, hstart b]
  rfl

theorem byteCount_le_of_prefix {a b : Text} (h : a <+: b) : byteCount a ≤ byteCount b := by
  obtain ⟨rest, rfl⟩ := h
  rw [byteCount_append]
  exact Nat.le_add_right _ _

theorem locate_eq_ok_iff {cwd : Location} {p : Path} :
    t.locate cwd purpose p = .ok place ↔
      byteCount p.toText < pathLimit ∧ Leads t purpose linkLimit (startOf cwd p) p.parts place := by
  rw [locate]
  split
  · rename_i h
    exact iff_of_false (by simp) fun h' => absurd h'.1 (Nat.not_lt.mpr h)
  · rename_i h
    rw [walk_eq_ok_iff, startOf]
    exact (and_iff_right (Nat.lt_of_not_le h)).symm

end Tree
end JournalScript
