import JournalScript.Proofs.Tree.Trace
import Mathlib.Control.Monad.Basic

/-!
# JournalScript.Proofs.Tree.Confine

What confining a path to the base directory guarantees.

`confine_contained`: the path that comes out lies below the base directory, name by name, and has no
`..` in it. If no link on the way came up again before its target was resolved, no part of the path
is a link: it is its own real path, it is confined to itself, and whatever is found under it is where
its names say.

Otherwise the path is only what its text says, and it may lead out of the base directory
(`confine_link_loop`).
-/

namespace JournalScript

namespace Surroundings

open JournalScript.Tree

variable {s : Surroundings} {t : Tree} {requested : Text} {p : Path}

theorem confine_eq_ok_iff : s.confine t requested = .ok p ↔
    ∃ base asked, s.baseDirectory t = .ok base ∧
      (Path.ofText requested).expandHome s.accounts s.vars = .ok asked ∧
      t.resolve s.cwd (base.append asked) = .ok p ∧ p.isUnder base = true := by
  rw [confine]
  cases s.baseDirectory t with
  | error e => simp
  | ok base =>
    cases (Path.ofText requested).expandHome s.accounts s.vars with
    | error e => simp
    | ok asked =>
      cases hreal : t.resolve s.cwd (base.append asked) with
      | error e => simp [hreal]
      | ok real =>
        by_cases hunder : real.isUnder base = true
        · simp only [Except.ok.injEq, exists_and_left, exists_eq_left', hreal, hunder, if_true]
          exact ⟨fun h => ⟨h, h ▸ hunder⟩, fun h => h.1⟩
        · simp only [Except.ok.injEq, exists_and_left, exists_eq_left', hreal, hunder,
            Bool.false_eq_true, if_false, reduceCtorEq, false_iff, not_and]
          exact fun h hp => absurd (h ▸ hp) hunder

/-! ## Names without slashes -/

theorem noSlash_baseDirectory {base : Path} (hcwd : NoSlash s.cwd)
    (h : s.baseDirectory t = .ok base) : NoSlash base.parts := by
  rw [baseDirectory] at h
  split at h
  · exact noSlash_of_resolve hcwd (Path.no_slash_ofText _) h
  · exact noSlash_of_resolve hcwd hcwd h

theorem noSlash_expandHome {accounts : List (Text × Text)} {vs : Variables} {q : Path}
    (hp : NoSlash p.parts) (h : p.expandHome accounts vs = .ok q) : NoSlash q.parts := by
  unfold Path.expandHome at h
  split at h
  · rename_i user rest _ hparts
    have hrest : NoSlash rest := fun name hname => hp name (by rw [hparts]; simp [hname])
    split at h
    · cases h
    dsimp only at h
    split at h
    · cases h
    · cases h
    · cases h
      exact List.forall_mem_append.mpr ⟨Path.no_slash_ofText _, hrest⟩
  · cases h
    exact hp

theorem noSlash_append {base asked : Path} (hbase : NoSlash base.parts)
    (hasked : NoSlash asked.parts) : NoSlash (base.append asked).parts := by
  rw [Path.append]
  split
  · exact hasked
  · exact List.forall_mem_append.mpr ⟨hbase, hasked⟩

theorem isSpelled_confine (hcwd : NoSlash s.cwd) (h : s.confine t requested = .ok p) :
    ∀ name ∈ p.parts, Path.IsSpelled name := by
  obtain ⟨base, asked, hbase, hasked, hreal, -⟩ := confine_eq_ok_iff.mp h
  have hnames := noSlash_of_resolve hcwd (noSlash_append (noSlash_baseDirectory hcwd hbase)
    (noSlash_expandHome (Path.no_slash_ofText requested) hasked)) hreal
  exact fun name hname => ⟨(isProper_of_resolve hreal name hname).not_idle, hnames name hname⟩

theorem isAbsolute_append {base asked : Path} (h : base.isAbsolute = true) :
    (base.append asked).isAbsolute = true := by
  rw [Path.append]
  split
  · assumption
  · exact h

theorem isAbsolute_baseDirectory {base : Path} (h : s.baseDirectory t = .ok base) :
    base.isAbsolute = true := by
  rw [baseDirectory] at h
  split at h
  · exact isAbsolute_of_resolve h
  · exact isAbsolute_of_resolve h

theorem confine_toText {base : Path} (hbase : s.baseDirectory t = .ok base)
    (habs : p.isAbsolute = true) (hnames : ∀ name ∈ p.parts, Path.IsSpelled name)
    (hreal : t.resolve s.cwd p = .ok p) (hunder : p.isUnder base = true) :
    s.confine t p.toText = .ok p := by
  have hexpand : p.expandHome s.accounts s.vars = .ok p := by
    obtain ⟨anchor, parts⟩ := p
    cases anchor with
    | relative => cases habs
    | root => rfl
    | doubleRoot => rfl
  refine confine_eq_ok_iff.mpr ⟨base, p, hbase, ?_, ?_, hunder⟩
  · rw [Path.ofText_toText hnames, hexpand]
  · rw [Path.append, if_pos habs, hreal]

/-- A confined path lies below the base directory. If no part of it is a link, it leads nowhere else
and is confined to itself; that is so when no link came up again inside its own target. -/
theorem confine_contained (hcwd : NoSlash s.cwd) (h : s.confine t requested = .ok p) :
    ∃ base asked, s.baseDirectory t = .ok base ∧
      (Path.ofText requested).expandHome s.accounts s.vars = .ok asked ∧
      p.anchor = base.anchor ∧ base.parts <+: p.parts ∧ ['.', '.'] ∉ p.parts ∧
      (t.Settles s.cwd (base.append asked) → t.Unlinked s.cwd p) ∧
      (t.Unlinked s.cwd p →
        t.resolve s.cwd p = .ok p ∧ s.confine t p.toText = .ok p ∧
        ∀ purpose place, t.locate s.cwd purpose p = .ok place → place.location = p.parts) := by
  obtain ⟨base, asked, hbase, hasked, hreal, hunder⟩ := confine_eq_ok_iff.mp h
  have hbelow : p.anchor = base.anchor ∧ base.parts <+: p.parts := by
    simpa [Path.isUnder] using hunder
  refine ⟨base, asked, hbase, hasked, hbelow.1, hbelow.2, ?_, ?_, fun hunlinked => ?_⟩
  · exact fun hup => (isProper_of_resolve hreal _ hup).not_up rfl
  · exact fun hsettles => unlinked_of_settles
      (isAbsolute_append (isAbsolute_baseDirectory hbase)) hsettles hreal
  · have hself := resolve_of_unlinked hunlinked
    exact ⟨hself, confine_toText hbase (isAbsolute_of_resolve hreal) (isSpelled_confine hcwd h)
      hself hunder, fun _ _ => location_of_unlinked hunlinked⟩

/-- A link to a directory in the base directory is replaced by the directory. -/
theorem confine_contained_link :
    let t : Tree := ⟨[(["b".toList], .directory), (["b".toList, "d".toList], .directory),
      (["b".toList, "l".toList], .link "../b/d".toList)]⟩
    let s : Surroundings := ⟨.plain [], ⟨[("JOURNAL_BASE_DIR".toList, "/b".toList)]⟩, []⟩
    let p : Path := ⟨.root, ["b".toList, "d".toList, "j".toList]⟩
    s.confine t "l/j".toList = .ok p ∧ s.confine t p.toText = .ok p := by
  intro t s p
  have hconfine : s.confine t "l/j".toList = .ok p := by decide +kernel
  obtain ⟨base, asked, hbase, hasked, -, -, -, hunlinked, hstable⟩ :=
    confine_contained (by simp [NoSlash, s]) hconfine
  have hbase' : s.baseDirectory t = .ok ⟨.root, ["b".toList]⟩ := by decide +kernel
  have hasked' : (Path.ofText "l/j".toList).expandHome s.accounts s.vars =
      .ok ⟨.relative, ["l".toList, "j".toList]⟩ := by decide +kernel
  rw [hbase] at hbase'
  rw [hasked] at hasked'
  cases hbase'
  cases hasked'
  exact ⟨hconfine, (hstable (hunlinked (by decide +kernel))).2.1⟩

/-- A link that leads to itself makes the trace stop at another link, which leads out of the base
directory. The path that comes out is refused when it is asked for again. -/
theorem confine_link_loop :
    let t : Tree := ⟨[(["b".toList], .directory), (["secret".toList], .file []),
      (["b".toList, "loop".toList], .link "loop".toList),
      (["b".toList, "x".toList], .link "../secret".toList)]⟩
    let s : Surroundings := ⟨.plain [], ⟨[("JOURNAL_BASE_DIR".toList, "/b".toList)]⟩, []⟩
    let p : Path := ⟨.root, ["b".toList, "x".toList]⟩
    s.confine t "loop/../x".toList = .ok p ∧ s.confine t p.toText = .error .outsideBase ∧
      t.locate s.cwd .look p = .ok (.found ["secret".toList] (.file [])) := by
  decide +kernel

end Surroundings
end JournalScript
