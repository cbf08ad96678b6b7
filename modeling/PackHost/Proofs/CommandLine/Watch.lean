import PackHost.Proofs.CommandLine.Batch
import PackHost.Proofs.Files.Watch

/-!
# What the watch command follows

Whatever turns a watch has taken, it looks below the roots of the packs that were loaded last, and
remembers the files of the last tree it has looked at (`Vigil.Sound`). So the next look loads the
scripts again exactly if the files have changed since the last one:

* `tick_of_run`: what a look does after any turns;
* `watch_reports_failures`: the exit code speaks about the last load only.
-/

namespace PackHost.CommandLine

open Files (Tree)

namespace Vigil

variable {v v' : Vigil} {seen t : Tree} {m m' : BenchManager} {w w' : Bench} {interval : Nat}
  {hot : Bool} {s : Config.Settings} {e : Config.Environment} {kind : ScriptKind}

/-- The packs are those of a load, and the loop looks below their roots and remembers the files of
a tree. -/
structure Sound (v : Vigil) (seen : Tree) : Prop where
  seated : v.manager.desk < v.world.desks.size
  loaded : ∃ (m : BenchManager) (w w' : Bench), m.desk < w.desks.size ∧
    m.load Workbench.runner w = some (v.manager, w')
  roots : v.lookout.roots = v.manager.roots
  extension : v.lookout.extension = v.manager.plan.engine.extension
  knows : v.lookout.Knows seen

theorem desks_foldl_note (w : Bench) (notes : List LogEntry) :
    (notes.foldl World.note w).desks = w.desks := by
  induction notes generalizing w with
  | nil => rfl
  | cons entry notes ih => exact ih _

/-! ## What one turn preserves -/

theorem Sound.note (h : v.Sound seen) (entry : LogEntry) : (v.note entry).Sound seen :=
  ⟨h.seated, h.loaded, h.roots, h.extension, h.knows⟩

theorem Sound.edit (h : v.Sound seen) (t : Tree) : Sound { v with tree := t } seen :=
  ⟨h.seated, h.loaded, h.roots, h.extension, h.knows⟩

theorem sound_watching (seated : m.desk < w.desks.size)
    (h : m.load Workbench.runner w = some (m', w')) (interval : Nat) (listening : Bool) (t : Tree) :
    (watching m' interval listening t w').Sound t where
  seated := by
    show m'.desk < ((Files.Watch.start t m'.roots _ interval).2.foldl World.note w').desks.size
    rw [desks_foldl_note, Manager.desk_load h, Manager.size_load h]
    exact seated
  loaded := ⟨m, w, w', seated, h⟩
  roots := rfl
  extension := rfl
  knows := Files.Watch.knows_start t _ _ interval

theorem sound_start (h : start s e kind interval t = some v) : v.Sound v.tree := by
  rcases hfound : (newManager s e kind .fresh).discover t (Bench.fresh.addDesk (.logged kind)) with
    ⟨found, t₁, w₁⟩
  simp only [start, hfound] at h
  obtain ⟨⟨m, w⟩, hload, rfl⟩ := Option.map_eq_some_iff.mp h
  exact sound_watching (seated_discover hfound) hload _ _ _

theorem Sound.reload (h : v.Sound seen) {trigger : Trigger} (hreload : v.reload trigger = some v') :
    v'.Sound v'.tree := by
  obtain ⟨⟨m', t', w'⟩, hagain, rfl⟩ := Option.map_eq_some_iff.mp hreload
  obtain ⟨⟨m'', w''⟩, hload, hsame⟩ := Option.map_eq_some_iff.mp hagain
  cases hsame
  refine sound_watching ?_ hload _ _ _
  -- neither forgetting packs nor finding them again touches the number of desks
  rw [Manager.desk_discover, (Manager.sameHandlers_discover _ _ _).1]
  show v.manager.desk < (v.world.changeDesk v.manager.desk _).desks.size
  rw [World.size_changeDesk]
  exact h.seated

theorem Sound.look (h : v.Sound seen) (now : Nat) : (v.look now).2.Sound v.tree where
  seated := by
    show v.manager.desk < ((v.lookout.scan v.tree now).2.2.foldl World.note v.world).desks.size
    rw [desks_foldl_note]
    exact h.seated
  loaded := h.loaded
  roots := h.roots
  extension := h.extension
  knows := v.lookout.knows_scan v.tree now

theorem Sound.tick (h : v.Sound seen) {now : Nat} (htick : v.tick now = some v') :
    ∃ seen', v'.Sound seen' := by
  rw [Vigil.tick] at htick
  split at htick
  · simp only at htick
    split at htick
    · exact ⟨_, ((h.look now).note _).reload htick⟩
    · cases htick
      exact ⟨_, h.look now⟩
  · cases htick
    exact ⟨_, h⟩

theorem Sound.step (h : v.Sound seen) {event : Event} (hstep : v.step hot event = some v') :
    ∃ seen', v'.Sound seen' := by
  cases event with
  | tick now =>
    simp only [Vigil.step] at hstep
    split at hstep
    · exact h.tick hstep
    · cases hstep
      exact ⟨_, h⟩
  | signal =>
    simp only [Vigil.step] at hstep
    split at hstep
    · exact ⟨_, h.reload hstep⟩
    · cases hstep
      exact ⟨_, h⟩
  | unheard =>
    simp only [Vigil.step] at hstep
    split at hstep <;> cases hstep
    · exact ⟨_, h.seated, h.loaded, h.roots, h.extension, h.knows⟩
    · exact ⟨_, h⟩

/-! ## What all turns preserve -/

theorem Sound.run (h : v.Sound seen) {turns : List Turn} (hrun : v.run hot turns = some v') :
    ∃ seen', v'.Sound seen' := by
  induction turns generalizing v seen with
  | nil =>
    cases hrun
    exact ⟨_, h⟩
  | cons turn turns ih =>
    obtain ⟨v₁, hstep, hrest⟩ := Option.bind_eq_some_iff.mp hrun
    obtain ⟨_, h₁⟩ := (h.edit (turn.edit v.tree)).step hstep
    exact ih h₁ hrest

/-- A look that finds nothing new leaves the packs alone; one that finds something has the scripts
loaded again. -/
theorem Sound.tick_eq (h : v.Sound seen) {now : Nat} (due : v.lookout.isDue now = true) :
    let same := ∀ p time, seen.Tracks v.lookout.extension v.lookout.roots p time ↔
      v.tree.Tracks v.lookout.extension v.lookout.roots p time
    (same → v.tick now = some (v.look now).2) ∧
    (¬same →
      v.tick now = ((v.look now).2.note (changesNote (v.look now).1)).reload .filesChanged) := by
  have hchanges := (h.knows.compares_scan v.tree now).hasChanges
  constructor
  · intro same
    have hnone : (v.look now).1.hasChanges = false := hchanges.mpr same
    simp [Vigil.tick, due, hnone]
  · intro different
    have hsome : (v.look now).1.hasChanges = true := by
      refine Bool.eq_true_of_not_eq_false fun hnone => different (hchanges.mp hnone)
    simp [Vigil.tick, due, hsome]

end Vigil

section

variable {s : Config.Settings} {e : Config.Environment} {kind : ScriptKind}
  {turns : List Turn} {t : Tree}

/-- **A watch follows the files.** After any turns there is a tree that was looked at last, and if
it is time for the next look, the scripts are loaded again exactly if a script file below the roots
of the packs that are there has changed, come or gone since then. Otherwise the packs stay as they
are. -/
theorem tick_of_run {interval : Nat} {hot : Bool} {v v' : Vigil}
    (begun : Vigil.start s e kind interval t = some v)
    (ran : (v.note (v.openingNote hot)).run hot turns = some v') :
    ∃ seen : Tree, ∀ now, v'.lookout.isDue now = true →
      let tracks (t : Tree) := t.Tracks v'.manager.plan.engine.extension v'.manager.roots
      ((∀ p time, tracks seen p time ↔ tracks v'.tree p time) →
        ∃ v'', v'.tick now = some v'' ∧ v''.manager = v'.manager ∧ v''.tree = v'.tree) ∧
      ((¬∀ p time, tracks seen p time ↔ tracks v'.tree p time) →
        ∃ told : Vigil, told.manager = v'.manager ∧ told.tree = v'.tree ∧
          v'.tick now = told.reload .filesChanged) := by
  obtain ⟨seen, h⟩ := ((Vigil.sound_start begun).note _).run ran
  refine ⟨seen, fun now due => ?_⟩
  obtain ⟨hsame, hdifferent⟩ := h.tick_eq due
  rw [h.roots, h.extension] at hsame hdifferent
  refine ⟨fun same => ⟨_, hsame same, rfl, rfl⟩, fun different => ?_⟩
  exact ⟨(v'.look now).2.note (Vigil.changesNote (v'.look now).1), rfl, rfl, hdifferent different⟩

/-- **The exit code of a watch** that is told to stop says whether a unit of the last load has
failed. -/
theorem watch_reports_failures {interval : Option Nat} {r : Ending}
    (h : watch s e kind interval turns .told t = some r) :
    ∃ (m m' : BenchManager) (w w' : Bench), m.load Workbench.runner w = some (m', w') ∧
      r.failure = none ∧
      (r.exit = 1 ↔ ∃ k ∈ m'.packs, ∃ u ∈ k.units, ∃ f, u.fate = .failed f) ∧
      (r.exit = 0 ↔ ¬∃ k ∈ m'.packs, ∃ u ∈ k.units, ∃ f, u.fate = .failed f) := by
  obtain ⟨v', hrun, rfl⟩ := Option.map_eq_some_iff.mp h
  obtain ⟨v, hstart, hrun⟩ := Option.bind_eq_some_iff.mp hrun
  obtain ⟨_, hsound⟩ := ((Vigil.sound_start hstart).note _).run hrun
  obtain ⟨m, w, w', hseated, hload⟩ := hsound.loaded
  refine ⟨m, v'.manager, w, w', hload, rfl, ?_, ?_⟩
  all_goals
    rw [← Manager.errors_ne_nil_iff hseated hload]
    show (if v'.manager.errors = [] then 0 else 1) = _ ↔ _
    by_cases hnone : v'.manager.errors = [] <;> simp [hnone]

end

end PackHost.CommandLine
