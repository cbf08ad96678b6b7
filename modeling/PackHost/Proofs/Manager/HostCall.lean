import PackHost.Proofs.Manager.Account

/-!
# What a host does with a manager

A host discovers, loads, unloads and reloads, and in between it uses the bus and calls functions as
it likes. `deedsAll` writes down everything that happens, and `deedsAll_of_performAll` says that
this is all that happens.
-/

namespace PackHost

variable {ω γ κ : Type}

structure Visit where
  tree : Files.Tree
  directory : Files.Path

/-- The looks that a discovery takes into the root directory and the further directories, once a
missing root directory is made. -/
def Manager.rounds (m : Manager ω γ κ) (t : Files.Tree) (w : World ω γ) : List Visit :=
  (m.plan.directory :: m.plan.extra).map fun directory => ⟨(m.seed t w).1, directory⟩

/-- One thing that a host does with a manager, or beside it. -/
inductive HostCall (ω γ : Type) where
  | discover (t : Files.Tree)
  | discoverPack (t : Files.Tree) (directory : Files.Path)
  | load
  | unload
  | reload (t : Files.Tree)
  /-- Uses the bus and calls functions as it likes, functions that it kept included. -/
  | run (p : Program ω γ Unit)
  /-- Arranges something that has nothing to do with handlers. -/
  | arrange (f : World ω γ → World ω γ) (same : ∀ w, SameHandlers w (f w))

namespace HostCall

def perform (r : Runner ω γ) (m : Manager ω γ κ) (w : World ω γ) :
    HostCall ω γ → Option (Manager ω γ κ × World ω γ)
  | .discover t => some ((m.discover t w).1, (m.discover t w).2.2)
  | .discoverPack t directory => some (m.discoverPack t directory w)
  | .load => m.load r w
  | .unload => some (m.unload w)
  | .reload t => (m.reload r t w).map fun s => (s.1, s.2.2)
  | .run p => (r.run p w).map fun s => (m, s.2)
  | .arrange f _ => some (m, f w)

def deeds (r : Runner ω γ) (m : Manager ω γ κ) (w : World ω γ) :
    HostCall ω γ → Option (List (Deed ω γ κ))
  | .discover t => some [.aside (fun w => (m.discover t w).2.2) (m.sameHandlers_discover t)]
  | .discoverPack t directory =>
    some [.aside (fun w => (m.discoverPack t directory w).2)
      (m.sameHandlers_discoverPack t directory)]
  | .load => m.chronicle r w
  | .unload => some [.unloaded m.desk]
  | .reload t =>
    let bare := (m.unload w).1
    let found := bare.discover t (m.unload w).2
    (found.1.chronicle r found.2.2).map fun ds =>
      .unloaded m.desk ::
        .aside (fun w => (bare.discover t w).2.2) (bare.sameHandlers_discover t) :: ds
  | .run p => (Journal.run r.report p w).map fun s => s.2.map .act
  | .arrange f same => some [.aside f same]

def performAll (r : Runner ω γ) :
    List (HostCall ω γ) → Manager ω γ κ → World ω γ → Option (Manager ω γ κ × World ω γ)
  | [], m, w => some (m, w)
  | c :: cs, m, w => (c.perform r m w).bind fun s => performAll r cs s.1 s.2

def deedsAll (r : Runner ω γ) :
    List (HostCall ω γ) → Manager ω γ κ → World ω γ → Option (List (Deed ω γ κ))
  | [], _, _ => some []
  | c :: cs, m, w =>
    match c.perform r m w, c.deeds r m w with
    | some (m', w'), some ds => (deedsAll r cs m' w').map fun es => ds ++ es
    | _, _ => none

/-- The looks into directories since packs were last forgotten, after one more call. -/
def visits (m : Manager ω γ κ) (w : World ω γ) (before : List Visit) : HostCall ω γ → List Visit
  | .discover t => before ++ m.rounds t w
  | .discoverPack t directory => before ++ [⟨t, directory⟩]
  | .unload => []
  | .reload t => (m.unload w).1.rounds t (m.unload w).2
  | .load | .run _ | .arrange .. => before

/-- The looks into directories since packs were last forgotten, after several more calls. -/
def visitsAll (r : Runner ω γ) :
    List (HostCall ω γ) → Manager ω γ κ → World ω γ → List Visit → List Visit
  | [], _, _, before => before
  | c :: cs, m, w, before =>
    match c.perform r m w with
    | some (m', w') => visitsAll r cs m' w' (c.visits m w before)
    | none => before

section

variable {r : Runner ω γ} {m m' : Manager ω γ κ} {w w' : World ω γ}

/-- **Everything that a call does leads to the world that the call leaves.** -/
theorem deeds_of_perform {c : HostCall ω γ} (h : c.perform r m w = some (m', w')) :
    ∃ ds, c.deeds r m w = some ds ∧ Deed.replay ds w = w' ∧ m'.desk = m.desk := by
  cases c with
  | discover t =>
    cases h
    exact ⟨_, rfl, rfl, m.desk_discover t w⟩
  | discoverPack t directory =>
    have hdesk := m.desk_discoverPack t directory w
    simp only [perform, Option.some.injEq] at h
    rw [h] at hdesk
    exact ⟨_, rfl, congrArg Prod.snd h, hdesk⟩
  | load =>
    obtain ⟨ds, hds, hreplay⟩ := Manager.exists_chronicle h
    exact ⟨ds, hds, hreplay, Manager.desk_load h⟩
  | unload =>
    cases h
    exact ⟨_, rfl, rfl, rfl⟩
  | reload t =>
    obtain ⟨⟨m₁, t₁, w₁⟩, hreload, h⟩ := Option.map_eq_some_iff.mp h
    cases h
    obtain ⟨⟨m₂, w₂⟩, hload, h⟩ := Option.map_eq_some_iff.mp hreload
    cases h
    obtain ⟨ds, hds, hreplay⟩ := Manager.exists_chronicle hload
    refine ⟨_, by rw [deeds, hds]; rfl, hreplay, ?_⟩
    exact (Manager.desk_load hload).trans (Manager.desk_discover _ t _)
  | run p =>
    obtain ⟨⟨_, w₁⟩, hrun, h⟩ := Option.map_eq_some_iff.mp h
    cases h
    rw [← r.forget_run] at hrun
    obtain ⟨⟨_, as⟩, has, h⟩ := Option.map_eq_some_iff.mp hrun
    cases h
    exact ⟨as.map .act, by rw [deeds, has]; rfl, Deed.replay_map_act as w, rfl⟩
  | arrange f same =>
    cases h
    exact ⟨_, rfl, rfl, rfl⟩

theorem deedsAll_of_performAll {cs : List (HostCall ω γ)}
    (h : performAll r cs m w = some (m', w')) :
    ∃ ds, deedsAll r cs m w = some ds ∧ Deed.replay ds w = w' ∧ m'.desk = m.desk := by
  induction cs generalizing m w with
  | nil =>
    cases h
    exact ⟨[], rfl, rfl, rfl⟩
  | cons c cs ih =>
    obtain ⟨⟨m₁, w₁⟩, hc, hcs⟩ := Option.bind_eq_some_iff.mp h
    obtain ⟨ds, hds, hworld, hdesk⟩ := deeds_of_perform hc
    obtain ⟨es, hes, hlast, hdesks⟩ := ih hcs
    refine ⟨ds ++ es, ?_, ?_, hdesks.trans hdesk⟩
    · simp only [deedsAll, hc, hds, hes]
      rfl
    · rw [Deed.replay_append, hworld, hlast]

/-! ## Invariants of managers -/

/-- What one look into a directory keeps, what an unload and a load keep, and what does not depend
on the state of the manager, is kept by every call. -/
theorem perform_induct {P : Manager ω γ κ → List Visit → Prop}
    (look : ∀ {m seen} t directory w, P m seen →
      P (m.discoverPack t directory w).1 (seen ++ [⟨t, directory⟩]))
    (state : ∀ {m seen} state, P m seen → P { m with state := state } seen)
    (unload : ∀ {m seen} w, P m seen → P (m.unload w).1 [])
    (load : ∀ {m m' seen w w'}, m.load r w = some (m', w') → P m seen → P m' seen)
    {c : HostCall ω γ} {seen : List Visit} (hc : c.perform r m w = some (m', w')) (h : P m seen) :
    P m' (c.visits m w seen) := by
  have looks : ∀ (t : Files.Tree) (directories : List Files.Path) (m : Manager ω γ κ)
      (w : World ω γ) (seen : List Visit), P m seen →
      P (Manager.discoverAll t directories (m, w)).1
        (seen ++ directories.map fun directory => ⟨t, directory⟩) := by
    intro t directories
    induction directories with
    | nil =>
      intro m w seen h
      rw [List.map_nil, List.append_nil]
      exact h
    | cons directory directories ih =>
      intro m w seen h
      have hrest := ih _ (m.discoverPack t directory w).2 _ (look t directory w h)
      rw [List.append_assoc] at hrest
      exact hrest
  have discover : ∀ (t : Files.Tree) (m : Manager ω γ κ) (w : World ω γ) (seen : List Visit),
      P m seen → P (m.discover t w).1 (seen ++ m.rounds t w) :=
    fun t m w seen h => state .discovered (looks (m.seed t w).1 _ m (m.seed t w).2 seen h)
  cases c with
  | discover t =>
    cases hc
    exact discover t m w seen h
  | discoverPack t directory =>
    have hlook := look t directory w h
    simp only [perform, Option.some.injEq] at hc
    rwa [hc] at hlook
  | load => exact load hc h
  | unload =>
    cases hc
    exact unload w h
  | reload t =>
    obtain ⟨⟨m₂, t₂, w₂⟩, hreload, hc⟩ := Option.map_eq_some_iff.mp hc
    cases hc
    obtain ⟨⟨m₃, w₃⟩, hload, hreload⟩ := Option.map_eq_some_iff.mp hreload
    cases hreload
    exact load hload (discover t _ (m.unload w).2 [] (unload w h))
  | run p =>
    obtain ⟨⟨_, w₂⟩, -, hc⟩ := Option.map_eq_some_iff.mp hc
    cases hc
    exact h
  | arrange f same =>
    cases hc
    exact h

theorem performAll_induct {P : Manager ω γ κ → List Visit → Prop}
    (look : ∀ {m seen} t directory w, P m seen →
      P (m.discoverPack t directory w).1 (seen ++ [⟨t, directory⟩]))
    (state : ∀ {m seen} state, P m seen → P { m with state := state } seen)
    (unload : ∀ {m seen} w, P m seen → P (m.unload w).1 [])
    (load : ∀ {m m' seen w w'}, m.load r w = some (m', w') → P m seen → P m' seen)
    {cs : List (HostCall ω γ)} (hcs : performAll r cs m w = some (m', w')) (seen : List Visit)
    (h : P m seen) : P m' (visitsAll r cs m w seen) := by
  induction cs generalizing m w seen with
  | nil =>
    cases hcs
    exact h
  | cons c cs ih =>
    obtain ⟨⟨m₁, w₁⟩, hc, hcs⟩ := Option.bind_eq_some_iff.mp hcs
    have hstep : P m₁ (c.visits m w seen) := perform_induct (P := P) look state unload load hc h
    rw [visitsAll, hc]
    exact ih hcs _ hstep

/-- However a host uses a manager, it goes on with what it was told when it was made. -/
theorem plan_performAll {cs : List (HostCall ω γ)} (h : performAll r cs m w = some (m', w')) :
    m'.plan = m.plan :=
  performAll_induct (P := fun m' _ => m'.plan = m.plan)
    (fun t directory w hplan => (Manager.plan_discoverPack _ t directory w).trans hplan)
    (fun _ hplan => hplan) (fun _ hplan => hplan)
    (fun hload hplan => (Manager.plan_load hload).trans hplan) h [] rfl

end

end HostCall

end PackHost
