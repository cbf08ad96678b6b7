import PackHost.Proofs.Twin.Pack

/-!
# Loads side by side

Two loads that begin in worlds that are alike, with namespaces that match and packs with the same
scripts, are alike to their end (`Scene.keeps_tale`).
-/

namespace PackHost

open Event Pack

variable {ω γ κ : Type}

namespace Scene

variable {S : Scene ω γ κ} {base base' : List (Entry Listener)} {ρ : Link} {w v : World ω γ}

/-! ## The namespace -/

variable (S) in
/-- The namespaces match, and the worlds in which they were written are alike. -/
structure Gathered (base base' : List (Entry Listener)) (ρ : Link) (w v : World ω γ) (ρ' : Link)
    (x y : Registry × World ω γ) : Prop where
  grows : S.Grows ρ w v ρ' x.2 y.2
  twin : S.Twin base base' ρ' x.2 y.2
  agree : S.Agree ρ' x.2.state y.2.state
  registry : x.1.Matches (Function.Linked ρ') y.1
  realms : ∀ i j, ρ' .realm i j → ρ .realm i j

/-- The functions of the desk are linked to each other. -/
theorem gathered_bindRoles (roles : List DeskRole) {x y : Registry} (h : x.Matches (Function.Linked ρ) y)
    (htwin : S.Twin base base' ρ w v) (hagree : S.Agree ρ w.state v.state) :
    ∃ ρ', S.Gathered base base' ρ w v ρ' (World.bindRoles S.desk roles (x, w))
      (World.bindRoles S.desk roles (y, v)) := by
  induction roles generalizing ρ w v x y with
  | nil => exact ⟨ρ, .refl ρ w v, htwin, hagree, h, fun _ _ hij => hij⟩
  | cons role roles ih =>
    have hgrows : S.Grows ρ w v (ρ.add .function w.functions.size v.functions.size
        htwin.not_hasRight_size htwin.not_hasLeft_size) (w.define (.desk S.desk role))
        (v.define (.desk S.desk role)) := by
      refine ⟨Link.le_add, ?_, .define _ _, .define _ _⟩
      rintro k i j (hij | ⟨rfl, rfl, rfl⟩)
      · exact .inl hij
      · exact .inr ⟨Nat.lt_irrefl _, Nat.lt_irrefl _⟩
    have hwritten := (h.imp fun _ _ => Function.Linked.mono hgrows.le).writeFunction
      (f := w.newHandle role.name (some role.arity)) (g := v.newHandle role.name (some role.arity))
      rfl ⟨⟨rfl, rfl⟩, Link.add_self⟩
    obtain ⟨ρ', hrest⟩ := ih hwritten (htwin.define (.desk role))
      (hagree.mono hgrows.le fun i j => (Link.add_of_ne (by decide)).mp)
    exact ⟨ρ', hgrows.trans hrest.grows, hrest.twin, hrest.agree, hrest.registry,
      fun i j hij => (Link.add_of_ne (by decide)).mp (hrest.realms i j hij)⟩

theorem matches_standardConstants (kind : ScriptKind) {R : Function → Function → Prop}
    {x y : Registry} (h : x.Matches R y) :
    ((standardConstants kind).foldl Registry.write x).Matches R
      ((standardConstants kind).foldl Registry.write y) := by
  refine Registry.Matches.writeConstant (.writeConstant (.writeConstant (.writeConstant h _ ?_) _ ?_)
    _ ?_) _ ?_
  all_goals rfl

theorem body_collect (kind : ScriptKind) (gs : List Registrar) (x : Registry) :
    (Registrar.collect kind gs x).2.map Registrar.body = gs.map Registrar.body := by
  induction gs generalizing x with
  | nil => rfl
  | cons g gs ih => exact congrArg (g.body :: ·) (ih _)

/-- Namespaces that are written for a load match if registrars write what matches. -/
theorem gathered_collect (kind : ScriptKind)
    (h : (Registrar.collect kind w.registrars .empty).1.Matches (Function.Linked ρ)
      (Registrar.collect kind v.registrars .empty).1)
    (htwin : S.Twin base base' ρ w v) (hagree : S.Agree ρ w.state v.state) :
    ∃ ρ', S.Gathered base base' ρ w v ρ' (w.collect S.desk kind) (v.collect S.desk kind) := by
  have hw : World.SameCore S.desk w
      { w with registrars := (Registrar.collect kind w.registrars .empty).2 } :=
    ⟨rfl, rfl, rfl, body_collect kind _ _, rfl, rfl⟩
  have hv : World.SameCore S.desk v
      { v with registrars := (Registrar.collect kind v.registrars .empty).2 } :=
    ⟨rfl, rfl, rfl, body_collect kind _ _, rfl, rfl⟩
  obtain ⟨ρ', hbound⟩ := gathered_bindRoles [.log, .logError, .onEvent, .postEvent]
    (matches_standardConstants kind h) (htwin.congr hw hv) (hagree.congr hw hv)
  exact ⟨ρ', (Grows.of_kept (.of_sameCore hw) (.of_sameCore hv)).trans hbound.grows, hbound.twin,
    hbound.agree, hbound.registry, hbound.realms⟩

/-! ## The end of a load -/

section

variable {call : Reporter ω γ} (hcall : S.Calls call)
include hcall

theorem lock_tellAll {fs gs : List Function} (h : List.Forall₂ (Function.Linked ρ) fs gs) :
    S.Lock (fun _ _ _ => True) ρ (Journal.tellAll call fs) (Journal.tellAll call gs) := by
  induction h with
  | nil =>
    intro base base' ρ₁ w v _ htwin hagree
    exact .pure htwin hagree trivial
  | @cons f g fs gs hfg _ ih =>
    intro base base' ρ₁ w v hle htwin hagree
    refine Keeps.bind (A := Outcome.Linked)
      (hcall ρ₁ f g [] [] (hfg.mono hle) .nil _ _ ρ₁ _ _ (Link.le_refl _) htwin hagree) ?_
    intro ρ₂ x y as bs hreached hagree₂ hxy
    have hle₂ := Link.le_trans hle hreached.grows.le
    match x, y, hxy with
    | .done _, .done _, _ => exact ih _ _ ρ₂ _ _ hle₂ hreached.twin hagree₂
    | .failed _, .failed _, _ => exact ih _ _ ρ₂ _ _ hle₂ hreached.twin hagree₂
    | .crashed _, .crashed _, _ =>
      refine Keeps.bind (A := fun _ _ _ => True)
        (.passive hreached.twin hagree₂ (.note _ _) (.note _ _) rfl rfl trivial) ?_
      intro ρ₃ _ _ cs ds hreached₃ hagree₃ _
      exact ih _ _ ρ₃ _ _ (Link.le_trans hle₂ hreached₃.grows.le) hreached₃.twin hagree₃

end

section

variable {r : Runner ω γ} {m m' : Manager ω γ κ}

/-- Handlers and listeners that are told of the end of a load do alike. -/
theorem keeps_farewell (hcall : S.Calls r.report) (hdesk : m.desk = S.desk)
    (hdesk' : m'.desk = S.desk)
    (h : List.Forall₂ (Function.Linked ρ) (w.lifecycle.handlers scriptsLoaded)
      (v.lifecycle.handlers scriptsLoaded))
    (htwin : S.Twin base base' ρ w v) (hagree : S.Agree ρ w.state v.state) :
    S.Keeps (fun _ _ _ => True) base base' ρ w v (m.farewell r w) (m'.farewell r v) := by
  rw [Manager.farewell, Manager.farewell, hdesk, hdesk']
  refine Keeps.bind (keeps_post hcall (by trivial) htwin hagree) ?_
  intro ρ₁ _ _ as bs hreached hagree₁ _
  rw [Journal.ask_bind, Journal.ask_bind, hreached.grows.left.lifecycle,
    hreached.grows.right.lifecycle]
  exact lock_tellAll hcall (h.imp fun _ _ => .mono hreached.grows.le) _ _ ρ₁ _ _ (Link.le_refl _)
    hreached.twin hagree₁

/-- **Loads that begin alike are alike to their end.** -/
theorem keeps_tale (hr : S.Uniform r m.plan.engine) (hplan : m'.plan = m.plan)
    (hdesk : m.desk = S.desk) (hdesk' : m'.desk = S.desk)
    (hpacks : List.Forall₂ ScriptPack.SameScripts (Manager.preparePacks m.plan m.packs)
      (Manager.preparePacks m.plan m'.packs))
    (hlisteners : List.Forall₂ (Function.Linked ρ)
      ((m.gather w).2.lifecycle.handlers scriptsLoaded)
      ((m'.gather v).2.lifecycle.handlers scriptsLoaded))
    (hregistry : (m.gather w).1.Matches (Function.Linked ρ) (m'.gather v).1)
    (htwin : S.Twin base base' ρ (m.gather w).2 (m'.gather v).2)
    (hagree : S.Agree ρ (m.gather w).2.state (m'.gather v).2.state) :
    S.Keeps (fun ρ' x y => List.Forall₂ (S.PackAlike ρ') x.1 y.1) base base' ρ (m.gather w).2
      (m'.gather v).2 (m.tale r w) (m'.tale r v) := by
  rw [Manager.tale, Manager.tale, hplan, hdesk, hdesk']
  refine Keeps.andThen (keeps_packs hr hregistry.merged hpacks (p := m.opening w)
    (q := m'.opening v) htwin hagree) ?_
  rintro ρ₁ ⟨ks, p⟩ ⟨ks', p'⟩ ds ds' hx hy hreached hagree₁ hks
  have hworld : Step.replay ds (m.gather w).2 = p.world := Manager.world_of_packsTale hx
  have hworld' : Step.replay ds' (m'.gather v).2 = p'.world := Manager.world_of_packsTale hy
  obtain ⟨hgrows, htwin₁, -⟩ := hreached
  rw [hworld, hworld'] at hgrows htwin₁ hagree₁ ⊢
  have hw := m.sameCore_closing S.desk p
  have hv := m'.sameCore_closing S.desk p'
  have hclosed : S.Reached base base' ρ₁ p.world p'.world ρ₁ (m.closingDeeds p)
      (m'.closingDeeds p') :=
    .of_sameCore htwin₁ hw hv rfl (m.tame_closingDeeds S.desk p)
  refine Keeps.after hclosed (Keeps.map (keeps_farewell hr.calls hdesk hdesk' ?_
    (htwin₁.congr hw hv) (hagree₁.congr hw hv)).deeds ?_)
  · rw [hw.lifecycle, hv.lifecycle, hgrows.left.lifecycle, hgrows.right.lifecycle]
    exact hlisteners.imp fun _ _ => .mono hgrows.le
  · intro ρ' _ _ _ _ hle _
    exact hks.imp fun _ _ => .mono hle

end

end Scene

end PackHost
