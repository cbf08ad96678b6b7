import PackHost.Manager.Plan
import PackHost.Proofs.Manager.HostCall
import PackHost.Proofs.Manager.Trace
import PackHost.Proofs.Language.Fresh
import PackHost.Proofs.Script.Laws

/-!
# The contexts with which packs begin

What a manager hands to the engine first for a pack, in a load, goes to a context that was made just
now (`openings_of_load`). For a manager of scripts whose settings block names, this is a context
that shows the namespace of the load without the standard names and the blocked ones. The main
statement is `fresh_contexts`.
-/

namespace PackHost

open Pack

variable {ω γ κ : Type}

/-! ## Namespaces are in order -/

namespace World

theorem ordered_bindRoles (d : Nat) (roles : List DeskRole) {s : Registry × World ω γ}
    (h : s.1.Ordered) : (bindRoles d roles s).1.Ordered := by
  induction roles generalizing s with
  | nil => exact h
  | cons role roles ih =>
    have hwritten := h.write (.function (s.2.newHandle role.name (some role.arity)))
    exact ih (s := (_, s.2.define (.desk d role))) hwritten

/-- Whatever registrars write, the namespace of a load is in order. -/
theorem ordered_collect (w : World ω γ) (d : Nat) (kind : ScriptKind) :
    (w.collect d kind).1.Ordered :=
  ordered_bindRoles d _ ((Registry.ordered_empty.collect kind _).foldl_write _)

end World

/-! ## What is handed over first -/

namespace Deed

/-- What is handed over first for a pack goes to a context with the given property. -/
def Opens (P : String → κ → Prop) (ds : List (Deed ω γ κ)) : Prop :=
  ∀ before pack location text c after, ds = before ++ .handed pack location text c :: after →
    pack ∉ (handings before).map Prod.fst → P pack c

variable {P Q : String → κ → Prop} {ds es : List (Deed ω γ κ)}

theorem Opens.imp (h : ∀ pack c, P pack c → Q pack c) (hopens : Opens P ds) : Opens Q ds :=
  fun before pack location text c after hds hpack =>
    h pack c (hopens before pack location text c after hds hpack)

theorem opens_of_handings (h : handings ds = []) : Opens P ds := by
  rintro before pack location text c after rfl
  simp [handings, handed?] at h

theorem Opens.append (h : Opens P ds) (h' : Opens P es) : Opens P (ds ++ es) := by
  intro before pack location text c after hsplit hpack
  rcases List.append_eq_append_iff.1 hsplit with ⟨more, rfl, hes⟩ | ⟨more, hds, hrest⟩
  · refine h' more pack location text c after hes fun hmore => hpack ?_
    rw [handings_append, List.map_append]
    exact List.mem_append_right _ hmore
  · cases more with
    | nil =>
      refine h' [] pack location text c after hrest.symm List.not_mem_nil
    | cons a more =>
      obtain ⟨rfl, rfl⟩ := List.cons.inj hrest
      exact h before pack location text c more hds hpack

end Deed

namespace Manager

section

variable {plan : Plan ω γ κ} {d : Nat} {r : Runner ω γ}

/-- Only the first text of a pack goes to the context with which its turns begin. -/
theorem Turns.opens {pack : String} {ts : List (String × String)} {c c' : κ} {w : World ω γ}
    {ds : List (Deed ω γ κ)} (h : Turns plan r pack ts c w ds c') :
    Deed.Opens (fun p x => p = pack ∧ x = c) ds := by
  induction h with
  | nil c w => exact Deed.opens_of_handings rfl
  | @own ts c c' w a ds ha _ ih =>
    have hfirst : Deed.Opens (fun p x => p = pack ∧ x = c) [a] :=
      Deed.opens_of_handings (Deed.handings_of_isOwn (List.forall_mem_singleton.2 ha))
    exact hfirst.append ih
  | @run location text ts c c₁ c' w ended as ds _ hrest _ =>
    intro before p place script x after hsplit hp
    cases before with
    | nil =>
      cases hsplit
      exact ⟨rfl, rfl⟩
    | cons a before =>
      -- what comes later is for the same pack, so it is not the first
      obtain ⟨rfl, hrests⟩ := List.cons.inj hsplit
      have htail : as.map .act ++ .finished ended c₁ :: ds =
          before ++ .handed p place script x :: after := hrests
      have hlater : (p, place, script) ∈
          Deed.handings (as.map .act ++ .finished ended c₁ :: ds) := by
        rw [htail]
        simp [Deed.handings, Deed.handed?]
      have hpack : p = pack := by
        have hall : Deed.handings (as.map .act ++ .finished ended c₁ :: ds) =
            ts.map fun t => (pack, t) := by
          rw [← hrest.handings, Deed.handings_append, Deed.handings_map_act]
          rfl
        rw [hall] at hlater
        obtain ⟨t, -, ht⟩ := List.mem_map.1 hlater
        exact (congrArg Prod.fst ht).symm
      exact absurd (List.mem_cons_self ..) (hpack ▸ hp)

theorem Turns.eq_of_nil {pack : String} {ts : List (String × String)} {c c' : κ} {w : World ω γ}
    {ds : List (Deed ω γ κ)} (h : Turns plan r pack ts c w ds c') (hts : ts = []) : c' = c := by
  induction h with
  | nil => rfl
  | own _ _ ih => exact ih hts
  | run => cases hts

theorem PackTurns.opens {globals : Table Global} {ks : List (ScriptPack κ)} {w : World ω γ}
    {ds : List (Deed ω γ κ)} {cs : List (Option κ)} (h : PackTurns plan r globals ks w ds cs) :
    Deed.Opens (fun p c => plan.engine.create ⟨p, globals, plan.restriction⟩ = .ok c) ds := by
  induction h with
  | nil w => exact Deed.opens_of_handings rfl
  | refused _ hown _ ih =>
    exact (Deed.opens_of_handings (Deed.handings_of_isOwn hown)).append ih
  | granted hc hturns _ ih =>
    refine (hturns.opens.imp ?_).append ih
    rintro p x ⟨rfl, rfl⟩
    exact hc

/-- What there is to run depends on the scripts only. -/
theorem handouts_of_scripts {k k' : ScriptPack κ} (h : k'.scripts = k.scripts) :
    k'.handouts = k.handouts := by
  have hhandouts : ∀ k : ScriptPack κ, k.handouts = k.scripts.2.filterMap fun s =>
      (ScriptUnit.handout? ⟨s.1, s.2, .pending⟩).map fun t => (k.scripts.1, t) := by
    intro k
    rw [ScriptPack.scripts, List.filterMap_map]
    rfl
  rw [hhandouts, hhandouts, h]

/-- A pack that has nothing to run keeps the context that was made for it as it is. -/
theorem create_of_loadPack {globals : Table Global} {k k' : ScriptPack κ} {p p' : Pass ω γ}
    (h : loadPack plan d r globals k p = some (k', p')) (hnone : k'.handouts = []) {c : κ}
    (hc : k'.context = some c) :
    plan.engine.create ⟨k'.name, globals, plan.restriction⟩ = .ok c := by
  have hscripts := (accounted_of_loadPack h).2
  rw [handouts_of_scripts hscripts, ScriptPack.handouts, List.filterMap_eq_nil_iff] at hnone
  rcases loadPack_eq_some h with ⟨f, -, rfl, -⟩ | ⟨c₀, c', us, hcreate, hus, rfl⟩
  · cases hc
  · cases hc
    obtain ⟨ds, hds, -⟩ := unitsDeeds_of_runUnits k.name hus
    have hnothing : k.units.filterMap ScriptUnit.handout? = [] := by
      refine List.filterMap_eq_nil_iff.2 fun u hu => ?_
      exact Option.map_eq_none_iff.1 (hnone u hu)
    rw [(turns_of_runUnits hus hds).eq_of_nil hnothing]
    exact hcreate

theorem create_of_loadPacks {globals : Table Global} {ks ks' : List (ScriptPack κ)}
    {p p' : Pass ω γ} (h : loadPacks plan d r globals ks p = some (ks', p')) :
    ∀ k ∈ ks', k.handouts = [] → ∀ c, k.context = some c →
      plan.engine.create ⟨k.name, globals, plan.restriction⟩ = .ok c := by
  induction ks generalizing p ks' with
  | nil =>
    cases h
    intro k hk
    cases hk
  | cons k ks ih =>
    obtain ⟨k₁, p₁, ks₁, hk, hks, rfl⟩ := loadPacks_cons_eq_some h
    intro x hx hnone c hc
    rcases List.mem_cons.1 hx with rfl | hx
    · exact create_of_loadPack hk hnone hc
    · exact ih hks x hx hnone c hc

end

/-- **A load begins every pack in a fresh context.** What is handed over first for a pack goes to a
context that was made for it from the namespace of this load, and a pack that has nothing to run
has such a context afterwards, if it has one at all. -/
theorem openings_of_load {m m' : Manager ω γ κ} {r : Runner ω γ} {w w' : World ω γ}
    (h : m.load r w = some (m', w')) :
    let made : String → κ → Prop := fun pack c =>
      m.plan.engine.create ⟨pack, m'.registry.merged, m.plan.restriction⟩ = .ok c
    (∃ deeds, m.chronicle r w = some deeds ∧ Deed.replay deeds w = w' ∧ Deed.Opens made deeds) ∧
    ∀ k ∈ m'.packs, k.handouts = [] → ∀ c, k.context = some c → made k.name c := by
  intro made
  obtain ⟨deeds, hdeeds, hreplay⟩ := exists_chronicle h
  obtain ⟨packs, p, hp, rfl, hfarewell⟩ := load_eq_some h
  obtain ⟨ds, hds, -⟩ := packsDeeds_of_loadPacks hp
  obtain ⟨⟨_, as⟩, has, -⟩ := Option.map_eq_some_iff.mp hfarewell
  refine ⟨⟨deeds, hdeeds, hreplay, ?_⟩, create_of_loadPacks hp⟩
  simp only [chronicle, hp, hds, has, Option.map_some, Option.some.injEq] at hdeeds
  rw [← hdeeds]
  have hbefore : Deed.Opens made
      ([.forgot m.desk, .gathered m.desk m.plan.kind] : List (Deed ω γ κ)) :=
    Deed.opens_of_handings rfl
  have hafter : Deed.Opens made
      ([.switched m.desk none, .said m.desk (m.closingLine p).level (m.closingLine p).text] :
        List (Deed ω γ κ)) :=
    Deed.opens_of_handings rfl
  exact ((hbefore.append (packTurns_of_loadPacks hp hds).opens).append hafter).append
    (Deed.opens_of_handings (Deed.handings_map_act as))

/-! ## Managers of scripts -/

section

variable {L : Language}

/-- **Fresh contexts show the namespace and nothing that is kept from scripts.** The engine makes a
context for every namespace, and the context shows the namespace without the names that are kept
from scripts. If settings decide what a manager does, then every context that it makes hides the
standard names and the blocked ones, whatever the host does with the manager and whatever
registrars write. In a load, what is handed over first for a pack goes to a context that shows the
namespace of the load in this way, and so does the context of a pack that has nothing to run. -/
theorem fresh_contexts (hl : L.Lossless) (hs : L.Scoped) (p : Language.Port L ω γ) :
    (∀ (limits : Limits) (pack : String) (globals : Table Global) (restriction : Restriction),
      globals.Sorted → ∃ c,
        (Language.engine p limits).create ⟨pack, globals, restriction⟩ = .ok c ∧
        c.Shows p globals restriction) ∧
    ∀ (s : Config.Settings) (e : Config.Environment) (kind : ScriptKind) (desk : Nat)
      (r : Runner ω γ) (calls : List (HostCall ω γ)) (m : Manager ω γ L.Context)
      (w₀ w : World ω γ),
      HostCall.performAll r calls
        (create (Plan.ofSettings s e kind (Language.engine p)) desk) w₀ = some (m, w) →
      let secret : String → Prop := fun name =>
        Restriction.standard.contains name = true ∨ name ∈ s.blocked
      (∀ pack globals, ∃ c,
        m.plan.engine.create ⟨pack, globals, m.plan.restriction⟩ = .ok c ∧
        ∀ name, secret name → c.Hides p name) ∧
      ∀ m' w', m.load r w = some (m', w') →
        let opening : L.Context → Prop := fun c =>
          c.Shows p m'.registry.merged s.restriction ∧
          ∀ name, secret name → c.Hides p name
        (∃ deeds, m.chronicle r w = some deeds ∧ Deed.replay deeds w = w' ∧
          Deed.Opens (fun _ => opening) deeds) ∧
        ∀ k ∈ m'.packs, k.handouts = [] → ∀ c, k.context = some c → opening c := by
  refine ⟨fun limits pack globals restriction sorted => ⟨_, rfl, ?_⟩, ?_⟩
  · exact Language.Context.shows_ofSpec limits hl hs p sorted
  intro s e kind desk r calls m w₀ w hcalls secret
  have hplan : m.plan = Plan.ofSettings s e kind (Language.engine p) :=
    HostCall.plan_performAll hcalls
  -- the settings keep the standard names and the blocked ones from scripts
  have hsecret : ∀ name, secret name → s.restriction.contains name = true :=
    fun name h => Restriction.contains_extend.2 h
  have hhides : ∀ pack globals name, secret name →
      (Language.Context.ofSpec L s.limits ⟨pack, globals, s.restriction⟩).Hides p name :=
    fun pack globals name h => Language.Context.hides_ofSpec s.limits hs p (hsecret name h)
  refine ⟨fun pack globals => ?_, fun m' w' hload => ?_⟩
  · rw [hplan]
    exact ⟨_, rfl, hhides pack globals⟩
  · intro opening
    obtain ⟨⟨deeds, hdeeds, hreplay, hopens⟩, hidle⟩ := openings_of_load hload
    have hsorted : m'.registry.merged.Sorted := by
      obtain ⟨packs, pass, -, rfl, -⟩ := load_eq_some hload
      exact (World.ordered_collect _ _ _).merged
    have hmade : ∀ pack c,
        m.plan.engine.create ⟨pack, m'.registry.merged, m.plan.restriction⟩ = .ok c →
          opening c := by
      intro pack c hc
      rw [hplan] at hc
      cases hc
      exact ⟨Language.Context.shows_ofSpec s.limits hl hs p hsorted, hhides pack _⟩
    exact ⟨⟨deeds, hdeeds, hreplay, hopens.imp hmade⟩,
      fun k hk hnone c hc => hmade k.name c (hidle k hk hnone c hc)⟩

end

/-! ## A small host of scripts -/

namespace Sample

def settings : Config.Settings := { Config.Settings.default with blocked := ["spawn"] }

def scripting : Manager Script.Heap Script.Callback Script.Context :=
  create (Plan.ofSettings settings ⟨none, none, none, none⟩ .server (Script.engine .whole id)) 0

def binder : Registrar := .ofSteps none
  [.write (.binding "spawn" (.int 7)), .write (.constant "exit" (.text "now")),
    .write (.function ⟨"debug", none, 0⟩), .write (.constant "depth" (.int 3))]

def bound : World Script.Heap Script.Callback :=
  { (World.fresh Script.Heap.empty).addDesk .kept with registrars := [binder] }

def written : Table Global := [("depth", ⟨.int 3, true⟩), ("exit", ⟨.text "now", true⟩)]

theorem sorted_written : written.Sorted := by
  simp only [Table.Sorted, written]
  decide

def depth : ScriptFile := ⟨"a.rhai", ⟨"scripts/a.rhai"⟩, 0, "depth"⟩

theorem fits_depth : Fits depth "rhai" where
  path := rfl
  components := rfl
  plain := by decide
  extension := rfl
  location := rfl
  text := rfl
  parsed := rfl

def stocked : Manager Script.Heap Script.Callback Script.Context :=
  { scripting with packs := [shelved depth] }

theorem performAll_shelf : HostCall.performAll Script.bareRunner
    [.discoverPack (shelf depth) ⟨"scripts"⟩] scripting bound = some (stocked, bound) := by
  have hfound : scripting.discoverPack (shelf depth) ⟨"scripts"⟩ bound = (stocked, bound) :=
    discoverPack_shelf fits_depth rfl rfl bound
  simp only [HostCall.performAll, HostCall.perform, hfound, Option.bind_some]

end Sample

/-- A context shows one of two names, and the script runs in a context that shows, of all that the
registrar wrote, only what is not kept from scripts. -/
theorem fresh_contexts_sample :
    (∃ c, (Script.engine Part.whole id .default).create ⟨"scripts", Sample.written, .standard⟩ =
        .ok c ∧
      c.global Script.barePort "depth" = .done (some (.int 3)) ∧
      c.global Script.barePort "exit" = .done none) ∧
    ∃ m' w' before c after,
      HostCall.performAll Script.bareRunner
        [.discoverPack (Sample.shelf Sample.depth) ⟨"scripts"⟩] Sample.scripting Sample.bound =
          some (Sample.stocked, Sample.bound) ∧
      Sample.stocked.load Script.bareRunner Sample.bound = some (m', w') ∧
      Sample.stocked.chronicle Script.bareRunner Sample.bound =
        some (before ++ .handed "scripts" "a.rhai" "depth" c :: after) ∧
      (∀ name ∈ ["spawn", "exit", "debug"], m'.registry.merged.contains name = true ∧
        c.has name = false ∧ c.global Script.barePort name = .done none) ∧
      c.has "depth" = true := by
  obtain ⟨hcontexts, hmanagers⟩ := fresh_contexts Script.language_lossless
    Script.language_scoped Script.barePort
  constructor
  · obtain ⟨c, hcreate, hshows⟩ := hcontexts .default "scripts" _ .standard Sample.sorted_written
    exact ⟨c, hcreate, (hshows.global "depth").trans (by rfl), (hshows.global "exit").trans (by rfl)⟩
  have hloaded : (Sample.stocked.load Script.bareRunner Sample.bound).map (fun s =>
      ["spawn", "exit", "debug", "depth"].map fun name => s.1.registry.merged.contains name) =
        some [true, true, true, true] := by decide +kernel
  obtain ⟨⟨m', w'⟩, hload, hwritten⟩ := Option.map_eq_some_iff.mp hloaded
  have hhandings : (Sample.stocked.chronicle Script.bareRunner Sample.bound).map Deed.handings =
      some [("scripts", "a.rhai", "depth")] := by decide +kernel
  obtain ⟨deeds, hdeeds, hhandings⟩ := Option.map_eq_some_iff.mp hhandings
  obtain ⟨before, a, after, hsplit, hnothing, ha, -⟩ := List.filterMap_eq_cons_iff.mp hhandings
  obtain ⟨c, rfl⟩ : ∃ c, a = .handed "scripts" "a.rhai" "depth" c := by
    cases a <;> cases ha
    exact ⟨_, rfl⟩
  obtain ⟨-, hloads⟩ := hmanagers _ _ _ _ _ _ _ _ _ Sample.performAll_shelf
  obtain ⟨⟨deeds', hdeeds', -, hopens⟩, -⟩ := hloads m' w' hload
  rw [hdeeds] at hdeeds'
  cases hdeeds'
  have hfirst : "scripts" ∉ (Deed.handings before).map Prod.fst := by
    rw [Deed.handings, List.filterMap_eq_nil_iff.mpr hnothing]
    exact List.not_mem_nil
  obtain ⟨hshows, hhides⟩ := hopens before _ _ _ c after hsplit hfirst
  simp only [List.map_cons, List.map_nil, List.cons.injEq] at hwritten
  obtain ⟨hspawn, hexit, hdebug, hdepth, -⟩ := hwritten
  refine ⟨m', w', before, c, after, Sample.performAll_shelf, hload,
    hdeeds.trans (congrArg some hsplit), ?_, ?_⟩
  · have hsecret : ∀ name ∈ ["spawn", "exit", "debug"],
        Restriction.standard.contains name = true ∨ name ∈ Sample.settings.blocked := by
      decide
    intro name hname
    have hhidden := hhides name (hsecret name hname)
    refine ⟨?_, hhidden.has, hhidden.global⟩
    simp only [List.mem_cons, List.not_mem_nil, or_false] at hname
    rcases hname with rfl | rfl | rfl
    · exact hspawn
    · exact hexit
    · exact hdebug
  · exact (hshows.has "depth").mpr ⟨hdepth, rfl⟩

end Manager

end PackHost
