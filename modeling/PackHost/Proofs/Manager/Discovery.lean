import PackHost.Proofs.Manager.Deed
import PackHost.Proofs.Pack.Order

/-!
# What discovery keeps

Whatever is kept when one directory is looked into is kept when all of them are
(`discoverAll_induct`). So discovery leaves handlers alone, stays at its desk, and puts units into
packs one by one. What it finds in a directory with one script is `Sample.discoverPack_shelf`.
-/

namespace PackHost.Manager

open Pack

variable {ω γ κ : Type}

theorem discoverAll_induct {P : Manager ω γ κ → World ω γ → Prop} {t : Files.Tree}
    (kept : ∀ m directory w, P m w →
      P (m.discoverPack t directory w).1 (m.discoverPack t directory w).2)
    (ds : List Files.Path) {m : Manager ω γ κ} {w : World ω γ} (h : P m w) :
    P (discoverAll t ds (m, w)).1 (discoverAll t ds (m, w)).2 := by
  induction ds generalizing m w with
  | nil => exact h
  | cons directory ds ih => exact ih (kept m directory w h)

/-! ## What lasts -/

/-- A relation between worlds that no line of a console and no entry in the log breaks. -/
structure Lasting (R : World ω γ → World ω γ → Prop) : Prop where
  refl : ∀ w, R w w
  trans : ∀ {w w' w''}, R w w' → R w' w'' → R w w''
  say : ∀ w d level text, R w (w.say d level text)
  note : ∀ w entry, R w (w.note entry)

namespace Lasting

variable {R : World ω γ → World ω γ → Prop} (h : Lasting R)
include h

theorem letInAll (t : Files.Tree) (root : Files.Path) (d : Nat) (paths : List Files.Path)
    (k : ScriptPack κ) (w : World ω γ) : R w (letInAll t root d paths (k, w)).2 := by
  induction paths generalizing k w with
  | nil => exact h.refl w
  | cons path paths ih =>
    unfold Manager.letInAll
    split
    · exact ih _ w
    · exact h.trans (h.say w d _ _) (ih _ _)

theorem discoverPack (m : Manager ω γ κ) (t : Files.Tree) (directory : Files.Path)
    (w : World ω γ) : R w (m.discoverPack t directory w).2 := by
  simp only [Manager.discoverPack]
  split
  · exact h.letInAll t directory m.desk _ _ w
  · exact h.say w m.desk _ _

theorem discover (m : Manager ω γ κ) (t : Files.Tree) (w : World ω γ) :
    R w (m.discover t w).2.2 := by
  have hseed : R w (m.seed t w).2 := by
    simp only [seed]
    split
    · exact h.refl w
    · split
      · exact h.note w _
      · split
        · exact h.refl w
        · exact h.note w _
  refine discoverAll_induct (P := fun _ w' => R w w') ?_ _ hseed
  intro m directory w' hw
  exact h.trans hw (h.discoverPack m _ directory w')

end Lasting

/-! ## Handlers and the desk -/

theorem lasting_sameHandlers : Lasting (@SameHandlers ω γ) :=
  ⟨.refl, .trans, .say, fun w _ => .refl w⟩

theorem sameHandlers_discoverPack (m : Manager ω γ κ) (t : Files.Tree) (directory : Files.Path)
    (w : World ω γ) : SameHandlers w (m.discoverPack t directory w).2 :=
  lasting_sameHandlers.discoverPack m t directory w

theorem sameHandlers_discover (m : Manager ω γ κ) (t : Files.Tree) (w : World ω γ) :
    SameHandlers w (m.discover t w).2.2 :=
  lasting_sameHandlers.discover m t w

theorem desk_discoverPack (m : Manager ω γ κ) (t : Files.Tree) (directory : Files.Path)
    (w : World ω γ) : (m.discoverPack t directory w).1.desk = m.desk := by
  simp only [discoverPack]
  split <;> rfl

theorem desk_discover (m : Manager ω γ κ) (t : Files.Tree) (w : World ω γ) :
    (m.discover t w).1.desk = m.desk := by
  refine discoverAll_induct (P := fun m' _ => m'.desk = m.desk) ?_ _ rfl
  intro m' directory w' h
  exact (m'.desk_discoverPack _ directory w').trans h

theorem plan_discoverPack (m : Manager ω γ κ) (t : Files.Tree) (directory : Files.Path)
    (w : World ω γ) : (m.discoverPack t directory w).1.plan = m.plan := by
  simp only [discoverPack]
  split <;> rfl

theorem plan_discover (m : Manager ω γ κ) (t : Files.Tree) (w : World ω γ) :
    (m.discover t w).1.plan = m.plan := by
  refine discoverAll_induct (P := fun m' _ => m'.plan = m.plan) ?_ _ rfl
  intro m' directory w' h
  exact (m'.plan_discoverPack _ directory w').trans h

/-! ## What discovery depends on -/

theorem letInAll_eq (t : Files.Tree) (root : Files.Path) (d d' : Nat) (paths : List Files.Path)
    (k : ScriptPack κ) (w w' : World ω γ) :
    (letInAll t root d paths (k, w)).1 = (letInAll t root d' paths (k, w')).1 := by
  induction paths generalizing k w w' with
  | nil => rfl
  | cons path paths ih =>
    unfold letInAll
    split <;> exact ih _ _ _

def SameFinds (m m' : Manager ω γ κ) : Prop := m'.plan = m.plan ∧ m'.packs = m.packs

theorem SameFinds.discoverPack {m m' : Manager ω γ κ} (h : m.SameFinds m') (t : Files.Tree)
    (directory : Files.Path) (w w' : World ω γ) :
    (m.discoverPack t directory w).1.SameFinds (m'.discoverPack t directory w').1 := by
  obtain ⟨hplan, hpacks⟩ := h
  have hname : m'.packName directory = m.packName directory := by rw [packName, packName, hplan]
  have hsettings : ∀ name, m'.settingsOf name = m.settingsOf name := by
    intro name
    rw [settingsOf, settingsOf, hplan]
  simp only [Manager.discoverPack, hname, hsettings, hplan]
  split
  · exact ⟨rfl, by rw [letInAll_eq t directory m'.desk m.desk _ _ w' w, hpacks]⟩
  · exact ⟨rfl, by rw [hpacks]⟩

/-- What seeding does to the tree depends on the plan and on the tree only. -/
theorem seed_congr {m m' : Manager ω γ κ} (plan : m'.plan = m.plan) (t : Files.Tree)
    (w w' : World ω γ) : (m'.seed t w').1 = (m.seed t w).1 := by
  simp only [seed, plan]
  split
  · rfl
  · split
    · rfl
    · split <;> rfl

/-- What is found depends on the plan, on what was found before and on the tree, and on nothing
else. -/
theorem SameFinds.discover {m m' : Manager ω γ κ} (h : m.SameFinds m') (t : Files.Tree)
    (w w' : World ω γ) :
    (m.discover t w).1.SameFinds (m'.discover t w').1 ∧
      (m'.discover t w').2.1 = (m.discover t w).2.1 := by
  have hseed : (m'.seed t w').1 = (m.seed t w).1 := seed_congr h.1 t w w'
  have hall : ∀ (t : Files.Tree) (ds : List Files.Path) (m m' : Manager ω γ κ) (w w' : World ω γ),
      m.SameFinds m' → (discoverAll t ds (m, w)).1.SameFinds (discoverAll t ds (m', w')).1 := by
    intro t ds
    induction ds with
    | nil => exact fun _ _ _ _ h => h
    | cons directory ds ih => exact fun _ _ _ _ h => ih _ _ _ _ (h.discoverPack t directory _ _)
  simp only [Manager.discover, hseed, h.1]
  exact ⟨hall _ _ _ _ _ _ h, trivial⟩

/-! ## Packs -/

def Grown (m : Manager ω γ κ) : Prop := ∀ k ∈ m.packs, k.Grown

variable {m : Manager ω γ κ}

/-! ## A directory with one script -/

namespace Sample

def shelf (file : ScriptFile) : Files.Tree :=
  ⟨.directory [("scripts", .directory [(file.location, .file file.source.toUTF8 0)])], [], 0⟩

def shelved (file : ScriptFile) : ScriptPack κ :=
  (ScriptPack.empty "scripts" "" ⟨"scripts"⟩).push (.ofFile file)

/-- The script is found in this directory by its extension, and read as it is. -/
structure Fits (file : ScriptFile) (extension : String) : Prop where
  path : Files.Path.join ⟨"scripts"⟩ ⟨file.location⟩ = file.path
  components : file.path.components = [.normal "scripts", .normal file.location]
  plain : file.path.text ≠ "" ∧ Files.Tree.wantsDirectory file.path = false
  extension : file.path.extension? = some extension
  location : locationOf ⟨"scripts"⟩ file.path = .ok file.location
  text : String.fromUTF8? file.source.toUTF8 = some file.source
  parsed : ScriptFile.ofText file.location file.path file.source = .ok (some file)

variable {file : ScriptFile} {extension : String}

theorem locate_shelf (last : Bool) : (shelf file).locate last ⟨"scripts"⟩ =
    .ok (["scripts"], some (.directory [(file.location, .file file.source.toUTF8 0)])) := by
  have hcomponents : Files.Path.components ⟨"scripts"⟩ = [.normal "scripts"] := rfl
  simp [Files.Tree.locate, Files.Tree.follow, Files.Tree.wantsDirectory, Files.Tree.startOf,
    Files.Node.at?, Table.get?, shelf, hcomponents]

theorem contains_shelf : (shelf file).contains ⟨"scripts"⟩ = true := by
  rw [Files.Tree.contains, Files.Tree.find, locate_shelf]

theorem filesWithExtension_shelf (h : Fits file extension) :
    (shelf file).filesWithExtension ⟨"scripts"⟩ extension = [file.path] := by
  have hwalk : (shelf file).walk ⟨"scripts"⟩ =
      [(⟨"scripts"⟩, .directory [(file.location, .file file.source.toUTF8 0)]),
        (file.path, .file file.source.toUTF8 0)] := by
    simp only [Files.Tree.walk, locate_shelf, ← h.path]
    rfl
  rw [Files.Tree.filesWithExtension, if_pos contains_shelf, hwalk]
  simp [Files.Node.isDirectory, h.extension]

theorem read_shelf (h : Fits file extension) :
    ScriptFile.read (shelf file) ⟨"scripts"⟩ file.path = .ok (some file) := by
  have hread : (shelf file).read file.path = .ok file.source.toUTF8 := by
    simp [Files.Tree.read, Files.Tree.find, Files.Tree.locate, Files.Tree.follow,
      Files.Tree.startOf, Files.Node.at?, Files.Node.child?, Files.Node.isDirectory, Table.get?,
      shelf, h.components, h.plain]
  rw [ScriptFile.read, h.location, hread]
  simp only [h.text]
  exact h.parsed

theorem discoverPack_shelf (h : Fits file m.plan.engine.extension) (hpacks : m.packs = [])
    (hsettings : m.settingsOf "scripts" = .default) (w : World ω γ) :
    m.discoverPack (shelf file) ⟨"scripts"⟩ w = ({ m with packs := [shelved file] }, w) := by
  have hname : m.packName ⟨"scripts"⟩ = "scripts" := by
    rw [packName, show Files.Path.fileName? ⟨"scripts"⟩ = some "scripts" by decide]
    rfl
  have hfound : letInAll (shelf file) ⟨"scripts"⟩ m.desk [file.path]
      ((ScriptPack.empty "scripts" "" ⟨"scripts"⟩ : ScriptPack κ), w) = (shelved file, w) := by
    simp only [letInAll, letIn, read_shelf h]
    rfl
  rw [discoverPack, hname, hsettings, filesWithExtension_shelf h]
  simp only [PackSettings.default, Option.getD_none, hfound, hpacks]
  rfl

theorem seed_shelf (hdirectory : m.plan.directory = ⟨"scripts"⟩) (w : World ω γ) :
    m.seed (shelf file) w = (shelf file, w) := by
  rw [seed, hdirectory, if_pos contains_shelf]

/-- A manager that looks into this directory only finds the script. -/
theorem discover_shelf (h : Fits file m.plan.engine.extension)
    (hdirectory : m.plan.directory = ⟨"scripts"⟩) (hextra : m.plan.extra = [])
    (hsettings : m.plan.settings = []) (hpacks : m.packs = []) (w : World ω γ) :
    m.discover (shelf file) w =
      ({ m with packs := [shelved file], state := .discovered }, shelf file, w) := by
  have hdefault : m.settingsOf "scripts" = .default := by
    rw [settingsOf, hsettings]
    rfl
  rw [discover, seed_shelf hdirectory, hdirectory, hextra]
  simp only [discoverAll, discoverPack_shelf h hpacks hdefault]

end Sample

end PackHost.Manager
