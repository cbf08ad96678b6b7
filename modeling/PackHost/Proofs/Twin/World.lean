import PackHost.Proofs.Twin.Program
import PackHost.Proofs.World.Register

/-!
# Worlds side by side

`Scene.Twin` says that what is linked of two worlds does alike and that the buses of the desk hold
the same, apart from what was there before. `Scene.Grows` says how far both worlds and the link have
come since, and what of them was spared: whatever is not linked.
-/

namespace PackHost

open Event

variable {ω γ κ α β α' β' : Type}

/-! ## Lists of linked numbers -/

/-- Filters that agree on related items leave related items. -/
theorem rel_filter_of_iff {σ τ : Type} {R : σ → τ → Prop} {p : σ → Bool} {q : τ → Bool}
    (hpq : ∀ a b, R a b → (p a ↔ q b)) {as : List σ} {bs : List τ} (h : List.Forall₂ R as bs) :
    List.Forall₂ R (as.filter p) (bs.filter q) :=
  List.rel_filter (fun {a b} hab => hpq a b hab) h

/-- Since no number has two partners, linked numbers are in linked lists or outside of them. -/
theorem contains_iff_of_linked {ρ : Link} {k : Kind} {i j : Nat} {is js : List Nat}
    (hij : ρ k i j) (h : List.Forall₂ (ρ k) is js) : i ∈ is ↔ j ∈ js := by
  induction h with
  | nil => simp
  | cons hab _ ih =>
    rw [List.mem_cons, List.mem_cons, ih]
    refine or_congr_left ⟨?_, ?_⟩
    · rintro rfl
      exact ρ.right_unique hij hab
    · rintro rfl
      exact ρ.left_unique hij hab

/-! ## Worlds that differ in their lines only -/

/-- The worlds are the same apart from lines, the log, the current units and other desks. -/
structure World.SameCore (d : Nat) (w w' : World ω γ) : Prop where
  functions : w'.functions = w.functions
  state : w'.state = w.state
  lifecycle : w'.lifecycle = w.lifecycle
  registrars : w'.registrars.map Registrar.body = w.registrars.map Registrar.body
  desks : w'.desks.size = w.desks.size
  bus : (w'.desk d).bus = (w.desk d).bus

namespace World.SameCore

variable {d : Nat} {w w' w'' : World ω γ}

theorem refl (d : Nat) (w : World ω γ) : SameCore d w w :=
  ⟨rfl, rfl, rfl, rfl, rfl, rfl⟩

theorem trans (h : SameCore d w w') (h' : SameCore d w' w'') : SameCore d w w'' where
  functions := h'.functions.trans h.functions
  state := h'.state.trans h.state
  lifecycle := h'.lifecycle.trans h.lifecycle
  registrars := h'.registrars.trans h.registrars
  desks := h'.desks.trans h.desks
  bus := h'.bus.trans h.bus

theorem note (w : World ω γ) (entry : LogEntry) : SameCore d w (w.note entry) :=
  ⟨rfl, rfl, rfl, rfl, rfl, rfl⟩

theorem changeDesk (w : World ω γ) (e : Nat) {f : Desk → Desk} (hf : ∀ k, (f k).bus = k.bus) :
    SameCore d w (w.changeDesk e f) where
  functions := rfl
  state := rfl
  lifecycle := rfl
  registrars := rfl
  desks := size_changeDesk w e f
  bus := changeDesk_induct (R := fun k k' => k'.bus = k.bus) w e (fun _ => rfl) hf d

theorem setUnit (w : World ω γ) (e : Nat) (location : Option String) :
    SameCore d w (w.setUnit e location) :=
  changeDesk w e fun _ => rfl

theorem say (w : World ω γ) (e : Nat) (level : Level) (text : String) :
    SameCore d w (w.say e level text) := by
  have hline : SameCore d w (w.changeDesk e fun k => { k with lines := ⟨level, text⟩ :: k.lines }) :=
    changeDesk w e fun _ => rfl
  unfold World.say
  cases (w.desk e).sink with
  | kept => exact hline
  | logged kind => exact hline.trans (.note _ _)

theorem settle (l : Listener) (e : Nat) (event : String) (ended : Outcome Value)
    (w : World ω γ) : SameCore d w (l.settle e event ended w) := by
  rcases l.settle_cases e event ended w with h | ⟨entry, h⟩ | ⟨text, h⟩
  · rw [h]
    exact .refl d w
  · rw [h]
    exact .note w entry
  · rw [h]
    exact .say w e .error text

end World.SameCore

theorem World.getElem?_define {w : World ω γ} {i : Nat} {e : Code ω γ}
    (h : w.functions[i]? = some e) (c : Code ω γ) : (w.define c).functions[i]? = some e := by
  have hlt : i < w.functions.size := (Array.getElem?_eq_some_iff.mp h).1
  rw [define, Array.getElem?_push, if_neg (Nat.ne_of_lt hlt)]
  exact h

/-! ## Edits of a bus -/

namespace Act

def isEdit : Act ω γ → Bool
  | .listened .. => true
  | .removed .. => true
  | .cleared .. => true
  | _ => false

theorem apply_of_isEdit {a : Act ω γ} (h : a.isEdit) (w : World ω γ) :
    (a.apply w).functions = w.functions ∧ (a.apply w).state = w.state ∧
      (a.apply w).lifecycle = w.lifecycle ∧ (a.apply w).registrars = w.registrars := by
  cases a with
  | listened d event l => cases l <;> exact ⟨rfl, rfl, rfl, rfl⟩
  | removed d ids => exact ⟨rfl, rfl, rfl, rfl⟩
  | cleared d => exact ⟨rfl, rfl, rfl, rfl⟩
  | _ => cases h

end Act

/-- No act adds a listener of the host, or takes one away. -/
theorem lifecycle_replay (as : List (Act ω γ)) (w : World ω γ) :
    (replay as w).lifecycle = w.lifecycle := by
  induction as generalizing w with
  | nil => rfl
  | cons a as ih =>
    refine (ih _).trans ?_
    cases a with
    | listened d event l => cases l <;> rfl
    | told d level message => exact (World.SameCore.say (d := d) w d level _).lifecycle
    | left d event g ended => exact (World.SameCore.settle (d := d) g.2 d event ended w).lifecycle
    | _ => rfl

/-! ## Worlds that are alike -/

/-- Registrations that are linked, under one name, with handlers that are linked. -/
structure Event.Entry.Linked (ρ : Link) (e e' : Entry Listener) : Prop where
  number : ρ .registration e.number e'.number
  event : e.event = e'.event
  handler : e.handler.Linked ρ e'.handler

theorem Event.Entry.Linked.mono {ρ ρ' : Link} (h : ρ ≤ ρ') {e e' : Entry Listener}
    (he : e.Linked ρ e') : e.Linked ρ' e' :=
  ⟨h _ _ _ he.number, he.event, he.handler.mono h⟩

namespace Scene

variable (S : Scene ω γ κ)

/-- What stands behind linked functions: functions of the host that do alike whatever happened
before, functions of engines that do the same, or the same function of the desk. -/
inductive CodeLinked (ρ : Link) : Code ω γ → Code ω γ → Prop
  | native {body body' : Native ω γ} :
      (∀ ρ₁ s s' args args', ρ ≤ ρ₁ → S.Agree ρ₁ s s' →
        List.Forall₂ (Value.Linked ρ₁) args args' →
        S.Alike Outcome.Linked ρ₁ s s' (body args) (body' args')) →
      CodeLinked ρ (.native body) (.native body')
  | closure {c c' : γ} : S.code ρ c c' → CodeLinked ρ (.closure c) (.closure c')
  | desk (role : DeskRole) : CodeLinked ρ (.desk S.desk role) (.desk S.desk role)

variable {S} in
theorem CodeLinked.mono {ρ ρ' : Link} (h : ρ ≤ ρ') {c c' : Code ω γ} (hc : S.CodeLinked ρ c c') :
    S.CodeLinked ρ' c c' := by
  cases hc with
  | native hbody =>
    exact .native fun ρ₁ s s' args args' hle => hbody ρ₁ s s' args args' (Link.le_trans h hle)
  | closure hcode => exact .closure (S.code_mono h hcode)
  | desk role => exact .desk role

def Given (w : World ω γ) : Kind → Nat → Prop
  | .function, i => i < w.functions.size
  | .realm, i => S.part w.state i ≠ none
  | .registration, i => i < (w.desk S.desk).bus.next

/-- What a world has become: functions stay what they are, no number is given twice, and the parts
of the state that are not linked are the same. -/
structure Kept (linked : Nat → Prop) (w w' : World ω γ) : Prop where
  functions : ∀ (i : Nat) (c : Code ω γ), w.functions[i]? = some c → w'.functions[i]? = some c
  size : w.functions.size ≤ w'.functions.size
  next : (w.desk S.desk).bus.next ≤ (w'.desk S.desk).bus.next
  spares : S.Spares linked w.state w'.state
  lifecycle : w'.lifecycle = w.lifecycle
  registrars : w'.registrars.map Registrar.body = w.registrars.map Registrar.body
  desks : w'.desks.size = w.desks.size

/-- What two worlds and their link have become: new pairs are of numbers that were not given
before. -/
structure Grows (ρ : Link) (w v : World ω γ) (ρ' : Link) (w' v' : World ω γ) : Prop where
  le : ρ ≤ ρ'
  fresh : ∀ k a b, ρ' k a b → ρ k a b ∨ (¬S.Given w k a ∧ ¬S.Given v k b)
  left : S.Kept (ρ.HasRight .realm) w w'
  right : S.Kept (ρ.HasLeft .realm) v v'

structure Paired (ρ : Link) (w v : World ω γ) : Prop where
  codes : ∀ a b, ρ .function a b → ∃ c c',
    w.functions[a]? = some c ∧ v.functions[b]? = some c' ∧ S.CodeLinked ρ c c'
  numbers : ∀ a b, ρ .registration a b →
    a < (w.desk S.desk).bus.next ∧ b < (v.desk S.desk).bus.next
  left : S.desk < w.desks.size
  right : S.desk < v.desks.size

/-- The bus at the desk holds these registrations, in order. -/
def Holds (w : World ω γ) (es : List (Entry Listener)) : Prop :=
  ∃ log, (w.desk S.desk).bus.Mirrors log ∧ log.entries = es

/-- Moreover, behind the registrations `base` and `base'`, of which nothing is known, the desks of
the worlds have the same ones. -/
structure Twin (base base' : List (Entry Listener)) (ρ : Link) (w v : World ω γ) : Prop
    extends S.Paired ρ w v where
  bus : ∃ l l' news news', (w.desk S.desk).bus.Mirrors l ∧ (v.desk S.desk).bus.Mirrors l' ∧
    l.entries = base ++ news ∧ l'.entries = base' ++ news' ∧
    List.Forall₂ (Entry.Linked ρ) news news'
  base : S.strict → base = [] ∧ base' = []

variable {S}

/-! ## What becomes of a world -/

theorem Spares.refl (linked : Nat → Prop) (s : ω) : S.Spares linked s s :=
  ⟨fun _ h => h, fun _ _ _ => rfl⟩

theorem Spares.trans {linked linked' : Nat → Prop} {s t u : ω} (h : S.Spares linked s t)
    (h' : S.Spares linked' t u) (hlinked : ∀ k, S.part s k ≠ none → linked' k → linked k) :
    S.Spares linked s u := by
  refine ⟨fun k hk => h'.kept k (h.kept k hk), fun k hk hn => ?_⟩
  rw [h'.same k (h.kept k hk) fun hl => hn (hlinked k hk hl), h.same k hk hn]

namespace Kept

variable {linked linked' : Nat → Prop} {w w' w'' : World ω γ}

theorem refl (linked : Nat → Prop) (w : World ω γ) : S.Kept linked w w where
  functions _ _ h := h
  size := Nat.le_refl _
  next := Nat.le_refl _
  spares := .refl _ _
  lifecycle := rfl
  registrars := rfl
  desks := rfl

theorem trans (h : S.Kept linked w w') (h' : S.Kept linked' w' w'')
    (hlinked : ∀ k, S.part w.state k ≠ none → linked' k → linked k) : S.Kept linked w w'' where
  functions i c hc := h'.functions i c (h.functions i c hc)
  size := Nat.le_trans h.size h'.size
  next := Nat.le_trans h.next h'.next
  spares := h.spares.trans h'.spares hlinked
  lifecycle := h'.lifecycle.trans h.lifecycle
  registrars := h'.registrars.trans h.registrars
  desks := h'.desks.trans h.desks

theorem given (h : S.Kept linked w w') {k : Kind} {i : Nat} (hi : S.Given w k i) :
    S.Given w' k i := by
  cases k with
  | function => exact Nat.lt_of_lt_of_le hi h.size
  | realm => exact h.spares.kept i hi
  | registration => exact Nat.lt_of_lt_of_le hi h.next

theorem of_sameCore (h : World.SameCore S.desk w w') : S.Kept linked w w' where
  functions i c hc := by rwa [h.functions]
  size := Nat.le_of_eq (congrArg Array.size h.functions).symm
  next := Nat.le_of_eq (congrArg Bus.next h.bus).symm
  spares := by
    rw [h.state]
    exact .refl _ _
  lifecycle := h.lifecycle
  registrars := h.registrars
  desks := h.desks

/-- Registering and taking out handlers spares everything but buses. -/
theorem edit {a : Act ω γ} (ha : a.isEdit) (w : World ω γ) : S.Kept linked w (a.apply w) := by
  obtain ⟨hfunctions, hstate, hlifecycle, hregistrars⟩ := Act.apply_of_isEdit ha w
  have hnext : (w.desk S.desk).bus.next ≤ ((a.apply w).desk S.desk).bus.next := by
    have hchange : ∀ (e : Nat) (f : Desk → Desk), (∀ k : Desk, k.bus.next ≤ (f k).bus.next) →
        (w.desk S.desk).bus.next ≤ ((w.changeDesk e f).desk S.desk).bus.next := by
      intro e f hf
      exact World.changeDesk_induct (R := fun k k' => k.bus.next ≤ k'.bus.next) w e
        (fun _ => Nat.le_refl _) hf S.desk
    cases a with
    | listened e event l => cases l <;> exact hchange e _ fun k => Nat.le_succ _
    | removed e ids => exact hchange e _ fun k => Nat.le_refl _
    | cleared e => exact hchange e _ fun k => Nat.le_refl _
    | _ => cases ha
  refine ⟨fun i c hc => ?_, ?_, hnext, ?_, hlifecycle, congrArg (List.map Registrar.body) hregistrars,
    (a.continues w).1⟩
  · rwa [hfunctions]
  · exact Nat.le_of_eq (congrArg Array.size hfunctions).symm
  · rw [hstate]
    exact .refl _ _

theorem define (w : World ω γ) (c : Code ω γ) : S.Kept linked w (w.define c) where
  functions _ _ h := World.getElem?_define h c
  size := by
    rw [World.define, Array.size_push]
    exact Nat.le_succ _
  next := Nat.le_refl _
  spares := .refl _ _
  lifecycle := rfl
  registrars := rfl
  desks := rfl

theorem put {w : World ω γ} {s : ω} (h : S.Spares linked w.state s) :
    S.Kept linked w { w with state := s } where
  functions _ _ h := h
  size := Nat.le_refl _
  next := Nat.le_refl _
  spares := h
  lifecycle := rfl
  registrars := rfl
  desks := rfl

end Kept

namespace Grows

variable {ρ ρ' ρ'' : Link} {w w' w'' v v' v'' : World ω γ}

theorem refl (ρ : Link) (w v : World ω γ) : S.Grows ρ w v ρ w v where
  le := Link.le_refl ρ
  fresh _ _ _ h := .inl h
  left := .refl _ w
  right := .refl _ v

theorem trans (h : S.Grows ρ w v ρ' w' v') (h' : S.Grows ρ' w' v' ρ'' w'' v'') :
    S.Grows ρ w v ρ'' w'' v'' where
  le := Link.le_trans h.le h'.le
  fresh k a b hab := by
    rcases h'.fresh k a b hab with hab | ⟨ha, hb⟩
    · exact h.fresh k a b hab
    · exact .inr ⟨fun hi => ha (h.left.given hi), fun hi => hb (h.right.given hi)⟩
  left := by
    -- a part that was there and not linked is not linked later on, since new pairs are of new parts
    refine h.left.trans h'.left ?_
    rintro k hk ⟨b, hb⟩
    rcases h.fresh _ _ _ hb with hb | ⟨ha, -⟩
    · exact ⟨b, hb⟩
    · exact absurd hk ha
  right := by
    refine h.right.trans h'.right ?_
    rintro k hk ⟨a, ha⟩
    rcases h.fresh _ _ _ ha with ha | ⟨-, hb⟩
    · exact ⟨a, ha⟩
    · exact absurd hk hb

theorem of_kept (hw : S.Kept (ρ.HasRight .realm) w w') (hv : S.Kept (ρ.HasLeft .realm) v v') :
    S.Grows ρ w v ρ w' v' :=
  ⟨Link.le_refl ρ, fun _ _ _ h => .inl h, hw, hv⟩

end Grows

/-! ## What keeps worlds alike -/

theorem Paired.congr {ρ : Link} {w w' v v' : World ω γ} (h : S.Paired ρ w v)
    (hw : World.SameCore S.desk w w') (hv : World.SameCore S.desk v v') : S.Paired ρ w' v' where
  codes a b hab := by
    rw [hw.functions, hv.functions]
    exact h.codes a b hab
  numbers a b hab := by
    rw [hw.bus, hv.bus]
    exact h.numbers a b hab
  left := by
    rw [hw.desks]
    exact h.left
  right := by
    rw [hv.desks]
    exact h.right

namespace Twin

variable {base base' : List (Entry Listener)} {ρ : Link} {w w' v v' : World ω γ}

/-- What does not touch the core keeps worlds alike. -/
theorem congr (h : S.Twin base base' ρ w v) (hw : World.SameCore S.desk w w')
    (hv : World.SameCore S.desk v v') : S.Twin base base' ρ w' v' where
  toPaired := h.toPaired.congr hw hv
  bus := by
    rw [hw.bus, hv.bus]
    exact h.bus
  base := h.base

/-- A linked function has a linked function on the other side. -/
theorem not_hasRight_size (h : S.Twin base base' ρ w v) :
    ¬ρ.HasRight .function w.functions.size := by
  rintro ⟨b, hb⟩
  obtain ⟨c, -, hc, -⟩ := h.codes _ _ hb
  exact absurd (Array.getElem?_eq_some_iff.mp hc).1 (Nat.lt_irrefl _)

theorem not_hasLeft_size (h : S.Twin base base' ρ w v) :
    ¬ρ.HasLeft .function v.functions.size := by
  rintro ⟨a, ha⟩
  obtain ⟨-, c, -, hc, -⟩ := h.codes _ _ ha
  exact absurd (Array.getElem?_eq_some_iff.mp hc).1 (Nat.lt_irrefl _)

theorem not_hasRight_next (h : S.Twin base base' ρ w v) :
    ¬ρ.HasRight .registration (w.desk S.desk).bus.next := by
  rintro ⟨b, hb⟩
  exact absurd (h.numbers _ _ hb).1 (Nat.lt_irrefl _)

theorem not_hasLeft_next (h : S.Twin base base' ρ w v) :
    ¬ρ.HasLeft .registration (v.desk S.desk).bus.next := by
  rintro ⟨a, ha⟩
  exact absurd (h.numbers _ _ ha).2 (Nat.lt_irrefl _)

/-- More pairs of realms change nothing else. -/
theorem openRealm (h : S.Twin base base' ρ w v) {a b : Nat} (ha : ¬ρ.HasRight .realm a)
    (hb : ¬ρ.HasLeft .realm b) : S.Twin base base' (ρ.add .realm a b ha hb) w v where
  codes i j hij := by
    obtain ⟨c, c', hc, hc', hcode⟩ := h.codes i j ((Link.add_of_ne (by decide)).mp hij)
    exact ⟨c, c', hc, hc', hcode.mono Link.le_add⟩
  numbers i j hij := h.numbers i j ((Link.add_of_ne (by decide)).mp hij)
  left := h.left
  right := h.right
  bus := by
    obtain ⟨l, l', news, news', hl, hl', hnews, hnews', hall⟩ := h.bus
    exact ⟨l, l', news, news', hl, hl', hnews, hnews', hall.imp fun _ _ => .mono Link.le_add⟩
  base := h.base

/-- New functions on both sides are linked to each other. -/
theorem define (h : S.Twin base base' ρ w v) {c c' : Code ω γ} (hcode : S.CodeLinked ρ c c') :
    S.Twin base base' (ρ.add .function w.functions.size v.functions.size h.not_hasRight_size
      h.not_hasLeft_size) (w.define c) (v.define c') where
  codes i j hij := by
    rcases hij with hij | ⟨-, rfl, rfl⟩
    · obtain ⟨e, e', he, he', hlinked⟩ := h.codes i j hij
      refine ⟨e, e', ?_, ?_, hlinked.mono Link.le_add⟩
      · exact World.getElem?_define he c
      · exact World.getElem?_define he' c'
    · refine ⟨c, c', ?_, ?_, hcode.mono Link.le_add⟩
      · exact Array.getElem?_push_size
      · exact Array.getElem?_push_size
  numbers i j hij := h.numbers i j ((Link.add_of_ne (by decide)).mp hij)
  left := h.left
  right := h.right
  bus := by
    obtain ⟨l, l', news, news', hl, hl', hnews, hnews', hall⟩ := h.bus
    exact ⟨l, l', news, news', hl, hl', hnews, hnews', hall.imp fun _ _ => .mono Link.le_add⟩
  base := h.base

/-- Edits on both sides that leave the logs of the desks alike. -/
theorem edit (h : S.Twin base base' ρ w v) {ρ' : Link} (hle : ρ ≤ ρ')
    (hfunctions : ∀ i j, ρ' .function i j → ρ .function i j) {a a' : Act ω γ} (ha : a.isEdit)
    (ha' : a'.isEdit) {l l' : Log Listener} {news news' : List (Entry Listener)}
    (hl : ((a.apply w).desk S.desk).bus.Mirrors l)
    (hl' : ((a'.apply v).desk S.desk).bus.Mirrors l')
    (hnews : l.entries = base ++ news) (hnews' : l'.entries = base' ++ news')
    (hall : List.Forall₂ (Entry.Linked ρ') news news')
    (hnumbers : ∀ i j, ρ' .registration i j → i < l.given.length ∧ j < l'.given.length) :
    S.Twin base base' ρ' (a.apply w) (a'.apply v) where
  codes i j hij := by
    rw [(Act.apply_of_isEdit ha w).1, (Act.apply_of_isEdit ha' v).1]
    obtain ⟨c, c', hc, hc', hcode⟩ := h.codes i j (hfunctions i j hij)
    exact ⟨c, c', hc, hc', hcode.mono hle⟩
  numbers i j hij := by
    rw [← hl.length_given, ← hl'.length_given]
    exact hnumbers i j hij
  left := by
    rw [(a.continues w).1]
    exact h.left
  right := by
    rw [(a'.continues v).1]
    exact h.right
  bus := ⟨l, l', news, news', hl, hl', hnews, hnews', hall⟩
  base := h.base

/-- New registrations on both sides are linked to each other. -/
theorem listen (h : S.Twin base base' ρ w v) (event : String) {l l' : Listener}
    (hl : l.Linked ρ l') :
    S.Twin base base' (ρ.add .registration (w.desk S.desk).bus.next (v.desk S.desk).bus.next
        h.not_hasRight_next h.not_hasLeft_next)
      ((Act.listened S.desk event l).apply w) ((Act.listened S.desk event l').apply v) := by
  obtain ⟨log, log', news, news', hlog, hlog', hnews, hnews', hall⟩ := h.bus
  have hnext := hlog.length_given
  have hnext' := hlog'.length_given
  have hleft := Act.mirrors (.listened S.desk event l) h.left hlog
  have hright := Act.mirrors (.listened S.desk event l') h.right hlog'
  rw [Act.register, if_pos rfl] at hleft hright
  have hnews₁ : (log.listen event l).entries = base ++ (news ++ [⟨log.given.length, event, l⟩]) := by
    rw [Log.listen, hnews, List.append_assoc]
  have hnews₁' : (log'.listen event l').entries =
      base' ++ (news' ++ [⟨log'.given.length, event, l'⟩]) := by
    rw [Log.listen, hnews', List.append_assoc]
  refine h.edit Link.le_add (fun i j => (Link.add_of_ne (by decide)).mp) rfl rfl hleft hright
    hnews₁ hnews₁' ?_ ?_
  · refine List.rel_append (hall.imp fun _ _ => .mono Link.le_add) ?_
    refine .cons ⟨?_, rfl, hl.mono Link.le_add⟩ .nil
    rw [hnext, hnext']
    exact Link.add_self
  · intro i j hij
    simp only [Log.listen, List.length_append, List.length_singleton, hnext, hnext']
    rcases hij with hij | ⟨-, rfl, rfl⟩
    · obtain ⟨hi, hj⟩ := h.numbers i j hij
      omega
    · omega

/-- Where everything is compared, linked numbers take out linked registrations. -/
theorem remove (h : S.Twin base base' ρ w v) (hstrict : S.strict) {ids ids' : List Nat}
    (hids : List.Forall₂ (ρ .registration) ids ids') :
    S.Twin base base' ρ ((Act.removed S.desk ids).apply w)
      ((Act.removed S.desk ids').apply v) := by
  obtain ⟨log, log', news, news', hlog, hlog', hnews, hnews', hall⟩ := h.bus
  obtain ⟨rfl, rfl⟩ := h.base hstrict
  have hleft := Act.mirrors (.removed S.desk ids) h.left hlog
  have hright := Act.mirrors (.removed S.desk ids') h.right hlog'
  rw [Act.register, if_pos rfl] at hleft hright
  have hnews₁ : (log.remove ids).entries = [] ++ news.filter fun e => !ids.contains e.number := by
    rw [Log.remove, hnews]
    rfl
  have hnews₁' : (log'.remove ids').entries =
      [] ++ news'.filter fun e => !ids'.contains e.number := by
    rw [Log.remove, hnews']
    rfl
  refine h.edit (Link.le_refl ρ) (fun i j hij => hij) rfl rfl hleft hright hnews₁ hnews₁' ?_ ?_
  · refine rel_filter_of_iff (fun e e' he => ?_) hall
    simp [contains_iff_of_linked he.number hids]
  · intro i j hij
    rw [Log.remove, Log.remove, hlog.length_given, hlog'.length_given]
    exact h.numbers i j hij

theorem clear (h : S.Twin base base' ρ w v) (hstrict : S.strict) :
    S.Twin base base' ρ ((Act.cleared S.desk).apply w) ((Act.cleared S.desk).apply v) := by
  obtain ⟨log, log', news, news', hlog, hlog', -, -, -⟩ := h.bus
  obtain ⟨rfl, rfl⟩ := h.base hstrict
  have hleft := Act.mirrors (.cleared S.desk) h.left hlog
  have hright := Act.mirrors (.cleared S.desk) h.right hlog'
  rw [Act.register, if_pos rfl] at hleft hright
  have hnone : log.clear.entries = [] ++ [] := rfl
  have hnone' : log'.clear.entries = [] ++ [] := rfl
  refine h.edit (Link.le_refl ρ) (fun i j hij => hij) rfl rfl hleft hright hnone hnone' .nil ?_
  intro i j hij
  rw [Log.clear, Log.clear, hlog.length_given, hlog'.length_given]
  exact h.numbers i j hij

end Twin

end Scene

end PackHost
