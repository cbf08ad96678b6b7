import PackHost.Proofs.Twin.Journal

/-!
# Calls side by side

Programs that do alike are run alike (`Scene.keeps_run`), so linked functions that are called with
linked arguments do alike, however deep their calls are nested (`Scene.calls_callAt`). The induction
is on the nesting; its step needs one lemma for each thing that a program can ask for.
-/

namespace PackHost

open Event

variable {ω γ κ α β : Type}

namespace Scene

variable {S : Scene ω γ κ} {base base' : List (Entry Listener)} {ρ : Link} {w v : World ω γ}

/-! ## Single acts -/

theorem Keeps.act {A : Link → Unit → Unit → Prop} {ρ' : Link} {a b : Act ω γ}
    (h : S.Reached base base' ρ w v ρ' [a] [b])
    (hagree : S.Agree ρ' (a.apply w).state (b.apply v).state) (hA : A ρ' () ()) :
    S.Keeps A base base' ρ w v (Journal.act a w) (Journal.act b v) where
  stops _ hx := by cases hx
  answers _ as hx _ := by
    cases hx
    exact ⟨ρ', (), [b], rfl, h, hagree, hA⟩

theorem Keeps.passive {A : Link → Unit → Unit → Prop} {a b : Act ω γ}
    (h : S.Twin base base' ρ w v) (hagree : S.Agree ρ w.state v.state)
    (hw : World.SameCore S.desk w (a.apply w)) (hv : World.SameCore S.desk v (b.apply v))
    (htally : a.tally S.desk w = b.tally S.desk v) (htame : a.isTame S.desk) (hA : A ρ () ()) :
    S.Keeps A base base' ρ w v (Journal.act a w) (Journal.act b v) :=
  .act (.of_sameCore h hw hv (congrArg (· ++ []) htally) (Step.tame_singleton htame))
    (hagree.congr hw hv) hA

theorem Keeps.edit {A : Link → Unit → Unit → Prop} {ρ' : Link} {a b : Act ω γ} (ha : a.isEdit)
    (hb : b.isEdit) (htame : S.tame → a.isTame S.desk) (hle : ρ ≤ ρ')
    (hfresh : ∀ k i j, ρ' k i j → ρ k i j ∨
      k = .registration ∧ i = (w.desk S.desk).bus.next ∧ j = (v.desk S.desk).bus.next)
    (htwin : S.Twin base base' ρ' (a.apply w) (b.apply v))
    (hagree : S.Agree ρ w.state v.state) (hA : A ρ' () ()) :
    S.Keeps A base base' ρ w v (Journal.act a w) (Journal.act b v) := by
  have hquiet : ∀ {a : Act ω γ} {w : World ω γ}, a.isEdit → a.tally S.desk w = [] := by
    intro a w h
    cases a <;> first | rfl | cases h
  refine .act ⟨⟨hle, fun k i j hij => ?_, .edit ha w, .edit hb v⟩, htwin, ?_,
    fun ht => Step.tame_singleton (htame ht)⟩ ?_ hA
  · rcases hfresh k i j hij with hij | ⟨rfl, rfl, rfl⟩
    · exact .inl hij
    · exact .inr ⟨Nat.lt_irrefl _, Nat.lt_irrefl _⟩
  · exact congrArg (· ++ []) ((hquiet ha).trans (hquiet hb).symm)
  · rw [(Act.apply_of_isEdit ha w).2.1, (Act.apply_of_isEdit hb v).2.1]
    refine hagree.mono hle fun i j hij => ?_
    rcases hfresh _ i j hij with hij | ⟨hkind, -⟩
    · exact hij
    · cases hkind

/-- Handlers registered on both sides are linked to each other. -/
theorem Keeps.listened {A : Link → Unit → Unit → Prop} (h : S.Twin base base' ρ w v)
    (hagree : S.Agree ρ w.state v.state) (event : String) {l l' : Listener} (hl : l.Linked ρ l')
    (htame : S.tame → l.isScript)
    (hA : ∀ ρ', ρ ≤ ρ' →
      ρ' .registration (w.desk S.desk).bus.next (v.desk S.desk).bus.next → A ρ' () ()) :
    S.Keeps A base base' ρ w v (Journal.act (.listened S.desk event l) w)
      (Journal.act (.listened S.desk event l') v) :=
  .edit rfl rfl (fun ht => by simp [Act.isTame, htame ht]) Link.le_add (fun _ _ _ hij => hij)
    (h.listen event hl) hagree (hA _ Link.le_add Link.add_self)

/-- Where everything is compared, an event has linked handlers on both sides. -/
theorem Twin.registered (h : S.Twin base base' ρ w v) (hstrict : S.strict) (event : String) :
    List.Forall₂ (fun g g' => g.2.Linked ρ g'.2) ((w.desk S.desk).bus.registered event)
      ((v.desk S.desk).bus.registered event) := by
  obtain ⟨log, log', news, news', hlog, hlog', hnews, hnews', hall⟩ := h.bus
  obtain ⟨rfl, rfl⟩ := h.base hstrict
  rw [List.nil_append] at hnews hnews'
  rw [hlog.registered, hlog'.registered, Log.named, Log.named, hnews, hnews']
  have hnamed : List.Forall₂ (Entry.Linked ρ) (news.filter fun e => e.event = event)
      (news'.filter fun e => e.event = event) :=
    rel_filter_of_iff (fun e e' he => by rw [he.event]) hall
  rw [List.forall₂_map_left_iff, List.forall₂_map_right_iff]
  exact hnamed.imp fun _ _ he => he.handler

theorem eventName_eq {name name' : Value} (h : name.Linked ρ name') (function : String) :
    eventName function name = eventName function name' := by
  cases name <;> cases name' <;> first | rfl | (cases h <;> rfl)

variable (S) in
/-- Linked functions that are called with linked arguments do alike. -/
def Calls (call : Reporter ω γ) : Prop :=
  ∀ ρ f g args args', f.Linked ρ g → List.Forall₂ (Value.Linked ρ) args args' →
    S.Lock Outcome.Linked ρ (call f args) (call g args')

section

variable {call : Reporter ω γ} (hcall : S.Calls call)
include hcall

/-! ## Posts -/

theorem lock_dispatch {ρ : Link} (event : String) {payload payload' : Value}
    (hpayload : payload.Linked ρ payload') {gs gs' : List (Nat × Listener)}
    (h : List.Forall₂ (fun g g' => g.2.Linked ρ g'.2) gs gs') :
    S.Lock (fun _ _ _ => True) ρ (Journal.dispatch call S.desk event payload gs)
      (Journal.dispatch call S.desk event payload' gs') := by
  induction h with
  | nil =>
    intro base base' ρ₁ w v _ htwin hagree
    exact .pure htwin hagree trivial
  | @cons g g' gs gs' hg _ ih =>
    intro base base' ρ₁ w v hle htwin hagree
    refine Keeps.bind (A := fun _ _ _ => True)
      (.passive htwin hagree (.refl _ _) (.refl _ _) rfl rfl trivial) ?_
    intro ρ₂ _ _ as bs hreached hagree₂ _
    have hle₂ := Link.le_trans hle hreached.grows.le
    refine Keeps.bind (A := Outcome.Linked)
      (hcall ρ₂ _ _ _ _ (hg.mono hle₂).target (.cons (hpayload.mono hle₂) .nil) _ _ ρ₂ _ _
        (Link.le_refl _) hreached.twin hagree₂) ?_
    intro ρ₃ x y cs ds hreached₃ hagree₃ _
    have hle₃ := Link.le_trans hle₂ hreached₃.grows.le
    refine Keeps.bind (A := fun _ _ _ => True)
      (.passive hreached₃.twin hagree₃ (.settle _ _ _ _ _) (.settle _ _ _ _ _) rfl rfl trivial) ?_
    intro ρ₄ _ _ es fs hreached₄ hagree₄ _
    exact ih _ _ ρ₄ _ _ (Link.le_trans hle₃ hreached₄.grows.le) hreached₄.twin hagree₄

theorem keeps_post {event : String} {payload payload' : Value}
    (hpayload : payload.Linked ρ payload') (htwin : S.Twin base base' ρ w v)
    (hagree : S.Agree ρ w.state v.state) :
    S.Keeps (fun _ => Eq) base base' ρ w v (Journal.post call S.desk event payload w)
      (Journal.post call S.desk event payload' v) := by
  by_cases hstrict : S.strict
  · have hregistered := Twin.registered htwin hstrict event
    have hlength := hregistered.length_eq
    rw [Journal.post, Journal.post, Journal.ask_bind, Journal.ask_bind]
    refine Keeps.bind (A := fun _ _ _ => True)
      (.passive htwin hagree (.refl _ _) (.refl _ _) ?_ rfl trivial) ?_
    · simp only [Act.tally, Bus.count, hlength]
    · intro ρ₁ _ _ as bs hreached hagree₁ _
      have hle₁ := hreached.grows.le
      refine Keeps.bind (A := fun _ _ _ => True)
        (lock_dispatch hcall event hpayload hregistered _ _ ρ₁ _ _ hle₁ hreached.twin hagree₁) ?_
      intro ρ₂ _ _ cs ds hreached₂ hagree₂ _
      refine Keeps.bind (A := fun _ _ _ => True)
        (.passive hreached₂.twin hagree₂ (.refl _ _) (.refl _ _) rfl rfl trivial) ?_
      intro ρ₃ _ _ es fs hreached₃ hagree₃ _
      exact .pure hreached₃.twin hagree₃ hlength
  · -- a post is not quiet, so nothing is said about it
    refine ⟨fun h => absurd h hstrict, fun n as has hquiet => ?_⟩
    rw [Journal.post, Journal.ask_bind, Journal.act_bind] at has
    obtain ⟨_, -, heq⟩ := Option.map_eq_some_iff.mp has
    cases heq
    rcases hquiet with hquiet | hquiet
    · exact absurd hquiet hstrict
    · cases hquiet _ List.mem_cons_self

/-! ## Requests -/

theorem keeps_answer {request request' : BusRequest} (hrequest : request.Linked ρ request')
    (hstrict : S.strict) (htame : S.tame → request.isEdit = false) (htwin : S.Twin base base' ρ w v)
    (hagree : S.Agree ρ w.state v.state) :
    S.Keeps (fun ρ' => request.Answers ρ') base base' ρ w v
      (Journal.answer call S.desk request w) (Journal.answer call S.desk request' v) := by
  cases hrequest with
  | listen event hf =>
    rw [Journal.answer, Journal.answer, Journal.ask_bind, Journal.ask_bind]
    refine Keeps.bind (A := fun ρ' _ _ => ρ' .registration (w.desk S.desk).bus.next
      (v.desk S.desk).bus.next) (.listened htwin hagree event hf (fun ht => by cases htame ht)
      fun _ _ h => h) ?_
    intro ρ₁ _ _ as bs hreached hagree₁ hnext
    exact .pure hreached.twin hagree₁ hnext
  | @remove ids ids' hids =>
    obtain ⟨log, log', news, news', hlog, hlog', hnews, hnews', hall⟩ := htwin.bus
    obtain ⟨rfl, rfl⟩ := htwin.base hstrict
    have hcount : (w.desk S.desk).bus.size - ((w.desk S.desk).bus.remove ids).size =
        (v.desk S.desk).bus.size - ((v.desk S.desk).bus.remove ids').size := by
      rw [hlog.size_sub_size_remove, hlog'.size_sub_size_remove, Log.found, Log.found, hnews,
        hnews', List.nil_append, List.nil_append]
      refine (rel_filter_of_iff (fun e e' he => ?_) hall).length_eq
      simp [contains_iff_of_linked he.number hids]
    rw [Journal.answer, Journal.answer, Journal.ask_bind, Journal.ask_bind]
    refine Keeps.bind (A := fun _ _ _ => True) (.edit rfl rfl (fun ht => by cases htame ht)
      (Link.le_refl ρ) (fun _ _ _ hij => .inl hij) (htwin.remove hstrict hids) hagree trivial) ?_
    intro ρ₁ _ _ as bs hreached hagree₁ _
    exact .pure hreached.twin hagree₁ hcount
  | clear =>
    rw [Journal.answer]
    refine Keeps.bind (A := fun _ _ _ => True) (.edit rfl rfl (fun ht => by cases htame ht)
      (Link.le_refl ρ) (fun _ _ _ hij => .inl hij) (htwin.clear hstrict) hagree trivial) ?_
    intro ρ₁ _ _ as bs hreached hagree₁ _
    exact .pure hreached.twin hagree₁ rfl
  | count event =>
    refine Keeps.pure htwin hagree ?_
    exact (Twin.registered htwin hstrict event).length_eq
  | post event hv => exact keeps_post hcall hv htwin hagree

/-! ## Programs -/

/-- **Programs that do alike are run alike.** -/
theorem keeps_run {A : Link → α → β → Prop} {s s' : ω} {p : Program ω γ α} {q : Program ω γ β}
    (h : S.Alike A ρ s s' p q) {w v : World ω γ} (hw : w.state = s) (hv : v.state = s')
    (htwin : S.Twin base base' ρ w v) :
    S.Keeps A base base' ρ w v (Journal.run call p w) (Journal.run call q v) := by
  induction h generalizing w v with
  | done hagree hab => exact .pure htwin (hw ▸ hv ▸ hagree) hab
  | stuck => exact .stuck fun _ => rfl
  | getLeft _ ih =>
    rw [Journal.run, Journal.ask_bind, hw]
    exact ih hw hv htwin
  | getRight _ ih =>
    rw [Journal.run, Journal.ask_bind, hv]
    exact ih hw hv htwin
  | @setLeft ρ s s' t next q hspares _ ih =>
    have hput : S.Reached base base' ρ w v ρ [Act.put t] [] :=
      ⟨.of_kept (.put (hw ▸ hspares)) (.refl _ _), ⟨⟨htwin.codes, htwin.numbers, htwin.left,
        htwin.right⟩, htwin.bus, htwin.base⟩, rfl, fun _ => Step.tame_singleton rfl⟩
    have hafter := (ih (w := { w with state := t }) rfl hv hput.twin).after hput
    rw [Journal.run, Journal.act_bind]
    simpa [Act.apply] using hafter
  | @setRight ρ s s' t' p next hspares _ ih =>
    have hput : S.Reached base base' ρ w v ρ [] [Act.put t'] :=
      ⟨.of_kept (.refl _ _) (.put (hv ▸ hspares)), ⟨⟨htwin.codes, htwin.numbers, htwin.left,
        htwin.right⟩, htwin.bus, htwin.base⟩, rfl, fun _ => Step.tame_nil⟩
    have hafter := (ih (v := { v with state := t' }) hw rfl hput.twin).after hput
    show S.Keeps A base base' ρ w v (Journal.run call p w)
      ((Journal.act (.put t')).bind (fun () => Journal.run call next) v)
    rw [Journal.act_bind]
    simpa [Act.apply] using hafter
  | @open_ ρ s s' t t' a b next next' ha hb hnone hnone' hleft hright _ ih =>
    subst hw hv
    have hopened := htwin.openRealm ha hb
    have hput : S.Reached base base' ρ w v (ρ.add .realm _ _ ha hb) [Act.put t] [Act.put t'] := by
      refine ⟨⟨Link.le_add, ?_, .put hleft, .put hright⟩, ⟨⟨hopened.codes, hopened.numbers,
        hopened.left, hopened.right⟩, hopened.bus, hopened.base⟩, rfl,
        fun _ => Step.tame_singleton rfl⟩
      rintro k i j (hij | ⟨rfl, rfl, rfl⟩)
      · exact .inl hij
      · exact .inr ⟨fun hgiven => hgiven hnone, fun hgiven => hgiven hnone'⟩
    exact (ih (w := { w with state := t }) (v := { v with state := t' }) rfl rfl hput.twin).after
      hput
  | call hagree hf hargs _ ih =>
    subst hw hv
    refine Keeps.bind (A := Outcome.Linked)
      (hcall _ _ _ _ _ hf hargs _ _ _ _ _ (Link.le_refl _) htwin hagree) ?_
    intro ρ₁ x y as bs hreached hagree₁ hxy
    exact ih ρ₁ _ _ x y hreached.grows.le hagree₁ hxy rfl rfl hreached.twin
  | @create ρ s s' name arity c c' next next' hagree hcode _ ih =>
    subst hw hv
    have htwin' := htwin.define (.closure hcode)
    have hmade : S.Reached base base' ρ w v (ρ.add .function w.functions.size v.functions.size
        htwin.not_hasRight_size htwin.not_hasLeft_size) [Act.made c] [Act.made c'] := by
      refine ⟨⟨Link.le_add, ?_, .define _ _, .define _ _⟩, htwin', rfl,
        fun _ => Step.tame_singleton rfl⟩
      rintro k i j (hij | ⟨rfl, rfl, rfl⟩)
      · exact .inl hij
      · exact .inr ⟨Nat.lt_irrefl _, Nat.lt_irrefl _⟩
    have hagree' := hagree.mono hmade.grows.le fun i j => (Link.add_of_ne (by decide)).mp
    rw [Journal.run, Journal.run, Journal.ask_bind, Journal.ask_bind]
    exact (ih _ _ _ (w.newHandle name arity) (v.newHandle name arity) hmade.grows.le hagree'
      ⟨⟨rfl, rfl⟩, Link.add_self⟩ (w := w.define (.closure c)) (v := v.define (.closure c'))
      rfl rfl htwin').after hmade
  | bus hstrict htame hagree hrequest _ ih =>
    subst hw hv
    refine Keeps.bind (keeps_answer hcall hrequest hstrict htame htwin hagree) ?_
    intro ρ₁ n n' as bs hreached hagree₁ hn
    exact ih ρ₁ _ _ n n' hreached.grows.le hagree₁ hn rfl rfl hreached.twin

/-! ## Functions of the desk -/

theorem lock_role {ρ : Link} (role : DeskRole) {args args' : List Value}
    (h : List.Forall₂ (Value.Linked ρ) args args') :
    S.Lock Outcome.Linked ρ (Journal.role call S.desk role args)
      (Journal.role call S.desk role args') := by
  intro base base' ρ₁ w v hle htwin hagree
  have hunit : ∀ {ρ}, Outcome.Linked ρ (.done .unit) (.done .unit) := fun {_} => trivial
  have hrefused : ∀ f, S.Keeps Outcome.Linked base base' ρ₁ w v (Journal.pure (.failed f) w)
      (Journal.pure (.failed f) v) := fun f => Keeps.pure (A := Outcome.Linked) htwin hagree rfl
  have hsaid : ∀ level (x y : Value), S.Keeps Outcome.Linked base base' ρ₁ w v
      ((Journal.act (.told S.desk level x.shown)).bind (fun () => .pure (.done .unit)) w)
      ((Journal.act (.told S.desk level y.shown)).bind (fun () => .pure (.done .unit)) v) := by
    intro level x y
    refine Keeps.bind (A := fun _ _ _ => True)
      (.passive htwin hagree (.say _ _ _ _) (.say _ _ _ _) rfl rfl trivial) ?_
    intro ρ₂ _ _ as bs hreached hagree₂ _
    exact .pure hreached.twin hagree₂ hunit
  cases role with
  | log =>
    cases h with
    | nil => exact .pure htwin hagree hunit
    | cons _ _ => exact hsaid _ _ _
  | logError =>
    cases h with
    | nil => exact .pure htwin hagree hunit
    | cons _ _ => exact hsaid _ _ _
  | onEvent =>
    cases h with
    | nil => exact .pure htwin hagree hunit
    | @cons name name' rest rest' hname h =>
      cases h with
      | nil => exact .pure htwin hagree hunit
      | @cons handler handler' _ _ hhandler _ =>
        simp only [Journal.role, eventName_eq hname]
        cases eventName "onEvent" name' with
        | error f => exact hrefused f
        | ok event =>
          rcases hhandler.functions_or_neither with ⟨f, g, rfl, rfl, hfg⟩ | ⟨hother, hother'⟩
          · refine Keeps.bind (A := fun _ _ _ => True)
              (.listened htwin hagree event (hfg.mono hle) (fun _ => rfl) fun _ _ _ => trivial) ?_
            intro ρ₂ _ _ as bs hreached hagree₂ _
            exact .pure hreached.twin hagree₂ hunit
          · simp only [hhandler.kindName_eq]
            exact hrefused _
  | postEvent =>
    cases h with
    | nil => exact .pure htwin hagree hunit
    | @cons name name' rest rest' hname h =>
      cases h with
      | nil => exact .pure htwin hagree hunit
      | @cons payload payload' _ _ hpayload _ =>
        simp only [Journal.role, eventName_eq hname]
        cases eventName "postEvent" name' with
        | error f => exact hrefused f
        | ok event =>
          refine Keeps.bind (keeps_post hcall (hpayload.mono hle) htwin hagree) ?_
          rintro ρ₂ n _ as bs hreached hagree₂ rfl
          exact Keeps.pure (A := Outcome.Linked) hreached.twin hagree₂ rfl

/-! ## Calls -/

/-- Functions of engines that do the same do alike. -/
theorem lock_perform {invoke : γ → Native ω γ}
    (hinvoke : ∀ ρ c c' s s' args args', S.code ρ c c' → S.Agree ρ s s' →
      List.Forall₂ (Value.Linked ρ) args args' →
      S.Alike Outcome.Linked ρ s s' (invoke c args) (invoke c' args'))
    {ρ : Link} {f g : Function} {args args' : List Value} (hfg : f.Linked ρ g)
    (hargs : List.Forall₂ (Value.Linked ρ) args args') :
    S.Lock Outcome.Linked ρ (Journal.perform call invoke f args)
      (Journal.perform call invoke g args') := by
  intro base base' ρ₁ w v hle htwin hagree
  have hargs₁ := hargs.imp fun _ _ => Value.Matches.mono hle
  obtain ⟨c, c', hc, hc', hcode⟩ := htwin.codes _ _ (hle _ _ _ hfg.2)
  rw [Journal.perform, Journal.perform, Journal.ask_bind, Journal.ask_bind, hc, hc']
  cases hcode with
  | native hbody =>
    exact keeps_run hcall (hbody ρ₁ _ _ _ _ (Link.le_refl _) hagree hargs₁) rfl rfl htwin
  | closure hcode =>
    exact keeps_run hcall (hinvoke ρ₁ _ _ _ _ _ _ hcode hagree hargs₁) rfl rfl htwin
  | desk role => exact lock_role hcall role hargs₁ _ _ ρ₁ _ _ (Link.le_refl _) htwin hagree

end

/-- **Linked functions do alike**, however deep calls may nest. -/
theorem calls_callAt {invoke : γ → Native ω γ}
    (hinvoke : ∀ ρ c c' s s' args args', S.code ρ c c' → S.Agree ρ s s' →
      List.Forall₂ (Value.Linked ρ) args args' →
      S.Alike Outcome.Linked ρ s s' (invoke c args) (invoke c' args'))
    (n : Nat) : S.Calls (Journal.callAt invoke n) := by
  -- the calls that a call makes have one level less
  induction n with
  | zero =>
    intro ρ f g args args' _ _ base base' ρ₁ w v _ _ _
    exact .stuck fun _ => rfl
  | succ n ih =>
    intro ρ f g args args' hfg hargs
    have harity : f.arity = g.arity := hfg.1.2
    have hperform := lock_perform ih hinvoke hfg hargs
    unfold Journal.callAt
    rw [harity]
    cases g.arity with
    | none => exact hperform
    | some expected =>
      simp only
      rw [hargs.length_eq]
      split
      · exact hperform
      · intro base base' ρ₁ w v _ htwin hagree
        refine .pure htwin hagree ?_
        show arityFailure f _ _ = arityFailure g _ _
        rw [arityFailure, arityFailure, hfg.1.1]

end Scene

end PackHost
