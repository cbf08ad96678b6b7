import PackHost.Proofs.Language.Law

/-!
# Values on their way to scripts and back

A value of the host comes back from a script as it was (`decode_encode`). Where values are told
apart without error, each test of `Port.decode` finds what it is for (`decode_make_array` and its
like), so that none of them hides another one.
-/

namespace PackHost

namespace Program

variable {ω γ α β : Type}

theorem each_map {σ : Type} (f : α → Program ω γ β) (g : σ → α) (l : List σ) :
    each f (l.map g) = each (fun s => f (g s)) l := by
  induction l with
  | nil => rfl
  | cons s l ih => rw [List.map_cons, each, each, ih]

theorem each_attach (f : α → Program ω γ β) (l : List α) :
    each (fun e : { e // e ∈ l } => f e.1) l.attach = each f l := by
  rw [← each_map f Subtype.val, List.attach_map_subtype_val]

end Program

namespace Language

variable {L : Language} {ω γ : Type}

/-- A value of the host passes one test and no other. -/
theorem Lossless.exists_test (hl : L.Lossless) (v : Value) :
    ∃ t, ∀ t', (L.test t' (L.encode v)).isSome = true ↔ t' = t := by
  have hmake : ∀ (t : Datatype) (c : t.Content L.Datum L.Pointer) (t' : Datatype),
      (L.test t' (L.make t c)).isSome = true ↔ t' = t := by
    intro t c t'
    constructor
    · intro h
      refine Decidable.byContradiction fun hne => ?_
      rw [hl.test_make_of_ne hne] at h
      cases h
    · rintro rfl
      rw [hl.test_make]
      rfl
  cases v with
  | unit => exact ⟨.unit, hmake _ _⟩
  | bool b => exact ⟨.bool, hmake _ _⟩
  | int i => exact ⟨.int, hmake _ _⟩
  | float x => exact ⟨.float, hmake _ _⟩
  | text s => exact ⟨.text, hmake _ _⟩
  | array items => exact ⟨.array, hmake _ _⟩
  | map entries => exact ⟨.map, hmake _ _⟩
  | function f => exact ⟨.host, hmake _ _⟩

namespace Port

section

variable (hl : L.Lossless) (p : Port L ω γ) (b : Binder)
include hl

@[simp] theorem decode_make_unit : p.decode b (L.make .unit ()) = .done .unit := by
  rw [decode, hl.test_make]

@[simp] theorem decode_make_bool (x : Bool) : p.decode b (L.make .bool x) = .done (.bool x) := by
  rw [decode]
  simp (disch := decide) only [hl.test_make_of_ne, hl.test_make]

@[simp] theorem decode_make_int (i : Int64) : p.decode b (L.make .int i) = .done (.int i) := by
  rw [decode]
  simp (disch := decide) only [hl.test_make_of_ne, hl.test_make]

@[simp] theorem decode_make_float (x : Float) :
    p.decode b (L.make .float x) = .done (.float x) := by
  rw [decode]
  simp (disch := decide) only [hl.test_make_of_ne, hl.test_make]

@[simp] theorem decode_make_text (s : String) : p.decode b (L.make .text s) = .done (.text s) := by
  rw [decode]
  simp (disch := decide) only [hl.test_make_of_ne, hl.test_make]

theorem decode_make_array (ds : List L.Datum) : p.decode b (L.make .array ds) =
    (Program.each (p.decode b) ds).bind fun vs => .done (.array vs) := by
  rw [decode]
  simp (disch := decide) only [hl.test_make_of_ne]
  split
  · next ds' h =>
    rw [hl.test_make] at h
    cases h
    rw [Program.each_attach]
  · next h =>
    rw [hl.test_make] at h
    cases h

theorem decode_make_map (es : List (String × L.Datum)) : p.decode b (L.make .map es) =
    (Program.each (fun e => (p.decode b e.2).bind fun v => .done (e.1, v)) es).bind
      fun vs => .done (.map vs) := by
  rw [decode]
  simp (disch := decide) only [hl.test_make_of_ne]
  split
  · next ds h =>
    rw [hl.test_make_of_ne (by decide)] at h
    cases h
  · split
    · next es' h =>
      rw [hl.test_make] at h
      cases h
      exact congrArg (Program.bind · _)
        (Program.each_attach (fun e => (p.decode b e.2).bind fun v => .done (e.1, v)) es)
    · next h =>
      rw [hl.test_make] at h
      cases h

/-- What is neither an array nor a map nor one of the plain types is a function or a text. -/
theorem decode_make_of_ne {t : Datatype} (ht : t = .pointer ∨ t = .host)
    (c : t.Content L.Datum L.Pointer) : p.decode b (L.make t c) =
      match L.test .pointer (L.make t c) with
      | some f => p.bind b f
      | none =>
        match L.test .host (L.make t c) with
        | some f => .done (.function f)
        | none => .done (.text (L.shown (L.make t c))) := by
  have hne : ∀ t' : Datatype, t' ≠ .pointer → t' ≠ .host → L.test t' (L.make t c) = none := by
    intro t' hpointer hhost
    refine hl.test_make_of_ne ?_ c
    rcases ht with rfl | rfl
    · exact hpointer
    · exact hhost
  rw [decode]
  simp (disch := decide) only [hne]
  split
  · next ds h =>
    rw [hne .array (by decide) (by decide)] at h
    cases h
  · split
    · next es h =>
      rw [hne .map (by decide) (by decide)] at h
      cases h
    · rfl

@[simp] theorem decode_make_host (f : Function) :
    p.decode b (L.make .host f) = .done (.function f) := by
  rw [decode_make_of_ne hl p b (.inr rfl), hl.test_make_of_ne (by decide), hl.test_make]

end

section

variable (p : Port L ω γ) (b : Binder)

mutual

/-- **A value of the host comes back from a script as it was.** -/
theorem decode_encode (hl : L.Lossless) : ∀ v : Value, p.decode b (L.encode v) = .done v
  | .unit => decode_make_unit hl p b
  | .bool x => decode_make_bool hl p b x
  | .int i => decode_make_int hl p b i
  | .float x => decode_make_float hl p b x
  | .text s => decode_make_text hl p b s
  | .array items => by
    rw [encode, decode_make_array hl, each_decode_encodeAll hl items]
    rfl
  | .map entries => by
    rw [encode, decode_make_map hl, each_decode_encodeEntries hl entries]
    rfl
  | .function f => decode_make_host hl p b f

theorem each_decode_encodeAll (hl : L.Lossless) : ∀ vs : List Value,
    Program.each (p.decode b) (L.encodeAll vs) = .done vs
  | [] => rfl
  | v :: vs => by
    rw [encodeAll, Program.each, decode_encode hl v, Program.bind, each_decode_encodeAll hl vs]
    rfl

theorem each_decode_encodeEntries (hl : L.Lossless) : ∀ es : List (String × Value),
    Program.each (fun e => (p.decode b e.2).bind fun v => .done (e.1, v)) (L.encodeEntries es) =
      .done es
  | [] => rfl
  | e :: es => by
    rw [encodeEntries, Program.each, decode_encode hl e.2, Program.bind, Program.bind,
      each_decode_encodeEntries hl es]
    rfl

end

end

end Port

end Language

end PackHost
