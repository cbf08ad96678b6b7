import Mathlib.Data.List.Nodup
import Mathlib.Data.List.Perm.Basic
import PackHost.Proofs.Event.Bus

/-!
# The flat log behind a bus

All registrations that are in force can be kept in one list, in the order in which they were made,
whatever their names are. `Mirrors` says that a bus holds exactly what such a log holds: an empty
bus mirrors the empty log, and `Mirrors.listen`, `Mirrors.remove` and `Mirrors.clear` keep it so.
Everything that can be seen of a bus is then read off the log.
-/

namespace PackHost.Event

variable {η : Type}

structure Entry (η : Type) where
  number : Nat
  event : String
  handler : η

def Entry.pair (e : Entry η) : Nat × η := (e.number, e.handler)

/-- The registrations that are in force, in the order in which they were made. -/
structure Log (η : Type) where
  /-- All numbers that were ever given, in order. -/
  given : List Nat
  entries : List (Entry η)

namespace Log

def empty : Log η := ⟨[], []⟩

def listen (l : Log η) (event : String) (handler : η) : Log η :=
  { given := l.given ++ [l.given.length]
    entries := l.entries ++ [⟨l.given.length, event, handler⟩] }

def found (l : Log η) (ids : List Nat) : List (Entry η) :=
  l.entries.filter fun e => ids.contains e.number

/-- The log without the registrations with one of the given numbers. -/
def remove (l : Log η) (ids : List Nat) : Log η :=
  { l with entries := l.entries.filter fun e => !ids.contains e.number }

def clear (l : Log η) : Log η := { l with entries := [] }

def named (l : Log η) (event : String) : List (Entry η) :=
  l.entries.filter fun e => e.event = event

/-- Every registration is among those with the given numbers or is left without them. -/
theorem length_found (l : Log η) (ids : List Nat) :
    (l.found ids).length + (l.remove ids).entries.length = l.entries.length := by
  simpa [found, remove, List.countP_eq_length_filter] using
    (List.length_eq_countP_add_countP (fun e : Entry η => ids.contains e.number) (l := l.entries)).symm

end Log

namespace Bus

/-- The bus holds what the log holds: the numbers of the registrations ascend and were all given,
each name has the registrations that the log has under it, and no name is kept without any. -/
structure Mirrors (b : Bus η) (l : Log η) : Prop where
  given : l.given = b.issued
  ascending : (l.entries.map Entry.number).Pairwise (· < ·)
  known : ∀ e ∈ l.entries, e.number ∈ l.given
  registered : ∀ event, b.registered event = (l.named event).map Entry.pair
  sorted : b.table.Sorted
  kept : ∀ e ∈ b.table, e.2 ≠ []

namespace Mirrors

theorem of_table_eq_nil {b : Bus η} (h : b.table = []) : b.Mirrors ⟨b.issued, []⟩ where
  given := rfl
  ascending := .nil
  known e he := by cases he
  registered _ := by
    rw [Bus.registered, h]
    rfl
  sorted := h ▸ Table.sorted_nil
  kept e he := by
    rw [h] at he
    cases he

theorem empty : (.empty : Bus η).Mirrors .empty := of_table_eq_nil rfl

variable {b : Bus η} {l : Log η}

theorem length_given (h : b.Mirrors l) : l.given.length = b.next := by
  rw [h.given, issued, List.length_range]

/-- The number of the next registration was never given. -/
theorem next_not_mem (h : b.Mirrors l) : b.next ∉ l.given := by
  rw [h.given, issued, List.mem_range]
  exact Nat.lt_irrefl _

theorem number_lt (h : b.Mirrors l) {e : Entry η} (he : e ∈ l.entries) : e.number < b.next := by
  have hknown := h.known e he
  rwa [h.given, issued, List.mem_range] at hknown

/-! ## What keeps bus and log alike -/

theorem listen (h : b.Mirrors l) (event : String) (handler : η) :
    (b.listen event handler).Mirrors (l.listen event handler) where
  given := by
    show l.given ++ [l.given.length] = List.range (b.next + 1)
    rw [h.length_given, h.given, issued, List.range_succ]
  ascending := by
    show ((l.entries ++ [_]).map Entry.number).Pairwise (· < ·)
    rw [List.map_append, List.pairwise_append]
    refine ⟨h.ascending, List.pairwise_singleton _ _, fun i hi j hj => ?_⟩
    obtain ⟨e, he, rfl⟩ := List.mem_map.mp hi
    rw [List.mem_singleton.mp hj]
    exact h.length_given ▸ h.number_lt he
  known e he := by
    rcases List.mem_append.mp he with he | he
    · exact List.mem_append_left _ (h.known e he)
    · rw [List.mem_singleton.mp he]
      exact List.mem_append_right _ List.mem_cons_self
  registered e := by
    have hnamed : (l.listen event handler).named e =
        l.named e ++ if event = e then [⟨b.next, event, handler⟩] else [] := by
      simp only [Log.named, Log.listen, List.filter_append, h.length_given]
      by_cases he : event = e <;> simp [he]
    rw [registered_listen, hnamed, h.registered]
    by_cases he : event = e <;> simp [he, Entry.pair]
  sorted := h.sorted.insert _ _
  kept e he := by
    rcases Table.mem_insert he with rfl | he
    · simp
    · exact h.kept e he

theorem remove (h : b.Mirrors l) (ids : List Nat) : (b.remove ids).Mirrors (l.remove ids) where
  given := h.given
  ascending := h.ascending.sublist (List.filter_sublist.map _)
  known e he := h.known e (List.mem_filter.mp he).1
  registered event := by
    rw [registered_remove h.sorted, h.registered, List.filter_map, Log.named, Log.named, Log.remove,
      List.filter_filter, List.filter_filter]
    congr 1
    refine List.filter_congr fun e _ => ?_
    exact Bool.and_comm _ _
  sorted := (h.sorted.mapValues _).filter _
  kept e he := by simpa using (List.mem_filter.mp he).2

theorem clear (h : b.Mirrors l) : b.clear.Mirrors l.clear where
  given := h.given
  ascending := .nil
  known e he := by cases he
  registered _ := rfl
  sorted := Table.sorted_nil
  kept e he := by cases he

/-! ## What is seen of the bus -/

theorem mem_entries_iff (h : b.Mirrors l) {e : Entry η} :
    e ∈ l.entries ↔ e.pair ∈ b.registered e.event := by
  rw [h.registered, List.mem_map]
  constructor
  · exact fun he => ⟨e, List.mem_filter.mpr ⟨he, decide_eq_true rfl⟩, rfl⟩
  · rintro ⟨e', he', hpair⟩
    obtain ⟨hmem, hevent⟩ := List.mem_filter.mp he'
    have hevent : e'.event = e.event := of_decide_eq_true hevent
    obtain ⟨_, _, _⟩ := e
    obtain ⟨_, _, _⟩ := e'
    cases hpair
    cases hevent
    exact hmem

theorem nodup_entries (h : b.Mirrors l) : l.entries.Nodup :=
  .of_map _ (h.ascending.imp Nat.ne_of_lt)

/-- All logs behind a bus hold the same registrations. -/
theorem entries_unique (h : b.Mirrors l) {l' : Log η} (h' : b.Mirrors l') :
    l.entries = l'.entries := by
  have hsorted : l.entries.Pairwise fun e e' => e.number < e'.number :=
    List.pairwise_map.mp h.ascending
  refine List.Perm.eq_of_pairwise ?_ hsorted (List.pairwise_map.mp h'.ascending) ?_
  · exact fun _ _ _ _ hlt hgt => absurd hgt (Nat.lt_asymm hlt)
  · rw [List.perm_ext_iff_of_nodup h.nodup_entries h'.nodup_entries]
    intro e
    rw [h.mem_entries_iff, h'.mem_entries_iff]

theorem handlers (h : b.Mirrors l) (event : String) :
    b.handlers event = (l.named event).map Entry.handler := by
  rw [Bus.handlers, h.registered, List.map_map]
  rfl

theorem count (h : b.Mirrors l) (event : String) : b.count event = (l.named event).length := by
  rw [Bus.count, h.registered, List.length_map]

theorem ascending_events (h : b.Mirrors l) : b.events.Pairwise (· < ·) :=
  List.pairwise_map.mpr h.sorted

/-- What the table has under a name are the registrations of the name, and there are some. -/
theorem mem_table_iff (h : b.Mirrors l) {event : String} {gs : List (Nat × η)} :
    (event, gs) ∈ b.table ↔ gs = (l.named event).map Entry.pair ∧ l.named event ≠ [] := by
  have hregistered := h.registered event
  rw [Bus.registered] at hregistered
  constructor
  · intro hgs
    rw [h.sorted.mem_iff.mp hgs] at hregistered
    have hfound : gs = (l.named event).map Entry.pair := hregistered
    exact ⟨hfound, fun hnone => h.kept _ hgs (by rw [hfound, hnone]; rfl)⟩
  · rintro ⟨rfl, hsome⟩
    rw [h.sorted.mem_iff]
    cases hget : b.table.get? event with
    | some gs => exact congrArg some (by simpa [hget] using hregistered)
    | none =>
      rw [hget] at hregistered
      exact absurd (List.map_eq_nil_iff.mp hregistered.symm) hsome

theorem mem_events_iff (h : b.Mirrors l) {event : String} :
    event ∈ b.events ↔ ∃ e ∈ l.entries, e.event = event := by
  have hsome : l.named event ≠ [] ↔ ∃ e ∈ l.entries, e.event = event := by
    simp [Log.named, List.filter_eq_nil_iff]
  rw [← hsome, events, Table.names, List.mem_map]
  constructor
  · rintro ⟨⟨_, gs⟩, hgs, rfl⟩
    exact (h.mem_table_iff.mp hgs).2
  · intro hnamed
    exact ⟨_, h.mem_table_iff.mpr ⟨rfl, hnamed⟩, rfl⟩

/-- Buses with as many handlers of every event have the same events. -/
theorem events_eq (h : b.Mirrors l) {b' : Bus η} {l' : Log η} (h' : b'.Mirrors l')
    (hcount : ∀ event, b.count event = b'.count event) : b.events = b'.events := by
  have hnamed : ∀ {b : Bus η} {l : Log η}, b.Mirrors l →
      ∀ event, event ∈ b.events ↔ b.count event ≠ 0 := by
    intro b l h event
    rw [h.mem_events_iff, h.count, Ne, List.length_eq_zero_iff]
    simp [Log.named, List.filter_eq_nil_iff]
  have hnodup : ∀ {b : Bus η} {l : Log η}, b.Mirrors l → b.events.Nodup := by
    intro b l h
    refine h.ascending_events.imp fun {s t} hlt heq => ?_
    exact String.lt_irrefl t (heq ▸ hlt)
  refine List.Perm.eq_of_pairwise (fun s t _ _ hlt hgt => absurd hgt (String.lt_asymm hlt))
    h.ascending_events h'.ascending_events ?_
  rw [List.perm_ext_iff_of_nodup (hnodup h) (hnodup h')]
  intro event
  rw [hnamed h, hnamed h', hcount]

theorem isEmpty_iff (h : b.Mirrors l) : b.isEmpty = true ↔ l.entries = [] := by
  rw [Bus.isEmpty, List.all_eq_true]
  constructor
  · intro hempty
    rw [List.eq_nil_iff_forall_not_mem]
    intro e he
    obtain ⟨⟨_, gs⟩, hgs, rfl⟩ := List.mem_map.mp (h.mem_events_iff.mpr ⟨e, he, rfl⟩)
    exact h.kept _ hgs (List.isEmpty_iff.mp (hempty _ hgs))
  · rintro hnone ⟨event, gs⟩ hgs
    have hnamed := (h.mem_table_iff.mp hgs).2
    rw [Log.named, hnone] at hnamed
    exact absurd rfl hnamed

/-- The registrations of all names, put one name after another, are those of the log. -/
theorem perm_entries (h : b.Mirrors l) :
    (b.table.flatMap fun t => t.2.map fun g => (⟨g.1, t.1, g.2⟩ : Entry η)).Perm l.entries := by
  have hdistinct := h.nodup_entries
  refine (List.perm_ext_iff_of_nodup ?_ hdistinct).mpr fun e => ?_
  · rw [List.nodup_flatMap]
    constructor
    · rintro ⟨event, gs⟩ hgs
      obtain ⟨rfl, -⟩ := h.mem_table_iff.mp hgs
      rw [List.map_map]
      refine List.Nodup.map_on ?_ (hdistinct.filter _)
      intro e he e' he' heq
      have hevent : e.event = event := of_decide_eq_true (List.mem_filter.mp he).2
      have hevent' : e'.event = event := of_decide_eq_true (List.mem_filter.mp he').2
      injection heq with hnumber _ hhandler
      obtain ⟨_, _, _⟩ := e
      obtain ⟨_, _, _⟩ := e'
      cases hnumber
      cases hhandler
      cases hevent
      cases hevent'
      rfl
    · refine h.sorted.imp fun {s t} hlt => ?_
      rintro e he he'
      obtain ⟨_, _, rfl⟩ := List.mem_map.mp he
      obtain ⟨_, _, heq⟩ := List.mem_map.mp he'
      injection heq with _ hnames _
      exact String.lt_irrefl s.1 (hnames ▸ hlt)
  · rw [List.mem_flatMap]
    constructor
    · rintro ⟨⟨event, gs⟩, hgs, he⟩
      obtain ⟨rfl, -⟩ := h.mem_table_iff.mp hgs
      obtain ⟨g, hg, rfl⟩ := List.mem_map.mp he
      obtain ⟨e, hnamed, rfl⟩ := List.mem_map.mp hg
      obtain ⟨hmem, hevent⟩ := List.mem_filter.mp hnamed
      obtain rfl := of_decide_eq_true hevent
      exact hmem
    · intro he
      have hnamed : e ∈ l.named e.event := List.mem_filter.mpr ⟨he, decide_eq_true rfl⟩
      refine ⟨_, h.mem_table_iff.mpr ⟨rfl, List.ne_nil_of_mem hnamed⟩, ?_⟩
      exact List.mem_map.mpr ⟨e.pair, List.mem_map_of_mem hnamed, rfl⟩

theorem size (h : b.Mirrors l) : b.size = l.entries.length := by
  have hsum : b.size =
      (b.table.flatMap fun t => t.2.map fun g => (⟨g.1, t.1, g.2⟩ : Entry η)).length := by
    unfold Bus.size
    induction b.table with
    | nil => rfl
    | cons t ts ih => simp [ih]
  rw [hsum, h.perm_entries.length_eq]

/-- As many registrations go as have one of the given numbers. -/
theorem size_sub_size_remove (h : b.Mirrors l) (ids : List Nat) :
    b.size - (b.remove ids).size = (l.found ids).length := by
  have hlength := l.length_found ids
  rw [h.size, (h.remove ids).size]
  omega

end Mirrors

end Bus

end PackHost.Event
