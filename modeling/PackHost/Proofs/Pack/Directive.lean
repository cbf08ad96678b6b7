import PackHost.Pack.ScriptFile
import PackHost.Proofs.Files.Walk
import PackHost.Proofs.Pack.Heading

/-!
# Directives

What the lines of a heading say together. Of the lines that set a key the last one decides
(`Settled`), and the first line with a value that makes no sense is the fault (`FirstMisfit`). One
line of the heading is the fault or leaves a header to the others (`line_cases`); from this the
whole of the heading is read, and so is the text (`read_of_heading`).
-/

namespace PackHost.Pack.Header

open Source (trim)

/-! ## What the lines say together -/

/-- The first line that is not fine, with its number; the lines are counted from `first`. -/
def FirstMisfit (first : Nat) (lines : List (List Char)) (m : Misread) : Prop :=
  ∃ before line after, lines = before ++ line :: after ∧ (∀ l ∈ before, Fine l) ∧
    m.line = first + before.length ∧ Sets line m.directive.toList m.value.toList ∧
    Misfit m.directive.toList m.value.toList

/-- The last line that sets the key does so to `v`; without such a line it is `start`. -/
def Settled {α : Type} (key : List Char) (Writes : List Char → α → Prop)
    (lines : List (List Char)) (start v : α) : Prop :=
  (∃ before line after value, lines = before ++ line :: after ∧ Sets line key value ∧
    Writes value v ∧ ∀ l ∈ after, ∀ w, ¬ Sets l key w) ∨
  (∀ l ∈ lines, ∀ w, ¬ Sets l key w) ∧ v = start

/-! ## One more line -/

section Settled

variable {α : Type} {key value line : List Char} {Writes : List Char → α → Prop}
  {lines : List (List Char)} {start v w : α}

/-- A line that does not set the key does not count. -/
theorem settled_cons_of_not_sets (h : ∀ w, ¬ Sets line key w) :
    Settled key Writes (line :: lines) start v ↔ Settled key Writes lines start v := by
  constructor
  · rintro (⟨before, l, after, value, heq, hsets, hwrites, hafter⟩ | ⟨hnone, rfl⟩)
    · cases before with
      | nil =>
        cases heq
        exact absurd hsets (h value)
      | cons b before =>
        cases heq
        exact .inl ⟨before, l, after, value, rfl, hsets, hwrites, hafter⟩
    · exact .inr ⟨fun l hl => hnone l (List.mem_cons_of_mem _ hl), rfl⟩
  · rintro (⟨before, l, after, value, rfl, hsets, hwrites, hafter⟩ | ⟨hnone, rfl⟩)
    · exact .inl ⟨line :: before, l, after, value, rfl, hsets, hwrites, hafter⟩
    · exact .inr ⟨List.forall_mem_cons.mpr ⟨h, hnone⟩, rfl⟩

theorem settled_cons_of_sets (h : Sets line key value)
    (hvalue : ∀ v, Writes value v ↔ v = w) :
    Settled key Writes (line :: lines) start v ↔ Settled key Writes lines w v := by
  constructor
  · rintro (⟨before, l, after, value', heq, hsets, hwrites, hafter⟩ | ⟨hnone, rfl⟩)
    · cases before with
      | nil =>
        cases heq
        obtain ⟨-, rfl⟩ := h.unique hsets
        exact .inr ⟨hafter, (hvalue v).mp hwrites⟩
      | cons b before =>
        cases heq
        exact .inl ⟨before, l, after, value', rfl, hsets, hwrites, hafter⟩
    · exact absurd h (hnone line List.mem_cons_self value)
  · rintro (⟨before, l, after, value', rfl, hsets, hwrites, hafter⟩ | ⟨hnone, rfl⟩)
    · exact .inl ⟨line :: before, l, after, value', rfl, hsets, hwrites, hafter⟩
    · exact .inl ⟨[], line, lines, value, rfl, h, (hvalue v).mpr rfl, hnone⟩

/-- What the first line leaves is the start for the others: its value, if it sets the key. -/
theorem settled_cons {key' : List Char} {value? : List Char → Option α} (h : Sets line key' value)
    (hwrites : ∀ {text v}, value? text = some v ↔ Writes text v)
    (hleaves : key' = key ∧ value? value = some w ∨ key' ≠ key ∧ w = start) :
    Settled key Writes (line :: lines) start v ↔ Settled key Writes lines w v := by
  rcases hleaves with ⟨rfl, hvalue⟩ | ⟨hne, rfl⟩
  · refine settled_cons_of_sets h fun v => ?_
    rw [← hwrites, hvalue, Option.some.injEq, eq_comm]
  · exact settled_cons_of_not_sets fun value' hsets => hne (h.unique hsets).1

end Settled

/-! ## A directive -/

section Apply

variable {h h' : Header} {line : Nat} {key value : List Char} {m : Misread}

theorem misfit_iff : Misfit key value ↔
    key = "priority".toList ∧ priority? value = none ∨
      key = "ignored".toList ∧ truth? value = none := by
  simp only [Misfit, Option.eq_none_iff_forall_ne_some, ne_eq, priority?_eq_some_iff,
    truth?_eq_some_iff]

theorem apply_eq_error_iff : h.apply line key value = .error m ↔
    Misfit key value ∧ m = ⟨line, String.ofList key, String.ofList value⟩ := by
  rw [misfit_iff, apply]
  split
  · next hkey =>
    subst hkey
    cases priority? value <;> simp [eq_comm]
  · next hpriority =>
    split
    · next hkey =>
      subst hkey
      cases truth? value <;> simp [eq_comm]
    · next hignored => simp_all

/-- A directive changes what it names, and nothing else. -/
theorem apply_eq_ok (happly : h.apply line key value = .ok h') :
    (key = "priority".toList ∧ priority? value = some h'.priority ∨
      key ≠ "priority".toList ∧ h'.priority = h.priority) ∧
    (key = "ignored".toList ∧ truth? value = some h'.ignored ∨
      key ≠ "ignored".toList ∧ h'.ignored = h.ignored) := by
  unfold apply at happly
  split at happly
  · next hkey =>
    subst hkey
    split at happly
    · next n hn =>
      cases happly
      exact ⟨.inl ⟨rfl, hn⟩, .inr ⟨by decide, rfl⟩⟩
    · cases happly
  · next hpriority =>
    split at happly
    · next hkey =>
      subst hkey
      split at happly
      · next b hb =>
        cases happly
        exact ⟨.inr ⟨hpriority, rfl⟩, .inl ⟨rfl, hb⟩⟩
      · cases happly
    · next hignored =>
      cases happly
      exact ⟨.inr ⟨hpriority, rfl⟩, .inr ⟨hignored, rfl⟩⟩

end Apply

/-! ## One line -/

section Step

variable {h h' : Header} {n : Nat} {key value line : List Char} {ls : List (List Char)}
  {m : Misread}

/-- A line is fine if the value that it sets is taken. -/
theorem fine_of_apply (hsets : Sets line key value) (happly : h.apply n key value = .ok h') :
    Fine line := by
  intro key' value' hsets' hmisfit
  obtain ⟨rfl, rfl⟩ := hsets.unique hsets'
  have herror : h.apply n key value = .error ⟨n, String.ofList key, String.ofList value⟩ :=
    apply_eq_error_iff.mpr ⟨hmisfit, rfl⟩
  rw [happly] at herror
  cases herror

theorem firstMisfit_cons_of_fine (hfine : Fine line) :
    FirstMisfit n (line :: ls) m ↔ FirstMisfit (n + 1) ls m := by
  constructor
  · rintro ⟨before, l, after, heq, hbefore, hline, hsets, hmisfit⟩
    cases before with
    | nil =>
      cases heq
      exact absurd hmisfit (hfine _ _ hsets)
    | cons b before =>
      cases heq
      rw [List.length_cons] at hline
      exact ⟨before, l, after, rfl, (List.forall_mem_cons.mp hbefore).2, by omega, hsets, hmisfit⟩
  · rintro ⟨before, l, after, rfl, hbefore, hline, hsets, hmisfit⟩
    refine ⟨line :: before, l, after, rfl, List.forall_mem_cons.mpr ⟨hfine, hbefore⟩, ?_, hsets,
      hmisfit⟩
    rw [List.length_cons]
    omega

theorem firstMisfit_cons_of_misfit (hsets : Sets line key value) (hmisfit : Misfit key value) :
    FirstMisfit n (line :: ls) m ↔ m = ⟨n, String.ofList key, String.ofList value⟩ := by
  constructor
  · rintro ⟨before, l, after, heq, hbefore, hline, hsets', -⟩
    cases before with
    | nil =>
      cases heq
      obtain ⟨hkey, hvalue⟩ := hsets.unique hsets'
      cases m
      simp_all
    | cons b before =>
      cases heq
      exact absurd hmisfit (hbefore _ List.mem_cons_self _ _ hsets)
  · rintro rfl
    refine ⟨[], line, ls, rfl, List.forall_mem_nil _, rfl, ?_, ?_⟩
    all_goals simpa only [String.toList_ofList]

/-- **What a line of the heading does.** Either it is the fault, or it is fine and the others are
read from the header that it leaves. -/
theorem line_cases (h : Header) (n : Nat) (hline : IsHeading line) :
    (∃ key value, Sets line key value ∧ Misfit key value ∧
      ∀ ls, h.readLines n (line :: ls) = .error ⟨n, String.ofList key, String.ofList value⟩) ∨
    ∃ h' : Header, Fine line ∧ ∀ ls, h.readLines n (line :: ls) = h'.readLines (n + 1) ls ∧
      (∀ p, Settled "priority".toList WritesPriority (line :: ls) h.priority p ↔
        Settled "priority".toList WritesPriority ls h'.priority p) ∧
      ∀ b, Settled "ignored".toList WritesTruth (line :: ls) h.ignored b ↔
        Settled "ignored".toList WritesTruth ls h'.ignored b := by
  cases htext : HeaderLine.ofText (trim line) with
  | code => exact absurd htext (isHeading_iff.mp hline)
  | nothing =>
    have hnone : ∀ key value, ¬ Sets line key value := by simp [sets_iff, htext]
    refine .inr ⟨h, fun key value hsets => absurd hsets (hnone key value), fun ls => ⟨?_, ?_, ?_⟩⟩
    · rw [readLines, htext]
    · exact fun p => settled_cons_of_not_sets (hnone _)
    · exact fun b => settled_cons_of_not_sets (hnone _)
  | directive key value =>
    have hsets := sets_iff.mpr htext
    cases happly : h.apply n key value with
    | error m =>
      obtain ⟨hmisfit, rfl⟩ := apply_eq_error_iff.mp happly
      refine .inl ⟨key, value, hsets, hmisfit, fun ls => ?_⟩
      simp only [readLines, htext, happly]
    | ok h' =>
      refine .inr ⟨h', fine_of_apply hsets happly, fun ls => ⟨?_, ?_, ?_⟩⟩
      · simp only [readLines, htext, happly]
      · exact fun p => settled_cons hsets priority?_eq_some_iff (apply_eq_ok happly).1
      · exact fun b => settled_cons hsets truth?_eq_some_iff (apply_eq_ok happly).2

end Step

/-! ## All lines -/

section Run

variable {h h' : Header} {n : Nat} {ls : List (List Char)} {m : Misread}

theorem readLines_eq_error_iff (hheading : ∀ l ∈ ls, IsHeading l) :
    h.readLines n ls = .error m ↔ FirstMisfit n ls m := by
  induction ls generalizing h n with
  | nil => simp [readLines, FirstMisfit]
  | cons line ls ih =>
    obtain ⟨hline, hls⟩ := List.forall_mem_cons.mp hheading
    obtain ⟨key, value, hsets, hmisfit, hread⟩ | ⟨h', hfine, hread⟩ := line_cases h n hline
    · rw [hread, firstMisfit_cons_of_misfit hsets hmisfit, Except.error.injEq, eq_comm]
    · rw [(hread ls).1, ih hls, firstMisfit_cons_of_fine hfine]

theorem readLines_eq_ok_iff (hheading : ∀ l ∈ ls, IsHeading l) :
    h.readLines n ls = .ok h' ↔ (∀ l ∈ ls, Fine l) ∧
      Settled "priority".toList WritesPriority ls h.priority h'.priority ∧
      Settled "ignored".toList WritesTruth ls h.ignored h'.ignored := by
  induction ls generalizing h n with
  | nil =>
    cases h
    cases h'
    simp [readLines, Settled, eq_comm]
  | cons line ls ih =>
    obtain ⟨hline, hls⟩ := List.forall_mem_cons.mp hheading
    rw [List.forall_mem_cons]
    obtain ⟨key, value, hsets, hmisfit, hread⟩ | ⟨h₁, hfine, hread⟩ := line_cases h n hline
    · have hnot : ¬ Fine line := fun hfine => hfine key value hsets hmisfit
      simp [hread, hnot]
    · obtain ⟨heq, hpriority, hignored⟩ := hread ls
      rw [heq, ih hls, hpriority, hignored, and_iff_right hfine]

/-! ## The whole text -/

theorem readLines_takeWhile :
    h.readLines n (ls.takeWhile (IsHeading ·)) = h.readLines n ls := by
  induction ls generalizing h n with
  | nil => rfl
  | cons line ls ih =>
    rw [List.takeWhile_cons]
    split
    · rw [readLines, readLines]
      simp only [ih]
    · next hcode =>
      have htext : HeaderLine.ofText (trim line) = .code := by
        simpa [isHeading_iff] using hcode
      rw [readLines, readLines, htext]

/-- The carriage returns of the breaks and an empty last part do not count. -/
theorem readLines_linesOf : h.readLines n (linesOf ls) = h.readLines n ls := by
  induction ls generalizing h n with
  | nil => rfl
  | cons part parts ih =>
    cases parts with
    | nil =>
      unfold linesOf
      split
      · next hlast =>
        subst hlast
        rfl
      · rfl
    | cons next parts =>
      rw [linesOf, readLines, readLines, trim_unreturned]
      simp only [ih]

end Run

section Read

variable {source location : String} {path : Files.Path} {h : Header} {m : Misread}

theorem read_eq_readLines (source : String) :
    read source = default.readLines 1 (heading source) := by
  rw [heading, readLines_takeWhile, lines, readLines_linesOf, read]

theorem isHeading_of_mem (source : String) : ∀ l ∈ heading source, IsHeading l := by
  intro l hl
  simpa using List.mem_takeWhile_imp hl

theorem read_eq_error_iff : read source = .error m ↔ FirstMisfit 1 (heading source) m := by
  rw [read_eq_readLines, readLines_eq_error_iff (isHeading_of_mem source)]

theorem read_eq_ok_iff : read source = .ok h ↔ (∀ l ∈ heading source, Fine l) ∧
    Settled "priority".toList WritesPriority (heading source) 0 h.priority ∧
    Settled "ignored".toList WritesTruth (heading source) false h.ignored := by
  rw [read_eq_readLines, readLines_eq_ok_iff (isHeading_of_mem source)]
  rfl

theorem exists_read_of_fine (hfine : ∀ l ∈ heading source, Fine l) :
    ∃ h, read source = .ok h := by
  cases hread : read source with
  | ok h => exact ⟨h, rfl⟩
  | error m =>
    obtain ⟨before, line, after, heq, -, -, hsets, hmisfit⟩ := read_eq_error_iff.mp hread
    have hline : line ∈ heading source := heq ▸ List.mem_append_right _ List.mem_cons_self
    exact absurd hmisfit (hfine line hline _ _ hsets)

theorem ofText_eq_error_iff {e : ReadFault} : ScriptFile.ofText location path source = .error e ↔
    ∃ m, FirstMisfit 1 (heading source) m ∧ e = .misread location m := by
  simp only [← read_eq_error_iff]
  unfold ScriptFile.ofText
  split
  · next m hread => simp [hread, eq_comm]
  · next h hread => simp [hread]

/-- A file is left out only if the whole of its heading is fine. -/
theorem ofText_eq_ok_none_iff : ScriptFile.ofText location path source = .ok none ↔
    (∀ l ∈ heading source, Fine l) ∧
      Settled "ignored".toList WritesTruth (heading source) false true := by
  have hread : ScriptFile.ofText location path source = .ok none ↔
      ∃ h, read source = .ok h ∧ h.ignored = true := by
    unfold ScriptFile.ofText
    split
    · next m hread => simp [hread]
    · next h hread => simp [hread]
  rw [hread]
  constructor
  · rintro ⟨h, hok, hignored⟩
    obtain ⟨hfine, -, hsettled⟩ := read_eq_ok_iff.mp hok
    exact ⟨hfine, hignored ▸ hsettled⟩
  · rintro ⟨hfine, hsettled⟩
    obtain ⟨h, hok⟩ := exists_read_of_fine hfine
    obtain ⟨-, hpriority, -⟩ := read_eq_ok_iff.mp hok
    exact ⟨⟨h.priority, true⟩, read_eq_ok_iff.mpr ⟨hfine, hpriority, hsettled⟩, rfl⟩

theorem read_eq_ok_none_iff {t : Files.Tree} {root : Files.Path} :
    ScriptFile.read t root path = .ok none ↔ ∃ location contents source,
      locationOf root path = .ok location ∧ t.read path = .ok contents ∧
      String.fromUTF8? contents = some source ∧
      ScriptFile.ofText location path source = .ok none := by
  unfold ScriptFile.read
  constructor
  · intro h
    split at h
    · cases h
    · next location hlocation =>
      split at h
      · cases h
      · next contents hcontents =>
        split at h
        · cases h
        · next source hsource =>
          exact ⟨location, contents, source, hlocation, hcontents, hsource, h⟩
  · rintro ⟨location, contents, source, hlocation, hcontents, hsource, htext⟩
    simp only [hlocation, hcontents, hsource, htext]

end Read

/-! ## A directive written plainly -/

theorem read_priority (n : Int) : read ("// priority: " ++ toString n) =
    if -2147483648 ≤ n ∧ n ≤ 2147483647 then .ok ⟨n, false⟩
    else .error ⟨1, "priority", toString n⟩ := by
  obtain ⟨hne, visible⟩ := toString_visible n
  have hall : ("priority".toList.all fun c => !Text.isBlank c) = true := by decide
  have hkey : ∀ c ∈ "priority".toList, Text.isBlank c = false :=
    fun c hc => by simpa using List.all_eq_true.mp hall c hc
  have hsets :
      Sets ("// priority: " ++ toString n).toList "priority".toList (toString n).toList := by
    rw [String.toList_append]
    exact sets_plain (by decide) hne (List.forall_mem_append.mpr ⟨hkey, visible⟩)
  have hline : '\n' ∉ ("// priority: " ++ toString n).toList := by
    rw [String.toList_append, List.mem_append]
    rintro (h | h)
    · exact absurd h (by decide)
    · exact absurd (visible _ h) (by decide)
  rw [read, Files.splitAtAll_of_not_mem hline]
  have hvalue : priority? (toString n).toList =
      if -2147483648 ≤ n ∧ n ≤ 2147483647 then some n else none := by
    rw [priority?_toString, Option.filter_some]
    simp only [fits32_iff]
  by_cases hfits : -2147483648 ≤ n ∧ n ≤ 2147483647
  · rw [if_pos hfits] at hvalue ⊢
    simp only [readLines, sets_iff.mp hsets, apply, hvalue]
    rfl
  · rw [if_neg hfits] at hvalue ⊢
    simp only [readLines, sets_iff.mp hsets, apply, hvalue, ↓reduceIte, String.ofList_toList]

/-- **A header is read as its heading says.** Nothing behind the heading counts. The text is refused
for the first line that sets the priority, or whether the file is left out, to a value that makes no
sense. If there is none, the last line that sets either of them decides. A file is left out only if
it is there and its heading says so, with all lines of it fine. A number is taken as a priority
exactly if it has 32 bits. -/
theorem read_of_heading :
    (∀ source source', heading source = heading source' → read source = read source') ∧
    (∀ source m, read source = .error m ↔ FirstMisfit 1 (heading source) m) ∧
    (∀ source h, read source = .ok h ↔ (∀ l ∈ heading source, Fine l) ∧
      Settled "priority".toList WritesPriority (heading source) 0 h.priority ∧
      Settled "ignored".toList WritesTruth (heading source) false h.ignored) ∧
    (∀ location path source e, ScriptFile.ofText location path source = .error e ↔
      ∃ m, FirstMisfit 1 (heading source) m ∧ e = .misread location m) ∧
    (∀ t root path, ScriptFile.read t root path = .ok none ↔
      ∃ location contents source, locationOf root path = .ok location ∧
        t.read path = .ok contents ∧ String.fromUTF8? contents = some source ∧
        (∀ l ∈ heading source, Fine l) ∧
        Settled "ignored".toList WritesTruth (heading source) false true) ∧
    ∀ n : Int, read ("// priority: " ++ toString n) =
      if -2147483648 ≤ n ∧ n ≤ 2147483647 then .ok ⟨n, false⟩
      else .error ⟨1, "priority", toString n⟩ := by
  refine ⟨fun source source' heq => ?_, fun _ _ => read_eq_error_iff, fun _ _ => read_eq_ok_iff,
    fun _ _ _ _ => ofText_eq_error_iff, fun t root path => ?_, read_priority⟩
  · rw [read_eq_readLines, read_eq_readLines source', heq]
  · rw [read_eq_ok_none_iff]
    simp only [ofText_eq_ok_none_iff]

/-- Carriage returns, blanks around the parts of a line, a comment without a colon, and a directive
behind the heading; and a number that does not fit before a word that is no truth value. -/
theorem read_of_heading_sample :
    let source := "\r\n// priority: 5\r\n//priority : +07 \n// note\nrun();\n// priority: ?"
    let other := "\n// priority: 5\n//priority : +07 \n// note"
    let wrong := "// ignored: true\n// priority: 2147483648\n// ignored: no"
    read source = read other ∧
    Settled "priority".toList WritesPriority (heading source) 0 7 ∧
    FirstMisfit 1 (heading wrong) ⟨2, "priority", "2147483648"⟩ := by
  intro source other wrong
  obtain ⟨hsame, herror, hok, -⟩ := read_of_heading
  have hheading : heading source = heading other := by decide +kernel
  have hread : read source = .ok ⟨7, false⟩ := by decide +kernel
  have hwrong : read wrong = .error ⟨2, "priority", "2147483648"⟩ := by decide +kernel
  exact ⟨hsame _ _ hheading, ((hok _ _).mp hread).2.1, (herror _ _).mp hwrong⟩

end PackHost.Pack.Header
