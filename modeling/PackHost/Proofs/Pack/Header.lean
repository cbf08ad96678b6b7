import PackHost.Pack.Header
import PackHost.Proofs.Files.Walk
import PackHost.ScriptKind

/-!
# Headers

A line of code ends the header of a file (`Header.read_append_code`), so the texts of the examples
need not be read further than to their first one.
-/

namespace PackHost.Pack.Header

theorem readLines_append_code {code : List Char}
    (hcode : HeaderLine.ofText (Source.trim code) = .code) (lines rest : List (List Char))
    (h : Header) (n : Nat) : h.readLines n (lines ++ code :: rest) = h.readLines n lines := by
  induction lines generalizing h n with
  | nil => simp only [List.nil_append, readLines, hcode]
  | cons l lines ih =>
    rw [List.cons_append, readLines, readLines]
    cases HeaderLine.ofText (Source.trim l) with
    | code => rfl
    | nothing => exact ih h _
    | directive key value =>
      dsimp only
      cases h.apply n key value with
      | error m => rfl
      | ok h' => exact ih h' _

/-- **What follows a line of code does not matter.** -/
theorem read_append_code {line : String} (hline : '\n' ∉ line.toList)
    (hcode : HeaderLine.ofText (Source.trim line.toList) = .code) (before after : String) :
    read (before ++ "\n" ++ line ++ "\n" ++ after) = read before := by
  have hbreak : "\n".toList = ['\n'] := rfl
  rw [read, read]
  simp only [String.toList_append, hbreak, List.append_assoc, List.cons_append, List.nil_append,
    Files.splitAtAll_append, Files.splitAtAll_of_not_mem hline]
  exact readLines_append_code hcode _ _ _ _

/-! ## The examples -/

def greeting : String := "log(`Hello from $\x7bSCRIPT_TYPE\x7d scripts!`);"

theorem exampleHead_append (about rest : String) : ScriptKind.exampleHead about ++ rest =
    "// priority: 0\n\n" ++ about ++ "\n" ++ greeting ++ "\n" ++ rest := by
  have hgreeting : "\nlog(`Hello from $\x7bSCRIPT_TYPE\x7d scripts!`);\n" =
      "\n" ++ greeting ++ "\n" := rfl
  -- the texts are bound here, so that nothing looks into them
  have hassoc : ∀ a b c d e f : String,
      a ++ b ++ (c ++ d ++ e) ++ f = a ++ b ++ c ++ d ++ e ++ f := by
    intros
    simp only [String.append_assoc]
  exact (congrArg (fun text => _ ++ about ++ text ++ rest) hgreeting).trans (hassoc _ _ _ _ _ _)

theorem read_exampleHead (about rest : String) :
    read (ScriptKind.exampleHead about ++ rest) = read ("// priority: 0\n\n" ++ about) := by
  have hgreeting : '\n' ∉ greeting.toList ∧
      HeaderLine.ofText (Source.trim greeting.toList) = .code := by decide
  rw [exampleHead_append]
  exact read_append_code hgreeting.1 hgreeting.2 _ _

/-- The examples set nothing. -/
theorem read_exampleScript (kind : ScriptKind) : read kind.exampleScript = .ok default := by
  cases kind with
  | startup =>
    rw [ScriptKind.exampleScript, String.append_assoc, read_exampleHead]
    decide +kernel
  | server =>
    rw [ScriptKind.exampleScript, String.append_assoc, read_exampleHead]
    rfl
  | client =>
    rw [ScriptKind.exampleScript, read_exampleHead]
    rfl

end PackHost.Pack.Header
