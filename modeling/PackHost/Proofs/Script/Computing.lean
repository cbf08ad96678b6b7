import PackHost.Proofs.Script.Mishap

/-!
# What the language itself computes

Operators and functions of the language give a value, or a reason why there is none for which the
host is not to blame.
-/

namespace PackHost.Script

/-- There is a value, or the script is to blame. -/
inductive Result.IsOwn : Result → Prop
  | ok (d : Datum) : IsOwn (.ok d)
  | error {c : Cause} : c.isHost = false → IsOwn (.error c)

theorem isOwn_undefinedFor (what sign : String) (a b : Int64) :
    Result.IsOwn (undefinedFor what sign a b) :=
  .error rfl

theorem isOwn_fit (n : Int) (what sign : String) (a b : Int64) :
    Result.IsOwn (fit n what sign a b) := by
  unfold fit
  split
  · exact .ok _
  · exact isOwn_undefinedFor what sign a b

theorem isOwn_intPower (a b : Int64) : Result.IsOwn (intPower a b) := by
  unfold intPower
  dsimp only
  split
  · exact isOwn_undefinedFor ..
  · split
    · exact isOwn_undefinedFor ..
    · split
      · exact .ok _
      · split
        · exact isOwn_undefinedFor ..
        · exact isOwn_fit ..

theorem isOwn_intOp {op : BinaryOp} {a b : Int64} {r : Result} (h : intOp op a b = some r) :
    r.IsOwn := by
  cases op with
  | add | subtract | multiply =>
    cases h
    exact isOwn_fit ..
  | divide =>
    cases h
    split
    · exact isOwn_undefinedFor ..
    · exact isOwn_fit ..
  | modulo =>
    cases h
    split
    · exact isOwn_undefinedFor ..
    · exact .ok _
  | power =>
    cases h
    exact isOwn_intPower a b
  | equal | unequal => cases h
  | _ =>
    cases h
    exact .ok _

theorem isOwn_floatOp {op : BinaryOp} {a b : Float} {r : Result} (h : floatOp op a b = some r) :
    r.IsOwn := by
  cases op <;> cases h <;> exact .ok _

theorem isOwn_orderOp {op : BinaryOp} {less equal : Bool} {r : Result}
    (h : orderOp op less equal = some r) : r.IsOwn := by
  cases op <;> cases h <;> exact .ok _

theorem isOwn_boolOp {op : BinaryOp} {a b : Bool} {r : Result} (h : boolOp op a b = some r) :
    r.IsOwn := by
  unfold boolOp at h
  split at h
  · cases h
    exact .ok _
  · cases h
    exact .ok _
  · cases h
    exact .ok _
  · exact isOwn_orderOp h

theorem isOwn_joined {a b : Datum} {r : Result} (h : joined a b = some r) : r.IsOwn := by
  unfold joined at h
  split at h <;> cases h <;> exact .ok _

theorem isOwn_apply {op : BinaryOp} {a b : Datum} {r : Result} (h : op.apply a b = some r) :
    r.IsOwn := by
  unfold BinaryOp.apply at h
  split at h
  · cases h
    exact .ok _
  · cases h
    exact .ok _
  · split at h
    · exact isOwn_intOp h
    · exact isOwn_floatOp h
    · exact isOwn_floatOp h
    · exact isOwn_floatOp h
    · exact isOwn_boolOp h
    · split at h
      · exact isOwn_joined h
      · split at h
        · split at h
          · exact isOwn_orderOp h
          · exact isOwn_orderOp h
          · exact isOwn_orderOp h
          · exact isOwn_orderOp h
          · cases h
            exact .ok _
          · split at h
            · cases h
            · cases h
              exact .ok _
        · split at h <;> cases h <;> exact .ok _

theorem isOwn_applyUnary {op : UnaryOp} {d : Datum} {r : Result} (h : op.apply d = some r) :
    r.IsOwn := by
  unfold UnaryOp.apply at h
  split at h
  · cases h
    split
    · exact .error rfl
    · exact .ok _
  all_goals cases h <;> exact .ok _

theorem isOwn_combine {op : BinaryOp} {a b : Datum} {r : Result} (h : op.combine a b = some r) :
    r.IsOwn := by
  unfold BinaryOp.combine at h
  split at h
  · cases h
    exact .ok _
  · cases h
    exact .ok _
  · exact isOwn_apply h

theorem isOwn_sorted (ds : List Datum) : Result.IsOwn (Builtin.sorted ds) := by
  unfold Builtin.sorted
  split
  · exact .ok _
  · split
    · exact .ok _
    · exact .error rfl

def Answer.result? : Answer → Option Result
  | .value r => some r
  | .change r => some r
  | .quit => none

theorem isOwn_answer {name : String} {args : List Datum} {a : Answer} {r : Result}
    (h : Builtin.answer? name args = some a) (hr : a.result? = some r) : r.IsOwn := by
  unfold Builtin.answer? at h
  split at h
  case h_3 =>
    cases h
    cases hr
    exact isOwn_sorted _
  case h_1 | h_11 =>
    obtain ⟨_, -, hgive⟩ := Option.bind_eq_some_iff.mp h
    cases hgive
    cases hr
    exact .ok _
  case h_15 =>
    obtain ⟨-, hquit⟩ := Option.ite_none_right_eq_some.mp h
    cases hquit
    cases hr
  all_goals
    cases h <;> cases hr <;> exact .ok _

end PackHost.Script
