import PackHost.Script.Call

/-!
# Parts of values

A path leads from a value to a part of it, or on to the result of a call. What is changed at the end
of the path is put back into every value on the way, but not behind the result of a call.
-/

namespace PackHost.Script

open Source (Position)

inductive Step where
  | property (name : String) (place : Position)
  | index (d : Datum) (place : Position)
  | method (name : String) (args : List Datum) (place : Position)

/-- Where an index points to in a sequence; negative ones count from the end. -/
def indexIn? (length : Nat) (index : Int) : Option Nat :=
  let k := if index < 0 then index + length else index
  if 0 ≤ k ∧ k < length then some k.toNat else none

inductive Purpose where
  | read
  /-- The value is replaced: by the given one, or by what an operator makes of both. -/
  | write (op : Option BinaryOp) (value : Datum) (place : Position)

namespace Purpose

def writes : Purpose → Bool
  | .read => false
  | .write .. => true

/-- Whether a missing property at the end of the path is added. -/
def adds (p : Purpose) (rest : List Step) : Bool :=
  p.writes && rest.isEmpty

/-- Why a property that cannot be found cannot serve the purpose. -/
def refusal (p : Purpose) (name type : String) : Cause :=
  match p with
  | .write none value _ => .assignment name type value.typeName
  | _ => .property name type

/-- What is done with a value: what comes out of it, and what takes its place. -/
def perform (p : Purpose) (d : Datum) : Reply :=
  match p with
  | .read => (.ok d, d)
  | .write none value _ => (.ok .unit, value)
  | .write (some op) value place =>
    match op.combine d value with
    | some (.ok e) => (.ok .unit, e)
    | some (.error c) => (.error (.fault (.new c place)), d)
    | none => (.error (.fault (.new (.function (Datum.callText op.sign [d, value])) place)), d)

end Purpose

namespace Env

variable (calls : Calls) (env : Env)

def refuseAt (d : Datum) (cause : Cause) (place : Position) : Eval Reply :=
  return (.error (.fault (.new cause place)), d)

/-- Goes along a path from a value; `constant` says whether the value must not be changed. -/
def follow (purpose : Purpose) (constant : Bool) : List Step → Datum → Eval Reply
  | [], d => return purpose.perform d
  | .method name args place :: rest, d => do
    match ← callMethod calls env constant d name args place with
    | (.ok e, d') =>
      let r ← follow purpose false rest e
      return (r.1, d')
    | r => return r
  | .property name place :: rest, d =>
    match d with
    | .map entries =>
      match Table.get? name entries with
      | some e => do
        let r ← follow purpose constant rest e
        return (r.1, .map (Table.insert name r.2 entries))
      | none => do
        let r ← follow purpose constant rest .unit
        return (r.1, if purpose.adds rest then .map (Table.insert name r.2 entries) else d)
    | _ =>
      if purpose.adds rest then refuseAt d (purpose.refusal name d.typeName) place
      else
        match Builtin.property? name d with
        | some e => do
          let r ← follow purpose false rest e
          return (r.1, d)
        | none => refuseAt d (.property name d.typeName) place
  | .index i place :: rest, d =>
    match d, i with
    | .array items, .int n =>
      match (indexIn? items.length n.toInt).bind fun k => items[k]?.map fun e => (k, e) with
      | some (k, e) => do
        let r ← follow purpose constant rest e
        return (r.1, .array (items.set k r.2))
      | none => refuseAt d (.array items.length n.toInt) place
    | .map entries, .text name =>
      match Table.get? name entries with
      | some e => do
        let r ← follow purpose constant rest e
        return (r.1, .map (Table.insert name r.2 entries))
      | none => do
        let r ← follow purpose constant rest .unit
        return (r.1, if purpose.adds rest then .map (Table.insert name r.2 entries) else d)
    | .text s, .int n =>
      match (indexIn? s.length n.toInt).bind fun k => s.toList[k]?.map fun c => (k, c) with
      | some (k, c) => do
        match ← follow purpose constant rest (.char c) with
        | (.ok e, .char c') => return (.ok e, .text (String.ofList (s.toList.set k c')))
        | (.ok _, e) => refuseAt d (.mismatch "char" e.typeName) place
        | (.error e, _) => return (.error e, d)
      | none => refuseAt d (.string s.length n.toInt) place
    | .array _, _ => refuseAt d (.mismatch "i64" i.typeName) place
    | .text _, _ => refuseAt d (.mismatch "i64" i.typeName) place
    | .map _, _ => refuseAt d (.mismatch "string" i.typeName) place
    | _, _ => refuseAt d (.items (d.typeName ++ " [" ++ i.typeName ++ "]")) place

/-- Goes along a path from a variable, and puts back what the path made of its value. -/
def followFrom (purpose : Purpose) (v : Mention) (steps : List Step) : Eval Datum := do
  let s ← env.lookUp v
  if purpose.writes && s.constant then Eval.fail (.constant v.name) v.place
  let r ← follow calls env purpose s.constant steps s.value
  if !s.constant then store v.name r.2
  Eval.settle r.1

end Env

end PackHost.Script
