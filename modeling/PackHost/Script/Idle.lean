import PackHost.Script.Tree

/-!
# Statements that need not be run

A statement is idle if it can change nothing. Idle statements are dropped from a body, except for
the last statement where its value is the value of the body.
-/

namespace PackHost.Script

mutual

/-- Whether the expression can change nothing. -/
def Expr.isIdle : Expr → Bool
  | .literal _ => true
  | .variable_ .. => true
  | .template parts => idleExprs parts
  | .array items => idleExprs items
  | .map entries => idleEntries entries
  | .and l r _ _ => l.isIdle && r.isIdle
  | .or l r _ _ => l.isIdle && r.isIdle
  | .otherwise l r => l.isIdle && r.isIdle
  | .block body => idleStmts body
  | .cond test _ yes no => test.isIdle && idleStmts yes && idleStmts no
  | _ => false

/-- Whether the expressions can change nothing. -/
def idleExprs : List Expr → Bool
  | [] => true
  | e :: es => e.isIdle && idleExprs es

/-- Whether the values of the entries can change nothing. -/
def idleEntries : List (String × Expr) → Bool
  | [] => true
  | e :: es => e.2.isIdle && idleEntries es

/-- Whether the statement can change nothing. -/
def Stmt.isIdle : Stmt → Bool
  | .expr e => e.isIdle
  | .each _ _ source body _ => source.isIdle && idleStmts body
  | .rescue body _ handler => idleStmts body && idleStmts handler
  | _ => false

/-- Whether the statements can change nothing. -/
def idleStmts : List Stmt → Bool
  | [] => true
  | s :: ss => s.isIdle && idleStmts ss

end

/-- The statements without the idle ones, but with the last one. -/
def busyWithLast : List Stmt → List Stmt
  | [] => []
  | [s] => [s]
  | s :: ss => if s.isIdle then busyWithLast ss else s :: busyWithLast ss

def busy (ss : List Stmt) : List Stmt := ss.filter fun s => !s.isIdle

end PackHost.Script
