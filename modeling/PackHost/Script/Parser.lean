import PackHost.Script.Idle
import PackHost.Script.Parser.Operator

/-!
# Reading scripts

`Tree.read` reads a text as a script, or says why it is none and where. The functions of the grammar
call each other; the number that all of them take bounds how deep they may do so.
-/

namespace PackHost.Script

open Source (Position)

namespace Parse

def bodyOf : Option Stmt → List Stmt
  | some (.expr (.block body)) => body
  | some s => [s]
  | none => []

mutual

def expr : Nat → Mode → Parse Expr
  | 0, _ => refuse "Expression exceeds maximum complexity"
  | n + 1, m => do
    let place := (← peek).place
    let left ← unary n m
    operators n m 0 left place

/-- The operators behind an expression that bind more tightly than `least`. -/
def operators : Nat → Mode → Nat → Expr → Position → Parse Expr
  | 0, _, _, _, _ => refuse "Expression exceeds maximum complexity"
  | n + 1, m, least, left, leftPlace => do
    let sign ← peek
    let negated ← atNotIn
    let strength := if negated then 110 else precedence sign.token
    match sign.token with
    | .reserved s => if !(s.toList.all inName) then refuse ("Unknown operator: '" ++ s ++ "'")
    | _ => pure ()
    if strength = 0 ∨ strength < least ∨ (strength = least ∧ !bindsRight sign.token) then
      return left
    skip
    if negated then skip
    let place := (← peek).place
    let right ← unary n m
    let next ← peek
    let following := if ← atNotIn then 110 else precedence next.token
    let right ←
      if strength < following ∨ (strength = following ∧ bindsRight sign.token) then
        operators n m strength right place
      else pure right
    let joined := if negated then .contained left right true sign.place
      else join sign.token left right sign.place leftPlace place
    operators n m least joined leftPlace

def unary : Nat → Mode → Parse Expr
  | 0, _ => refuse "Expression exceeds maximum complexity"
  | n + 1, m => do
    let t ← peek
    match t.token with
    | .sign "-" =>
      skip
      return negate t.place (← unary n m)
    | .sign "+" =>
      skip
      return affirm t.place (← unary n m)
    | .sign "!" =>
      skip
      return .unary .not (← unary n m) t.place
    | _ =>
      let root ← primary n m
      let links ← postfixes n m
      return if links.isEmpty then root else .chain root links

def postfixes : Nat → Mode → Parse (List Link)
  | 0, _ => refuse "Expression exceeds maximum complexity"
  | n + 1, m => do
    if ← accept "[" then
      let place := (← peek).place
      let e ← expr n m
      expect "]" "for a matching [ in this index expression"
      return .index e place :: (← postfixes n m)
    if ← accept "." then
      let p ← peek
      let name ← match p.token with
        | .name s => pure s
        | .reserved s =>
          if methodWords.contains s then pure s
          else if s.toList.all inName then refuse ("'" ++ s ++ "' is a reserved keyword")
          else refuse "Expecting name of a property"
        | _ => refuse "Expecting name of a property"
      skip
      if ← accept "(" then
        let args ← arguments n m name
        return .method name args p.place :: (← postfixes n m)
      return .property name p.place :: (← postfixes n m)
    return []

def arguments : Nat → Mode → String → Parse (List Expr)
  | 0, _, _ => refuse "Expression exceeds maximum complexity"
  | n + 1, m, name => do
    if ← atEnd then
      missing ")" ("to close the arguments list of this function call '" ++ name ++ "'")
    moreArguments n m name

def moreArguments : Nat → Mode → String → Parse (List Expr)
  | 0, _, _ => refuse "Expression exceeds maximum complexity"
  | n + 1, m, name => do
    if ← accept ")" then return []
    let e ← expr n m
    if ← accept ")" then return [e]
    if ← accept "," then return e :: (← moreArguments n m name)
    if ← atEnd then
      missing ")" ("to close the arguments list of this function call '" ++ name ++ "'")
    missing "," ("to separate the arguments to function call '" ++ name ++ "'")

def items : Nat → Mode → Parse (List Expr)
  | 0, _ => refuse "Expression exceeds maximum complexity"
  | n + 1, m => do
    if ← accept "]" then return []
    if ← atEnd then missing "]" "to end this array literal"
    let e ← expr n m
    if ← accept "]" then return [e]
    if ← accept "," then return e :: (← items n m)
    if ← atEnd then missing "]" "to end this array literal"
    missing "," "to separate the items of this array literal"

/-- The entries of a map, behind the brace or behind other entries with the given names. -/
def entries : Nat → Mode → List String → Parse (List (String × Expr))
  | 0, _, _ => refuse "Expression exceeds maximum complexity"
  | n + 1, m, names => do
    let endText := "to end this object map literal"
    if ← accept "\x7d" then return []
    let name ← match (← peek).token with
      | .name s => pure s
      | .text s => pure s
      | .reserved s => refuseReserved s (← peek).place
      | .finish => missing "\x7d" endText
      | _ => if names.isEmpty then missing "\x7d" endText else refuse "Expecting name of a property"
    if names.contains name then
      refuse ("Duplicated property for object map literal: " ++ name)
    skip
    expect ":" ("to follow the property '" ++ name ++ "' in this object map literal")
    let e ← expr n m
    if ← accept "\x7d" then return [(name, e)]
    if ← accept "," then return (name, e) :: (← entries n m (name :: names))
    match (← peek).token with
    | .name _ => missing "," "to separate the items of this object map literal"
    | _ => missing "\x7d" endText

def chunks : Nat → Mode → Parse (List Expr)
  | 0, _ => refuse "Expression exceeds maximum complexity"
  | n + 1, m => do
    let body ← enclosed (statements n m.inside)
    let block : Expr := .block (busyWithLast body)
    let t ← peek
    match t.token with
    | .text s =>
      skip
      return [block, .literal (.text s)]
    | .chunk s =>
      skip
      return block :: .literal (.text s) :: (← chunks n m)
    | _ => refuse "Open string is not terminated"

def primary : Nat → Mode → Parse Expr
  | 0, _ => refuse "Expression exceeds maximum complexity"
  | n + 1, m => do
    let t ← peek
    let literal (l : Literal) : Parse Expr := do
      skip
      return .literal l
    match t.token with
    | .int i => literal (.int i)
    | .float x => literal (.float x)
    | .char c => literal (.char c)
    | .text s => literal (.text s)
    | .keyword "true" => literal (.bool true)
    | .keyword "false" => literal (.bool false)
    | .chunk s =>
      skip
      return .template (.literal (.text s) :: (← chunks n m))
    | .name s =>
      skip
      if ← accept "(" then return .call s (← arguments n m s) t.place
      return .variable_ s (← use s t.place) t.place
    | .reserved s =>
      skip
      if functionWords.contains s || methodWords.contains s then
        if ← accept "(" then return .call s (← arguments n m s) t.place
      refuseReserved s t.place
    | .sign "(" =>
      skip
      if ← accept ")" then return .literal .unit
      let e ← expr n m
      expect ")" "for a matching ( in this expression"
      return e
    | .sign "[" =>
      skip
      return .array (← items n m)
    | .sign "#\x7b" =>
      skip
      return .map (← entries n m [])
    | .sign "\x7b" => return .block (← block n m.inside)
    | .sign "|" =>
      skip
      lambda n (← lambdaParams n)
    | .sign "||" =>
      skip
      lambda n []
    | .keyword "if" => conditional n m
    | .keyword "switch" => selection n m
    | .keyword "while" | .keyword "loop" | .keyword "do" | .keyword "for" =>
      return .block (← statement n m.inside).1.toList
    | .finish => refuse "Script is incomplete"
    | other => refuse ("Unexpected '" ++ other.written ++ "'")

/-- The parameters of a function without a name, behind the first bar. -/
def lambdaParams : Nat → Parse (List String)
  | 0 => refuse "Expression exceeds maximum complexity"
  | n + 1 => do
    if ← accept "|" then return []
    let s ← takeName "Expecting name of a variable"
    if ← accept "|" then return [s]
    expect "," "to separate the parameters of anonymous function"
    return s :: (← lambdaParams n)

def lambda : Nat → List String → Parse Expr
  | 0, _ => refuse "Expression exceeds maximum complexity"
  | n + 1, params => do
    let (s, free) ← apart params (statement n .function)
    for (name, place) in free do
      let _ ← use name place
    let names := free.map Prod.fst
    return .lambda (.mk "anon$" (names ++ params) (busyWithLast (bodyOf s.1))) free

def conditional : Nat → Mode → Parse Expr
  | 0, _ => refuse "Expression exceeds maximum complexity"
  | n + 1, m => do
    skip
    let place := (← peek).place
    let test ← expr n m
    let yes ← block n m.inside
    if ← acceptWord "else" then
      if ← atWord "if" then
        return .cond test place yes [.expr (← conditional n m)]
      return .cond test place yes (← block n m.inside)
    return .cond test place yes []

def selection : Nat → Mode → Parse Expr
  | 0, _ => refuse "Expression exceeds maximum complexity"
  | n + 1, m => do
    skip
    let subject ← expr n m
    expect "\x7b" "to start a switch block"
    return .select subject (← arms n m.inside false)

/-- The arms of a choice, behind the brace or behind other arms; `done` says whether one of those is
for all other values. -/
def arms : Nat → Mode → Bool → Parse (List Arm)
  | 0, _, _ => refuse "Expression exceeds maximum complexity"
  | n + 1, m, done => do
    if ← accept "\x7d" then return []
    if ← atEnd then missing "\x7d" "to end this switch block"
    if done then refuse "Default switch case must be the last"
    let last ← accept "_"
    if last && (← atWord "if") then refuse "This switch case cannot have a condition"
    let values ← if last then pure [] else armValues n m
    let place := (← peek).place
    let guard_ ← if ← acceptWord "if" then some <$> expr n m else pure none
    expect "=>" "in this switch case"
    let (s, closed) ← enclosed (statement n m)
    let arm : Arm := .mk values guard_ place (busyWithLast (bodyOf s))
    if ← accept "," then return arm :: (← arms n m last)
    if ← accept "\x7d" then return [arm]
    if closed then return arm :: (← arms n m last)
    if ← atEnd then missing "\x7d" "to end this switch block"
    missing "," "to separate the items of this switch block"

def armValues : Nat → Mode → Parse (List Expr)
  | 0, _ => refuse "Expression exceeds maximum complexity"
  | n + 1, m => do
    let place := (← peek).place
    let first ← unary n m
    let e ← operators n m 31 first place
    if !e.isWrittenDown then refuseAt place "Expecting a literal expression"
    if ← accept "|" then return e :: (← armValues n m)
    return [e]

def block : Nat → Mode → Parse (List Stmt)
  | 0, _ => refuse "Expression exceeds maximum complexity"
  | n + 1, m => do
    expect "\x7b" "to start a statement block"
    let body ← enclosed (statements n m)
    return busyWithLast body

def statements : Nat → Mode → Parse (List Stmt)
  | 0, _ => refuse "Expression exceeds maximum complexity"
  | n + 1, m => do
    if ← accept "\x7d" then return []
    if ← atEnd then missing "\x7d" "to terminate this block"
    let (s, closed) ← statement n m
    if s.isSome then
      if ← accept "\x7d" then return s.toList
      if !closed then
        expect ";" "to terminate this statement"
    return s.toList ++ (← statements n m)

def script : Nat → Parse (List Stmt)
  | 0 => refuse "Expression exceeds maximum complexity"
  | n + 1 => do
    if ← atEnd then return []
    let (s, closed) ← statement n ⟨false, true⟩
    if s.isSome then
      if ← atEnd then return s.toList
      if !closed then
        expect ";" "to terminate this statement"
    return s.toList ++ (← script n)

/-- A statement, if there is one, and whether it needs no semicolon behind it. -/
def statement : Nat → Mode → Parse (Option Stmt × Bool)
  | 0, _ => refuse "Expression exceeds maximum complexity"
  | n + 1, m => do
    let t ← peek
    let inner := m.inside
    match t.token with
    | .sign ";" =>
      skip
      return (none, true)
    | .sign "\x7b" => return (some (.expr (.block (← block n inner))), true)
    | .keyword "if" => return (some (.expr (← conditional n inner)), true)
    | .keyword "switch" => return (some (.expr (← selection n inner)), true)
    | .keyword "let" =>
      skip
      return (some (← definition n inner false), false)
    | .keyword "const" =>
      skip
      return (some (← definition n inner true), false)
    | .keyword "while" =>
      skip
      let test ← expr n inner
      return (some (.loop (some test) (busy (← block n .looping)) t.place), true)
    | .keyword "loop" =>
      skip
      return (some (.loop none (busy (← block n .looping)) t.place), true)
    | .keyword "do" =>
      skip
      let body ← block n .looping
      let until_ ← acceptWord "until"
      if !until_ then
        expectWord "while" "for the do statement"
      let test ← expr n inner
      return (some (.loopAfter (busy body) test (!until_) t.place), false)
    | .keyword "for" =>
      skip
      return (some (← iteration n inner t.place), true)
    | .keyword "break" =>
      if !m.inLoop then
        refuse "Break statement should only be used inside a loop"
      skip
      return (some (.leave (← optionalExpr n inner)), false)
    | .keyword "continue" =>
      if !m.inLoop then
        refuse "Break statement should only be used inside a loop"
      skip
      return (some .next, false)
    | .keyword "return" =>
      skip
      return (some (.give (← optionalExpr n inner)), false)
    | .keyword "throw" =>
      skip
      return (some (.raise (← optionalExpr n inner) t.place), false)
    | .keyword "try" =>
      skip
      return (some (← attempt n inner), true)
    | .keyword "fn" =>
      if !m.top then
        refuse ("Function definitions must be at global level and cannot be inside a block or " ++
          "another function")
      skip
      routine n
      return (none, true)
    | .keyword "private" =>
      skip
      expectWord "fn" "following 'private'"
      routine n
      return (none, true)
    | _ =>
      let e ← expr n inner
      let sign ← peek
      match assignment? sign.token with
      | none => return (some (.expr e), false)
      | some op =>
        skip
        let value ← expr n inner
        checkTarget e t.place
        return (some (.assign e op value sign.place), false)

/-- An expression, unless the statement ends here. -/
def optionalExpr : Nat → Mode → Parse (Option Expr)
  | 0, _ => refuse "Expression exceeds maximum complexity"
  | n + 1, m => do
    if (← atEnd) || (← atSign ";") || (← atSign "\x7d") then return none
    return some (← expr n m)

def definition : Nat → Mode → Bool → Parse Stmt
  | 0, _, _ => refuse "Expression exceeds maximum complexity"
  | n + 1, m, constant => do
    let name ← takeName "Expecting name of a variable"
    let value ← if ← accept "=" then expr n m else pure (.literal .unit)
    declare name constant
    return .define name constant value

def iteration : Nat → Mode → Position → Parse Stmt
  | 0, _, _ => refuse "Expression exceeds maximum complexity"
  | n + 1, m, place => do
    let (name, counter) ←
      if ← accept "(" then do
        let name ← takeName "Expecting name of a variable"
        expect "," "after the iteration variable name"
        let place := (← peek).place
        let counter ← takeName "Expecting name of a variable"
        if counter = name then refuseAt place ("Duplicated variable name: " ++ name)
        expect ")" "to close the iteration variable"
        pure (name, some counter)
      else pure (← takeName "Expecting name of a variable", none)
    expectWord "in" "after the iteration variable"
    let source ← expr n m
    enclosed do
      for c in counter.toList do
        declare c false
      declare name false
      return .each name counter source (busy (← block n .looping)) place

/-- A block with another one for its failure, behind the first word. -/
def attempt : Nat → Mode → Parse Stmt
  | 0, _ => refuse "Expression exceeds maximum complexity"
  | n + 1, m => do
    let body ← block n m
    expectWord "catch" "for the 'try' statement"
    let name ← if ← accept "(" then do
        let name ← takeName "Expecting name of a variable"
        expect ")" "to enclose the catch variable"
        pure (some name)
      else pure none
    enclosed do
      for c in name.toList do
        declare c false
      return .rescue body name (← block n m)

def routine : Nat → Parse Unit
  | 0 => refuse "Expression exceeds maximum complexity"
  | n + 1 => do
    let place := (← peek).place
    let name ← takeName "Expecting function name in function declaration"
    expect "(" ("to start the parameters list for function '" ++ name ++ "'")
    let params ← routineParams n name []
    let (body, _) ← apart params (block n .function)
    addRoutine (.mk name params body) place

/-- The parameters of a function with a name, behind the parenthesis or behind other parameters. -/
def routineParams : Nat → String → List String → Parse (List String)
  | 0, _, _ => refuse "Expression exceeds maximum complexity"
  | n + 1, function, before => do
    if ← accept ")" then return []
    let place := (← peek).place
    let s ← takeName ("Expecting parameters for function '" ++ function ++ "'")
    if before.contains s then
      refuseAt place ("Duplicated parameter " ++ s ++ " for function '" ++ function ++ "'")
    if ← accept ")" then return [s]
    expect "," ("to separate the parameters of function '" ++ function ++ "'")
    return s :: (← routineParams n function (s :: before))

end

end Parse

/-- Reads a text as a script; `off` are the words and signs that are switched off. -/
def Tree.read (off : List String) (text : String) : Except SyntaxFault Tree :=
  let ts := tokens off text
  match (Parse.script (40 * ts.length + 40)).run ⟨ts, [], [], []⟩ with
  | .error f => .error f
  | .ok (body, r) => .ok ⟨r.library, busyWithLast body⟩

end PackHost.Script
