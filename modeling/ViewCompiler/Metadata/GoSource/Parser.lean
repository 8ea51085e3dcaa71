import ViewCompiler.Metadata.GoSource.Syntax
import ViewCompiler.Metadata.GoSource.Token

/-!
# Parsing Go source

A parser for the grammar of the language, which accepts or refuses a source and keeps the parts that
`Syntax` describes. Every rule takes a bound on the depth of what it reads, so that it ends by
recursion on that bound; the bound is computed from the number of tokens.

In the head of an `if`, `for` or `switch`, a name before an opening brace is no composite literal.
The rules for expressions carry a flag that says whether such literals are allowed.
-/

namespace ViewCompiler.GoSource

/-- A rule of the grammar: reads from the front of a list of tokens. -/
abbrev Rule := StateT (List Token) Option

namespace Rule

def openBrace : String := "\x7b"
def closeBrace : String := "\x7d"

/-- The next token. -/
def peek : Rule Token := fun ts => some (ts.headD .endOfFile, ts)

/-- The token after the next. -/
def peekSecond : Rule Token := fun ts => some (ts.tail.headD .endOfFile, ts)

/-- Takes the next token. -/
def next : Rule Token := fun ts => some (ts.headD .endOfFile, ts.tail)

/-- Whether the next token is the given mark. -/
def sees (m : String) : Rule Bool := do return (← peek) = .mark m

/-- Whether the next token is the given keyword. -/
def seesWord (w : String) : Rule Bool := do return (← peek) = .keyword w

/-- Takes the given mark if it comes next. -/
def accept (m : String) : Rule Bool := do
  if ← sees m then
    let _ ← next
    return true
  return false

/-- Takes the given mark, which has to come next. -/
def expect (m : String) : Rule Unit := do if !(← accept m) then failure

/-- Takes the given keyword, which has to come next. -/
def expectWord (w : String) : Rule Unit := do
  if ← seesWord w then
    let _ ← next
  else failure

/-- Takes a name. -/
def name : Rule String := do
  match ← next with
  | .name n => return n
  | _ => failure

/-- Takes the end of a statement; before a closing bracket it may be left out. -/
def semicolon : Rule Unit := do
  if (← sees ")") || (← sees closeBrace) then return
  expect ";"

/-- Repeats a rule as long as it gives something. -/
def repeated {α : Type} (rule : Rule (Option α)) : (fuel : Nat) → Rule (List α)
  | 0 => failure
  | fuel + 1 => do
    match ← rule with
    | none => return []
    | some a => return a :: (← repeated rule fuel)

/-- One or more, with a mark between them. -/
def separated {α : Type} (m : String) (rule : Rule α) (fuel : Nat) : Rule (List α) := do
  let first ← rule
  let more ← repeated (do if ← accept m then return some (← rule) else return none) fuel
  return first :: more

/-- Items up to a closing mark, with a mark between them and possibly one behind the last. -/
def listUntil {α : Type} (close : String) (rule : Rule α) : (fuel : Nat) → Rule (List α)
  | 0 => failure
  | fuel + 1 => do
    if ← accept close then return []
    let a ← rule
    if ← accept "," then return a :: (← listUntil close rule fuel)
    expect close
    return [a]

/-- Several statements that a rule gives at once, up to a closing mark. -/
def blockUntil {α : Type} (close : String) (rule : Rule α) : (fuel : Nat) → Rule (List α)
  | 0 => failure
  | fuel + 1 => do
    if ← accept close then return []
    let a ← rule
    return a :: (← blockUntil close rule fuel)

end Rule

open Rule

/-! ### Parameters -/

/-- An entry of a parameter list: what stands first, and the type behind it if there is one. -/
structure Entry where
  first : Expr
  type : Option Expr

/-- Whether an expression is a name. -/
def Expr.name? : Expr → Option String
  | .ident n => some n
  | _ => none

/-- Whether the entries of a parameter list fit together: if one has a type of its own, all have
names and the last one has a type. -/
def entriesAgree (es : List Entry) : Bool :=
  !es.any (·.type.isSome) ||
    (es.all (·.first.name?.isSome) && es.getLast?.all (·.type.isSome))

/-- The types of a parameter list. -/
def entryTypes (es : List Entry) : List Expr :=
  if es.any (·.type.isSome) then es.filterMap (·.type) else es.map (·.first)

/-- The name and the type of a receiver. -/
def receiverOf (es : List Entry) : Option (String × Expr) :=
  match es with
  | [] => none
  | e :: _ =>
    match es.findSome? (·.type), e.first.name? with
    | some t, some n => some (n, t)
    | _, _ => some ("", e.first)

/-- The operators between two operands. -/
def binaryMarks : List String :=
  ["||", "&&", "==", "!=", "<", "<=", ">", ">=", "+", "-", "|", "^", "*", "/", "%", "<<", ">>", "&",
   "&^"]

/-- The operators that store into their left side. -/
def assignMarks : List String :=
  ["=", ":=", "+=", "-=", "*=", "/=", "%=", "&=", "|=", "^=", "<<=", ">>=", "&^="]

/-- What a simple statement may be besides the ordinary ones. -/
inductive Place where
  | ordinary
  /-- A label may stand here. -/
  | labelled
  /-- The clause of a loop over a value may stand here. -/
  | loopHead
  /-- A colon follows the statement. -/
  | caseHead
  deriving DecidableEq

/-- Whether an expression before a brace names the type of a composite literal. -/
def literalType (allowed : Bool) : Expr → Bool
  | .ident _ | .selector _ _ | .index _ _ => allowed
  | .arrayType _ _ | .structType _ | .mapType _ _ => true
  | _ => false

/-- Whether an expression is a type that could not be a value. -/
def Expr.isTypeLiteral : Expr → Bool
  | .arrayType _ _ | .mapType _ _ | .structType _ | .channelType _ | .otherType _ => true
  | _ => false

/-- Whether the last operand of a product, or the only argument of a call, can only be a type. -/
def Expr.endsInType : Expr → Bool
  | .operation xs => xs.getLast?.any Expr.isTypeLiteral
  | .call _ [x] => x.isTypeLiteral
  | _ => false

/-- Whether a statement may stand for the value of a switch. -/
def isSwitchHead : Stmt → Bool
  | .expr _ => true
  | .assign [.ident _] [.assertion _ []] true => true
  | _ => false

/-- Whether a statement is a bare expression. -/
def isCondition : Stmt → Bool
  | .expr _ => true
  | _ => false

/-! ### The grammar -/

mutual

/-- A type, if one comes next. -/
def type? : (fuel : Nat) → Rule (Option Expr)
  | 0 => failure
  | fuel + 1 => do
    match ← peek with
    | .name n => do
      let _ ← next
      let base ← if ← accept "." then do pure (Expr.selector (.ident n) (← name))
          else pure (.ident n)
      if ← accept "[" then
        let as ← listUntil "]" (typeOrFail fuel) fuel
        if as.isEmpty then failure
        return some (.index base as)
      return some base
    | .mark "(" => do
      let _ ← next
      let t ← typeOrFail fuel
      expect ")"
      return some (.paren t)
    | _ => typeLiteral? fuel

/-- A type that has to come next. -/
def typeOrFail : (fuel : Nat) → Rule Expr
  | 0 => failure
  | fuel + 1 => do
    match ← type? fuel with
    | some t => return t
    | none => failure

/-- A type that does not start with a name. -/
def typeLiteral? : (fuel : Nat) → Rule (Option Expr)
  | 0 => failure
  | fuel + 1 => do
    match ← peek with
    | .mark "[" => do
      let _ ← next
      if ← accept "]" then return some (.arrayType [] (← typeOrFail fuel))
      let length ← if ← accept "..." then pure [] else (do return [← expr true fuel])
      expect "]"
      return some (.arrayType length (← typeOrFail fuel))
    | .mark "*" => do
      let _ ← next
      return some (.star (← typeOrFail fuel))
    | .mark "<-" => do
      let _ ← next
      expectWord "chan"
      return some (.channelType (← typeOrFail fuel))
    | .keyword "chan" => do
      let _ ← next
      let _ ← accept "<-"
      return some (.channelType (← typeOrFail fuel))
    | .keyword "map" => do
      let _ ← next
      expect "["
      let key ← typeOrFail fuel
      expect "]"
      return some (.mapType key (← typeOrFail fuel))
    | .keyword "func" => do
      let _ ← next
      let (_, types) ← signature fuel
      return some (.otherType types)
    | .keyword "struct" => do
      let _ ← next
      expect openBrace
      return some (.structType (← blockUntil closeBrace (field fuel) fuel))
    | .keyword "interface" => do
      let _ ← next
      expect openBrace
      return some (.otherType (← blockUntil closeBrace (interfaceElement fuel) fuel))
    | _ => return none

/-- A field of a structure, with its end. -/
def field : (fuel : Nat) → Rule Field
  | 0 => failure
  | fuel + 1 => do
    let f ← fieldBody fuel
    match ← peek with
    | .string _ => let _ ← next
    | _ => pure ()
    semicolon
    return f

/-- The names and the type of a field, or an embedded type. -/
def fieldBody : (fuel : Nat) → Rule Field
  | 0 => failure
  | fuel + 1 => do
    match ← peek with
    | .mark "*" => do
      let _ ← next
      match ← peek with
      | .name _ => return .mk [] (.star (← typeOrFail fuel))
      | _ => failure
    | .name n =>
      match ← peekSecond with
      | .mark "." | .mark ";" | .string _ => return .mk [] (← typeOrFail fuel)
      | .mark "[" => do
        let _ ← next
        let _ ← next
        if ← accept "]" then return .mk [n] (.arrayType [] (← typeOrFail fuel))
        let inside ← listUntil "]" (exprOrEllipsis fuel) fuel
        match ← type? fuel with
        | some element => return .mk [n] (.arrayType inside element)
        | none => return .mk [] (.index (.ident n) inside)
      | .mark m =>
        if m = closeBrace then return .mk [] (← typeOrFail fuel)
        else do
          let names ← separated "," name fuel
          return .mk names (← typeOrFail fuel)
      | _ => do
        let names ← separated "," name fuel
        return .mk names (← typeOrFail fuel)
    | _ => failure

/-- An expression, or the dots of an array whose length is left open. -/
def exprOrEllipsis : (fuel : Nat) → Rule Expr
  | 0 => failure
  | fuel + 1 => do if ← accept "..." then return .literal else expr true fuel

/-- A method or an embedded union of an interface, with its end. -/
def interfaceElement : (fuel : Nat) → Rule Expr
  | 0 => failure
  | fuel + 1 => do
    let e ← match ← peek, ← peekSecond with
      | .name _, .mark "(" => do
        let _ ← next
        let (_, types) ← signature fuel
        pure (.otherType types)
      | _, _ => constraint fuel
    semicolon
    return e

/-- A union of types, each possibly with its underlying forms. -/
def constraint : (fuel : Nat) → Rule Expr
  | 0 => failure
  | fuel + 1 => do
    let terms ← separated "|" (do
      let _ ← accept "~"
      typeOrFail fuel) fuel
    return .otherType terms

/-- Type parameters behind their opening bracket. -/
def typeParameters : (fuel : Nat) → Rule (List Expr)
  | 0 => failure
  | fuel + 1 => do
    let _ ← name
    if ← accept "," then typeParameters fuel
    else do
      let c ← constraint fuel
      if ← accept "," then
        if ← accept "]" then return [c]
        return c :: (← typeParameters fuel)
      expect "]"
      return [c]

/-- An entry of a parameter list. -/
def entry : (fuel : Nat) → Rule Entry
  | 0 => failure
  | fuel + 1 => do
    if ← accept "..." then return ⟨.otherType [← typeOrFail fuel], none⟩
    -- A name before a bracket may be followed by an array type or by type arguments.
    match ← peek, ← peekSecond with
    | .name n, .mark "[" => do
      let _ ← next
      let _ ← next
      if ← accept "]" then return ⟨.ident n, some (.arrayType [] (← typeOrFail fuel))⟩
      let inside ← listUntil "]" (exprOrEllipsis fuel) fuel
      match ← type? fuel with
      | some element => return ⟨.ident n, some (.arrayType inside element)⟩
      | none => return ⟨.index (.ident n) inside, none⟩
    | _, _ => do
      let first ← typeOrFail fuel
      if ← accept "..." then return ⟨first, some (.otherType [← typeOrFail fuel])⟩
      return ⟨first, ← type? fuel⟩

/-- A parameter list in brackets. -/
def parameters : (fuel : Nat) → Rule (List Entry)
  | 0 => failure
  | fuel + 1 => do
    expect "("
    let es ← listUntil ")" (entry fuel) fuel
    if entriesAgree es then return es else failure

/-- The parameters and results of a function: their numbers, and all their types. -/
def signature : (fuel : Nat) → Rule ((Nat × Nat) × List Expr)
  | 0 => failure
  | fuel + 1 => do
    let ps ← parameters fuel
    if ← sees "(" then
      let rs ← parameters fuel
      return ((ps.length, rs.length), entryTypes ps ++ entryTypes rs)
    match ← type? fuel with
    | some t => return ((ps.length, 1), entryTypes ps ++ [t])
    | none => return ((ps.length, 0), entryTypes ps)

/-- An expression; `literals` tells whether a name may start a composite literal. -/
def expr (literals : Bool) : (fuel : Nat) → Rule Expr
  | 0 => failure
  | fuel + 1 => do
    let first ← unary literals fuel
    let more ← repeated (do
      match ← peek with
      | .mark m =>
        if binaryMarks.contains m then
          let _ ← next
          return some (← unary literals fuel)
        else return none
      | _ => return none) fuel
    return if more.isEmpty then first else .operation (first :: more)

/-- An operand with the operators in front of it. -/
def unary (literals : Bool) : (fuel : Nat) → Rule Expr
  | 0 => failure
  | fuel + 1 => do
    match ← peek with
    | .mark "&" => do
      let _ ← next
      return .address (← unary literals fuel)
    | .mark "*" => do
      let _ ← next
      return .star (← unary literals fuel)
    | .mark "<-" => do
      let _ ← next
      match ← unary literals fuel with
      | .channelType e => return .channelType e
      | x => return .operation [x]
    | .mark m =>
      if ["+", "-", "!", "^", "~"].contains m then
        let _ ← next
        return .operation [← unary literals fuel]
      else primary literals fuel
    | _ => primary literals fuel

/-- An operand with everything behind it. -/
def primary (literals : Bool) : (fuel : Nat) → Rule Expr
  | 0 => failure
  | fuel + 1 => do
    let x ← operand fuel
    suffixes literals x fuel

/-- What follows an operand: selectors, indices, calls and the bodies of composite literals. -/
def suffixes (literals : Bool) (x : Expr) : (fuel : Nat) → Rule Expr
  | 0 => failure
  | fuel + 1 => do
    match ← peek with
    | .mark "." => do
      let _ ← next
      if ← accept "(" then
        if ← seesWord "type" then
          let _ ← next
          expect ")"
          suffixes literals (.assertion x []) fuel
        else do
          let t ← typeOrFail fuel
          expect ")"
          suffixes literals (.assertion x [t]) fuel
      else suffixes literals (.selector x (← name)) fuel
    | .mark "[" => do
      let _ ← next
      let y ← indexOrSlice x fuel
      suffixes literals y fuel
    | .mark "(" => do
      let _ ← next
      let as ← listUntil ")" (argument fuel) fuel
      suffixes literals (.call x as) fuel
    | .mark m =>
      if m = openBrace && literalType literals x then
        let es ← literalBody fuel
        suffixes literals (.composite [x] es) fuel
      else return x
    | _ => return x

/-- An argument of a call, possibly spread. -/
def argument : (fuel : Nat) → Rule Expr
  | 0 => failure
  | fuel + 1 => do
    let x ← expr true fuel
    let _ ← accept "..."
    return x

/-- What stands between brackets behind an operand, up to the closing one. -/
def indexOrSlice (x : Expr) : (fuel : Nat) → Rule Expr
  | 0 => failure
  | fuel + 1 => do
    let low ← if ← sees ":" then pure [] else (do return [← expr true fuel])
    if ← accept ":" then
      let bound : Rule (List Expr) := do
        if (← sees ":") || (← sees "]") then return [] else return [← expr true fuel]
      let high ← bound
      if ← accept ":" then
        let most ← bound
        expect "]"
        if high.isEmpty || most.isEmpty then failure
        return .slice x (low ++ high ++ most)
      expect "]"
      return .slice x (low ++ high)
    if ← accept "," then
      let more ← listUntil "]" (typeOrFail fuel) fuel
      return .index x (low ++ more)
    expect "]"
    return .index x low

/-- The body of a composite literal, from its opening brace on. -/
def literalBody : (fuel : Nat) → Rule (List Expr)
  | 0 => failure
  | fuel + 1 => do
    expect openBrace
    listUntil closeBrace (do
      let x ← element fuel
      if ← accept ":" then return .pair x (← element fuel)
      return x) fuel

/-- An element of a composite literal: an expression, or a body whose type is left out. -/
def element : (fuel : Nat) → Rule Expr
  | 0 => failure
  | fuel + 1 => do
    if ← sees openBrace then return .composite [] (← literalBody fuel)
    expr true fuel

/-- The start of an operand. -/
def operand : (fuel : Nat) → Rule Expr
  | 0 => failure
  | fuel + 1 => do
    match ← peek with
    | .name n => do
      let _ ← next
      return .ident n
    | .literal | .string _ => do
      let _ ← next
      return .literal
    | .mark "(" => do
      let _ ← next
      let x ← expr true fuel
      expect ")"
      return .paren x
    | .keyword "func" => do
      let _ ← next
      let (_, types) ← signature fuel
      if ← sees openBrace then return .closure types (← block fuel)
      return .otherType types
    | _ =>
      match ← typeLiteral? fuel with
      | some t => return t
      | none => failure

/-- Statements between braces. -/
def block : (fuel : Nat) → Rule (List Stmt)
  | 0 => failure
  | fuel + 1 => do
    expect openBrace
    blockUntil closeBrace (statement fuel) fuel

/-- One statement with its end. -/
def statement : (fuel : Nat) → Rule Stmt
  | 0 => failure
  | fuel + 1 => do
    match ← peek with
    | .keyword "var" | .keyword "const" | .keyword "type" => declaration fuel
    | .keyword "go" | .keyword "defer" => do
      let _ ← next
      match ← expr true fuel with
      | .call f as =>
        semicolon
        return .expr (.call f as)
      | _ => failure
    | .keyword "return" => do
      let _ ← next
      if (← sees ";") || (← sees closeBrace) then
        semicolon
        return .group [] []
      let xs ← separated "," (expr true fuel) fuel
      semicolon
      return .group xs []
    | .keyword "break" | .keyword "continue" | .keyword "goto" => do
      let _ ← next
      match ← peek with
      | .name _ => let _ ← next
      | _ => pure ()
      semicolon
      return .group [] []
    | .keyword "fallthrough" => do
      let _ ← next
      semicolon
      return .group [] []
    | .keyword "if" => do
      let s ← ifStatement fuel
      semicolon
      return s
    | .keyword "switch" => switchStatement fuel
    | .keyword "select" => selectStatement fuel
    | .keyword "for" => forStatement fuel
    | .mark ";" => do
      let _ ← next
      return .group [] []
    | .mark m =>
      if m = openBrace then
        let b ← block fuel
        semicolon
        return .group [] b
      else labelledStatement fuel
    | _ => labelledStatement fuel

/-- A simple statement with its end, possibly behind a label. -/
def labelledStatement : (fuel : Nat) → Rule Stmt
  | 0 => failure
  | fuel + 1 => do
    match ← peek, ← peekSecond with
    | .name _, .mark ":" => do
      let _ ← next
      let _ ← next
      if ← sees closeBrace then return .group [] []
      statement fuel
    | _, _ => do
      let s ← simple .labelled true fuel
      semicolon
      return s

/-- A simple statement: an expression, an assignment, a step, a send or the clause of a loop. -/
def simple (place : Place) (literals : Bool) : (fuel : Nat) → Rule Stmt
  | 0 => failure
  | fuel + 1 => do
    let xs ← separated "," (expr literals fuel) fuel
    match ← peek with
    | .mark m =>
      if assignMarks.contains m then
        let _ ← next
        if place = .loopHead && (m = "=" || m = ":=") && (← seesWord "range") then
          let _ ← next
          let source ← expr literals fuel
          if xs.length > 2 then failure
          return .range xs [source] (m = "=") []
        let ys ← separated "," (expr literals fuel) fuel
        return .assign xs ys (m = ":=")
      match xs with
      | [x] =>
        if m = "<-" then
          let _ ← next
          return .send x (← expr literals fuel)
        if m = "++" || m = "--" then
          let _ ← next
          return .step x
        if m = ":" && place ≠ .caseHead then failure
        return .expr x
      | _ => failure
    | _ =>
      match xs with
      | [x] => return .expr x
      | _ => failure

/-- A conditional without its end. -/
def ifStatement : (fuel : Nat) → Rule Stmt
  | 0 => failure
  | fuel + 1 => do
    expectWord "if"
    let first ← if ← sees ";" then pure none else (do return some (← simple .ordinary false fuel))
    let (initial, condition) ←
      if ← accept ";" then do pure (first.toList, ← simple .ordinary false fuel)
      else match first with
        | some s => pure ([], s)
        | none => failure
    if !isCondition condition then failure
    let body ← block fuel
    let parts := initial ++ [condition] ++ body
    if ← seesWord "else" then
      let _ ← next
      if ← seesWord "if" then return .group [] (parts ++ [← ifStatement fuel])
      return .group [] (parts ++ (← block fuel))
    return .group [] parts

/-- A switch with its end. -/
def switchStatement : (fuel : Nat) → Rule Stmt
  | 0 => failure
  | fuel + 1 => do
    expectWord "switch"
    let optional : Rule (Option Stmt) := do
      if (← sees ";") || (← sees openBrace) then return none
      return some (← simple .ordinary false fuel)
    let first ← optional
    let (initial, head) ←
      if ← accept ";" then do pure (first.toList, ← optional) else pure ([], first)
    if !head.all isSwitchHead then failure
    expect openBrace
    let clauses ← blockUntil closeBrace (clause (separatedGroup fuel) fuel) fuel
    semicolon
    return .group [] (initial ++ head.toList ++ clauses)

/-- Expressions or types of a case. -/
def separatedGroup : (fuel : Nat) → Rule Stmt
  | 0 => failure
  | fuel + 1 => do return .group (← separated "," (expr true fuel) fuel) []

/-- A selection with its end. -/
def selectStatement : (fuel : Nat) → Rule Stmt
  | 0 => failure
  | fuel + 1 => do
    expectWord "select"
    expect openBrace
    let clauses ← blockUntil closeBrace (clause (simple .caseHead true fuel) fuel) fuel
    semicolon
    return .group [] clauses

/-- A case of a switch or a selection. -/
def clause (head : Rule Stmt) : (fuel : Nat) → Rule Stmt
  | 0 => failure
  | fuel + 1 => do
    let first ←
      if ← seesWord "default" then do
        let _ ← next
        pure (.group [] [])
      else do
        expectWord "case"
        head
    expect ":"
    let body ← repeated (do
      if (← sees closeBrace) || (← seesWord "case") || (← seesWord "default") then return none
      return some (← statement fuel)) fuel
    return .group [] (first :: body)

/-- A loop with its end. -/
def forStatement : (fuel : Nat) → Rule Stmt
  | 0 => failure
  | fuel + 1 => do
    expectWord "for"
    let finish (s : List Stmt → Stmt) : Rule Stmt := do
      let body ← block fuel
      semicolon
      return s body
    if ← sees openBrace then return ← finish (.group [])
    if ← seesWord "range" then
      let _ ← next
      let source ← expr false fuel
      return ← finish (.range [] [source] false)
    let first ← if ← sees ";" then pure none else (do return some (← simple .loopHead false fuel))
    match first with
    | some (.range vs s a _) => finish (.range vs s a)
    | _ =>
      if ← accept ";" then
        if ← sees openBrace then failure
        let condition ← if ← sees ";" then pure none
            else (do return some (← simple .ordinary false fuel))
        if !condition.all isCondition then failure
        expect ";"
        let post ← if ← sees openBrace then pure none
            else (do return some (← simple .ordinary false fuel))
        finish fun body => .group [] (first.toList ++ condition.toList ++ post.toList ++ body)
      else if first.all isCondition then finish fun body => .group [] (first.toList ++ body)
      else failure

/-- A declaration of variables, constants or types, with its end. -/
def declaration : (fuel : Nat) → Rule Stmt
  | 0 => failure
  | fuel + 1 => do
    match ← next with
    | .keyword w =>
      let spec ← (match w with
        | "var" => pure (variableSpec fuel)
        | "const" => pure (constantSpec fuel)
        | "type" => pure (typeSpecification fuel)
        | _ => failure : Rule (Rule Stmt))
      if ← accept "(" then
        let specs ← blockUntil ")" (do
          let s ← spec
          semicolon
          return s) fuel
        semicolon
        return .group [] specs
      let s ← spec
      semicolon
      return s
    | _ => failure

/-- Variables with a type or values. -/
def variableSpec : (fuel : Nat) → Rule Stmt
  | 0 => failure
  | fuel + 1 => do
    let _ ← separated "," name fuel
    let types ← if ← sees "=" then pure [] else (do return [← typeOrFail fuel])
    let values ← if ← accept "=" then separated "," (expr true fuel) fuel else pure []
    return .declare types values

/-- Constants, whose values may be those of the constants before. -/
def constantSpec : (fuel : Nat) → Rule Stmt
  | 0 => failure
  | fuel + 1 => do
    let _ ← separated "," name fuel
    let types ← type? fuel
    let values ← if ← accept "=" then separated "," (expr true fuel) fuel else pure []
    return .declare types.toList values

/-- A type with its name. -/
def typeSpecification : (fuel : Nat) → Rule Stmt
  | 0 => failure
  | fuel + 1 => do
    let n ← name
    let generic ← match ← peek, ← peekSecond with
      | .mark "[", .name _ => (fun ts =>
          -- A name and no operator behind it start type parameters, not the length of an array. A
          -- star or a bracket behind it may be either: a length is the whole of what is enclosed.
          match ts.drop 2 with
          | .mark m :: _ =>
            if m = "*" || m = "(" then
              match (expr true fuel).run ts.tail with
              | some (x, .mark "]" :: _) => some (x.endsInType, ts)
              | _ => some (true, ts)
            else some (["[", ",", "~", "<-"].contains m, ts)
          | .name _ :: _ | .keyword _ :: _ => some (true, ts)
          | _ => some (false, ts) : Rule Bool)
      | _, _ => pure false
    let ps ← if generic then do
        let _ ← next
        typeParameters fuel
      else pure []
    let _ ← accept "="
    return .typeSpec n ps (← typeOrFail fuel)

end

/-! ### Files -/

/-- Whether the body of a string can be the path of an import. -/
def isImportPath (body : String) : Bool :=
  body ≠ "" && body.toList.all fun c =>
    Text.isPrintable c && c ≠ ' ' && !"!\"#$%&'()*,:;<=>?[\\]^\x7b|\x7d".toList.contains c &&
      c.toNat ≠ 0x60 && c.toNat ≠ 0xfffd

/-- One import. -/
def importSpec : Rule Unit := do
  match ← peek with
  | .name _ | .mark "." => let _ ← next
  | _ => pure ()
  match ← next with
  | .string body => if isImportPath body then return else failure
  | _ => failure

/-- A declaration of imports with its end. -/
def importDeclaration (fuel : Nat) : Rule Unit := do
  expectWord "import"
  if ← accept "(" then
    let _ ← blockUntil ")" (do
      importSpec
      semicolon) fuel
    semicolon
  else do
    importSpec
    semicolon

/-- A function or method with its end. -/
def function (fuel : Nat) : Rule Function := do
  expectWord "func"
  let receiver ← if ← sees "(" then some <$> parameters fuel else pure none
  let n ← name
  if ← accept "[" then
    let _ ← typeParameters fuel
    if receiver.isSome then failure
  let ((ps, rs), _) ← signature fuel
  let body ← if ← sees openBrace then some <$> block fuel else pure none
  semicolon
  return ⟨n, receiver.bind receiverOf, ps, rs, body⟩

/-- One top-level declaration: a function, or anything else as a statement. -/
def topLevel (fuel : Nat) : Rule (Option (Function ⊕ Stmt)) := do
  match ← peek with
  | .endOfFile => return none
  | .keyword "func" => return some (.inl (← function fuel))
  | .keyword "var" | .keyword "const" | .keyword "type" => return some (.inr (← declaration fuel))
  | _ => failure

/-- A whole file: its package, its imports, and then everything else. -/
def file (fuel : Nat) : Rule File := do
  expectWord "package"
  let _ ← name
  semicolon
  let _ ← repeated (do
    if ← seesWord "import" then
      importDeclaration fuel
      return some ()
    return none) fuel
  let parts ← repeated (topLevel fuel) fuel
  return {
    functions := parts.filterMap fun | .inl f => some f | .inr _ => none
    declarations := parts.map fun
      | .inl f => .group [] (f.body.getD [])
      | .inr s => s }

/-- Parses a source. The depth of a rule is bounded by a multiple of the number of tokens. -/
def parse? (source : String) : Option File := do
  let ts ← tokens? source
  let (f, _) ← (file (16 * ts.length + 64)).run ts
  return f

end ViewCompiler.GoSource
