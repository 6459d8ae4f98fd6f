import Frontend.Ast
import Frontend.Token.Literal
import Frontend.Token.Scan

/-! Reading syntax trees from tokens, by recursive descent. A bad item is reported and reading goes on at the next
token that can start one. Recursion is on a depth that the number of tokens left bounds: a nested construct
starts after at least one token of the construct around it. -/

namespace Frontend.Parse

/-- Tokens still to be read, the token that ends them, and where the last token read stopped. -/
structure Cursor where
  rest : List Token
  eof : Token
  prevEnd : Nat := 0

abbrev Parser := EStateM ParseError Cursor

def Cursor.peek (c : Cursor) : Token := c.rest.headD c.eof

def peek : Parser Token := return (← get).peek

def atKind (kind : TokenKind) : Parser Bool := return (← peek).kind == kind

def atPunct (p : Punct) : Parser Bool := atKind (.punct p)

def advance : Parser Token := do
  let c ← get
  match c.rest with
  | [] => return c.eof
  | t :: rest =>
    set { c with rest, prevEnd := t.span.stop }
    return t

def eat (kind : TokenKind) : Parser Bool := do
  if ← atKind kind then
    let _ ← advance
    return true
  else return false

def eatPunct (p : Punct) : Parser Bool := eat (.punct p)

def failExpected {α : Type} (what : String) : Parser α := do
  let found ← peek
  throw (.expected what found.kind.describe found.span)

def expect (kind : TokenKind) : Parser Token := do
  if ← atKind kind then advance else failExpected kind.describe

def expectPunct (p : Punct) : Parser Token := expect (.punct p)

def ident : Parser Ident := do
  let t ← expect .ident
  return ⟨t.text, t.span⟩

def spanFrom (start : Nat) : Parser Span := return ⟨start, max (← get).prevEnd start⟩

def startHere : Parser Nat := return (← peek).span.start

/-- A bound for loops that read at least one token a turn. -/
def tokensLeft : Parser Nat := return (← get).rest.length + 1

def after {α : Type} (mark : TokenKind) (p : Parser α) : Parser (Option α) := do
  if ← eat mark then return some (← p) else return none

/-- Elements with commas between them up to `close`, which stays; a comma may follow the last. -/
def commaList {α : Type} (close : Punct) (elem : Parser α) : (fuel : Nat) → Parser (List α)
  | 0 => return []
  | fuel + 1 => do
    if ← atPunct close then return []
    let a ← elem
    if ← eatPunct .comma then return a :: (← commaList close elem fuel) else return [a]

/-! Expressions. -/

def binary (op : BinaryOp) (lhs rhs : Expr) : Expr := .binary (lhs.span.merge rhs.span) op lhs rhs

def joined (next : Parser Expr) (op? : TokenKind → Option BinaryOp) : (fuel : Nat) → Expr → Parser Expr
  | 0, lhs => return lhs
  | fuel + 1, lhs => do
    match op? (← peek).kind with
    | none => return lhs
    | some op =>
      let _ ← advance
      let rhs ← next
      joined next op? fuel (binary op lhs rhs)

def leftLevel (next : Parser Expr) (op? : TokenKind → Option BinaryOp) : Parser Expr := do
  let lhs ← next
  joined next op? (← tokensLeft) lhs

def factorOp? : TokenKind → Option BinaryOp
  | .punct .star => some (.arith .mul)
  | .punct .slash => some (.arith .div)
  | .punct .percent => some (.arith .rem)
  | _ => none

def termOp? : TokenKind → Option BinaryOp
  | .punct .plus => some (.arith .add)
  | .punct .minus => some (.arith .sub)
  | _ => none

def compareOp? : TokenKind → Option BinaryOp
  | .punct .eqEq => some (.cmp .eq)
  | .punct .bangEq => some (.cmp .neq)
  | .punct .lt => some (.cmp .lt)
  | .punct .ltEq => some (.cmp .lte)
  | .punct .gt => some (.cmp .gt)
  | .punct .gtEq => some (.cmp .gte)
  | _ => none

def andOp? : TokenKind → Option BinaryOp
  | .keyword .and => some .and
  | _ => none

def orOp? : TokenKind → Option BinaryOp
  | .keyword .or => some .or
  | _ => none

/-- At most one operator: a comparison does not chain. -/
def single (next : Parser Expr) (op? : TokenKind → Option BinaryOp) : Parser Expr := do
  let lhs ← next
  match op? (← peek).kind with
  | none => return lhs
  | some op =>
    let _ ← advance
    return binary op lhs (← next)

def levels (operand : Parser Expr) : Parser Expr :=
  leftLevel (leftLevel (single (leftLevel (leftLevel operand factorOp?) termOp?) compareOp?) andOp?) orOp?

def arguments (expr : Parser Expr) : Parser (List Expr) := do
  let args ← commaList .rParen expr (← tokensLeft)
  let _ ← expectPunct .rParen
  return args

def number {α : Type} (t : Token) (value : Except NumberFault α) (node : Span → α → Expr) : Parser Expr :=
  match value with
  | .ok v => do
    let _ ← advance
    return node t.span v
  | .error fault => throw (.invalidNumber fault t.span)

def leaf (node : Span → Expr) : Parser Expr := do
  let t ← advance
  return node t.span

def primary (expr : Parser Expr) : Parser Expr := do
  let t ← peek
  match t.kind with
  | .int => number t (Literal.int t.text) .int
  | .float => number t (Literal.float t.text) .float
  | .str => leaf (.str · (Literal.string t.text))
  | .keyword .litTrue => leaf (.bool · true)
  | .keyword .litFalse => leaf (.bool · false)
  | .keyword .null => leaf .null
  | .keyword .undefined => leaf .undefined
  | .keyword .unreachable => leaf .unreachable
  | .ident => leaf (.ident · t.text)
  | .builtin => do
    let _ ← advance
    let _ ← expectPunct .lParen
    let args ← arguments expr
    return .builtin (← spanFrom t.span.start) (String.ofList (t.text.toList.dropWhile (· == '@'))) args
  | .punct .lParen => do
    let _ ← advance
    let inner ← expr
    let _ ← expectPunct .rParen
    return inner
  | _ => failExpected "expression"

def suffixes (expr : Parser Expr) (start : Nat) : (fuel : Nat) → Expr → Parser Expr
  | 0, e => return e
  | fuel + 1, e => do
    if ← eatPunct .lParen then
      let args ← arguments expr
      suffixes expr start fuel (.call (← spanFrom start) e args)
    else if ← eatPunct .dotStar then
      suffixes expr start fuel (.deref (← spanFrom start) e)
    else return e

def suffixed (expr : Parser Expr) : Parser Expr := do
  let start ← startHere
  let e ← primary expr
  suffixes expr start (← tokensLeft) e

def pointerTo (operand : Parser Expr) (start : Nat) (size : PtrSize) (sentinel : Option Expr) :
    Parser Expr := do
  let isConst ← eat (.keyword .const)
  let child ← operand
  return .ptrType (← spanFrom start) size isConst sentinel child

/-- Types that open with a bracket, and arrays written out after one. `operand true` and `operand false` read
operands that may and may not be followed by braces. -/
def bracketed (operand : Bool → Parser Expr) (expr : Parser Expr) (start : Nat) (allowInit : Bool) :
    Parser Expr := do
  let _ ← expectPunct .lBracket
  if ← eatPunct .star then
    let next ← peek
    if next.kind == .ident && next.text == "c" then
      let _ ← advance
      let _ ← expectPunct .rBracket
      pointerTo (operand allowInit) start .c none
    else
      let sentinel ← after (.punct .colon) expr
      let _ ← expectPunct .rBracket
      pointerTo (operand allowInit) start .many sentinel
  else if ← eatPunct .rBracket then
    pointerTo (operand allowInit) start .slice none
  else if ← eatPunct .colon then
    let sentinel ← expr
    let _ ← expectPunct .rBracket
    pointerTo (operand allowInit) start .slice (some sentinel)
  else
    let len ← expr
    let sentinel ← after (.punct .colon) expr
    let _ ← expectPunct .rBracket
    let child ← operand false
    let array := Expr.arrayType (← spanFrom start) len sentinel child
    if allowInit && (← atPunct .lBrace) then
      let _ ← advance
      let elems ← commaList .rBrace expr (← tokensLeft)
      let _ ← expectPunct .rBrace
      return .arrayInit (← spanFrom start) array elems
    else return array

/-- An operand with its leading operators. Where a brace would open a body, `allowInit` is false. -/
def operandAt : (depth : Nat) → (allowInit : Bool) → Parser Expr
  | 0, _ => failExpected "expression"
  | depth + 1, allowInit => do
    let start ← startHere
    let inner := operandAt depth
    let expr := levels (inner true)
    let unary (op : UnaryOp) : Parser Expr := do
      let _ ← advance
      let e ← inner allowInit
      return .unary (← spanFrom start) op e
    match (← peek).kind with
    | .punct .minus => unary .negate
    | .punct .bang => unary .not
    | .punct .ampersand => unary .addressOf
    | .punct .question => do
      let _ ← advance
      let child ← inner allowInit
      return .optionalType (← spanFrom start) child
    | .punct .star => do
      let _ ← advance
      pointerTo (inner allowInit) start .one none
    | .punct .lBracket => bracketed inner expr start allowInit
    | _ => suffixed expr

def expr : Parser Expr := do levels (operandAt (← tokensLeft) true)

def typeExpr : Parser Expr := do operandAt (← tokensLeft) false

/-! Statements. -/

def stmtsUntilBrace (stmt : Parser Stmt) : (fuel : Nat) → Parser (List Stmt)
  | 0 => return []
  | fuel + 1 => do
    if (← atPunct .rBrace) || (← atKind .eof) then return []
    let s ← stmt
    return s :: (← stmtsUntilBrace stmt fuel)

def block (stmt : Parser Stmt) : Parser Block := do
  let opening ← expectPunct .lBrace
  let stmts ← stmtsUntilBrace stmt (← tokensLeft)
  let _ ← expectPunct .rBrace
  return .mk (← spanFrom opening.span.start) stmts

def body (stmt : Parser Stmt) : Parser Block := do
  if ← atPunct .lBrace then block stmt
  else
    let s ← stmt
    return .mk s.span [s]

def parenthesised : Parser Expr := do
  let _ ← expectPunct .lParen
  let e ← expr
  let _ ← expectPunct .rParen
  return e

def semicolon : Parser Unit := do
  let _ ← expectPunct .semicolon

def stmtAt : (depth : Nat) → Parser Stmt
  | 0 => failExpected "expression"
  | depth + 1 => do
    let start ← startHere
    let inner := stmtAt depth
    match (← peek).kind with
    | .keyword .const | .keyword .var => do
      let t ← advance
      let name ← ident
      let ty ← after (.punct .colon) typeExpr
      let _ ← expectPunct .assign
      let init ← expr
      semicolon
      return .define (← spanFrom start) name (t.kind == .keyword .var) ty init
    | .keyword .ret => do
      let _ ← advance
      let value ← if ← atPunct .semicolon then pure none else some <$> expr
      semicolon
      return .ret (← spanFrom start) value
    | .keyword .ifCond => do
      let _ ← advance
      let test ← parenthesised
      let thenBody ← body inner
      let elseBody ← after (.keyword .elseBranch) do
        if ← atKind (.keyword .ifCond) then inner
        else
          let b ← body inner
          return .block b.span b
      return .cond (← spanFrom start) test thenBody elseBody
    | .keyword .whileLoop => do
      let _ ← advance
      let test ← parenthesised
      let b ← body inner
      return .loop (← spanFrom start) test b
    | .punct .lBrace => do
      let b ← block inner
      return .block (← spanFrom start) b
    | .keyword .comptime => do
      let _ ← advance
      let b ← block inner
      return .comptime (← spanFrom start) b
    | .keyword .leave => do
      let _ ← advance
      semicolon
      return .leave (← spanFrom start)
    | .keyword .next => do
      let _ ← advance
      semicolon
      return .next (← spanFrom start)
    | _ => do
      let e ← expr
      match ← after (.punct .assign) expr with
      | some value =>
        semicolon
        return .assign (← spanFrom start) e value
      | none =>
        semicolon
        return .expr (← spanFrom start) e

def itemBlock : Parser Block := do block (stmtAt (← tokensLeft))

/-! Items. -/

def modifier? : TokenKind → Option Modifier
  | .keyword .exported => some .exported
  | .keyword .external => some .external
  | .keyword .inlined => some .inlined
  | .keyword .threadLocal => some .threadLocal
  | _ => none

def modifiersFrom (m : Modifiers) : (fuel : Nat) → Parser Modifiers
  | 0 => return m
  | fuel + 1 => do
    let t ← peek
    match modifier? t.kind with
    | none => return m
    | some k => do
      let _ ← advance
      let m := { m with marks := m.marks ++ [(k, t.span)] }
      let lib ← peek
      if k == .external && lib.kind == .str then
        let _ ← advance
        modifiersFrom { m with library := some (Literal.string lib.text, lib.span) } fuel
      else modifiersFrom m fuel

def param : Parser Param := do
  let name ← ident
  let _ ← expectPunct .colon
  return ⟨name, ← typeExpr⟩

def clause (k : Keyword) : Parser (Option Expr) := after (.keyword k) parenthesised

def fnItem (modifiers : Modifiers) : Parser FnItem := do
  let keyword ← expect (.keyword .fn)
  let name ← ident
  let _ ← expectPunct .lParen
  let params ← commaList .rParen param (← tokensLeft)
  let _ ← expectPunct .rParen
  let align ← clause .align
  let linkSection ← clause .linkSection
  let callConv ← clause .callConv
  let ret ← typeExpr
  let body ← if ← atPunct .lBrace then some <$> itemBlock else do
    semicolon
    pure none
  return {
    name, modifiers, params, ret, callConv, align, linkSection, body, keyword := keyword.span }

def varItem (modifiers : Modifiers) : Parser VarItem := do
  let keyword ← advance
  let name ← ident
  let ty ← after (.punct .colon) typeExpr
  let align ← clause .align
  let linkSection ← clause .linkSection
  let init ← after (.punct .assign) expr
  semicolon
  return {
    name, modifiers, isMutable := keyword.kind == .keyword .var, keyword := keyword.span, ty, align,
    linkSection, init }

def atField : Parser Bool := do
  match (← get).rest with
  | a :: b :: _ => return a.kind == .ident && b.kind == .punct .colon
  | _ => return false

def fieldItem : Parser ItemKind := do
  let name ← ident
  let _ ← expectPunct .colon
  let ty ← expr
  let value ← after (.punct .assign) expr
  if !(← atKind .eof) then
    let _ ← expectPunct .comma
  return .field name ty value

def plainItem : Parser ItemKind := do
  match (← peek).kind with
  | .keyword .comptime => do
    let _ ← advance
    return .comptime (← itemBlock)
  | .keyword .test => do
    let _ ← advance
    let name ← expect .str
    return .test (Literal.string name.text) (← itemBlock)
  | .keyword .usingNamespace => do
    let _ ← advance
    let e ← expr
    semicolon
    return .usingNamespace e
  | _ => if ← atField then fieldItem else failExpected "declaration"

def item : Parser Item := do
  let start ← startHere
  let isPublic ← eat (.keyword .pub)
  let modifiers ← modifiersFrom {} (← tokensLeft)
  let kind ← match (← peek).kind with
    | .keyword .fn => ItemKind.fn <$> fnItem modifiers
    | .keyword .const | .keyword .var => ItemKind.var <$> varItem modifiers
    | _ => if modifiers.marks.isEmpty then plainItem else failExpected "declaration"
  return ⟨kind, isPublic, ← spanFrom start⟩

def skipToItem : (depth : Nat) → List Token → List Token
  | _, [] => []
  | depth, t :: rest =>
    if depth = 0 && t.kind.startsItem then t :: rest
    else
      skipToItem
        (match t.kind with
          | .punct .lBrace => depth + 1
          | .punct .rBrace => depth - 1
          | _ => depth) rest

/-- Items and errors up to the end; a failed item costs at least one token. -/
def items : (fuel : Nat) → Cursor → List Item × List ParseError
  | 0, _ => ([], [])
  | fuel + 1, c =>
    if c.rest.isEmpty then ([], [])
    else
      match item.run c with
      | .ok it c' =>
        let (its, errs) := items fuel c'
        (it :: its, errs)
      | .error e c' =>
        let rest := if c'.rest.length = c.rest.length then c'.rest.tail else c'.rest
        let (its, errs) := items fuel { c' with rest := skipToItem 0 rest }
        (its, e :: errs)

def file (source : String) : Except (List ParseError) (List Item) :=
  let scanned := Scan.scan source
  let (its, errs) := items (scanned.tokens.length + 1) ⟨scanned.tokens, scanned.eof, 0⟩
  match scanned.errors ++ errs with
  | [] => .ok its
  | e :: es => .error ((e :: es).mergeSort (fun a b => a.span.start ≤ b.span.start))

end Frontend.Parse
