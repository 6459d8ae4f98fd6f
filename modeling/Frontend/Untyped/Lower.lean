import Frontend.Ast
import Frontend.Untyped

/-! Lowering of items to untyped code. It looks at nothing outside the item: a name that is neither a local nor a
primitive type becomes a mention of a declaration. -/

namespace Frontend.Untyped

inductive LowerCause where
  | primitiveTooWide (name : String)
  | unsupportedItem
  | alignment
  | linkSection
  | externalLibrary
  | externalBody
  | missingBody
  | parameterRedeclared (name : String)
  | unknownCallConv
  | inlineVariable
  | redeclared (name : String)
  | returnOutsideFunction
  | leaveOutsideLoop
  | nextOutsideLoop
  | constantAssigned
  | invalidTarget
  | unknownBuiltin (name : String)
  | argumentCount (expected found : Nat)
  | expectedName
  | expectedString
  deriving DecidableEq, Inhabited

def LowerCause.message : LowerCause → String
  | primitiveTooWide name =>
    "primitive integer type '" ++ name ++ "' exceeds maximum bit width of " ++ toString maxIntBits
  | unsupportedItem => "declaration kind is not yet implemented"
  | alignment => "alignment is not yet implemented"
  | linkSection => "linksection is not yet implemented"
  | externalLibrary => "extern library names are not yet implemented"
  | externalBody => "extern functions have no body"
  | missingBody => "non-extern function has no body"
  | parameterRedeclared name => "redeclaration of parameter '" ++ name ++ "'"
  | unknownCallConv => "unknown calling convention"
  | inlineVariable => "variables cannot be inline"
  | redeclared name => "redeclaration of '" ++ name ++ "'"
  | returnOutsideFunction => "return outside function body"
  | leaveOutsideLoop => "break outside of loop"
  | nextOutsideLoop => "continue outside of loop"
  | constantAssigned => "cannot assign to constant"
  | invalidTarget => "invalid assignment target"
  | unknownBuiltin name => "invalid builtin function: '@" ++ name ++ "'"
  | argumentCount expected found =>
    "expected " ++ toString expected ++ " arguments, found " ++ toString found
  | expectedName => "expected declaration name"
  | expectedString => "expected string literal"

structure LowerError where
  span : Span
  cause : LowerCause
  deriving DecidableEq, Inhabited

structure Draft where
  code : Code := {}
  body : List Ref := []

abbrev Lower := StateT Draft (Except LowerError)

namespace Lower

def fail {α : Type} (span : Span) (cause : LowerCause) : Lower α := throw ⟨span, cause⟩

def emit (inst : Inst) (span : Span) : Lower Ref := do
  let d ← get
  set (⟨d.code.add inst span, d.body ++ [d.code.size]⟩ : Draft)
  return d.code.size

def inBody {α : Type} (m : Lower α) : Lower (α × List Ref) := do
  let outer := (← get).body
  modify ({ · with body := [] })
  let a ← m
  let inner := (← get).body
  modify ({ · with body := outer })
  return (a, inner)

def primitive (name : String) (span : Span) : Lower (Option Ty) :=
  match Ty.primitive? name with
  | .ok t => return t
  | .error _ => fail span (.primitiveTooWide name)

def ident (scope : Scope) (span : Span) (name : String) : Lower Ref := do
  match scope.lookupLocal? name with
  | some (.value inst) => return inst
  | some (.slot ptr) => emit (.load ptr) span
  | none =>
    match ← primitive name span with
    | some t => emit (.primitive t) span
    | none => emit (.declVal name) span

def identAddress (scope : Scope) (span inner : Span) (name : String) : Lower Ref := do
  match scope.lookupLocal? name with
  | some (.slot ptr) => return ptr
  | some (.value inst) => emit (.addressOf inst) span
  | none =>
    match Ty.primitive? name with
    | .ok (some _) => emit (.addressOf (← ident scope inner name)) span
    | _ => emit (.declRef name) span

def binaryInst (lhs rhs : Ref) : BinaryOp → Inst
  | .arith op => .arith op lhs rhs
  | .cmp op => .cmp op lhs rhs
  | .and => .boolOp true lhs rhs
  | .or => .boolOp false lhs rhs

inductive Builtin where
  | coerce | exportSymbol | vector | compileError | breakpoint
  deriving DecidableEq

def Builtin.ofName? : String → Option Builtin
  | "as" => some coerce
  | "export" => some exportSymbol
  | "Vector" => some vector
  | "compileError" => some compileError
  | "breakpoint" => some breakpoint
  | _ => none

def Builtin.arity : Builtin → Nat
  | coerce | exportSymbol | vector => 2
  | compileError => 1
  | breakpoint => 0

def builtinOf (span : Span) (name : String) (args : List Expr) : Lower Builtin :=
  match Builtin.ofName? name with
  | none => fail span (.unknownBuiltin name)
  | some b =>
    if args.length = b.arity then return b else fail span (.argumentCount b.arity args.length)

def nameOf : Expr → Lower String
  | .ident _ name => return name
  | e => fail e.span .expectedName

def stringOf : Expr → Lower String
  | .str _ s => return s
  | e => fail e.span .expectedString

def builtinInst : Builtin → List Expr → List Ref → Lower Inst
  | .coerce, _, [ty, operand] => return .coerce ty operand
  | .vector, _, [len, child] => return .vectorType len child
  | .exportSymbol, [target, symbol], _ => return .exportSymbol (← nameOf target) (← stringOf symbol)
  | .compileError, [message], _ => return .compileError (← stringOf message)
  | _, _, _ => return .breakpoint

mutual

def expr (scope : Scope) : Expr → Lower Ref
  | .int span v => emit (.int v) span
  | .float span f => emit (.float f) span
  | .str span s => emit (.str s) span
  | .bool span b => emit (.bool b) span
  | .null span => emit .null span
  | .undefined span => emit .undefined span
  | .unreachable span => emit .unreachable span
  | .ident span name => ident scope span name
  | .builtin span name args => do
    let b ← builtinOf span name args
    let refs ← if b = .coerce ∨ b = .vector then exprs scope args else pure []
    emit (← builtinInst b args refs) span
  | .unary span .negate e => do emit (.negate (← expr scope e)) span
  | .unary span .not e => do emit (.not (← expr scope e)) span
  | .unary span .addressOf (.ident inner name) => identAddress scope span inner name
  | .unary span .addressOf e => do emit (.addressOf (← expr scope e)) span
  | .binary span op l r => do
    let lhs ← expr scope l
    let rhs ← expr scope r
    emit (binaryInst lhs rhs op) span
  | .call span f args => do
    let callee ← expr scope f
    emit (.call callee (← exprs scope args)) span
  | .deref span e => do emit (.load (← expr scope e)) span
  | .ptrType span size isConst sentinel child => do
    let z ← expr? scope sentinel
    emit (.ptrType size isConst z (← expr scope child)) span
  | .arrayType span len sentinel child => do
    let n ← expr scope len
    let z ← expr? scope sentinel
    emit (.arrayType n z (← expr scope child)) span
  | .optionalType span child => do emit (.optionalType (← expr scope child)) span
  | .arrayInit span ty elems => do
    let t ← expr scope ty
    emit (.arrayInit t (← exprs scope elems)) span

def exprs (scope : Scope) : List Expr → Lower (List Ref)
  | [] => return []
  | e :: es => do
    let r ← expr scope e
    return r :: (← exprs scope es)

def expr? (scope : Scope) : Option Expr → Lower (Option Ref)
  | none => return none
  | some e => do return some (← expr scope e)

end

def computation (scope : Scope) (e : Expr) : Lower Computation := do
  let (result, body) ← inBody (expr scope e)
  return ⟨body, result⟩

def assign (scope : Scope) (span : Span) (target value : Expr) : Lower Unit := do
  match target with
  | .ident here name =>
    if name = "_" then
      let _ ← expr scope value
    else
      let ptr ← match scope.lookupLocal? name with
        | some (.slot ptr) => pure ptr
        | some (.value _) => fail here .constantAssigned
        | none => emit (.declRef name) here
      storeTo ptr
  | .deref _ e => storeTo (← expr scope e)
  | e => fail e.span .invalidTarget
where
  storeTo (ptr : Ref) : Lower Unit := do
    let v ← expr scope value
    let _ ← emit (.store ptr v) span

structure Place where
  inFn : Bool := false
  inLoop : Bool := false

mutual

def stmt (place : Place) (scope : Scope) : Stmt → Lower Scope
  | .define span name isMutable ty init => do
    if (scope.lookupLocal? name.name).isSome then fail name.span (.redeclared name.name)
    let t ← expr? scope ty
    let v ← expr scope init
    if isMutable then
      return .localSlot scope name.name (← emit (.alloc t v) span)
    else
      match t with
      | some t => return .localValue scope name.name (← emit (.coerce t v) init.span)
      | none => return .localValue scope name.name v
  | .assign span target value => do
    assign scope span target value
    return scope
  | .expr _ e => do
    let _ ← expr scope e
    return scope
  | .ret span value => do
    if !place.inFn then fail span .returnOutsideFunction
    let _ ← emit (.ret (← expr? scope value)) span
    return scope
  | .cond span test thenBody elseBody => do
    let c ← expr scope test
    let (_, t) ← inBody (block place scope thenBody)
    let (_, e) ← inBody (stmt? place scope elseBody)
    let _ ← emit (.cond c t e) span
    return scope
  | .loop span test body => do
    let (c, testBody) ← inBody (expr scope test)
    let (_, b) ← inBody (block { place with inLoop := true } scope body)
    let _ ← emit (.loop testBody c b) span
    return scope
  | .block span body => do
    let (_, b) ← inBody (block place scope body)
    let _ ← emit (.block b false) span
    return scope
  | .comptime span body => do
    let (_, b) ← inBody (block place scope body)
    let _ ← emit (.block b true) span
    return scope
  | .leave span => do
    if !place.inLoop then fail span .leaveOutsideLoop
    let _ ← emit .leave span
    return scope
  | .next span => do
    if !place.inLoop then fail span .nextOutsideLoop
    let _ ← emit .next span
    return scope

def stmts (place : Place) (scope : Scope) : List Stmt → Lower Unit
  | [] => return ()
  | s :: rest => do
    let scope ← stmt place scope s
    stmts place scope rest

def stmt? (place : Place) (scope : Scope) : Option Stmt → Lower Unit
  | none => return ()
  | some s => do
    let _ ← stmt place scope s

def block (place : Place) (scope : Scope) : Block → Lower Unit
  | .mk _ ss => stmts place scope ss

end

def checkSupported (m : Modifiers) (align linkSection : Option Expr) : Lower Unit := do
  if let some e := align then fail e.span .alignment
  if let some e := linkSection then fail e.span .linkSection
  if let some (_, span) := m.library then fail span .externalLibrary

def params (scope : Scope) : (seen : List String) → List Param → Lower (List Ref)
  | _, [] => return []
  | seen, p :: rest => do
    if p.name.name ∈ seen then fail p.name.span (.parameterRedeclared p.name.name)
    let r ← expr scope p.ty
    return r :: (← params scope (seen ++ [p.name.name]) rest)

def callConv (isExternal : Bool) : Option Expr → Lower CallConv
  | none => return if isExternal then .c else .unspecified
  | some (.ident span name) =>
    match name with
    | "C" => return .c
    | "Inline" => return .inlined
    | "Unspecified" => return .unspecified
    | _ => fail span .unknownCallConv
  | some e => fail e.span .unknownCallConv

def arguments : (index : Nat) → Scope → List Param → Lower Scope
  | _, scope, [] => return scope
  | i, scope, p :: rest => do
    let r ← emit (.arg i) p.name.span
    arguments (i + 1) (.localValue scope p.name.name r) rest

def fn (scope : Scope) (f : FnItem) (src : Span) : Lower Fn := do
  checkSupported f.modifiers f.align f.linkSection
  let isExternal := f.modifiers.has .external
  let isInline := f.modifiers.has .inlined
  match f.body, isExternal with
  | some b, true => fail b.span .externalBody
  | none, false => fail f.keyword .missingBody
  | _, _ => pure ()
  let ((result, cc), signature) ← inBody do
    let ps ← params scope [] f.params
    let ret ← expr scope f.ret
    let written ← callConv isExternal f.callConv
    let cc := if isInline then .inlined else written
    return (← emit (.fnType ps ret cc) src, cc)
  let body ← match f.body with
    | none => pure none
    | some b => do
      let (_, body) ← inBody do
        let inner ← arguments 0 scope f.params
        block { inFn := true } inner b
      pure (some body)
  return {
    code := (← get).code, signature := ⟨signature, result⟩, params := f.params.map (·.name.name), body,
    isInline := isInline || cc == .inlined }

def var (scope : Scope) (v : VarItem) : Lower Var := do
  checkSupported v.modifiers v.align v.linkSection
  if let some span := v.modifiers.spanOf? .inlined then fail span .inlineVariable
  let ty ← v.ty.mapM (computation scope)
  let init ← v.init.mapM (computation scope)
  return {
    code := (← get).code, ty, init, isMutable := v.isMutable, isExternal := v.modifiers.has .external,
    isThreadLocal := v.modifiers.has .threadLocal, keyword := v.keyword }

def item (scope : Scope) (it : Item) : Lower DeclKind := do
  match it.kind with
  | .fn f => return .fn (← fn scope f it.span)
  | .var v => return .var (← var scope v)
  | .comptime b =>
    let (_, body) ← inBody (block {} scope b)
    return .comptime ⟨(← get).code, body⟩
  | .test .. | .usingNamespace _ | .field .. => fail it.span .unsupportedItem

end Lower

def ofItem (it : Item) (name : String) (parent : Scope) : Except LowerError Decl := do
  let (kind, _) ← (Lower.item (.lowering parent parent.owner?) it).run {}
  return ⟨name, it.isExported, it.span, kind⟩

def ofFile (items : List Item) (file : FileId) : Except LowerError (List Decl) :=
  (declared 0 0 items).mapM (fun (_, name, it) => ofItem it name (.lowered file))

end Frontend.Untyped
