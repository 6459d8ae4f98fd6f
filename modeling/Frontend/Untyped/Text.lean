import Frontend.Binary64.Decimal
import Frontend.Text.Quoted
import Frontend.Untyped

/-! The written form of untyped code. Equal texts are what makes two lowered declarations count as unchanged. -/

namespace Frontend.Untyped

def refText (r : Ref) : String := "%" ++ toString r

def refText? : Option Ref → String
  | none => "none"
  | some r => refText r

def indented (n : Nat) : String := String.ofList (List.replicate n ' ')

def applied (op : String) (operands : List String) : String := op ++ "(" ++ ", ".intercalate operands ++ ")"

def boolText (b : Bool) : String := if b then "true" else "false"

def Inst.text (nested : List Ref → String) : Inst → String
  | int v => applied "int" [toString v]
  | float f => applied "float" [f.text]
  | str s => applied "str" [Text.quoted s]
  | bool b => applied "bool" [boolText b]
  | void => "void_value"
  | null => "null"
  | undefined => "undefined"
  | primitive t => applied "primitive" [t.text]
  | declVal name => applied "declval" [name]
  | declRef name => applied "declref" [name]
  | arg index => applied "arg" [toString index]
  | alloc ty init => applied "alloc" [refText? ty, refText init]
  | store ptr value => applied "store" [refText ptr, refText value]
  | load ptr => applied "load" [refText ptr]
  | addressOf operand => applied "ref" [refText operand]
  | arith op lhs rhs => applied "arith" [op.text, refText lhs, refText rhs]
  | cmp op lhs rhs => applied "cmp" [op.text, refText lhs, refText rhs]
  | boolOp isAnd lhs rhs => applied (if isAnd then "bool_and" else "bool_or") [refText lhs, refText rhs]
  | not operand => applied "not" [refText operand]
  | negate operand => applied "negate" [refText operand]
  | coerce ty operand => applied "as" [refText ty, refText operand]
  | ptrType size isConst sentinel child =>
    applied "ptr_type"
      [size.name, "const=" ++ boolText isConst, "sentinel=" ++ refText? sentinel, refText child]
  | arrayType len sentinel child =>
    applied "array_type" [refText len, "sentinel=" ++ refText? sentinel, refText child]
  | optionalType child => applied "optional_type" [refText child]
  | vectorType len child => applied "vector_type" [refText len, refText child]
  | fnType params result cc =>
    applied "fn_type" (params.map refText ++ ["ret=" ++ refText result, "cc=" ++ cc.name])
  | arrayInit ty elems => applied "array_init" ((ty :: elems).map refText)
  | call callee args => applied "call" ((callee :: args).map refText)
  | ret operand => applied "ret" [refText? operand]
  | cond test thenBody elseBody =>
    applied "condbr" [refText test] ++ " " ++ nested thenBody ++ " else " ++ nested elseBody
  | loop testBody test body => "loop " ++ nested testBody ++ " while " ++ refText test ++ " " ++ nested body
  | block body isComptime => (if isComptime then "comptime_block " else "block ") ++ nested body
  | leave => "break"
  | next => "continue"
  | unreachable => "unreachable"
  | compileError message => applied "compile_error" [Text.quoted message]
  | exportSymbol target symbol => applied "export" [target, Text.quoted symbol]
  | breakpoint => "breakpoint"

def Code.lines (c : Code) : (depth : Nat) → (indent : Nat) → List Ref → String
  | 0, _, _ => ""
  | depth + 1, indent, body =>
    String.join (body.map fun r =>
      let nested := fun inner =>
        "\x7b\n" ++ c.lines depth (indent + 2) inner ++ indented indent ++ "\x7d"
      indented indent ++ refText r ++ " = " ++ ((c.insts[r]?).getD .void).text nested ++ "\n")

def Code.bodyText (c : Code) (body : List Ref) : String := c.lines (c.size + 1) 2 body

def Fn.text (f : Fn) (name : String) : String :=
  (if f.isInline then "inline " else "") ++ "fn " ++ name ++ "(" ++ ", ".intercalate f.params ++ ") sig="
    ++ refText f.signature.result ++ " \x7b\n" ++ f.code.bodyText f.signature.body
    ++ match f.body with
      | some body => "\x7d body \x7b\n" ++ f.code.bodyText body ++ "\x7d\n"
      | none => "\x7d extern\n"

def Var.text (v : Var) (name : String) : String :=
  let part (label : String) : Option Computation → String
    | none => ""
    | some e => v.code.bodyText e.body ++ "  " ++ label ++ "=" ++ refText e.result ++ "\n"
  (if v.isExternal then "extern " else "") ++ (if v.isThreadLocal then "threadlocal " else "")
    ++ (if v.isMutable then "var " else "const ") ++ name ++ " \x7b\n" ++ part "type" v.ty
    ++ part "init" v.init ++ "\x7d\n"

def Decl.text (d : Decl) : String :=
  (if d.isExported then "export " else "") ++
    match d.kind with
    | .fn f => f.text d.name
    | .var v => v.text d.name
    | .comptime b => "comptime " ++ d.name ++ " \x7b\n" ++ b.code.bodyText b.body ++ "\x7d\n"

end Frontend.Untyped
