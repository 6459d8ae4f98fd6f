import Frontend.Typed
import Frontend.Untyped.Text

/-! Listings of typed code, a line for each instruction and the lines of a nested body after its own. -/

namespace Frontend.Typed

open Untyped (refText indented)

def NullOp.name : NullOp → String
  | alloc => "Alloc"
  | breakpoint => "Breakpoint"
  | unreachable => "Unreachable"
  | retVoid => "RetVoid"

def NullOp.all : List NullOp := [alloc, breakpoint, unreachable, retVoid]

def UnOp.name : UnOp → String
  | load => "Load"
  | bitcast => "Bitcast"
  | negate => "Negate"
  | not => "Not"
  | intCast => "IntCast"
  | floatCast => "FloatCast"
  | wrapOptional => "WrapOptional"
  | isNull => "IsNull"
  | isNonNull => "IsNonNull"
  | addressOf => "Ref"
  | ret => "Ret"
  | arrayToSlice => "ArrayToSlice"
  | arrayToMany => "ArrayToMany"
  | arrayToC => "ArrayToC"

def UnOp.all : List UnOp :=
  [load, bitcast, negate, not, intCast, floatCast, wrapOptional, isNull, isNonNull, addressOf, ret,
    arrayToSlice, arrayToMany, arrayToC]

def BinOp.name : BinOp → String
  | arith op => op.name
  | cmp op => "Cmp(" ++ op.name ++ ")"
  | boolAnd => "BoolAnd"
  | boolOr => "BoolOr"
  | store => "Store"

def InstKind.lines? (bodyLines : Nat → List Ref → Option String) (indent : Nat) :
    InstKind → Option String
  | const v => some ("constant(" ++ v.text ++ ")\n")
  | arg index => some ("arg(" ++ toString index ++ ")\n")
  | nullary op => some (op.name ++ "\n")
  | unary op operand => some (op.name ++ "(" ++ refText operand ++ ")\n")
  | binary op lhs rhs => some (op.name ++ "(" ++ refText lhs ++ ", " ++ refText rhs ++ ")\n")
  | br target (some operand) => some ("br(" ++ refText target ++ ", " ++ refText operand ++ ")\n")
  | br target none => some ("br(" ++ refText target ++ ")\n")
  | cond test thenBody elseBody => do
    let t ← bodyLines (indent + 2) thenBody
    let e ← bodyLines (indent + 2) elseBody
    return "condbr(" ++ refText test ++ ") \x7b\n" ++ t ++ indented indent ++ "\x7d else \x7b\n" ++ e
      ++ indented indent ++ "\x7d\n"
  | block body => do
    return "block \x7b\n" ++ (← bodyLines (indent + 2) body) ++ indented indent ++ "\x7d\n"
  | loop body => do
    return "loop \x7b\n" ++ (← bodyLines (indent + 2) body) ++ indented indent ++ "\x7d\n"
  | call callee args => some ("call(" ++ ", ".intercalate ((callee :: args).map refText) ++ ")\n")
  | switch target cases elseBody => do
    let arms ← cases.mapM fun (item, body) => do
      return indented (indent + 2) ++ item.text ++ " => \x7b\n" ++ (← bodyLines (indent + 4) body)
        ++ indented (indent + 2) ++ "\x7d\n"
    let e ← bodyLines (indent + 4) elseBody
    return "switchbr(" ++ refText target ++ ") \x7b\n" ++ String.join arms ++ indented (indent + 2)
      ++ "else => \x7b\n" ++ e ++ indented (indent + 2) ++ "\x7d\n" ++ indented indent ++ "\x7d\n"

def Arena.lines? (a : Arena) : (depth : Nat) → (indent : Nat) → List Ref → Option String
  | 0, _, _ => none
  | depth + 1, indent, body => do
    let parts ← body.mapM fun r => do
      let inst ← a.insts[r]?
      let rest ← inst.kind.lines? (a.lines? depth) indent
      return indented indent ++ refText r ++ " : " ++ inst.ty.text ++ " = " ++ rest
    return String.join parts

def Arena.listing? (a : Arena) (body : List Ref) : Option String := a.lines? (a.size + 1) 0 body

end Frontend.Typed
