import Frontend.Binary64.Decimal
import Frontend.Token
import Frontend.Ty

/-! The values of literal tokens. -/

attribute [local instance (high)] instPowNat

namespace Frontend.Literal

def digit? (radix : Nat) (c : Char) : Option Nat :=
  let d :=
    if c.isDigit then c.toNat - 48
    else if 'a' ≤ c ∧ c ≤ 'z' then c.toNat - 87
    else if 'A' ≤ c ∧ c ≤ 'Z' then c.toNat - 55
    else radix
  if d < radix then some d else none

/-- Reads digits from the left; the first bad digit or the first excess over 127 bits ends it. -/
def digits (radix : Nat) : Nat → List Char → Except NumberFault Nat
  | acc, [] => .ok acc
  | acc, c :: rest =>
    match digit? radix c with
    | none => .error .invalidDigit
    | some d =>
      if radix * acc + d < 2 ^ (127 : Nat) then digits radix (radix * acc + d) rest else .error .tooLarge

def int (text : String) : Except NumberFault Int :=
  let cs := text.toList.filter (· ≠ '_')
  let (radix, ds) := match cs with
    | '0' :: 'x' :: r => (16, r)
    | '0' :: 'b' :: r => (2, r)
    | '0' :: 'o' :: r => (8, r)
    | r => (10, r)
  if ds.isEmpty then .error .empty else (digits radix 0 ds).map (fun n => (n : Int))

def float (text : String) : Except NumberFault Binary64 :=
  match Binary64.ofUnsigned? false (text.toList.filter (· ≠ '_')) with
  | some f => .ok f
  | none => .error .invalidDigit

def unescape : List Char → List Char
  | [] => []
  | ['\\'] => ['\\']
  | '\\' :: c :: rest =>
    (match c with
      | 'n' => '\n'
      | 't' => '\t'
      | 'r' => '\r'
      | '0' => '\x00'
      | other => other) :: unescape rest
  | c :: rest => c :: unescape rest

def unquote (cs : List Char) : List Char :=
  match cs with
  | '"' :: rest => if rest.getLast? = some '"' then rest.dropLast else cs
  | _ => cs

def string (lexeme : String) : String := String.ofList (unescape (unquote lexeme.toList))

end Frontend.Literal
