import Frontend.Binary64

/-! Decimal text of 64-bit binary numbers. Writing takes the fewest digits that read back, of those the
nearest to the number and the upper one in the middle, and never uses an exponent. -/

attribute [local instance (high)] instPowNat

namespace Frontend.Binary64

def digitCount (n : Nat) : Nat := if n = 0 then 0 else (Nat.toDigits 10 n).length

/-- `digits * 10 ^ exp`, rounded. Exponents far outside the format's range are settled without the power. -/
def ofDecimal (negative : Bool) (digits : Nat) (exp : Int) : Binary64 :=
  if digits = 0 then finite negative 0 0
  else if exp > 400 then infinity negative
  else if (digitCount digits : Int) + exp < -400 then finite negative 0 0
  else if exp < 0 then ofRatio negative (digits * one) (10 ^ exp.natAbs)
  else ofRatio negative (digits * 10 ^ exp.natAbs * one) 1

def digitsValue (cs : List Char) : Nat := cs.foldl (fun n c => 10 * n + (c.toNat - 48)) 0

def ofUnsigned? (negative : Bool) (cs : List Char) : Option Binary64 :=
  let whole := cs.takeWhile Char.isDigit
  let rest := cs.dropWhile Char.isDigit
  let (frac, rest) := match rest with
    | '.' :: r => (r.takeWhile Char.isDigit, r.dropWhile Char.isDigit)
    | r => ([], r)
  if whole.isEmpty && frac.isEmpty then none
  else
    let digits := digitsValue (whole ++ frac)
    let shift : Int := -(frac.length : Int)
    match rest with
    | [] => some (ofDecimal negative digits shift)
    | c :: r =>
      if c = 'e' || c = 'E' then
        let (down, r) := match r with
          | '-' :: r => (true, r)
          | '+' :: r => (false, r)
          | r => (false, r)
        if r.isEmpty || !r.all Char.isDigit then none
        else
          let e : Int := digitsValue r
          some (ofDecimal negative digits (shift + if down then -e else e))
      else none

def ofText? (text : String) : Option Binary64 :=
  let (negative, cs) := match text.toList with
    | '-' :: r => (true, r)
    | '+' :: r => (false, r)
    | r => (false, r)
  if cs = ['i', 'n', 'f'] then some (infinity negative)
  else if cs = ['N', 'a', 'N'] then some nan
  else ofUnsigned? negative cs

def magnitude (num den : Nat) : Int :=
  if den ≤ num then digitCount (num / den)
  else
    let d := digitCount (den / num)
    if den ≤ num * 10 ^ (d - 1) then 2 - d else 1 - d

/-- The best multiple of `10 ^ grid` for the number `v / den`, if one reads back as it. `v`, `lo` and `hi` are
the number and the ends of the range that rounds to it, and `closed` tells whether the ends do. -/
def onGrid? (v lo hi den : Nat) (closed : Bool) (grid : Int) : Option Nat :=
  let a := if 0 ≤ grid then 10 ^ grid.natAbs * den else den
  let b := if 0 ≤ grid then 1 else 10 ^ grid.natAbs
  let below := v * b / a
  let above := below + 1
  let reads := fun c : Nat =>
    if closed then lo * b ≤ c * a && c * a ≤ hi * b else lo * b < c * a && c * a < hi * b
  match reads below, reads above with
  | true, true => some (if v * b - below * a < above * a - v * b then below else above)
  | true, false => some below
  | false, true => some above
  | false, false => none

/-- The fewest digits, and the power of ten of the last, that read back as the number. -/
def shortest (mantissa unit : Nat) : Nat × Int :=
  let v := 4 * mantissa * 2 ^ unit
  let hi := v + 2 * 2 ^ unit
  let lo := v - (if mantissa = 2 ^ (52 : Nat) && 0 < unit then 2 ^ unit else 2 * 2 ^ unit)
  let den := 4 * one
  let p := magnitude v den
  let found := (List.range 17).findSome? fun n =>
    let grid := p - (n + 1 : Nat)
    (onGrid? v lo hi den (mantissa % 2 == 0) grid).map (·, grid)
  found.getD (0, 0)

def positional (digits : Nat) (exp : Int) : String :=
  let ds := Nat.toDigits 10 digits
  if 0 ≤ exp then String.ofList (ds ++ List.replicate exp.natAbs '0')
  else
    let places := exp.natAbs
    let ds := List.replicate (places + 1 - ds.length) '0' ++ ds
    let whole := ds.take (ds.length - places)
    let frac := (ds.drop (ds.length - places)).reverse.dropWhile (· == '0') |>.reverse
    String.ofList (if frac.isEmpty then whole else whole ++ '.' :: frac)

def text : Binary64 → String
  | nan => "NaN"
  | infinity s => if s then "-inf" else "inf"
  | finite s m u =>
    let (digits, exp) := if m = 0 then (0, 0) else shortest m u
    (if s then "-" else "") ++ positional digits exp

end Frontend.Binary64
