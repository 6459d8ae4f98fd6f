import Mathlib
import Frontend.Proofs.Parsing.Strings

/-! Expressions as text. An expression is written as its words, with parentheses only where it would be read as another
one without them, and the words are scanned back from the text. -/

namespace Frontend

abbrev Word := TokenKind × String

def Token.word (t : Token) : Word := (t.kind, t.text)

def Punct.word (p : Punct) : Word := (.punct p, p.spelling.1)

def Keyword.word (k : Keyword) : Word := (.keyword k, k.spelling.1)

/-! Operators. -/

def BinaryOp.level : BinaryOp → Nat
  | or => 0
  | and => 1
  | cmp _ => 2
  | arith .add | arith .sub => 3
  | arith .mul | arith .div | arith .rem => 4

lemma BinaryOp.level_le (op : BinaryOp) : op.level ≤ 4 := by
  cases op with
  | arith o => cases o <;> decide
  | cmp => exact (by decide : 2 ≤ 4)
  | and | or => decide

def BinaryOp.leftLevel : BinaryOp → Nat
  | cmp _ => 3
  | op => op.level

def BinaryOp.word : BinaryOp → Word
  | or => Keyword.or.word
  | and => Keyword.and.word
  | cmp .eq => Punct.eqEq.word
  | cmp .neq => Punct.bangEq.word
  | cmp .lt => Punct.lt.word
  | cmp .lte => Punct.ltEq.word
  | cmp .gt => Punct.gt.word
  | cmp .gte => Punct.gtEq.word
  | arith .add => Punct.plus.word
  | arith .sub => Punct.minus.word
  | arith .mul => Punct.star.word
  | arith .div => Punct.slash.word
  | arith .rem => Punct.percent.word

def UnaryOp.word : UnaryOp → Word
  | negate => Punct.minus.word
  | not => Punct.bang.word
  | addressOf => Punct.ampersand.word

/-! Strings. -/

def quotedChar : Char → List Char
  | '"' => ['\\', '"']
  | '\\' => ['\\', '\\']
  | '\n' => ['\\', 'n']
  | c => [c]

def quotedString (s : String) : String := String.ofList ('"' :: (s.toList.flatMap quotedChar ++ ['"']))

namespace Literal

lemma spells_quotedChar (c : Char) : Spells c (quotedChar c) := by
  unfold quotedChar
  split
  case h_4 hquote hslash hline => exact .plain hquote hslash hline
  all_goals exact .escape rfl

lemma string_quotedString (s : String) : string (quotedString s) = s := string_spelled spells_quotedChar s

lemma digits_eq {ds : List Char} (hd : ∀ c ∈ ds, c.isDigit) {acc : Nat} (h : Nat.ofDigitChars 10 ds acc < 2 ^ 127) :
    digits 10 acc ds = .ok (Nat.ofDigitChars 10 ds acc) := by
  induction ds generalizing acc with
  | nil => rfl
  | cons c ds ih =>
    have hc := hd c List.mem_cons_self
    have hval : c.toNat - 48 < 10 := by
      simp only [Char.isDigit, Bool.and_eq_true, decide_eq_true_eq] at hc
      have h9 : c.toNat ≤ 57 := hc.2
      omega
    rw [Nat.ofDigitChars_cons] at h ⊢
    have hle : 10 * acc + (c.toNat - '0'.toNat) < 2 ^ 127 := Nat.lt_of_le_of_lt (le_ofDigitChars ds _) h
    have hdigit : digit? 10 c = some (c.toNat - '0'.toNat) := by
      simp [digit?, hc]
      omega
    rw [digits, hdigit]
    simp only [hle, if_true]
    exact ih (fun d hd' => hd d (List.mem_cons_of_mem _ hd')) h
where
  le_ofDigitChars (ds : List Char) (acc : Nat) : acc ≤ Nat.ofDigitChars 10 ds acc := by
    induction ds generalizing acc with
    | nil => exact Nat.le_refl acc
    | cons c ds ih =>
      rw [Nat.ofDigitChars_cons]
      exact Nat.le_trans (by omega) (ih _)

lemma int_toString {n : Nat} (h : n < 2 ^ 127) : int (toString n) = .ok (n : Int) := by
  have hd (c : Char) (hc : c ∈ Nat.toDigits 10 n) : c.isDigit := Nat.isDigit_of_mem_toDigits (by decide) (by decide) hc
  have hfilter : (Nat.toDigits 10 n).filter (· ≠ '_') = Nat.toDigits 10 n := by
    rw [List.filter_eq_self]
    intro c hc
    have := hd c hc
    simp only [ne_eq, decide_not, Bool.not_eq_true', decide_eq_false_iff_not]
    rintro rfl
    exact absurd this (by decide)
  have hne : Nat.toDigits 10 n ≠ [] := Nat.toDigits_ne_nil
  have hdigits : digits 10 0 _ = .ok _ := digits_eq hd (by rwa [Nat.ofDigitChars_ten_toDigits])
  rw [Nat.ofDigitChars_ten_toDigits] at hdigits
  rw [int, Nat.toString_eq_ofList_toDigits, String.toList_ofList, hfilter]
  generalize Nat.toDigits 10 n = ds at *
  -- The second character is a digit too, so no base is named.
  match ds with
  | [] => exact absurd rfl hne
  | [a] => simp [hdigits, Except.map]
  | a :: b :: r =>
    have hb := hd b (by simp)
    have hx : b ≠ 'x' := by rintro rfl; exact absurd hb (by decide)
    have hb' : b ≠ 'b' := by rintro rfl; exact absurd hb (by decide)
    have ho : b ≠ 'o' := by rintro rfl; exact absurd hb (by decide)
    simp [hx, hb', ho, hdigits, Except.map]

end Literal

/-! Expressions. -/

namespace Expr

/-- Binary operators by how tightly they bind, then prefixes and types, then what calls and dereferences can follow. -/
def level : Expr → Nat
  | binary _ op _ _ => op.level
  | unary .. | ptrType .. | arrayType .. | optionalType .. | arrayInit .. => 5
  | _ => 6

def isInit : Expr → Bool
  | arrayInit .. => true
  | _ => false

/-- The words in a place for a level, of an expression that has the given ones by itself. Where `init` is false, braces
after a type would not be read as part of it. -/
def within (e : Expr) (init : Bool) (level : Nat) (bare : Bool → List Word) : List Word :=
  if e.level < level || (e.isInit && !init) then Punct.lParen.word :: (bare true ++ [Punct.rParen.word]) else bare init

/-- An array's length, which would be read as the opening of a pointer if it began with a star. -/
def asLength (ws : List Word) : List Word :=
  if ws.head?.map (·.1) = some (.punct .star) then Punct.lParen.word :: (ws ++ [Punct.rParen.word]) else ws

def constWord (isConst : Bool) : List Word := if isConst then [Keyword.const.word] else []

mutual

def bare : Expr → Bool → List Word
  | int _ v, _ => [(.int, toString v.toNat)]
  | float _ f, _ => [(.float, f.text)]
  | str _ s, _ => [(.str, quotedString s)]
  | bool _ b, _ => [if b then Keyword.litTrue.word else Keyword.litFalse.word]
  | null _, _ => [Keyword.null.word]
  | undefined _, _ => [Keyword.undefined.word]
  | unreachable _, _ => [Keyword.unreachable.word]
  | ident _ name, _ => [(.ident, name)]
  | builtin _ name args, _ =>
    (.builtin, "@" ++ name) :: Punct.lParen.word ::
      ([Punct.comma.word].intercalate (bareAll args) ++ [Punct.rParen.word])
  | unary _ op e, init => op.word :: e.within init 5 e.bare
  | binary _ op l r, _ => l.within true op.leftLevel l.bare ++ op.word :: r.within true (op.level + 1) r.bare
  | call _ f args, _ =>
    f.within true 6 f.bare ++ Punct.lParen.word ::
      ([Punct.comma.word].intercalate (bareAll args) ++ [Punct.rParen.word])
  | deref _ e, _ => e.within true 6 e.bare ++ [Punct.dotStar.word]
  | ptrType _ .one isConst _ c, init => Punct.star.word :: (constWord isConst ++ c.within init 5 c.bare)
  | ptrType _ .c isConst _ c, init =>
    [Punct.lBracket.word, Punct.star.word, (.ident, "c"), Punct.rBracket.word] ++
      (constWord isConst ++ c.within init 5 c.bare)
  | ptrType _ .many isConst z c, init =>
    Punct.lBracket.word :: Punct.star.word :: (bareSentinel z ++ Punct.rBracket.word ::
      (constWord isConst ++ c.within init 5 c.bare))
  | ptrType _ .slice isConst z c, init =>
    Punct.lBracket.word :: (bareSentinel z ++ Punct.rBracket.word :: (constWord isConst ++ c.within init 5 c.bare))
  | arrayType _ n z c, _ =>
    Punct.lBracket.word :: (asLength (n.within true 0 n.bare) ++ (bareSentinel z ++ Punct.rBracket.word ::
      c.within false 5 c.bare))
  | optionalType _ c, init => Punct.question.word :: c.within init 5 c.bare
  | arrayInit _ t xs, _ =>
    t.bare true ++ Punct.lBrace.word :: ([Punct.comma.word].intercalate (bareAll xs) ++ [Punct.rBrace.word])

def bareAll : List Expr → List (List Word)
  | [] => []
  | e :: es => e.within true 0 e.bare :: bareAll es

def bareSentinel : Option Expr → List Word
  | none => []
  | some z => Punct.colon.word :: z.within true 0 z.bare

end

def words (e : Expr) (init : Bool) (level : Nat) : List Word := e.within init level e.bare

lemma words_bare {e : Expr} {init : Bool} {level : Nat} (h : level ≤ e.level) (hi : e.isInit = true → init = true) :
    e.words init level = e.bare init := by
  have hcond : (decide (e.level < level) || (e.isInit && !init)) = false := by
    cases hinit : e.isInit <;> simp_all
  rw [words, within, hcond]
  rfl

lemma words_parens {e : Expr} (init : Bool) {level : Nat} (h : e.level < level ∨ (e.isInit = true ∧ init = false)) :
    e.words init level = Punct.lParen.word :: (e.bare true ++ [Punct.rParen.word]) := by
  have hcond : (decide (e.level < level) || (e.isInit && !init)) = true := by
    simpa using h
  rw [words, within, hcond]
  rfl

def print (e : Expr) : String := " ".intercalate ((e.words true 0).map (·.2))

abbrev Same (e e' : Expr) : Prop := e.Like (fun _ _ => True) e'

/-- The expressions that can be written: names are words that are not keywords, integers fit 127 bits, the length of a
pointer has a sentinel only where it is not known, and elements are written out after the type of an array. -/
inductive Printable : Expr → Prop
  | int {s v} (h : 0 ≤ v) (hv : v < 2 ^ 127) : Printable (.int s v)
  | str {s t} : Printable (.str s t)
  | bool {s b} : Printable (.bool s b)
  | null {s} : Printable (.null s)
  | undefined {s} : Printable (.undefined s)
  | unreachable {s} : Printable (.unreachable s)
  | ident {s name} (h : ∃ c cs, name.toList = c :: cs ∧ Scan.isWordStart c ∧ ∀ d ∈ cs, Scan.isWord d)
      (hk : Keyword.ofText? name = none) : Printable (.ident s name)
  | builtin {s name args} (h : ∀ c ∈ name.toList, Scan.isWord c) (ha : ∀ e ∈ args, Printable e) :
      Printable (.builtin s name args)
  | unary {s op e} (h : Printable e) : Printable (.unary s op e)
  | binary {s op l r} (hl : Printable l) (hr : Printable r) : Printable (.binary s op l r)
  | call {s f args} (h : Printable f) (ha : ∀ e ∈ args, Printable e) : Printable (.call s f args)
  | deref {s e} (h : Printable e) : Printable (.deref s e)
  | ptrType {s size isConst z c} (hz : z ≠ none → size = .many ∨ size = .slice) (h : ∀ e ∈ z, Printable e)
      (hc : Printable c) : Printable (.ptrType s size isConst z c)
  | arrayType {s n z c} (hn : Printable n) (hz : ∀ e ∈ z, Printable e) (hc : Printable c) :
      Printable (.arrayType s n z c)
  | optionalType {s c} (h : Printable c) : Printable (.optionalType s c)
  | arrayInit {s s' n z c xs} (h : Printable (.arrayType s' n z c)) (hx : ∀ e ∈ xs, Printable e) :
      Printable (.arrayInit s (.arrayType s' n z c) xs)

end Expr

end Frontend
