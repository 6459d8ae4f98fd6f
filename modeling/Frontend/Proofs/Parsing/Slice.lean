import Mathlib
import Frontend.Proofs.Lowering

/-! Reading a stretch of tokens by itself. A parser that reads inside the stretch, and looks at no token after it, does
the same where the stretch stands alone: it comes to the same tree, whose places are counted from the stretch.

`Repeats` compares the two runs. It is stated for parsers with bounds on their recursion, of which the tokens left are
one, so that bounds taken from different token lists agree. -/

namespace Frontend

def Span.shift (k : Nat) (s : Span) : Span := ⟨s.start + k, s.stop + k⟩

def Span.Moved (k : Nat) (s s' : Span) : Prop := s' = s.shift k

def Token.shift (k : Nat) (t : Token) : Token := { t with span := t.span.shift k }

lemma Span.Moved.merge {k : Nat} {a a' b b' : Span} (ha : a.Moved k a') (hb : b.Moved k b') :
    (a.merge b).Moved k (a'.merge b') := by
  subst ha hb
  simp only [Moved, Span.merge, shift, Span.mk.injEq]
  omega

lemma Stmt.Like.span {R : Span → Span → Prop} {x x' : Stmt} (h : x.Like R x') : R x.span x'.span := by
  cases h <;> assumption

namespace Parse

set_option synthInstance.maxSize 100000

variable {α β : Type} {p : Parser α} {q : α → Parser β} {c : Cursor} {t : Token}

lemma bind_ok {c' : Cursor} {b : β} (h : (p >>= q) c = .ok b c') : ∃ a c₁, p c = .ok a c₁ ∧ q a c₁ = .ok b c' := by
  change EStateM.bind p q c = _ at h
  unfold EStateM.bind at h
  split at h
  · exact ⟨_, _, ‹_›, h⟩
  · cases h

lemma bind_error {c' : Cursor} {e : ParseError} (h : (p >>= q) c = .error e c') :
    p c = .error e c' ∨ ∃ a c₁, p c = .ok a c₁ ∧ q a c₁ = .error e c' := by
  change EStateM.bind p q c = _ at h
  unfold EStateM.bind at h
  split at h
  · exact .inr ⟨_, _, ‹_›, h⟩
  · cases h
    exact .inl ‹_›

lemma bind_eq {c₁ : Cursor} {a : α} (h : p c = .ok a c₁) : (p >>= q) c = q a c₁ := by
  change EStateM.bind p q c = _
  unfold EStateM.bind
  rw [h]

lemma pure_ok {a b : α} {c' : Cursor} (h : (pure a : Parser α) c = .ok b c') : b = a ∧ c' = c := by
  cases h
  exact ⟨rfl, rfl⟩

/-! How many tokens success costs. -/

def Cursor.Reaches (c d : Cursor) : Prop :=
  ∃ read, c.rest = read ++ d.rest ∧ d.prevEnd = (read.getLast?.map (·.span.stop)).getD c.prevEnd

namespace Cursor.Reaches
variable {c d e : Cursor}

lemma refl (c : Cursor) : c.Reaches c := ⟨[], rfl, rfl⟩

lemma trans : c.Reaches d → d.Reaches e → c.Reaches e := by
  rintro ⟨r₁, h₁, p₁⟩ ⟨r₂, h₂, p₂⟩
  refine ⟨r₁ ++ r₂, by rw [h₁, h₂, List.append_assoc], ?_⟩
  rw [p₂, p₁, List.getLast?_append]
  cases r₂.getLast? <;> simp

lemma step {t : Token} {rest : List Token} (h : c.rest = t :: rest) :
    c.Reaches { c with rest, prevEnd := t.span.stop } := ⟨[t], h, rfl⟩

lemma mem (h : c.Reaches d) {t : Token} (ht : t ∈ d.rest) : t ∈ c.rest := by
  obtain ⟨r, hr, -⟩ := h
  exact hr ▸ List.mem_append_right r ht

end Cursor.Reaches

/-- Success costs at least `n` tokens, which are the first ones, and leaves the end where it is. Failure gives no token
back. -/
structure Eats (n : Nat) (p : Parser α) : Prop where
  ok (c a c') : c.eof.kind = .eof → p c = .ok a c' →
    c'.eof = c.eof ∧ c.Reaches c' ∧ c'.rest.length + n ≤ c.rest.length
  error (c e c') : c.eof.kind = .eof → p c = .error e c' → c'.eof = c.eof ∧ c'.rest.length ≤ c.rest.length

namespace Eats
variable {p q : Parser α} {m n : Nat}

lemma mono (h : Eats m p) (hn : n ≤ m) : Eats n p where
  ok c a c' he hp := by
    obtain ⟨he', hx, hl⟩ := h.ok c a c' he hp
    exact ⟨he', hx, by omega⟩
  error := h.error

lemma bind {q : α → Parser β} (hp : Eats m p) (hq : ∀ a, Eats n (q a)) : Eats (m + n) (p >>= q) where
  ok c b c' he h := by
    obtain ⟨a, c₁, h₁, h₂⟩ := bind_ok h
    obtain ⟨he₁, hx₁, hl₁⟩ := hp.ok _ _ _ he h₁
    obtain ⟨he₂, hx₂, hl₂⟩ := (hq a).ok _ _ _ (he₁ ▸ he) h₂
    exact ⟨he₂.trans he₁, hx₁.trans hx₂, by omega⟩
  error c x c' he h := by
    obtain h₁ | ⟨a, c₁, h₁, h₂⟩ := bind_error h
    · exact hp.error _ _ _ he h₁
    · obtain ⟨he₁, -, hl₁⟩ := hp.ok _ _ _ he h₁
      obtain ⟨he₂, hl₂⟩ := (hq a).error _ _ _ (he₁ ▸ he) h₂
      exact ⟨he₂.trans he₁, by omega⟩

end Eats

/-- Never gives a token back. Instances follow the way a parser is put together. -/
class Steady (p : Parser α) : Prop where
  eats : Eats 0 p

namespace Eats
variable {p : Parser α} {q : α → Parser β} {n : Nat}

lemma steady (h : Eats n p) : Steady p := ⟨h.mono (Nat.zero_le n)⟩

lemma first (hp : Eats 1 p) [hq : ∀ a, Steady (q a)] : Eats 1 (p >>= q) := hp.bind fun a => (hq a).eats

lemma last [hp : Steady p] (hq : ∀ a, Eats 1 (q a)) : Eats 1 (p >>= q) :=
  (hp.eats.bind hq).mono (Nat.le_add_left ..)

lemma map {f : α → β} (hp : Eats n p) : Eats n (f <$> p) where
  ok c b c' he h := by
    change EStateM.map f p c = _ at h
    unfold EStateM.map at h
    split at h
    · next h₁ => cases h; exact hp.ok _ _ _ he h₁
    · cases h
  error c e c' he h := by
    change EStateM.map f p c = _ at h
    unfold EStateM.map at h
    split at h
    · cases h
    · next h₁ => cases h; exact hp.error _ _ _ he h₁

lemma ofRun (h : ∀ c, ∃ a, p c = .ok a c) : Eats 0 p where
  ok c a c' _ hp := by
    obtain ⟨b, hb⟩ := h c
    cases hb.symm.trans hp
    exact ⟨rfl, .refl _, Nat.le_refl _⟩
  error c e c' _ hp := by
    obtain ⟨b, hb⟩ := h c
    cases hb.symm.trans hp

end Eats

namespace Steady
variable {p q : Parser α}

instance pure (a : α) : Steady (Pure.pure a : Parser α) := ⟨.ofRun fun _ => ⟨a, rfl⟩⟩

instance bind {q : α → Parser β} [hp : Steady p] [hq : ∀ a, Steady (q a)] : Steady (p >>= q) :=
  ⟨hp.eats.bind fun a => (hq a).eats⟩

instance ite {c : Prop} [Decidable c] [Steady p] [Steady q] : Steady (if c then p else q) := by
  split <;> assumption

lemma andThen {q : α → Parser β} [Steady p] (hq : ∀ a, Steady (q a)) : Steady (p >>= q) := inferInstance

lemma orElse {c : Prop} [Decidable c] [Steady p] (hq : Steady q) : Steady (if c then p else q) := inferInstance

instance map {f : α → β} [hp : Steady p] : Steady (f <$> p) := ⟨hp.eats.map⟩

end Steady

class Eager (p : Parser α) : Prop where
  eats : Eats 1 p

instance (priority := low) (p : Parser α) [Eager p] : Steady p := Eager.eats.steady

namespace Eager
variable {p q : Parser α}

instance first {q : α → Parser β} [hp : Eager p] [∀ a, Steady (q a)] : Eager (p >>= q) := ⟨.first hp.eats⟩

instance last {q : α → Parser β} [Steady p] [hq : ∀ a, Eager (q a)] : Eager (p >>= q) := ⟨.last fun a => (hq a).eats⟩

instance ite {c : Prop} [Decidable c] [Eager p] [Eager q] : Eager (if c then p else q) := by
  split <;> assumption

instance map {f : α → β} [hp : Eager p] : Eager (f <$> p) := ⟨hp.eats.map⟩

end Eager

lemma Eats.ofThrow {p : Parser α} {n : Nat} (h : ∀ c, ∃ e, p c = .error e c) : Eats n p where
  ok c a c' _ hp := by
    obtain ⟨e, he⟩ := h c
    cases he.symm.trans hp
  error c e c' _ hp := by
    obtain ⟨e', he⟩ := h c
    cases he.symm.trans hp
    exact ⟨rfl, Nat.le_refl _⟩

instance (what : String) : Eager (failExpected what : Parser α) := ⟨.ofThrow fun _ => ⟨_, rfl⟩⟩

instance : Steady peek := ⟨.ofRun fun _ => ⟨_, rfl⟩⟩

instance (kind : TokenKind) : Steady (atKind kind) := by
  unfold atKind
  infer_instance

instance (p : Punct) : Steady (atPunct p) := inferInstanceAs (Steady (atKind _))

instance (start : Nat) : Steady (spanFrom start) := ⟨.ofRun fun _ => ⟨_, rfl⟩⟩

instance : Steady startHere := by
  unfold startHere
  infer_instance

instance : Steady tokensLeft := ⟨.ofRun fun _ => ⟨_, rfl⟩⟩

lemma advance_cons {rest : List Token} (h : c.rest = t :: rest) :
    advance c = .ok t { c with rest, prevEnd := t.span.stop } := by
  simp [advance, bind, EStateM.bind, get, getThe, MonadStateOf.get, EStateM.get, h, Pure.pure, EStateM.pure, set,
    MonadStateOf.set, EStateM.set]

lemma advance_nil (h : c.rest = []) : advance c = .ok c.eof c := by
  simp [advance, bind, EStateM.bind, get, getThe, MonadStateOf.get, EStateM.get, h, Pure.pure, EStateM.pure]

instance : Steady advance where
  eats.ok c a c' _ h := by
    cases hr : c.rest with
    | nil =>
      rw [advance_nil hr] at h
      cases h
      exact ⟨rfl, .refl _, by simp [hr]⟩
    | cons t rest =>
      rw [advance_cons hr] at h
      cases h
      exact ⟨rfl, .step hr, by simp⟩
  eats.error c e c' _ h := by
    cases hr : c.rest with
    | nil => cases (advance_nil hr).symm.trans h
    | cons t rest => cases (advance_cons hr).symm.trans h

instance (kind : TokenKind) : Steady (eat kind) := by
  unfold eat
  infer_instance

lemma peek_run (c : Cursor) : peek c = .ok c.peek c := rfl

lemma atKind_run (kind : TokenKind) (c : Cursor) : atKind kind c = .ok (c.peek.kind == kind) c := rfl

lemma peek_cons {rest : List Token} (h : c.rest = t :: rest) : c.peek = t := by
  simp [Cursor.peek, h]

lemma peek_nil (h : c.rest = []) : c.peek = c.eof := by simp [Cursor.peek, h]

lemma eat_run {rest : List Token} (h : c.rest = t :: rest) :
    eat t.kind c = .ok true { c with rest, prevEnd := t.span.stop } := by
  refine (bind_eq (atKind_run _ _)).trans ?_
  rw [if_pos (by simp [peek_cons h])]
  exact bind_eq (advance_cons h)

lemma eat_other {kind : TokenKind} (h : c.peek.kind ≠ kind) : eat kind c = .ok false c := by
  refine (bind_eq (atKind_run _ _)).trans ?_
  rw [if_neg (by simpa using h)]
  rfl

instance (p : Punct) : Steady (eatPunct p) := inferInstanceAs (Steady (eat _))

instance (mark : TokenKind) (p : Parser α) [Steady p] : Steady (after mark p) := by
  unfold after
  infer_instance

lemma expect_ok {kind : TokenKind} (hk : kind ≠ .eof) {c' : Cursor} (he : c.eof.kind = .eof)
    (h : expect kind c = .ok t c') :
    ∃ rest, c.rest = t :: rest ∧ t.kind = kind ∧ c' = { c with rest, prevEnd := t.span.stop } := by
  obtain ⟨b, c₁, h₁, h₂⟩ := bind_ok h
  rw [atKind_run] at h₁
  cases h₁
  split at h₂
  · next heq =>
    have heq : c.peek.kind = kind := by simpa using heq
    cases hr : c.rest with
    | nil =>
      rw [peek_nil hr, he] at heq
      exact absurd heq.symm hk
    | cons u rest =>
      rw [advance_cons hr] at h₂
      cases h₂
      exact ⟨rest, rfl, by rwa [peek_cons hr] at heq, rfl⟩
  · cases h₂

lemma expect_run {rest : List Token} (h : c.rest = t :: rest) :
    expect t.kind c = .ok t { c with rest, prevEnd := t.span.stop } := by
  refine (bind_eq (atKind_run _ _)).trans ?_
  rw [if_pos (by simp [peek_cons h])]
  exact advance_cons h

instance (kind : TokenKind) : Steady (expect kind) := by
  unfold expect
  infer_instance

lemma eats_expect {kind : TokenKind} (hk : kind ≠ .eof) : Eats 1 (expect kind) where
  ok c t c' he h := by
    obtain ⟨rest, hr, -, rfl⟩ := expect_ok hk he h
    exact ⟨rfl, .step hr, by simp [hr]⟩
  error := Steady.eats.error

instance (p : Punct) : Eager (expectPunct p) := ⟨eats_expect nofun⟩

instance : Eager ident := ⟨.first (eats_expect (by decide))⟩

instance : Eager semicolon := ⟨.first Eager.eats⟩

instance (close : Punct) (elem : Parser α) [Steady elem] (fuel : Nat) : Steady (commaList close elem fuel) := by
  induction fuel with
  | zero => exact .pure _
  | succ fuel ih =>
    unfold commaList
    infer_instance

/-! Expressions. -/

instance (next : Parser Expr) [Steady next] (op? : TokenKind → Option BinaryOp) (fuel : Nat) (lhs : Expr) :
    Steady (joined next op? fuel lhs) := by
  induction fuel generalizing lhs with
  | zero => exact .pure _
  | succ fuel ih =>
    have (t : Token) : Steady (match op? t.kind with
        | none => pure lhs
        | some op => do
          let _ ← advance
          let rhs ← next
          joined next op? fuel (binary op lhs rhs)) := by
      split <;> infer_instance
    exact .bind

instance (next : Parser Expr) [Eager next] (op? : TokenKind → Option BinaryOp) : Eager (leftLevel next op?) := by
  unfold leftLevel
  infer_instance

instance (next : Parser Expr) [Eager next] (op? : TokenKind → Option BinaryOp) : Eager (single next op?) := by
  have (lhs : Expr) (t : Token) : Steady (match op? t.kind with
      | none => pure lhs
      | some op => do
        let _ ← advance
        return binary op lhs (← next)) := by
    split <;> infer_instance
  exact .first

instance (operand : Parser Expr) [Eager operand] : Eager (levels operand) := by
  unfold levels
  infer_instance

instance (expr : Parser Expr) [Steady expr] : Eager (arguments expr) := by
  unfold arguments
  infer_instance

instance {γ : Type} (t : Token) (value : Except NumberFault γ) (node : Span → γ → Expr) :
    Steady (number t value node) := by
  cases value with
  | ok v => exact .andThen fun _ => inferInstance
  | error fault => exact ⟨.ofThrow fun _ => ⟨_, rfl⟩⟩

instance (expr : Parser Expr) [Steady expr] : Steady (primary expr) := by
  refine .andThen fun t => ?_
  split <;> first | infer_instance | exact .andThen fun _ => inferInstance

instance (expr : Parser Expr) [Steady expr] : Eager (primary expr) := by
  refine ⟨fun c a c' he hp => ?_, Steady.eats.error⟩
  rw [primary, bind_eq (peek_run c)] at hp
  cases hr : c.rest with
  | nil =>
    simp only [peek_nil hr, he] at hp
    cases hp
  | cons t rest =>
    -- Whatever the token is, it is read before anything else.
    have step {q : Token → Parser Expr} [hq : ∀ t, Steady (q t)] (hc : (advance >>= q) c = .ok a c') :
        c'.eof = c.eof ∧ c.Reaches c' ∧ c'.rest.length + 1 ≤ (t :: rest).length := by
      rw [bind_eq (advance_cons hr)] at hc
      obtain ⟨he', hx, hl⟩ := (hq t).eats.ok { c with rest, prevEnd := t.span.stop } _ _ he hc
      exact ⟨he', (Cursor.Reaches.step hr).trans hx, by simpa using hl⟩
    have num {γ : Type} {value : Except NumberFault γ} {node : Span → γ → Expr}
        (hc : number c.peek value node c = .ok a c') :
        c'.eof = c.eof ∧ c.Reaches c' ∧ c'.rest.length + 1 ≤ (t :: rest).length := by
      unfold number at hc
      split at hc
      · exact step hc
      · cases hc
    generalize c.peek.kind = kind at hp
    cases kind with
    | int | float => exact num hp
    | str | ident | builtin => exact step hp
    | keyword k => cases k <;> first | exact step hp | cases hp
    | punct p => cases p <;> first | exact step hp | cases hp
    | eof => cases hp

instance (expr : Parser Expr) [Steady expr] (start fuel : Nat) (e : Expr) : Steady (suffixes expr start fuel e) := by
  induction fuel generalizing e with
  | zero => exact .pure _
  | succ fuel ih =>
    unfold suffixes
    infer_instance

instance (expr : Parser Expr) [Steady expr] : Eager (suffixed expr) := by
  unfold suffixed
  infer_instance

instance (operand : Parser Expr) [Eager operand] (start : Nat) (size : PtrSize) (z : Option Expr) :
    Eager (pointerTo operand start size z) := by
  unfold pointerTo
  infer_instance

instance (operand : Bool → Parser Expr) [∀ b, Eager (operand b)] (expr : Parser Expr) [Steady expr] (start : Nat)
    (allowInit : Bool) : Eager (bracketed operand expr start allowInit) := by
  unfold bracketed
  dsimp only
  refine ⟨Eager.eats.bind (n := 0) fun _ => @Steady.eats _ _ ?_⟩
  exact .andThen fun _ => .orElse <| .andThen fun _ => .orElse <| .andThen fun _ => .orElse <|
    .andThen fun _ => .andThen fun _ => .andThen fun _ => .andThen fun _ => inferInstance

instance (depth : Nat) (allowInit : Bool) : Eager (operandAt depth allowInit) := by
  induction depth generalizing allowInit with
  | zero => exact inferInstanceAs (Eager (failExpected _))
  | succ depth ih =>
    refine ⟨.last fun start => .last fun t => ?_⟩
    dsimp only
    split <;> exact Eager.eats

instance : Eager expr := by
  unfold expr
  infer_instance

instance : Eager typeExpr := by
  unfold typeExpr
  infer_instance

/-! Statements and items. -/

instance (stmt : Parser Stmt) [Steady stmt] (fuel : Nat) : Steady (stmtsUntilBrace stmt fuel) := by
  induction fuel with
  | zero => exact .pure _
  | succ fuel ih =>
    unfold stmtsUntilBrace
    infer_instance

instance (stmt : Parser Stmt) [Steady stmt] : Eager (block stmt) := by
  unfold block
  infer_instance

instance (stmt : Parser Stmt) [Steady stmt] : Steady (body stmt) := by
  unfold body
  infer_instance

instance : Eager parenthesised := by
  unfold parenthesised
  infer_instance

instance (depth : Nat) : Eager (stmtAt depth) := by
  induction depth with
  | zero => exact inferInstanceAs (Eager (failExpected _))
  | succ depth ih =>
    have (start : Nat) (e : Expr) (value : Option Expr) : Steady (match value with
        | some value => do
          semicolon
          return Stmt.assign (← spanFrom start) e value
        | none => do
          semicolon
          return .expr (← spanFrom start) e) := by
      split <;> infer_instance
    refine ⟨.last fun start => .last fun t => ?_⟩
    dsimp only
    split <;> exact Eager.eats

instance : Eager itemBlock := by
  unfold itemBlock
  infer_instance

instance (x : Modifiers) (fuel : Nat) : Steady (modifiersFrom x fuel) := by
  induction fuel generalizing x with
  | zero => exact .pure _
  | succ fuel ih =>
    refine .andThen fun t => ?_
    split <;> infer_instance

instance (w : Keyword) : Steady (clause w) := by
  unfold clause
  infer_instance

instance : Eager param := by
  unfold param
  infer_instance

instance (x : Modifiers) : Eager (fnItem x) := by
  unfold fnItem
  infer_instance

instance (x : Modifiers) : Eager (varItem x) := by
  unfold varItem
  infer_instance

lemma eats_fieldItem : Eats 2 fieldItem := by
  exact Eager.eats.bind (n := 1) fun _ => Eager.eats

instance : Eager fieldItem := ⟨eats_fieldItem.mono (by decide)⟩

lemma atField_run (c : Cursor) : ∃ b, atField c = .ok b c ∧
    (b = true ↔ ∃ t u rest, c.rest = t :: u :: rest ∧ t.kind = .ident ∧ u.kind = .punct .colon) := by
  obtain ⟨rest, eof, prevEnd⟩ := c
  match rest with
  | [] => exact ⟨false, rfl, by simp⟩
  | [t] => exact ⟨false, rfl, by simp⟩
  | t :: u :: rest => exact ⟨_, rfl, by simp⟩

instance : Steady atField := ⟨.ofRun fun c => (atField_run c).imp fun _ => And.left⟩

lemma comma_or_end {x y : α} {d : Cursor} (he : c.eof.kind = .eof) (hc : ∀ t ∈ c.rest, t.kind ≠ .eof)
    (h : (atKind .eof >>= fun done => if !done then expectPunct .comma >>= fun _ => pure x else pure x) c = .ok y d) :
    (c.rest = [] ∧ d.rest = []) ∨ d.rest.length + 1 ≤ c.rest.length := by
  rw [bind_eq (atKind_run _ _)] at h
  cases hr : c.rest with
  | nil =>
    rw [peek_nil hr, he, if_neg (by decide)] at h
    obtain ⟨-, rfl⟩ := pure_ok h
    exact .inl ⟨rfl, hr⟩
  | cons t rest =>
    rw [peek_cons hr, if_pos (by simpa [hr] using hc t)] at h
    exact .inr (hr ▸ (Eager.eats.first.ok _ _ _ he h).2.2)

instance : Eager plainItem := by
  refine ⟨.last fun t => ?_⟩
  split <;> exact Eager.eats

lemma eats_item : Eats 1 item := by
  refine .last fun _ => .last fun _ => .last fun _ => .last fun _ => .last fun _ => ?_
  dsimp only
  split <;> exact Eager.eats

/-! Loops that read at least a token a turn have enough fuel if they have more of it than there are tokens. -/

/-- The two do the same where fewer than `N` tokens are left. -/
def Same (N : Nat) (p p' : Parser α) : Prop := ∀ c, c.eof.kind = .eof → c.rest.length < N → p c = p' c

namespace Same
variable {p p' : Parser α} {q q' : α → Parser β} {N m n : Nat}

lemma refl : Same N p p := fun _ _ _ => rfl

lemma none (h : N = 0) : Same N p p' := fun _ _ hc => absurd (h ▸ hc) (Nat.not_lt_zero _)

lemma left (h : Same N p p') : Same N (p >>= q) (p' >>= q) := fun c he hc => by
  change EStateM.bind p q c = EStateM.bind p' q c
  unfold EStateM.bind
  rw [h c he hc]

lemma bind {k : Nat} (hp : Eats k p) (h : ∀ a, Same (N - k) (q a) (q' a)) :
    Same N (p >>= q) (p >>= q') := fun c he hc => by
  cases hrun : p c with
  | ok a c₁ =>
    obtain ⟨he', -, hl⟩ := hp.ok c a c₁ he hrun
    rw [bind_eq hrun, bind_eq hrun]
    exact h a c₁ (he' ▸ he) (by omega)
  | error e c₁ =>
    change EStateM.bind p q c = EStateM.bind p q' c
    unfold EStateM.bind
    rw [hrun]

lemma ite {c : Prop} [Decidable c] {r r' : Parser α} (hp : Same N p p') (hr : Same N r r') :
    Same N (if c then p else r) (if c then p' else r') := by
  split
  · exact hp
  · exact hr

lemma eatThen {w : Punct} {p p' r r' : Parser α} (hp : Same (N - 1) p p') (hr : Same N r r') :
    Same N (eatPunct w >>= fun b => if b then p else r)
      (eatPunct w >>= fun b => if b then p' else r') := fun c he hc => by
  by_cases hw : c.peek.kind = .punct w
  · cases hrest : c.rest with
    | nil =>
      rw [peek_nil hrest, he] at hw
      cases hw
    | cons t rest =>
      rw [peek_cons hrest] at hw
      have hrun : eatPunct w c = .ok true { c with rest, prevEnd := t.span.stop } := by
        rw [eatPunct, ← hw, eat_run hrest]
      rw [bind_eq hrun, bind_eq hrun]
      exact hp _ he (by simp [hrest] at hc ⊢; omega)
  · have hrun : eatPunct w c = .ok false c := eat_other hw
    rw [bind_eq hrun, bind_eq hrun]
    exact hr c he hc

lemma advance {q q' : Token → Parser β} (h : ∀ t, Same (N - 1) (q t) (q' t)) {c : Cursor} (hn : c.peek.kind ≠ .eof)
    (he : c.eof.kind = .eof) (hc : c.rest.length < N) : (Parse.advance >>= q) c = (Parse.advance >>= q') c := by
  cases hrest : c.rest with
  | nil =>
    rw [peek_nil hrest] at hn
    exact absurd he hn
  | cons t rest =>
    rw [bind_eq (advance_cons hrest), bind_eq (advance_cons hrest)]
    exact h t _ he (by simp [hrest] at hc ⊢; omega)

lemma loop {ι : Type} {f : Nat → ι → Parser α}
    (hf : ∀ {N m n} x, (∀ {M} y, M ≤ N - 1 → Same M (f m y) (f n y)) → Same N (f (m + 1) x) (f (n + 1) x)) (x : ι)
    (hm : N ≤ m) (hn : N ≤ n) : Same N (f m x) (f n x) := by
  induction m generalizing n N x with
  | zero => exact none (Nat.le_zero.1 hm)
  | succ m ih =>
    cases n with
    | zero => exact none (Nat.le_zero.1 hn)
    | succ n => exact hf x fun y h => ih y (by omega) (by omega)

lemma commaList {close : Punct} {elem : Parser α} [he : Eager elem] (hm : N ≤ m) (hn : N ≤ n) :
    Same N (commaList close elem m) (Parse.commaList close elem n) := by
  refine loop (f := fun fuel (_ : Unit) => Parse.commaList close elem fuel) (fun _ ih => ?_) () hm hn
  refine bind Steady.eats fun _ => ite refl (bind he.eats fun a => bind Steady.eats fun _ => ite ?_ refl)
  exact left (ih () (by omega))

lemma joined {next : Parser Expr} [hnext : Eager next] {op? : TokenKind → Option BinaryOp} (hm : N ≤ m) (hn : N ≤ n)
    (lhs : Expr) : Same N (joined next op? m lhs) (Parse.joined next op? n lhs) := by
  refine loop (fun lhs ih => bind Steady.eats fun t => ?_) lhs hm hn
  split
  · exact refl
  · exact bind Steady.eats fun _ => bind hnext.eats fun rhs => ih _ (by omega)

lemma suffixes {expr : Parser Expr} [Steady expr] {start : Nat} (hm : N ≤ m) (hn : N ≤ n) (e : Expr) :
    Same N (suffixes expr start m e) (Parse.suffixes expr start n e) := by
  refine loop (fun e ih => ?_) e hm hn
  refine eatThen (bind Steady.eats fun args => bind Steady.eats fun s => ?_)
    (eatThen (bind Steady.eats fun s => ?_) refl)
  · exact ih _ (by omega)
  · exact ih _ (by omega)

lemma stmtsUntilBrace {stmt : Parser Stmt} [hs : Eager stmt] (hm : N ≤ m) (hn : N ≤ n) :
    Same N (stmtsUntilBrace stmt m) (Parse.stmtsUntilBrace stmt n) := by
  refine loop (f := fun fuel (_ : Unit) => Parse.stmtsUntilBrace stmt fuel) (fun _ ih => ?_) () hm hn
  refine bind Steady.eats fun _ => bind Steady.eats fun _ => ite refl (bind hs.eats fun s => left ?_)
  exact ih () (by omega)

lemma modifiersFrom (hm : N ≤ m) (hn : N ≤ n) (x : Modifiers) :
    Same N (modifiersFrom x m) (Parse.modifiersFrom x n) := by
  refine loop (f := fun fuel x => Parse.modifiersFrom x fuel) (fun x ih c he hc => ?_) x hm hn
  rw [Parse.modifiersFrom, Parse.modifiersFrom, bind_eq (peek_run c), bind_eq (peek_run c)]
  cases hk : modifier? c.peek.kind with
  | none => rfl
  | some k =>
    refine advance (fun t => bind Steady.eats fun lib => ite (bind Steady.eats fun _ => ?_) ?_) ?_ he hc
    · exact ih _ (by omega)
    · exact ih _ (by omega)
    · intro hkind
      rw [hkind] at hk
      cases hk

end Same

lemma length_skipToItem (depth : Nat) (ts : List Token) : (skipToItem depth ts).length ≤ ts.length := by
  fun_induction skipToItem depth ts with
  | case1 | case2 => exact Nat.le_refl _
  | case3 _ _ _ _ ih => exact Nat.le_succ_of_le ih

/-- A bad item costs a token too, so that items never run out of fuel either. -/
theorem items_fuel {m n : Nat} (he : c.eof.kind = .eof) (hm : c.rest.length < m) (hn : c.rest.length < n) :
    items m c = items n c := by
  induction m generalizing n c with
  | zero => exact absurd hm (Nat.not_lt_zero _)
  | succ m ih =>
    cases n with
    | zero => exact absurd hn (Nat.not_lt_zero _)
    | succ n =>
      rw [items, items]
      split
      · rfl
      · next hne =>
        have hpos : 0 < c.rest.length := List.length_pos_iff.2 (by simpa using hne)
        cases hrun : item.run c with
        | ok it c' =>
          obtain ⟨he', -, hl⟩ := eats_item.ok c it c' he hrun
          dsimp only
          rw [ih (n := n) (he' ▸ he) (by omega) (by omega)]
        | error e c' =>
          obtain ⟨he', hl⟩ := eats_item.error c e c' he hrun
          -- A token goes even if the item took none.
          have hskip : (skipToItem 0 (if c'.rest.length = c.rest.length then c'.rest.tail else c'.rest)).length <
              c.rest.length := by
            refine Nat.lt_of_le_of_lt (length_skipToItem ..) ?_
            split
            · rw [List.length_tail]
              omega
            · omega
          dsimp only
          rw [ih (n := n) (c := { c' with rest := skipToItem 0 _ }) (he' ▸ he) (Nat.lt_of_lt_of_le hskip (by omega))
            (Nat.lt_of_lt_of_le hskip (by omega))]

/-! The two runs compared. -/

/-- The first cursor stands in a stretch of tokens by itself, where the second does in a text that has `m` tokens after
the stretch. -/
structure Cursor.Slices (k m : Nat) (c c' : Cursor) : Prop where
  rest : ∃ tail, tail.length = m ∧ c'.rest = c.rest.map (Token.shift k) ++ tail
  eof : c.eof.kind = .eof
  eof' : c'.eof.kind = .eof
  text : c'.eof.text = c.eof.text
  before : ∀ t ∈ c'.rest, t.kind ≠ .eof
  prevEnd : max c'.prevEnd k = c.prevEnd + k

/-- With fewer than `N` tokens left, success of the second parser that stops `j` tokens before the end of the stretch,
or where the text ends too, is success of the first in the stretch. -/
def Repeats (k m : Nat) (Q : α → α → Prop) (j N : Nat) (p p' : Parser α) : Prop :=
  ∀ c c' a' d', c.Slices k m c' → c'.rest.length < N → p' c' = .ok a' d' → (m + j ≤ d'.rest.length ∨ m = 0) →
    ∃ a d, p c = .ok a d ∧ Q a a' ∧ d.Slices k m d'

abbrev RepeatsExpr (k m N : Nat) : Parser Expr → Parser Expr → Prop := Repeats k m (Expr.Like (Span.Moved k)) 1 N

variable {k m j N : Nat} {Q : α → α → Prop} {R : β → β → Prop}

namespace Cursor.Slices
variable {c c' : Cursor}

lemma length_eq (h : c.Slices k m c') : c'.rest.length = c.rest.length + m := by
  obtain ⟨tail, ht, hr⟩ := h.rest
  simp [hr, ht]

lemma cases (h : c.Slices k m c') (hm : m < c'.rest.length ∨ m = 0) :
    (∃ t rest rest', c.rest = t :: rest ∧ c'.rest = t.shift k :: rest' ∧
      Cursor.Slices k m { c with rest, prevEnd := t.span.stop }
        { c' with rest := rest', prevEnd := (t.shift k).span.stop }) ∨
    (m = 0 ∧ c.rest = [] ∧ c'.rest = []) := by
  have hlen := h.length_eq
  obtain ⟨tail, ht, hr⟩ := h.rest
  cases hc : c.rest with
  | nil =>
    rw [hc, List.length_nil, Nat.zero_add] at hlen
    have hm0 : m = 0 := by omega
    exact .inr ⟨hm0, rfl, List.eq_nil_of_length_eq_zero (by omega)⟩
  | cons t rest =>
    have hr' : c'.rest = t.shift k :: (rest.map (Token.shift k) ++ tail) := by simp [hr, hc]
    refine .inl ⟨t, rest, _, rfl, hr', ⟨tail, ht, rfl⟩, h.eof, h.eof', h.text, ?_, ?_⟩
    · exact fun u hu => h.before u (hr' ▸ List.mem_cons_of_mem _ hu)
    · simp [Token.shift, Span.shift]

end Cursor.Slices

namespace Repeats
variable {p p' : Parser α} {q q' : α → Parser β} {i fuel fuel' : Nat} {kind : TokenKind}
  {op? : TokenKind → Option BinaryOp}

lemma look (h : Repeats k m Q i N p p') (hij : i ≤ j) : Repeats k m Q j N p p' :=
  fun c c' a' d' hs hl hp hm => h c c' a' d' hs hl hp (by omega)

lemma fewer {M : Nat} (h : Repeats k m Q j N p p') (hM : M ≤ N) : Repeats k m Q j M p p' :=
  fun c c' a' d' hs hl => h c c' a' d' hs (by omega)

lemma none_left (h : N ≤ m) : Repeats k m Q j N p p' := fun c c' a' d' hs hl => by
  have := hs.length_eq
  omega

lemma bindBack {e : Nat} (hp : Repeats k m Q i N p p') (he : Eats e p')
    (hback : ∀ a' c' b' d', c'.eof.kind = .eof → (∀ t ∈ c'.rest, t.kind ≠ .eof) → q' a' c' = .ok b' d' →
      (m + j ≤ d'.rest.length ∨ m = 0) → (m + i ≤ c'.rest.length ∨ m = 0))
    (hq : ∀ a a', Q a a' → Repeats k m R j (N - e) (q a) (q' a')) : Repeats k m R j N (p >>= q) (p' >>= q') := by
  intro c c' b' d' hs hl h hm
  obtain ⟨a', c₁', h₁, h₂⟩ := bind_ok h
  obtain ⟨heof, hx, hl₁⟩ := he.ok c' a' c₁' hs.eof' h₁
  have hm₁ := hback a' c₁' b' d' (heof ▸ hs.eof') (fun t ht => hs.before t (hx.mem ht)) h₂ hm
  obtain ⟨a, c₁, hr₁, hQ, hs₁⟩ := hp c c' a' c₁' hs hl h₁ hm₁
  obtain ⟨b, d, hr₂, hR, hs₂⟩ := hq a a' hQ c₁ c₁' b' d' hs₁ (by omega) h₂ hm
  exact ⟨b, d, (bind_eq hr₁).trans hr₂, hR, hs₂⟩

lemma core {e e' : Nat} (hp : Repeats k m Q i N p p') (he : Eats e p') (he' : ∀ a', Eats e' (q' a'))
    (hij : i ≤ j + e') (hq : ∀ a a', Q a a' → Repeats k m R j (N - e) (q a) (q' a')) :
    Repeats k m R j N (p >>= q) (p' >>= q') :=
  bindBack hp he (fun a' c' b' d' heof _ h hm => by have := ((he' a').ok c' b' d' heof h).2.2; omega) hq

lemma bind (hp : Repeats k m Q j N p p') [he : Steady p'] [he' : ∀ a', Steady (q' a')]
    (hq : ∀ a a', Q a a' → Repeats k m R j N (q a) (q' a')) : Repeats k m R j N (p >>= q) (p' >>= q') :=
  core hp he.eats (fun a' => (he' a').eats) (Nat.le_refl j) hq

lemma bindEats (hp : Repeats k m Q j N p p') [he : Eager p'] [he' : ∀ a', Steady (q' a')]
    (hq : ∀ a a', Q a a' → Repeats k m R j (N - 1) (q a) (q' a')) : Repeats k m R j N (p >>= q) (p' >>= q') :=
  core hp he.eats (fun a' => (he' a').eats) (Nat.le_refl j) hq

lemma bindLast (hp : Repeats k m Q 1 N p p') [he : Steady p'] [he' : ∀ a', Eager (q' a')]
    (hq : ∀ a a', Q a a' → Repeats k m R 0 N (q a) (q' a')) : Repeats k m R 0 N (p >>= q) (p' >>= q') :=
  core hp he.eats (fun a' => (he' a').eats) (Nat.le_refl 1) hq

lemma pure {a a' : α} (h : Q a a') : Repeats k m Q j N (Pure.pure a) (Pure.pure a') := fun c c' _ _ hs _ hp _ => by
  obtain ⟨rfl, rfl⟩ := pure_ok hp
  exact ⟨a, c, rfl, h, hs⟩

lemma ite {c : Prop} [Decidable c] {r r' : Parser α} (hp : c → Repeats k m Q j N p p')
    (hr : ¬ c → Repeats k m Q j N r r') : Repeats k m Q j N (if c then p else r) (if c then p' else r') := by
  split
  · exact hp ‹c›
  · exact hr ‹¬ c›

lemma map {γ : Type} {S : γ → γ → Prop} {f : α → γ} (hp : Repeats k m Q j N p p')
    (hf : ∀ a a', Q a a' → S (f a) (f a')) :
    Repeats k m S j N (f <$> p) (f <$> p') := by
  intro c c' b' d' hs hl h hm
  change EStateM.map f p' c' = _ at h
  unfold EStateM.map at h
  split at h
  · next a' d₁ h₁ =>
    cases h
    obtain ⟨a, d, hr, hQ, hd⟩ := hp c c' a' _ hs hl h₁ hm
    refine ⟨f a, d, ?_, hf a a' hQ, hd⟩
    change EStateM.map f p c = _
    unfold EStateM.map
    rw [hr]
  · cases h

lemma peek {q q' : Token → Parser β} (he : Eats (1 - j) (Parse.peek >>= q'))
    (hq : ∀ t, Repeats k m R j N (q t) (q' (t.shift k)))
    (hend : ∀ t t', t.kind = .eof → t'.kind = .eof → t'.text = t.text → Repeats k m R j N (q t) (q' t')) :
    Repeats k m R j N (Parse.peek >>= q) (Parse.peek >>= q') := by
  intro c c' b' d' hs hl h hm
  have := (he.ok _ _ _ hs.eof' h).2.2
  rw [bind_eq (peek_run c')] at h
  rw [bind_eq (peek_run c)]
  obtain ⟨t, rest, rest', hr, hr', -⟩ | ⟨-, hr, hr'⟩ := hs.cases (by omega)
  · rw [peek_cons hr'] at h
    rw [peek_cons hr]
    exact hq t c c' b' d' hs hl h hm
  · rw [peek_nil hr'] at h
    rw [peek_nil hr]
    exact hend _ _ hs.eof hs.eof' hs.text c c' b' d' hs hl h hm

lemma peekKind {q q' : Token → Parser β} (he : Eats (1 - j) (Parse.peek >>= q'))
    (hq : ∀ t t', t'.kind = t.kind → Repeats k m R j N (q t) (q' t')) :
    Repeats k m R j N (Parse.peek >>= q) (Parse.peek >>= q') :=
  peek he (fun t => hq t (t.shift k) rfl) fun t t' ht ht' _ => hq t t' (ht'.trans ht.symm)

lemma atKind : Repeats k m Eq 1 N (Parse.atKind kind) (Parse.atKind kind) :=
  peekKind Steady.eats fun t t' ht => pure (by rw [ht])

lemma start {q q' : Nat → Parser β} (he : Eats 1 (startHere >>= q')) (hq : ∀ s, Repeats k m R j N (q s) (q' (s + k))) :
    Repeats k m R j N (startHere >>= q) (startHere >>= q') := by
  intro c c' b' d' hs hl h hm
  have := (he.ok _ _ _ hs.eof' h).2.2
  have hrun (c : Cursor) : startHere c = .ok c.peek.span.start c := rfl
  rw [bind_eq (hrun c')] at h
  rw [bind_eq (hrun c)]
  obtain ⟨t, rest, rest', hr, hr', -⟩ | ⟨-, -, hr'⟩ := hs.cases (by omega)
  · rw [peek_cons hr'] at h
    rw [peek_cons hr]
    exact hq _ c c' b' d' hs hl h hm
  · rw [hr'] at this
    simp at this

lemma startPeek {q q' : Nat → Token → Parser β} (he : Eats 1 (startHere >>= fun s => Parse.peek >>= q' s))
    (hq : ∀ s t, Repeats k m R j N (q s t) (q' (s + k) (t.shift k))) :
    Repeats k m R j N (startHere >>= fun s => Parse.peek >>= q s) (startHere >>= fun s => Parse.peek >>= q' s) := by
  intro c c' b' d' hs hl h hm
  have hlen := (he.ok _ _ _ hs.eof' h).2.2
  obtain ⟨t, rest, rest', hr, hr', -⟩ | ⟨-, -, hr'⟩ := hs.cases (by omega)
  · have hrun {q : Nat → Token → Parser β} (c : Cursor) :
        (startHere >>= fun s => Parse.peek >>= q s) c = q c.peek.span.start c.peek c := rfl
    rw [hrun, peek_cons hr'] at h
    rw [hrun, peek_cons hr]
    exact hq _ t c c' b' d' hs hl h hm
  · simp [hr'] at hlen

lemma token {q q' : Token → Parser β} [he : ∀ t', Eager (q' t')]
    (hq : ∀ t, Repeats k m R j (N - 1) (q t) (q' (t.shift k))) :
    Repeats k m R j N (advance >>= q) (advance >>= q') := by
  intro c c' b' d' hs hl h hm
  have := ((Eats.last (p := advance) fun t => (he t).eats).ok _ _ _ hs.eof' h).2.2
  obtain ⟨t, rest, rest', hr, hr', hs'⟩ | ⟨-, -, hr'⟩ := hs.cases (by omega)
  · rw [bind_eq (advance_cons hr')] at h
    rw [bind_eq (advance_cons hr)]
    exact hq t _ _ b' d' hs' (by simp [hr'] at hl ⊢; omega) h hm
  · rw [hr'] at this
    simp at this

lemma advance {q q' : Parser β} [he : Steady q'] (hq : Repeats k m R j N q q') :
    Repeats k m R j N (Parse.advance >>= fun _ => q) (Parse.advance >>= fun _ => q') := by
  intro c c' b' d' hs hl h hm
  cases hr' : c'.rest with
  | nil =>
    have hlen := hs.length_eq
    rw [hr', List.length_nil] at hlen
    have hr : c.rest = [] := List.eq_nil_of_length_eq_zero (by omega)
    rw [bind_eq (advance_nil hr')] at h
    rw [bind_eq (advance_nil hr)]
    exact hq c c' b' d' hs hl h hm
  | cons t' rest' =>
    rw [bind_eq (advance_cons hr')] at h
    have hlen := (he.eats.ok { c' with rest := rest', prevEnd := t'.span.stop } b' d' hs.eof' h).2.2
    obtain ⟨t, rest, rest'', hr, hr'', hs'⟩ | ⟨-, -, hr''⟩ := hs.cases (by simp [hr'] at hlen ⊢; omega)
    · rw [hr'] at hr''
      cases hr''
      rw [bind_eq (advance_cons hr)]
      exact hq _ _ b' d' hs' (by simp [hr'] at hl ⊢; omega) h hm
    · rw [hr'] at hr''
      cases hr''

lemma eat : Repeats k m Eq 1 N (Parse.eat kind) (Parse.eat kind) :=
  bind atKind <| by
    rintro b _ rfl
    exact ite (fun _ => advance (pure rfl)) fun _ => pure rfl

lemma eatThen {w : Punct} {q q' r r' : Parser β} [hq' : Steady q'] [hr' : Steady r']
    (hq : Repeats k m R 1 (N - 1) q q') (hr : Repeats k m R 1 N r r') :
    Repeats k m R 1 N (Parse.eatPunct w >>= fun b => if b then q else r)
      (Parse.eatPunct w >>= fun b => if b then q' else r') := by
  intro c c' b' d' hs hl h hm
  have hlen := ((Steady.eats (p := Parse.eatPunct w >>= fun b => if b then q' else r')).ok c' b' d' hs.eof' h).2.2
  unfold eatPunct at h ⊢
  obtain ⟨t, rest, rest', hc, hc', hs'⟩ | ⟨-, hc, hc'⟩ := hs.cases (by omega)
  · by_cases ht : t.kind = .punct w
    · rw [← ht] at h ⊢
      rw [bind_eq (eat_run hc)]
      exact hq _ _ b' d' hs' (by simp [hc'] at hl ⊢; omega) ((bind_eq (eat_run (t := t.shift k) hc')).symm.trans h) hm
    · rw [bind_eq (eat_other (by rwa [peek_cons hc]))]
      rw [bind_eq (eat_other (by rwa [peek_cons hc']))] at h
      exact hr c c' b' d' hs hl h hm
  · rw [bind_eq (eat_other (by rw [peek_nil hc, hs.eof]; nofun))]
    rw [bind_eq (eat_other (by rw [peek_nil hc', hs.eof']; nofun))] at h
    exact hr c c' b' d' hs hl h hm

lemma expect (hk : kind ≠ .eof) :
    Repeats k m (fun t t' => t' = t.shift k ∧ t.kind = kind) j N (Parse.expect kind) (Parse.expect kind) := by
  intro c c' t' d' hs _ h hm
  obtain ⟨rest', hr', rfl, rfl⟩ := expect_ok hk hs.eof' h
  obtain ⟨t, rest, rest'', hr, hr'', hs'⟩ | ⟨-, -, hr''⟩ := hs.cases (by simp [hr'] at hm ⊢; omega)
  · rw [hr'] at hr''
    cases hr''
    exact ⟨t, _, expect_run hr, ⟨rfl, rfl⟩, hs'⟩
  · rw [hr'] at hr''
    cases hr''

lemma expectPunct {p : Punct} :
    Repeats k m (fun t t' => t' = t.shift k ∧ t.kind = .punct p) j N (Parse.expectPunct p) (Parse.expectPunct p) :=
  expect nofun

lemma ident : Repeats k m (Ident.Like (Span.Moved k)) j N Parse.ident Parse.ident :=
  bind (expect (by decide)) <| by
    rintro t _ ⟨rfl, -⟩
    exact pure ⟨rfl, rfl⟩

lemma semicolon : Repeats k m Eq j N Parse.semicolon Parse.semicolon := bind expectPunct fun _ _ _ => pure rfl

lemma spanFrom (s : Nat) : Repeats k m (Span.Moved k) j N (Parse.spanFrom s) (Parse.spanFrom (s + k)) := by
  intro c c' b' d' hs _ h _
  cases h
  refine ⟨_, c, rfl, ?_, hs⟩
  have := hs.prevEnd
  simp only [Span.Moved, Span.shift, Span.mk.injEq, true_and]
  omega

lemma tokensLeft {q q' : Nat → Parser β} (hq : ∀ n ≤ N, Repeats k m R j n (q (n - m)) (q' n)) :
    Repeats k m R j N (Parse.tokensLeft >>= q) (Parse.tokensLeft >>= q') := by
  intro c c' b' d' hs hl h hm
  have hrun (c : Cursor) : Parse.tokensLeft c = .ok (c.rest.length + 1) c := rfl
  rw [bind_eq (hrun c')] at h
  have hlen := hs.length_eq
  have hn : c.rest.length + 1 = c'.rest.length + 1 - m := by omega
  rw [bind_eq (hrun c), hn]
  exact hq _ hl c c' b' d' hs (by omega) h hm

lemma after {mark : TokenKind} (hp : Repeats k m Q 1 N p p') [Steady p'] :
    Repeats k m (Option.Rel Q) 1 N (Parse.after mark p) (Parse.after mark p') :=
  bind eat <| by
    rintro b _ rfl
    exact ite (fun _ => bind hp fun _ _ h => pure (.some h)) fun _ => pure .none

lemma loop {ι : Type} {I : ι → ι → Prop} {f g : Nat → ι → Parser α}
    (hf : ∀ {M fuel fuel' x x'}, I x x' → M ≤ N →
      (∀ {L y y'}, I y y' → L ≤ M - 1 → Repeats k m Q j L (f fuel y) (g fuel' y')) →
      Repeats k m Q j M (f (fuel + 1) x) (g (fuel' + 1) x')) {x x' : ι} (hx : I x x') (hN' : N ≤ fuel')
    (hN : N ≤ fuel + m) : Repeats k m Q j N (f fuel x) (g fuel' x') := by
  induction fuel' generalizing fuel N x x' with
  | zero => exact none_left (by omega)
  | succ fuel' ih =>
    cases fuel with
    | zero => exact none_left (by omega)
    | succ fuel =>
      refine hf hx (Nat.le_refl N) fun hy hL => ih (fun hx hM => hf hx (by omega)) hy (by omega) (by omega)

lemma commaList {close : Punct} (hp : Repeats k m Q 1 N p p') [Eager p'] (hN' : N ≤ fuel') (hN : N ≤ fuel + m) :
    Repeats k m (List.Forall₂ Q) 1 N (Parse.commaList close p fuel) (Parse.commaList close p' fuel') := by
  refine loop (f := fun fuel _ => Parse.commaList close p fuel) (g := fun fuel _ => Parse.commaList close p' fuel)
    (fun _ hM ih => bind atKind ?_) (rfl : () = ()) hN' hN
  rintro b _ rfl
  refine ite (fun _ => pure .nil) fun _ => bindEats (hp.fewer hM) fun a a' ha => bind eat ?_
  rintro b _ rfl
  exact ite (fun _ => bind (ih (rfl : () = ()) (Nat.le_refl _)) fun _ _ h => pure (.cons ha h)) fun _ =>
    pure (.cons ha .nil)

/-! Expressions. -/

lemma joined {next next' : Parser Expr} (hn : RepeatsExpr k m N next next') [Eager next'] (hN' : N ≤ fuel')
    (hN : N ≤ fuel + m) {lhs lhs' : Expr} (hl : lhs.Like (Span.Moved k) lhs') :
    RepeatsExpr k m N (Parse.joined next op? fuel lhs) (Parse.joined next' op? fuel' lhs') := by
  refine loop (fun {M fuel fuel' lhs lhs'} hl hM ih => ?_) hl hN' hN
  refine peekKind (Steady.eats (p := Parse.joined next' op? (fuel' + 1) lhs')) fun t t' ht => ?_
  rw [ht]
  cases op? t.kind with
  | none => exact pure hl
  | some op =>
    exact token fun _ => bindEats (hn.fewer (by omega)) fun _ _ hr =>
      ih (.binary (hl.span.merge hr.span) op hl hr) (by omega)

variable {next next' : Parser Expr}

section

variable (hn : RepeatsExpr k m N next next')
include hn

lemma leftLevel [Eager next'] : RepeatsExpr k m N (Parse.leftLevel next op?) (Parse.leftLevel next' op?) := by
  exact bindEats hn fun _ _ hl => tokensLeft fun n hN => joined (hn.fewer (by omega)) (Nat.le_refl n) (by omega) hl

lemma single [Eager next'] : RepeatsExpr k m N (Parse.single next op?) (Parse.single next' op?) := by
  have (lhs : Expr) (t : Token) : Steady (match op? t.kind with
      | none => Pure.pure lhs
      | some op => do
        let _ ← Parse.advance
        return binary op lhs (← next')) := by
    split <;> infer_instance
  refine bind hn fun lhs lhs' hl => peekKind Steady.eats fun t t' ht => ?_
  rw [ht]
  cases op? t.kind with
  | none => exact pure hl
  | some op => exact advance (bind hn fun _ _ hr => pure (.binary (hl.span.merge hr.span) op hl hr))

lemma levels [Eager next'] : RepeatsExpr k m N (Parse.levels next) (Parse.levels next') := by
  unfold Parse.levels
  exact leftLevel (leftLevel (single (leftLevel (leftLevel hn))))

lemma arguments [Eager next'] :
    Repeats k m (List.Forall₂ (Expr.Like (Span.Moved k))) 1 N (Parse.arguments next) (Parse.arguments next') := by
  exact tokensLeft fun n hN => bind (commaList (hn.fewer hN) (Nat.le_refl n) (by omega)) fun _ _ ha =>
    bind expectPunct fun _ _ _ => pure ha

end

section

variable (hn : RepeatsExpr k m (N - 1) next next')
include hn

lemma primary [Eager next'] : RepeatsExpr k m N (Parse.primary next) (Parse.primary next') := by
  intro c c' a' d' hs hl h hm
  have hlen := ((Eager.eats (p := Parse.primary next')).ok c' a' d' hs.eof' h).2.2
  obtain ⟨t, rest, rest', hc, hc', hs'⟩ | ⟨-, -, hc'⟩ := hs.cases (by omega)
  · rw [Parse.primary, bind_eq (peek_run c'), peek_cons hc'] at h
    rw [Parse.primary, bind_eq (peek_run c), peek_cons hc]
    have by_rule {p p' : Parser Expr} (hp : RepeatsExpr k m N p p') (h' : p' c' = .ok a' d') :
        ∃ a d, p c = .ok a d ∧ a.Like (Span.Moved k) a' ∧ d.Slices k m d' := hp c c' a' d' hs hl h' hm
    have by_leaf {node : Span → Expr} (hnode : (node t.span).Like (Span.Moved k) (node (t.shift k).span))
        (h' : leaf node c' = .ok a' d') :
        ∃ a d, leaf node c = .ok a d ∧ a.Like (Span.Moved k) a' ∧ d.Slices k m d' := by
      have h' := (bind_eq (advance_cons hc')).symm.trans h'
      cases h'
      exact ⟨_, _, bind_eq (advance_cons hc), hnode, hs'⟩
    have by_number {γ : Type} {value : Except NumberFault γ} {node : Span → γ → Expr}
        (hnode : ∀ v, (node t.span v).Like (Span.Moved k) (node (t.shift k).span v))
        (h' : number (t.shift k) value node c' = .ok a' d') :
        ∃ a d, number t value node c = .ok a d ∧ a.Like (Span.Moved k) a' ∧ d.Slices k m d' := by
      cases value with
      | ok v => exact by_rule (advance (pure (hnode v))) h'
      | error fault => cases h'
    have hmoved : t.span.Moved k (t.shift k).span := rfl
    have hkind : (t.shift k).kind = t.kind := rfl
    have htext : (t.shift k).text = t.text := rfl
    rw [hkind, htext] at h
    generalize t.kind = kind at h
    cases kind with
    | int => exact by_number (.int hmoved) h
    | float => exact by_number (.float hmoved) h
    | str => exact by_leaf (.str hmoved _) h
    | ident => exact by_leaf (.ident hmoved _) h
    | builtin =>
      exact by_rule (token fun _ => bind expectPunct fun _ _ _ =>
        bind (arguments hn) fun _ _ ha => bind (spanFrom _) fun _ _ hsp => pure (.builtin hsp _ ha)) h
    | keyword w =>
      cases w <;> first
        | exact by_leaf (.bool hmoved _) h
        | exact by_leaf (.null hmoved) h
        | exact by_leaf (.undefined hmoved) h
        | exact by_leaf (.unreachable hmoved) h
        | cases h
    | punct w =>
      cases w <;> first
        | exact by_rule (token fun _ => bind hn fun _ _ hi => bind expectPunct fun _ _ _ => pure hi) h
        | cases h
    | eof => cases h
  · simp [hc'] at hlen

lemma suffixes [Eager next'] (start : Nat) (hN' : N ≤ fuel') (hN : N ≤ fuel + m) {e e' : Expr}
    (hl : e.Like (Span.Moved k) e') :
    RepeatsExpr k m N (Parse.suffixes next start fuel e)
      (Parse.suffixes next' (start + k) fuel' e') := by
  refine loop (fun hl hM ih => ?_) hl hN' hN
  have hn := hn.fewer (Nat.sub_le_sub_right hM 1)
  exact eatThen
    (bind (arguments hn) fun _ _ ha => bind (spanFrom start) fun _ _ hsp => ih (.call hsp hl ha) (Nat.le_refl _))
    (eatThen (bind (spanFrom start) fun _ _ hsp => ih (.deref hsp hl) (Nat.le_refl _)) (pure hl))

lemma suffixed [Eager next'] : RepeatsExpr k m N (Parse.suffixed next) (Parse.suffixed next') := by
  exact start (Eager.eats (p := Parse.suffixed next')) fun s => bindEats (primary hn) fun _ _ hl =>
    tokensLeft fun n hN =>
    suffixes (hn.fewer (by omega)) s (Nat.le_refl n) (by omega) hl

end

lemma pointerTo (hn : RepeatsExpr k m N next next') [Eager next'] (start : Nat)
    (size : PtrSize) {z z' : Option Expr} (hz : Option.Rel (Expr.Like (Span.Moved k)) z z') :
    RepeatsExpr k m N (Parse.pointerTo next start size z)
      (Parse.pointerTo next' (start + k) size z') := by
  refine bind eat <| by
    rintro isConst _ rfl
    exact bind hn fun _ _ hc => bind (spanFrom start) fun _ _ hsp => pure (.ptrType hsp size isConst hz hc)

lemma bracketed {operand operand' : Bool → Parser Expr}
    (ho : ∀ b, RepeatsExpr k m (N - 1) (operand b) (operand' b)) [∀ b, Eager (operand' b)]
    (hn : RepeatsExpr k m (N - 1) next next') [Eager next'] (start : Nat) (allowInit : Bool) :
    RepeatsExpr k m N (Parse.bracketed operand next start allowInit)
      (Parse.bracketed operand' next' (start + k) allowInit) := by
  unfold Parse.bracketed
  dsimp only
  refine bindEats expectPunct fun _ _ _ => bind eat ?_
  rintro star _ rfl
  refine ite (fun _ => ?_) fun _ => bind eat ?_
  · -- `[*`, where the name `c` may come next.
    have sentinel : Repeats k m _ 1 (N - 1) (Parse.after (.punct .colon) next) _ := after hn
    have many := bind sentinel fun _ _ hz => bind (expectPunct (p := .rBracket)) fun _ _ _ =>
      pointerTo (ho allowInit) start .many hz
    refine peek Steady.eats (fun t => ite (fun _ => ?_) fun _ => many) fun t t' ht ht' _ => ?_
    · exact advance (bind expectPunct fun _ _ _ => pointerTo (ho _) start .c .none)
    · rw [if_neg (by simp [ht]), if_neg (by simp [ht'])]
      exact many
  · rintro close _ rfl
    refine ite (fun _ => pointerTo (ho _) start .slice .none) fun _ => bind eat ?_
    rintro colon _ rfl
    refine ite (fun _ => ?_) fun _ => ?_
    · exact bind hn fun _ _ hz => bind expectPunct fun _ _ _ => pointerTo (ho _) start .slice (.some hz)
    · refine bind hn fun _ _ hl => bind (after hn) fun _ _ hz => bind expectPunct fun _ _ _ =>
        bind (ho false) fun _ _ hc => bind (spanFrom start) fun _ _ hsp => ?_
      have harray := Expr.Like.arrayType hsp hl hz hc
      refine bind atKind <| by
        rintro brace _ rfl
        refine ite (fun _ => advance <| tokensLeft fun n hN => ?_) fun _ => pure harray
        exact bind (commaList (hn.fewer hN) (Nat.le_refl n) (by omega)) fun _ _ hx => bind expectPunct fun _ _ _ =>
          bind (spanFrom start) fun _ _ hsp => pure (.arrayInit hsp harray hx)

lemma operandAt {depth depth' : Nat} (hN' : N ≤ depth') (hN : N ≤ depth + m) (allowInit : Bool) :
    RepeatsExpr k m N (Parse.operandAt depth allowInit) (Parse.operandAt depth' allowInit) := by
  refine loop (I := Eq) (fun {M _ depth' allowInit _} hb _ ih => ?_) rfl hN' hN
  subst hb
  have hi (b : Bool) := ih (y := b) rfl (Nat.le_refl (M - 1))
  refine startPeek (Eager.eats (p := Parse.operandAt (depth' + 1) allowInit)) fun s t => ?_
  have hkind : (t.shift k).kind = t.kind := rfl
  rw [hkind]
  dsimp only
  split
  iterate 3
    · exact token fun _ => bind (hi _) fun _ _ h => bind (spanFrom s) fun _ _ hsp => pure (.unary hsp _ h)
  · exact token fun _ => bind (hi _) fun _ _ h => bind (spanFrom s) fun _ _ hsp =>
      pure (.optionalType hsp h)
  · exact token fun _ => pointerTo (hi _) s .one .none
  · exact bracketed hi (levels (hi true)) s allowInit
  · exact suffixed (levels (hi true))

lemma expr : RepeatsExpr k m N Parse.expr Parse.expr :=
  tokensLeft fun n _ => levels (operandAt (Nat.le_refl n) (by omega) true)

lemma typeExpr : RepeatsExpr k m N Parse.typeExpr Parse.typeExpr :=
  tokensLeft fun n _ => operandAt (Nat.le_refl n) (by omega) false

/-! Statements. -/

section
variable {stmt stmt' : Parser Stmt}

lemma stmtsUntilBrace (hn : Repeats k m (Stmt.Like (Span.Moved k)) 1 N stmt stmt') [Eager stmt']
    {fuel fuel' : Nat} (hN' : N ≤ fuel') (hN : N ≤ fuel + m) :
    Repeats k m (List.Forall₂ (Stmt.Like (Span.Moved k))) 1 N (Parse.stmtsUntilBrace stmt fuel)
      (Parse.stmtsUntilBrace stmt' fuel') := by
  refine loop (f := fun fuel _ => Parse.stmtsUntilBrace stmt fuel)
    (g := fun fuel _ => Parse.stmtsUntilBrace stmt' fuel) (fun _ hM ih => bind atKind ?_) (rfl : () = ()) hN' hN
  rintro brace _ rfl
  refine bind atKind ?_
  rintro done _ rfl
  exact ite (fun _ => pure .nil) fun _ => bindEats (hn.fewer hM) fun _ _ hs =>
    bind (ih (rfl : () = ()) (Nat.le_refl _)) fun _ _ hss => pure (.cons hs hss)

lemma block (hn : Repeats k m (Stmt.Like (Span.Moved k)) 1 (N - 1) stmt stmt') [Eager stmt'] :
    Repeats k m (Block.Like (Span.Moved k)) 0 N (Parse.block stmt) (Parse.block stmt') := by
  refine bindEats expectPunct ?_
  rintro opening _ ⟨rfl, -⟩
  exact tokensLeft fun n hN => bindLast (stmtsUntilBrace (hn.fewer hN) (Nat.le_refl n) (by omega))
    fun _ _ hss => bind expectPunct fun _ _ _ =>
    bind (spanFrom _) fun _ _ hsp => pure (.mk hsp hss)

lemma body (hn : Repeats k m (Stmt.Like (Span.Moved k)) 1 N stmt stmt') [Eager stmt'] :
    Repeats k m (Block.Like (Span.Moved k)) 1 N (Parse.body stmt) (Parse.body stmt') := by
  refine bind atKind ?_
  rintro brace _ rfl
  exact ite (fun _ => (block (hn.fewer (Nat.sub_le _ 1))).look (Nat.zero_le 1)) fun _ =>
    bind hn fun _ _ hs => pure (.mk hs.span (.cons hs .nil))

end

lemma parenthesised : Repeats k m (Expr.Like (Span.Moved k)) 0 N Parse.parenthesised Parse.parenthesised :=
  bind expectPunct fun _ _ _ => bindLast expr fun _ _ h =>
    bind expectPunct fun _ _ _ => pure h

lemma stmtAt {depth depth' : Nat} (hN' : N ≤ depth') (hN : N ≤ depth + m) :
    Repeats k m (Stmt.Like (Span.Moved k)) 1 N (Parse.stmtAt depth) (Parse.stmtAt depth') := by
  refine loop (f := fun depth _ => Parse.stmtAt depth) (g := fun depth _ => Parse.stmtAt depth)
    (fun {M _ depth' _ _} _ _ ih => ?_) (rfl : () = ()) hN' hN
  have hi := ih (rfl : () = ()) (Nat.le_refl (M - 1))
  have paren := (parenthesised (k := k) (m := m) (N := M - 1)).look (Nat.zero_le 1)
  refine startPeek (Eager.eats (p := Parse.stmtAt (depth' + 1))) fun s t => ?_
  have hkind : (t.shift k).kind = t.kind := rfl
  rw [hkind]
  dsimp only
  split
  iterate 2
    · exact token fun _ => bind ident fun _ _ hname => bind (after typeExpr) fun _ _ hty =>
        bind expectPunct fun _ _ _ => bind expr fun _ _ hinit => bind semicolon fun _ _ _ =>
        bind (spanFrom s) fun _ _ hsp => pure (.define hsp hname _ hty hinit)
  · refine advance <| bind atKind ?_
    rintro done _ rfl
    exact ite
      (fun _ => bind (pure (Q := Option.Rel (Expr.Like (Span.Moved k))) .none) fun _ _ hv =>
        bind semicolon fun _ _ _ => bind (spanFrom s) fun _ _ hsp => pure (.ret hsp hv))
      (fun _ => bind (map (S := Option.Rel (Expr.Like (Span.Moved k))) expr fun _ _ h => .some h) fun _ _ hv =>
        bind semicolon fun _ _ _ => bind (spanFrom s) fun _ _ hsp => pure (.ret hsp hv))
  · refine token fun _ => bind paren fun _ _ htest => bind (body hi) fun _ _ hthen =>
      bind (after ?_) fun _ _ helse => bind (spanFrom s) fun _ _ hsp => pure (.cond hsp htest hthen helse)
    refine bind atKind ?_
    rintro chained _ rfl
    exact ite (fun _ => hi) fun _ => bind (body hi) fun _ _ hb => pure (.block hb.span hb)
  · exact token fun _ => bind paren fun _ _ htest => bind (body hi) fun _ _ hb =>
      bind (spanFrom s) fun _ _ hsp => pure (.loop hsp htest hb)
  · exact bind ((block hi).look (Nat.zero_le 1)) fun _ _ hb => bind (spanFrom s) fun _ _ hsp => pure (.block hsp hb)
  · exact token fun _ =>
      bind ((block (hi.fewer (Nat.sub_le _ 1))).look (Nat.zero_le 1)) fun _ _ hb =>
      bind (spanFrom s) fun _ _ hsp => pure (.comptime hsp hb)
  · exact advance <| bind semicolon fun _ _ _ => bind (spanFrom s) fun _ _ hsp => pure (.leave hsp)
  · exact advance <| bind semicolon fun _ _ _ => bind (spanFrom s) fun _ _ hsp => pure (.next hsp)
  · have (e : Expr) (value : Option Expr) : Steady (match value with
        | some value => do
          Parse.semicolon
          return Stmt.assign (← Parse.spanFrom (s + k)) e value
        | none => do
          Parse.semicolon
          return .expr (← Parse.spanFrom (s + k)) e) := by
      split <;> infer_instance
    refine bind expr fun e e' he => bind (after expr) ?_
    rintro _ _ (hv | _)
    · exact bind semicolon fun _ _ _ => bind (spanFrom s) fun _ _ hsp => pure (.assign hsp he hv)
    · exact bind semicolon fun _ _ _ => bind (spanFrom s) fun _ _ hsp => pure (.expr hsp he)

lemma itemBlock : Repeats k m (Block.Like (Span.Moved k)) 0 N Parse.itemBlock Parse.itemBlock :=
  tokensLeft fun n _ => block (stmtAt (Nat.sub_le n 1) (by omega))

/-! Items. -/

lemma modifiersFrom (hN' : N ≤ fuel') (hN : N ≤ fuel + m) {x x' : Modifiers} (hx : x.Like (Span.Moved k) x') :
    Repeats k m (Modifiers.Like (Span.Moved k)) 1 N (Parse.modifiersFrom x fuel) (Parse.modifiersFrom x' fuel') := by
  refine loop (f := fun fuel x => Parse.modifiersFrom x fuel) (g := fun fuel x => Parse.modifiersFrom x fuel)
    (fun {M fuel fuel' x x'} hx _ ih => ?_) hx hN' hN
  intro c c' a' d' hs hl h hm
  have hlen := ((Steady.eats (p := Parse.modifiersFrom x' (fuel' + 1))).ok c' a' d' hs.eof' h).2.2
  rw [Parse.modifiersFrom, bind_eq (peek_run c')] at h
  rw [Parse.modifiersFrom, bind_eq (peek_run c)]
  obtain ⟨t, rest, rest', hc, hc', hs'⟩ | ⟨-, hc, hc'⟩ := hs.cases (by omega)
  · rw [peek_cons hc'] at h
    rw [peek_cons hc]
    have hkind : (t.shift k).kind = t.kind := rfl
    rw [hkind] at h
    cases hw : modifier? t.kind with
    | none =>
      rw [hw] at h
      exact pure hx c c' a' d' hs hl h hm
    | some w =>
      rw [hw] at h
      dsimp only at h ⊢
      rw [bind_eq (advance_cons hc')] at h
      rw [bind_eq (advance_cons hc)]
      have hmark : Modifiers.Like (Span.Moved k) { x with marks := x.marks ++ [(w, t.span)] }
          { x' with marks := x'.marks ++ [(w, (t.shift k).span)] } :=
        ⟨List.rel_append hx.marks (.cons ⟨rfl, rfl⟩ .nil), hx.library⟩
      have plain := ih hmark (Nat.le_refl (M - 1))
      refine peek (N := M - 1) Steady.eats (fun u => ?_) (fun u u' hu hu' _ => ?_) _ _ a' d' hs'
        (by simp [hc'] at hl ⊢; omega) h hm
      · exact ite (fun _ => advance (ih ⟨hmark.marks, .some ⟨rfl, rfl⟩⟩ (Nat.le_refl _))) fun _ => plain
      · rw [if_neg (by simp [hu]), if_neg (by simp [hu'])]
        exact plain
  · rw [peek_nil hc', hs.eof'] at h
    rw [peek_nil hc, hs.eof]
    exact pure hx c c' a' d' hs hl h hm

lemma param : Repeats k m (Param.Like (Span.Moved k)) 1 N Parse.param Parse.param :=
  bind ident fun _ _ hname => bind expectPunct fun _ _ _ => bind typeExpr fun _ _ hty => pure ⟨hname, hty⟩

lemma clause {w : Keyword} :
    Repeats k m (Option.Rel (Expr.Like (Span.Moved k))) 1 N (Parse.clause w) (Parse.clause w) :=
  after (parenthesised.look (Nat.zero_le 1))

lemma fnItem {x x' : Modifiers} (hx : x.Like (Span.Moved k) x') :
    Repeats k m (FnItem.Like (Span.Moved k)) 0 N (Parse.fnItem x) (Parse.fnItem x') := by
  refine bind (expect nofun) ?_
  rintro keyword _ ⟨rfl, -⟩
  refine bind ident fun _ _ hname => bind expectPunct fun _ _ _ => tokensLeft fun n _ =>
    bindLast (commaList param (Nat.le_refl n) (by omega)) fun _ _ hparams =>
    bind expectPunct fun _ _ _ => bindLast clause fun _ _ halign =>
    bindLast clause fun _ _ hlink => bindLast clause fun _ _ hconv =>
    bindLast typeExpr fun _ _ hret => bindLast atKind ?_
  rintro brace _ rfl
  refine ite (fun _ => ?_) fun _ => ?_
  · exact bind (map (S := Option.Rel (Block.Like (Span.Moved k))) itemBlock fun _ _ h => .some h) fun _ _ hbody =>
      pure ⟨hname, hx, hparams, hret, hconv, halign, hlink, hbody, rfl⟩
  · exact bind semicolon fun _ _ _ => bind (pure (Q := Option.Rel (Block.Like (Span.Moved k))) .none) fun _ _ hbody =>
      pure ⟨hname, hx, hparams, hret, hconv, halign, hlink, hbody, rfl⟩

lemma varItem {x x' : Modifiers} (hx : x.Like (Span.Moved k) x') :
    Repeats k m (VarItem.Like (Span.Moved k)) 0 N (Parse.varItem x) (Parse.varItem x') :=
  token fun _ => bind ident fun _ _ hname => bindLast (after typeExpr) fun _ _ hty =>
    bindLast clause fun _ _ halign => bindLast clause fun _ _ hlink =>
    bindLast (after expr) fun _ _ hinit => bind semicolon fun _ _ _ =>
    pure ⟨hname, hx, rfl, rfl, hty, halign, hlink, hinit⟩

lemma comma_or_end {x x' : α} (hx : Q x x') : Repeats k m Q 0 N
    (Parse.atKind .eof >>= fun done => if !done then Parse.expectPunct .comma >>= fun _ => Pure.pure x else Pure.pure x)
    (Parse.atKind .eof >>= fun done =>
      if !done then Parse.expectPunct .comma >>= fun _ => Pure.pure x' else Pure.pure x') := by
  intro c c' b' d' hs hl h hm
  have hend := Parse.comma_or_end hs.eof' hs.before h
  have hlen := hs.length_eq
  rw [bind_eq (atKind_run _ _)] at h ⊢
  obtain ⟨t, rest, rest', hc, hc', -⟩ | ⟨-, hc, hc'⟩ := hs.cases (by grind)
  · have hkind : (t.shift k).kind = t.kind := rfl
    rw [peek_cons hc', hkind] at h
    rw [peek_cons hc]
    exact ite (fun _ => bind expectPunct fun _ _ _ => pure hx) (fun _ => pure hx) c c' b' d' hs hl h hm
  · rw [peek_nil hc', hs.eof'] at h
    rw [peek_nil hc, hs.eof]
    exact pure hx c c' b' d' hs hl h hm

lemma fieldItem : Repeats k m (ItemKind.Like (Span.Moved k)) 0 N Parse.fieldItem Parse.fieldItem := by
  -- What follows the type reads a comma of the stretch, or reaches the end of both texts.
  refine bind ident fun _ _ hname => bind expectPunct fun _ _ _ => bindBack (e := 0) expr Steady.eats
    (fun a' c' b' d' he hc h hm => ?_) fun _ _ hty => bindBack (e := 0) (after expr) Steady.eats
    (fun a' c' b' d' he hc h hm => ?_) fun _ _ hvalue => comma_or_end (.field hname hty hvalue)
  · obtain ⟨value, c₁, h₁, h₂⟩ := bind_ok h
    obtain ⟨heof, hx, hlen⟩ := (Steady.eats (p := Parse.after (.punct .assign) Parse.expr)).ok c' value c₁ he h₁
    have := Parse.comma_or_end (heof ▸ he) (fun t ht => hc t (hx.mem ht)) h₂
    grind
  · have := Parse.comma_or_end he hc h
    grind

lemma plainItem : Repeats k m (ItemKind.Like (Span.Moved k)) 0 N Parse.plainItem Parse.plainItem := by
  refine peekKind (Eager.eats (p := Parse.plainItem)) fun t t' ht => ?_
  rw [ht]
  split
  · exact token fun _ => bind itemBlock fun _ _ hb => pure (.comptime hb)
  · refine token fun _ => bind (expect nofun) ?_
    rintro name _ ⟨rfl, -⟩
    exact bind itemBlock fun _ _ hb => pure (.test _ hb)
  · exact advance <| bindLast expr fun _ _ he => bind semicolon fun _ _ _ => pure (.usingNamespace he)
  · -- The name and the colon that make a field are read by it, so they are in the stretch.
    intro c c' a' d' hs hl h hm
    obtain ⟨b, hrun, hb⟩ := atField_run c
    obtain ⟨b', hrun', hb'⟩ := atField_run c'
    rw [bind_eq hrun'] at h
    cases b' with
    | false => cases h
    | true =>
      obtain ⟨t', u', rest', hc', ht', hu'⟩ := hb'.1 rfl
      have hlen := (eats_fieldItem.ok c' a' d' hs.eof' h).2.2
      have hlen' := hs.length_eq
      obtain ⟨tail, -, hr⟩ := hs.rest
      have : b = true := hb.2 <| by
        match hc : c.rest with
        | [] | [_] =>
          simp only [hc, List.length_cons, List.length_nil] at hlen'
          omega
        | t :: u :: rest =>
          rw [hc, hc'] at hr
          cases hr
          exact ⟨t, u, rest, rfl, ht', hu'⟩
      subst this
      rw [bind_eq hrun]
      exact fieldItem c c' a' d' hs hl h hm

lemma item : Repeats k m (Item.Like (Span.Moved k)) 0 N Parse.item Parse.item := by
  refine start eats_item fun s => core (e := 0) eat Steady.eats (fun _ => (?_ : Eats 1 _)) (Nat.le_refl 1) ?_
  rotate_left
  · rintro isPublic _ rfl
    refine tokensLeft fun n _ => core (e := 0) (modifiersFrom (Nat.le_refl n) (by omega) ⟨.nil, .none⟩) Steady.eats
      (fun _ => (?_ : Eats 1 _)) (Nat.le_refl 1) fun x x' hx => peekKind ?_ fun t t' ht => ?_
    rotate_left 2
    · have hmarks : x'.marks.isEmpty = x.marks.isEmpty := by
        rw [Bool.eq_iff_iff, List.isEmpty_iff_length_eq_zero, List.isEmpty_iff_length_eq_zero, hx.marks.length_eq]
      rw [ht, hmarks]
      dsimp only
      split
      · exact bind (map (S := ItemKind.Like (Span.Moved k)) (fnItem hx) fun _ _ h => .fn h) fun _ _ hkind =>
          bind (spanFrom s) fun _ _ hsp => pure ⟨hkind, rfl, hsp⟩
      iterate 2
        · exact bind (map (S := ItemKind.Like (Span.Moved k)) (varItem hx) fun _ _ h => .var h) fun _ _ hkind =>
            bind (spanFrom s) fun _ _ hsp => pure ⟨hkind, rfl, hsp⟩
      · exact ite (fun _ => bind plainItem fun _ _ hkind => bind (spanFrom s) fun _ _ hsp => pure ⟨hkind, rfl, hsp⟩)
          fun _ =>
          fun _ _ _ _ _ _ h => by cases h
    all_goals
      repeat refine Eats.last fun _ => ?_
      dsimp only
      split <;> exact Eager.eats
  · repeat refine Eats.last fun _ => ?_
    dsimp only
    split <;> exact Eager.eats

end Repeats

end Parse

end Frontend
