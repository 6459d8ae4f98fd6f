import Mathlib
import Frontend.Proofs.Printing.Printer

/-! Reading printed expressions. `Reads` says which words a parser takes from the front of the tokens, given what kind
of token comes after them. Each level of the grammar reads what is printed for it: operators that chain by an invariant
of the loop that joins them, the rest by induction on how deep the parser may go. -/

namespace Frontend.Parse

variable {α β : Type}

def next (ws : List Word) (k : TokenKind) : TokenKind :=
  match ws with
  | [] => k
  | w :: _ => w.1

@[simp] lemma next_nil (k : TokenKind) : next [] k = k := rfl

@[simp] lemma next_cons (w : Word) (ws : List Word) (k : TokenKind) : next (w :: ws) k = w.1 := rfl

lemma next_append (ws ws' : List Word) (k : TokenKind) : next (ws ++ ws') k = next ws (next ws' k) := by
  cases ws <;> rfl

def Cursor.Before (c : Cursor) (ws : List Word) (rest : List Token) : Prop :=
  ∃ ts, c.rest = ts ++ rest ∧ ts.map Token.word = ws

def Reads (p : Parser α) (ws : List Word) (ok : TokenKind → Prop) (Q : α → Prop) (N : Nat) : Prop :=
  ∀ c rest, c.Before ws rest → ok (rest.headD c.eof).kind → c.rest.length < N →
    ∃ a c', p c = .ok a c' ∧ Q a ∧ c'.rest = rest ∧ c'.eof = c.eof

variable {c : Cursor} {ws : List Word} {rest : List Token} {k : TokenKind} {op? : TokenKind → Option BinaryOp}
  {level : Nat} {first : TokenKind → Bool}

lemma Cursor.Before.peek_kind (h : c.Before ws rest) : c.peek.kind = next ws (rest.headD c.eof).kind := by
  obtain ⟨ts, hc, rfl⟩ := h
  cases ts <;> simp [Cursor.peek, hc, next, Token.word]

lemma Cursor.Before.cons {w : Word} (h : c.Before (w :: ws) rest) :
    ∃ t more, c.rest = t :: more ∧ t.word = w ∧
      Cursor.Before { c with rest := more, prevEnd := t.span.stop } ws rest := by
  obtain ⟨ts, hc, hts⟩ := h
  cases ts with
  | nil => cases hts
  | cons t ts =>
    obtain ⟨rfl, rfl⟩ := List.cons.inj hts
    exact ⟨t, ts ++ rest, hc, rfl, ts, rfl, rfl⟩

lemma Cursor.Before.length_le (h : c.Before ws rest) : rest.length ≤ c.rest.length := by
  obtain ⟨ts, hts, -⟩ := h
  rw [hts, List.length_append]
  omega

lemma Cursor.Before.append {ws' : List Word} (h : c.Before (ws ++ ws') rest) :
    ∃ mid, c.Before ws mid ∧ (∀ d : Cursor, d.rest = mid → d.Before ws' rest) ∧
      (mid.headD c.eof).kind = next ws' (rest.headD c.eof).kind := by
  obtain ⟨ts, hc, hts⟩ := h
  obtain ⟨ts₁, ts₂, rfl, h₁, h₂⟩ := List.map_eq_append_iff.1 hts
  rw [List.append_assoc] at hc
  refine ⟨ts₂ ++ rest, ⟨ts₁, hc, h₁⟩, fun d hd => ⟨ts₂, hd, h₂⟩, ?_⟩
  subst h₂
  cases ts₂ <;> simp [next, Token.word]

namespace Reads
variable {p : Parser α} {q : α → Parser β} {ws ws₁ ws₂ : List Word} {ok ok₁ ok₂ : TokenKind → Prop} {Q : α → Prop}
  {R : β → Prop} {N : Nat}

lemma fewer {M : Nat} (h : Reads p ws ok Q N) (hM : M ≤ N) : Reads p ws ok Q M :=
  fun c rest hb hok hl => h c rest hb hok (by omega)

lemma mono (h : Reads p ws ok₁ Q N) (hok : ∀ k, ok₂ k → ok₁ k) : Reads p ws ok₂ Q N :=
  fun c rest hb hk hl => h c rest hb (hok _ hk) hl

lemma pure {a : α} (h : Q a) : Reads (Pure.pure a) [] ok Q N := by
  rintro c rest ⟨ts, hc, hts⟩ - -
  obtain rfl := List.map_eq_nil_iff.1 hts
  exact ⟨a, c, rfl, h, hc, rfl⟩

lemma bind (hp : Reads p ws₁ ok₁ Q N) (hok : ∀ k, ok₂ k → ok₁ (next ws₂ k))
    (hq : ∀ a, Q a → Reads (q a) ws₂ ok₂ R (N - ws₁.length)) : Reads (p >>= q) (ws₁ ++ ws₂) ok₂ R N := by
  intro c rest hc hk hl
  obtain ⟨mid, hc₁, hc₂, hnext⟩ := hc.append
  obtain ⟨a, c₁, hrun, ha, rfl, he₁⟩ := hp c mid hc₁ (hnext ▸ hok _ hk) hl
  have hlen : c₁.rest.length < N - ws₁.length := by
    obtain ⟨ts, hts, rfl⟩ := hc₁
    rw [hts, List.length_append] at hl
    rw [List.length_map]
    omega
  obtain ⟨b, c₂, hrun₂, hb, hc₂, he₂⟩ := hq a ha c₁ rest (hc₂ c₁ rfl) (he₁ ▸ hk) hlen
  exact ⟨b, c₂, (bind_eq hrun).trans hrun₂, hb, hc₂, he₂.trans he₁⟩

lemma bindEnd (hp : Reads p ws ok Q N) (hq : ∀ a, Q a → Reads (q a) [] ok R (N - ws.length)) :
    Reads (p >>= q) ws ok R N := by
  have h : Reads (p >>= q) (ws ++ []) ok R N := bind hp (fun _ h => h) hq
  rwa [List.append_nil] at h

lemma step (hp : ∀ c, ∃ a, p c = .ok a c) (hq : ∀ a, Reads (q a) ws ok R N) : Reads (p >>= q) ws ok R N := by
  intro c rest hb hk hl
  obtain ⟨a, ha⟩ := hp c
  rw [bind_eq ha]
  exact hq a c rest hb hk hl

lemma spanFrom {s : Nat} {q : Span → Parser β} (hq : ∀ a, Reads (q a) ws ok R N) :
    Reads (Parse.spanFrom s >>= q) ws ok R N :=
  step (fun _ => ⟨_, rfl⟩) hq

lemma start {q : Nat → Parser β} (hq : ∀ a, Reads (q a) ws ok R N) : Reads (startHere >>= q) ws ok R N :=
  step (fun _ => ⟨_, rfl⟩) hq

lemma tokensLeft {q : Nat → Parser β} (hq : ∀ n ≤ N, Reads (q n) ws ok R n) :
    Reads (Parse.tokensLeft >>= q) ws ok R N := by
  intro c rest hb hk hl
  have hrun : Parse.tokensLeft c = .ok (c.rest.length + 1) c := rfl
  rw [bind_eq hrun]
  exact hq _ hl c rest hb hk (Nat.lt_succ_self _)

variable {kind : TokenKind}

lemma atKind {q : Bool → Parser β} (b : Bool) (hb : ∀ k, ok k → (next ws k == kind) = b)
    (hq : Reads (q b) ws ok R N) : Reads (Parse.atKind kind >>= q) ws ok R N := by
  intro c rest hc hk hl
  rw [bind_eq (atKind_run kind c), hc.peek_kind, hb _ hk]
  exact hq c rest hc hk hl

variable {w : Word}

lemma peek {q : Token → Parser β} (hq : ∀ t, t.word = w → Reads (q t) (w :: ws) ok R N) :
    Reads (Parse.peek >>= q) (w :: ws) ok R N := by
  intro c rest hc hk hl
  obtain ⟨t, more, hr, hw, -⟩ := hc.cons
  rw [bind_eq (peek_run c), peek_cons hr]
  exact hq t hw c rest hc hk hl

lemma peekKind {q : Token → Parser β} (hq : ∀ t k, ok k → t.kind = next ws k → Reads (q t) ws ok R N) :
    Reads (Parse.peek >>= q) ws ok R N := by
  intro c rest hc hk hl
  rw [bind_eq (peek_run c)]
  exact hq _ _ hk hc.peek_kind c rest hc hk hl

lemma advance {q : Token → Parser β} (hq : ∀ t, t.word = w → Reads (q t) ws ok R (N - 1)) :
    Reads (Parse.advance >>= q) (w :: ws) ok R N := by
  intro c rest hc hk hl
  obtain ⟨t, more, hr, hw, hmore⟩ := hc.cons
  rw [bind_eq (advance_cons hr)]
  exact hq t hw _ rest hmore hk (by rw [hr] at hl; simp at hl ⊢; omega)

lemma expect {q : Token → Parser β} (hw : w.1 = kind) (hq : ∀ t, t.word = w → Reads (q t) ws ok R (N - 1)) :
    Reads (Parse.expect kind >>= q) (w :: ws) ok R N := by
  intro c rest hc hk hl
  obtain ⟨t, more, hr, rfl, hmore⟩ := hc.cons
  obtain rfl : t.kind = kind := hw
  rw [bind_eq (expect_run hr)]
  exact hq t rfl _ rest hmore hk (by rw [hr] at hl; simp at hl ⊢; omega)

lemma expectPunct {x : Punct} {q : Token → Parser β} (hq : ∀ t, Reads (q t) ws ok R (N - 1)) :
    Reads (Parse.expectPunct x >>= q) (x.word :: ws) ok R N :=
  expect rfl fun t _ => hq t

lemma eat_yes {q : Bool → Parser β} (hw : w.1 = kind) (hq : Reads (q true) ws ok R (N - 1)) :
    Reads (Parse.eat kind >>= q) (w :: ws) ok R N := by
  intro c rest hc hk hl
  obtain ⟨t, more, hr, rfl, hmore⟩ := hc.cons
  obtain rfl : t.kind = kind := hw
  rw [bind_eq (eat_run hr)]
  exact hq _ rest hmore hk (by rw [hr] at hl; simp at hl ⊢; omega)

lemma eat_no {q : Bool → Parser β} (hw : ∀ k, ok k → next ws k ≠ kind) (hq : Reads (q false) ws ok R N) :
    Reads (Parse.eat kind >>= q) ws ok R N := by
  intro c rest hc hk hl
  rw [bind_eq (eat_other (hc.peek_kind ▸ hw _ hk))]
  exact hq c rest hc hk hl

lemma none_left (h : N ≤ 0) : Reads p ws ok Q N := fun _ _ _ _ hl => absurd hl (by omega)

lemma commaList {γ : Type} {close : Punct} (hclose : close ≠ .comma) {ws : γ → List Word} {P : γ → α → Prop}
    {xs : List γ}
    (hne : ∀ x ∈ xs, ∀ k, next (ws x) k ≠ .punct close)
    (hx : ∀ x ∈ xs, Reads p (ws x) (fun k => k = .punct .comma ∨ k = .punct close) (P x) N) {fuel : Nat}
    (hN : N ≤ fuel) :
    Reads (Parse.commaList close p fuel) ([Punct.comma.word].intercalate (xs.map ws)) (fun k => k = .punct close)
      (List.Forall₂ P xs) N := by
  induction xs generalizing fuel N with
  | nil =>
    cases fuel with
    | zero => exact none_left hN
    | succ fuel => exact atKind true (by simp [List.intercalate]) (pure .nil)
  | cons x xs ih =>
    cases fuel with
    | zero => exact none_left hN
    | succ fuel =>
      have hx₁ := hx x List.mem_cons_self
      have hx₂ (M : Nat) (hM : M ≤ N) (y : γ) (hy : y ∈ xs) := (hx y (List.mem_cons_of_mem _ hy)).fewer hM
      have hne₂ (y : γ) (hy : y ∈ xs) := hne y (List.mem_cons_of_mem _ hy)
      have hfirst (ws' : List Word) (k : TokenKind) : (next (ws x ++ ws') k == .punct close) = false := by
        rw [next_append, beq_eq_false_iff_ne]
        exact hne x List.mem_cons_self _
      cases xs with
      | nil =>
        have hw : [Punct.comma.word].intercalate ([x].map ws) = ws x ++ [] := by simp [List.intercalate]
        rw [hw]
        refine atKind false (fun k _ => hfirst [] k) (bind hx₁ (fun k hk => .inr hk) fun a ha => ?_)
        exact eat_no (by rintro _ rfl; simpa using hclose) (pure (.cons ha .nil))
      | cons y xs =>
        have hw : [Punct.comma.word].intercalate ((x :: y :: xs).map ws) =
            ws x ++ Punct.comma.word :: [Punct.comma.word].intercalate ((y :: xs).map ws) := by simp [List.intercalate]
        rw [hw]
        refine atKind false (fun k _ => hfirst _ k) (bind hx₁ (fun k hk => .inl rfl) fun a ha => eat_yes rfl ?_)
        exact bindEnd (ih hne₂ (hx₂ _ (by omega)) (by omega)) fun l hl => pure (.cons ha hl)

end Reads

/-! Binary operators. -/

structure Stops (init : Bool) (level : Nat) (k : TokenKind) : Prop where
  brace : init = true → k ≠ .punct .lBrace
  paren : k ≠ .punct .lParen
  deref : k ≠ .punct .dotStar
  op : ∀ op : BinaryOp, level ≤ op.level → k ≠ op.word.1

lemma Stops.mono {init : Bool} {l l' : Nat} (h : Stops init l k) (hl : l ≤ l') : Stops init l' k :=
  ⟨h.brace, h.paren, h.deref, fun op ho => h.op op (by omega)⟩

structure Operators (op? : TokenKind → Option BinaryOp) (level : Nat) : Prop where
  some : ∀ op : BinaryOp, op.level = level → op? op.word.1 = some op
  of_some : ∀ k op, op? k = Option.some op → op.level = level ∧ k = op.word.1

lemma Operators.none (h : Operators op? level) (k : TokenKind)
    (hk : ∀ op : BinaryOp, op.level = level → k ≠ op.word.1) : op? k = none := by
  rcases ho : op? k with _ | op
  · rfl
  · exact absurd (h.of_some k op ho).2 (hk op (h.of_some k op ho).1)

lemma operators_factor : Operators factorOp? 4 where
  some := by rintro (⟨_ | _⟩ | ⟨_ | _⟩ | _ | _) h <;> first | rfl | cases h
  of_some k op h := by
    unfold factorOp? at h
    split at h <;> cases h <;> exact ⟨rfl, rfl⟩

lemma operators_term : Operators termOp? 3 where
  some := by rintro (⟨_ | _⟩ | ⟨_ | _⟩ | _ | _) h <;> first | rfl | cases h
  of_some k op h := by
    unfold termOp? at h
    split at h <;> cases h <;> exact ⟨rfl, rfl⟩

lemma operators_compare : Operators compareOp? 2 where
  some := by rintro (⟨_ | _⟩ | ⟨_ | _⟩ | _ | _) h <;> first | rfl | cases h
  of_some k op h := by
    unfold compareOp? at h
    split at h <;> cases h <;> exact ⟨rfl, rfl⟩

lemma operators_and : Operators andOp? 1 where
  some := by rintro (⟨_ | _⟩ | ⟨_ | _⟩ | _ | _) h <;> first | rfl | cases h
  of_some k op h := by
    unfold andOp? at h
    split at h <;> cases h
    exact ⟨rfl, rfl⟩

lemma operators_or : Operators orOp? 0 where
  some := by rintro (⟨_ | _⟩ | ⟨_ | _⟩ | _ | _) h <;> first | rfl | cases h
  of_some k op h := by
    unfold orOp? at h
    split at h <;> cases h
    exact ⟨rfl, rfl⟩

def levelOf? (k : TokenKind) : Option Nat :=
  ((factorOp? k <|> termOp? k) <|> (compareOp? k <|> (andOp? k <|> orOp? k))).map BinaryOp.level

lemma levelOf?_word (op : BinaryOp) : levelOf? op.word.1 = some op.level := by
  match op with
  | .arith .add | .arith .sub | .arith .mul | .arith .div | .arith .rem | .and | .or => rfl
  | .cmp .eq | .cmp .neq | .cmp .lt | .cmp .lte | .cmp .gt | .cmp .gte => rfl

lemma stops_of_levelOf? (h : levelOf? k = none) (hb : k ≠ .punct .lBrace) (hp : k ≠ .punct .lParen)
    (hd : k ≠ .punct .dotStar) (init : Bool) (level : Nat) : Stops init level k :=
  ⟨fun _ => hb, hp, hd, fun op _ hk => by rw [hk, levelOf?_word] at h; cases h⟩

lemma stops_word (op : BinaryOp) (init : Bool) (h : op.level < level) : Stops init level op.word.1 := by
  have hne {x : TokenKind} (hx : levelOf? x = none) : op.word.1 ≠ x := by
    rintro rfl
    rw [levelOf?_word] at hx
    cases hx
  refine ⟨fun _ => hne rfl, hne rfl, hne rfl, fun op' hl hk => ?_⟩
  have := levelOf?_word op
  rw [hk, levelOf?_word, Option.some.injEq] at this
  omega

lemma joined_stops {next : Parser Expr} (h : op? c.peek.kind = none) (fuel : Nat) (lhs : Expr) :
    joined next op? fuel lhs c = .ok lhs c := by
  cases fuel with
  | zero => rfl
  | succ fuel =>
    rw [joined, bind_eq (peek_run c), h]
    rfl

lemma joined_step {next : Parser Expr} {t : Token} {more : List Token} {op : BinaryOp} (hr : c.rest = t :: more)
    (h : op? t.kind = some op) (fuel : Nat) (lhs : Expr) :
    joined next op? (fuel + 1) lhs c =
      (next >>= fun rhs => joined next op? fuel (binary op lhs rhs))
        { c with rest := more, prevEnd := t.span.stop } := by
  rw [joined, bind_eq (peek_run c), peek_cons hr, h]
  exact bind_eq (advance_cons hr)

def ReadsAll (p : Parser Expr) (level N : Nat) : Prop :=
  ∀ e : Expr, e.Printable → Reads p (e.words true level) (Stops true level) e.Same N

lemma words_succ {e : Expr} (h : e.level ≠ level) : e.words true level = e.words true (level + 1) := by
  have : e.level < level ↔ e.level < level + 1 := by omega
  simp [Expr.words, Expr.within, this]

section
variable {next : Parser Expr} {op? : TokenKind → Option BinaryOp} {level N : Nat}

section

variable (hops : Operators op? level) (hlevel : level ≤ 4 ∧ level ≠ 2) (hnext : ReadsAll next (level + 1) N)
include hops hlevel hnext

lemma leftLevel_chain {e : Expr} (he : e.Printable) {c : Cursor} {rest : List Token}
    (hc : c.Before (e.words true level) rest) (hk : Stops true (level + 1) (rest.headD c.eof).kind)
    (hl : c.rest.length < N) :
    ∃ e' d fuel, leftLevel next op? c = joined next op? fuel e' d ∧ e.Same e' ∧ d.rest = rest ∧ d.eof = c.eof ∧
      rest.length < fuel := by
  have tighter {e : Expr} (he : e.Printable) (hne : e.level ≠ level) {c : Cursor} {rest : List Token}
      (hc : c.Before (e.words true level) rest) (hk : Stops true (level + 1) (rest.headD c.eof).kind)
      (hl : c.rest.length < N) : ∃ e' d fuel, leftLevel next op? c = joined next op? fuel e' d ∧ e.Same e' ∧
        d.rest = rest ∧ d.eof = c.eof ∧ rest.length < fuel := by
    rw [words_succ hne] at hc
    obtain ⟨e', d, hrun, hsame, rfl, hd⟩ := hnext e he c rest hc hk hl
    exact ⟨e', d, d.rest.length + 1, bind_eq hrun, hsame, rfl, hd, Nat.lt_succ_self _⟩
  induction he generalizing c rest with
  | @binary s op l r hpl hpr ihl ihr =>
    by_cases hop : op.level = level
    · have hw : (Expr.binary s op l r).words true level = l.words true level ++
          op.word :: r.words true (level + 1) := by
        have hleft : op.leftLevel = op.level := by
          cases op <;> first | rfl | exact absurd hop.symm hlevel.2
        rw [Expr.words_bare (Nat.le_of_eq hop.symm) fun _ => rfl, Expr.bare, hleft, hop]
        rfl
      rw [hw] at hc
      obtain ⟨mid, hcl, hcr, hmid⟩ := hc.append
      rw [next_cons] at hmid
      obtain ⟨l', d, fuel, hrun, hsl, rfl, hd, hfuel⟩ := ihl hcl (hmid ▸ stops_word op true (by omega)) hl
      obtain ⟨t, more, hr, hword, hmore⟩ := (hcr d rfl).cons
      obtain ⟨fuel, rfl⟩ : ∃ f, fuel = f + 1 := ⟨fuel - 1, by omega⟩
      have hlen : more.length < fuel := by
        rw [hr, List.length_cons] at hfuel
        omega
      have hlen' := hcl.length_le
      have hkind : op? t.kind = some op := by
        have := hops.some op hop
        rwa [← hword] at this
      obtain ⟨r', d', hrun', hsr, hd', he'⟩ := hnext r hpr _ rest hmore (hd ▸ hk)
        (by rw [hr, List.length_cons] at hlen'; dsimp only; omega)
      refine ⟨binary op l' r', d', fuel, ?_, .binary trivial op hsl hsr, hd', he'.trans hd, ?_⟩
      · rw [hrun, joined_step hr hkind, bind_eq hrun']
      · exact Nat.lt_of_le_of_lt hmore.length_le hlen
    · exact tighter (.binary hpl hpr) hop hc hk hl
  | _ => exact tighter (by constructor <;> assumption) (by simp [Expr.level]; omega) hc hk hl

lemma readsAll_leftLevel : ReadsAll (leftLevel next op?) level N := by
  intro e he c rest hc hk hl
  obtain ⟨e', d, fuel, hrun, hsame, rfl, hd, -⟩ := leftLevel_chain hops hlevel hnext he hc (hk.mono (Nat.le_succ _)) hl
  have hpeek : op? d.peek.kind = none := hops.none _ fun op ho => by
    have := hk.op op (Nat.le_of_eq ho.symm)
    rwa [← hd] at this
  exact ⟨e', d, hrun.trans (joined_stops hpeek fuel e'), hsame, rfl, hd⟩

end

lemma readsAll_single (hnext : ReadsAll next 3 N) : ReadsAll (single next compareOp?) 2 N := by
  intro e he
  by_cases hlevel : e.level = 2
  · cases he with
    | @binary s op l r hl hr =>
      cases op with
      | cmp o =>
        rw [Expr.words_bare (Nat.le_of_eq hlevel.symm) fun _ => rfl, Expr.bare]
        refine .bind (hnext l hl) (fun _ _ => stops_word (.cmp o) true (Nat.lt_succ_self 2)) fun l' hl' => ?_
        refine .peek fun t ht => ?_
        have hop : compareOp? t.kind = some (.cmp o) := by
          have := operators_compare.some (.cmp o) rfl
          rwa [← ht] at this
        rw [hop]
        refine .advance fun _ _ => .bindEnd (((hnext r hr).fewer (by omega)).mono fun _ h => h.mono (by decide))
          fun r' hr' => ?_
        exact .pure (.binary trivial _ hl' hr')
      | arith o => cases o <;> cases hlevel
      | and | or => cases hlevel
    | _ => cases hlevel
  · rw [words_succ hlevel]
    refine .bindEnd ((hnext e he).mono fun _ h => h.mono (by decide)) fun e' he' => .peekKind fun t k hk ht => ?_
    rw [ht, next_nil, operators_compare.none k fun op ho => hk.op op (Nat.le_of_eq ho.symm)]
    exact .pure he'

lemma readsAll_levels (h : ReadsAll next 5 N) : ReadsAll (levels next) 0 N :=
  readsAll_leftLevel operators_or (by decide) <| readsAll_leftLevel operators_and (by decide) <| readsAll_single <|
    readsAll_leftLevel operators_term (by decide) <| readsAll_leftLevel operators_factor (by decide) h

end

lemma Reads.levels {operand : Parser Expr} {Q : Expr → Prop} {N : Nat} (h : Reads operand ws (Stops true 5) Q N) :
    Reads (Parse.levels operand) ws (Stops true 0) Q N := by
  have left {next : Parser Expr} {op? : TokenKind → Option BinaryOp} {level : Nat} (hops : Operators op? level)
      (hn : Reads next ws (Stops true (level + 1)) Q N) : Reads (leftLevel next op?) ws (Stops true level) Q N := by
    refine .bindEnd (hn.mono fun _ h => h.mono (Nat.le_succ _)) fun e he => .tokensLeft fun n _ c rest hc hk _ => ?_
    obtain ⟨ts, hr, hts⟩ := hc
    obtain rfl := List.map_eq_nil_iff.1 hts
    have hpeek : op? c.peek.kind = none := hops.none _ fun op ho => by
      have := hk.op op (Nat.le_of_eq ho.symm)
      rwa [Cursor.peek, hr]
    exact ⟨e, c, joined_stops hpeek n e, he, hr, rfl⟩
  have one {next : Parser Expr} (hn : Reads next ws (Stops true 3) Q N) :
      Reads (single next compareOp?) ws (Stops true 2) Q N := by
    refine .bindEnd (hn.mono fun _ h => h.mono (by decide)) fun e he => .peekKind fun t k hk ht => ?_
    rw [ht, next_nil, operators_compare.none k fun op ho => hk.op op (Nat.le_of_eq ho.symm)]
    exact .pure he
  exact left operators_or (left operators_and (one (left operators_term (left operators_factor h))))

/-! The first word. -/

def opensPrimary : TokenKind → Bool
  | .int | .str | .ident | .builtin => true
  | .keyword .litTrue | .keyword .litFalse | .keyword .null | .keyword .undefined | .keyword .unreachable => true
  | .punct .lParen => true
  | _ => false

def opens (k : TokenKind) : Bool :=
  opensPrimary k || k == .punct .minus || k == .punct .bang || k == .punct .ampersand || k == .punct .question ||
    k == .punct .star || k == .punct .lBracket

def Opening (first : TokenKind → Bool) (ws : List Word) : Prop := ∃ w rest, ws = w :: rest ∧ first w.1 = true

lemma Opening.append (h : Opening first ws) (ws' : List Word) : Opening first (ws ++ ws') := by
  obtain ⟨w, rest, rfl, hw⟩ := h
  exact ⟨w, rest ++ ws', rfl, hw⟩

lemma Opening.next (h : Opening first ws) (k : TokenKind) : first (next ws k) = true := by
  obtain ⟨w, rest, rfl, hw⟩ := h
  exact hw

lemma Opening.next_ne (h : Opening first ws) {x : TokenKind} (hx : first x = false) (k : TokenKind) :
    Parse.next ws k ≠ x := by
  rintro rfl
  exact absurd (h.next k) (by simp [hx])

lemma opening_words {e : Expr} (h : Opening opens (e.bare true)) (h' : Opening opens (e.bare false)) (init : Bool)
    (level : Nat) : Opening opens (e.words init level) := by
  unfold Expr.words Expr.within
  split
  · exact ⟨_, _, rfl, rfl⟩
  · cases init <;> assumption

lemma opening_bare {e : Expr} (he : e.Printable) : ∀ init, Opening opens (e.bare init) := by
  induction he with
  | int | str | null | undefined | unreachable | ident | builtin | optionalType | arrayType =>
    exact fun _ => ⟨_, _, rfl, rfl⟩
  | @bool s b => cases b <;> exact fun _ => ⟨_, _, rfl, rfl⟩
  | @unary s op => cases op <;> exact fun _ => ⟨_, _, rfl, rfl⟩
  | @ptrType s size => cases size <;> exact fun _ => ⟨_, _, rfl, rfl⟩
  | binary hl hr ihl ihr => exact fun _ => (opening_words (ihl true) (ihl false) _ _).append _
  | call h ha ih | deref h ih => exact fun _ => (opening_words (ih true) (ih false) _ _).append _
  | arrayInit h hx ih => exact fun _ => (ih true).append _

lemma opening {e : Expr} (he : e.Printable) (init : Bool) (level : Nat) : Opening opens (e.words init level) :=
  opening_words (opening_bare he true) (opening_bare he false) init level

lemma openingPrimary {e : Expr} (he : e.Printable) : Opening opensPrimary (e.words true 6) := by
  have paren {e : Expr} (h : e.level < 6) : Opening opensPrimary (e.words true 6) := by
    rw [Expr.words_parens _ (.inl h)]
    exact ⟨_, _, rfl, rfl⟩
  induction he with
  | int | str | null | undefined | unreachable | ident | builtin => exact ⟨_, _, rfl, rfl⟩
  | @bool s b => cases b <;> exact ⟨_, _, rfl, rfl⟩
  | unary | ptrType | arrayType | optionalType | arrayInit => exact paren (Nat.lt_succ_self 5)
  | @binary s op => exact paren (Nat.lt_of_le_of_lt op.level_le (by decide))
  | call h ha ih | deref h ih => exact ih.append _

/-! Operands. -/

section
variable {expr : Parser Expr} {N : Nat}

lemma bareAll_eq (es : List Expr) : Expr.bareAll es = es.map (·.words true 0) := by
  induction es with
  | nil => rfl
  | cons e es ih => rw [Expr.bareAll, ih]; rfl

lemma stops_close {k : TokenKind}
    (h : k = .punct .comma ∨ k = .punct .rParen ∨ k = .punct .rBrace ∨ k = .punct .rBracket ∨
    k = .punct .colon ∨ k = .eof) (init : Bool) (level : Nat) : Stops init level k := by
  obtain rfl | rfl | rfl | rfl | rfl | rfl := h <;>
    exact stops_of_levelOf? (by rfl) (by decide) (by decide) (by decide) _ _

lemma reads_elements {close : Punct} (hclose : close = .rParen ∨ close = .rBrace) (hexpr : ReadsAll expr 0 N)
    {es : List Expr} (hes : ∀ e ∈ es, e.Printable) {fuel : Nat} (hN : N ≤ fuel) :
    Reads (commaList close expr fuel) ([Punct.comma.word].intercalate (Expr.bareAll es)) (fun k => k = .punct close)
      (List.Forall₂ Expr.Same es) N := by
  rw [bareAll_eq]
  refine .commaList ?_ (fun e he => (opening (hes e he) true 0).next_ne ?_) (fun e he => ?_) hN
  · obtain rfl | rfl := hclose <;> decide
  · obtain rfl | rfl := hclose <;> rfl
  · refine (hexpr e (hes e he)).mono fun k hk => stops_close ?_ true 0
    obtain rfl | rfl := hclose <;> obtain rfl | rfl := hk <;> simp

variable {ok : TokenKind → Prop} {c : Cursor} {z : Option Expr} {n : Expr}

lemma reads_arguments (hexpr : ReadsAll expr 0 N) {args : List Expr} (ha : ∀ e ∈ args, e.Printable) :
    Reads (arguments expr) ([Punct.comma.word].intercalate (Expr.bareAll args) ++ [Punct.rParen.word]) ok
      (List.Forall₂ Expr.Same args) N :=
  .tokensLeft fun n hn => .bind (reads_elements (.inl rfl) (fun e he => (hexpr e he).fewer hn) ha (Nat.le_refl n))
    (fun _ _ => rfl) fun _ hl => .expectPunct fun _ => .pure hl

lemma reads_parens (hexpr : ReadsAll expr 0 (N - 1)) {e : Expr} (he : e.Printable) (h : e.level < 6) :
    Reads (primary expr) (e.words true 6) ok e.Same N := by
  rw [Expr.words_parens _ (.inl h), ← Expr.words_bare (Nat.zero_le _) fun _ => rfl]
  refine .peek fun t ht => ?_
  have hk : t.kind = .punct .lParen := congrArg Prod.fst ht
  rw [hk]
  refine .advance fun _ _ => .bind (hexpr e he) (fun _ _ => stops_close (by simp [Punct.word]) _ _) fun e' he' => ?_
  exact .expectPunct fun _ => .pure he'

lemma reads_primary (hexpr : ReadsAll expr 0 (N - 1)) {e : Expr} (he : e.Printable)
    (hne : ∀ s f args, e ≠ .call s f args) (hnd : ∀ s f, e ≠ .deref s f) :
    Reads (primary expr) (e.words true 6) ok e.Same N := by
  have by_leaf {node : Span → Expr} {w : Word} (hnode : ∀ s, e.Same (node s)) : Reads (leaf node) [w] ok e.Same N :=
    .advance fun t _ => .pure (hnode t.span)
  cases he with
  | @int s v h hv =>
    refine .peek fun t ht => ?_
    have hk : t.kind = .int := congrArg Prod.fst ht
    have htext : t.text = toString v.toNat := congrArg Prod.snd ht
    rw [hk, htext]
    dsimp only
    rw [Literal.int_toString (by omega), Int.toNat_of_nonneg h]
    exact .advance fun _ _ => .pure (.int trivial v)
  | @str s text =>
    refine .peek fun t ht => ?_
    have hk : t.kind = .str := congrArg Prod.fst ht
    have htext : t.text = quotedString text := congrArg Prod.snd ht
    rw [hk, htext, Literal.string_quotedString]
    exact by_leaf fun s => .str trivial text
  | @bool s b =>
    refine .peek fun t ht => ?_
    cases b <;> rw [show t.kind = _ from congrArg Prod.fst ht] <;> exact by_leaf fun s => .bool trivial _
  | null =>
    refine .peek fun t ht => ?_
    rw [show t.kind = .keyword .null from congrArg Prod.fst ht]
    exact by_leaf fun s => .null trivial
  | undefined =>
    refine .peek fun t ht => ?_
    rw [show t.kind = .keyword .undefined from congrArg Prod.fst ht]
    exact by_leaf fun s => .undefined trivial
  | unreachable =>
    refine .peek fun t ht => ?_
    rw [show t.kind = .keyword .unreachable from congrArg Prod.fst ht]
    exact by_leaf fun s => .unreachable trivial
  | @ident s name =>
    refine .peek fun t ht => ?_
    have hk : t.kind = .ident := congrArg Prod.fst ht
    have htext : t.text = name := congrArg Prod.snd ht
    rw [hk, htext]
    exact by_leaf fun s => .ident trivial name
  | @builtin s name args h ha =>
    refine .peek fun t ht => ?_
    have hk : t.kind = .builtin := congrArg Prod.fst ht
    have htext : t.text = "@" ++ name := congrArg Prod.snd ht
    have hname : String.ofList (t.text.toList.dropWhile (· == '@')) = name := by
      have hdrop : name.toList.dropWhile (· == '@') = name.toList := by
        cases hcs : name.toList with
        | nil => rfl
        | cons c cs =>
          have hc : c ≠ '@' := by
            rintro rfl
            exact absurd (h '@' (hcs ▸ List.mem_cons_self)) (by decide)
          simp [hc]
      simp [htext, hdrop]
    rw [hk, hname]
    refine .advance fun _ _ => .expectPunct fun _ =>
      .bindEnd (reads_arguments (fun e he => (hexpr e he).fewer (by omega)) ha)
      fun l hl => ?_
    exact .spanFrom fun sp => .pure (.builtin trivial name hl)
  | binary hl hr => exact reads_parens hexpr (.binary hl hr) (Nat.lt_of_le_of_lt (BinaryOp.level_le _) (by decide))
  | unary | ptrType | arrayType | optionalType | arrayInit =>
    exact reads_parens hexpr (by constructor <;> assumption) (by simp [Expr.level])
  | call => exact absurd rfl (hne _ _ _)
  | deref => exact absurd rfl (hnd _ _)

lemma suffixes_stops (hp : c.peek.kind ≠ .punct .lParen) (hd : c.peek.kind ≠ .punct .dotStar) (start fuel : Nat)
    (e : Expr) : suffixes expr start fuel e c = .ok e c := by
  cases fuel with
  | zero => rfl
  | succ fuel =>
    rw [suffixes, eatPunct, eatPunct, bind_eq (eat_other hp)]
    exact bind_eq (eat_other hd)

lemma suffixed_chain (hexpr : ReadsAll expr 0 (N - 1)) {e : Expr} (he : e.Printable) {rest : List Token}
    (hc : c.Before (e.words true 6) rest) (hl : c.rest.length < N) :
    ∃ e' d start fuel, suffixed expr c = suffixes expr start fuel e' d ∧ e.Same e' ∧ d.rest = rest ∧ d.eof = c.eof ∧
      rest.length < fuel := by
  have base {e : Expr} {c : Cursor} {rest : List Token} (hc : c.Before (e.words true 6) rest) (hl : c.rest.length < N)
      (hp : Reads (primary expr) (e.words true 6) (fun _ => True) e.Same N) : ∃ e' d start fuel,
        suffixed expr c = suffixes expr start fuel e' d ∧ e.Same e' ∧ d.rest = rest ∧ d.eof = c.eof ∧
        rest.length < fuel := by
    obtain ⟨e', d, hrun, hsame, rfl, hd⟩ := hp c rest hc trivial hl
    exact ⟨e', d, c.peek.span.start, d.rest.length + 1, bind_eq hrun, hsame, rfl, hd, Nat.lt_succ_self _⟩
  induction he generalizing c rest with
  | @call s f args h ha ih =>
    rw [Expr.words_bare (Nat.le_refl 6) fun _ => rfl, Expr.bare] at hc
    obtain ⟨mid, hcf, hca, -⟩ := hc.append
    obtain ⟨f', d, start, fuel, hrun, hsame, rfl, hd, hfuel⟩ := ih hcf hl
    obtain ⟨t, more, hr, hword, hmore⟩ := (hca d rfl).cons
    obtain ⟨fuel, rfl⟩ : ∃ f, fuel = f + 1 := ⟨fuel - 1, by omega⟩
    have hlen := hcf.length_le
    rw [hr, List.length_cons] at hfuel hlen
    have hkind : t.kind = .punct .lParen := congrArg Prod.fst hword
    have heat := eat_run hr
    rw [hkind] at heat
    obtain ⟨args', d', hrun', hargs, rfl, hd'⟩ := (show Reads _ _ (fun _ => True) _ _ from
      reads_arguments hexpr ha) _ rest hmore trivial
      (by dsimp only; omega)
    have hrest := hmore.length_le
    refine ⟨.call ⟨start, max d'.prevEnd start⟩ f' args', d', start, fuel, ?_, .call trivial hsame hargs, rfl,
      hd'.trans hd, by dsimp only at hrest; omega⟩
    rw [hrun, suffixes, eatPunct, bind_eq heat]
    exact bind_eq hrun'
  | @deref s e h ih =>
    rw [Expr.words_bare (Nat.le_refl 6) fun _ => rfl, Expr.bare] at hc
    obtain ⟨mid, hcf, hca, -⟩ := hc.append
    obtain ⟨f', d, start, fuel, hrun, hsame, rfl, hd, hfuel⟩ := ih hcf hl
    obtain ⟨t, more, hr, hword, hmore⟩ := (hca d rfl).cons
    obtain ⟨fuel, rfl⟩ : ∃ f, fuel = f + 1 := ⟨fuel - 1, by omega⟩
    have hkind : t.kind = .punct .dotStar := congrArg Prod.fst hword
    have heat := eat_run hr
    rw [hkind] at heat
    have hother : d.peek.kind ≠ .punct .lParen := by
      rw [peek_cons hr, hkind]
      decide
    obtain ⟨ts, hmore, hts⟩ := hmore
    obtain rfl := List.map_eq_nil_iff.1 hts
    obtain rfl : more = rest := hmore
    rw [hr, List.length_cons] at hfuel
    refine ⟨.deref ⟨start, max t.span.stop start⟩ f', { d with rest := more, prevEnd := t.span.stop }, start, fuel, ?_,
      .deref trivial hsame, rfl, hd, by omega⟩
    rw [hrun, suffixes, eatPunct, eatPunct, bind_eq (eat_other hother)]
    exact bind_eq heat
  | _ => exact base hc hl (reads_primary hexpr (by constructor <;> assumption) (by simp) (by simp))

lemma reads_suffixed (hexpr : ReadsAll expr 0 (N - 1)) {e : Expr} (he : e.Printable) (init : Bool) :
    Reads (suffixed expr) (e.words true 6) (Stops init 5) e.Same N := by
  intro c rest hc hk hl
  obtain ⟨e', d, start, fuel, hrun, hsame, rfl, hd, -⟩ := suffixed_chain hexpr he hc hl
  rw [← hd] at hk
  exact ⟨e', d, hrun.trans (suffixes_stops hk.paren hk.deref start fuel e'), hsame, rfl, hd⟩

lemma reads_sentinel (hexpr : ReadsAll expr 0 N) (hz : ∀ e ∈ z, e.Printable) :
    Reads (after (.punct .colon) expr) (Expr.bareSentinel z) (fun k => k = .punct .rBracket)
      (Option.Rel Expr.Same z) N := by
  cases z with
  | none => exact .eat_no (by rintro _ rfl; decide) (.pure .none)
  | some e =>
    refine .eat_yes rfl (.bindEnd (((hexpr e (hz e rfl)).fewer (Nat.sub_le _ 1)).mono fun k hk => ?_) fun e' he' => ?_)
    · exact stops_close (by simp [hk]) true 0
    · exact .pure (.some he')

lemma next_sentinel (z : Option Expr) (ws : List Word) (k : TokenKind) :
    next (Expr.bareSentinel z ++ Punct.rBracket.word :: ws) k = .punct .colon ∨
      next (Expr.bareSentinel z ++ Punct.rBracket.word :: ws) k = .punct .rBracket := by
  cases z with
  | none => exact .inr rfl
  | some e => exact .inl rfl

lemma reads_pointerTo {operand : Parser Expr} {init : Bool} {c : Expr} (hc : c.Printable)
    (ho : Reads operand (c.words init 5) (Stops init 5) c.Same N) (start : Nat) (s : Span) (size : PtrSize)
    (isConst : Bool) {z' : Option Expr} (hz : Option.Rel Expr.Same z z') :
    Reads (pointerTo operand start size z') (Expr.constWord isConst ++ c.words init 5) (Stops init 5)
      (Expr.ptrType s size isConst z c).Same N := by
  have last (isConst : Bool) : Reads (operand >>= fun child => do
      let span ← spanFrom start
      return Expr.ptrType span size isConst z' child) (c.words init 5) (Stops init 5)
      (Expr.ptrType s size isConst z c).Same N :=
    .bindEnd ho fun c' hc' => .spanFrom fun _ => .pure (.ptrType trivial size isConst hz hc')
  cases isConst with
  | false => exact .eat_no (fun k _ => (opening hc init 5).next_ne rfl k) (last false)
  | true => exact .eat_yes rfl ((last true).fewer (Nat.sub_le _ 1))

section
variable {operand : Bool → Parser Expr} (hexpr : ReadsAll expr 0 (N - 1))
  (ho : ∀ init (e : Expr), e.Printable → Reads (operand init) (e.words init 5) (Stops init 5) e.Same (N - 1))

include hexpr ho

lemma reads_bracketed_ptr {s : Span} {size : PtrSize} {isConst init : Bool} {z : Option Expr} {c : Expr}
    (hz : z ≠ none → size = .many ∨ size = .slice) (hp : ∀ e ∈ z, e.Printable) (hc : c.Printable) (hsize : size ≠ .one)
    (start : Nat) :
    Reads (bracketed operand expr start init) ((Expr.ptrType s size isConst z c).bare init) (Stops init 5)
      (Expr.ptrType s size isConst z c).Same N := by
  have pointer {z' : Option Expr} (size : PtrSize) (hz' : Option.Rel Expr.Same z z') {M : Nat} (hM : M ≤ N - 1) :=
    reads_pointerTo hc ((ho init c hc).fewer hM) start s size isConst hz'
  have hexpr' {M : Nat} (hM : M ≤ N - 1) : ReadsAll expr 0 M := fun e he => (hexpr e he).fewer hM
  cases size with
  | one => exact absurd rfl hsize
  | many =>
    refine .expectPunct fun _ => .eat_yes rfl (.peekKind fun t k _ ht => ?_)
    have hkind : t.kind ≠ .ident := by
      rw [ht]
      obtain h | h := next_sentinel z (Expr.constWord isConst ++ c.within init 5 c.bare) k <;> rw [h] <;> decide
    rw [if_neg (by simp [hkind])]
    exact .bind (reads_sentinel (hexpr' (by omega)) hp) (fun _ _ => rfl) fun z' hz' => .expectPunct fun _ =>
      pointer .many hz' (by omega)
  | c =>
    obtain rfl : z = none := by
      by_contra h
      obtain h | h := hz h <;> cases h
    refine .expectPunct fun _ => .eat_yes rfl (.peek fun t ht => ?_)
    have hkind : t.kind = .ident := congrArg Prod.fst ht
    have htext : t.text = "c" := congrArg Prod.snd ht
    rw [if_pos (by simp [hkind, htext])]
    exact .advance fun _ _ => .expectPunct fun _ => pointer .c .none (by omega)
  | slice =>
    refine .expectPunct fun _ => .eat_no (fun k _ => ?_) ?_
    · obtain h | h := next_sentinel z (Expr.constWord isConst ++ c.within init 5 c.bare) k <;> rw [h] <;> decide
    cases z with
    | none => exact .eat_yes rfl (pointer .slice .none (by omega))
    | some e =>
      refine .eat_no (fun _ _ => (by decide : TokenKind.punct .colon ≠ .punct .rBracket)) (.eat_yes rfl ?_)
      exact .bind (hexpr' (by omega) e (hp e rfl)) (fun _ _ => stops_close (by simp [Punct.word]) _ _) fun e' he' =>
        .expectPunct fun _ => pointer .slice (.some he') (by omega)

end

lemma reads_length (hexpr : ReadsAll expr 0 (N - 1))
    (hparens : ∀ e : Expr, e.Printable → Reads expr (e.words true 6) (Stops true 0) e.Same (N - 1)) (hn : n.Printable) :
    Reads expr (Expr.asLength (n.words true 0)) (Stops true 0) n.Same (N - 1) := by
  unfold Expr.asLength
  split
  · next hstar =>
    have hlevel : n.level < 6 := by
      by_contra hlevel
      obtain ⟨w, ws, hw, hopens⟩ := openingPrimary hn
      rw [Expr.words_bare (by omega) fun _ => rfl, ← Expr.words_bare (Nat.zero_le _) fun _ => rfl] at hw
      simp only [hw, List.head?_cons, Option.map_some, Option.some.injEq] at hstar
      rw [hstar] at hopens
      cases hopens
    rw [Expr.words_bare (Nat.zero_le _) fun _ => rfl, ← Expr.words_parens true (.inl hlevel)]
    exact hparens n hn
  · exact hexpr n hn

lemma next_length (hn : n.Printable) {x : TokenKind} (hx : opens x = false ∨ x = .punct .star) (ws : List Word)
    (k : TokenKind) : next (Expr.asLength (n.words true 0) ++ ws) k ≠ x := by
  obtain ⟨w, rest, hw, hopens⟩ := opening hn true 0
  rw [next_append, hw]
  unfold Expr.asLength
  split
  · rintro rfl
    obtain h | h := hx <;> cases h
  · next hstar =>
    rintro rfl
    obtain h | h := hx
    · rw [next_cons, hopens] at h
      cases h
    · exact hstar (congrArg some h)

lemma reads_array {operand : Bool → Parser Expr} (hexpr : ReadsAll expr 0 (N - 1))
    (hparens : ∀ e : Expr, e.Printable → Reads expr (e.words true 6) (Stops true 0) e.Same (N - 1))
    (ho : ∀ init (e : Expr), e.Printable → Reads (operand init) (e.words init 5) (Stops init 5) e.Same (N - 1))
    {s : Span} {c : Expr} (hn : n.Printable) (hz : ∀ e ∈ z, e.Printable) (hc : c.Printable) {init : Bool}
    {start : Nat} {tail : List Word} {Q : Expr → Prop}
    (hok : ∀ k, ok k → Stops false 5 (next tail k))
    (htail : ∀ array M, M ≤ N - 1 → (Expr.arrayType s n z c).Same array → Reads (do
      if init && (← atPunct .lBrace) then
        let _ ← advance
        let elems ← commaList .rBrace expr (← tokensLeft)
        let _ ← expectPunct .rBrace
        return .arrayInit (← spanFrom start) array elems
      else return array) tail ok Q M) :
    Reads (bracketed operand expr start init) ((Expr.arrayType s n z c).bare init ++ tail) ok Q N := by
  have hw : (Expr.arrayType s n z c).bare init ++ tail = Punct.lBracket.word :: (Expr.asLength (n.words true 0) ++
      (Expr.bareSentinel z ++ Punct.rBracket.word :: (c.words false 5 ++ tail))) := by
    rw [Expr.bare]
    simp [Expr.words]
  rw [hw]
  unfold bracketed
  dsimp only
  refine .expectPunct fun _ => .eat_no (fun k _ => next_length hn (.inr rfl) _ k) <|
    .eat_no (fun k _ => next_length hn (.inl rfl) _ k) <| .eat_no (fun k _ => next_length hn (.inl rfl) _ k) <|
    .bind (reads_length hexpr hparens hn) (fun k _ => ?_) fun n' hn' => ?_
  · exact stops_close (by obtain h | h := next_sentinel z (c.words false 5 ++ tail) k <;> simp [h]) true 0
  refine .bind (reads_sentinel (fun e he => (hexpr e he).fewer (by omega)) hz) (fun _ _ => rfl) fun z' hz' =>
    .expectPunct fun _ => .bind ((ho false c hc).fewer (by omega)) hok fun c' hc' => .spanFrom fun sp => ?_
  exact htail _ _ (by omega) (.arrayType trivial hn' hz' hc')

end

lemma reads_operandAt (depth : Nat) : ∀ init (e : Expr), e.Printable →
    Reads (operandAt depth init) (e.words init 5) (Stops init 5) e.Same depth ∧
      Reads (operandAt depth init) (e.words true 6) (Stops init 5) e.Same depth := by
  induction depth with
  | zero => exact fun _ _ _ => ⟨.none_left (Nat.le_refl 0), .none_left (Nat.le_refl 0)⟩
  | succ depth ih =>
    have hexpr : ReadsAll (levels (operandAt depth true)) 0 depth := readsAll_levels fun e he => (ih true e he).1
    have hparens (e : Expr) (he : e.Printable) :
        Reads (levels (operandAt depth true)) (e.words true 6) (Stops true 0) e.Same depth := (ih true e he).2.levels
    have hinner (init : Bool) (e : Expr) (he : e.Printable) := (ih init e he).1
    have suffix (init : Bool) {e : Expr} (he : e.Printable) :
        Reads (operandAt (depth + 1) init) (e.words true 6) (Stops init 5) e.Same (depth + 1) := by
      have h := reads_suffixed (N := depth + 1) hexpr he init
      obtain ⟨w, ws, hw, hopens⟩ := openingPrimary he
      rw [hw] at h ⊢
      refine .start fun s => .peek fun t ht => ?_
      rw [← ht] at hopens
      change opensPrimary t.kind = true at hopens
      dsimp only
      generalize t.kind = kind at hopens ⊢
      cases kind with
      | punct x => cases x <;> first | exact h | cases hopens
      | _ => exact h
    have bracket (init : Bool) {ws : List Word} {ok : TokenKind → Prop} {Q : Expr → Prop} (h : ∀ start,
        Reads (bracketed (operandAt depth) (levels (operandAt depth true)) start init) (Punct.lBracket.word :: ws) ok Q
          (depth + 1)) : Reads (operandAt (depth + 1) init) (Punct.lBracket.word :: ws) ok Q (depth + 1) := by
      refine .start fun start => .peek fun t ht => ?_
      have hk : t.kind = .punct .lBracket := congrArg Prod.fst ht
      rw [hk]
      exact h start
    intro init e he
    have hs := suffix init he
    refine ⟨?_, hs⟩
    cases he with
    | int | str | bool | null | undefined | unreachable | ident | builtin | call | deref => exact hs
    | @binary s op l r hl hr =>
      have hlevel := op.level_le
      rw [Expr.words_parens _ (.inl (Nat.lt_succ_of_le hlevel)),
        ← Expr.words_parens (e := .binary s op l r) true (.inl (Nat.lt_succ_of_le (Nat.le_succ_of_le hlevel)))]
      exact suffix init (.binary hl hr)
    | @unary s op e h =>
      rw [Expr.words_bare (Nat.le_refl 5) (by simp [Expr.isInit]), Expr.bare]
      cases op
      all_goals
        refine .start fun start => .peek fun t ht => ?_
        rw [show t.kind = _ from congrArg Prod.fst ht]
        exact .advance fun _ _ => .bindEnd (hinner init e h) fun e' he' => .spanFrom fun _ =>
          .pure (.unary trivial _ he')
    | @optionalType s c h =>
      rw [Expr.words_bare (Nat.le_refl 5) (by simp [Expr.isInit]), Expr.bare]
      refine .start fun start => .peek fun t ht => ?_
      have hk : t.kind = .punct .question := congrArg Prod.fst ht
      rw [hk]
      exact .advance fun _ _ => .bindEnd (hinner init c h) fun c' hc' => .spanFrom fun _ =>
        .pure (.optionalType trivial hc')
    | @ptrType s size isConst z c hz hp hc =>
      by_cases hsize : size = .one
      · subst hsize
        obtain rfl : z = none := by
          by_contra h
          obtain h | h := hz h <;> cases h
        rw [Expr.words_bare (Nat.le_refl 5) (by simp [Expr.isInit]), Expr.bare]
        refine .start fun start => .peek fun t ht => ?_
        have hk : t.kind = .punct .star := congrArg Prod.fst ht
        rw [hk]
        exact .advance fun _ _ => reads_pointerTo hc (hinner init c hc) start s .one isConst .none
      · rw [Expr.words_bare (Nat.le_refl 5) (by simp [Expr.isInit])]
        have h (start : Nat) : Reads (bracketed (operandAt depth) _ start init)
            ((Expr.ptrType s size isConst z c).bare init) _ _ (depth + 1) :=
          reads_bracketed_ptr hexpr hinner hz hp hc hsize start
        cases size with
        | one => exact absurd rfl hsize
        | many | slice | c => exact bracket init h
    | @arrayType s n z c hn hz hc =>
      rw [Expr.words_bare (Nat.le_refl 5) (by simp [Expr.isInit]), ← List.append_nil (Expr.bare _ _)]
      refine bracket init fun start => reads_array (N := depth + 1) (s := s) hexpr hparens hinner hn hz hc
        (fun k hk => ⟨nofun, hk.paren, hk.deref, hk.op⟩) fun array M hM harray => ?_
      cases init with
      | true => exact .atKind false (fun k hk => by simpa using hk.brace rfl) (.pure harray)
      | false => exact .step (fun c => ⟨_, atKind_run _ c⟩) fun b => .pure harray
    | @arrayInit s s' n z c xs h hx =>
      cases init with
      | false =>
        rw [Expr.words_parens _ (.inr ⟨rfl, rfl⟩), ← Expr.words_parens (e := .arrayInit s (.arrayType s' n z c) xs) true
          (.inl (Nat.lt_succ_self 5))]
        exact suffix false (.arrayInit h hx)
      | true =>
        rw [Expr.words_bare (Nat.le_refl 5) fun _ => rfl, Expr.bare]
        cases h with
        | arrayType hn hz hc =>
          refine bracket true fun start => reads_array (N := depth + 1) (s := s') hexpr hparens hinner hn hz hc
            (fun k hk => ⟨nofun, (by decide : TokenKind.punct .lBrace ≠ .punct .lParen),
              (by decide : TokenKind.punct .lBrace ≠ .punct .dotStar), fun op ho => ?_⟩) fun array M hM harray => ?_
          · intro hw
            have := levelOf?_word op
            rw [← hw] at this
            cases this
          · exact .atKind true (fun _ _ => rfl) <| .advance fun _ _ => .tokensLeft fun n hn' =>
              .bind (reads_elements (.inr rfl) (fun e he => (hexpr e he).fewer (by omega)) hx (Nat.le_refl n))
                (fun _ _ => rfl)
              fun l hl => .expectPunct fun _ => .spanFrom fun _ => .pure (.arrayInit trivial harray hl)

lemma reads_expr (N : Nat) : ReadsAll expr 0 N := fun e he =>
  .tokensLeft fun n _ => readsAll_levels (fun e he => (reads_operandAt n true e he).1) e he

end Frontend.Parse
