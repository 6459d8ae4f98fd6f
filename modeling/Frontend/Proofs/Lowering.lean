import Frontend.Proofs.Matching.State

/-! Lowering follows the shape of an item. Items that differ in the places of their text only are lowered to the same
code, whose places correspond, or refused for the same cause at places that correspond. What scope an item stands in
makes no difference. -/

namespace Frontend

open Analysis (Pointwise)

/-! Syntax trees that differ in the places of their text. -/

structure Ident.Like (R : Span → Span → Prop) (i i' : Ident) : Prop where
  name : i'.name = i.name
  span : R i.span i'.span

inductive Expr.Like (R : Span → Span → Prop) : Expr → Expr → Prop
  | int {s s'} (h : R s s') (v : Int) : Like R (.int s v) (.int s' v)
  | float {s s'} (h : R s s') (f : Binary64) : Like R (.float s f) (.float s' f)
  | str {s s'} (h : R s s') (t : String) : Like R (.str s t) (.str s' t)
  | bool {s s'} (h : R s s') (b : Bool) : Like R (.bool s b) (.bool s' b)
  | null {s s'} (h : R s s') : Like R (.null s) (.null s')
  | undefined {s s'} (h : R s s') : Like R (.undefined s) (.undefined s')
  | unreachable {s s'} (h : R s s') : Like R (.unreachable s) (.unreachable s')
  | ident {s s'} (h : R s s') (name : String) : Like R (.ident s name) (.ident s' name)
  | builtin {s s' args args'} (h : R s s') (name : String) (ha : List.Forall₂ (Like R) args args') :
      Like R (.builtin s name args) (.builtin s' name args')
  | unary {s s' e e'} (h : R s s') (op : UnaryOp) (he : Like R e e') : Like R (.unary s op e) (.unary s' op e')
  | binary {s s' l l' r r'} (h : R s s') (op : BinaryOp) (hl : Like R l l') (hr : Like R r r') :
      Like R (.binary s op l r) (.binary s' op l' r')
  | call {s s' f f' args args'} (h : R s s') (hf : Like R f f') (ha : List.Forall₂ (Like R) args args') :
      Like R (.call s f args) (.call s' f' args')
  | deref {s s' e e'} (h : R s s') (he : Like R e e') : Like R (.deref s e) (.deref s' e')
  | ptrType {s s' z z' c c'} (h : R s s') (size : PtrSize) (isConst : Bool) (hz : Option.Rel (Like R) z z')
      (hc : Like R c c') : Like R (.ptrType s size isConst z c) (.ptrType s' size isConst z' c')
  | arrayType {s s' n n' z z' c c'} (h : R s s') (hn : Like R n n') (hz : Option.Rel (Like R) z z') (hc : Like R c c') :
      Like R (.arrayType s n z c) (.arrayType s' n' z' c')
  | optionalType {s s' c c'} (h : R s s') (hc : Like R c c') : Like R (.optionalType s c) (.optionalType s' c')
  | arrayInit {s s' t t' xs xs'} (h : R s s') (ht : Like R t t') (hx : List.Forall₂ (Like R) xs xs') :
      Like R (.arrayInit s t xs) (.arrayInit s' t' xs')

variable {R : Span → Span → Prop}

lemma Expr.Like.span {e e' : Expr} (h : e.Like R e') : R e.span e'.span := by
  cases h <;> assumption

mutual

inductive Stmt.Like (R : Span → Span → Prop) : Stmt → Stmt → Prop
  | define {s s' n n' t t' i i'} (h : R s s') (hn : n.Like R n') (isMutable : Bool) (ht : Option.Rel (Expr.Like R) t t')
      (hi : i.Like R i') : Stmt.Like R (.define s n isMutable t i) (.define s' n' isMutable t' i')
  | assign {s s' t t' v v'} (h : R s s') (ht : t.Like R t') (hv : v.Like R v') :
      Stmt.Like R (.assign s t v) (.assign s' t' v')
  | expr {s s' e e'} (h : R s s') (he : e.Like R e') : Stmt.Like R (.expr s e) (.expr s' e')
  | ret {s s' v v'} (h : R s s') (hv : Option.Rel (Expr.Like R) v v') : Stmt.Like R (.ret s v) (.ret s' v')
  | cond {s s' c c' t t' e e'} (h : R s s') (hc : c.Like R c') (ht : Block.Like R t t')
      (he : Option.Rel (Stmt.Like R) e e') : Stmt.Like R (.cond s c t e) (.cond s' c' t' e')
  | loop {s s' c c' b b'} (h : R s s') (hc : c.Like R c') (hb : Block.Like R b b') :
      Stmt.Like R (.loop s c b) (.loop s' c' b')
  | block {s s' b b'} (h : R s s') (hb : Block.Like R b b') : Stmt.Like R (.block s b) (.block s' b')
  | comptime {s s' b b'} (h : R s s') (hb : Block.Like R b b') : Stmt.Like R (.comptime s b) (.comptime s' b')
  | leave {s s'} (h : R s s') : Stmt.Like R (.leave s) (.leave s')
  | next {s s'} (h : R s s') : Stmt.Like R (.next s) (.next s')

inductive Block.Like (R : Span → Span → Prop) : Block → Block → Prop
  | mk {s s' ss ss'} (h : R s s') (hs : List.Forall₂ (Stmt.Like R) ss ss') : Block.Like R (.mk s ss) (.mk s' ss')

end

lemma Block.Like.span {b b' : Block} (h : b.Like R b') : R b.span b'.span := by
  cases h
  assumption

structure Modifiers.Like (R : Span → Span → Prop) (m m' : Modifiers) : Prop where
  marks : List.Forall₂ (fun x y => y.1 = x.1 ∧ R x.2 y.2) m.marks m'.marks
  library : Option.Rel (fun x y => y.1 = x.1 ∧ R x.2 y.2) m.library m'.library

structure Param.Like (R : Span → Span → Prop) (p p' : Param) : Prop where
  name : p.name.Like R p'.name
  ty : p.ty.Like R p'.ty

structure FnItem.Like (R : Span → Span → Prop) (f f' : FnItem) : Prop where
  name : f.name.Like R f'.name
  modifiers : f.modifiers.Like R f'.modifiers
  params : List.Forall₂ (Param.Like R) f.params f'.params
  ret : f.ret.Like R f'.ret
  callConv : Option.Rel (Expr.Like R) f.callConv f'.callConv
  align : Option.Rel (Expr.Like R) f.align f'.align
  linkSection : Option.Rel (Expr.Like R) f.linkSection f'.linkSection
  body : Option.Rel (Block.Like R) f.body f'.body
  keyword : R f.keyword f'.keyword

structure VarItem.Like (R : Span → Span → Prop) (v v' : VarItem) : Prop where
  name : v.name.Like R v'.name
  modifiers : v.modifiers.Like R v'.modifiers
  isMutable : v'.isMutable = v.isMutable
  keyword : R v.keyword v'.keyword
  ty : Option.Rel (Expr.Like R) v.ty v'.ty
  align : Option.Rel (Expr.Like R) v.align v'.align
  linkSection : Option.Rel (Expr.Like R) v.linkSection v'.linkSection
  init : Option.Rel (Expr.Like R) v.init v'.init

inductive ItemKind.Like (R : Span → Span → Prop) : ItemKind → ItemKind → Prop
  | fn {f f'} (h : f.Like R f') : Like R (.fn f) (.fn f')
  | var {v v'} (h : v.Like R v') : Like R (.var v) (.var v')
  | comptime {b b'} (h : b.Like R b') : Like R (.comptime b) (.comptime b')
  | test {b b'} (name : String) (h : b.Like R b') : Like R (.test name b) (.test name b')
  | usingNamespace {e e'} (h : e.Like R e') : Like R (.usingNamespace e) (.usingNamespace e')
  | field {n n' t t' d d'} (hn : n.Like R n') (ht : t.Like R t') (hd : Option.Rel (Expr.Like R) d d') :
      Like R (.field n t d) (.field n' t' d')

structure Item.Like (R : Span → Span → Prop) (it it' : Item) : Prop where
  kind : it.kind.Like R it'.kind
  isPublic : it'.isPublic = it.isPublic
  span : R it.span it'.span

/-! An item is like itself. -/

section
variable {R : Span → Span → Prop}

mutual

theorem Expr.Like.refl (hR : ∀ s, R s s) : ∀ e : Expr, e.Like R e
  | .int s v => .int (hR s) v
  | .float s f => .float (hR s) f
  | .str s t => .str (hR s) t
  | .bool s b => .bool (hR s) b
  | .null s => .null (hR s)
  | .undefined s => .undefined (hR s)
  | .unreachable s => .unreachable (hR s)
  | .ident s name => .ident (hR s) name
  | .builtin s name args => .builtin (hR s) name (Expr.Like.reflAll hR args)
  | .unary s op e => .unary (hR s) op (Expr.Like.refl hR e)
  | .binary s op l r => .binary (hR s) op (Expr.Like.refl hR l) (Expr.Like.refl hR r)
  | .call s f args => .call (hR s) (Expr.Like.refl hR f) (Expr.Like.reflAll hR args)
  | .deref s e => .deref (hR s) (Expr.Like.refl hR e)
  | .ptrType s size isConst z c => .ptrType (hR s) size isConst (Expr.Like.reflOption hR z) (Expr.Like.refl hR c)
  | .arrayType s n z c => .arrayType (hR s) (Expr.Like.refl hR n) (Expr.Like.reflOption hR z) (Expr.Like.refl hR c)
  | .optionalType s c => .optionalType (hR s) (Expr.Like.refl hR c)
  | .arrayInit s t xs => .arrayInit (hR s) (Expr.Like.refl hR t) (Expr.Like.reflAll hR xs)

theorem Expr.Like.reflAll (hR : ∀ s, R s s) : ∀ es : List Expr, List.Forall₂ (Expr.Like R) es es
  | [] => .nil
  | e :: es => .cons (Expr.Like.refl hR e) (Expr.Like.reflAll hR es)

theorem Expr.Like.reflOption (hR : ∀ s, R s s) : ∀ e : Option Expr, Option.Rel (Expr.Like R) e e
  | none => .none
  | some e => .some (Expr.Like.refl hR e)

end

lemma Ident.Like.refl (hR : ∀ s, R s s) (i : Ident) : i.Like R i := ⟨rfl, hR i.span⟩

mutual

theorem Stmt.Like.refl (hR : ∀ s, R s s) : ∀ s : Stmt, s.Like R s
  | .define s n isMutable t i => .define (hR s) (.refl hR n) isMutable (Expr.Like.reflOption hR t) (Expr.Like.refl hR i)
  | .assign s t v => .assign (hR s) (Expr.Like.refl hR t) (Expr.Like.refl hR v)
  | .expr s e => .expr (hR s) (Expr.Like.refl hR e)
  | .ret s v => .ret (hR s) (Expr.Like.reflOption hR v)
  | .cond s c t e => .cond (hR s) (Expr.Like.refl hR c) (Block.Like.refl hR t) (Stmt.Like.reflOption hR e)
  | .loop s c b => .loop (hR s) (Expr.Like.refl hR c) (Block.Like.refl hR b)
  | .block s b => .block (hR s) (Block.Like.refl hR b)
  | .comptime s b => .comptime (hR s) (Block.Like.refl hR b)
  | .leave s => .leave (hR s)
  | .next s => .next (hR s)

theorem Stmt.Like.reflAll (hR : ∀ s, R s s) : ∀ ss : List Stmt, List.Forall₂ (Stmt.Like R) ss ss
  | [] => .nil
  | s :: ss => .cons (Stmt.Like.refl hR s) (Stmt.Like.reflAll hR ss)

theorem Stmt.Like.reflOption (hR : ∀ s, R s s) : ∀ s : Option Stmt, Option.Rel (Stmt.Like R) s s
  | none => .none
  | some s => .some (Stmt.Like.refl hR s)

theorem Block.Like.refl (hR : ∀ s, R s s) : ∀ b : Block, b.Like R b
  | .mk s ss => .mk (hR s) (Stmt.Like.reflAll hR ss)

end

lemma Modifiers.Like.refl (hR : ∀ s, R s s) (m : Modifiers) : m.Like R m where
  marks := List.forall₂_same.2 fun x _ => ⟨rfl, hR x.2⟩
  library := by
    cases m.library with
    | none => exact .none
    | some x => exact .some ⟨rfl, hR x.2⟩

lemma FnItem.Like.refl (hR : ∀ s, R s s) (f : FnItem) : f.Like R f where
  name := .refl hR f.name
  modifiers := .refl hR f.modifiers
  params := List.forall₂_same.2 fun p _ => ⟨.refl hR p.name, .refl hR p.ty⟩
  ret := .refl hR f.ret
  callConv := Expr.Like.reflOption hR f.callConv
  align := Expr.Like.reflOption hR f.align
  linkSection := Expr.Like.reflOption hR f.linkSection
  body := by
    cases f.body with
    | none => exact .none
    | some b => exact .some (.refl hR b)
  keyword := hR f.keyword

lemma VarItem.Like.refl (hR : ∀ s, R s s) (v : VarItem) : v.Like R v where
  name := .refl hR v.name
  modifiers := .refl hR v.modifiers
  isMutable := rfl
  keyword := hR v.keyword
  ty := Expr.Like.reflOption hR v.ty
  align := Expr.Like.reflOption hR v.align
  linkSection := Expr.Like.reflOption hR v.linkSection
  init := Expr.Like.reflOption hR v.init

lemma Item.Like.refl (hR : ∀ s, R s s) (it : Item) : it.Like R it where
  kind := by
    cases it.kind with
    | fn f => exact .fn (.refl hR f)
    | var v => exact .var (.refl hR v)
    | comptime b => exact .comptime (.refl hR b)
    | test name b => exact .test name (.refl hR b)
    | usingNamespace e => exact .usingNamespace (.refl hR e)
    | field n t d => exact .field (.refl hR n) (.refl hR t) (Expr.Like.reflOption hR d)
  isPublic := rfl
  span := hR it.span

end

namespace Modifiers.Like
variable {R : Span → Span → Prop} {m m' : Modifiers}

lemma has_eq (h : m.Like R m') (k : Modifier) : m'.has k = m.has k := by
  obtain ⟨hm, -⟩ := h
  unfold has
  generalize m.marks = xs at hm
  generalize m'.marks = ys at hm
  induction hm with
  | nil => rfl
  | cons hxy _ ih => rw [List.any_cons, List.any_cons, hxy.1, ih]

lemma spanOf? (h : m.Like R m') (k : Modifier) : Option.Rel R (m.spanOf? k) (m'.spanOf? k) := by
  obtain ⟨hm, -⟩ := h
  unfold Modifiers.spanOf?
  generalize m.marks = xs at hm
  generalize m'.marks = ys at hm
  induction hm with
  | nil => exact .none
  | @cons x y _ _ hxy _ ih =>
    rw [List.find?_cons, List.find?_cons, hxy.1]
    split
    · exact .some hxy.2
    · exact ih

end Modifiers.Like

lemma Item.Like.isExported_eq {it it' : Item} (h : it.Like R it') : it'.isExported = it.isExported := by
  obtain ⟨hk, -, -⟩ := h
  unfold isExported
  generalize it.kind = k at hk
  generalize it'.kind = k' at hk
  cases hk with
  | fn h | var h => exact h.modifiers.has_eq _
  | _ => rfl

namespace Untyped

/-! Lowered code that differs in the places it comes from. -/

structure Code.Like (R : Span → Span → Prop) (c c' : Code) : Prop where
  insts : c'.insts = c.insts
  spans : Pointwise R c.spans c'.spans

structure Fn.Like (R : Span → Span → Prop) (f f' : Fn) : Prop where
  code : f.code.Like R f'.code
  signature : f'.signature = f.signature
  params : f'.params = f.params
  body : f'.body = f.body
  isInline : f'.isInline = f.isInline

structure Var.Like (R : Span → Span → Prop) (v v' : Var) : Prop where
  code : v.code.Like R v'.code
  ty : v'.ty = v.ty
  init : v'.init = v.init
  isMutable : v'.isMutable = v.isMutable
  isExternal : v'.isExternal = v.isExternal
  isThreadLocal : v'.isThreadLocal = v.isThreadLocal
  keyword : R v.keyword v'.keyword

structure Comptime.Like (R : Span → Span → Prop) (b b' : Comptime) : Prop where
  code : b.code.Like R b'.code
  body : b'.body = b.body

inductive DeclKind.Like (R : Span → Span → Prop) : DeclKind → DeclKind → Prop
  | fn {f f'} (h : f.Like R f') : Like R (.fn f) (.fn f')
  | var {v v'} (h : v.Like R v') : Like R (.var v) (.var v')
  | comptime {b b'} (h : b.Like R b') : Like R (.comptime b) (.comptime b')

structure Decl.Like (R : Span → Span → Prop) (d d' : Decl) : Prop where
  name : d'.name = d.name
  isExported : d'.isExported = d.isExported
  src : R d.src d'.src
  kind : d.kind.Like R d'.kind

lemma Code.Like.eq_of_eq {c c' : Code} (h : c.Like Eq c') : c' = c := by
  have hspans : c'.spans = c.spans := by
    refine Array.ext_getElem? fun i => ?_
    have hi := h.spans i
    generalize c.spans[i]? = x at hi
    generalize c'.spans[i]? = y at hi
    cases hi with
    | none => rfl
    | some he => rw [he]
  obtain ⟨insts, spans⟩ := c
  obtain ⟨insts', spans'⟩ := c'
  cases h.insts
  cases hspans
  rfl

lemma DeclKind.Like.eq_of_eq {k k' : DeclKind} (h : k.Like Eq k') : k' = k := by
  cases h with
  | @fn f f' hf =>
    have hcode := hf.code.eq_of_eq
    obtain ⟨-, hs, hp, hb, hi⟩ := hf
    cases f
    cases f'
    simp_all
  | @var v v' hv =>
    have hcode := hv.code.eq_of_eq
    obtain ⟨-, ht, hi, hm, he, hl, hk⟩ := hv
    cases v
    cases v'
    simp_all
  | @comptime b b' hb =>
    have hcode := hb.code.eq_of_eq
    obtain ⟨-, hbody⟩ := hb
    cases b
    cases b'
    simp_all

lemma Decl.Like.eq_of_eq {d d' : Decl} (h : d.Like Eq d') : d' = d := by
  have hkind := h.kind.eq_of_eq
  obtain ⟨hn, hx, hs, -⟩ := h
  cases d
  cases d'
  simp_all

def SameLocals (s s' : Scope) : Prop := ∀ name, s'.lookupLocal? name = s.lookupLocal? name

lemma SameLocals.localValue {s s' : Scope} (h : SameLocals s s') (name : String) (r : Ref) :
    SameLocals (.localValue s name r) (.localValue s' name r) := by
  intro n
  simp only [Scope.lookupLocal?, h n]

lemma SameLocals.localSlot {s s' : Scope} (h : SameLocals s s') (name : String) (r : Ref) :
    SameLocals (.localSlot s name r) (.localSlot s' name r) := by
  intro n
  simp only [Scope.lookupLocal?, h n]

structure Draft.Like (R : Span → Span → Prop) (d d' : Draft) : Prop where
  code : d.code.Like R d'.code
  body : d'.body = d.body

inductive Lower.Ends {α β : Type} (R : Span → Span → Prop) (A : α → β → Prop) :
    Except LowerError (α × Draft) → Except LowerError (β × Draft) → Prop
  | ok {a b d d'} (ha : A a b) (hd : d.Like R d') : Ends R A (.ok (a, d)) (.ok (b, d'))
  | error {s s'} (h : R s s') (cause : LowerCause) : Ends R A (.error ⟨s, cause⟩) (.error ⟨s', cause⟩)

def Lower.Follows {α β : Type} (R : Span → Span → Prop) (A : α → β → Prop) (m : Lower α) (m' : Lower β) : Prop :=
  ∀ d d', d.Like R d' → Lower.Ends R A (m d) (m' d')

namespace Lower
variable {α β γ δ : Type} {R : Span → Span → Prop} {A : α → β → Prop} {B : γ → δ → Prop} {m : Lower α} {m' : Lower β}
  {s s' : Scope} {span span' : Span}

namespace Follows

lemma pure {a : α} {b : β} (h : A a b) : Follows R A (Pure.pure a) (Pure.pure b) := fun _ _ hd => .ok h hd

variable {f : α → Lower γ} {f' : β → Lower δ}

lemma bind (hm : Follows R A m m') (hf : ∀ a b, A a b → Follows R B (f a) (f' b)) :
    Follows R B (m >>= f) (m' >>= f') := by
  intro d d' hd
  have h := hm d d' hd
  show Ends R B ((m d).bind fun x => f x.1 x.2) ((m' d').bind fun x => f' x.1 x.2)
  generalize m d = x at h
  generalize m' d' = y at h
  cases h with
  | ok ha hd => exact hf _ _ ha _ _ hd
  | error h cause => exact .error h cause

lemma bindEq {m' : Lower α} {f' : α → Lower δ} (hm : Follows R Eq m m') (hf : ∀ a, Follows R B (f a) (f' a)) :
    Follows R B (m >>= f) (m' >>= f') :=
  hm.bind fun a _ h => h ▸ hf a

lemma fail (h : R span span') (cause : LowerCause) : Follows R A (Lower.fail span cause) (Lower.fail span' cause) :=
  fun _ _ _ => .error h cause

lemma failThen (h : R span span') (cause : LowerCause) :
    Follows R B (Lower.fail span cause >>= f) (Lower.fail span' cause >>= f') := fun _ _ _ => .error h cause

lemma ite {c : Prop} [Decidable c] {n : Lower α} {n' : Lower β} (ht : c → Follows R A m m')
    (hf : ¬ c → Follows R A n n') : Follows R A (if c then m else n) (if c then m' else n') := by
  split
  · exact ht ‹c›
  · exact hf ‹¬ c›

lemma guard {c : Prop} [Decidable c] (h : R span span') {cause : LowerCause} {k : Unit → Lower α} {k' : Unit → Lower β}
    (hk : Follows R A (k ()) (k' ())) :
    Follows R A (if c then Lower.fail span cause >>= k else k ())
      (if c then Lower.fail span' cause >>= k' else k' ()) :=
  .ite (fun _ => .failThen h cause) fun _ => hk

end Follows

lemma emit_follows (h : R span span') (inst : Inst) : Follows R Eq (emit inst span) (emit inst span') := by
  intro d d' hd
  have hsize : d'.code.size = d.code.size := congrArg Array.size hd.code.insts
  refine .ok hsize.symm ⟨⟨?_, hd.code.spans.push h⟩, ?_⟩
  · show d'.code.insts.push inst = d.code.insts.push inst
    rw [hd.code.insts]
  · show d'.body ++ [d'.code.size] = d.body ++ [d.code.size]
    rw [hd.body, hsize]

lemma inBody_follows (hm : Follows R A m m') :
    Follows R (fun x y => A x.1 y.1 ∧ y.2 = x.2) (inBody m) (inBody m') := by
  intro d d' hd
  have h := hm { d with body := [] } { d' with body := [] } ⟨hd.code, rfl⟩
  show Ends R _ ((m { d with body := [] }).bind fun x => .ok ((x.1, x.2.body), { x.2 with body := d.body }))
    ((m' { d' with body := [] }).bind fun x => .ok ((x.1, x.2.body), { x.2 with body := d'.body }))
  generalize m { d with body := [] } = x at h
  generalize m' { d' with body := [] } = y at h
  cases h with
  | ok ha hd₁ => exact .ok ⟨ha, hd₁.body⟩ ⟨hd₁.code, hd.body⟩
  | error h cause => exact .error h cause

lemma primitive_follows (h : R span span') (name : String) :
    Follows R Eq (primitive name span) (primitive name span') := by
  unfold primitive
  split
  · exact .pure rfl
  · exact .fail h _

lemma ident_follows (hs : SameLocals s s') (h : R span span') (name : String) :
    Follows R Eq (ident s span name) (ident s' span' name) := by
  unfold ident
  rw [hs name]
  split
  · exact .pure rfl
  · exact emit_follows h _
  · refine .bindEq (primitive_follows h name) fun t => ?_
    cases t with
    | some t | none => exact emit_follows h _

lemma identAddress_follows (hs : SameLocals s s') (h : R span span') {inner inner' : Span} (hi : R inner inner')
    (name : String) : Follows R Eq (identAddress s span inner name) (identAddress s' span' inner' name) := by
  unfold identAddress
  rw [hs name]
  split
  · exact .pure rfl
  · exact emit_follows h _
  · split
    · exact .bindEq (ident_follows hs hi name) fun r => emit_follows h _
    · exact emit_follows h _

lemma builtinOf_follows (h : R span span') (name : String) {args args' : List Expr}
    (ha : args'.length = args.length) : Follows R Eq (builtinOf span name args) (builtinOf span' name args') := by
  unfold builtinOf
  split
  · exact .fail h _
  · rw [ha]
    exact .ite (fun _ => .pure rfl) fun _ => .fail h _

lemma nameOf_follows {e e' : Expr} (h : e.Like R e') : Follows R Eq (nameOf e) (nameOf e') := by
  cases h with
  | ident h name => exact .pure rfl
  | _ => exact .fail ‹_› _

lemma stringOf_follows {e e' : Expr} (h : e.Like R e') : Follows R Eq (stringOf e) (stringOf e') := by
  cases h with
  | str h t => exact .pure rfl
  | _ => exact .fail ‹_› _

lemma builtinInst_follows (b : Builtin) {args args' : List Expr} (ha : List.Forall₂ (Expr.Like R) args args')
    (refs : List Ref) : Follows R Eq (builtinInst b args refs) (builtinInst b args' refs) := by
  -- The arguments are looked at for two of the builtins only.
  cases b with
  | exportSymbol =>
    cases ha with
    | nil => exact .pure rfl
    | cons hx hr =>
      cases hr with
      | nil => exact .pure rfl
      | cons hy hr =>
        cases hr with
        | nil => exact .bindEq (nameOf_follows hx) fun _ => .bindEq (stringOf_follows hy) fun _ => .pure rfl
        | cons _ _ => exact .pure rfl
  | compileError =>
    cases ha with
    | nil => exact .pure rfl
    | cons hx hr =>
      cases hr with
      | nil => exact .bindEq (stringOf_follows hx) fun _ => .pure rfl
      | cons _ _ => exact .pure rfl
  | coerce | vector => rcases refs with _ | ⟨_, _ | ⟨_, _ | _⟩⟩ <;> exact .pure rfl
  | breakpoint => exact .pure rfl

mutual

theorem expr_follows (hs : SameLocals s s') : ∀ {e e' : Expr}, e.Like R e' → Follows R Eq (expr s e) (expr s' e')
  | _, _, .int h _ | _, _, .float h _ | _, _, .str h _ | _, _, .bool h _ | _, _, .null h | _, _, .undefined h
  | _, _, .unreachable h => by
    unfold expr
    exact emit_follows h _
  | _, _, .ident h name => by
    unfold expr
    exact ident_follows hs h name
  | _, _, .builtin h name ha => by
    unfold expr
    refine .bindEq (builtinOf_follows h name ha.length_eq.symm) fun b => ?_
    have rest (refs : List Ref) := Follows.bindEq (builtinInst_follows b ha refs) fun inst => emit_follows h inst
    exact .ite (fun _ => .bindEq (exprs_follows hs ha) rest) fun _ => .bindEq (.pure rfl) rest
  | _, _, .unary h op he => by
    cases op with
    | negate =>
      unfold expr
      exact .bindEq (expr_follows hs he) fun r => emit_follows h _
    | not =>
      unfold expr
      exact .bindEq (expr_follows hs he) fun r => emit_follows h _
    | addressOf =>
      cases he with
      | ident hi name =>
        unfold expr
        exact identAddress_follows hs h hi name
      | _ =>
        unfold expr
        exact .bindEq (expr_follows hs (by constructor <;> assumption)) fun r => emit_follows h _
  | _, _, .binary h op hl hr => by
    unfold expr
    exact .bindEq (expr_follows hs hl) fun l => .bindEq (expr_follows hs hr) fun r => emit_follows h _
  | _, _, .call h hf ha => by
    unfold expr
    exact .bindEq (expr_follows hs hf) fun f => .bindEq (exprs_follows hs ha) fun args => emit_follows h _
  | _, _, .deref h he => by
    unfold expr
    exact .bindEq (expr_follows hs he) fun r => emit_follows h _
  | _, _, .ptrType h size isConst hz hc => by
    unfold expr
    exact .bindEq (expr?_follows hs hz) fun z => .bindEq (expr_follows hs hc) fun c => emit_follows h _
  | _, _, .arrayType h hn hz hc => by
    unfold expr
    refine .bindEq (expr_follows hs hn) fun n => .bindEq (expr?_follows hs hz) fun z => ?_
    exact .bindEq (expr_follows hs hc) fun c => emit_follows h _
  | _, _, .optionalType h hc => by
    unfold expr
    exact .bindEq (expr_follows hs hc) fun r => emit_follows h _
  | _, _, .arrayInit h ht hx => by
    unfold expr
    exact .bindEq (expr_follows hs ht) fun t => .bindEq (exprs_follows hs hx) fun xs => emit_follows h _

theorem exprs_follows (hs : SameLocals s s') :
    ∀ {es es' : List Expr}, List.Forall₂ (Expr.Like R) es es' → Follows R Eq (exprs s es) (exprs s' es')
  | _, _, .nil => by
    unfold exprs
    exact .pure rfl
  | _, _, .cons he hr => by
    unfold exprs
    exact .bindEq (expr_follows hs he) fun r => .bindEq (exprs_follows hs hr) fun rs => .pure rfl

theorem expr?_follows (hs : SameLocals s s') :
    ∀ {e e' : Option Expr}, Option.Rel (Expr.Like R) e e' → Follows R Eq (expr? s e) (expr? s' e')
  | _, _, .none => by
    unfold expr?
    exact .pure rfl
  | _, _, .some he => by
    unfold expr?
    exact .bindEq (expr_follows hs he) fun r => .pure rfl

end

lemma computation_follows (hs : SameLocals s s') {e e' : Expr} (he : e.Like R e') :
    Follows R Eq (computation s e) (computation s' e') := by
  refine .bind (inBody_follows (expr_follows hs he)) fun x y hxy => ?_
  rw [Prod.ext hxy.1 hxy.2.symm]
  exact .pure rfl

lemma assign_follows (hs : SameLocals s s') (h : R span span') {t t' v v' : Expr} (ht : t.Like R t')
    (hv : v.Like R v') : Follows R Eq (assign s span t v) (assign s' span' t' v') := by
  have stored (ptr : Ref) : Follows R Eq (assign.storeTo s span v ptr) (assign.storeTo s' span' v' ptr) :=
    .bindEq (expr_follows hs hv) fun r => .bindEq (emit_follows h _) fun _ => .pure rfl
  unfold assign
  cases ht with
  | ident hi name =>
    dsimp only
    refine .ite (fun _ => .bindEq (expr_follows hs hv) fun _ => .pure rfl) fun _ => ?_
    rw [hs name]
    split
    · exact .bindEq (.pure rfl) stored
    · exact .failThen hi _
    · exact .bindEq (emit_follows hi _) stored
  | deref _ he => exact .bindEq (expr_follows hs he) stored
  | _ => exact .fail ‹_› _

mutual

theorem stmt_follows (place : Place) {s s' : Scope} (hs : SameLocals s s') :
    ∀ {x x' : Stmt}, x.Like R x' → Follows R SameLocals (stmt place s x) (stmt place s' x')
  | _, _, .define h hn isMutable ht hi => by
    unfold stmt
    rw [hn.name, hs]
    refine .guard hn.span (.bindEq (expr?_follows hs ht) fun t => .bindEq (expr_follows hs hi) fun v => ?_)
    refine .ite (fun _ => .bindEq (emit_follows h _) fun r => .pure (hs.localSlot _ r)) fun _ => ?_
    cases t with
    | some t => exact .bindEq (emit_follows hi.span _) fun r => .pure (hs.localValue _ r)
    | none => exact .pure (hs.localValue _ v)
  | _, _, .assign h ht hv => by
    unfold stmt
    exact .bindEq (assign_follows hs h ht hv) fun _ => .pure hs
  | _, _, .expr _ he => by
    unfold stmt
    exact .bindEq (expr_follows hs he) fun _ => .pure hs
  | _, _, .ret h hv => by
    unfold stmt
    refine .guard h (.bindEq (expr?_follows hs hv) fun v => ?_)
    exact .bindEq (emit_follows h _) fun _ => .pure hs
  | _, _, .cond h hc ht he => by
    unfold stmt
    refine .bindEq (expr_follows hs hc) fun c => .bind (inBody_follows (block_follows place hs ht)) fun x y hxy => ?_
    refine .bind (inBody_follows (stmt?_follows place hs he)) fun u v huv => ?_
    dsimp only
    rw [hxy.2, huv.2]
    exact .bindEq (emit_follows h _) fun _ => .pure hs
  | _, _, .loop h hc hb => by
    unfold stmt
    refine .bind (inBody_follows (expr_follows hs hc)) fun x y hxy => ?_
    refine .bind (inBody_follows (block_follows { place with inLoop := true } hs hb)) fun u v huv => ?_
    dsimp only
    rw [hxy.2, huv.2, ← hxy.1]
    exact .bindEq (emit_follows h _) fun _ => .pure hs
  | _, _, .block h hb => by
    unfold stmt
    refine .bind (inBody_follows (block_follows place hs hb)) fun x y hxy => ?_
    dsimp only
    rw [hxy.2]
    exact .bindEq (emit_follows h _) fun _ => .pure hs
  | _, _, .comptime h hb => by
    unfold stmt
    refine .bind (inBody_follows (block_follows place hs hb)) fun x y hxy => ?_
    dsimp only
    rw [hxy.2]
    exact .bindEq (emit_follows h _) fun _ => .pure hs
  | _, _, .leave h => by
    unfold stmt
    exact .guard h (.bindEq (emit_follows h _) fun _ => .pure hs)
  | _, _, .next h => by
    unfold stmt
    exact .guard h (.bindEq (emit_follows h _) fun _ => .pure hs)

theorem stmts_follows (place : Place) {s s' : Scope} (hs : SameLocals s s') :
    ∀ {xs xs' : List Stmt}, List.Forall₂ (Stmt.Like R) xs xs' → Follows R Eq (stmts place s xs) (stmts place s' xs')
  | _, _, .nil => by
    unfold stmts
    exact .pure rfl
  | _, _, .cons hx hr => by
    unfold stmts
    exact .bind (stmt_follows place hs hx) fun _ _ hs => stmts_follows place hs hr

theorem stmt?_follows (place : Place) {s s' : Scope} (hs : SameLocals s s') :
    ∀ {x x' : Option Stmt}, Option.Rel (Stmt.Like R) x x' → Follows R Eq (stmt? place s x) (stmt? place s' x')
  | _, _, .none => by
    unfold stmt?
    exact .pure rfl
  | _, _, .some hx => by
    unfold stmt?
    exact .bind (stmt_follows place hs hx) fun _ _ _ => .pure rfl

theorem block_follows (place : Place) {s s' : Scope} (hs : SameLocals s s') :
    ∀ {b b' : Block}, b.Like R b' → Follows R Eq (block place s b) (block place s' b')
  | _, _, .mk _ hx => by
    unfold block
    exact stmts_follows place hs hx

end

lemma checkSupported_follows {m m' : Modifiers} (hm : m.Like R m') {a a' l l' : Option Expr}
    (ha : Option.Rel (Expr.Like R) a a') (hl : Option.Rel (Expr.Like R) l l') :
    Follows R Eq (checkSupported m a l) (checkSupported m' a' l') := by
  have hlibrary := hm.library
  unfold checkSupported
  generalize m.library = x at hlibrary
  generalize m'.library = y at hlibrary
  cases ha with
  | some h => exact .failThen h.span _
  | none =>
    cases hl with
    | some h => exact .failThen h.span _
    | none =>
      cases hlibrary with
      | none => exact .pure rfl
      | some h => exact .fail h.2 _

lemma params_follows (hs : SameLocals s s') {ps ps' : List Param} (hp : List.Forall₂ (Param.Like R) ps ps')
    (seen : List String) : Follows R Eq (params s seen ps) (params s' seen ps') := by
  induction hp generalizing seen with
  | nil => exact .pure rfl
  | cons h _ ih =>
    unfold params
    rw [h.name.name]
    refine .guard h.name.span (.bindEq (expr_follows hs h.ty) fun r => ?_)
    exact .bindEq (ih _) fun rs => .pure rfl

lemma callConv_follows (isExternal : Bool) {e e' : Option Expr} (he : Option.Rel (Expr.Like R) e e') :
    Follows R Eq (callConv isExternal e) (callConv isExternal e') := by
  cases he with
  | none => exact .pure rfl
  | some h =>
    cases h with
    | ident h name =>
      unfold callConv
      dsimp only
      split
      · exact .pure rfl
      · exact .pure rfl
      · exact .pure rfl
      · exact .fail h _
    | _ => exact .fail ‹_› _

lemma arguments_follows {ps ps' : List Param} (hp : List.Forall₂ (Param.Like R) ps ps') (i : Nat)
    (hs : SameLocals s s') : Follows R SameLocals (arguments i s ps) (arguments i s' ps') := by
  induction hp generalizing i s s' with
  | nil => exact .pure hs
  | cons h _ ih =>
    unfold arguments
    rw [h.name.name]
    exact .bindEq (emit_follows h.name.span _) fun r => ih (i + 1) (hs.localValue _ r)

lemma fn_follows (hs : SameLocals s s') {f f' : FnItem} (hf : f.Like R f') {src src' : Span} (h : R src src') :
    Follows R (Fn.Like R) (fn s f src) (fn s' f' src') := by
  have hnames : f'.params.map (·.name.name) = f.params.map (·.name.name) := by
    have hp := hf.params
    generalize f.params = ps at hp
    generalize f'.params = ps' at hp
    induction hp with
    | nil => rfl
    | cons h _ ih => rw [List.map_cons, List.map_cons, h.name.name, ih]
  have signature (isExternal : Bool) : Follows R Eq
      (do
        let ps ← params s [] f.params
        let ret ← expr s f.ret
        let written ← callConv isExternal f.callConv
        let cc := if f.modifiers.has .inlined then .inlined else written
        return (← emit (.fnType ps ret cc) src, cc))
      (do
        let ps ← params s' [] f'.params
        let ret ← expr s' f'.ret
        let written ← callConv isExternal f'.callConv
        let cc := if f.modifiers.has .inlined then .inlined else written
        return (← emit (.fnType ps ret cc) src', cc)) := by
    refine .bindEq (params_follows hs hf.params []) fun ps => .bindEq (expr_follows hs hf.ret) fun ret => ?_
    refine .bindEq (callConv_follows _ hf.callConv) fun written => ?_
    exact .bindEq (emit_follows h _) fun r => .pure rfl
  have written {b b' : Block} (hb : b.Like R b') : Follows R (fun x y => x.1 = y.1 ∧ y.2 = x.2)
      (inBody do
        let inner ← arguments 0 s f.params
        block { inFn := true } inner b)
      (inBody do
        let inner ← arguments 0 s' f'.params
        block { inFn := true } inner b') :=
    inBody_follows (.bind (arguments_follows hf.params 0 hs) fun _ _ hs => block_follows _ hs hb)
  unfold fn
  rw [hf.modifiers.has_eq, hf.modifiers.has_eq, hnames]
  refine .bindEq (checkSupported_follows hf.modifiers hf.align hf.linkSection) fun _ => ?_
  have finished {x y : (Ref × CallConv) × List Ref} (hxy : x.1 = y.1 ∧ y.2 = x.2) (body : Option (List Ref)) :
      Follows R (Fn.Like R)
        (do return {
          code := (← get).code, signature := ⟨x.2, x.1.1⟩, params := f.params.map (·.name.name), body,
          isInline := f.modifiers.has .inlined || x.1.2 == .inlined })
        (do return {
          code := (← get).code, signature := ⟨y.2, y.1.1⟩, params := f.params.map (·.name.name), body,
          isInline := f.modifiers.has .inlined || y.1.2 == .inlined }) := by
    refine fun d d' hd => .ok ⟨hd.code, ?_, rfl, rfl, ?_⟩ hd
    · rw [← hxy.1, hxy.2]
    · rw [← hxy.1]
  have hb := hf.body
  generalize f.body = b at hb
  generalize f'.body = b' at hb
  cases hb with
  | none =>
    cases f.modifiers.has .external with
    | true => exact .bind (inBody_follows (signature _)) fun x y hxy => finished hxy none
    | false => exact .failThen hf.keyword _
  | some hb =>
    cases f.modifiers.has .external with
    | true => exact .failThen hb.span _
    | false =>
      refine .bind (inBody_follows (signature _)) fun x y hxy => .bind (written hb) fun u v huv => ?_
      dsimp only
      rw [huv.2]
      exact .bindEq (.pure rfl) fun body => finished hxy body

lemma mapM_follows (hs : SameLocals s s') {e e' : Option Expr} (he : Option.Rel (Expr.Like R) e e') :
    Follows R Eq (e.mapM (computation s)) (e'.mapM (computation s')) := by
  cases he with
  | none => exact .pure rfl
  | some h => exact .bindEq (computation_follows hs h) fun c => .pure rfl

lemma var_follows (hs : SameLocals s s') {v v' : VarItem} (hv : v.Like R v') :
    Follows R (Var.Like R) (var s v) (var s' v') := by
  have rest : Follows R (Var.Like R)
      (do
        let ty ← v.ty.mapM (computation s)
        let init ← v.init.mapM (computation s)
        return {
          code := (← get).code, ty, init, isMutable := v.isMutable, isExternal := v.modifiers.has .external,
          isThreadLocal := v.modifiers.has .threadLocal, keyword := v.keyword })
      (do
        let ty ← v'.ty.mapM (computation s')
        let init ← v'.init.mapM (computation s')
        return {
          code := (← get).code, ty, init, isMutable := v'.isMutable, isExternal := v'.modifiers.has .external,
          isThreadLocal := v'.modifiers.has .threadLocal, keyword := v'.keyword }) := by
    refine .bindEq (mapM_follows hs hv.ty) fun ty => .bindEq (mapM_follows hs hv.init) fun init => ?_
    refine fun d d' hd => .ok ⟨hd.code, rfl, rfl, hv.isMutable, hv.modifiers.has_eq _, hv.modifiers.has_eq _,
      hv.keyword⟩ hd
  unfold var
  refine .bindEq (checkSupported_follows hv.modifiers hv.align hv.linkSection) fun _ => ?_
  have hi := hv.modifiers.spanOf? .inlined
  generalize v.modifiers.spanOf? .inlined = x at hi
  generalize v'.modifiers.spanOf? .inlined = y at hi
  cases hi with
  | none => exact rest
  | some h => exact .failThen h _

lemma item_follows (hs : SameLocals s s') {it it' : Item} (hi : it.Like R it') :
    Follows R (DeclKind.Like R) (item s it) (item s' it') := by
  have hk := hi.kind
  unfold item
  generalize it.kind = k at hk
  generalize it'.kind = k' at hk
  cases hk with
  | fn h => exact .bind (fn_follows hs h hi.span) fun _ _ hf => .pure (.fn hf)
  | var h => exact .bind (var_follows hs h) fun _ _ hv => .pure (.var hv)
  | comptime h =>
    refine .bind (inBody_follows (block_follows {} hs h)) fun x y hxy => ?_
    exact fun d d' hd => .ok (.comptime ⟨hd.code, hxy.2⟩) hd
  | test | usingNamespace | field => exact .fail hi.span _

end Lower

inductive Lowered (R : Span → Span → Prop) : Except LowerError Decl → Except LowerError Decl → Prop
  | ok {d d'} (h : d.Like R d') : Lowered R (.ok d) (.ok d')
  | error {s s'} (h : R s s') (cause : LowerCause) : Lowered R (.error ⟨s, cause⟩) (.error ⟨s', cause⟩)

lemma ofItem_lowered {R : Span → Span → Prop} {it it' : Item} (h : it.Like R it') (name : String) (s s' : Scope) :
    Lowered R (ofItem it name s) (ofItem it' name s') := by
  have hs : SameLocals (.lowering s s.owner?) (.lowering s' s'.owner?) := fun _ => rfl
  have hd : Draft.Like R {} {} := ⟨⟨rfl, fun _ => .none⟩, rfl⟩
  have hl := Lower.item_follows hs h {} {} hd
  show Lowered R ((Lower.item (.lowering s s.owner?) it {}).bind fun x => .ok ⟨name, it.isExported, it.span, x.1⟩)
    ((Lower.item (.lowering s' s'.owner?) it' {}).bind fun x => .ok ⟨name, it'.isExported, it'.span, x.1⟩)
  generalize Lower.item (.lowering s s.owner?) it {} = x at hl
  generalize Lower.item (.lowering s' s'.owner?) it' {} = y at hl
  cases hl with
  | ok hk _ => exact .ok ⟨rfl, h.isExported_eq, h.span, hk⟩
  | error h cause => exact .error h cause

lemma ofItem_scope (it : Item) (name : String) (s s' : Scope) : ofItem it name s' = ofItem it name s := by
  have h := ofItem_lowered (.refl (fun _ => rfl) it : it.Like Eq it) name s s'
  generalize ofItem it name s = x at h ⊢
  generalize ofItem it name s' = y at h ⊢
  cases h with
  | ok h => rw [h.eq_of_eq]
  | error h cause => rw [h]

end Untyped

end Frontend
