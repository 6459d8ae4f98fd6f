import Mathlib.Order.Nat
import Frontend.Untyped.Lower

/-! Untyped code is well scoped: an instruction takes results of instructions that stand before it in its own body or
in a body around it, and no place stands in two bodies. Code that is lowered from text is, and it leaves no gaps: the
bodies of an instruction are laid out right before it. -/

namespace Frontend.Untyped

/-- The instructions whose results an instruction takes; the test of a loop is computed inside it. -/
def Inst.operands : Inst → List Ref
  | .alloc ty init => ty.toList ++ [init]
  | .load r | .addressOf r | .not r | .negate r | .optionalType r | .cond r _ _ => [r]
  | .store l r | .arith _ l r | .cmp _ l r | .boolOp _ l r | .coerce l r | .vectorType l r => [l, r]
  | .ptrType _ _ sentinel child => sentinel.toList ++ [child]
  | .arrayType len sentinel child => len :: (sentinel.toList ++ [child])
  | .fnType params result _ => params ++ [result]
  | .arrayInit ty elems => ty :: elems
  | .call callee args => callee :: args
  | .ret operand => operand.toList
  | _ => []

def Inst.isPlain : Inst → Bool
  | .cond .. | .loop .. | .block .. => false
  | _ => true

/-- A body whose instructions, with those of the bodies inside, stand between two places of the code in order, and take
results of `dom` and of one another. -/
inductive Code.Scoped (c : Code) : (lo : Nat) → (dom : List Ref) → (body : List Ref) → (hi : Nat) → Prop
  | nil {lo dom hi} (h : lo ≤ hi) : Scoped c lo dom [] hi
  | plain {lo dom r rest hi inst} (hr : c.insts[r]? = some inst) (hp : inst.isPlain = true) (hlo : lo ≤ r)
      (ho : ∀ x ∈ inst.operands, x ∈ dom) (h : Scoped c (r + 1) (dom ++ [r]) rest hi) : Scoped c lo dom (r :: rest) hi
  | cond {lo dom r rest hi test t e m} (hr : c.insts[r]? = some (.cond test t e)) (ht : test ∈ dom)
      (h₁ : Scoped c lo dom t m) (h₂ : Scoped c m dom e r) (h : Scoped c (r + 1) (dom ++ [r]) rest hi) :
      Scoped c lo dom (r :: rest) hi
  | loop {lo dom r rest hi testBody test b m} (hr : c.insts[r]? = some (.loop testBody test b))
      (h₁ : Scoped c lo dom testBody m) (ht : test ∈ dom ++ testBody) (hl : ∀ x ∈ testBody.getLast?, x = test)
      (h₂ : Scoped c m dom b r) (h : Scoped c (r + 1) (dom ++ [r]) rest hi) : Scoped c lo dom (r :: rest) hi
  | block {lo dom r rest hi b isComptime} (hr : c.insts[r]? = some (.block b isComptime)) (h₁ : Scoped c lo dom b r)
      (h : Scoped c (r + 1) (dom ++ [r]) rest hi) : Scoped c lo dom (r :: rest) hi

def Inst.first : Inst → List Ref
  | .cond _ t _ => t
  | .loop testBody _ _ => testBody
  | .block b _ => b
  | _ => []

def Inst.second : Inst → List Ref
  | .cond _ _ e => e
  | .loop _ _ b => b
  | _ => []

def Inst.test? : Inst → Option Ref
  | .loop _ test _ => some test
  | _ => none

structure Enclosure where
  params : Option Nat := none
  inLoop : Bool := false

namespace Enclosure

def admits (k : Enclosure) : Inst → Bool
  | .arg i => k.params.any (i < ·)
  | .ret _ => k.params.isSome
  | .leave | .next => k.inLoop
  | _ => true

def around (k : Enclosure) : Inst → Enclosure
  | .loop .. => { k with inLoop := true }
  | _ => k

def Allows (k : Enclosure) (place : Lower.Place) : Prop :=
  (place.inFn = true → k.params.isSome = true) ∧ (place.inLoop = true → k.inLoop = true)

end Enclosure

def Results (dom new : List Ref) (r : Ref) : Prop := r ∈ dom ++ new ∧ ∀ x ∈ new.getLast?, x = r

lemma Results.ofLast {dom new : List Ref} {r : Ref} (h : new.getLast? = some r) : Results dom new r := by
  refine ⟨List.mem_append_right _ (List.mem_of_getLast? h), fun x hx => ?_⟩
  rw [h] at hx
  exact (Option.some.inj hx).symm

/-- A body whose instructions, with those of the bodies inside, fill the code from one place to another. Each stands
right after the bodies inside it, where the enclosure admits it, and takes results of `dom` and of those before it. -/
inductive Code.Laid (c : Code) : (k : Enclosure) → (lo : Nat) → (dom body : List Ref) → (hi : Nat) → Prop
  | nil {k lo dom} : Laid c k lo dom [] lo
  | cons {k lo dom r rest hi m inst} (hr : c.insts[r]? = some inst) (ha : k.admits inst = true)
      (ho : ∀ x ∈ inst.operands, x ∈ dom) (ht : ∀ x ∈ inst.test?, Results dom inst.first x)
      (h₁ : Laid c k lo dom inst.first m) (h₂ : Laid c (k.around inst) m dom inst.second r)
      (h : Laid c k (r + 1) (dom ++ [r]) rest hi) : Laid c k lo dom (r :: rest) hi

def Code.LaidOut (c : Code) : (lo : Nat) → List (Enclosure × List Ref) → Prop
  | lo, [] => lo = c.size
  | lo, (k, body) :: rest => ∃ m, c.Laid k lo [] body m ∧ c.LaidOut m rest

def DeclKind.bodies : DeclKind → List (Enclosure × List Ref)
  | .fn f => ({}, f.signature.body) :: f.body.toList.map ({ params := some f.params.length }, ·)
  | .var v => (v.ty.toList ++ v.init.toList).map fun c => ({}, c.body)
  | .comptime b => [({}, b.body)]

def Computation.Scoped (c : Code) (comp : Computation) : Prop :=
  (∃ lo hi, c.Scoped lo [] comp.body hi) ∧ comp.result ∈ comp.body

structure Fn.Scoped (f : Fn) : Prop where
  signature : f.signature.Scoped f.code
  body {b} : f.body = some b → ∃ lo hi, f.code.Scoped lo [] b hi

structure Var.Scoped (v : Var) : Prop where
  ty {c} : v.ty = some c → c.Scoped v.code
  init {c} : v.init = some c → c.Scoped v.code

def DeclKind.Scoped : DeclKind → Prop
  | .fn f => f.Scoped
  | .var v => v.Scoped
  | .comptime b => ∃ lo hi, b.code.Scoped lo [] b.body hi

namespace Code

structure Extends (c c' : Code) : Prop where
  size : c.size ≤ c'.size
  insts {r : Ref} {inst : Inst} : c.insts[r]? = some inst → c'.insts[r]? = some inst

lemma Extends.refl (c : Code) : c.Extends c := ⟨le_rfl, fun h => h⟩

lemma Extends.trans {c c' c'' : Code} (h : c.Extends c') (h' : c'.Extends c'') : c.Extends c'' :=
  ⟨h.size.trans h'.size, fun hr => h'.insts (h.insts hr)⟩

lemma extends_add (c : Code) (inst : Inst) (span : Span) : c.Extends (c.add inst span) where
  size := by simp [size, add]
  insts {r inst'} hr := by
    have hlt : r < c.insts.size := (Array.getElem?_eq_some_iff.1 hr).1
    simp only [add, Array.getElem?_push, if_neg hlt.ne]
    exact hr

lemma insts_add_size (c : Code) (inst : Inst) (span : Span) : (c.add inst span).insts[c.size]? = some inst := by
  simp [add, size]

@[simp] lemma size_add (c : Code) (inst : Inst) (span : Span) : (c.add inst span).size = c.size + 1 := by
  simp [add, size]

namespace Scoped
variable {c : Code} {lo lo' hi hi' : Nat} {dom body : List Ref}

section

variable (h : c.Scoped lo dom body hi)
include h

lemma le : lo ≤ hi := by
  induction h with
  | nil h => exact h
  | plain _ _ hlo _ _ ih => omega
  | cond _ _ _ _ _ ih₁ ih₂ ih => omega
  | loop _ _ _ _ _ _ ih₁ ih₂ ih => omega
  | block _ _ _ ih₁ ih => omega

lemma weaken (hlo : lo' ≤ lo) (hhi : hi ≤ hi') : c.Scoped lo' dom body hi' := by
  induction h generalizing lo' hi' with
  | nil h => exact .nil (by omega)
  | plain hr hp hle ho _ ih => exact .plain hr hp (hlo.trans hle) ho (ih le_rfl hhi)
  | cond hr ht _ h₂ _ ih₁ _ ih => exact .cond hr ht (ih₁ hlo le_rfl) h₂ (ih le_rfl hhi)
  | loop hr _ ht hl h₂ _ ih₁ _ ih => exact .loop hr (ih₁ hlo le_rfl) ht hl h₂ (ih le_rfl hhi)
  | block hr _ _ ih₁ ih => exact .block hr (ih₁ hlo le_rfl) (ih le_rfl hhi)

end

lemma uncons {r : Ref} (h : c.Scoped lo dom (r :: body) hi) :
    c.Scoped lo dom [r] (r + 1) ∧ c.Scoped (r + 1) (dom ++ [r]) body hi := by
  cases h with
  | plain hr hp hlo ho h => exact ⟨.plain hr hp hlo ho (.nil le_rfl), h⟩
  | cond hr ht h₁ h₂ h => exact ⟨.cond hr ht h₁ h₂ (.nil le_rfl), h⟩
  | loop hr h₁ ht hl h₂ h => exact ⟨.loop hr h₁ ht hl h₂ (.nil le_rfl), h⟩
  | block hr h₁ h => exact ⟨.block hr h₁ (.nil le_rfl), h⟩

lemma le_of_mem {x : Ref} (h : c.Scoped lo dom body hi) (hx : x ∈ body) : lo ≤ x := by
  induction body generalizing lo dom with
  | nil => cases hx
  | cons r rest ih =>
    obtain ⟨h₁, h₂⟩ := h.uncons
    have hr : lo ≤ r := by
      cases h₁ with
      | plain _ _ hlo _ _ => exact hlo
      | cond _ _ h₁ h₂ _ => exact h₁.le.trans h₂.le
      | loop _ h₁ _ _ h₂ _ => exact h₁.le.trans h₂.le
      | block _ h₁ _ => exact h₁.le
    rcases List.mem_cons.1 hx with rfl | hx
    · exact hr
    · exact hr.trans ((Nat.le_succ r).trans (ih h₂ hx))

end Scoped

namespace Laid
variable {c c' : Code} {k : Enclosure} {lo hi hi' : Nat} {dom body body' : List Ref}

lemma toScoped (h : c.Laid k lo dom body hi) : c.Scoped lo dom body hi := by
  induction h with
  | nil => exact .nil le_rfl
  | @cons _ _ _ _ _ _ _ inst hr _ ho ht _ _ _ ih₁ ih₂ ih =>
    cases inst with
    | cond test t e => exact .cond hr (ho test (by simp [Inst.operands])) ih₁ ih₂ ih
    | loop testBody test b => exact .loop hr ih₁ (ht test rfl).1 (ht test rfl).2 ih₂ ih
    | block b isComptime => exact .block hr (ih₁.weaken le_rfl ih₂.le) ih
    | _ => exact .plain hr rfl (ih₁.le.trans ih₂.le) ho ih

lemma mono (h : c.Laid k lo dom body hi) (hc : c.Extends c') : c'.Laid k lo dom body hi := by
  induction h with
  | nil => exact .nil
  | cons hr ha ho ht _ _ _ ih₁ ih₂ ih => exact .cons (hc.insts hr) ha ho ht ih₁ ih₂ ih

lemma append (h : c.Laid k lo dom body hi) (h' : c.Laid k hi (dom ++ body) body' hi') :
    c.Laid k lo dom (body ++ body') hi' := by
  induction h with
  | nil => simpa using h'
  | cons hr ha ho ht h₁ h₂ _ _ _ ih => exact .cons hr ha ho ht h₁ h₂ (ih (by simpa using h'))

end Laid

end Code

/-! Lowering. -/

namespace Lower

structure Adds (k : Enclosure) (dom : List Ref) (d d' : Draft) (new : List Ref) : Prop where
  body : d'.body = d.body ++ new
  code : d.code.Extends d'.code
  laid : d'.code.Laid k d.code.size dom new d'.code.size

/-- Where the results of `dom` are at hand the step lays out code, and `Q` holds of it and of what the step returns. -/
def Yields {α : Type} (k : Enclosure) (dom : List Ref) (m : Lower α) (Q : List Ref → α → Prop) : Prop :=
  ∀ d a d', m d = .ok (a, d') → ∃ new, Adds k dom d d' new ∧ Q new a

def Binds (dom : List Ref) (scope : Scope) : Prop :=
  ∀ name, match scope.lookupLocal? name with
    | some (.value r) | some (.slot r) => r ∈ dom
    | none => True

variable {k : Enclosure} {dom new : List Ref} {scope : Scope} {d d' d'' : Draft} {α β γ : Type}

lemma Adds.refl (k : Enclosure) (dom : List Ref) (d : Draft) : Adds k dom d d [] :=
  ⟨(List.append_nil _).symm, .refl _, .nil⟩

lemma Adds.trans {new' : List Ref} (h : Adds k dom d d' new) (h' : Adds k (dom ++ new) d' d'' new') :
    Adds k dom d d'' (new ++ new') where
  body := by rw [h'.body, h.body, List.append_assoc]
  code := h.code.trans h'.code
  laid := (h.laid.mono h'.code).append h'.laid

variable {span : Span} {m : Lower α} {f : α → Lower β} {r : Ref} {Q : β → Prop}

lemma Adds.emit {inst : Inst} {m : Nat} (hb : d'.body = d.body) (hc : d.code.Extends d'.code)
    (ha : k.admits inst = true) (ho : ∀ x ∈ inst.operands, x ∈ dom) (ht : ∀ x ∈ inst.test?, Results dom inst.first x)
    (h₁ : d'.code.Laid k d.code.size dom inst.first m)
    (h₂ : d'.code.Laid (k.around inst) m dom inst.second d'.code.size) :
    Adds k dom d ⟨d'.code.add inst span, d'.body ++ [d'.code.size]⟩ [d'.code.size] where
  body := by rw [hb]
  code := hc.trans (d'.code.extends_add inst span)
  laid := by
    have hadd := d'.code.extends_add inst span
    rw [Code.size_add]
    exact .cons (d'.code.insts_add_size inst span) ha ho ht (h₁.mono hadd) (h₂.mono hadd) .nil

lemma bind_ok {b : β} (hm : (m >>= f) d = .ok (b, d'')) : ∃ a d', m d = .ok (a, d') ∧ f a d' = .ok (b, d'') := by
  change (m d >>= fun x => f x.1 x.2) = _ at hm
  cases hr : m d with
  | error e =>
    rw [hr] at hm
    cases hm
  | ok x =>
    rw [hr] at hm
    exact ⟨x.1, x.2, rfl, hm⟩

namespace Yields

variable {Q : List Ref → α → Prop} {span : Span} {cause : LowerCause} {m : Lower α} {R : List Ref → β → Prop}

lemma pure {a : α} (h : Q [] a) : Yields k dom (Pure.pure a) Q := by
  intro d a' d' hm
  cases hm
  exact ⟨[], .refl k dom d, h⟩

lemma fail : Yields k dom (Lower.fail span cause) Q := by
  intro d a d' hm
  cases hm

lemma mono {R : List Ref → α → Prop} (h : Yields k dom m Q) (hQ : ∀ new a, Q new a → R new a) : Yields k dom m R := by
  intro d a d' hm
  obtain ⟨new, ha, hq⟩ := h d a d' hm
  exact ⟨new, ha, hQ new a hq⟩

lemma bind {f : α → Lower β} (h : Yields k dom m Q)
    (hf : ∀ new a, Q new a → Yields k (dom ++ new) (f a) fun new' b => R (new ++ new') b) :
    Yields k dom (m >>= f) R := by
  intro d b d'' hm
  obtain ⟨a, d', hr, hm⟩ := bind_ok hm
  obtain ⟨new, ha, hq⟩ := h d a d' hr
  obtain ⟨new', ha', hr'⟩ := hf new a hq d' b d'' hm
  exact ⟨new ++ new', ha.trans ha', hr'⟩

lemma guard {p : Prop} [Decidable p] {f : Unit → Lower β} (h : ¬ p → Yields k dom (f ()) R) :
    Yields k dom (if p then Lower.fail span cause >>= f else f ()) R := by
  split
  · exact bind (Q := fun _ _ => False) fail fun _ _ hq => hq.elim
  · next hp => exact h hp

lemma emit {inst : Inst} (hp : (inst.isPlain && k.admits inst) = true) (ho : ∀ x ∈ inst.operands, x ∈ dom) :
    Yields k dom (Lower.emit inst span) fun new r => new = [r] := by
  intro d r d' hm
  cases hm
  obtain ⟨hp, ha⟩ := Bool.and_eq_true_iff.1 hp
  obtain ⟨hfirst, hsecond, htest⟩ : inst.first = [] ∧ inst.second = [] ∧ inst.test? = none := by
    cases inst <;> first | exact ⟨rfl, rfl, rfl⟩ | cases hp
  refine ⟨[d.code.size], .emit (m := d.code.size) rfl (.refl _) ha ho (htest ▸ nofun) ?_ ?_, rfl⟩
  · exact hfirst ▸ .nil
  · exact hsecond ▸ .nil

lemma last {m : Lower Ref} {dom' : List Ref} {g : List Ref → List Ref} (h : Yields k dom m fun new r => new = [r])
    (hg : ∀ r, (g [r]).getLast? = some r) : Yields k dom m fun new r => Results dom' (g new) r :=
  h.mono fun _ r hr => .ofLast (hr ▸ hg r)

lemma inBody (h : Yields k dom m Q) {x : α × List Ref} (hm : Lower.inBody m d = .ok (x, d')) :
    d'.body = d.body ∧ d.code.Extends d'.code ∧ d'.code.Laid k d.code.size dom x.2 d'.code.size ∧ Q x.2 x.1 := by
  obtain ⟨_, _, ho, hm⟩ := bind_ok hm
  cases ho
  obtain ⟨_, _, ho, hm⟩ := bind_ok hm
  cases ho
  obtain ⟨a, d₁, hr, hm⟩ := bind_ok hm
  obtain ⟨new, ha, hq⟩ := h _ a d₁ hr
  have hb : d₁.body = new := by simpa using ha.body
  cases hm
  exact ⟨rfl, ha.code, hb ▸ ha.laid, hb ▸ hq⟩

end Yields

/-! Expressions. -/

lemma Binds.append (h : Binds dom scope) (new : List Ref) : Binds (dom ++ new) scope := by
  intro name
  have hn := h name
  split at hn
  · next hl => exact List.mem_append_left _ hn
  · next hl => exact List.mem_append_left _ hn
  · trivial

lemma primitive_yields (name : String) (span : Span) :
    Yields k dom (primitive name span) fun new _ => new = [] := by
  unfold primitive
  split
  · exact .pure rfl
  · exact .fail

lemma ident_yields (hs : Binds dom scope) (span : Span) (name : String) :
    Yields k dom (ident scope span name) (Results dom) := by
  have hn := hs name
  unfold ident
  split
  · next r hl =>
    rw [hl] at hn
    exact .pure ⟨by simpa using hn, by simp⟩
  · next r hl =>
    rw [hl] at hn
    exact (Yields.emit rfl (by simpa [Inst.operands] using hn)).last (by simp)
  · refine .bind (primitive_yields name span) fun new t h => ?_
    subst h
    split
    · exact .last (.emit rfl nofun) (by simp)
    · exact .last (.emit rfl nofun) (by simp)

lemma identAddress_yields (hs : Binds dom scope) (span inner : Span) (name : String) :
    Yields k dom (identAddress scope span inner name) (Results dom) := by
  have hn := hs name
  unfold identAddress
  split
  · next r hl =>
    rw [hl] at hn
    exact .pure ⟨by simpa using hn, by simp⟩
  · next r hl =>
    rw [hl] at hn
    exact (Yields.emit rfl (by simpa [Inst.operands] using hn)).last (by simp)
  · split
    · refine .bind (ident_yields hs inner name) fun new r h => ?_
      refine (Yields.emit rfl ?_).last (by simp)
      simpa [Inst.operands] using h.1
    · exact .last (.emit rfl nofun) (by simp)

lemma builtinOf_yields (span : Span) (name : String) (args : List Expr) :
    Yields k dom (builtinOf span name args) fun new _ => new = [] := by
  unfold builtinOf
  split
  · exact .fail
  · split
    · exact .pure rfl
    · exact .fail

lemma nameOf_yields (e : Expr) : Yields k dom (nameOf e) fun new _ => new = [] := by
  unfold nameOf
  split
  · exact .pure rfl
  · exact .fail

lemma stringOf_yields (e : Expr) : Yields k dom (stringOf e) fun new _ => new = [] := by
  unfold stringOf
  split
  · exact .pure rfl
  · exact .fail

lemma builtinInst_yields (b : Builtin) (args : List Expr) (refs : List Ref) :
    Yields k dom (builtinInst b args refs) fun new inst =>
      new = [] ∧ (inst.isPlain && k.admits inst) = true ∧ ∀ x ∈ inst.operands, x ∈ refs := by
  unfold builtinInst
  split
  · exact .pure ⟨rfl, rfl, by simp [Inst.operands]⟩
  · exact .pure ⟨rfl, rfl, by simp [Inst.operands]⟩
  · refine .bind (nameOf_yields _) fun _ _ h => .bind (stringOf_yields _) fun _ _ h' => ?_
    subst h h'
    exact .pure ⟨rfl, rfl, by simp [Inst.operands]⟩
  · refine .bind (stringOf_yields _) fun _ _ h => ?_
    subst h
    exact .pure ⟨rfl, rfl, by simp [Inst.operands]⟩
  · exact .pure ⟨rfl, rfl, by simp [Inst.operands]⟩

lemma admits_binaryInst (k : Enclosure) (l r : Ref) (op : BinaryOp) :
    ((binaryInst l r op).isPlain && k.admits (binaryInst l r op)) = true := by
  cases op <;> rfl

lemma operands_binaryInst (l r : Ref) (op : BinaryOp) : (binaryInst l r op).operands = [l, r] := by
  cases op <;> rfl

lemma Yields.emitOn {m : Lower Ref} (h : Yields k dom m (Results dom)) {inst : Ref → Inst} (span : Span)
    (hp : ∀ r, ((inst r).isPlain && k.admits (inst r)) = true) (ho : ∀ r, (inst r).operands = [r]) :
    Yields k dom (do Lower.emit (inst (← m)) span) (Results dom) := by
  refine .bind h fun new r hr => (Yields.emit (hp r) ?_).last (by simp)
  rw [ho r]
  simpa using hr.1

lemma builtinCall_yields (b : Builtin) (args : List Expr) {refs : List Ref} (span : Span)
    (hr : ∀ r ∈ refs, r ∈ dom) :
    Yields k dom (do Lower.emit (← builtinInst b args refs) span) fun new r => new = [r] := by
  refine .bind (builtinInst_yields b args refs) fun _ inst ⟨h, hp, ho⟩ => ?_
  subst h
  refine (Yields.emit hp fun x hx => ?_).mono fun _ _ h => by simp [h]
  simpa using hr x (ho x hx)

mutual

theorem expr_yields : ∀ (e : Expr) {dom : List Ref}, Binds dom scope → Yields k dom (expr scope e) (Results dom)
  | .int .., _, _ | .float .., _, _ | .str .., _, _ | .bool .., _, _ | .null _, _, _ | .undefined _, _, _
  | .unreachable _, _, _ =>
    .last (.emit rfl nofun) (by simp)
  | .ident span name, _, hs => ident_yields hs span name
  | .builtin span name args, dom, hs => by
    refine .bind (builtinOf_yields span name args) fun new b h => ?_
    subst h
    dsimp only
    split
    · refine .bind (exprs_yields args (hs.append [])) fun new refs hr => ?_
      exact (builtinCall_yields b args span hr).last (by simp)
    · exact (builtinCall_yields b args span (by simp)).last (by simp)
  | .unary span .negate e, _, hs => (expr_yields e hs).emitOn span (fun _ => rfl) fun _ => rfl
  | .unary span .not e, _, hs => (expr_yields e hs).emitOn span (fun _ => rfl) fun _ => rfl
  | .unary span .addressOf e, dom, hs => by
    have he := expr_yields e hs
    cases e with
    | ident inner name => exact identAddress_yields hs span inner name
    | _ => exact he.emitOn span (fun _ => rfl) fun _ => rfl
  | .binary span op l r, _, hs => by
    refine .bind (expr_yields l hs) fun new lhs hl => .bind (expr_yields r (hs.append new)) fun new' rhs hr => ?_
    refine (Yields.emit (admits_binaryInst ..) fun x hx => ?_).last (by simp)
    obtain rfl | rfl : x = lhs ∨ x = rhs := by simpa [operands_binaryInst] using hx
    · exact List.mem_append_left _ hl.1
    · exact hr.1
  | .call span f args, _, hs => by
    refine .bind (expr_yields f hs) fun new callee hc => .bind (exprs_yields args (hs.append new)) fun _ rs hr => ?_
    refine (Yields.emit rfl fun x hx => ?_).last (by simp)
    rcases List.mem_cons.1 hx with rfl | hx
    · exact List.mem_append_left _ hc.1
    · exact hr x hx
  | .deref span e, _, hs => (expr_yields e hs).emitOn span (fun _ => rfl) fun _ => rfl
  | .ptrType span size isConst sentinel child, _, hs => by
    refine .bind (expr?_yields sentinel hs) fun new z hz => .bind (expr_yields child (hs.append new)) fun _ t ht => ?_
    refine (Yields.emit rfl fun x hx => ?_).last (by simp)
    rcases List.mem_append.1 hx with hx | hx
    · exact List.mem_append_left _ (hz x (Option.mem_toList.1 hx))
    · exact List.mem_singleton.1 hx ▸ ht.1
  | .arrayType span len sentinel child, _, hs => by
    refine .bind (expr_yields len hs) fun new n hn => .bind (expr?_yields sentinel (hs.append new)) fun new' z hz => ?_
    refine .bind (expr_yields child ((hs.append new).append new')) fun _ t ht => ?_
    refine (Yields.emit rfl fun x hx => ?_).last (by simp)
    rcases List.mem_cons.1 hx with rfl | hx
    · exact List.mem_append_left _ (List.mem_append_left _ hn.1)
    · rcases List.mem_append.1 hx with hx | hx
      · exact List.mem_append_left _ (hz x (Option.mem_toList.1 hx))
      · exact List.mem_singleton.1 hx ▸ ht.1
  | .optionalType span child, _, hs => (expr_yields child hs).emitOn span (fun _ => rfl) fun _ => rfl
  | .arrayInit span ty elems, _, hs => by
    refine .bind (expr_yields ty hs) fun new t ht => .bind (exprs_yields elems (hs.append new)) fun _ rs hr => ?_
    refine (Yields.emit rfl fun x hx => ?_).last (by simp)
    rcases List.mem_cons.1 hx with rfl | hx
    · exact List.mem_append_left _ ht.1
    · exact hr x hx

theorem exprs_yields : ∀ (es : List Expr) {dom : List Ref}, Binds dom scope →
    Yields k dom (exprs scope es) fun new rs => ∀ r ∈ rs, r ∈ dom ++ new
  | [], _, _ => .pure (by simp)
  | e :: es, _, hs => by
    refine .bind (expr_yields e hs) fun new r hr => .bind (exprs_yields es (hs.append new)) fun new' rs hrs => ?_
    refine .pure fun x hx => ?_
    rcases List.mem_cons.1 hx with rfl | hx
    · simpa using List.mem_append_left new' hr.1
    · simpa using hrs x hx

theorem expr?_yields : ∀ (e : Option Expr) {dom : List Ref}, Binds dom scope →
    Yields k dom (expr? scope e) fun new r => ∀ x ∈ r, x ∈ dom ++ new
  | none, _, _ => .pure (by simp)
  | some e, _, hs => by
    refine .bind (expr_yields e hs) fun new r hr => .pure fun x hx => ?_
    cases hx
    simpa using hr.1

end

/-! Statements. -/

lemma Binds.extend {scope' : Scope} (h : Binds dom scope)
    (hl : ∀ name, scope'.lookupLocal? name = scope.lookupLocal? name ∨
      ∃ r ∈ dom, scope'.lookupLocal? name = some (.value r) ∨ scope'.lookupLocal? name = some (.slot r)) :
    Binds dom scope' := by
  intro name
  obtain hl | ⟨r, hr, hl | hl⟩ := hl name <;> rw [hl]
  · exact h name
  · exact hr
  · exact hr

lemma Binds.localValue (h : Binds dom scope) (hr : r ∈ dom) (name : String) :
    Binds dom (.localValue scope name r) := by
  refine h.extend fun other => ?_
  rw [Scope.lookupLocal?]
  split
  · exact .inr ⟨r, hr, .inl rfl⟩
  · exact .inl rfl

lemma Binds.localSlot (h : Binds dom scope) (hr : r ∈ dom) (name : String) : Binds dom (.localSlot scope name r) := by
  refine h.extend fun other => ?_
  rw [Scope.lookupLocal?]
  split
  · exact .inr ⟨r, hr, .inr rfl⟩
  · exact .inl rfl

lemma assign_yields (hs : Binds dom scope) (span : Span) (target value : Expr) :
    Yields k dom (assign scope span target value) fun _ _ => True := by
  have stored {dom : List Ref} (hs : Binds dom scope) {ptr : Ref} (hp : ptr ∈ dom) :
      Yields k dom (assign.storeTo scope span value ptr) fun _ _ => True := by
    refine .bind (expr_yields value hs) fun new v hv => .bind (Yields.emit rfl fun x hx => ?_) fun _ _ _ =>
      .pure trivial
    obtain rfl | rfl : x = ptr ∨ x = v := by simpa [Inst.operands] using hx
    · exact List.mem_append_left _ hp
    · exact hv.1
  unfold assign
  split
  · next here name =>
    split
    · exact .bind (expr_yields value hs) fun _ _ _ => .pure trivial
    · have hn := hs name
      dsimp only
      split
      · next r hl =>
        rw [hl] at hn
        exact stored hs hn
      · exact .bind (Q := fun _ _ => False) .fail fun _ _ h => h.elim
      · refine .bind (Yields.emit rfl (by simp [Inst.operands])) fun new r h => stored (hs.append new) ?_
        simp [h]
  · exact .bind (expr_yields _ hs) fun new r hr => stored (hs.append new) hr.1
  · exact .fail

lemma Yields.emitAround {k' : Enclosure} {m₁ : Lower α} {m₂ : Lower β} {Q₁ : List Ref → α → Prop}
    {Q₂ : List Ref → β → Prop} (h₁ : Yields k dom m₁ Q₁) (h₂ : Yields k' dom m₂ Q₂)
    (inst : α → List Ref → List Ref → Inst) (hf : ∀ a t e, (inst a t e).first = t)
    (hs : ∀ a t e, (inst a t e).second = e) (hk : ∀ a t e, k.around (inst a t e) = k')
    (ha : ∀ a t e, k.admits (inst a t e) = true) (ho : ∀ a t e, ∀ x ∈ (inst a t e).operands, x ∈ dom)
    (ht : ∀ a t e, Q₁ t a → ∀ x ∈ (inst a t e).test?, Results dom t x) (x : γ) :
    Yields k dom (do
      let (a, t) ← Lower.inBody m₁
      let (_, e) ← Lower.inBody m₂
      let _ ← Lower.emit (inst a t e) span
      return x) fun _ y => y = x := by
  intro d y d' hm
  obtain ⟨⟨a, t⟩, d₁, hr₁, hm⟩ := bind_ok hm
  obtain ⟨⟨b, e⟩, d₂, hr₂, hm⟩ := bind_ok hm
  cases hm
  obtain ⟨hb₁, hc₁, hl₁, hq⟩ := h₁.inBody hr₁
  obtain ⟨hb₂, hc₂, hl₂, -⟩ := h₂.inBody hr₂
  refine ⟨[d₂.code.size], .emit (m := d₁.code.size) (hb₂.trans hb₁) (hc₁.trans hc₂) (ha a t e) (ho a t e) ?_ ?_ ?_, rfl⟩
  · exact (hf a t e).symm ▸ ht a t e hq
  · exact (hf a t e).symm ▸ hl₁.mono hc₂
  · exact (hk a t e).symm ▸ (hs a t e).symm ▸ hl₂

lemma Yields.emitBlock {Q : List Ref → α → Prop} (h : Yields k dom m Q) (isComptime : Bool) (span : Span) (x : γ) :
    Yields k dom (do
      let (_, b) ← Lower.inBody m
      let _ ← Lower.emit (.block b isComptime) span
      return x) fun _ y => y = x := by
  intro d y d' hm
  obtain ⟨⟨a, b⟩, d₁, hr, hm⟩ := bind_ok hm
  cases hm
  obtain ⟨hb, hc, hl, -⟩ := h.inBody hr
  exact ⟨[d₁.code.size], .emit hb hc rfl nofun nofun hl .nil, rfl⟩

mutual

theorem stmt_yields : ∀ (place : Place) (scope : Scope) (s : Stmt) {k : Enclosure} {dom : List Ref},
    k.Allows place → Binds dom scope → Yields k dom (stmt place scope s) fun new scope' => Binds (dom ++ new) scope'
  | place, scope, .define span name isMutable ty init, k, dom, hk, hs => by
    unfold stmt
    refine .guard fun _ => ?_
    refine .bind (expr?_yields ty hs) fun new t ht => .bind (expr_yields init (hs.append new)) fun new' v hv => ?_
    have hs' := (hs.append new).append new'
    split
    · refine .bind (Yields.emit rfl fun x hx => ?_) fun new'' r h => .pure ?_
      · rcases List.mem_append.1 hx with hx | hx
        · exact List.mem_append_left _ (ht x (Option.mem_toList.1 hx))
        · exact List.mem_singleton.1 hx ▸ hv.1
      · subst h
        simpa using (hs'.append [r]).localSlot (r := r) (by simp) name.name
    · split
      · next t =>
        refine .bind (Yields.emit rfl fun x hx => ?_) fun new'' r h => .pure ?_
        · obtain rfl | rfl : x = t ∨ x = v := by simpa [Inst.operands] using hx
          · exact List.mem_append_left _ (ht x rfl)
          · exact hv.1
        · subst h
          simpa using (hs'.append [r]).localValue (r := r) (by simp) name.name
      · refine .pure ?_
        simpa using hs'.localValue hv.1 name.name
  | place, scope, .assign span target value, k, dom, hk, hs =>
    .bind (assign_yields hs span target value) fun new _ _ => .pure (by simpa using hs.append new)
  | place, scope, .expr span e, k, dom, hk, hs =>
    .bind (expr_yields e hs) fun new _ _ => .pure (by simpa using hs.append new)
  | place, scope, .ret span value, k, dom, hk, hs => by
    unfold stmt
    refine .guard fun hp => ?_
    refine .bind (expr?_yields value hs) fun new r hr => .bind (Yields.emit ?_ fun x hx => ?_) fun new' _ _ => ?_
    · exact hk.1 (by simpa using hp)
    · exact hr x (Option.mem_toList.1 hx)
    · exact .pure (by simpa using hs.append (new ++ new'))
  | place, scope, .cond span test thenBody elseBody, k, dom, hk, hs => by
    refine .bind (expr_yields test hs) fun new c hc => ?_
    have hs' := hs.append new
    refine (Yields.emitAround (block_yields place scope thenBody hk hs') (stmt?_yields place scope elseBody hk hs')
      (fun _ => .cond c) (fun _ _ _ => rfl) (fun _ _ _ => rfl) (fun _ _ _ => rfl) (fun _ _ _ => rfl)
      (fun _ _ _ x hx => List.mem_singleton.1 hx ▸ hc.1) (fun _ _ _ _ => nofun) scope).mono fun new' scope' h => ?_
    subst h
    simpa using hs'.append new'
  | place, scope, .loop span test body, k, dom, hk, hs => by
    have hbody := block_yields { place with inLoop := true } scope body (k := { k with inLoop := true })
      ⟨hk.1, fun _ => rfl⟩ hs
    refine (Yields.emitAround (expr_yields test hs) hbody (fun c t => .loop t c) (fun _ _ _ => rfl)
      (fun _ _ _ => rfl) (fun _ _ _ => rfl) (fun _ _ _ => rfl) (fun _ _ _ => nofun) (fun _ _ _ hc x hx => ?_)
      scope).mono fun new _ h => h ▸ hs.append new
    exact Option.some.inj hx ▸ hc
  | place, scope, .block span body, k, dom, hk, hs =>
    ((block_yields place scope body hk hs).emitBlock false span scope).mono fun new _ h => h ▸ hs.append new
  | place, scope, .comptime span body, k, dom, hk, hs =>
    ((block_yields place scope body hk hs).emitBlock true span scope).mono fun new _ h => h ▸ hs.append new
  | place, scope, .leave span, k, dom, hk, hs => by
    unfold stmt
    refine .guard fun hp => .bind (Yields.emit (hk.2 (by simpa using hp)) nofun) fun new _ _ => .pure ?_
    simpa using hs.append new
  | place, scope, .next span, k, dom, hk, hs => by
    unfold stmt
    refine .guard fun hp => .bind (Yields.emit (hk.2 (by simpa using hp)) nofun) fun new _ _ => .pure ?_
    simpa using hs.append new

theorem stmts_yields : ∀ (place : Place) (scope : Scope) (ss : List Stmt) {k : Enclosure} {dom : List Ref},
    k.Allows place → Binds dom scope → Yields k dom (stmts place scope ss) fun _ _ => True
  | _, _, [], _, _, _, _ => .pure trivial
  | place, scope, s :: ss, _, _, hk, hs =>
    .bind (stmt_yields place scope s hk hs) fun _ scope' hs' => stmts_yields place scope' ss hk hs'

theorem stmt?_yields : ∀ (place : Place) (scope : Scope) (s : Option Stmt) {k : Enclosure} {dom : List Ref},
    k.Allows place → Binds dom scope → Yields k dom (stmt? place scope s) fun _ _ => True
  | _, _, none, _, _, _, _ => .pure trivial
  | place, scope, some s, _, _, hk, hs => .bind (stmt_yields place scope s hk hs) fun _ _ _ => .pure trivial

theorem block_yields : ∀ (place : Place) (scope : Scope) (b : Block) {k : Enclosure} {dom : List Ref},
    k.Allows place → Binds dom scope → Yields k dom (block place scope b) fun _ _ => True
  | place, scope, .mk _ ss, _, _, hk, hs => stmts_yields place scope ss hk hs

end

/-! Items. -/

lemma computation_laid {e : Expr} {c : Computation} (hs : Binds [] scope)
    (hm : computation scope e d = .ok (c, d')) :
    d.code.Extends d'.code ∧ d'.code.Laid {} d.code.size [] c.body d'.code.size ∧ c.result ∈ c.body := by
  obtain ⟨⟨r, body⟩, d₁, hr, hm⟩ := bind_ok hm
  cases hm
  obtain ⟨-, hc, hb, hq⟩ := (expr_yields e hs).inBody hr
  exact ⟨hc, hb, by simpa using hq.1⟩

lemma computation?_laid {e : Option Expr} {c : Option Computation} (hs : Binds [] scope)
    (hm : e.mapM (computation scope) d = .ok (c, d')) :
    d.code.Extends d'.code ∧ (c = none → d' = d) ∧
      ∀ {x}, c = some x → d'.code.Laid {} d.code.size [] x.body d'.code.size ∧ x.result ∈ x.body := by
  cases e with
  | none =>
    cases hm
    exact ⟨.refl _, fun _ => rfl, nofun⟩
  | some e =>
    obtain ⟨x, d₁, hr, hm⟩ := bind_ok (m := computation scope e) (f := fun x => pure (some x)) hm
    cases hm
    obtain ⟨hc, hx⟩ := computation_laid hs hr
    exact ⟨hc, nofun, fun h => Option.some.inj h ▸ hx⟩

lemma params_yields {scope : Scope} : ∀ (seen : List String) (ps : List Param) {dom : List Ref}, Binds dom scope →
    Yields k dom (params scope seen ps) fun new rs => ∀ r ∈ rs, r ∈ dom ++ new
  | _, [], _, _ => .pure (by simp)
  | seen, p :: rest, dom, hs => by
    unfold params
    refine .guard fun _ => .bind (expr_yields p.ty hs) fun new r hr => ?_
    refine .bind (params_yields _ rest (hs.append new)) fun new' rs hrs => .pure fun x hx => ?_
    rcases List.mem_cons.1 hx with rfl | hx
    · simpa using List.mem_append_left new' hr.1
    · simpa using hrs x hx

lemma callConv_yields (isExternal : Bool) (e : Option Expr) :
    Yields k dom (callConv isExternal e) fun new _ => new = [] := by
  unfold callConv
  split
  · exact .pure rfl
  · split
    · exact .pure rfl
    · exact .pure rfl
    · exact .pure rfl
    · exact .fail
  · exact .fail

lemma arguments_yields : ∀ (i : Nat) (scope : Scope) (ps : List Param) {dom : List Ref},
    k.params = some (i + ps.length) → Binds dom scope →
    Yields k dom (arguments i scope ps) fun new scope' => Binds (dom ++ new) scope'
  | _, _, [], _, _, hs => .pure (by simpa using hs)
  | i, scope, p :: rest, dom, hk, hs => by
    have hi : k.admits (.arg i) = true := by simp [Enclosure.admits, hk]
    refine .bind (Yields.emit hi nofun) fun new r h => ?_
    have hs' : Binds (dom ++ new) (.localValue scope p.name.name r) := (hs.append new).localValue (by simp [h]) _
    have hk' : k.params = some (i + 1 + rest.length) := by rw [hk, List.length_cons, Nat.add_right_comm, Nat.add_assoc]
    exact (arguments_yields (i + 1) _ rest hk' hs').mono fun _ _ h => by simpa using h

lemma signature_yields (hs : Binds dom scope) (isExternal isInline : Bool) (f : FnItem) (src : Span) :
    Yields k dom (do
      let ps ← params scope [] f.params
      let ret ← expr scope f.ret
      let written ← callConv isExternal f.callConv
      let cc := if isInline then .inlined else written
      return (← emit (.fnType ps ret cc) src, cc)) fun new x => Results dom new x.1 := by
  refine .bind (params_yields [] f.params hs) fun new ps hp =>
    .bind (expr_yields f.ret (hs.append new)) fun new' r hr => ?_
  refine .bind (callConv_yields isExternal f.callConv) fun new'' cc h => ?_
  subst h
  refine .bind (Yields.emit rfl fun x hx => ?_) fun new'' t h => .pure (.ofLast (by simp [h]))
  rcases List.mem_append.1 hx with hx | hx
  · simpa using List.mem_append_left new' (hp x hx)
  · simpa [List.mem_singleton.1 hx] using hr.1

def Gives (d : Draft) (m : Lower α) (Q : α → Prop) : Prop := ∀ a d', m d = .ok (a, d') → Q a

lemma Gives.bind (h : ∀ a d', m d = .ok (a, d') → Gives d' (f a) Q) : Gives d (m >>= f) Q := by
  intro b d'' hm
  obtain ⟨a, d', hr, hm⟩ := bind_ok hm
  exact h a d' hr b d'' hm

lemma Gives.fail {cause : LowerCause} : Gives d (Lower.fail span cause >>= f) Q :=
  .bind nofun

lemma checkSupported_draft {modifiers : Modifiers} {align linkSection : Option Expr} {u : Unit}
    (hm : checkSupported modifiers align linkSection d = .ok (u, d')) : d' = d := by
  unfold checkSupported at hm
  obtain ⟨_, library⟩ := modifiers
  cases align <;> cases linkSection <;> cases library <;> cases hm
  rfl

def Made (d : Draft) (kind : DeclKind) : Prop := kind.Scoped ∧ kind.code.LaidOut d.code.size kind.bodies

lemma fn_made (hs : Binds [] scope) (f : FnItem) (src : Span) : Gives d (fn scope f src) fun g => Made d (.fn g) := by
  refine .bind fun _ d₁ hd₁ => ?_
  obtain rfl := checkSupported_draft hd₁
  dsimp only
  split
  · exact .fail
  · exact .fail
  · refine .bind fun ⟨⟨r, cc⟩, sig⟩ d₂ hr => ?_
    obtain ⟨-, -, hsig, hq⟩ :=
      (signature_yields (k := {}) hs (f.modifiers.has .external) (f.modifiers.has .inlined) f src).inBody hr
    have hq : r ∈ sig := by simpa using hq.1
    dsimp only
    split
    · intro g d' hm
      cases hm
      exact ⟨⟨⟨⟨_, _, hsig.toScoped⟩, hq⟩, nofun⟩, _, hsig, rfl⟩
    · next b _ =>
      refine .bind fun ⟨_, rs⟩ d₃ hb g d' hm => ?_
      cases hm
      have hy : Yields { params := some f.params.length } []
          (do block { inFn := true } (← arguments 0 scope f.params) b) fun _ _ => True :=
        .bind (arguments_yields 0 scope f.params (by simp) hs) fun _ _ hs' =>
          block_yields _ _ b ⟨fun _ => rfl, nofun⟩ hs'
      obtain ⟨-, hc, hw, -⟩ := hy.inBody hb
      refine ⟨⟨⟨⟨_, _, (hsig.mono hc).toScoped⟩, hq⟩, fun h => Option.some.inj h ▸ ⟨_, _, hw.toScoped⟩⟩, _,
        hsig.mono hc, ?_⟩
      refine ⟨_, ?_, rfl⟩
      simpa [DeclKind.code] using hw

lemma var_made (hs : Binds [] scope) (v : VarItem) : Gives d (var scope v) fun w => Made d (.var w) := by
  refine .bind fun _ d₁ hd₁ => ?_
  obtain rfl := checkSupported_draft hd₁
  dsimp only
  split
  · exact .fail
  · refine .bind fun ty d₂ ht => .bind fun init d₃ hi w d' hm => ?_
    cases hm
    obtain ⟨-, htn, ht⟩ := computation?_laid hs ht
    obtain ⟨hc, hin, hi⟩ := computation?_laid hs hi
    refine ⟨⟨?_, ?_⟩, ?_⟩
    · exact fun h => ⟨⟨_, _, ((ht h).1.mono hc).toScoped⟩, (ht h).2⟩
    · exact fun h => ⟨⟨_, _, (hi h).1.toScoped⟩, (hi h).2⟩
    · have laidOut {c : Code} {lo m : Nat} {x : Option Computation} {rest : List (Enclosure × List Ref)}
          (hn : x = none → lo = m) (hx : ∀ {y}, x = some y → c.Laid {} lo [] y.body m) (h : c.LaidOut m rest) :
          c.LaidOut lo (x.toList.map (fun y => (({} : Enclosure), y.body)) ++ rest) := by
        cases x with
        | none => exact hn rfl ▸ h
        | some y => exact ⟨m, hx rfl, h⟩
      have hend : d₃.code.LaidOut d₃.code.size [] := rfl
      have hinit := laidOut (fun h => congrArg (·.code.size) (hin h).symm) (fun h => (hi h).1) hend
      have hall := laidOut (fun h => congrArg (·.code.size) (htn h).symm) (fun h => (ht h).1.mono hc) hinit
      simpa [DeclKind.bodies, DeclKind.code] using hall

lemma item_made (hs : Binds [] scope) (it : Item) : Gives d (item scope it) (Made d) := by
  unfold item
  split
  · next f _ =>
    refine .bind fun g d₁ hg kind d' hm => ?_
    cases hm
    exact fn_made hs f it.span g d₁ hg
  · next v _ =>
    refine .bind fun w d₁ hw kind d' hm => ?_
    cases hm
    exact var_made hs v w d₁ hw
  · next b _ =>
    refine .bind fun ⟨_, body⟩ d₁ hb kind d' hm => ?_
    cases hm
    obtain ⟨-, -, hw, -⟩ := (block_yields {} scope b (k := {}) ⟨nofun, nofun⟩ hs).inBody hb
    exact ⟨⟨_, _, hw.toScoped⟩, _, hw, rfl⟩
  all_goals exact nofun

end Lower

lemma made_of_ofItem {it : Item} {name : String} {parent : Scope} {item : Decl}
    (h : ofItem it name parent = .ok item) : Lower.Made {} item.kind := by
  unfold ofItem at h
  cases hr : (Lower.item (.lowering parent parent.owner?) it).run {} with
  | error e =>
    rw [hr] at h
    cases h
  | ok x =>
    rw [hr] at h
    cases h
    exact Lower.item_made (fun _ => trivial) it _ _ hr

lemma scoped_of_ofItem {it : Item} {name : String} {parent : Scope} {item : Decl}
    (h : ofItem it name parent = .ok item) : item.kind.Scoped := (made_of_ofItem h).1

end Frontend.Untyped
