import Mathlib.Order.Basic
import Frontend.Analysis.Eval
import Frontend.Proofs.Matching.Value

/-! Two analyses side by side. They go through the same untyped code, at sites of two programs or twice at one, and
stay in step as long as mentions of other declarations do. Pairs of declarations become known on the way, so a
relation of results is indexed by the pairs known so far and has to last when more are added. -/

namespace Frontend

/-- Both runs end with related results in related states, or both are interrupted alike. Where the first run is
interrupted in a way that is `lost`, nothing is said of the second. -/
inductive Alike {ε σ τ α β : Type} (A : α → β → Prop) (R : σ → τ → Prop) (E : ε → σ → τ → Prop)
    (lost : ε → Prop) : EStateM.Result ε σ α → EStateM.Result ε τ β → Prop
  | ok {a : α} {b : β} {s : σ} {t : τ} (ha : A a b) (hs : R s t) : Alike A R E lost (.ok a s) (.ok b t)
  | error {i : ε} {s : σ} {t : τ} (h : E i s t) : Alike A R E lost (.error i s) (.error i t)
  | lost {i : ε} {s : σ} {r : EStateM.Result ε τ β} (h : lost i) : Alike A R E lost (.error i s) r

lemma Alike.mono {ε σ τ α β : Type} {A : α → β → Prop} {R R' : σ → τ → Prop} {E : ε → σ → τ → Prop} {lost : ε → Prop}
    {r : EStateM.Result ε σ α} {r' : EStateM.Result ε τ β} (h : Alike A R E lost r r') (hR : ∀ s t, R s t → R' s t) :
    Alike A R' E lost r r' := by
  cases h with
  | ok ha hs => exact .ok ha (hR _ _ hs)
  | error he => exact .error he
  | lost hl => exact .lost hl

abbrev Pairs := DeclId → DeclId → Prop

namespace Typed

inductive InstKind.Matches (apart : Prop) (ρ : Pairs) : InstKind → InstKind → Prop
  | const {v w : Value} (h : v.Twin apart ρ w) : Matches apart ρ (.const v) (.const w)
  | code {k : InstKind} (h : ∀ v, k ≠ .const v) : Matches apart ρ k k

lemma InstKind.Matches.mono {apart : Prop} {ρ τ : Pairs} {k l : InstKind} (h : k.Matches apart ρ l)
    (hρ : ∀ d d', ρ d d' → τ d d') : k.Matches apart τ l := by
  cases h with
  | const hv => exact .const (hv.mono hρ)
  | code hk => exact .code hk

structure Inst.Matches (apart : Prop) (ρ : Pairs) (spans : Span → Span → Prop) (i j : Inst) : Prop where
  kind : i.kind.Matches apart ρ j.kind
  ty : j.ty = i.ty
  src : spans i.src j.src

end Typed

namespace Untyped

structure Code.Matches (spans : Span → Span → Prop) (c c' : Code) : Prop where
  insts : c'.insts = c.insts
  span : ∀ r, spans (c.span r) (c'.span r)

structure Fn.Matches (spans : Span → Span → Prop) (f f' : Fn) : Prop where
  code : f.code.Matches spans f'.code
  body : f'.body = f.body

def Inst.bodies : Inst → List (List Ref)
  | .cond _ t e => [t, e]
  | .loop testBody _ b => [testBody, b]
  | .block b _ => [b]
  | _ => []

def Code.NestsWithin (c : Code) : Nat → List Ref → Prop
  | 0, body => body = []
  | n + 1, body => ∀ r ∈ body, ∀ b ∈ ((c.insts[r]?).getD .void).bodies, c.NestsWithin n b

def Code.Nests (c : Code) (body : List Ref) : Prop := c.NestsWithin (c.size + 1) body

structure Fn.Nests (f : Fn) : Prop where
  signature : f.code.Nests f.signature.body
  body {b} : f.body = some b → f.code.Nests b

structure Var.Nests (v : Var) : Prop where
  ty {c} : v.ty = some c → v.code.Nests c.body
  init {c} : v.init = some c → v.code.Nests c.body

def DeclKind.Nests : DeclKind → Prop
  | .fn f => f.Nests
  | .var v => v.Nests
  | .comptime b => b.code.Nests b.body

end Untyped

structure TypedValue.Matches (ρ : Pairs) (v w : TypedValue) : Prop where
  ty : w.ty = v.ty
  val : v.val.Matches ρ w.val

structure TypedValue.Twin (apart : Prop) (ρ : Pairs) (v w : TypedValue) : Prop where
  ty : w.ty = v.ty
  val : v.val.Twin apart ρ w.val

namespace Analysis

/-- Two analyses, how their programs correspond while they go on, and what holds where they are interrupted. -/
structure Pairing where
  left : Site
  right : Site
  ensureLeft : DeclId → EngineM Unit
  ensureRight : DeclId → EngineM Unit
  spans : Span → Span → Prop
  engines : Pairs → Engine → Engine → Prop
  ended : Interrupt → Engine → Engine → Prop
  lost : Interrupt → Prop
  overruns : Prop
  apart : Prop
  least : Nat

abbrev Pairing.since (M : Pairing) (least : Nat) : Pairing := { M with least }

/-- What the programs of two analyses have to agree on for the analyses to stay in step. -/
structure Pairing.Lawful (M : Pairing) : Prop where
  biUnique {ρ e e'} : M.engines ρ e e' → Relator.BiUnique ρ
  options {ρ e e'} : M.engines ρ e e' → e'.program.options = e.program.options
  value {ρ e e' d d'} : M.engines ρ e e' → ρ d d' →
    Option.Rel (fun v w => w.ty = v.ty ∧ v.val.Matches ρ w.val) ((e.program.decl? d).bind (·.value))
      ((e'.program.decl? d').bind (·.value))
  func {ρ e e' d d'} : M.engines ρ e e' → ρ d d' →
    Option.Rel (fun f f' => f.source.Matches M.spans f'.source) (e.program.func? d) (e'.program.func? d')
  inlined {ρ e e' d d'} : M.engines ρ e e' → ρ d d' →
    (e'.program.decl? d').any Decl.isInlineFn = (e.program.decl? d).any Decl.isInlineFn
  fails {ρ e e' span span' c c'} : M.engines ρ e e' → M.spans span span' → c.Matches ρ c' →
    M.ended .analysisFail (e.modifyProgram (·.fail M.left.scope span c))
      (e'.modifyProgram (·.fail M.right.scope span' c'))
  stops {ρ e e' i} : M.engines ρ e e' → i ≠ .analysisFail → (i = .exhausted → M.overruns) → M.ended i e e'
  quota {ρ τ e e' e₁ e₁'} : ¬ M.overruns → M.engines ρ e e' → M.engines τ e₁ e₁' →
    e₁.program.options.branchQuota = e.program.options.branchQuota
  callee {ρ e e' d f} : ¬ M.overruns → M.engines ρ e e' → e.program.func? d = some f → f.source.Nests
  mentions {ρ e e' span span'} (name : String) : M.engines ρ e e' → M.spans span span' →
    ∃ ρ₁, ρ ≤ ρ₁ ∧ Alike ρ₁ (M.engines ρ₁) M.ended M.lost
      (EngineM.mention M.ensureLeft M.left name span e) (EngineM.mention M.ensureRight M.right name span' e')
  exports {ρ e e' span span' d d'} (symbol : String) : M.engines ρ e e' → M.spans span span' → ρ d d' →
    ∃ ρ₁, ρ ≤ ρ₁ ∧ Alike Eq (M.engines ρ₁) M.ended M.lost
      (EngineM.exportSymbol M.ensureLeft M.left.scope span symbol d e)
      (EngineM.exportSymbol M.ensureRight M.right.scope span' symbol d' e')

variable {M : Pairing}

lemma Pairing.Lawful.since (h : M.Lawful) (least : Nat) : (M.since least).Lawful := { h with }

def Pointwise {α β : Type} (R : α → β → Prop) (a : Array α) (b : Array β) : Prop :=
  ∀ i : Nat, Option.Rel R a[i]? b[i]?

namespace Pointwise
variable {α β : Type} {R : α → β → Prop} {a : Array α} {b : Array β}

lemma mapRel {γ δ : Type} {S : γ → δ → Prop} {f : α → γ} {g : β → δ} (h : ∀ x y, R x y → S (f x) (g y)) :
    ∀ {o : Option α} {o' : Option β}, Option.Rel R o o' → Option.Rel S (o.map f) (o'.map g)
  | _, _, .none => .none
  | _, _, .some hxy => .some (h _ _ hxy)

variable {S : α → β → Prop}

lemma getDRel {x : α} {y : β} (hxy : S x y) (h : ∀ a b, R a b → S a b) :
    ∀ {o : Option α} {o' : Option β}, Option.Rel R o o' → S (o.getD x) (o'.getD y)
  | _, _, .none => hxy
  | _, _, .some hab => h _ _ hab

lemma isSome_eq : ∀ {o : Option α} {o' : Option β}, Option.Rel R o o' → o'.isSome = o.isSome
  | _, _, .none => rfl
  | _, _, .some _ => rfl

lemma mono (h : Pointwise R a b) (hRS : ∀ x y, R x y → S x y) : Pointwise S a b := by
  intro i
  have := mapRel (f := id) (g := id) hRS (h i)
  rwa [Option.map_id, Option.map_id] at this

lemma size_eq (h : Pointwise R a b) : b.size = a.size := by
  have key : ∀ i, i < b.size ↔ i < a.size := fun i => by
    simpa using Bool.eq_iff_iff.1 (isSome_eq (h i))
  have ha := key a.size
  have hb := key b.size
  omega

lemma push (h : Pointwise R a b) {x : α} {y : β} (hxy : R x y) : Pointwise R (a.push x) (b.push y) := by
  intro i
  rw [Array.getElem?_push, Array.getElem?_push, h.size_eq]
  split
  · exact .some hxy
  · exact h i

lemma modify (h : Pointwise R a b) (k : Nat) {f : α → α} {g : β → β} (hfg : ∀ x y, R x y → R (f x) (g y)) :
    Pointwise R (a.modify k f) (b.modify k g) := by
  intro i
  rw [Array.getElem?_modify, Array.getElem?_modify]
  split
  · exact mapRel hfg (h i)
  · exact h i

end Pointwise

structure State.Matches (M : Pairing) (ρ : Pairs) (s t : State) : Prop where
  engine : M.engines ρ s.engine t.engine
  insts : Pointwise (Typed.Inst.Matches M.apart ρ M.spans) s.block.arena.insts t.block.arena.insts
  limit : t.block.arena.limit = s.block.arena.limit
  body : t.block.insts = s.block.insts
  comptime : t.block.isComptime = s.block.isComptime
  results : t.results = s.results
  slots : Pointwise (TypedValue.Twin M.apart ρ) s.slots t.slots
  branches : t.branches = s.branches
  least : M.least ≤ s.branches

namespace State.Matches
variable {M : Pairing} {ρ : Pairs} {s t : State}

section

variable (h : s.Matches M ρ t)
include h

lemma size_eq : t.block.arena.size = s.block.arena.size := h.insts.size_eq

lemma hasRoom_eq : t.block.arena.hasRoom = s.block.arena.hasRoom := by
  unfold Typed.Arena.hasRoom
  rw [h.limit, h.size_eq]

lemma inst (r : Ref) :
    (s.block.arena.inst r).kind.Matches M.apart ρ (t.block.arena.inst r).kind
      ∧ (t.block.arena.inst r).ty = (s.block.arena.inst r).ty :=
  Pointwise.getDRel (S := fun i j => i.kind.Matches M.apart ρ j.kind ∧ j.ty = i.ty) ⟨.const .void, rfl⟩
    (fun _ _ hi => ⟨hi.kind, hi.ty⟩) (h.insts r)

lemma ty_eq (r : Ref) : t.block.arena.ty r = s.block.arena.ty r := (h.inst r).2

lemma value? (r : Ref) : Option.Rel (Value.Twin M.apart ρ) (s.block.arena.value? r) (t.block.arena.value? r) := by
  unfold Typed.Arena.value? Typed.Inst.value?
  have hk := (h.inst r).1
  generalize (s.block.arena.inst r).kind = k at hk
  generalize (t.block.arena.inst r).kind = l at hk
  cases hk with
  | const hv => exact .some hv
  | code hk =>
    cases k with
    | const v => exact absurd rfl (hk v)
    | _ => exact .none

lemma withEngine {ρ₁ : Pairs} (hρ : ρ ≤ ρ₁) {e e' : Engine} (he : M.engines ρ₁ e e') :
    ({ s with engine := e } : State).Matches M ρ₁ { t with engine := e' } where
  engine := he
  insts := h.insts.mono fun _ _ hi => ⟨hi.kind.mono hρ, hi.ty, hi.src⟩
  limit := h.limit
  body := h.body
  comptime := h.comptime
  results := h.results
  slots := h.slots.mono fun _ _ hv => ⟨hv.ty, hv.val.mono hρ⟩
  branches := h.branches
  least := h.least

end

lemma since {least : Nat} (h : s.Matches (M.since least) ρ t) (hl : M.least ≤ least) : s.Matches M ρ t :=
  { h with least := Nat.le_trans hl h.least }

lemma push (h : s.Matches M ρ t) {i j : Typed.Inst} (hij : i.Matches M.apart ρ M.spans j) (body : List Ref) :
    ({ s with block.arena := s.block.arena.push i, block.insts := body } : State).Matches M ρ
      { t with block.arena := t.block.arena.push j, block.insts := body } where
  __ := h
  insts := h.insts.push hij
  body := rfl

end State.Matches

def State.Stops (M : Pairing) (i : Interrupt) (s t : State) : Prop :=
  M.ended i s.engine t.engine ∧ t.block.arena.limit = s.block.arena.limit ∧
    ∃ ρ e e', M.engines ρ e e' ∧
      Pointwise (Typed.Inst.Matches M.apart ρ M.spans) s.block.arena.insts t.block.arena.insts

lemma State.Matches.stops {ρ : Pairs} {s t : State} (h : s.Matches M ρ t) {i : Interrupt} {e e' : Engine}
    (he : M.ended i e e') : State.Stops M i { s with engine := e } { t with engine := e' } :=
  ⟨he, h.limit, ρ, _, _, h.engine, h.insts⟩

variable {α β γ δ : Type}

/-- From states in step, both analyses reach results related by `A` in states that are again in step. -/
def InStep (M : Pairing) (ρ : Pairs) (A : Pairs → α → β → Prop) (m : Analysis α) (m' : Analysis β) : Prop :=
  ∀ ρ₁, ρ ≤ ρ₁ → ∀ s t, s.Matches M ρ₁ t →
    ∃ ρ₂, ρ₁ ≤ ρ₂ ∧ Alike (A ρ₂) (State.Matches M ρ₂) (State.Stops M) M.lost
      (m M.left s) (m' M.right t)

abbrev Same : Pairs → α → α → Prop := fun _ => Eq

abbrev Twins (apart : Prop) : Pairs → Value → Value → Prop := Value.Twin apart

abbrev Twins? (apart : Prop) : Pairs → Option Value → Option Value → Prop := fun ρ => Option.Rel (Value.Twin apart ρ)

namespace InStep
variable {M : Pairing} {ρ : Pairs} {A : Pairs → α → β → Prop} {B : Pairs → γ → δ → Prop} {m : Analysis α}
  {m' : Analysis β}

lemma mono (h : InStep M ρ A m m') {ρ₁ : Pairs} (hρ : ρ ≤ ρ₁) : InStep M ρ₁ A m m' :=
  fun ρ₂ h₂ => h ρ₂ (hρ.trans h₂)

lemma pure {a : α} {b : β} (h : ∀ ρ₁, ρ ≤ ρ₁ → A ρ₁ a b) : InStep M ρ A (Pure.pure a) (Pure.pure b) :=
  fun ρ₁ hρ _ _ hst => ⟨ρ₁, le_rfl, .ok (h ρ₁ hρ) hst⟩

variable {f : α → Analysis γ}

lemma bind {f' : β → Analysis δ} (hm : InStep M ρ A m m')
    (hf : ∀ ρ₁, ρ ≤ ρ₁ → ∀ a b, A ρ₁ a b → InStep M ρ₁ B (f a) (f' b)) : InStep M ρ B (m >>= f) (m' >>= f') := by
  intro ρ₁ h₁ s t hst
  obtain ⟨ρ₂, h₂, h⟩ := hm ρ₁ h₁ s t hst
  show ∃ ρ₃, ρ₁ ≤ ρ₃ ∧ Alike (B ρ₃) (State.Matches M ρ₃) _ _
    (EStateM.bind (m M.left) (fun a => f a M.left) s) (EStateM.bind (m' M.right) (fun b => f' b M.right) t)
  unfold EStateM.bind
  revert h
  generalize m M.left s = r
  generalize m' M.right t = r'
  intro h
  cases h with
  | ok ha hs =>
    obtain ⟨ρ₃, h₃, h⟩ := hf ρ₂ (h₁.trans h₂) _ _ ha ρ₂ le_rfl _ _ hs
    exact ⟨ρ₃, h₂.trans h₃, h⟩
  | error he => exact ⟨ρ₂, h₂, .error he⟩
  | lost hl => exact ⟨ρ₂, h₂, .lost hl⟩

lemma bindSame {m' : Analysis α} {f' : α → Analysis δ} (hm : InStep M ρ Same m m')
    (hf : ∀ a, InStep M ρ B (f a) (f' a)) : InStep M ρ B (m >>= f) (m' >>= f') :=
  hm.bind fun _ hρ a _ hab => hab ▸ (hf a).mono hρ

lemma bindTwins {m m' : Analysis Value} {f : Value → Analysis γ} {f' : Value → Analysis δ}
    (hm : InStep M ρ (Twins M.apart) m m')
    (hf : ∀ ρ₁, ρ ≤ ρ₁ → ∀ v w : Value, v.Twin M.apart ρ₁ w → InStep M ρ₁ B (f v) (f' w)) :
    InStep M ρ B (m >>= f) (m' >>= f') :=
  hm.bind hf

lemma bindTwins? {m m' : Analysis (Option Value)} {f : Option Value → Analysis γ}
    {f' : Option Value → Analysis δ} (hm : InStep M ρ (Twins? M.apart) m m')
    (hsome : ∀ ρ₁, ρ ≤ ρ₁ → ∀ v w : Value, v.Twin M.apart ρ₁ w → InStep M ρ₁ B (f (some v)) (f' (some w)))
    (hnone : InStep M ρ B (f none) (f' none)) : InStep M ρ B (m >>= f) (m' >>= f') := by
  refine hm.bind fun ρ₁ hρ a b hab => ?_
  cases hab with
  | none => exact hnone.mono hρ
  | some h => exact hsome ρ₁ hρ _ _ h

lemma ite {c : Prop} [Decidable c] {n : Analysis α} {n' : Analysis β} (ht : c → InStep M ρ A m m')
    (hf : ¬ c → InStep M ρ A n n') : InStep M ρ A (if c then m else n) (if c then m' else n') := by
  split
  · exact ht ‹c›
  · exact hf ‹¬ c›

lemma read {f : State → α} {g : State → β} (h : ∀ ρ₁, ρ ≤ ρ₁ → ∀ s t, s.Matches M ρ₁ t → A ρ₁ (f s) (g t)) :
    InStep M ρ A (fun _ s => .ok (f s) s) (fun _ t => .ok (g t) t) :=
  fun ρ₁ hρ s t hst => ⟨ρ₁, le_rfl, .ok (h ρ₁ hρ s t hst) hst⟩

lemma modify {f g : State → State}
    (h : ∀ ρ₁, ρ ≤ ρ₁ → ∀ s t, s.Matches M ρ₁ t → (f s).Matches M ρ₁ (g t)) :
    InStep M ρ Same (modify f : Analysis Unit) (modify g) :=
  fun ρ₁ hρ s t hst => ⟨ρ₁, le_rfl, .ok rfl (h ρ₁ hρ s t hst)⟩

end InStep

/-! The steps that evaluation is made of. -/

section
variable {M : Pairing} {ρ : Pairs} {span span' : Span} {A : Pairs → α → β → Prop} {k : Unit → Analysis α}
  {k' : Unit → Analysis β} {m : Analysis α} {m' : Analysis β} {kind : Typed.InstKind}

lemma engine_inStep {m : EngineM α} {m' : EngineM β} (h : ∀ ρ₁, ρ ≤ ρ₁ → ∀ e e', M.engines ρ₁ e e' →
      ∃ ρ₂, ρ₁ ≤ ρ₂ ∧ Alike (A ρ₂) (M.engines ρ₂) M.ended M.lost (m e) (m' e')) :
    InStep M ρ A (engine m) (engine m') := by
  intro ρ₁ hρ s t hst
  obtain ⟨ρ₂, h₂, h⟩ := h ρ₁ hρ _ _ hst.engine
  refine ⟨ρ₂, h₂, ?_⟩
  unfold engine
  revert h
  generalize m s.engine = r
  generalize m' t.engine = r'
  intro h
  cases h with
  | ok ha he => exact .ok ha (hst.withEngine h₂ he)
  | error he => exact .error (hst.stops he)
  | lost hl => exact .lost hl

section

variable (hM : M.Lawful)
include hM

lemma fail_inStep (hs : M.spans span span') {c c' : Cause} (hc : c.Matches ρ c') :
    InStep M ρ A (fail span c) (fail span' c') := by
  intro ρ₁ hρ s t hst
  exact ⟨ρ₁, le_rfl, .error (hst.stops (hM.fails hst.engine hs (hc.mono hρ)))⟩

lemma stop_inStep (hs : M.spans span span') (c : Cause) : InStep M ρ A (fail span c) (fail span' c) :=
  fail_inStep hM hs (.same c)

lemma InStep.guardIff (hs : M.spans span span') {c c' : Prop} [Decidable c] [Decidable c'] (cause : Cause)
    (hc : c ↔ c') (h : InStep M ρ A (k ()) (k' ())) :
    InStep M ρ A (if c then fail span cause >>= k else k ()) (if c' then fail span' cause >>= k' else k' ()) := by
  by_cases hc' : c'
  · rw [if_pos (hc.2 hc'), if_pos hc']
    exact .bindSame (stop_inStep hM hs cause) fun _ => h
  · rw [if_neg (hc'.imp hc.1), if_neg hc']
    exact h

lemma InStep.guard (hs : M.spans span span') {c : Prop} [Decidable c] (cause : Cause)
    (h : InStep M ρ A (k ()) (k' ())) :
    InStep M ρ A (if c then fail span cause >>= k else k ()) (if c then fail span' cause >>= k' else k' ()) :=
  .guardIff hM hs cause Iff.rfl h

lemma InStep.ofBiUnique (h : ∀ ρ₁, ρ ≤ ρ₁ → Relator.BiUnique ρ₁ → InStep M ρ₁ A m m') : InStep M ρ A m m' :=
  fun ρ₁ hρ s t hst => h ρ₁ hρ (hM.biUnique hst.engine) ρ₁ le_rfl s t hst

lemma exhaust_inStep (ho : M.overruns) : InStep M ρ A (throw .exhausted : Analysis α) (throw .exhausted) :=
  fun ρ₁ _ _ _ hst => ⟨ρ₁, le_rfl, .error (hst.stops (hM.stops hst.engine (by decide) fun _ => ho))⟩

lemma ofExcept_inStep (hs : M.spans span span') {x y : Except Cause Value} (h : Value.ResultsMatch M.apart ρ x y) :
    InStep M ρ (Twins M.apart) (ofExcept span x) (ofExcept span' y) := by
  cases h with
  | ok hv => exact .pure fun _ hρ => hv.mono hρ
  | error hc => exact fail_inStep hM hs hc

lemma addWith_inStep {add add' : Typed.Block → Typed.Block}
    (h : ∀ ρ₁, ρ ≤ ρ₁ → ∀ s t : State, s.Matches M ρ₁ t →
      ({ s with block := add s.block } : State).Matches M ρ₁ { t with block := add' t.block }) :
    InStep M ρ Same (addWith add) (addWith add') := by
  intro ρ₁ hρ s t hst
  refine ⟨ρ₁, le_rfl, ?_⟩
  unfold addWith
  rw [hst.hasRoom_eq]
  split
  · exact .ok hst.size_eq.symm (h ρ₁ hρ s t hst)
  · exact .error (hst.stops (hM.stops hst.engine (by decide) nofun))

lemma emit_inStep (hs : M.spans span span') (hk : ∀ v, kind ≠ .const v) (ty : Ty) :
    InStep M ρ Same (emit kind ty span) (emit kind ty span') := by
  refine addWith_inStep hM fun ρ₁ _ s t hst => ?_
  unfold Typed.Block.add
  rw [hst.body, hst.size_eq]
  exact hst.push (i := ⟨kind, ty, span⟩) (j := ⟨kind, ty, span'⟩) ⟨.code hk, rfl, hs⟩ _

lemma constant_inStep (hs : M.spans span span') (ty : Ty) {v w : Value} (hv : v.Twin M.apart ρ w) :
    InStep M ρ Same (constant ty v span) (constant ty w span') := by
  refine addWith_inStep hM fun ρ₁ hρ s t hst => ?_
  unfold Typed.Block.addConst
  rw [← hst.body]
  exact hst.push (i := ⟨.const v, ty, span⟩) (j := ⟨.const w, ty, span'⟩) ⟨.const (hv.mono hρ), rfl, hs⟩ _

end

lemma tyOf_inStep (r : Ref) : InStep M ρ Same (tyOf r) (tyOf r) :=
  .read fun _ _ _ _ hst => (hst.ty_eq r).symm

lemma valueOf?_inStep (r : Ref) : InStep M ρ (Twins? M.apart) (valueOf? r) (valueOf? r) :=
  .read fun _ _ _ _ hst => hst.value? r

lemma isComptime_inStep : InStep M ρ Same isComptime isComptime :=
  .read fun _ _ _ _ hst => hst.comptime.symm

lemma options_inStep (hM : M.Lawful) : InStep M ρ Same options options :=
  .read fun _ _ _ _ hst => (hM.options hst.engine).symm

lemma setBody_inStep (r : Ref) (body : List Ref) : InStep M ρ Same (setBody r body) (setBody r body) := by
  refine .modify fun ρ₁ _ s t hst => { hst with insts := hst.insts.modify r fun i j hij => ?_ }
  obtain ⟨hk, hty, hsrc⟩ := hij
  obtain ⟨ki, ti, si⟩ := i
  obtain ⟨kj, tj, sj⟩ := j
  cases hk with
  | const hv => exact ⟨.const hv, hty, hsrc⟩
  | code hk =>
    cases ki with
    | const v => exact absurd rfl (hk v)
    | _ => exact ⟨.code (by intro v hv; cases hv), hty, hsrc⟩

lemma requireRuntime_inStep (hM : M.Lawful) (hs : M.spans span span') :
    InStep M ρ Same (requireRuntime span) (requireRuntime span') := by
  refine .bindSame isComptime_inStep fun c => .ite (fun _ => stop_inStep hM hs _) fun _ => .pure fun _ _ => rfl

lemma emitRuntime_inStep (hM : M.Lawful) (hs : M.spans span span') (hk : ∀ v, kind ≠ .const v) (ty : Ty) :
    InStep M ρ Same (do requireRuntime span; emit kind ty span) (do requireRuntime span'; emit kind ty span') :=
  .bindSame (requireRuntime_inStep hM hs) fun _ => emit_inStep hM hs hk ty

lemma requireComptime_inStep (hM : M.Lawful) (r : Ref) (hs : M.spans span span') :
    InStep M ρ (Twins M.apart) (requireComptime r span) (requireComptime r span') :=
  .bindTwins? (valueOf?_inStep r) (fun _ _ _ _ hv => .pure fun _ hρ => hv.mono hρ) (stop_inStep hM hs _)

lemma inChild_inStep (comptime : Bool) {m' : Analysis α} (h : InStep M ρ Same m m') :
    InStep M ρ Same (inChild comptime m) (inChild comptime m') := by
  refine .bind (A := fun ρ s t => s.Matches M ρ t) (.read fun _ _ _ _ hst => hst) fun ρ₁ hρ s t hst => ?_
  refine .bindSame isComptime_inStep fun was => ?_
  refine .bindSame (.modify fun _ _ _ _ hst => { hst with body := rfl, comptime := rfl }) fun _ => ?_
  refine .bindSame (h.mono hρ) fun a => ?_
  refine .bind (A := fun _ s t => t.block.insts = s.block.insts) (.read fun _ _ _ _ h => h.body)
    fun _ _ u v huv => ?_
  refine .bindSame (.modify fun _ _ _ _ h => { h with body := hst.body, comptime := rfl }) fun _ => ?_
  exact .pure fun _ _ => by rw [huv]

lemma inCall_inStep {m' : Analysis α} (h : InStep M ρ Same m m') : InStep M ρ Same (inCall m) (inCall m') := by
  refine .bind (A := fun ρ s t => s.Matches M ρ t) (.read fun _ _ _ _ hst => hst) fun ρ₁ hρ s t hst => ?_
  refine .bindSame (.modify fun _ _ _ _ hst => { hst with results := rfl }) fun _ => ?_
  refine .bindSame (h.mono hρ) fun a => ?_
  refine .bindSame (.modify fun _ _ _ _ h => { h with results := hst.results }) fun _ => ?_
  exact .pure fun _ _ => rfl

lemma tick_bind (site : Site) (s : State) (span : Span) (m : Analysis α) :
    (do tick span; m : Analysis α) site s =
      if s.engine.program.options.branchQuota < s.branches + 1 then
        (fail span (.branchQuota s.engine.program.options.branchQuota) : Analysis α) site
          { s with branches := s.branches + 1 }
      else m site { s with branches := s.branches + 1 } := by
  show (do (if s.engine.program.options.branchQuota < s.branches + 1 then
      (fail span (.branchQuota s.engine.program.options.branchQuota) : Analysis Unit) else Pure.pure ()); m :
    Analysis α) site { s with branches := s.branches + 1 } = _
  split <;> rfl

lemma InStep.afterTick (hM : M.Lawful) (hs : M.spans span span')
    (h : ∀ ρ₁, ρ ≤ ρ₁ → ∀ e e', M.engines ρ₁ e e' → M.least < e.program.options.branchQuota →
      InStep (M.since (M.least + 1)) ρ₁ A m m') :
    InStep M ρ A (do tick span; m) (do tick span'; m') := by
  intro ρ₁ hρ s t hst
  have hst₁ : ({ s with branches := s.branches + 1 } : State).Matches (M.since (M.least + 1)) ρ₁
      { t with branches := s.branches + 1 } :=
    { hst with branches := rfl, least := Nat.succ_le_succ hst.least }
  rw [tick_bind, tick_bind, hM.options hst.engine, hst.branches]
  split
  · exact ⟨ρ₁, le_rfl, .error (hst.stops (hM.fails hst.engine hs (.same _)))⟩
  · next hq =>
    have hlt : M.least < s.engine.program.options.branchQuota := by
      have := hst.least
      omega
    obtain ⟨ρ₂, h₂, ha⟩ := h ρ₁ hρ _ _ hst.engine hlt ρ₁ le_rfl _ _ hst₁
    exact ⟨ρ₂, h₂, ha.mono fun _ _ h => h.since (Nat.le_succ _)⟩

lemma tick_inStep (hM : M.Lawful) (hs : M.spans span span') : InStep M ρ Same (tick span) (tick span') := by
  refine .bindSame (.modify fun _ _ _ _ hst => { hst with
    branches := by rw [hst.branches]
    least := Nat.le_succ_of_le hst.least }) fun _ => ?_
  refine .bindSame (options_inStep hM) fun o => ?_
  refine .bind (A := fun _ s t => t.branches = s.branches) (.read fun _ _ _ _ h => h.branches)
    fun ρ₁ _ s t hst => ?_
  rw [hst]
  exact .ite (fun _ => stop_inStep hM hs _) fun _ => .pure fun _ _ => rfl

end

end Analysis
end Frontend
