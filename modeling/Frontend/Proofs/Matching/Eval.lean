import Frontend.Proofs.Matching.Operand

/-! The walk through untyped code keeps two analyses in step, so that code is analyzed alike wherever the
declarations it mentions come out alike. -/

namespace Frontend.Analysis

variable {M : Pairing} {ρ : Pairs} {span span' : Span}

section

variable (hM : M.Lawful) (hs : M.spans span span')
include hM hs

/-! Mentions and exports. -/

lemma mention_inStep (name : String) :
    InStep M ρ (fun ρ => ρ) (mention M.ensureLeft name span) (mention M.ensureRight name span') :=
  engine_inStep fun _ _ _ _ he => hM.mentions name he hs

lemma declVal_inStep (name : String) :
    InStep M ρ Same (declVal M.ensureLeft name span) (declVal M.ensureRight name span') := by
  refine .bind (mention_inStep hM hs name) fun ρ₁ _ d d' hd => ?_
  refine .bind (declValue_inStep hM hs hd) fun ρ₂ h₂ v w ⟨hty, hval⟩ => ?_
  obtain ⟨ty, v⟩ := v
  obtain ⟨_, w⟩ := w
  obtain rfl := hty
  cases hval with
  | global m e t _ _ =>
    refine .bindSame (requireRuntime_inStep hM hs) fun _ => ?_
    refine .bindSame (constant_inStep hM hs _ (.declRef (h₂ _ _ hd))) fun ptr => ?_
    exact emit_inStep hM hs (by simp) _
  | _ => exact constant_inStep hM hs _ ⟨by constructor <;> assumption, fun _ => rfl⟩

lemma declRef_inStep (name : String) :
    InStep M ρ Same (declRef M.ensureLeft name span) (declRef M.ensureRight name span') := by
  refine .bind (mention_inStep hM hs name) fun ρ₁ _ d d' hd => ?_
  refine .bind (declValue_inStep hM hs hd) fun ρ₂ h₂ v w ⟨hty, hval⟩ => ?_
  obtain ⟨ty, v⟩ := v
  obtain ⟨_, w⟩ := w
  obtain rfl := hty
  cases hval <;> exact constant_inStep hM hs _ (.declRef (h₂ _ _ hd))

lemma exportNamed_inStep (target symbol : String) :
    InStep M ρ Same (exportNamed M.ensureLeft target symbol span) (exportNamed M.ensureRight target symbol span') := by
  refine .bind (mention_inStep hM hs target) fun ρ₁ _ d d' hd => ?_
  exact engine_inStep fun ρ₂ h₂ _ _ he => hM.exports symbol he hs (h₂ _ _ hd)

/-! Known operands, and the ends of calls. -/

lemma asType_inStep (i : Ref) : InStep M ρ Same (asType i span) (asType i span') := by
  refine .bind (valueOf?_bind_inStep Value.Matches.asType?_eq i) fun _ _ v w hv => ?_
  rw [hv]
  split
  · exact .pure fun _ _ => rfl
  · exact .bindSame (tyOf_inStep i) fun t => stop_inStep hM hs _

lemma typeConstant_inStep (t : Ty) : InStep M ρ Same (typeConstant t span) (typeConstant t span') :=
  constant_inStep hM hs .type (.type t)

lemma truth?_inStep (i : Ref) : InStep M ρ Same (truth? i span) (truth? i span') := by
  refine .bindTwins? (valueOf?_inStep i) (fun ρ₁ _ v w hv => ?_) (.pure fun _ _ => rfl)
  dsimp only
  rw [hv.same.asBool?_eq]
  split
  · exact .pure fun _ _ => rfl
  · exact stop_inStep hM hs _

lemma requireAll_inStep (rs : List Ref) : InStep M ρ Same (requireAll span rs) (requireAll span' rs) := by
  induction rs generalizing ρ with
  | nil => exact .pure fun _ _ => rfl
  | cons r rs ih => exact .bindTwins (requireComptime_inStep hM r hs) fun _ _ _ _ _ => ih

lemma leaveCall_inStep (kind : FrameKind) (value : Option Ref) :
    InStep M ρ Same (leaveCall kind value span) (leaveCall kind value span') := by
  have written {τ : Pairs} (kind : Typed.InstKind) (hk : ∀ v, kind ≠ .const v) : InStep M τ Same
      (do if ← isComptime then fail span .returnFromComptime
          let _ ← emit kind .noReturn span
          return Flow.noReturn)
      (do if ← isComptime then fail span' .returnFromComptime
          let _ ← emit kind .noReturn span'
          return Flow.noReturn) := by
    refine .bindSame isComptime_inStep fun c => .guard hM hs _ ?_
    exact .bindSame (emit_inStep hM hs hk _) fun _ => .pure fun _ _ => rfl
  cases kind with
  | comptime =>
    cases value with
    | some i => exact .pure fun _ _ => rfl
    | none => exact .bindSame (constant_inStep hM hs _ .void) fun _ => .pure fun _ _ => rfl
  | inlined target => exact written (.br target value) (by simp)
  | runtime => cases value <;> exact written _ (by simp)

lemma runtimeCall_inStep (f : Ref) (result : Ty) (args : List Ref) :
    InStep M ρ Same (runtimeCall f result args span) (runtimeCall f result args span') :=
  emitRuntime_inStep hM hs (by simp) result

lemma calleeOf_inStep {d d' : DeclId} (hd : ρ d d') :
    InStep M ρ (fun _ f f' => f.Matches M.spans f' ∧ (¬ M.overruns → f.Nests))
      (calleeOf d span) (calleeOf d' span') := by
  refine .bind (A := fun _ p p' => Option.Rel (fun f f' => f.source.Matches M.spans f'.source) (p.func? d)
    (p'.func? d') ∧ ∀ f, p.func? d = some f → ¬ M.overruns → f.source.Nests)
    (.read fun ρ₁ h₁ s t hst => ?_) fun ρ₁ _ p p' ⟨hp, hn⟩ => ?_
  · exact ⟨hM.func hst.engine (h₁ _ _ hd), fun f hf ho => hM.callee ho hst.engine hf⟩
  · generalize p.func? d = x at hp hn
    generalize p'.func? d' = y at hp
    cases hp with
    | none => exact stop_inStep hM hs _
    | some h => exact .pure fun _ _ => ⟨h, hn _ rfl⟩

end

/-! Frames and operands. -/

structure Frame.Matches (spans : Span → Span → Prop) (f f' : Frame) : Prop where
  code : f.code.Matches spans f'.code
  args : f'.args = f.args
  ret : f'.ret = f.ret
  kind : f'.kind = f.kind
  loop : f'.loop = f.loop

variable {frame frame' : Frame} {spans : Span → Span → Prop} {testBody loopBody : List Ref}

lemma Frame.Matches.ofCode {c c' : Untyped.Code} (hc : c.Matches spans c') (args : List Ref) (ret : Ty)
    (kind : FrameKind) : ({ code := c, args, ret, kind } : Frame).Matches spans { code := c', args, ret, kind } :=
  ⟨hc, rfl, rfl, rfl, rfl⟩

lemma Frame.Matches.withLoop (hf : frame.Matches spans frame') (l : LoopContext) :
    ({ frame with loop := l } : Frame).Matches spans { frame' with loop := l } :=
  { hf with loop := rfl }

lemma textValue_matches (s : String) : (textValue s).Matches ρ (textValue s) := by
  refine .slice _ (.array (List.forall₂_same.2 fun v hv => ?_))
  obtain ⟨b, -, rfl⟩ := List.mem_map.1 hv
  exact .int _

section

variable (hM : M.Lawful) (hf : frame.Matches M.spans frame')
include hM hf

lemma resolve_inStep (r : Ref) : InStep M ρ Same (resolve frame r) (resolve frame' r) := by
  refine .bind (A := fun _ s t => t.results = s.results) (.read fun _ _ _ _ h => h.results) fun _ _ s t hst => ?_
  rw [hst]
  split
  · exact .pure fun _ _ => rfl
  · exact stop_inStep hM (hf.code.span r) _

lemma resolveType_inStep (r : Ref) : InStep M ρ Same (resolveType frame r) (resolveType frame' r) :=
  .bindSame (resolve_inStep hM hf r) fun i => asType_inStep hM (hf.code.span r) i

lemma resolveInt_inStep (dest : Ty) (r : Ref) :
    InStep M ρ Same (resolveInt frame dest r) (resolveInt frame' dest r) := by
  have hs := hf.code.span r
  refine .bindSame (resolve_inStep hM hf r) fun i => .bindSame (coerce_inStep hM hs dest i) fun j => ?_
  refine .bindTwins (requireComptime_inStep hM j hs) fun ρ₁ _ v w hv => ?_
  cases hv.same with
  | int n => exact .pure fun _ _ => rfl
  | _ => exact fail_inStep hM hs (.expectedInteger (by constructor <;> assumption))

lemma resolveInt?_inStep (dest : Ty) :
    ∀ r : Option Ref, InStep M ρ Same (resolveInt? frame dest r) (resolveInt? frame' dest r)
  | none => .pure fun _ _ => rfl
  | some r => .bindSame (resolveInt_inStep hM hf dest r) fun _ => .pure fun _ _ => rfl

lemma elements_inStep (child : Ty) (rs : List Ref) :
    InStep M ρ (fun ρ => List.Forall₂ (Value.Matches ρ)) (elements frame child rs) (elements frame' child rs) := by
  induction rs generalizing ρ with
  | nil => exact .pure fun _ _ => .nil
  | cons r rs ih =>
    have hs := hf.code.span r
    refine .bindSame (resolve_inStep hM hf r) fun i => .bindSame (coerce_inStep hM hs child i) fun j => ?_
    refine .bindTwins (requireComptime_inStep hM j hs) fun ρ₁ _ v w hv => ?_
    refine .bind ih fun ρ₂ h₂ vs ws hvs => .pure fun ρ₃ h₃ => ?_
    exact .cons (hv.same.mono (h₂.trans h₃)) (Value.Matches.monoAll h₃ hvs)

lemma resolveTypes_inStep (rs : List Ref) : InStep M ρ Same (resolveTypes frame rs) (resolveTypes frame' rs) := by
  induction rs with
  | nil => exact .pure fun _ _ => rfl
  | cons r rs ih => exact .bindSame (resolveType_inStep hM hf r) fun _ => .bindSame ih fun _ => .pure fun _ _ => rfl

lemma coerceArgs_inStep (ts : List Ty) (rs : List Ref) :
    InStep M ρ Same (coerceArgs frame ts rs) (coerceArgs frame' ts rs) := by
  induction ts generalizing rs with
  | nil => exact .pure fun _ _ => rfl
  | cons t ts ih =>
    cases rs with
    | nil => exact .pure fun _ _ => rfl
    | cons r rs =>
      refine .bindSame (resolve_inStep hM hf r) fun i => ?_
      refine .bindSame (coerce_inStep hM (hf.code.span r) t i) fun j => ?_
      exact .bindSame (ih rs) fun js => .pure fun _ _ => rfl

/-! Instructions without bodies. -/

variable (hs : M.spans span span')
include hs

lemma arrayInit_inStep (ty : Ref) (elems : List Ref) :
    InStep M ρ Same (arrayInit frame ty elems span) (arrayInit frame' ty elems span') := by
  refine .bindSame (resolveType_inStep hM hf ty) fun t => ?_
  split
  · refine .guard hM hs _ (.bind (elements_inStep hM hf _ elems) fun _ _ _ _ hvs => ?_)
    exact constant_inStep hM hs _ (.array hvs)
  · exact stop_inStep hM hs _

lemma vectorType_inStep (len child : Ref) :
    InStep M ρ Same (vectorType frame len child span) (vectorType frame' len child span') :=
  .bindSame (resolveInt_inStep hM hf _ len) fun _ => .bindSame (resolveType_inStep hM hf child) fun _ =>
    .guard hM hs _ (typeConstant_inStep hM hs _)

lemma retValue_inStep (operand : Option Ref) :
    InStep M ρ Same (retValue frame operand span) (retValue frame' operand span') := by
  unfold retValue
  rw [hf.ret]
  cases operand with
  | some r =>
    refine .bindSame (resolve_inStep hM hf r) fun i => .bindSame (coerce_inStep hM hs _ i) fun j => ?_
    exact .pure fun _ _ => rfl
  | none => exact .ite (fun _ => .pure fun _ _ => rfl) fun _ => stop_inStep hM hs _

lemma ret_inStep (operand : Option Ref) : InStep M ρ Same (ret frame operand span) (ret frame' operand span') := by
  unfold ret
  rw [hf.kind]
  exact .bindSame (retValue_inStep hM hf hs operand) fun value => leaveCall_inStep hM hs _ value

lemma exitLoop_inStep (isLeave : Bool) :
    InStep M ρ Same (exitLoop frame isLeave span) (exitLoop frame' isLeave span') := by
  unfold exitLoop
  rw [hf.loop]
  cases frame.loop with
  | interpreted => exact .pure fun _ _ => rfl
  | emitted leave again =>
    refine .bindSame isComptime_inStep fun c => .guard hM hs _ ?_
    exact .bindSame (emit_inStep hM hs (by simp) _) fun _ => .pure fun _ _ => rfl
  | outside => exact stop_inStep hM hs _

lemma valueInst_inStep (inst : Untyped.Inst) :
    InStep M ρ Same (valueInst M.ensureLeft frame span inst) (valueInst M.ensureRight frame' span' inst) := by
  have operand {τ : Pairs} (r : Ref) := resolve_inStep (ρ := τ) hM hf r
  have type {τ : Pairs} (r : Ref) := resolveType_inStep (ρ := τ) hM hf r
  cases inst with
  | int v => exact constant_inStep hM hs _ (.int v)
  | float f => exact constant_inStep hM hs _ (.float f)
  | str s => exact constant_inStep hM hs _ ⟨textValue_matches s, fun _ => rfl⟩
  | bool b => exact constant_inStep hM hs _ (.bool b)
  | null => exact constant_inStep hM hs _ .null
  | undefined => exact constant_inStep hM hs _ .undefined
  | primitive t => exact typeConstant_inStep hM hs t
  | declVal name => exact declVal_inStep hM hs name
  | declRef name => exact declRef_inStep hM hs name
  | arg i =>
    unfold valueInst
    dsimp only
    rw [hf.args]
    split
    · exact .pure fun _ _ => rfl
    · exact stop_inStep hM hs _
  | alloc ty init =>
    refine .bindSame (operand init) fun i => ?_
    cases ty with
    | some r => exact .bindSame (type r) fun t => alloc_inStep hM hs t i
    | none => exact .bindSame (tyOf_inStep i) fun t => alloc_inStep hM hs t i
  | load ptr => exact .bindSame (operand ptr) fun i => load_inStep hM hs i
  | addressOf r => exact .bindSame (operand r) fun i => addressOf_inStep hM hs i
  | arith op l r => exact .bindSame (operand l) fun a => .bindSame (operand r) fun b => arith_inStep hM hs op a b
  | cmp op l r => exact .bindSame (operand l) fun a => .bindSame (operand r) fun b => compare_inStep hM hs op a b
  | boolOp isAnd l r =>
    exact .bindSame (operand l) fun a => .bindSame (operand r) fun b => boolOp_inStep hM hs isAnd a b
  | not r => exact .bindSame (operand r) fun i => not_inStep hM hs i
  | negate r => exact .bindSame (operand r) fun i => negate_inStep hM hs i
  | coerce ty r => exact .bindSame (type ty) fun t => .bindSame (operand r) fun i => coerce_inStep hM hs t i
  | ptrType size isConst sentinel child =>
    refine .bindSame (type child) fun t => .bindSame (resolveInt?_inStep hM hf t sentinel) fun z => ?_
    exact typeConstant_inStep hM hs _
  | arrayType len sentinel child =>
    refine .bindSame (resolveInt_inStep hM hf _ len) fun n => .bindSame (type child) fun t => ?_
    exact .bindSame (resolveInt?_inStep hM hf t sentinel) fun z => typeConstant_inStep hM hs _
  | optionalType child => exact .bindSame (type child) fun t => typeConstant_inStep hM hs _
  | vectorType len child => exact vectorType_inStep hM hf hs len child
  | fnType params result cc =>
    refine .bindSame (resolveTypes_inStep hM hf params) fun ps => .bindSame (type result) fun t => ?_
    exact typeConstant_inStep hM hs _
  | arrayInit ty elems => exact arrayInit_inStep hM hf hs ty elems
  | _ => exact constant_inStep hM hs _ .void

lemma plainInst_inStep (inst : Untyped.Inst) :
    InStep M ρ Same (plainInst M.ensureLeft frame span inst) (plainInst M.ensureRight frame' span' inst) := by
  have outside {τ : Pairs} (op : Typed.NullOp) (ty : Ty) (cause : Cause) (step : Step) : InStep M τ Same
      (do if ← isComptime then fail span cause
          let _ ← emit (.nullary op) ty span
          return step)
      (do if ← isComptime then fail span' cause
          let _ ← emit (.nullary op) ty span'
          return step) := by
    refine .bindSame isComptime_inStep fun c => .guard hM hs _ ?_
    exact .bindSame (emit_inStep hM hs (by simp) _) fun _ => .pure fun _ _ => rfl
  have value {τ : Pairs} : InStep M τ Same
      (do return Step.value (← valueInst M.ensureLeft frame span inst))
      (do return Step.value (← valueInst M.ensureRight frame' span' inst)) :=
    .bindSame (valueInst_inStep hM hf hs inst) fun _ => .pure fun _ _ => rfl
  cases inst with
  | store ptr r =>
    refine .bindSame (resolve_inStep hM hf ptr) fun p => .bindSame (resolve_inStep hM hf r) fun v => ?_
    exact .bindSame (store_inStep hM hs p v) fun _ => .pure fun _ _ => rfl
  | ret operand => exact .bindSame (ret_inStep hM hf hs operand) fun _ => .pure fun _ _ => rfl
  | leave => exact .bindSame (exitLoop_inStep hM hf hs true) fun _ => .pure fun _ _ => rfl
  | next => exact .bindSame (exitLoop_inStep hM hf hs false) fun _ => .pure fun _ _ => rfl
  | unreachable => exact outside .unreachable .noReturn .unreachableReached (.flow .noReturn)
  | compileError message => exact stop_inStep hM hs _
  | exportSymbol target symbol =>
    exact .bindSame (exportNamed_inStep hM hs target symbol) fun _ => .pure fun _ _ => rfl
  | breakpoint => exact outside .breakpoint .void .breakpointAtComptime .done
  | _ => exact value

end

/-! Bodies, loops and calls. -/

lemma walk_inStep {step step' : Ref → Analysis Step} (rs : List Ref)
    (h : ∀ r ∈ rs, InStep M ρ Same (step r) (step' r)) : InStep M ρ Same (walk step rs) (walk step' rs) := by
  induction rs with
  | nil => exact .pure fun _ _ => rfl
  | cons r rs ih =>
    have ih := ih fun x hx => h x (List.mem_cons_of_mem r hx)
    refine .bindSame (h r List.mem_cons_self) fun s => ?_
    cases s with
    | value i =>
      exact .bindSame (.modify fun _ _ _ _ hst => { hst with results := by rw [hst.results] }) fun _ => ih
    | done => exact ih
    | flow f => exact .pure fun _ _ => rfl

def RunnersMatch (M : Pairing) (fits : Untyped.Code → List Ref → Prop) (b b' : BodyRunner) : Prop :=
  ∀ {least : Nat} {ρ : Pairs} {f f' : Frame}, f.Matches M.spans f' → ∀ body, (¬ M.overruns → fits f.code body) →
    InStep (M.since least) ρ Same (b f body) (b' f' body)

variable {fits : Untyped.Code → List Ref → Prop} {body body' : BodyRunner} {enter enter' : Option BodyRunner}

lemma block_inStep (hb : RunnersMatch M fits body body') (hf : frame.Matches M.spans frame') {stmts : List Ref}
    (hstmts : ¬ M.overruns → fits frame.code stmts) (comptime : Bool) :
    InStep M ρ Same (block body frame stmts comptime) (block body' frame' stmts comptime) := by
  have plain {τ : Pairs} : InStep M τ Same (do return (← body frame stmts).step)
      (do return (← body' frame' stmts).step) := .bindSame (hb hf stmts hstmts) fun _ => .pure fun _ _ => rfl
  refine .bindSame isComptime_inStep fun c => .ite (fun _ => ?_) fun _ => plain
  exact .bindSame (inChild_inStep true (hb hf stmts hstmts)) fun (flow, _) => .pure fun _ _ => rfl

lemma isInlined_inStep (hM : M.Lawful) {d d' : DeclId} (hd : ρ d d') (cc : CallConv) :
    InStep M ρ Same (isInlined d cc) (isInlined d' cc) :=
  .read fun _ h₁ _ _ hst => by rw [hM.inlined hst.engine (h₁ _ _ hd)]

section

variable (hM : M.Lawful) (hb : RunnersMatch M fits body body') (hf : frame.Matches M.spans frame')
  (hs : M.spans span span')
include hM hb hf hs

lemma cond_inStep (test : Ref) {thenBody elseBody : List Ref} (hthen : ¬ M.overruns → fits frame.code thenBody)
    (helse : ¬ M.overruns → fits frame.code elseBody) :
    InStep M ρ Same (cond body frame test thenBody elseBody span)
      (cond body' frame' test thenBody elseBody span') := by
  have ht := hf.code.span test
  refine .bindSame (resolve_inStep hM hf test) fun i => .bindSame (coerce_inStep hM ht .bool i) fun c => ?_
  refine .bindSame (truth?_inStep hM ht c) fun taken => ?_
  cases taken with
  | some taken =>
    refine .bindSame (hb hf _ fun ho => ?_) fun _ => .pure fun _ _ => rfl
    cases taken with
    | true => exact hthen ho
    | false => exact helse ho
  | none =>
    refine .bindSame (requireRuntime_inStep hM hs) fun _ => ?_
    refine .bindSame (inChild_inStep false (hb hf thenBody hthen)) fun (thenFlow, t) => ?_
    refine .bindSame (inChild_inStep false (hb hf elseBody helse)) fun (elseFlow, e) => ?_
    exact .bindSame (emit_inStep hM hs (by simp) _) fun _ => .pure fun _ _ => rfl

/-- Each turn but the last is a branch, so that a loop ends before its fuel if that is more than the quota still
allows. -/
theorem comptimeLoop_inStep (test : Ref) (htest : ¬ M.overruns → fits frame.code testBody)
    (hloop : ¬ M.overruns → fits frame.code loopBody) (fuel : Nat)
    (hfuel : ¬ M.overruns → 0 < fuel ∧ ∀ {ρ e e'}, M.engines ρ e e' → e.program.options.branchQuota < M.least + fuel) :
    InStep M ρ Same (comptimeLoop body frame testBody test loopBody span fuel)
      (comptimeLoop body' frame' testBody test loopBody span' fuel) := by
  have ht := hf.code.span test
  induction fuel generalizing ρ M with
  | zero =>
    refine exhaust_inStep hM (Classical.byContradiction fun ho => ?_)
    exact absurd (hfuel ho).1 (Nat.lt_irrefl 0)
  | succ fuel ih =>
    have turn {τ : Pairs} : InStep M τ Same
        (do tick span; comptimeLoop body frame testBody test loopBody span fuel)
        (do tick span'; comptimeLoop body' frame' testBody test loopBody span' fuel) := by
      refine .afterTick hM hs fun ρ₁ _ e e' he hlt => ih (hM.since _) hb hf hs htest hloop (fun ho => ?_) ht
      obtain ⟨-, hq⟩ := hfuel ho
      have := hq he
      refine ⟨by omega, fun he' => ?_⟩
      have := hq he'
      show _ < M.least + 1 + fuel
      omega
    refine .bindSame (hb hf testBody htest) fun _ => .bindSame (resolve_inStep hM hf test) fun i => ?_
    refine .bindSame (coerce_inStep hM ht .bool i) fun c => ?_
    refine .bindTwins (requireComptime_inStep hM c ht) fun ρ₁ _ v w hv => ?_
    rw [hv.same.asBool?_eq]
    split
    · exact stop_inStep hM ht _
    · exact .pure fun _ _ => rfl
    · refine .bindSame (hb (hf.withLoop _) loopBody hloop) fun flow => ?_
      cases flow with
      | next => exact turn
      | again => exact turn
      | leave => exact .pure fun _ _ => rfl
      | ret i => exact .pure fun _ _ => rfl
      | noReturn => exact .pure fun _ _ => rfl

lemma runtimeLoop_inStep (test : Ref) (htest : ¬ M.overruns → fits frame.code testBody)
    (hloop : ¬ M.overruns → fits frame.code loopBody) :
    InStep M ρ Same (runtimeLoop body frame testBody test loopBody span)
      (runtimeLoop body' frame' testBody test loopBody span') := by
  have ht := hf.code.span test
  refine .bindSame (emit_inStep hM hs (by simp) _) fun outer => ?_
  refine .bindSame (inChild_inStep false ?_) fun (_, outerBody) => ?_
  · refine .bindSame (emit_inStep hM hs (by simp) _) fun repeated => ?_
    refine .bindSame (inChild_inStep false ?_) fun (_, turn) => setBody_inStep repeated turn
    refine .bindSame (hb hf testBody htest) fun _ => .bindSame (resolve_inStep hM hf test) fun i => ?_
    refine .bindSame (coerce_inStep hM ht .bool i) fun c => ?_
    refine .bindSame (inChild_inStep false ?_) fun (_, thenBody) => ?_
    · refine .bindSame (emit_inStep hM hs (by simp) _) fun inner => ?_
      exact .bindSame (inChild_inStep false (hb (hf.withLoop _) loopBody hloop)) fun (_, innerBody) =>
        setBody_inStep inner innerBody
    · exact .bindSame (inChild_inStep false (emit_inStep hM hs (by simp) _)) fun (_, elseBody) =>
        emit_inStep hM hs (by simp) _
  · exact .bindSame (setBody_inStep outer outerBody) fun _ => .pure fun _ _ => rfl

lemma loop_inStep (test : Ref) (htest : ¬ M.overruns → fits frame.code testBody)
    (hloop : ¬ M.overruns → fits frame.code loopBody) :
    InStep M ρ Same (loop body frame testBody test loopBody span)
      (loop body' frame' testBody test loopBody span') := by
  refine .bindSame isComptime_inStep fun c => .ite (fun _ => ?_) fun _ => ?_
  · refine .bind (A := fun _ o o' => o' = o ∧ (¬ M.overruns → ∀ {ρ e e'}, M.engines ρ e e' →
        e.program.options.branchQuota = o.branchQuota)) (.read fun ρ₁ _ s t hst => ?_) fun ρ₁ _ o o' ho => ?_
    · exact ⟨hM.options hst.engine, fun ho _ _ _ he => hM.quota ho hst.engine he⟩
    · rw [ho.1]
      refine comptimeLoop_inStep hM hb hf hs test htest hloop _ fun hm => ⟨Nat.succ_pos _, fun he => ?_⟩
      rw [ho.2 hm he]
      omega
  · exact runtimeLoop_inStep hM hb hf hs test htest hloop

end

section

variable (hM : M.Lawful) (hs : M.spans span span')
  (he : Option.Rel (RunnersMatch M Untyped.Code.Nests) enter enter')
include hM hs he

lemma entering_inStep :
    InStep M ρ (fun _ => RunnersMatch M Untyped.Code.Nests) (entering enter span) (entering enter' span') := by
  cases he with
  | none => exact .bindSame (options_inStep hM) fun o => stop_inStep hM hs _
  | some h => exact .pure fun _ _ => h

lemma comptimeCall_inStep {d d' : DeclId} (hd : ρ d d') (result : Ty) (args : List Ref) :
    InStep M ρ Same (comptimeCall enter d result args span) (comptimeCall enter' d' result args span') := by
  refine .bindSame (tick_inStep hM hs) fun _ => .bindSame (requireAll_inStep hM hs args) fun _ => ?_
  refine .bind (calleeOf_inStep hM hs hd) fun ρ₁ _ f f' ⟨hf, hn⟩ => ?_
  rw [hf.body]
  split
  · exact stop_inStep hM hs _
  · next b hb =>
    refine .bind (entering_inStep hM hs he) fun ρ₂ _ run run' hrun => ?_
    refine .bindSame (inChild_inStep true (inCall_inStep
      (hrun (.ofCode hf.code args result _) b fun ho => (hn ho).body hb)))
      fun (flow, _) => ?_
    cases flow with
    | ret i => exact .pure fun _ _ => rfl
    | _ => exact .ite (fun _ => constant_inStep hM hs _ .void) fun _ => stop_inStep hM hs _

lemma inlineCall_inStep {d d' : DeclId} (hd : ρ d d') (result : Ty) (args : List Ref) :
    InStep M ρ Same (inlineCall enter d result args span) (inlineCall enter' d' result args span') := by
  refine .bind (calleeOf_inStep hM hs hd) fun ρ₁ _ f f' ⟨hf, hn⟩ => ?_
  rw [hf.body]
  split
  · exact stop_inStep hM hs _
  · next b hb =>
    refine .bindSame (emit_inStep hM hs (by simp) _) fun target => ?_
    refine .bind (entering_inStep hM hs he) fun ρ₂ _ run run' hrun => ?_
    refine .bindSame (inChild_inStep false ?_) fun (_, expanded) => ?_
    · refine .bindSame (inCall_inStep (hrun (.ofCode hf.code args result _) b fun ho => (hn ho).body hb)) fun flow => ?_
      split
      · exact .pure fun _ _ => rfl
      · refine .guard hM hs _ ?_
        exact .bindSame (emit_inStep hM hs (by simp) _) fun _ => .pure fun _ _ => rfl
    · exact .bindSame (setBody_inStep target expanded) fun _ => .pure fun _ _ => rfl

lemma applyFn_inStep (f : Ref) (result : Ty) (cc : CallConv) (args : List Ref) (comptime : Bool) :
    InStep M ρ Same (applyFn enter f result cc args comptime span)
      (applyFn enter' f result cc args comptime span') := by
  have written {τ : Pairs} := runtimeCall_inStep (ρ := τ) hM hs f result args
  refine .bindTwins? (valueOf?_inStep f) (fun ρ₁ _ v w hv => ?_) written
  cases hv.same with
  | function hd =>
    refine .ite (fun _ => comptimeCall_inStep hM hs he hd result args) fun _ => ?_
    refine .bindSame (isInlined_inStep hM hd cc) fun b => ?_
    exact .ite (fun _ => inlineCall_inStep hM hs he hd result args) fun _ => written
  | externalFn hd => exact .ite (fun _ => stop_inStep hM hs _) fun _ => written
  | _ => exact written

end

lemma call_inStep (hM : M.Lawful) (he : Option.Rel (RunnersMatch M Untyped.Code.Nests) enter enter')
    (hf : frame.Matches M.spans frame') (hs : M.spans span span') (callee : Ref) (args : List Ref) :
    InStep M ρ Same (call enter frame callee args span) (call enter' frame' callee args span') := by
  refine .bindSame (resolve_inStep hM hf callee) fun f => .bindSame (tyOf_inStep f) fun ty => ?_
  split
  · refine .guard hM hs _ (.bindSame (coerceArgs_inStep hM hf _ args) fun coerced => ?_)
    refine .bindSame isComptime_inStep fun comptime => ?_
    refine .bindSame (applyFn_inStep hM hs he f _ _ coerced comptime) fun r => ?_
    exact .pure fun _ _ => rfl
  · exact stop_inStep hM hs _

/-! The recursion. -/

lemma NestsWithin.of_mem {c : Untyped.Code} {n : Nat} {body : List Ref} (h : c.NestsWithin n body) {r : Ref}
    (hr : r ∈ body) : c.NestsWithin n [r] := by
  cases n with
  | zero =>
    rw [Untyped.Code.NestsWithin] at h
    rw [h] at hr
    cases hr
  | succ n =>
    intro x hx
    rw [List.mem_singleton.1 hx]
    exact h r hr

lemma evalInst_inStep (hM : M.Lawful) (he : Option.Rel (RunnersMatch M Untyped.Code.Nests) enter enter') (nest : Nat)
    (hf : frame.Matches M.spans frame') (r : Ref) (hn : ¬ M.overruns → frame.code.NestsWithin nest [r]) :
    InStep M ρ Same (evalInst M.ensureLeft enter nest frame r) (evalInst M.ensureRight enter' nest frame' r) := by
  induction nest generalizing r ρ M frame frame' with
  | zero =>
    refine exhaust_inStep hM (Classical.byContradiction fun ho => ?_)
    cases hn ho
  | succ nest ih =>
    have hs := hf.code.span r
    have hb : RunnersMatch M (fun c b => c.NestsWithin nest b)
        (fun frame rs => walk (evalInst M.ensureLeft enter nest frame) rs)
        (fun frame rs => walk (evalInst M.ensureRight enter' nest frame) rs) := fun {least} _ _ _ hf rs hn =>
      walk_inStep rs fun r hr => ih (hM.since least) he hf r fun ho => NestsWithin.of_mem (hn ho) hr
    have inner {inst : Untyped.Inst} (hi : (frame.code.insts[r]?).getD .void = inst) (b : List Ref)
        (hb : b ∈ inst.bodies)
        (ho : ¬ M.overruns) : frame.code.NestsWithin nest b :=
      hn ho r (List.mem_singleton_self r) b (hi ▸ hb)
    unfold evalInst
    dsimp only
    rw [hf.code.insts]
    split
    · next hi => exact cond_inStep hM @hb hf hs _ (inner hi _ (.head _)) (inner hi _ (.tail _ (.head _)))
    · next hi => exact loop_inStep hM @hb hf hs _ (inner hi _ (.head _)) (inner hi _ (.tail _ (.head _)))
    · next hi => exact block_inStep @hb hf (inner hi _ (.head _)) _
    · exact call_inStep hM he hf hs _ _
    · exact plainInst_inStep hM hf hs _

lemma evalBody_inStep (hM : M.Lawful) (calls : Nat) :
    RunnersMatch M Untyped.Code.Nests (evalBody M.ensureLeft calls) (evalBody M.ensureRight calls) := by
  have walks {enter enter' : Option BodyRunner} (he : Option.Rel (RunnersMatch M Untyped.Code.Nests) enter enter')
      {least : Nat} {ρ : Pairs} {f f' : Frame} (hf : f.Matches M.spans f') (body : List Ref)
      (hn : ¬ M.overruns → f.code.Nests body) : InStep (M.since least) ρ Same
        (walk (evalInst M.ensureLeft enter (f.code.size + 1) f) body)
        (walk (evalInst M.ensureRight enter' (f'.code.size + 1) f') body) := by
    have size : f'.code.size = f.code.size := by
      unfold Untyped.Code.size
      rw [hf.code.insts]
    rw [size]
    exact walk_inStep body fun r hr => evalInst_inStep (hM.since least) he _ hf r fun ho =>
      NestsWithin.of_mem (hn ho) hr
  induction calls with
  | zero => exact walks .none
  | succ calls ih => exact walks (.some ih)

lemma run_inStep (hM : M.Lawful) : RunnersMatch M Untyped.Code.Nests (run M.ensureLeft) (run M.ensureRight) :=
  fun hf body hn => .bindSame (options_inStep (hM.since _)) fun o => evalBody_inStep hM o.callDepth hf body hn

lemma compute_inStep (hM : M.Lawful) (hf : frame.Matches M.spans frame') (c : Untyped.Computation)
    (hn : ¬ M.overruns → frame.code.Nests c.body) :
    InStep M ρ Same (compute M.ensureLeft frame c) (compute M.ensureRight frame' c) :=
  .bindSame (run_inStep hM hf c.body hn) fun _ => resolve_inStep hM hf c.result

end Frontend.Analysis
