import Frontend.Proofs.Writing.Eval

/-! Calls, branches and loops, and the recursion through them. -/

namespace Frontend.Analysis

open Typed (Arena InstKind)
open Untyped (Code)

variable {G : Engine → Engine → Prop} {J : Engine → Prop} {C : Context} {site : Site} {s s' s'' : State} {α β : Type}
  {R : β → State → Prop} {lo mid hi : Nat} {dom : List Ref} {frame : Frame} {r x : Nat} {span : Span} {ty : Ty}
  {ensure : DeclId → EngineM Unit} {enter : Option BodyRunner}

/-! Calls. -/

def Callable (J : Engine → Prop) : Prop := ∀ {e : Engine} {d : DeclId} {f : Function} {b : List Ref}, J e →
  e.program.func? d = some f → f.source.body = some b → ∃ lo hi, f.source.code.Scoped lo [] b hi

lemma tick_emits : Emits G C site (tick span) s fun _ _ => True := by
  refine Emits.bind (Q := fun _ _ => True) (fun ho => ⟨⟨.branches _, ho, rfl⟩, trivial⟩) fun _ s₁ _ _ => ?_
  exact .options (.get (.ite (fun _ => .fail) fun _ => .pure trivial))

lemma requireAll_emits (rs : List Ref) : Emits G C site (requireAll span rs) s fun _ s' => s' = s := by
  induction rs with
  | nil => exact .pure rfl
  | cons r rs ih => exact .comptime fun _ _ => ih

variable {d : DeclId} {result ret : Ty} {args rs : List Ref} {params : List Ty} {cc : CallConv} {flow : Flow}

lemma Does.calleeOf {f : Untyped.Fn → Analysis β}
    (h : ∀ fn, s.engine.program.func? d = some fn → Does site (f fn.source) s R) :
    Does site (Analysis.calleeOf d span >>= f) s R := by
  unfold Analysis.calleeOf
  refine .programThen ?_
  split
  · next fn hf => exact h fn hf
  · exact .failThen

lemma Does.entering {f : BodyRunner → Analysis β} (h : ∀ run, enter = some run → Does site (f run) s R) :
    Does site (Analysis.entering enter span >>= f) s R := by
  cases enter with
  | none => trivial
  | some run => exact h run rfl

lemma comptimeCall_emits (hJ : ∀ e e', J e → G e e' → J e') (hc : Callable J)
    (he : ∀ run, enter = some run → Runs G J site run) (hj : J s.engine) (ha : ∀ r ∈ args, C.Sees s r) :
    Emits G C site (comptimeCall enter d result args span) s fun i s' => C.Sees s' i := by
  refine tick_emits.bind fun _ s₁ h₁ _ => (requireAll_emits args).bind fun _ s₂ _ hs => ?_
  subst hs
  intro ho
  refine .calleeOf fun f hf => ?_
  have hj := h₁.writes.keep hJ hj
  split
  · exact .fail
  · next b hb =>
    obtain ⟨lo, hi, hsc⟩ := hc hj hf hb
    refine .entering fun run hrun => .inChild (.inCall ?_)
    have hf : Fits (C.under s₂) { s₂.enter true with results := {} }
        { code := f.source.code, args, ret := result, kind := .comptime } :=
      ⟨fun hr => (Deeper.enter C s₂ true).sees (h₁.sees (ha _ hr)), nofun, nofun, nofun⟩
    refine (he run hrun hsc (by nofun) hf (.start rfl) nofun hj).mono fun flow s₃ h₃ => ?_
    -- The results of the call around are back.
    have hw : Writes G (C.under s₂) (s₂.enter true) { s₃ with results := s₂.results } :=
      ((Writes.results {}).trans h₃.writes).trans (.results _)
    have hp : Passes G C s₂ (State.leave { s₃ with results := s₂.results } s₂) :=
      ⟨.child hw, ho.extend hw.arena_extends rfl, rfl⟩
    have goOn {m : Analysis Ref} (hm : Emits G C site m (State.leave { s₃ with results := s₂.results } s₂)
        fun i s' => C.Sees s' i) :
        Does site m (State.leave { s₃ with results := s₂.results } s₂)
          fun i s' => Passes G C s₂ s' ∧ C.Sees s' i :=
      (hm hp.isOpen).mono fun _ _ ⟨hp', hi⟩ => ⟨hp.trans hp', hi⟩
    cases flow with
    | ret i =>
      have hv : (C.under s₂).Sees { s₃ with results := s₂.results } i := (h₃.value rfl).1
      exact goOn (.pure (hv.leave hw))
    | _ => exact goOn (.ite (fun _ => .knownSeen .void) fun _ => .fail)

structure Applied (G : Engine → Engine → Prop) (C : Context) (result : Ty) (s : State) (r : Ref) (s' : State) :
    Prop where
  writes : Writes G C s s'
  results : s'.results = s.results
  sees : C.Sees s' r
  isOpen : s.block.isComptime = true ∨ result ≠ .noReturn → s'.Open
  closed : s.block.isComptime = false → result = .noReturn → s'.Closed

lemma Applied.after (h : Applied G C result s' r s'') (hp : Passes G C s s') : Applied G C result s r s'' where
  writes := hp.writes.trans h.writes
  results := h.results.trans hp.results
  sees := h.sees
  isOpen hn := h.isOpen (hp.isComptime_eq ▸ hn)
  closed hc := h.closed (hp.isComptime_eq.trans hc)

lemma Writes.insts_block (h : Writes G (C.inside s) ((s.add (.block []) ty span).enter false) s') :
    (s'.block.arena.setBody s.block.arena.size s'.block.insts).insts[s.block.arena.size]? =
      some ⟨.block s'.block.insts, ty, span⟩ :=
  Arena.insts_setBody_block (h.arena_extends _ _ (s.block.arena.insts_push_size ⟨.block [], ty, span⟩))

lemma State.Open.block (ho : s.Open) (hc : s.block.isComptime = false)
    (h : Writes G (C.inside s) ((s.add (.block []) ty span).enter false) s') (hn : ty ≠ .noReturn) :
    ((s'.leave (s.add (.block []) ty span)).fill s.block.arena.size s'.block.insts).Open := by
  have hw : Writes G C s _ := .block hc ho h
  intro x hx
  rcases List.mem_append.1 hx with hx | hx
  · obtain ⟨i, hi, hs⟩ := ho x hx
    exact ⟨i, hw.arena_extends x i hi, hs⟩
  · rw [List.mem_singleton.1 hx]
    exact ⟨_, h.insts_block, by simp [Typed.Inst.stops, Typed.Inst.isNoReturn, hn]⟩

lemma applied_block (hc : s.block.isComptime = false) (ho : s.Open)
    (h : Writes G (C.inside s) ((s.add (.block []) result span).enter false) s') (hr : s'.results = s.results) :
    Applied G C result s s.block.arena.size
      ((s'.leave (s.add (.block []) result span)).fill s.block.arena.size s'.block.insts) := by
  refine ⟨.block hc ho h, hr, ⟨Arena.lt_size_of_insts h.insts_block, .inr ?_⟩, fun hn => ?_,
    fun _ hn => ⟨s.block.arena.size, ?_, ?_⟩⟩
  · change _ ∈ C.above ++ (s.block.insts ++ [s.block.arena.size])
    simp
  · rcases hn with hn | hn
    · cases hc.symm.trans hn
    · exact ho.block hc h hn
  · exact List.getLast?_concat ..
  · exact (congrArg Typed.Inst.ty (Arena.inst_of_insts h.insts_block)).trans hn

lemma inlineCall_applied (hc : Callable J) (he : ∀ run, enter = some run → Runs G J site run) (hj : J s.engine)
    (ha : ∀ r ∈ args, C.Sees s r) (hr : s.block.isComptime = false) (ho : s.Open) :
    Does site (inlineCall enter d result args span) s (Applied G C result s) := by
  refine .calleeOf fun f hf => ?_
  split
  · exact .fail
  · next b hb =>
    obtain ⟨lo, hi, hsc⟩ := hc hj hf hb
    -- The block stands in the body before its own body is written.
    refine .emitThen (.entering fun run hrun => .inChild ?_)
    have hd : Deeper C (C.inside s) s ((s.add (.block []) result span).enter false) :=
      .add (by rfl) (fun h => List.mem_cons_of_mem _ h) (by rfl) _ _ _
    have hblock := s.block.arena.insts_push_size ⟨.block [], result, span⟩
    have hty {s₁ : State} (h : (s.add (.block []) result span).block.arena.Extends s₁.block.arena) :
        s₁.block.arena.ty s.block.arena.size = result :=
      congrArg Typed.Inst.ty (Arena.inst_of_insts (h _ _ hblock))
    have hf : Fits (C.inside s) { (s.add (.block []) result span).enter false with results := {} }
        { code := f.source.code, args, ret := result, kind := .inlined s.block.arena.size } := by
      refine ⟨fun hx => hd.sees (ha _ hx), nofun, ?_, nofun⟩
      intro target ht
      cases ht
      exact ⟨List.mem_cons_self .., Arena.lt_size_of_insts hblock, hty (.refl _)⟩
    refine Does.bind (Does.inCall (Q := fun flow s₃ =>
      Writes G (C.inside s) ((s.add (.block []) result span).enter false) s₃ ∧
      s₃.results = s.results ∧ (flow ≠ .noReturn → s₃.Open)) ?_) fun flow s₃ ⟨hw, hres, hopen⟩ => ?_
    · refine (he run hrun hsc (by nofun) hf (.start rfl) nofun hj).mono fun flow s₂ h₂ => ?_
      exact ⟨((Writes.results {}).trans h₂.writes).trans (.results _), rfl, h₂.isOpen⟩
    · have done {s₄ : State} (hw : Writes G (C.inside s) ((s.add (.block []) result span).enter false) s₄)
          (hres : s₄.results = s.results) :
          Does site (do
            setBody s.block.arena.size s₄.block.insts
            return s.block.arena.size) (s₄.leave (s.add (.block []) result span)) (Applied G C result s) :=
        applied_block hr ho hw hres
      have fell (hn : flow ≠ .noReturn) : Does site (do
          if result ≠ .void then Analysis.fail span (.mismatch result .void)
          let _ ← emit (.br s.block.arena.size none) .noReturn span) s₃ fun _ s₄ =>
            Does site (do
              setBody s.block.arena.size s₄.block.insts
              return s.block.arena.size) (s₄.leave (s.add (.block []) result span)) (Applied G C result s) := by
        refine .guard fun hv => emit_left hw.isComptime_eq (hopen hn) rfl (by nofun) ?_ ?_
          fun _ s₄ (h₄ : Left G (C.inside s) result s₃ .noReturn s₄) =>
            done (hw.trans h₄.writes) (h₄.results.trans hres)
        · intro b r hb
          cases hb
          exact List.mem_cons_self ..
        · have hv : result = .void := by simpa using hv
          exact (hty hw.arena_extends).trans hv
      cases flow with
      | noReturn => exact done hw hres
      | _ => exact fell nofun

lemma runtimeCall_applied {f : Ref} (hf : C.Has s (.function params result cc) f) (ha : ∀ r ∈ args, C.Sees s r)
    (ht : args.map s.block.arena.ty = params) (ho : s.Open) :
    Does site (runtimeCall f result args span) s (Applied G C result s) := by
  refine .runtime fun hc => .addWith ?_
  have hs : C.Has (s.add (.call f args) result span) result s.block.arena.size := Context.sees_add
  refine ⟨.inst hc ho rfl ?_ nofun ⟨params, result, cc, hf.2, ht, rfl⟩, rfl, hs.1, fun hn => ho.add ?_,
    fun _ hn => ⟨s.block.arena.size, ?_, hs.2.trans hn⟩⟩
  · intro x hx
    rcases List.mem_cons.1 hx with rfl | hx
    · exact hf.1
    · exact ha x hx
  · rcases hn with hn | hn
    · cases hc.symm.trans hn
    · simp [Typed.Inst.stops, Typed.Inst.isNoReturn, hn]
  · exact List.getLast?_concat ..

lemma coerceArgs_emits (ts : List Ty) (rs : List Ref) (hl : rs.length = ts.length)
    (hr : ∀ x ∈ rs, C.Resolves s x) :
    Emits G C site (coerceArgs frame ts rs) s fun is s' => (∀ i ∈ is, C.Sees s' i) ∧ is.map s'.block.arena.ty = ts := by
  induction ts generalizing rs s with
  | nil =>
    have : rs = [] := by simpa using hl
    subst this
    exact .pure ⟨nofun, rfl⟩
  | cons t ts ih =>
    cases rs with
    | nil => cases hl
    | cons r rs =>
      refine .resolve (hr r (by simp)) fun i hi => (coerce_emits t hi).bind fun i s₁ h₁ hi => ?_
      refine (ih rs (by simpa using hl) fun x hx => (hr x (by simp [hx])).pass h₁).bind fun is s₂ h₂ ⟨hs, ht⟩ => ?_
      have hi := h₂.has hi
      refine .pure ⟨?_, by simp [hi.2, ht]⟩
      intro x hx
      rcases List.mem_cons.1 hx with rfl | hx
      · exact hi.1
      · exact hs x hx

section

variable (hJ : ∀ e e', J e → G e e' → J e') (hc : Callable J) (he : ∀ run, enter = some run → Runs G J site run)
  (hj : J s.engine)
include hJ hc he hj

lemma applyFn_applied {f : Ref} (hf : C.Has s (.function params result cc) f) (ha : ∀ r ∈ args, C.Sees s r)
    (ht : args.map s.block.arena.ty = params) (ho : s.Open) :
    Does site (applyFn enter f result cc args s.block.isComptime span) s (Applied G C result s) := by
  have written : Does site (runtimeCall f result args span) s (Applied G C result s) :=
    runtimeCall_applied hf ha ht ho
  unfold applyFn
  refine .valueOf? ?_
  split
  · refine .ite (fun hk => ?_) fun hk => ?_
    · refine (comptimeCall_emits hJ hc he hj ha ho).mono fun i s₁ h₁ => ?_
      obtain ⟨hp, hi⟩ := h₁
      refine ⟨hp.writes, hp.results, hi, fun _ => hp.isOpen, fun hr => ?_⟩
      cases hk.symm.trans hr
    · refine .ite (fun _ => inlineCall_applied hc he hj ha (by simpa using hk) ho) fun _ => written
  · exact .ite (fun _ => .fail) fun _ => written
  · exact written

lemma call_steps {callee : Ref} (hr : ∀ x ∈ callee :: args, C.Resolves s x) (hs : Settled C s lo dom) (ho : s.Open) :
    Does site (call enter frame callee args span) s (Stepped G C frame.ret lo dom r s) := by
  refine .resolve fun f hf => ?_
  have hf := hr callee (by simp) f hf
  refine .tyOf ?_
  split
  · next params result cc ht =>
    refine .guard fun hl => ?_
    have hl : args.length = params.length := by simpa using hl
    refine (coerceArgs_emits (G := G) params args hl (fun x hx => hr x (by simp [hx])) ho).bind
      fun is s₁ h₁ => ?_
    obtain ⟨hp, his, hts⟩ := h₁
    refine .isComptime ?_
    have hf := hp.has ⟨hf, ht⟩
    refine (applyFn_applied hJ hc he (hp.writes.keep hJ hj) hf his hts hp.isOpen).bind fun i s₂ ha => ?_
    have ha := ha.after hp
    have hs₂ := hs.mono ha.writes ha.results
    by_cases hn : result = .noReturn ∧ s.block.isComptime = false
    · obtain ⟨hn, hk⟩ := hn
      rw [if_pos (by simp [hn, hp.isComptime_eq, hk])]
      refine .pure (Left.stepped ⟨ha.writes, ha.results, fun h => absurd rfl h, fun _ => ⟨hk, ha.closed hk hn⟩,
        fun h => (by cases h), fun h => (by cases h)⟩ hs)
    · have hk : s.block.isComptime = true ∨ result ≠ .noReturn := by
        by_cases hk : s.block.isComptime = true
        · exact .inl hk
        · exact .inr fun h => hn ⟨h, by simpa using hk⟩
      rw [if_neg]
      · refine .pure (Passes.stepped ⟨ha.writes, ha.isOpen hk, ha.results⟩ hs ?_ fun _ h => by cases h)
        intro j hj
        cases hj
        exact ha.sees
      · rw [hp.isComptime_eq]
        simpa using hn
  · exact .fail

end

/-! Branches and blocks. -/

variable {body : BodyRunner}

lemma Flow.step_eq_flow {f : Flow} : flow.step = .flow f ↔ flow = f ∧ flow ≠ .next := by
  cases flow <;> simp [Flow.step]

lemma Flow.step_ne_value {i : Ref} : flow.step ≠ .value i := by cases flow <;> nofun

lemma Ran.stepped (h : Ran G C ret lo dom rs r s flow s') : Stepped G C ret lo dom r s flow.step s' where
  writes := h.writes
  spares := h.spares
  isOpen hf := h.isOpen fun hn => hf (Flow.step_eq_flow.2 ⟨hn, hn ▸ nofun⟩)
  closed hf := h.closed (Flow.step_eq_flow.1 hf).1
  result hv := absurd hv Flow.step_ne_value
  value hf := h.value (Flow.step_eq_flow.1 hf).1
  next hf := (Flow.step_eq_flow.1 hf).2 (Flow.step_eq_flow.1 hf).1
  comptime := h.comptime

lemma Stepped.after {step : Step} (h : Stepped G C ret lo dom r s' step s'') (hw : Writes G C s s')
    (hs : Spares lo r s s') : Stepped G C ret lo dom r s step s'' where
  writes := hw.trans h.writes
  spares := hs.trans h.spares
  isOpen := h.isOpen
  closed hf := ⟨hw.isComptime_eq ▸ (h.closed hf).1, (h.closed hf).2⟩
  result := h.result
  value := h.value
  next := h.next
  comptime hc := h.comptime (hw.isComptime_eq.trans hc)

lemma Stepped.done (ho : s.Open) (hs : Settled C s lo dom) : Stepped G C ret lo dom r s .done s :=
  (Passes.refl ho).stepped hs (by nofun) (by nofun)

lemma truth?_emits {i : Ref} : Emits G C site (truth? i span) s fun _ s' => s' = s := by
  refine .valueOf? ?_
  split
  · exact .pure rfl
  · split
    · exact .pure rfl
    · exact .fail

lemma cond_written {test : Ref} {thenFlow elseFlow : Flow} {s₁ s₂ : State} {t e : List Ref} {dom' dom'' : List Ref}
    (hc : s.block.isComptime = false) (ho : s.Open) (ht : C.Has s .bool test)
    (h₁ : Ran G (C.under s) ret lo dom' t mid (s.enter false) thenFlow s₁)
    (h₂ : Ran G (C.under s) ret mid dom'' e r ((s₁.leave s).enter false) elseFlow s₂) (hle : lo ≤ mid)
    (hle' : mid ≤ r) : let stops := thenFlow = .noReturn && elseFlow = .noReturn
    Stepped G C ret lo dom r s (if stops then .flow .noReturn else .done)
      ((s₂.leave s).add (.cond test s₁.block.insts s₂.block.insts) (if stops then .noReturn else .void) span) := by
  intro stops
  have hw : Writes G C s _ := .cond (if stops then .noReturn else .void) span hc ho ht h₁.writes h₂.writes
  have harena : s.block.arena.Extends (s₂.leave s).block.arena := h₁.writes.arena_extends.trans h₂.writes.arena_extends
  refine ⟨hw, fun x hx => ?_, fun hn => ?_, fun hn => ⟨hc, _, List.getLast?_concat .., ?_⟩, ?_, ?_, ?_, fun h => ?_⟩
  · exact (h₂.spares x (by omega)).trans (h₁.spares x (by omega))
  · have ho' : (s₂.leave s).Open := ho.extend harena rfl
    refine ho'.add ?_
    have : stops = false := by
      cases hs : stops with
      | false => rfl
      | true => exact absurd (by rw [hs]; rfl) hn
    rw [this]
    rfl
  · have : stops = true := by
      cases hs : stops with
      | true => rfl
      | false =>
        rw [hs] at hn
        cases hn
    rw [this]
    exact (Context.sees_add (C := C)).2
  · split <;> nofun
  · split <;> nofun
  · split <;> nofun
  · cases hc.symm.trans h

lemma cond_steps {test : Ref} {t e : List Ref} (hJ : ∀ e e', J e → G e e' → J e') (hb : Runs G J site body)
    (ht : test ∈ dom) (h₁ : frame.code.Scoped lo dom t mid) (h₂ : frame.code.Scoped mid dom e r)
    (hd : ∀ x ∈ dom, x < lo) (hf : Fits C s frame) (hs : Settled C s lo dom) (ho : s.Open) (hj : J s.engine) :
    Does site (cond body frame test t e span) s (Stepped G C frame.ret lo dom r s) := by
  refine .resolve fun i hi => ?_
  refine (coerce_emits (G := G) .bool (hs.dom ht i hi) ho).bind fun c s₁ ⟨hp, hc⟩ => ?_
  have hs := hs.mono hp.writes hp.results
  have hf := hf.mono hp.writes
  have hj := hp.writes.keep hJ hj
  refine (truth?_emits (G := G) (C := C) hp.isOpen).bind fun known s₂ ⟨_, hs₂⟩ => ?_
  subst hs₂
  refine Does.mono (Q := Stepped G C frame.ret lo dom r s₂) ?_ fun _ _ h => h.after hp.writes (.ofEq hp.results)
  cases known with
  | some taken =>
    have hsc : frame.code.Scoped lo dom (if taken then t else e) r := by
      cases taken with
      | true => exact h₁.weaken le_rfl h₂.le
      | false => exact h₂.weaken h₁.le le_rfl
    exact (hb hsc hd hf hs hp.isOpen hj).bind fun _ _ h => .pure h.stepped
  | none =>
    refine .runtime fun hk => .inChild ?_
    have hin : Deeper C (C.under s₂) s₂ (s₂.enter false) := .enter C s₂ false
    refine (hb h₁ hd (hin.fits hf) (hin.settled hs hk (.refl lo lo s₂) le_rfl hd) nofun hj).mono
      fun thenFlow s₃ h₃ => ?_
    refine .inChild ?_
    have harena : s₂.block.arena.Extends s₃.block.arena := h₃.writes.arena_extends
    have hin : Deeper C (C.under s₂) s₂ ((s₃.leave s₂).enter false) := .under harena false
    have hd' : ∀ x ∈ dom, x < mid := fun x hx => (hd x hx).trans_le h₁.le
    have hj := h₃.writes.keep hJ hj
    refine (hb h₂ hd' (hin.fits hf) (hin.settled hs hk h₃.spares h₁.le hd) nofun hj).mono fun elseFlow s₄ h₄ => ?_
    exact .emitThen (cond_written hk hp.isOpen hc h₃ h₄ h₁.le h₂.le)

lemma block_steps {comptime : Bool} (hb : Runs G J site body) (h₁ : frame.code.Scoped lo dom rs r)
    (hd : ∀ x ∈ dom, x < lo) (hf : Fits C s frame) (hs : Settled C s lo dom) (ho : s.Open) (hj : J s.engine) :
    Does site (block body frame rs comptime) s (Stepped G C frame.ret lo dom r s) := by
  refine .isComptime (.ite (fun hk => .inChild ?_) fun _ => (hb h₁ hd hf hs ho hj).bind fun _ _ h => .pure h.stepped)
  have hk : s.block.isComptime = false := by simpa using (Bool.and_eq_true_iff.1 hk).2
  have hin : Deeper C (C.under s) s (s.enter true) := .enter C s true
  refine (hb h₁ hd (hin.fits hf) (hin.settled hs hk (.refl lo lo s) le_rfl hd) nofun hj).mono fun flow s₁ h => ?_
  have hn : flow ≠ .noReturn := fun hn => nomatch (h.closed hn).1
  refine .pure ⟨.child h.writes, h.spares, fun _ => ho.extend h.writes.arena_extends rfl, fun hf => ?_, fun hv => ?_,
    fun hf => ?_,
    fun hf => ?_, fun hc => ?_⟩
  · exact absurd (Flow.step_eq_flow.1 hf).1 hn
  · exact absurd hv Flow.step_ne_value
  · have hv := h.value (Flow.step_eq_flow.1 hf).1
    exact ⟨hv.1.leave h.writes, hv.2⟩
  · exact (Flow.step_eq_flow.1 hf).2 (Flow.step_eq_flow.1 hf).1
  · cases hk.symm.trans hc

/-! Loops. -/

variable {testBody loopBody : List Ref} {test outer : Nat}

lemma comptimeLoop_steps (hJ : ∀ e e', J e → G e e' → J e') (hb : Runs G J site body)
    (h₁ : frame.code.Scoped lo dom testBody r) (ht : test ∈ dom ++ testBody) (h₂ : frame.code.Scoped lo dom loopBody r)
    (hd : ∀ x ∈ dom, x < lo) (hc : s.block.isComptime = true) (hf : Fits C s frame) (hs : Settled C s lo dom)
    (ho : s.Open) (hj : J s.engine) (fuel : Nat) :
    Does site (comptimeLoop body frame testBody test loopBody span fuel) s (Stepped G C frame.ret lo dom r s) := by
  induction fuel generalizing s with
  | zero => trivial
  | succ fuel ih =>
    -- Each turn leaves the results of the loop where the next one may take them.
    refine (hb h₁ hd hf hs ho hj).bind fun flow s₁ hr₁ => ?_
    have hs := hr₁.comptime hc
    have ho := hr₁.isOpen fun hn => nomatch hc.symm.trans (hr₁.closed hn).1
    refine .resolve fun i hi => ?_
    have hi : C.Sees s₁ i := by
      rcases List.mem_append.1 ht with ht | ht
      · exact hs.dom ht i hi
      · exact hs.rest (h₁.le_of_mem ht) i hi
    refine (coerce_emits (G := G) .bool hi ho).bind fun c s₂ ⟨hp, _⟩ => .comptime fun v _ => ?_
    have hw := hr₁.writes.trans hp.writes
    have hsp : Spares lo r s s₂ := hr₁.spares.trans (.ofEq hp.results)
    have hs := hs.mono hp.writes hp.results
    have hc₂ := hw.isComptime_eq.trans hc
    split
    · exact .fail
    · exact .pure ((Stepped.done hp.isOpen hs).after hw hsp)
    · have hf₂ := hf.mono hw
      let inner : Frame := { frame with loop := .interpreted }
      have hf' : Fits C s₂ inner := ⟨hf₂.args, hf₂.runtime, hf₂.inlined, nofun⟩
      have h₂ : inner.code.Scoped lo dom loopBody r := h₂
      refine (hb h₂ hd hf' hs hp.isOpen (hw.keep hJ hj)).bind fun flow s₃ hr₂ => ?_
      have hw := hw.trans hr₂.writes
      have hsp := hsp.trans hr₂.spares
      have hs := hr₂.comptime hc₂
      have ho := hr₂.isOpen fun hn => nomatch hc₂.symm.trans (hr₂.closed hn).1
      have again : Does site (do
          tick span
          comptimeLoop body frame testBody test loopBody span fuel) s₃ (Stepped G C frame.ret lo dom r s) := by
        refine (tick_emits (G := G) (C := C) ho).bind fun _ s₄ ⟨hp, _⟩ => ?_
        have hw := hw.trans hp.writes
        have hturn :=
          ih (hw.isComptime_eq.trans hc) (hf.mono hw) (hs.mono hp.writes hp.results) hp.isOpen (hw.keep hJ hj)
        exact hturn.mono fun _ _ h => h.after hw (hsp.trans (.ofEq hp.results))
      cases flow with
      | next => exact again
      | again => exact again
      | leave => exact .pure ((Stepped.done ho hs).after hw hsp)
      | ret i => exact .pure (hr₂.stepped.after (hr₁.writes.trans hp.writes) (hr₁.spares.trans (.ofEq hp.results)))
      | noReturn => exact nomatch hc₂.symm.trans (hr₂.closed rfl).1

lemma loopBody_written (hb : Runs G J site body) (h : frame.code.Scoped mid dom loopBody r)
    (hd : ∀ x ∈ dom, x < mid) (hc : s.block.isComptime = false) (hf : Fits C s frame) (hs : Settled C s mid dom)
    (ho : s.Open) (hj : J s.engine)
    (hout : outer ∈ C.blocks ∧ outer < s.block.arena.size ∧ s.block.arena.ty outer = .void) :
    Does site (do
      let inner ← emit (.block []) .void span
      let (_, innerBody) ← inChild false (body { frame with loop := .emitted outer inner } loopBody)
      setBody inner innerBody) s fun _ s' => Writes G C s s' ∧ Spares mid r s s' := by
  refine .emitThen (.inChild ?_)
  have hin : Deeper C (C.inside s) s ((s.add (.block []) .void span).enter false) :=
    .add (by rfl) (fun h => List.mem_cons_of_mem _ h) (by rfl) _ _ _
  have hinner := s.block.arena.insts_push_size ⟨.block [], .void, span⟩
  have hf := hin.fits hf
  let framed : Frame := { frame with loop := .emitted outer s.block.arena.size }
  have h : framed.code.Scoped mid dom loopBody r := h
  have hf' : Fits (C.inside s) ((s.add (.block []) .void span).enter false) framed := by
    refine ⟨hf.args, hf.runtime, hf.inlined, fun hk x hx => ?_⟩
    cases hk
    rcases List.mem_cons.1 hx with rfl | hx
    · obtain ⟨hb, hl, ht⟩ := hout
      exact ⟨hin.blocks hb, hl.trans_le hin.arena.size_le, (hin.arena.ty_eq hl).trans ht⟩
    · rw [List.mem_singleton.1 hx]
      exact ⟨List.mem_cons_self .., Arena.lt_size_of_insts hinner, congrArg Typed.Inst.ty (Arena.inst_of_insts hinner)⟩
  refine (hb h hd hf' (hin.settled hs hc (.refl mid mid s) le_rfl hd) nofun hj).mono fun flow s₁ h₁ => ?_
  exact ⟨.block hc ho h₁.writes, h₁.spares⟩

section

variable (hJ : ∀ e e', J e → G e e' → J e') (hb : Runs G J site body) (h₁ : frame.code.Scoped lo dom testBody mid)
  (ht : test ∈ dom ++ testBody) (hl : ∀ x ∈ testBody.getLast?, x = test) (h₂ : frame.code.Scoped mid dom loopBody r)
  (hd : ∀ x ∈ dom, x < lo)
include hJ hb h₁ ht hl h₂ hd

lemma loopTurn_written (hc : s.block.isComptime = false) (hf : Fits C s frame) (hs : Settled C s lo dom) (ho : s.Open)
    (hj : J s.engine) (hout : outer ∈ C.blocks ∧ outer < s.block.arena.size ∧ s.block.arena.ty outer = .void) :
    Does site (do
      let _ ← body frame testBody
      let c ← coerce .bool (← resolve frame test) (frame.code.span test)
      let (_, thenBody) ← inChild false do
        let inner ← emit (.block []) .void span
        let (_, innerBody) ← inChild false (body { frame with loop := .emitted outer inner } loopBody)
        setBody inner innerBody
      let (_, elseBody) ← inChild false (emit (.br outer none) .noReturn span)
      emit (.cond c thenBody elseBody) .noReturn span) s fun _ s' => Writes G C s s' ∧ Spares lo r s s' := by
  refine (hb h₁ hd hf hs ho hj).bind fun flow s₁ hr => .resolve fun i hi => ?_
  -- The test has a result, so control came to its end.
  have hn : flow = .next := by
    by_contra hne
    cases hlast : testBody.getLast? with
    | none => exact hne (hr.empty (List.getLast?_eq_none_iff.1 hlast))
    | some x =>
      have hx := hr.last hne hc x hlast
      rw [hl x hlast, hi] at hx
      cases hx
  have hset := hr.settled hn
  have ho₁ := hr.isOpen (hn ▸ nofun)
  refine (coerce_emits (G := G) .bool (hset.dom ht i hi) ho₁).bind fun c s₂ ⟨hp, hcond⟩ => ?_
  have hw := hr.writes.trans hp.writes
  have hc₂ := hw.isComptime_eq.trans hc
  have hs₂ : Settled C s₂ mid dom := by
    have := hset.mono hp.writes hp.results
    exact ⟨fun hx => this.dom (List.mem_append_left _ hx), this.comptime, this.rest⟩
  have hd' : ∀ x ∈ dom, x < mid := fun x hx => (hd x hx).trans_le h₁.le
  have hin : Deeper C (C.under s₂) s₂ (s₂.enter false) := .enter C s₂ false
  have hout' {t : State} (hx : s.block.arena.Extends t.block.arena) :
      outer < t.block.arena.size ∧ t.block.arena.ty outer = .void :=
    ⟨hout.2.1.trans_le hx.size_le, (hx.ty_eq hout.2.1).trans hout.2.2⟩
  have hj₂ := hw.keep hJ hj
  refine .inChild ((loopBody_written hb h₂ hd' rfl (hin.fits (hf.mono hw))
    (hin.settled hs₂ hc₂ (.refl mid mid s₂) le_rfl hd') nofun hj₂
    ⟨hout.1, hout' hw.arena_extends⟩).mono fun _ s₃ ⟨hw₃, hsp₃⟩ => .inChild (.addWith ?_))
  -- The branch out is taken from where the loop's body stands.
  have hw₄ : Writes G (C.under s₂) ((s₃.leave s₂).enter false)
      (((s₃.leave s₂).enter false).add (.br outer none) .noReturn span) := by
    refine .inst rfl nofun rfl nofun ?_ (hout' (hw.arena_extends.trans hw₃.arena_extends)).2
    intro b x hb
    cases hb
    exact hout.1
  refine .addWith ⟨hw.trans (.cond _ _ hc₂ hp.isOpen hcond hw₃ hw₄), ?_⟩
  have hsp : Spares lo r s s₂ := (hr.spares.widen le_rfl h₂.le).trans (.ofEq hp.results)
  exact hsp.trans (hsp₃.widen h₁.le le_rfl)

lemma runtimeLoop_steps (hc : s.block.isComptime = false) (hf : Fits C s frame) (hs : Settled C s lo dom)
    (ho : s.Open) (hj : J s.engine) :
    Does site (runtimeLoop body frame testBody test loopBody span) s (Stepped G C frame.ret lo dom r s) := by
  refine .emitThen (.inChild (.emitThen (.inChild ?_)))
  have hin : Deeper C (C.inside s) s ((s.add (.block []) .void span).enter false) :=
    .add (by rfl) (fun h => List.mem_cons_of_mem _ h) (by rfl) _ _ _
  have hblock := s.block.arena.insts_push_size ⟨.block [], .void, span⟩
  have hf := hin.fits hf
  have hs := hin.settled hs hc (.refl lo lo s) le_rfl hd
  generalize hs₁ : (s.add (.block []) .void span).enter false = s₁ at hin hf hs ⊢
  have hin' : Deeper (C.inside s) ((C.inside s).under s₁) s₁ ((s₁.add (.loop []) .noReturn span).enter false) := by
    refine .add ?_ ?_ ?_ _ _ _
    · rfl
    · exact fun h => h
    · rfl
  have hc₁ : s₁.block.isComptime = false := hs₁ ▸ rfl
  have ho₁ : s₁.Open := hs₁ ▸ nofun
  have hj₁ : J s₁.engine := hs₁ ▸ hj
  have hb₁ : s₁.block.arena.insts[s.block.arena.size]? = some ⟨.block [], .void, span⟩ := hs₁ ▸ hblock
  have hb₂ := hin'.arena _ _ hb₁
  have hout : s.block.arena.size ∈ ((C.inside s).under s₁).blocks ∧
      s.block.arena.size < ((s₁.add (.loop []) .noReturn span).enter false).block.arena.size ∧
      ((s₁.add (.loop []) .noReturn span).enter false).block.arena.ty s.block.arena.size = .void :=
    ⟨List.mem_cons_self .., Arena.lt_size_of_insts hb₂, congrArg Typed.Inst.ty (Arena.inst_of_insts hb₂)⟩
  refine (loopTurn_written hJ hb h₁ ht hl h₂ hd rfl (hin'.fits hf) (hin'.settled hs hc₁ (.refl lo lo s₁) le_rfl hd)
    nofun hj₁ hout).mono fun _ s₂ ⟨hw, hsp⟩ => ?_
  have hw₁ : Writes G (C.inside s) s₁ _ := .loop hc₁ ho₁ hw
  subst hs₁
  have done : Stepped G C frame.ret lo dom r s .done _ :=
    ⟨.block hc ho hw₁, hsp, fun _ => ho.block hc hw₁ nofun, nofun, nofun, nofun, nofun,
      fun hk => nomatch hc.symm.trans hk⟩
  exact done

lemma loop_steps (hf : Fits C s frame) (hs : Settled C s lo dom) (ho : s.Open) (hj : J s.engine) :
    Does site (loop body frame testBody test loopBody span) s (Stepped G C frame.ret lo dom r s) := by
  refine .isComptime (.ite (fun hc => ?_) fun hc => ?_)
  · exact comptimeLoop_steps hJ hb (h₁.weaken le_rfl h₂.le) ht (h₂.weaken h₁.le le_rfl) hd hc hf hs ho hj _
  · exact runtimeLoop_steps hJ hb h₁ ht hl h₂ hd (by simpa using hc) hf hs ho hj

end

/-! The recursion. -/

section

variable (hJ : ∀ e e', J e → G e e' → J e') (hG : Grounds site ensure G) (hc : Callable J)
include hJ hG hc

lemma evalInst_steps (he : ∀ run, enter = some run → Runs G J site run) (nest : Nat) :
    Steps G J site (evalInst ensure enter nest) := by
  induction nest with
  | zero =>
    intro C frame lo dom r s _ _ _ _ _ _
    trivial
  | succ nest ih =>
    intro C frame lo dom r s hsc hd hf hs ho hj
    have hbody : Runs G J site fun frame rs => walk (evalInst ensure enter nest frame) rs := walk_runs hJ ih
    unfold evalInst
    dsimp only
    cases hsc with
    | cond hr ht h₁ h₂ =>
      rw [hr]
      exact cond_steps hJ hbody ht h₁ h₂ hd hf hs ho hj
    | loop hr h₁ ht hl h₂ =>
      rw [hr]
      exact loop_steps hJ hbody h₁ ht hl h₂ hd hf hs ho hj
    | block hr h₁ =>
      rw [hr]
      exact block_steps hbody h₁ hd hf hs ho hj
    | @plain _ _ _ _ _ inst hr hp hlo hop =>
      rw [hr]
      have hop : ∀ x ∈ inst.operands, C.Resolves s x := fun x hx => hs.dom (hop x hx)
      have plain : Does site (plainInst ensure frame (frame.code.span r) inst) s (Stepped G C frame.ret lo dom r s) :=
        plainInst_steps hG hf hop hs ho
      cases inst with
      | call callee args => exact call_steps hJ hc he hj hop hs ho
      | cond | loop | block => cases hp
      | _ => exact plain

lemma evalBody_runs (calls : Nat) : Runs G J site (evalBody ensure calls) := by
  induction calls with
  | zero => exact fun hsc => walk_runs hJ (evalInst_steps hJ hG hc (by nofun) _) hsc
  | succ calls ih =>
    refine fun hsc => walk_runs hJ (evalInst_steps hJ hG hc (fun run hr => ?_) _) hsc
    cases hr
    exact ih

lemma run_runs : Runs G J site (run ensure) := by
  intro C frame lo dom body hi s
  exact evalBody_runs hJ hG hc s.engine.program.options.callDepth

/-! Computations. -/

lemma compute_does {code : Code} {comp : Untyped.Computation} (hsc : comp.Scoped code)
    (hk : s.block.isComptime = true) (hs : Settled C s 0 []) (ho : s.Open) (hj : J s.engine) :
    Does site (compute ensure { code, ret, kind := .comptime } comp) s fun r s' =>
      Writes G C s s' ∧ Settled C s' 0 [] ∧ s'.Open ∧ C.Sees s' r := by
  obtain ⟨⟨lo, hi, hb⟩, -⟩ := hsc
  let frame : Frame := { code, ret, kind := .comptime }
  have hb : frame.code.Scoped 0 [] comp.body hi := hb.weaken (Nat.zero_le lo) le_rfl
  have hf : Fits C s frame := ⟨by simp [frame], by simp [frame], by simp [frame], by simp [frame]⟩
  refine (run_runs hJ hG hc hb (by simp) hf hs ho hj).bind fun flow s₁ h₁ => ?_
  have hset := h₁.comptime hk
  have ho₁ : s₁.Open := h₁.isOpen fun hn => by cases (h₁.closed hn).1.symm.trans hk
  unfold Analysis.resolve
  refine .get ?_
  split
  · next i hi => exact ⟨h₁.writes, hset, ho₁, hset.rest (Nat.zero_le _) i hi⟩
  · exact .fail

end

/-! Bodies of functions. -/

lemma parameters_emits (hc : s.block.isComptime = false) (i : Nat) (ts : List Ty) :
    Emits G C site (parameters span i ts) s fun rs s' => ∀ r ∈ rs, C.Sees s' r := by
  induction ts generalizing i s with
  | nil => exact .pure nofun
  | cons t ts ih =>
    refine .emitThen hc rfl (by nofun) (by nofun) trivial ?_ fun r s₁ h₁ hr => ?_
    · simp [Typed.Inst.stops, InstKind.isRead]
    refine (ih (h₁.isComptime_eq.trans hc) (i + 1)).bind fun rs s₂ h₂ hrs => .pure fun x hx => ?_
    rcases List.mem_cons.1 hx with rfl | hx
    · exact h₂.sees hr.1
    · exact hrs x hx

lemma fnBody_closes {f : Untyped.Fn} {b : List Ref} (hJ : ∀ e e', J e → G e e' → J e') (hG : Grounds site ensure G)
    (hc : Callable J) (hb : f.code.Scoped lo [] b hi) (hj : J s.engine) (hr : s.results = {}) (hn : s.block.insts = [])
    (hk : s.block.isComptime = false) :
    Does site (fnBody ensure f params result b span) s fun _ s' => Writes G { ret := result } s s' ∧ s'.Closed := by
  have ho : s.Open := by
    rw [State.Open, hn]
    nofun
  refine (parameters_emits (G := G) (C := { ret := result }) hk 0 params ho).bind fun args s₁ ⟨hp, hargs⟩ => ?_
  let frame : Frame := { code := f.code, args, ret := result, kind := .runtime }
  have hf : Fits { ret := result } s₁ frame := ⟨fun hx => hargs _ hx, fun _ => rfl, nofun, nofun⟩
  have hb : frame.code.Scoped lo [] b hi := hb
  have hset : Settled { ret := result } s₁ lo [] := .start (hp.results.trans hr)
  refine (run_runs hJ hG hc hb (by nofun) hf hset hp.isOpen (hp.writes.keep hJ hj)).bind fun flow s₂ h₂ => ?_
  have hw := hp.writes.trans h₂.writes
  have fell (hn : flow ≠ .noReturn) : Does site (do
      if result ≠ .void then Analysis.fail span (.mismatch result .void)
      let _ ← emit (.nullary .retVoid) .noReturn (.point span.stop)) s₂ fun _ s' =>
        Writes G { ret := result } s s' ∧ s'.Closed := by
    refine .guard fun hv => emit_left (hw.isComptime_eq.trans hk) (h₂.isOpen hn) rfl (by nofun) (by nofun) ?_
      fun _ s₃ (h₃ : Left G { ret := result } result s₂ .noReturn s₃) => ⟨hw.trans h₃.writes, (h₃.closed rfl).2⟩
    show result = .void
    simpa using hv
  cases flow with
  | noReturn => exact .pure ⟨hw, (h₂.closed rfl).2⟩
  | _ => exact fell nofun

end Frontend.Analysis
