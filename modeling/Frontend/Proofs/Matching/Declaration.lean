import Frontend.Analysis.Body
import Frontend.Proofs.Matching.Eval

/-! Signatures, variables and bodies of functions are analyzed in step. -/

namespace Frontend

namespace Untyped

structure Var.Matches (spans : Span → Span → Prop) (v v' : Var) : Prop where
  code : v.code.Matches spans v'.code
  ty : v'.ty = v.ty
  init : v'.init = v.init
  isMutable : v'.isMutable = v.isMutable
  isExternal : v'.isExternal = v.isExternal
  isThreadLocal : v'.isThreadLocal = v.isThreadLocal

end Untyped

namespace Analysis

variable {M : Pairing} {ρ : Pairs} {src src' : Span}

lemma signatureType_inStep (hM : M.Lawful) (hs : M.spans src src') {f f' : Untyped.Fn}
    (hc : f.code.Matches M.spans f'.code) (hsig : f'.signature = f.signature) (hn : ¬ M.overruns → f.Nests) :
    InStep M ρ Same (EngineM.signatureType M.ensureLeft src f) (EngineM.signatureType M.ensureRight src' f') := by
  unfold EngineM.signatureType
  rw [hsig]
  exact .bindSame (compute_inStep hM (.ofCode hc _ _ _) _ fun ho => (hn ho).signature) fun i => asType_inStep hM hs i

lemma writtenType_inStep (hM : M.Lawful) (hs : M.spans src src') {frame frame' : Frame}
    (hf : frame.Matches M.spans frame') (c : Option Untyped.Computation)
    (hn : ∀ x, c = some x → ¬ M.overruns → frame.code.Nests x.body) :
    InStep M ρ Same (EngineM.writtenType M.ensureLeft frame src c)
      (EngineM.writtenType M.ensureRight frame' src' c) := by
  cases c with
  | none => exact .pure fun _ _ => rfl
  | some c =>
    refine .bindSame (compute_inStep hM hf c (hn c rfl)) fun i => .bindSame (asType_inStep hM hs i) fun t => ?_
    exact .pure fun _ _ => rfl

abbrev TypedTwins (apart : Prop) : Pairs → Ty × Option Value → Ty × Option Value → Prop := fun ρ x y =>
  y.1 = x.1 ∧ Twins? apart ρ x.2 y.2

variable (hM : M.Lawful) (hs : M.spans src src')
include hM hs

lemma initialValue_inStep {frame frame' : Frame} (hf : frame.Matches M.spans frame') (written : Option Ty)
    (c : Untyped.Computation) (hn : ¬ M.overruns → frame.code.Nests c.body) :
    InStep M ρ (TypedTwins M.apart) (EngineM.initialValue M.ensureLeft frame src written c)
      (EngineM.initialValue M.ensureRight frame' src' written c) := by
  have known (i : Ref) : InStep M ρ (TypedTwins M.apart)
      (do let val ← requireComptime i src; return (← tyOf i, some val))
      (do let val ← requireComptime i src'; return (← tyOf i, some val)) := by
    refine .bindTwins (requireComptime_inStep hM i hs) fun ρ₁ _ v w hv => ?_
    exact .bindSame (tyOf_inStep i) fun t => .pure fun _ hρ => ⟨rfl, .some (hv.mono hρ)⟩
  refine .bindSame (compute_inStep hM hf c hn) fun i => ?_
  cases written with
  | some t => exact .bindSame (coerce_inStep hM hs t i) known
  | none => exact known i

lemma variableValue_inStep {v v' : Untyped.Var} (hv : v.Matches M.spans v') (hn : ¬ M.overruns → v.Nests) :
    InStep M ρ (TypedTwins M.apart) (EngineM.variableValue M.ensureLeft src v)
      (EngineM.variableValue M.ensureRight src' v') := by
  unfold EngineM.variableValue
  rw [hv.ty, hv.init, hv.isExternal]
  have hf := Frame.Matches.ofCode hv.code [] .void .comptime
  refine .bindSame (writtenType_inStep hM hs hf v.ty fun c hc ho => (hn ho).ty hc) fun written => ?_
  split
  · next hi => exact initialValue_inStep hM hs hf written _ fun ho => (hn ho).init hi
  · refine .ite (fun _ => stop_inStep hM hs _) fun _ => ?_
    cases written with
    | some t => exact .pure fun _ _ => ⟨rfl, .none⟩
    | none => exact stop_inStep hM hs _

lemma parameters_inStep (i : Nat) (ts : List Ty) : InStep M ρ Same (parameters src i ts) (parameters src' i ts) := by
  induction ts generalizing i with
  | nil => exact .pure fun _ _ => rfl
  | cons t ts ih =>
    exact .bindSame (emit_inStep hM hs (by simp) t) fun r => .bindSame (ih (i + 1)) fun _ => .pure fun _ _ => rfl

lemma fnBody_inStep (hstop : M.spans (.point src.stop) (.point src'.stop)) {f f' : Untyped.Fn}
    (hc : f.code.Matches M.spans f'.code) (params : List Ty) (result : Ty) (body : List Ref)
    (hn : ¬ M.overruns → f.code.Nests body) :
    InStep M ρ Same (fnBody M.ensureLeft f params result body src)
      (fnBody M.ensureRight f' params result body src') := by
  refine .bindSame (parameters_inStep hM hs 0 params) fun args => ?_
  refine .bindSame (run_inStep hM (.ofCode hc args result .runtime) body hn) fun flow => ?_
  split
  · exact .pure fun _ _ => rfl
  · refine .guard hM hs _ ?_
    exact .bindSame (emit_inStep hM hstop (by simp) _) fun _ => .pure fun _ _ => rfl

end Analysis

end Frontend
