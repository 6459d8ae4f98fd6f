import Frontend.Proofs.Accord.Analysis
import Frontend.Proofs.Moves.Basic

/-! Pending work of programs in accord. Whichever item of work is performed, the backends are asked the same, and the
programs are left in accord. -/

namespace Frontend

open Analysis (Pointwise Site)

variable {A : Accord}

def Program.LoweredAs (p : Program) (d : DeclId) (revision : Nat) : Prop :=
  ∀ D, (d, D) ∈ p.decls.entries → ∃ f, D.func? = some f ∧ f.revision = revision

def Engine.KeepsLowering (e : Engine) (d : DeclId) : Prop :=
  ∀ D u v f params result cc body, e.program.decl? d = some D → D.AwaitsBody → e.program.units.get? D.file = some u →
    D.value = some v → v.func = some f → v.ty = .function params result cc → f.source.body = some body →
    Settles
      (Analysis.fnBody (EngineM.ensureAt (e.program.potentialDecls + 1)) f.source params result body D.src
        ⟨.body (.declaration (u.scope D.file) d) d (some d) false, d⟩)
      { engine := e.modifyProgram (·.modifyDecl d (·.opened v f)),
        block := { arena := v.arena } }
      (fun _ s => s.engine.program.LoweredAs d f.revision) fun _ s => s.engine.program.LoweredAs d f.revision

lemma Decl.AwaitsBody.accords {D D' : Decl} (h : D.AwaitsBody) (hD : D.Accords A D') : D'.AwaitsBody := by
  obtain ⟨hs, f, hf, hq⟩ := h
  refine ⟨hD.state ▸ hs, ?_⟩
  have hstate := hD.fnState_eq
  rw [hf, Option.map_some] at hstate
  obtain ⟨f', hf', hs'⟩ := Option.map_eq_some_iff.1 hstate
  exact ⟨f', hf', hs'.trans hq⟩

namespace EngineM
variable {d : DeclId} {e e' : Engine}

abbrev EndInAccord (A : Accord) {α β : Type} (P : α → β → Prop) :
    EStateM.Result Interrupt Engine α → EStateM.Result Interrupt Engine β → Prop :=
  Alike P (Engine.Accords A) (fun _ => Engine.Accords A) (· = .exhausted)

lemma Program.LoweredAs.any {p : Program} {r : Nat} (h : p.LoweredAs d r) {D : Decl} (hD : (d, D) ∈ p.decls.entries) :
    D.func?.any (·.revision == r) = true := by
  obtain ⟨f, hf, hr⟩ := h D hD
  rw [hf, Option.any_some, hr]
  exact beq_self_eq_true r

lemma any_revision_eq {p p' : Program} {r r' : Nat} (h : A.numbered ∧ r' = r ∨ p.LoweredAs d r ∧ p'.LoweredAs d r')
    (D D' : Decl) (hD : (d, D) ∈ p.decls.entries) (hD' : (d, D') ∈ p'.decls.entries) (hacc : D.Accords A D') :
    D'.func?.any (·.revision == r') = D.func?.any (·.revision == r) := by
  obtain ⟨hnum, rfl⟩ | ⟨hl, hl'⟩ := h
  · refine hacc.func?.elim rfl fun _ _ hf => ?_
    rw [Option.any_some, Option.any_some, hf.revision hnum]
  · rw [Program.LoweredAs.any hl hD, Program.LoweredAs.any hl' hD']

lemma restore_accords {a a' : Typed.Arena} (hi : Pointwise (Typed.Inst.Matches False Eq A.spans) a.insts a'.insts)
    (hl : a'.limit = a.limit) (n : Nat) : (a.restore n).Accords A (a'.restore n) := by
  refine ⟨fun i => ?_, hl⟩
  have h := hi i
  show Option.Rel _ (a.insts.take n)[i]? (a'.insts.take n)[i]?
  simp only [Array.take_eq_extract, Array.getElem?_extract, Nat.zero_add]
  rw [hi.size_eq]
  split
  · exact h
  · exact .none

lemma runBody_endInAccord {s s' : Scope} {ensure ensure' : DeclId → EngineM Unit} {arena arena' : Typed.Arena}
    (ha : arena.Accords A arena') {r r' : Nat} {m m' : Analysis Unit}
    (hm : Analysis.InStep (A.pairing ⟨s, d⟩ ⟨s', d⟩ ensure ensure') Eq Analysis.Same m m') (he : e.Accords A e')
    (hr : A.numbered ∧ r' = r ∨
      Settles (m ⟨s, d⟩) { engine := e, block := { arena } } (fun _ s => s.engine.program.LoweredAs d r)
        (fun _ s => s.engine.program.LoweredAs d r) ∧
      Settles (m' ⟨s', d⟩) { engine := e', block := { arena := arena' } } (fun _ s => s.engine.program.LoweredAs d r')
        (fun _ s => s.engine.program.LoweredAs d r')) :
    EndInAccord A Eq (runBody ⟨s, d⟩ arena r m e) (runBody ⟨s', d⟩ arena' r' m' e') := by
  have hM : (A.pairing ⟨s, d⟩ ⟨s', d⟩ ensure ensure').engines Eq e e' := ⟨rfl, he⟩
  obtain ⟨ρ, -, h⟩ := hm Eq le_rfl _ _ (Accord.matches_state hM rfl ha.insts ha.limit false)
  unfold runBody
  unfold Settles at hr
  dsimp only [Accord.pairing] at h ⊢
  generalize m ⟨s, d⟩ _ = x at h hr
  generalize m' ⟨s', d⟩ _ = y at h hr
  cases h with
  | ok ha hst =>
    obtain ⟨rfl, he⟩ := hst.engine
    refine .ok rfl (he.modifyProgram fun hp =>
      hp.finishBody (any_revision_eq hr) ⟨hst.insts, hst.limit⟩ fun _ _ hf => ?_)
    rw [hst.body]
    exact { hf with body := rfl, state := rfl }
  | @error i _ _ h =>
    obtain ⟨he, hl, ρ, _, _, ⟨rfl, -⟩, hi⟩ := h
    have hsize : arena'.size = arena.size := ha.insts.size_eq
    refine .error (he.modifyProgram fun hp => hp.finishBody (any_revision_eq hr) ?_ fun f f' hf => ?_)
    · rw [hsize]
      exact restore_accords hi hl _
    · rw [hf.state]
      exact { hf with state := rfl }
  | lost h =>
    cases h
    exact .lost rfl

lemma rel_cases {α β : Type} {R : α → β → Prop} {x : Option α} {y : Option β} (h : Option.Rel R x y) :
    x = none ∧ y = none ∨ ∃ a b, x = some a ∧ y = some b ∧ R a b := by
  cases h with
  | none => exact .inl ⟨rfl, rfl⟩
  | some h => exact .inr ⟨_, _, rfl, rfl, h⟩

lemma analyzeBody_endInAccord (hA : A.Lawful) (he : e.Accords A e')
    (ha : ∀ D, e.program.decl? d = some D → D.AwaitsBody)
    (hr : A.numbered ∨ e.KeepsLowering d ∧ e'.KeepsLowering d) :
    EndInAccord A Eq (analyzeBody d e) (analyzeBody d e') := by
  unfold analyzeBody
  rw [program_bind, program_bind]
  obtain ⟨hx, hy⟩ | ⟨D, D', hx, hy, hD⟩ := rel_cases (he.program.decl? d)
  · rw [hx, hy]
    exact .ok rfl he
  rw [hx, hy]
  dsimp only
  obtain ⟨hu, hu'⟩ | ⟨u, u', hu, hu', -⟩ := rel_cases (he.program.unit? D.file)
  · rw [hD.file, hu, hu']
    exact .ok rfl he
  obtain ⟨hv, hv'⟩ | ⟨v, v', hv, hv', hval⟩ := rel_cases hD.value
  · rw [hD.file, hu, hu', hv, hv']
    exact .ok rfl he
  rw [hD.file, hu, hu', hv, hv']
  obtain ⟨ty, val, arena, func⟩ := v
  obtain ⟨ty', val', arena', func'⟩ := v'
  obtain ⟨hty, hval, harena, hfunc⟩ := hval
  dsimp only at hty hval harena hfunc ⊢
  subst hty hval
  obtain ⟨rfl, rfl⟩ | ⟨f, f', rfl, rfl, hfn⟩ := rel_cases hfunc
  · cases ty' <;> exact .ok rfl he
  cases ty' with
  | function params result cc =>
    dsimp only
    rw [hfn.source.body]
    cases hb : f.source.body with
    | none => exact .ok rfl he
    | some body =>
      have hs : Scope.Accords d (.body (.declaration (u.scope D.file) d) d (some d) false)
          (.body (.declaration (u'.scope D.file) d) d (some d) false) := ⟨rfl, rfl, rfl, rfl⟩
      have hE := ensureAt_agree hA (Nat.succ_le_succ (he.program.potentialDecls_le hA))
      have hM := hA.pairing hE ⟨_, d⟩ ⟨_, d⟩ hs rfl
      have hstep :=
        Analysis.fnBody_inStep (ρ := Eq) hM hD.src (hA.point hD.src) (hfn.source.code.matches hA) params result
        body fun h => absurd trivial h
      refine runBody_endInAccord harena hstep (he.modifyProgram fun hp => hp.modifyDecl d fun _ _ hD => ?_) ?_
      · exact { hD with value := .some ⟨rfl, rfl, ⟨fun _ => .none, rfl⟩, .some { hfn with state := rfl }⟩ }
      refine hr.imp (fun hnum => ⟨hnum, hfn.revision hnum⟩) fun ⟨hk, hk'⟩ => ⟨?_, ?_⟩
      · exact hk D u _ f params result cc body hx (ha D hx) hu hv rfl rfl hb
      · have hu' : e'.program.units.get? D'.file = some u' := hD.file ▸ hu'
        have h := hk' D' u' _ f' params result cc body hy ((ha D hx).accords hD.toAccords) hu' hv' rfl rfl
          (hfn.source.body.trans hb)
        rwa [hD.file] at h
  | _ => exact .ok rfl he

lemma readyForCode_endInAccord (hA : A.Lawful) (he : e.Accords A e')
    (hr : A.numbered ∨ e.KeepsLowering d ∧ e'.KeepsLowering d) :
    EndInAccord A (fun ready ready' => ready' = ready ∧ (ready = true → ¬ A.spoilt d)) (readyForCode d e)
      (readyForCode d e') := by
  unfold readyForCode
  obtain ⟨hx, hy⟩ | ⟨D, D', hx, hy, hD⟩ := rel_cases (he.program.decl? d)
  · rw [hx, hy]
    exact .ok ⟨rfl, nofun⟩ he
  rw [hx, hy]
  dsimp only
  rw [hD.state, hD.fnState_eq]
  split
  · exact .ok ⟨rfl, nofun⟩ he
  · next hs =>
    have hd : ¬ A.spoilt d := fun hd => by
      rw [hD.stuck hd] at hs
      exact hs rfl
    split
    · next hf =>
      have hawaits : D.AwaitsBody := by
        obtain ⟨f, hf, hq⟩ := Option.map_eq_some_iff.1 hf
        refine ⟨?_, f, hf, hq⟩
        by_contra hno
        exact hs (by simpa [not_or] using hno)
      have h := analyzeBody_endInAccord (d := d) hA he (fun _ h => Option.some.inj (hx.symm.trans h) ▸ hawaits) hr
      generalize analyzeBody d e = r at h
      generalize analyzeBody d e' = r' at h
      cases h with
      | ok _ he => exact .ok ⟨rfl, fun _ => hd⟩ he
      | @error i _ _ h =>
        cases i with
        | analysisFail => exact .ok ⟨rfl, nofun⟩ h
        | outOfMemory => exact .error h
        | exhausted => exact .error h
      | lost h =>
        cases h
        exact .lost rfl
    · exact .ok ⟨rfl, nofun⟩ he
    · exact .ok ⟨rfl, nofun⟩ he
    · exact .ok ⟨rfl, nofun⟩ he
    · exact .ok ⟨rfl, fun _ => hd⟩ he

/-! Questions to the backend. -/

lemma refusedBy_inAccord (hd : ¬ A.spoilt d) (error : BackendError) (cause : String → Cause) :
    InAccord A Eq (refusedBy d error cause) (refusedBy d error cause) := by
  unfold refusedBy
  cases error with
  | outOfMemory => exact .throw _
  | retryable reason | permanent reason =>
    refine .modify fun p p' hp => ?_
    obtain ⟨hx, hy⟩ | ⟨D, D', hx, hy, hD⟩ := rel_cases (hp.decl? d)
    · rw [hx, hy]
      exact hp
    · rw [hx, hy]
      exact hp.refuse hd hD.toAccords (by decide) _

def SameAnswers (A : Accord) (question : Backend → Decl → Option BackendError × Backend) : Prop :=
  ∀ b b' D D', b.Accords A b' → D.Accords A D' →
    (question b' D').1 = (question b D).1 ∧ (question b D).2.Accords A (question b' D').2

variable {question : Backend → Decl → Option BackendError × Backend} {J : Engine → Engine → Prop}

lemma ask_inAccord (hd : ¬ A.spoilt d) (hq : SameAnswers A question) (cause : String → Cause) :
    InAccord A Eq (ask d question cause) (ask d question cause) := by
  unfold ask
  refine .program fun p p' hp => ?_
  obtain ⟨hx, hy⟩ | ⟨D, D', hx, hy, hD⟩ := rel_cases (hp.decl? d)
  · rw [hx, hy]
    exact .pure rfl
  rw [hx, hy]
  have hb := hq _ _ _ _ hp.backend hD.toAccords
  dsimp only
  generalize question p.backend D = x at hb
  generalize question p'.backend D' = y at hb
  obtain ⟨answer, b⟩ := x
  obtain ⟨answer', b'⟩ := y
  obtain ⟨rfl, hb⟩ := hb
  refine .bindEq (.modify fun _ _ hq => hq.withBackend hb) fun _ => ?_
  cases answer' with
  | none => exact .pure rfl
  | some error => exact refusedBy_inAccord hd error cause

lemma askComplete_inAccord (hq : SameAnswers A question) (cause : String → Cause) :
    InAccord A Eq (askComplete d question cause) (askComplete d question cause) := by
  unfold askComplete
  refine .program fun p p' hp => ?_
  rw [hp.any_eq d fun _ _ hD => by rw [hD.state]]
  refine .ite (fun hc => ?_) fun _ => .pure rfl
  have hd : ¬ A.spoilt d := fun hd => by
    obtain ⟨hx, -⟩ | ⟨D, D', hx, -, hD⟩ := rel_cases (hp.decl? d)
    · rw [hx] at hc
      cases hc
    · rw [hx, Option.any_some, hD.stuck hd] at hc
      cases hc
  exact ask_inAccord hd hq cause

lemma sameAnswers_updateDecl : SameAnswers A Backend.updateDecl := fun _ _ _ _ hb hD => hb.call _ hD (.updateDecl hD)

lemma sameAnswers_emitHeader : SameAnswers A Backend.emitHeader := fun _ _ _ _ hb hD => hb.call _ hD (.emitHeader hD)

lemma sameAnswers_updateLine : SameAnswers A updateLine := by
  intro b b' D D' hb hD
  have h := hb.call .updateLine hD (.updateLine hD)
  unfold updateLine Backend.updateLine
  dsimp only
  rw [h.1]
  exact ⟨rfl, h.2⟩

/-! Pending work. -/

lemma codegen_endInAccord (hA : A.Lawful) (he : e.Accords A e')
    (hr : A.numbered ∨ e.KeepsLowering d ∧ e'.KeepsLowering d) : EndInAccord A Eq (codegen d e) (codegen d e') := by
  have h := readyForCode_endInAccord (d := d) hA he hr
  show EndInAccord A Eq (EStateM.bind (readyForCode d) _ e) (EStateM.bind (readyForCode d) _ e')
  unfold EStateM.bind
  generalize readyForCode d e = r at h
  generalize readyForCode d e' = r' at h
  cases h with
  | @ok ready ready' _ _ ha he =>
    obtain ⟨rfl, hd⟩ := ha
    dsimp only
    cases ready' with
    | true => exact ask_inAccord (hd rfl) sameAnswers_updateDecl _ _ _ he
    | false => exact .ok rfl he
  | error h => exact .error h
  | lost h => exact .lost h

lemma analyzeItem_endInAccord (hA : A.Lawful) (he : e.Accords A e') :
    EndInAccord A Eq (analyzeItem d e) (analyzeItem d e') := by
  have h : EndInAccord A Eq (EngineM.ensure d e) (EngineM.ensure d e') :=
    ensureAt_agree hA (Nat.succ_le_succ (he.program.potentialDecls_le hA)) d e e' he
  unfold analyzeItem
  generalize EngineM.ensure d e = r at h
  generalize EngineM.ensure d e' = r' at h
  cases h with
  | ok ha he => exact .ok ha he
  | @error i _ _ h =>
    cases i with
    | analysisFail => exact .ok rfl h
    | outOfMemory => exact .error h
    | exhausted => exact .error h
  | lost h =>
    cases h
    exact .lost rfl

lemma perform_endInAccord (hA : A.Lawful) (he : e.Accords A e') (item : WorkItem)
    (hr : A.numbered ∨ ∀ d, item = .codegen d → e.KeepsLowering d ∧ e'.KeepsLowering d) :
    EndInAccord A Eq (perform item e) (perform item e') := by
  cases item with
  | analyze d => exact analyzeItem_endInAccord hA he
  | codegen d => exact codegen_endInAccord hA he (hr.imp_right fun h => h d rfl)
  | emitHeader d => exact askComplete_inAccord sameAnswers_emitHeader _ _ _ he
  | updateLine d => exact askComplete_inAccord sameAnswers_updateLine _ _ _ he

structure Steady (A : Accord) (J : Engine → Engine → Prop) : Prop where
  lowering {e e' d rest} : J e e' → e.queue.items = .codegen d :: rest → e'.queue = e.queue →
    A.numbered ∨ Engine.KeepsLowering { e with queue := ⟨rest⟩ } d ∧ Engine.KeepsLowering { e' with queue := ⟨rest⟩ } d
  step {e e' e₁ e₁' item rest} : J e e' → e.queue.items = item :: rest → e'.queue = e.queue →
    perform item { e with queue := ⟨rest⟩ } = .ok () e₁ → perform item { e' with queue := ⟨rest⟩ } = .ok () e₁' →
      J e₁ e₁'

lemma performWith_endInAccord (hA : A.Lawful) (hJ : Steady A J) {n m : Nat} (hnm : n ≤ m) (he : e.Accords A e')
    (hj : J e e') : EndInAccord A Eq (performWith n e) (performWith m e') := by
  induction n generalizing m e e' with
  | zero =>
    show EndInAccord A Eq
      ((if !e.queue.isEmpty then MonadExcept.throw Interrupt.exhausted else pure () : EngineM Unit) e) _
    split
    · exact .lost rfl
    · next hq =>
      -- Nothing is left for the second either.
      have hempty : e'.queue.items = [] := by
        rw [he.queue]
        simpa [WorkQueue.isEmpty] using hq
      cases m with
      | zero =>
        show EndInAccord A Eq (.ok () e)
          ((if !e'.queue.isEmpty then MonadExcept.throw Interrupt.exhausted else pure () : EngineM Unit) e')
        rw [if_neg (by simp [WorkQueue.isEmpty, hempty])]
        exact .ok rfl he
      | succ m =>
        rw [performWith_succ_of_nil hempty]
        exact .ok rfl he
  | succ n ih =>
    obtain ⟨m, rfl⟩ := Nat.exists_eq_add_of_le' hnm
    rw [← Nat.add_assoc]
    cases hq : e.queue.items with
    | nil =>
      rw [performWith_succ_of_nil hq, performWith_succ_of_nil (he.queue ▸ hq)]
      exact .ok rfl he
    | cons item rest =>
      rw [performWith_succ_of_cons hq, performWith_succ_of_cons (he.queue ▸ hq)]
      show EndInAccord A Eq (EStateM.bind (perform item) (fun _ => performWith n) { e with queue := ⟨rest⟩ })
        (EStateM.bind (perform item) (fun _ => performWith (m + n)) { e' with queue := ⟨rest⟩ })
      have hacc : Engine.Accords A { e with queue := ⟨rest⟩ } { e' with queue := ⟨rest⟩ } := ⟨he.program, rfl⟩
      have hl : A.numbered ∨ ∀ d, item = .codegen d → Engine.KeepsLowering { e with queue := ⟨rest⟩ } d ∧
          Engine.KeepsLowering { e' with queue := ⟨rest⟩ } d := by
        by_cases hnum : A.numbered
        · exact .inl hnum
        · exact .inr fun d hd => (hJ.lowering hj (hd ▸ hq) he.queue).resolve_left hnum
      have h := perform_endInAccord hA hacc item hl
      unfold EStateM.bind
      cases hx : perform item { e with queue := ⟨rest⟩ } with
      | ok _ e₁ =>
        rw [hx] at h
        cases hy : perform item { e' with queue := ⟨rest⟩ } with
        | ok _ e₁' =>
          rw [hy] at h
          cases h with
          | ok _ he₁ => exact ih (Nat.le_add_left n m) he₁ (hJ.step hj hq he.queue hx hy)
        | error i e₁' =>
          rw [hy] at h
          cases h
      | error i e₁ =>
        rw [hx] at h
        generalize perform item { e' with queue := ⟨rest⟩ } = r at h
        cases h with
        | error h => exact .error h
        | lost h => exact .lost h

lemma performWork_endInAccord (hA : A.Lawful) (hJ : Steady A J) (he : e.Accords A e') (hj : J e e') :
    EndInAccord A Eq (performWork e) (performWork e') := by
  refine performWith_endInAccord hA hJ ?_ he hj
  rw [he.queue]
  have := he.program.potentialDecls_le hA
  omega

end EngineM

end Frontend
