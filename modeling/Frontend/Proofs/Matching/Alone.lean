import Frontend.Proofs.Matching.Declaration
import Frontend.Proofs.Settles

/-! One analysis by itself. Paired off with itself it stays in step, so that whatever mentions, exports and failures
keep of the engine is kept by all of evaluation. -/

namespace Frontend.Analysis

/-- What evaluation at a site keeps: `J` while it goes on, `E` where it is interrupted. If no bound may be reached, the
quota stays the same, and the bodies of functions nest no deeper than their code is long. -/
structure Keeps (overruns : Prop) (site : Site) (ensure : DeclId → EngineM Unit) (J : Engine → Prop)
    (E : Interrupt → Engine → Prop) : Prop where
  fails {e} (span : Span) (cause : Cause) : J e → E .analysisFail (e.modifyProgram (·.fail site.scope span cause))
  stops {e i} : J e → i ≠ .analysisFail → (i = .exhausted → overruns) → E i e
  quota {e e₁} : ¬ overruns → J e → J e₁ → e₁.program.options.branchQuota = e.program.options.branchQuota
  callee {e d f} : ¬ overruns → J e → e.program.func? d = some f → f.source.Nests
  mentions {e} (name : String) (span : Span) :
    J e → Settles (EngineM.mention ensure site name span) e (fun _ => J) E
  exports {e} (span : Span) (symbol : String) (d : DeclId) :
    J e → Settles (EngineM.exportSymbol ensure site.scope span symbol d) e (fun _ => J) E

def Pairing.alone (apart overruns : Prop) (site : Site) (ensure : DeclId → EngineM Unit) (J : Engine → Prop)
    (E : Interrupt → Engine → Prop) : Pairing where
  left := site
  right := site
  ensureLeft := ensure
  ensureRight := ensure
  spans := Eq
  engines := fun ρ e e' => ρ = Eq ∧ e' = e ∧ J e
  ended := fun i e e' => e' = e ∧ E i e
  lost := fun _ => False
  overruns := overruns
  apart := apart
  least := 0

variable {apart overruns : Prop} {site : Site} {ensure : DeclId → EngineM Unit} {J : Engine → Prop}
  {E : Interrupt → Engine → Prop}

lemma matches_self_code (c : Untyped.Code) : c.Matches Eq c := ⟨rfl, fun _ => rfl⟩

variable {α : Type} {e : Engine} {m : Analysis α} {A : Pairs → α → α → Prop} {scope : Scope} {d : DeclId}

lemma alike_self {m : EngineM α} (h : Settles m e (fun _ => J) E) :
    Alike Eq ((Pairing.alone apart overruns site ensure J E).engines Eq)
      (Pairing.alone apart overruns site ensure J E).ended
      (fun _ => False)
      (m e) (m e) := by
  unfold Settles at h
  split at h
  · next hm => rw [hm]; exact .ok rfl ⟨rfl, rfl, h⟩
  · next hm => rw [hm]; exact .error ⟨rfl, h⟩

lemma Keeps.lawful (h : Keeps overruns site ensure J E) : (Pairing.alone apart overruns site ensure J E).Lawful where
  biUnique := by
    rintro ρ e e' ⟨rfl, -, -⟩
    exact ⟨fun _ _ _ hac hbc => hac.trans hbc.symm, fun _ _ _ hab hac => hab.symm.trans hac⟩
  options := by
    rintro ρ e e' ⟨-, rfl, -⟩
    rfl
  value := by
    rintro ρ e e' d d' ⟨rfl, rfl, -⟩ rfl
    cases (e'.program.decl? d).bind (·.value) with
    | none => exact .none
    | some v => exact .some ⟨rfl, Value.Matches.refl (fun _ => rfl) v.val⟩
  func := by
    rintro ρ e e' d d' ⟨rfl, rfl, -⟩ rfl
    cases e'.program.func? d with
    | none => exact .none
    | some f => exact .some ⟨matches_self_code _, rfl⟩
  inlined := by
    rintro ρ e e' d d' ⟨rfl, rfl, -⟩ rfl
    rfl
  fails := by
    rintro ρ e e' span span' c c' ⟨rfl, rfl, he⟩ rfl hc
    rw [hc.eq_of_eq]
    exact ⟨rfl, h.fails span c he⟩
  stops := by
    rintro ρ e e' i ⟨-, rfl, he⟩ hi ho
    exact ⟨rfl, h.stops he hi ho⟩
  quota := by
    rintro ρ τ e e' e₁ e₁' ho ⟨-, -, he⟩ ⟨-, -, he₁⟩
    exact h.quota ho he he₁
  callee := by
    rintro ρ e e' d f ho ⟨-, -, he⟩ hf
    exact h.callee ho he hf
  mentions := by
    rintro ρ e e' span span' name ⟨rfl, rfl, he⟩ rfl
    exact ⟨Eq, le_rfl, alike_self (h.mentions name span he)⟩
  exports := by
    rintro ρ e e' span span' d d' symbol ⟨rfl, rfl, he⟩ rfl rfl
    exact ⟨Eq, le_rfl, alike_self (h.exports span symbol d he)⟩

lemma matches_self_kind (k : Typed.InstKind) (hk : apart → ∀ v, k = .const v → v.isGlobal = false) :
    k.Matches apart Eq k := by
  cases k with
  | const v => exact .const ⟨Value.Matches.refl (fun _ => rfl) v, fun ha => hk ha v rfl⟩
  | _ => exact .code (by simp)

lemma State.matches_self {s : State} (hs : J s.engine) (ha : apart → s.block.arena.insts = #[] ∧ s.slots = #[]) :
    s.Matches (.alone apart overruns site ensure J E) Eq s where
  engine := ⟨rfl, rfl, hs⟩
  insts := fun r => by
    cases hi : s.block.arena.insts[r]? with
    | none => exact .none
    | some i =>
      refine .some ⟨matches_self_kind i.kind fun h => ?_, rfl, rfl⟩
      rw [(ha h).1] at hi
      cases hi
  limit := rfl
  body := rfl
  comptime := rfl
  results := rfl
  slots := fun r => by
    cases hv : s.slots[r]? with
    | none => exact .none
    | some v =>
      refine .some ⟨rfl, Value.Matches.refl (fun _ => rfl) v.val, fun h => ?_⟩
      rw [(ha h).2] at hv
      cases hv
  branches := rfl
  least := Nat.zero_le _

lemma settles_of_inStep (hm : InStep (.alone apart overruns site ensure J E) Eq A m m) {s : State} (hs : J s.engine)
    (ha : apart → s.block.arena.insts = #[] ∧ s.slots = #[]) :
    Settles (m site) s (fun a s => J s.engine ∧ ∃ ρ, A ρ a a) (fun i s => E i s.engine) := by
  obtain ⟨ρ, -, ha⟩ := hm Eq le_rfl s s (State.matches_self hs ha)
  change Alike _ _ _ _ (m site s) (m site s) at ha
  unfold Settles
  generalize m site s = r at ha
  cases r with
  | ok a s' =>
    cases ha with
    | ok hA hs' => exact ⟨hs'.engine.2.2, ρ, hA⟩
  | error i s' =>
    cases ha with
    | error he => exact he.1.2
    | lost hl => exact hl.elim

lemma inScratch_settles (hm : InStep (.alone True overruns ⟨.body scope d none true, d⟩ ensure J E) Eq A m m)
    (he : J e) : Settles (inScratch scope d m) e (fun a e => J e ∧ ∃ ρ, A ρ a a) E := by
  have h := settles_of_inStep hm
    (s := { engine := e, block := { arena := e.program.freshArena, isComptime := true } }) he fun _ => ⟨rfl, rfl⟩
  unfold Settles inScratch at *
  dsimp only at *
  split at h
  · next hr => rw [hr]; exact h
  · next hr => rw [hr]; exact h

lemma Keeps.variableValue (h : Keeps overruns ⟨.body scope d none true, d⟩ ensure J E) (he : J e) (src : Span)
    (v : Untyped.Var) (hn : ¬ overruns → v.Nests) :
    Settles (inScratch scope d (EngineM.variableValue ensure src v)) e
      (fun x e => J e ∧ ∀ init, x.2 = some init → init.isGlobal = false) E := by
  refine (inScratch_settles (variableValue_inStep (ρ := Eq) h.lawful (rfl : src = src)
    (⟨matches_self_code v.code, rfl, rfl, rfl, rfl, rfl⟩ : v.Matches Eq v) hn) he).mono ?_ fun _ _ h => h
  rintro ⟨ty, init⟩ e ⟨he, ρ, -, hx⟩
  refine ⟨he, fun w hw => ?_⟩
  cases hw
  cases hx with
  | some hw => exact hw.known trivial

lemma Keeps.fnBody (h : Keeps overruns site ensure J E) (he : J e) (arena : Typed.Arena) (f : Untyped.Fn)
    (params : List Ty) (result : Ty) (rs : List Ref) (src : Span) (hn : ¬ overruns → f.code.Nests rs) :
    Settles (fnBody ensure f params result rs src site) { engine := e, block := { arena } } (fun _ s => J s.engine)
      (fun i s => E i s.engine) :=
  (settles_of_inStep (fnBody_inStep (ρ := Eq) (h.lawful : (Pairing.alone False _ _ _ _ _).Lawful) (rfl : src = src) rfl
    (matches_self_code f.code)
    params result rs hn) he False.elim).mono (fun _ _ h => h.1) fun _ _ h => h

end Frontend.Analysis
