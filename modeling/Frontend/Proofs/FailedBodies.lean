import Frontend.Proofs.Faults

/-! Bodies whose analysis fails. A function that waits for its body has no code at all, however often it was queued; and
while the body is analyzed nothing else touches the declaration. So a failure leaves it as it was, but for the state of
the function. -/

namespace Frontend

def Config.Unwritten (c : Config) : Prop :=
  ∀ d D v f, c.program.decl? d = some D → D.value = some v → v.func = some f →
    (f.state = .queued → v.arena.insts = #[] ∧ f.body = none) ∧ (c.body = some (d, f.revision) → f.body = none)

structure Config.Suspends (o : Engine) (c : Config) : Prop where
  graph : c.engine.program.Graph
  attentive : c.stage ≠ .torn → c.Attentive
  body {d r} : c.body = some (d, r) → d ∉ c.stack ∧ ∃ D v f D' s, o.program.decl? d = some D ∧ D.value = some v ∧
    v.func = some f ∧ f.revision = r ∧ c.program.decl? d = some D' ∧ D'.state = D.state ∧
    D'.value = some { v with func := some { f with state := s } } ∧
    (s = .inProgress ∨ s = .failed ∧ (c.program.record? d).isSome = true ∨ s = .dependencyFailed)

variable {c c' : Config} {o e : Engine} {d : DeclId}

namespace Config.Unwritten

lemma step (h : c.Unwritten) (hm : Move c c') (hb : c'.body = c.body) : c'.Unwritten := by
  intro d D' v' f' hD' hv' hf'
  rw [hb]
  obtain ⟨D, r', hD, -, hturn⟩ | ⟨file, ns, item, -, -, -, -, -, rfl⟩ := hm.was hD'
  · cases hturn with
    | failedBody =>
      obtain ⟨v, hv, rfl⟩ := Option.map_eq_some_iff.1 hv'
      obtain ⟨f, hf, rfl⟩ := Option.map_eq_some_iff.1 hf'
      exact ⟨fun hq => (by cases hq), (h d D v f hD hv hf).2⟩
    | dependedBody =>
      obtain ⟨v, hv, rfl⟩ := Option.map_eq_some_iff.1 hv'
      obtain ⟨f, hf, rfl⟩ := Option.map_eq_some_iff.1 hf'
      split
      · exact ⟨fun hq => (by cases hq), (h d D v f hD hv hf).2⟩
      · exact h d D v f hD hv hf
    | installed _ _ _ _ hfresh =>
      cases hv'
      exact ⟨fun _ => hfresh.unwritten hf', fun _ => (hfresh.unwritten hf').2⟩
    | opened _ _ hn hs => cases hn.symm.trans (hb.symm.trans hs)
    | ended _ _ hs hn => cases hn.symm.trans (hb.trans hs)
    | _ => exact h d D v' f' hD hv' hf'
  · cases hv'

lemma opens (h : c.Unwritten) (hm : Move c c') (hb : ¬ (c'.body = none ∨ c'.body = c.body)) : c'.Unwritten := by
  cases hm with
  | @openBody d e D v f hd ha hv hf =>
    intro x D' v' f' hD' hv' hf'
    obtain ⟨rfl, _, -, rfl⟩ | ⟨hx, hD₀⟩ := Program.decl?_modifyDecl_cases hD'
    · cases hv'
      cases hf'
      obtain ⟨-, g, hg, hq⟩ := ha
      cases (Decl.func?_eq hv hf).symm.trans hg
      exact ⟨fun hs => (by cases hs), fun _ => ((h x D v f hd hv hf).1 hq).2⟩
    · exact ⟨(h x D' v' f' hD₀ hv' hf').1, fun hs => absurd (congrArg Prod.fst (Option.some.inj hs)).symm hx⟩
  | _ => first | exact absurd (.inl rfl) hb | exact absurd (.inr rfl) hb

lemma finish {st st' : Stage} {r : Nat} {arena : Typed.Arena} {g : Function → Function}
    (h : Unwritten ⟨st, [], some (d, r), e⟩)
    (hg : ∀ f, f.body = none → (g f).state = .queued → arena.insts = #[] ∧ (g f).body = none) :
    Unwritten ⟨st', [], none, e.modifyProgram (·.finishBody d r arena g)⟩ := by
  intro x D v f hD hv hf
  refine ⟨fun hq => ?_, fun hs => by cases hs⟩
  obtain ⟨D₀, v₀, hD₀, hv₀, ⟨rfl, -⟩ | ⟨rfl, f₀, hf₀, rfl, rfl⟩⟩ := Program.exists_of_finishBody hD hv
  · exact (h x D₀ v f hD₀ hv₀ hf).1 hq
  · cases hf
    exact hg f₀ ((h x D₀ v₀ f₀ hD₀ hv₀ hf₀).2 rfl) hq

lemma awaits (h : c.Unwritten) {D : Decl} (hD : c.program.decl? d = some D) (ha : D.AwaitsBody) :
    ∃ v f, D.value = some v ∧ v.func = some f ∧ v.arena.insts = #[] ∧ f.body = none := by
  obtain ⟨-, f, hf, hq⟩ := ha
  obtain ⟨v, hv, hf⟩ := Option.bind_eq_some_iff.1 hf
  exact ⟨v, f, hv, hf, (h d D v f hD hv hf).1 hq⟩

end Config.Unwritten

lemma Typed.Arena.insts_restore {a b : Arena} (h : b.insts = #[]) : (a.restore b.size).insts = #[] := by
  simp [restore, size, h]

namespace Config.Suspends

lemma attentive_move (h : c.Suspends o) (hm : Move c c') (ht : c'.stage ≠ .torn) : c'.Attentive :=
  Frontend.attentive_move c c' hm ht h.graph (h.attentive fun hc => ht (hm.torn hc))

lemma move (h : c.Suspends o) (hm : Move c c') (hb : c'.body = none ∨ c'.body = c.body) : c'.Suspends o where
  graph := graph_move c c' hm h.graph
  attentive ht := h.attentive_move hm ht
  body {d r} hd' := by
    have hd : c.body = some (d, r) := hb.elim (fun hb => by cases hb.symm.trans hd') (·.symm.trans hd')
    obtain ⟨hS, D, v, f, D', s, hD, hv, hf, hr, hD', hst, hv', hs⟩ := h.body hd
    by_cases ht : c'.stage = .torn
    · -- What is torn off is taken from the stack, where the declaration is not.
      cases hm with
      | @rewind x =>
        refine ⟨List.not_mem_of_not_mem_cons hS, D, v, f, D', s, hD, hv, hf, hr, ?_, hst, hv', hs⟩
        exact (Program.decl?_modifyDecl ..).trans ((if_neg (List.ne_of_not_mem_cons hS).symm).trans hD')
      | quiet hq =>
        refine ⟨hS, D, v, f, D', s, hD, hv, hf, hr, (congrArg (Dict.get? · d) hq.decls).trans hD', hst, hv', ?_⟩
        refine hs.imp_right fun hs => hs.imp_left fun hs => ⟨hs.1, .trans ?_ hs.2⟩
        exact congrArg (fun r => (Dict.get? r d).isSome) hq.failedDecls
      | tear | collide | claim => exact ⟨hS, D, v, f, D', s, hD, hv, hf, hr, hD', hst, hv', hs⟩
      | requeue => cases hd'
      | @take _ item => cases item <;> cases ht
      | _ => cases ht
    · refine ⟨(h.attentive_move hm ht).apart hd', D, v, f, ?_⟩
      obtain ⟨D'', hD'', ⟨hw, hrec⟩ | ⟨-, -, ⟨_, rfl, hrec⟩ | ⟨rfl, hrec⟩⟩⟩ :=
        hm.body_turn h.graph (h.attentive fun hc => ht (hm.torn hc)) ht hd hd' hD'
      · cases hw
        rw [← hrec] at hs
        exact ⟨_, s, hD, hv, hf, hr, hD'', hst, hv', hs⟩
      · exact ⟨_, .failed, hD, hv, hf, hr, hD'', hst, by rw [Decl.modifyFunc, hv']; rfl,
          .inr (.inl ⟨rfl, by rw [hrec]; rfl⟩)⟩
      · refine ⟨_, if s = .inProgress then .dependencyFailed else s, hD, hv, hf, hr, hD'', hst, ?_, ?_⟩
        · rw [Decl.modifyFunc, hv']
          dsimp only [Option.map_some]
          split <;> rfl
        · split
          · exact .inr (.inr rfl)
          · rw [hrec]
            exact hs

lemma rebase (h : c.Suspends o) : c.Suspends c.engine := by
  refine ⟨h.graph, h.attentive, fun {d r} hd => ?_⟩
  obtain ⟨hS, D, v, f, D', s, -, -, -, hr, hD', -, hv', hs⟩ := h.body hd
  exact ⟨hS, D', _, _, D', s, hD', hv', rfl, hr, hD', rfl, hv', hs⟩

lemma opens (h : c.Suspends o) (hm : Move c c') (hb : ¬ (c'.body = none ∨ c'.body = c.body)) :
    c'.Suspends c'.engine := by
  refine ⟨graph_move c c' hm h.graph, h.attentive_move hm, fun {x r} hx => ?_⟩
  cases hm with
  | @openBody d e D v f hd ha hv hf =>
    cases hx
    have hD := Program.decl?_modifyDecl_of (f := (·.opened v f)) hd
    exact ⟨List.not_mem_nil, _, _, _, _, .inProgress, hD, rfl, rfl, rfl, hD, rfl, rfl, .inl rfl⟩
  | _ => first | exact absurd (.inl rfl) hb | exact absurd (.inr rfl) hb

end Config.Suspends

def Config.Mends (attended : Prop) (o : Engine) (c : Config) : Prop := c.Unwritten ∧ (attended → c.Suspends o)

lemma Config.Mends.step {attended : Prop} (h : c.Mends attended o) (hm : Move c c') (hb : c'.body = c.body) :
    c'.Mends attended o := ⟨h.1.step hm hb, fun ha => (h.2 ha).move hm (.inr hb)⟩

lemma mends_upheld (attended : Prop) : Upheld (fun o c => c.Mends attended o) fun _ => True where
  rebase h := ⟨h.1, fun ha => (h.2 ha).rebase⟩
  step hm _ hb h := h.step hm hb
  opens hm hb h := ⟨_, h.1.opens hm hb, fun ha => (h.2 ha).opens hm hb⟩
  lowers _ _ _ := trivial
  fn _ _ _ hv _ _ _ h := h.step (.install hv) rfl
  var {_ o _ _ _ _ _ _ item v _ _} _ _ hn hk _ _ _ h :=
    ((hk o).variableValue h item.src v hn).mono (fun _ _ h => ⟨h.1, fun _ hv => h.1.step (.install hv) rfl⟩)
      fun _ _ h => h
  block _ _ _ _ _ _ h := h.step .ran rfl
  body {_ o _ d _ _ v₀ _ _ _ f params result _ rs _ _ src} h₀ hD₀ ha hv₀ _ _ _ _ _ hn hk h := by
    obtain ⟨v, -, hv, -, hempty, -⟩ := h₀.1.awaits hD₀ ha
    cases hv₀.symm.trans hv
    have clear (a : Typed.Arena) : (a.restore v₀.arena.size).insts = #[] := Typed.Arena.insts_restore hempty
    exact EngineM.runBody_settles
      (fun a _ hg _ hm h => ⟨h.1.finish fun f hb _ => ⟨clear a, (hg f).trans hb⟩,
        fun ha => (h.2 ha).move hm (.inl rfl)⟩)
      (((hk o).fnBody h _ f.source params result rs src hn).mono (fun _ _ h => ⟨h.1.finish fun _ _ hq => (by cases hq),
        fun ha => (h.2 ha).move (.closeBody _ _) (.inl rfl)⟩) fun _ _ h => h)

lemma Config.Unwritten.outlasts : Program.Outlasts Config.Unwritten
    (fun p => Config.Unwritten p.resting) fun _ => True := by
  have upheld : Upheld (fun _ => Config.Unwritten) fun _ => True := by simpa [Config.Mends] using mends_upheld False
  have holds {c : Config} (h : c.Unwritten) : Config.Unwritten c.program.resting :=
    fun d D v f hD hv hf => ⟨(h d D v f hD hv hf).1, fun hs => (by cases hs)⟩
  have rewire {p p' : Program} (hw : p.Rewired p') (h : Config.Unwritten p.resting) :
      Config.Unwritten p'.resting := by
    intro d D' v f hD' hv hf
    obtain ⟨D, hD, hw⟩ := hw.exists_of_decl? hD'
    cases hw
    exact h d D v f hD hv hf
  exact .ofRewire upheld
    (Program.update_of_kept (P := fun p => Config.Unwritten p.resting) upheld id holds id) rewire id holds

namespace EngineM

lemma analyzeBody_fails {K : Engine → Config → Prop} {L : Untyped.Decl → Prop} (hK : Upheld K L) {D : Decl}
    {v : DeclValue}
    {f : Function} (hD : e.program.decl? d = some D) (hv : D.value = some v) (hf : v.func = some f)
    (hc : K o ⟨.working, [], some (d, f.revision), e.modifyProgram (·.modifyDecl d (·.opened v f))⟩) :
    Settles (analyzeBody d) e (fun _ _ => True) fun i e' => ∃ s : Analysis.State,
      Halts True (K o) .failing [] (some (d, f.revision)) i s.engine ∧
      e' = s.engine.modifyProgram (·.finishBody d f.revision (s.block.arena.restore v.arena.size) fun f => { f with
        state := if i = .analysisFail then
          if f.state = .inProgress then .dependencyFailed else f.state else .queued }) := by
  obtain ⟨hr, -⟩ | ⟨u, params, result, cc, body, -, -, hr⟩ := analyzeBody_cases hD hv hf
  · exact .ofOk hr trivial
  · refine .ofEq hr ((runBody_outcome (Analysis.Keeps.fnBody
      (J := fun e => K o ⟨.working, [], some (d, f.revision), e⟩) ?_ hc
      v.arena f.source params result body D.src fun h => absurd trivial h)).mono (fun _ _ _ => trivial) fun _ _ h => h)
    exact keeps hK (.free K L) (ensureAt_ensures hK (.free K L) _) (fun h => absurd trivial h) (.body rfl rfl) o

end EngineM

namespace Program

inductive Works (p : Program) : Engine → Prop
  | begin : Works p p.begin
  | perform {e e' : Engine} {item : WorkItem} {rest : List WorkItem} (h : Works p e) (hq : e.queue.items = item :: rest)
      (hp : EngineM.perform item { e with queue := ⟨rest⟩ } = .ok () e') : Works p e'

lemma Works.kept {K : Engine → Config → Prop} {L : Untyped.Decl → Prop} (hK : Upheld K L) {p : Program} (h : p.Works e)
    (hc : Kept K p.starting) : Kept K ⟨.working, [], none, e⟩ := by
  induction h with
  | begin => exact begin_upheld hK hc
  | @perform e e' item rest _ hq hp ih =>
    have h := EngineM.perform_upheld hK (.free K L) (hK.keep (.take hq) (by cases item <;> rfl) ih)
    unfold Settles at h
    rwa [hp] at h

lemma Reaches.unwritten {options : Options} {backend : Backend} {allowed : Action → Prop} {p : Program}
    (h : Reaches allowed { options, backend } p) : Config.Unwritten p.resting := by
  refine Config.Unwritten.outlasts.reaches (fun {_ change} _ h => ?_) (fun _ h => h) h fun _ _ _ _ hD => (by cases hD)
  cases change <;> exact h

/-- Wherever in the work of an update the analysis of a body fails that a function waits for, its declaration keeps its
state, and its value but for the function's state: the arena has the instructions it had, and there is no body. The
function is queued again if the update is torn off. Else it failed, and that is recorded, or it depends on a failure. -/
theorem failed_body_restored {options : Options} {backend : Backend} {p : Program}
    (h : Reaches (fun _ => True) { options, backend } p) (hw : p.Works e) {rest : List WorkItem}
    (hq : e.queue.items = .codegen d :: rest) {D : Decl} (hD : e.program.decl? d = some D) (ha : D.AwaitsBody)
    {i : Interrupt}
    {e' : Engine} (hr : EngineM.analyzeBody d { e with queue := ⟨rest⟩ } = .error i e') :
    ∃ v f D' arena s, D.value = some v ∧ v.func = some f ∧ f.body = none ∧ e'.program.decl? d = some D' ∧
      D'.state = D.state ∧
      D'.value = some { v with arena, func := some { f with state := s } } ∧ arena.insts = v.arena.insts ∧
      if i = .analysisFail then s = .failed ∧ (e'.program.failedDecls.get? d).isSome = true ∨ s = .dependencyFailed
      else s = .queued := by
  have hK := mends_upheld True
  have hworking : Kept (fun o c => c.Mends True o) ⟨.working, [], none, e⟩ := hw.kept hK ⟨⟨p, {}⟩, h.unwritten, fun _ =>
    ⟨((Graph.empty options backend).reaches h).ofDecls rfl rfl, fun _ => .ofIdle rfl rfl nofun nofun, nofun⟩⟩
  obtain ⟨o, hcoding⟩ := hK.keep (.take hq) rfl hworking
  obtain ⟨v, f, hv, hf, hempty, hbody⟩ := hcoding.1.awaits hD ha
  obtain ⟨_, hopen⟩ := hK.keep (.openBody (e := { e with queue := ⟨rest⟩ }) hD ha hv hf) rfl ⟨o, hcoding⟩
  have hs := EngineM.analyzeBody_fails hK (e := { e with queue := ⟨rest⟩ }) hD hv hf (hK.rebase hopen)
  unfold Settles at hs
  rw [hr] at hs
  obtain ⟨s, hs, rfl⟩ := hs
  obtain ⟨st, hs⟩ : ∃ st, Config.Suspends _ ⟨st, [], some (d, f.revision), s.engine⟩ := by
    cases i with
    | analysisFail | outOfMemory => exact ⟨_, hs.2 trivial⟩
    | exhausted => exact ⟨_, hs.2.2 trivial⟩
  obtain ⟨-, D₁, v₁, f₁, D', t, hD₁, hv₁, hf₁, -, hD', hst, hv', ht⟩ := hs.body rfl
  cases (decl?_modifyDecl_of hD).symm.trans hD₁
  cases hv₁
  cases hf₁
  refine ⟨v, f, _, s.block.arena.restore v.arena.size,
    if i = .analysisFail then if t = .inProgress then .dependencyFailed else t else .queued, hv, hf, hbody,
    decl?_modifyDecl_of hD', hst, ?_, (Typed.Arena.insts_restore hempty).trans hempty.symm, ?_⟩
  · rw [hv', Option.map_some, if_pos (by simp)]
    rfl
  · split
    · split
      · exact .inr rfl
      · next hn => exact ht.resolve_left hn
    · rfl

lemma exists_performed {e : Engine} {item : WorkItem} {wanted : Engine → Bool}
    (h : (EStateM.run' (do EngineM.perform item; get) e).any wanted = true) :
    ∃ e', EngineM.perform item e = .ok () e' ∧ wanted e' = true := by
  delta EStateM.run' at h
  simp only [EStateM.run, bind, EStateM.bind] at h
  cases hr : EngineM.perform item e with
  | ok _ e' => exact ⟨e', rfl, by rwa [hr] at h⟩
  | error i e' =>
    rw [hr] at h
    cases h

/-- A function that returns what its result cannot hold. -/
theorem failed_body_restored_overflow :
    let p := Program.act {} (.edit (.addSource "a" "export fn f() u8 \x7b return 300; \x7d\n"))
    ∃ e i e' D v f D' arena, p.Works e ∧ EngineM.analyzeBody 0 { e with queue := ⟨[]⟩ } = .error i e' ∧
      e.program.decl? 0 = some D ∧ D.value = some v ∧ e'.program.decl? 0 = some D' ∧
      D'.value = some { v with arena, func := some f } ∧ arena.insts = v.arena.insts := by
  intro p
  obtain ⟨e, he, hwanted⟩ : ∃ e, EngineM.perform (.analyze 0) { p.begin with queue := ⟨[]⟩ } = .ok () e ∧
      (decide (e.queue.items = [.codegen 0]) &&
        (EStateM.run' (EngineM.analyzeBody 0) { e with queue := ⟨[]⟩ }).isNone &&
        (e.program.decl? 0).any fun D => D.state == .complete && D.func?.any (·.state == .queued)) = true :=
    exists_performed (by decide +kernel)
  simp only [Bool.and_eq_true, decide_eq_true_iff, beq_iff_eq, Option.any_eq_true] at hwanted
  obtain ⟨⟨hq, hnone⟩, D, hD, hs, hawaits⟩ := hwanted
  have hw : p.Works e := .perform .begin (by decide +kernel) he
  cases hr : EngineM.analyzeBody 0 { e with queue := ⟨[]⟩ } with
  | ok _ e' =>
    delta EStateM.run' at hnone
    rw [EStateM.run, hr] at hnone
    cases hnone
  | error i e' =>
    obtain ⟨v, f, D', arena, s, hv, -, -, hD', -, hv', ha, -⟩ :=
      failed_body_restored (Reaches.refl.act trivial) hw hq hD ⟨.inl hs, hawaits⟩ hr
    exact ⟨e, i, e', D, v, _, D', arena, hw, hr, hD, hv, hD', hv', ha⟩

end Program

end Frontend
