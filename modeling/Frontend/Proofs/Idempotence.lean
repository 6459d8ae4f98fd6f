import Frontend.Proofs.Quiescence.Attention

/-! Asking for a declaration twice. The first call leaves it in a state that the second one only reads: what failed
fails again, and what succeeded succeeds again unless the backend refused it storage, of which the first call does not
tell. -/

namespace Frontend

abbrev Rules := List ((BackendHook × String) × BackendError)

def Rules.Refused (rules : Rules) (name : String) (state : DeclState) : Prop :=
  (state = .codegenFailed ∨ state = .codegenFailedRetryable) ∧ ∃ error, rules.lookup (.allocate, name) = some error

def Stage.Shows (rules : Rules) : Stage → String → DeclState → Prop
  | .installed .., _, s => s = .complete
  | .settled, name, s => s = .inProgress ∨ s = .complete ∨ rules.Refused name s
  | .failing, _, s => s = .inProgress ∨ s = .failed ∨ s = .dependencyFailed
  | _, _, s => s = .inProgress

namespace Program
variable {p p' : Program} {d x : DeclId} {Q Q' : String → DeclState → Prop}

def Shows (p : Program) (d : DeclId) (Q : String → DeclState → Prop) : Prop :=
  ∃ D, p.decl? d = some D ∧ D.generation = p.generation ∧ Q D.name D.state

namespace Shows

variable (h : p.Shows d Q)
include h

lemma ofDecl? (hd : p'.decl? d = p.decl? d) (hg : p'.generation = p.generation) (hQ : ∀ n s, Q n s → Q' n s) :
    p'.Shows d Q' := by
  obtain ⟨D, hD, hgen, hs⟩ := h
  exact ⟨D, hd.trans hD, hgen.trans hg.symm, hQ _ _ hs⟩

lemma modify {f : Decl → Decl} (hf : ∀ D, p.decl? d = some D → D.generation = p.generation →
    (f D).generation = p.generation ∧ (Q D.name D.state → Q' (f D).name (f D).state)) :
    (p.modifyDecl d f).Shows d Q' := by
  obtain ⟨D, hD, hgen, hs⟩ := h
  exact ⟨f D, (decl?_modifyDecl_self ..).trans (congrArg _ hD), (hf D hD hgen).1, (hf D hD hgen).2 hs⟩

lemma rewire (hw : p.Rewired p') : p'.Shows d Q := by
  obtain ⟨D, hD, hgen, hs⟩ := h
  obtain ⟨D', hD', hr⟩ := hw.exists_decl? hD
  cases hr
  exact ⟨_, hD', hgen.trans hw.generation.symm, hs⟩

lemma register (hg : p.Graph) {file : FileId} {ns : NameHash} {item : ItemSummary} :
    (p.register file ns item).Shows d Q := by
  obtain ⟨D, hD, -⟩ := id h
  exact h.ofDecl? (decl?_register_of_lt (hg.bound hD)) rfl fun _ _ h => h

end Shows

lemma Shows.settle {state : DeclState} (h : p.Shows d fun n s => s = .inProgress ∨ Q n s) (hs : ∀ n, Q n state) :
    (p.modifyDecl d fun D => if D.isInProgress then { D with state } else D).Shows d Q := by
  refine h.modify fun D _ hgen => ?_
  split_ifs with hp
  · exact ⟨hgen, fun _ => hs _⟩
  · exact ⟨hgen, fun hs => hs.resolve_left fun hs => hp (beq_iff_eq.2 hs)⟩

lemma Shows.markOutdated {e : Engine} {D : Decl} (h : e.program.Shows d Q) (hx : e.program.decl? x = some D)
    (hgen : D.generation ≠ e.program.generation) : (e.markOutdated x).program.Shows d Q := by
  have hne : x ≠ d := by
    rintro rfl
    obtain ⟨D', hD', hg, -⟩ := h
    cases hx.symm.trans hD'
    exact hgen hg
  obtain ⟨he, -⟩ | ⟨D, -, -, he⟩ := e.markOutdated_cases x
  · rwa [he]
  · rw [he]
    exact h.ofDecl? (decl?_modifyDecl_of_ne hne) rfl fun _ _ h => h

end Program

namespace Config

def Shows (rules : Rules) (d : DeclId) (c : Config) : Prop :=
  ∀ inner, c.stack = inner ++ [d] → d ∉ inner ∧
    c.engine.program.Shows d (if inner = [] then c.stage.Shows rules else fun _ s => s = .inProgress)

namespace Shows
variable {rules : Rules} {d x : DeclId} {st st' : Stage} {S : List DeclId} {B B' : Option (DeclId × Nat)}
  {e e' : Engine}

lemma ofNil : Shows rules d ⟨st, [], B, e⟩ := by
  intro inner h
  simp at h

lemma alone (h : Shows rules d ⟨st, [d], B, e⟩) : e.program.Shows d (st.Shows rules) := (h [] rfl).2

lemma stay (h : Shows rules d ⟨st, S, B, e⟩)
    (hp : ∀ Q, e.program.Shows d Q → e'.program.Shows d Q)
    (hst : ∀ n s, st.Shows rules n s → st'.Shows rules n s) : Shows rules d ⟨st', S, B, e'⟩ := by
  intro inner hS
  obtain ⟨hd, hs⟩ := h inner hS
  refine ⟨hd, ?_⟩
  split_ifs at hs ⊢
  · exact (hp _ hs).ofDecl? rfl rfl hst
  · exact hp _ hs

lemma change {f : Decl → Decl} (h : Shows rules d ⟨st, x :: S, B, e⟩)
    (hp : e'.program.decls = (e.program.modifyDecl x f).decls) (hg : e'.program.generation = e.program.generation)
    (hf : ∀ D, e.program.decl? x = some D → D.generation = e.program.generation →
      (f D).generation = e.program.generation ∧
        (st.Shows rules D.name D.state → st'.Shows rules (f D).name (f D).state)) :
    Shows rules d ⟨st', x :: S, B, e'⟩ := by
  intro inner hS
  obtain ⟨hd, hs⟩ := h inner hS
  have hdecl : e'.program.decl? d = (e.program.modifyDecl x f).decl? d := congrArg (·.get? d) hp
  refine ⟨hd, ?_⟩
  cases inner with
  | nil =>
    obtain ⟨rfl, -⟩ := List.cons.inj hS
    exact (hs.modify hf).ofDecl? hdecl hg fun _ _ h => h
  | cons y inner =>
    obtain ⟨rfl, -⟩ := List.cons.inj hS
    have hne : x ≠ d := fun h => hd (h ▸ List.mem_cons_self ..)
    exact hs.ofDecl? (hdecl.trans (Program.decl?_modifyDecl_of_ne hne)) hg fun _ _ h => h

lemma fail {scope : Scope} (h : Shows rules d ⟨st, x :: S, B, e⟩) (ho : scope.owner? = some x)
    (hf : scope.func? = none) (span : Span) (cause : Cause) :
    Shows rules d ⟨.failing, x :: S, B, e.modifyProgram (·.fail scope span cause)⟩ := by
  unfold Program.fail
  rw [ho, hf]
  refine h.change (f := fun D => { D with state := .failed, generation := e.program.generation }) rfl rfl
    fun D _ _ => ?_
  exact ⟨rfl, fun _ => .inr (.inl rfl)⟩

lemma pop {f : Decl → Decl} (h : Shows rules d ⟨st, x :: S, B, e⟩)
    (hp : e'.program.decls = (e.program.modifyDecl x f).decls) (hg : e'.program.generation = e.program.generation) :
    Shows rules d ⟨.working, S, B, e'⟩ := by
  intro inner hS
  obtain ⟨hd, hs⟩ := h (x :: inner) (congrArg (x :: ·) hS)
  have hne : x ≠ d := fun h => hd (h ▸ List.mem_cons_self ..)
  have hdecl : e'.program.decl? d = (e.program.modifyDecl x f).decl? d := congrArg (·.get? d) hp
  refine ⟨fun h => hd (List.mem_cons_of_mem _ h), ?_⟩
  refine hs.ofDecl? (hdecl.trans (Program.decl?_modifyDecl_of_ne hne)) hg fun _ _ h => ?_
  split_ifs <;> exact h

lemma enter {D : Decl} (h : Shows rules d ⟨.due x, S, B, e⟩) (hx : e.program.decl? x = some D) (hs : D.state.Due) :
    Shows rules d ⟨.working, x :: S, B, e.modifyProgram (·.startAnalysis x)⟩ := by
  intro inner hS
  cases inner with
  | nil =>
    obtain ⟨rfl, -⟩ := List.cons.inj hS
    exact ⟨nofun, _, (Program.decl?_modifyDecl_self ..).trans (congrArg _ hx), rfl, rfl⟩
  | cons y inner =>
    obtain ⟨rfl, hinner⟩ := List.cons.inj hS
    obtain ⟨hd, D', hD', hg, hs'⟩ := h inner hinner
    have hp : D'.state = .inProgress := by split_ifs at hs' <;> exact hs'
    have hne : x ≠ d := by
      rintro rfl
      cases hx.symm.trans hD'
      rw [hp] at hs
      exact hs.elim nofun nofun
    refine ⟨fun h => (List.mem_cons.1 h).elim (fun h => hne h.symm) hd, D', ?_, hg, hp⟩
    exact (Program.decl?_modifyDecl_of_ne hne).trans hD'

end Shows

lemma shows_move {rules : Rules} {d : DeclId} {c c' : Config} (hm : Move c c') (ht : c'.stage ≠ .torn)
    (hg : c.program.Graph) (hr : c.program.backend.rules = rules) (h : c.Shows rules d) :
    c'.Shows rules d := by
  cases hm with
  | quiet hq =>
    exact h.stay (fun _ h => h.ofDecl? (congrArg (·.get? d) hq.decls) hq.generation fun _ _ h => h) fun _ _ h => h
  | collide | claim => exact h.stay (fun _ h => h.ofDecl? rfl rfl fun _ _ h => h) fun _ _ h => h
  | tear | rewind | requeue => exact absurd rfl ht
  | fail hs span cause =>
    cases hs with
    | decl ho hf => exact h.fail ho hf span cause
    | body => exact .ofNil
  | failLate hs _ span cause =>
    obtain ⟨ho, hf⟩ := hs
    exact h.fail ho hf span cause
  | depend hs =>
    cases hs with
    | decl _ hf =>
      unfold Program.dependencyFailed
      rw [hf]
      refine h.change rfl rfl fun D _ hgen => ?_
      split_ifs
      · exact ⟨hgen, fun _ => .inr (.inr rfl)⟩
      · exact ⟨hgen, .inl⟩
    | body => exact .ofNil
  | giveUp | ran => exact h.stay (fun _ h => h) fun _ _ h => .inl h
  | notice | dismiss => exact h.stay (fun _ h => h) fun _ _ h => h
  | register => exact h.stay (fun _ h => h.register hg) fun _ _ h => h
  | edge => exact h.stay (fun _ h => h.rewire (Program.addEdge_rewired ..)) fun _ _ h => h
  | release => exact h.stay (fun _ h => h.rewire (Program.release_rewired ..)) fun _ _ h => h
  | enter hx hs => exact h.enter hx hs
  | install => exact h.change rfl rfl fun D _ hgen => ⟨hgen, fun _ => rfl⟩
  | spare => exact h.stay (fun _ h => h) fun _ _ h => .inr (.inl h)
  | grant link header =>
    refine h.change (f := ({ · with link })) ?_ ?_ fun D _ hgen => ⟨hgen, fun h => .inr (.inl h)⟩
    · cases header <;> rfl
    · cases header <;> rfl
  | @withhold _ _ _ _ _ _ _ _ state hx hrefuses hs =>
    refine h.change (f := ({ · with state })) rfl rfl fun D hD hgen => ⟨hgen, fun _ => .inr (.inr ⟨hs, ?_⟩)⟩
    cases hx.symm.trans hD
    exact ⟨_, hr ▸ hrefuses⟩
  | finish => exact h.pop (f := fun D => if D.isInProgress then { D with state := .complete } else D) rfl rfl
  | abandon => exact h.pop rfl rfl
  | outdate hx _ hgen => exact h.stay (fun _ h => h.markOutdated hx hgen) fun _ _ h => h
  | _ => exact .ofNil

lemma shows_upheld (rules : Rules) (d : DeclId) :
    Upheld (fun _ c => c.stage ≠ .torn → c.program.Graph ∧ c.program.backend.rules = rules ∧
      c.Shows rules d) fun _ => True := by
  refine .ofMoves fun c c' hm h ht => ?_
  obtain ⟨hg, hr, hs⟩ := h fun hs => ht (hm.torn hs)
  exact ⟨graph_move c c' hm hg, hm.alike.rules.trans hr, shows_move hm ht hg hr hs⟩

end Config

namespace EngineM
variable {e : Engine} {d : DeclId} {D : Decl}

lemma ensure_eq (hD : e.program.decl? d = some D) (hs : D.state ≠ .outdated ∧ D.state ≠ .unreferenced) :
    ensure d e = if D.state = .complete then .ok () e else .error .analysisFail e := ensureWith_eq hD hs

lemma ensure_of_none (hD : e.program.decl? d = none) : ensure d e = .error .analysisFail e :=
  ensureWith_of_none hD

lemma analyzeFrom_shows {rules : Rules} {prev : DeclState} {analyze : EngineM Bool}
    (ha : Settles analyze e (fun _ e' => Config.Shows rules d ⟨.settled, [d], none, e'⟩)
      (fun i e' => i = .analysisFail → Config.Shows rules d ⟨.failing, [d], none, e'⟩)) :
    Settles (analyzeFrom prev d analyze) e
      (fun _ e' => e'.program.Shows d fun n s => s = .complete ∨ rules.Refused n s)
      (fun i e' => i = .analysisFail → e'.program.Shows d fun _ s => s = .failed ∨ s = .dependencyFailed) := by
  unfold Settles at ha ⊢
  unfold analyzeFrom
  cases hr : analyze e with
  | ok changed e' =>
    rw [hr] at ha
    exact (ha.alone.settle fun _ => .inl rfl).ofDecl? rfl rfl fun _ _ h => h
  | error i e' =>
    rw [hr] at ha
    cases i with
    | analysisFail => exact fun _ => (ha rfl).alone.settle fun _ => .inr rfl
    | outOfMemory | exhausted => exact nofun

lemma ensure_shows (hg : e.program.Graph) :
    Settles (ensure d) e
      (fun _ e' => ∃ D, e'.program.decl? d = some D ∧
        (D.state = .complete ∨ Rules.Refused e.program.backend.rules D.name D.state))
      (fun i e' => i = .analysisFail → ∀ D, e'.program.decl? d = some D →
        D.state ≠ .complete ∧ D.state ≠ .outdated ∧ D.state ≠ .unreferenced) := by
  have hK := Config.shows_upheld e.program.backend.rules d
  refine .program ?_
  unfold ensureAt ensureWith
  refine .program ?_
  split
  · next hD => exact .throw fun _ D hD' => nomatch hD.symm.trans hD'
  · next D hD =>
    refine .ite (fun hs => ⟨D, hD, .inl hs⟩) fun hcomplete => .ite (fun hs => ?_) fun hs => ?_
    · have hs : D.state.Due := by simpa using hs
      have marked {e : Engine} {Q} {E : Interrupt → Engine → Prop} :
          e.program.Shows d Q → Settles (invalidateUsers d) e (fun _ e' => e'.program.Shows d Q) E :=
        invalidateUsers_settles (R := fun e => e.program.Shows d Q) fun hx _ hgen h => h.markOutdated hx hgen
      have ended : Settles (renew (analyzeDecl (ensureAt e.program.potentialDecls)) d D.state) e
          (fun _ e' => e'.program.Shows d fun n s => s = .complete ∨ Rules.Refused e.program.backend.rules n s)
          (fun i e' => i = .analysisFail → e'.program.Shows d fun _ s => s = .failed ∨ s = .dependencyFailed) := by
        refine renew_settles (o := e) (B := none) hK hD hs (fun hc => analyzeFrom_shows ?_) marked
          fun _ => ⟨hg, rfl, .ofNil⟩
        have nested := ensureAt_ensures hK (.free _ _) e.program.potentialDecls
        refine (analyzeDecl_upheld (o := e) hK (.free _ _) nested (fun h => absurd trivial h) hc).mono
          (fun _ _ h => (h nofun).2.2) fun i e' h hi => ?_
        subst hi
        exact (h nofun).2.2
      refine ended.mono (fun _ e' ⟨D, hD, _, hs⟩ => ⟨D, hD, hs⟩) fun i e' h hi D' hD' => ?_
      obtain ⟨D, hD, -, hs⟩ := h hi
      cases hD.symm.trans hD'
      obtain hs | hs := hs <;> rw [hs] <;> decide
    · refine .throw fun _ D' hD' => ?_
      cases hD.symm.trans hD'
      exact ⟨hcomplete, by simpa using hs⟩

end EngineM

namespace Program

open EngineM (ensure)

/-- Asked for again at once, a declaration that failed fails, and one that did not is as it was unless its storage was
refused: that the first answer leaves out. Nothing changes either way. -/
theorem ensure_again {options : Options} {backend : Backend} {p : Program}
    (h : Reaches (fun _ => True) { options, backend } p) (queue : WorkQueue) (d : DeclId) :
    (∀ e, ensure d ⟨p, queue⟩ = .ok () e → ensure d e = .ok () e ∨
      ensure d e = .error .analysisFail e ∧
        ∃ D, e.program.decl? d = some D ∧ Rules.Refused p.backend.rules D.name D.state) ∧
    ∀ e, ensure d ⟨p, queue⟩ = .error .analysisFail e → ensure d e = .error .analysisFail e := by
  have hs : Settles (ensure d) ⟨p, queue⟩ _ _ := EngineM.ensure_shows ((Graph.empty options backend).reaches h)
  unfold Settles at hs
  refine ⟨fun e he => ?_, fun e he => ?_⟩ <;> rw [he] at hs
  · obtain ⟨D, hD, hstate⟩ := hs
    obtain hc | hrefused := hstate
    · rw [EngineM.ensure_eq hD (by rw [hc]; decide), if_pos hc]
      exact .inl rfl
    · obtain ⟨hstate, -⟩ := id hrefused
      have hne : D.state ≠ .complete ∧ D.state ≠ .outdated ∧ D.state ≠ .unreferenced := by
        obtain hstate | hstate := hstate <;> rw [hstate] <;> decide
      rw [EngineM.ensure_eq hD hne.2, if_neg hne.1]
      exact .inr ⟨rfl, D, hD, hrefused⟩
  · cases hD : e.program.decl? d with
    | none => exact EngineM.ensure_of_none hD
    | some D =>
      obtain ⟨hc, hne⟩ := hs rfl D hD
      rw [EngineM.ensure_eq hD hne, if_neg hc]

lemma exists_ensured {e : Engine} {d : DeclId} {wanted : Decl → Bool}
    (h : (match ensure d e with
      | .ok _ e => (e.program.decl? d).any wanted
      | .error .. => false) = true) :
    ∃ e' D, ensure d e = .ok () e' ∧ e'.program.decl? d = some D ∧ wanted D = true := by
  cases hr : ensure d e with
  | ok _ e' =>
    rw [hr] at h
    obtain ⟨D, hD, hw⟩ := (Option.any_eq_true _ _).1 h
    exact ⟨e', D, rfl, hD, hw⟩
  | error i e' =>
    rw [hr] at h
    cases h

/-- A function that is exported, asked for twice. -/
theorem ensure_again_exported :
    let p := (Program.act {} (.edit (.addSource "m" "export fn f() void \x7b\x7d\n"))).act (.reconcile {} 0)
    ∃ e, ensure 0 ⟨p, {}⟩ = .ok () e ∧ ensure 0 e = .ok () e := by
  intro p
  obtain ⟨e, D, he, hD, hs⟩ : ∃ e D, ensure 0 ⟨p, {}⟩ = .ok () e ∧ e.program.decl? 0 = some D ∧
      (D.state == .complete) = true := exists_ensured (by decide +kernel)
  refine ⟨e, he, ((ensure_again ((Reaches.refl.act trivial).act trivial) {} 0).1 e he).resolve_right ?_⟩
  rintro ⟨-, D', hD', hstate, -⟩
  cases hD.symm.trans hD'
  rw [beq_iff_eq.1 hs] at hstate
  exact hstate.elim nofun nofun

/-- The same function where the backend has no storage for it: the first call succeeds, and the second one fails. -/
theorem ensure_fails_once_refused :
    let p := (Program.act { backend := .recording { rules := [((.allocate, "f"), .permanent "no")] } }
      (.edit (.addSource "m" "export fn f() void \x7b\x7d\n"))).act (.reconcile {} 0)
    ∃ e, ensure 0 ⟨p, {}⟩ = .ok () e ∧ ensure 0 e = .error .analysisFail e := by
  intro p
  obtain ⟨e, D, he, hD, hs⟩ : ∃ e D, ensure 0 ⟨p, {}⟩ = .ok () e ∧ e.program.decl? 0 = some D ∧
      (D.state == .codegenFailed) = true := exists_ensured (by decide +kernel)
  have hs : D.state = .codegenFailed := beq_iff_eq.1 hs
  refine ⟨e, he, ?_⟩
  rw [EngineM.ensure_eq hD (by rw [hs]; decide), if_neg (by rw [hs]; decide)]

end Program

end Frontend
