import Frontend.Proofs.Termination.Nesting
import Frontend.Proofs.Termination.Tolls

/-! Updates end. Where units are texts no bound is reached that is set for a recursion or for the pending work, so an
update returns a report or runs out of memory, whatever the texts say. -/

namespace Frontend

namespace Engine

/-- With `depth` analyses under way, `granting` of which may still be granted storage: at most `n` are nested from here
on, for `n` declarations that there are or may come to be; and at most `m` items of work are taken. -/
structure Bounded (n m depth granting : Nat) (e : Engine) : Prop where
  depth : e.program.unattended + e.program.unregistered + depth ≤ n
  potential : n ≤ e.program.live + e.program.unregistered
  work : e.queue.items.length + e.program.tolls + 2 * e.program.unregistered + 2 * granting ≤ m

namespace Bounded
variable {n m k k' l l' : Nat} {e e' : Engine} {d : DeclId} {D : Decl}

lemma ease (h : e.Bounded n m k l) (he : e.program.Eases e'.program) (hk : k' ≤ k)
    (hq : e'.queue.items.length + 2 * l' ≤ e.queue.items.length + 2 * l) : e'.Bounded n m k' l' := by
  have hlive := he.live_le
  have hunattended := he.unattended_le
  have htolls := he.tolls_le
  have hunregistered := he.unregistered
  obtain ⟨hd, hp, hw⟩ := h
  constructor <;> omega

lemma enter (h : e.Bounded n m k k) (hg : e.program.Graph) (hd : e.program.decl? d = some D) (hs : D.state.Due) :
    (e.modifyProgram (·.startAnalysis d)).Bounded n m (k + 1) (k + 1) := by
  have hpaid : ({ D with state := .inProgress, generation := e.program.generation } : Decl).toll e.program.generation =
      0 :=
    Decl.Attended.toll ⟨rfl, nofun, nofun⟩
  have hdue : D.toll e.program.generation = 2 := Decl.toll_eq_two hs
  have hlive : (e.program.startAnalysis d).live = e.program.live := Program.live_modifyDecl hg hd
  have hunattended : (e.program.startAnalysis d).unattended + 1 = e.program.unattended := by
    have h :=
      Program.unattended_modifyDecl (f := ({ · with state := .inProgress, generation := e.program.generation })) hg hd
    rwa [hpaid, hdue] at h
  have htolls : (e.program.startAnalysis d).tolls + 2 = e.program.tolls := by
    have h :=
      Program.tolls_modifyDecl (f := ({ · with state := .inProgress, generation := e.program.generation })) hg hd
    rwa [hpaid, hdue] at h
  have hunregistered : (e.program.startAnalysis d).unregistered = e.program.unregistered :=
    Program.unregistered_congr rfl rfl
  obtain ⟨hdepth, hpotential, hwork⟩ := h
  constructor <;> dsimp only [modifyProgram] <;> omega

lemma outdate (h : e.Bounded n m k l) (hg : e.program.Graph) (hd : e.program.decl? d = some D)
    (hs : D.state.isUnsettled = false) (hgen : D.generation ≠ e.program.generation) :
    (e.markOutdated d).Bounded n m k l := by
  obtain ⟨-, ho⟩ | ⟨D', hD', -, he⟩ := e.markOutdated_cases d
  · rw [ho D hd] at hs
    cases hs
  cases hd.symm.trans hD'
  have hmarked : ({ D with state := .outdated } : Decl).toll e.program.generation = 2 := Decl.toll_eq_two (.inl rfl)
  have hstale : D.toll e.program.generation = 3 := by
    have hn : ¬ D.state.Due := by
      rintro (h | h) <;> rw [h] at hs <;> cases hs
    rw [Decl.toll, if_neg hn, if_neg hgen]
  have hlive : (e.program.outdate d).live = e.program.live := Program.live_modifyDecl hg hd
  have hunattended : (e.program.outdate d).unattended + 1 = e.program.unattended + 1 := by
    have h := Program.unattended_modifyDecl (f := ({ · with state := .outdated })) hg hd
    rwa [hmarked, hstale] at h
  have htolls : (e.program.outdate d).tolls + 3 = e.program.tolls + 2 := by
    have h := Program.tolls_modifyDecl (f := ({ · with state := .outdated })) hg hd
    rwa [hmarked, hstale] at h
  have hunregistered : (e.program.outdate d).unregistered = e.program.unregistered := Program.unregistered_congr rfl rfl
  have hqueue : (e.queue.items ++ [WorkItem.analyze d]).length = e.queue.items.length + 1 := List.length_append
  rw [he]
  obtain ⟨hdepth, hpotential, hwork⟩ := h
  constructor <;> dsimp only [modifyProgram, push, WorkQueue.push] <;> omega

lemma register {file : FileId} {ns : NameHash} {item : ItemSummary} (h : e.Bounded n m k l)
    (hi : e.program.Declares file ns item) (hn : e.program.declTable.get? (ns.child item.name) = none) :
    (e.modifyProgram (·.register file ns item)).Bounded n m k l := by
  obtain ⟨D, hs, hr⟩ := e.program.total_register file ns item
  have htoll : D.toll e.program.generation = 2 := Decl.toll_eq_two (.inr hs)
  have hlive : (e.program.register file ns item).live = e.program.live + 1 := hr fun _ => 1
  have hunattended : (e.program.register file ns item).unattended = e.program.unattended + 1 := by
    have h := hr fun D => min 1 (D.toll e.program.generation)
    rwa [htoll] at h
  have htolls : (e.program.register file ns item).tolls = e.program.tolls + 2 := by
    have h := hr (·.toll e.program.generation)
    rwa [htoll] at h
  have hunregistered := Program.unregistered_register hi hn
  obtain ⟨hdepth, hpotential, hwork⟩ := h
  constructor <;> dsimp only [modifyProgram] <;> omega

lemma take {item : WorkItem} {rest : List WorkItem} (h : e.Bounded n (m + 1) k l) (hq : e.queue.items = item :: rest) :
    Bounded n m k l { e with queue := ⟨rest⟩ } := by
  have hlength : e.queue.items.length = rest.length + 1 := by rw [hq, List.length_cons]
  obtain ⟨hdepth, hpotential, hwork⟩ := h
  constructor <;> dsimp only <;> omega

end Bounded

lemma bounded (e : Engine) : e.Bounded (e.program.unattended + e.program.unregistered)
    (e.queue.items.length + 3 * e.program.potentialDecls) 0 0 := by
  have hlive := e.program.unattended_le_live
  have htolls := e.program.tolls_add_unregistered_le
  constructor <;> omega

end Engine

namespace Config

def granting (c : Config) : Nat := if c.stage.isClosing then c.stack.length - 1 else c.stack.length

abbrev Bounded (n m : Nat) (c : Config) : Prop := c.engine.Bounded n m c.stack.length c.granting

structure Prepared (quota : Nat) (c : Config) : Prop where
  sourced : c.engine.program.Sourced
  graph : c.engine.program.Graph
  attentive : c.stage ≠ .torn → c.Attentive
  quota : c.engine.program.options.branchQuota = quota

structure Paces (quota n m : Nat) (c : Config) : Prop extends c.Prepared quota where
  begun : c.stage.isOpening = false
  asking {d D} : c.stage = .asking d .code → c.engine.program.decl? d = some D →
    D.state ≠ .outdated ∧ D.state ≠ .unreferenced
  bounded : c.stage.isBusy = true → c.Bounded n m

namespace Bounded
variable {n m : Nat} {S : List DeclId} {B B' : Option (DeclId × Nat)} {e : Engine} {d : DeclId} {g : Program → Program}

lemma stay {st st' : Stage} (h : Bounded n m ⟨st, S, B, e⟩) (he : e.program.Eases (g e.program))
    (hc : st.isClosing = true → st'.isClosing = true) : Bounded n m ⟨st', S, B', e.modifyProgram g⟩ := by
  refine h.ease he le_rfl ?_
  have hg : granting ⟨st', S, B', e.modifyProgram g⟩ ≤ granting ⟨st, S, B, e⟩ := by
    unfold granting
    dsimp only
    split
    · split
      · exact le_rfl
      · exact Nat.sub_le ..
    · next hn => rw [if_neg fun h => hn (hc h)]
  exact Nat.add_le_add_left (Nat.mul_le_mul_left 2 hg) _

lemma go {st st' : Stage} (h : Bounded n m ⟨st, S, B, e⟩) (hc : st.isClosing = true → st'.isClosing = true) :
    Bounded n m ⟨st', S, B', e⟩ :=
  h.stay (g := fun p => p) (.refl _) hc

lemma pop {st : Stage} (h : Bounded n m ⟨st, d :: S, B, e⟩) (hst : st.isClosing = true)
    (he : e.program.Eases (g e.program)) : Bounded n m ⟨.working, S, B, e.modifyProgram g⟩ := by
  refine h.ease he (Nat.le_succ _) ?_
  have hg : granting ⟨st, d :: S, B, e⟩ = S.length := if_pos hst
  rw [hg]
  exact le_rfl

end Bounded

end Config

lemma bounded_move {quota n m : Nat} {c c' : Config} (hm : Move c c') (hb : c.stage.isBusy = true)
    (hb' : c'.stage.isBusy = true) (h : c.Paces quota n m) : c'.Bounded n m := by
  have ha : c.Attentive := by
    refine h.attentive fun ht => ?_
    rw [ht] at hb
    cases hb
  have hbound := h.bounded hb
  cases hm with
  | quiet hq => exact hbound.stay (.ofQuiet hq) id
  | collide => exact hbound.stay (.ofQuiet (Program.collideExport_quiet ..)) id
  | claim => exact hbound.stay (.ofQuiet (Program.claimExport_quiet ..)) id
  | fail => exact hbound.stay (.fail _ _ _ _) nofun
  | failLate => exact hbound.stay (.fail _ _ _ _) fun _ => rfl
  | depend => exact hbound.stay (.dependencyFailed _ _) nofun
  | giveUp | notice | dismiss | spare | ran | passOver | handOver | bodiless | asked =>
    exact hbound.go nofun
  | register hi hn => exact hbound.register hi hn
  | edge => exact hbound.stay (.ofRewired (Program.addEdge_rewired ..)) nofun
  | release => exact hbound.stay (.ofRewired (Program.release_rewired ..)) nofun
  | enter hd hs => exact hbound.enter h.graph hd hs
  | @install d S B e v needsCode frees hv =>
    refine hbound.stay (.modifyDecl fun D hD => ?_) nofun
    obtain ⟨D', hD', hat⟩ := ha.attends (.inl List.mem_cons_self)
    cases hD.symm.trans hD'
    have hdone : ({ D with value := some v, state := .complete } : Decl).Attended e.program.generation :=
      ⟨hat.generation, nofun, nofun⟩
    exact hdone.toll.trans_le (Nat.zero_le _)
  | @grant needsCode frees d S B e link header hl =>
    have hlink : e.program.Eases (e.program.modifyDecl d ({ · with link })) := .modifySame fun _ => ⟨rfl, rfl⟩
    have hfree : Config.granting ⟨.installed needsCode frees, d :: S, B, e⟩ = S.length + 1 := rfl
    have hdone {e' : Engine} : Config.granting ⟨.settled, d :: S, B, e'⟩ = S.length := rfl
    cases header with
    | true =>
      refine hbound.ease hlink le_rfl ?_
      rw [hfree, hdone]
      show (e.queue.items ++ [WorkItem.codegen d] ++ [WorkItem.emitHeader d]).length + 2 * S.length ≤ _
      simp only [List.length_append, List.length_singleton]
      omega
    | false =>
      refine hbound.ease hlink le_rfl ?_
      rw [hfree, hdone]
      show (e.queue.items ++ [WorkItem.codegen d]).length + 2 * S.length ≤ _
      simp only [List.length_append, List.length_singleton]
      omega
  | withhold hd _ hs =>
    obtain ⟨D', hD', hat⟩ := ha.attends (.inl List.mem_cons_self)
    cases hd.symm.trans hD'
    exact hbound.stay (.refuse hd ⟨hat.outdated, hat.unreferenced⟩ hs _) nofun
  | finish => exact hbound.pop rfl (.finishAnalysis _ _)
  | abandon => exact hbound.pop rfl (.abandonAnalysis _ _)
  | outdate hd hs hgen => exact hbound.outdate h.graph hd hs hgen
  | @take e item rest hq =>
    have hidle : Config.granting ⟨.ofItem item, [], none, { e with queue := ⟨rest⟩ }⟩ = 0 := by cases item <;> rfl
    refine hbound.ease (.refl _) le_rfl ?_
    rw [hidle]
    show rest.length + 2 * 0 ≤ e.queue.items.length + 2 * 0
    rw [hq]
    exact Nat.le_succ _
  | openBody | closeBody =>
    refine hbound.stay ?_ nofun
    exact .modifySame fun _ => ⟨rfl, rfl⟩
  | dropBody =>
    refine hbound.ease ?_ le_rfl le_rfl
    exact .modifySame fun _ => ⟨rfl, rfl⟩
  | @refuse d about e D state hd hs hc cause =>
    have hstate : D.state ≠ .outdated ∧ D.state ≠ .unreferenced := by
      by_cases hcode : about = .code
      · subst hcode
        exact h.asking rfl hd
      · rw [hc hcode]
        exact ⟨nofun, nofun⟩
    exact hbound.stay (.refuse hd hstate (hs.symm.imp_left And.left) _) nofun
  | _ => first | (cases hb; done) | cases hb'

namespace Config

namespace Prepared
variable {quota : Nat} {c c' : Config}

lemma move (h : c.Prepared quota) (hm : Move c c') (hi : ¬ c.stage.Installs c'.stage) : c'.Prepared quota where
  sourced := h.sourced.move hm hi
  graph := graph_move c c' hm h.graph
  attentive ht := attentive_move c c' hm ht h.graph (h.attentive fun hc => ht (hm.torn hc))
  quota := (congrArg Options.branchQuota hm.alike.options).trans h.quota

lemma install {d : DeclId} {S : List DeclId} {B : Option (DeclId × Nat)} {e : Engine} {v : DeclValue}
    {needsCode frees : Bool}
    (h : Prepared quota ⟨.working, d :: S, B, e⟩) (hv : v.Fresh needsCode)
    (hs : ∀ f, v.func = some f → f.source.Nests) :
    Prepared quota ⟨.installed needsCode frees, d :: S, B, e.installed d v⟩ := by
  have hm : Move ⟨.working, d :: S, B, e⟩ ⟨.installed needsCode frees, d :: S, B, e.installed d v⟩ := .install hv
  exact ⟨h.sourced.install hs, graph_move _ _ hm h.graph,
    fun ht => attentive_move _ _ hm ht h.graph (h.attentive nofun), h.quota⟩

lemma start {p : Program} (hs : p.Sourced) (hg : p.Graph) : Prepared p.options.branchQuota p.starting :=
  ⟨⟨hs.units, hs.nests⟩, hg.ofDecls rfl rfl, fun _ => .ofIdle rfl rfl nofun nofun, rfl⟩

end Prepared

namespace Paces
variable {quota n m : Nat} {c c' : Config} {d : DeclId} {e : Engine}

lemma asking_move (h : c.Paces quota n m) (hm : Move c c') {D : Decl} (hst : c'.stage = .asking d .code)
    (hD : c'.program.decl? d = some D) : D.state ≠ .outdated ∧ D.state ≠ .unreferenced := by
  obtain ⟨hst₀, hd⟩ | ⟨ht, he⟩ := hm.asks hst (by decide)
  · refine h.asking hst₀ ?_
    rwa [Program.decl?, ← hd]
  · obtain ⟨D', hD', ha⟩ | ⟨-, hi⟩ := hm.attends (by rw [hst]; rintro ⟨⟩) (hst ▸ rfl) h.graph
      ((h.attentive ht).attends (.inr he))
    · cases hD.symm.trans hD'
      exact ⟨ha.outdated, ha.unreferenced⟩
    · cases hst ▸ hi

lemma move (h : c.Paces quota n m) (hm : Move c c') (hb : ¬ c.stage.Begins c'.stage)
    (hi : ¬ c.stage.Installs c'.stage) :
    c'.Paces quota n m where
  toPrepared := h.toPrepared.move hm hi
  begun := by
    have ho := h.begun
    cases hm with
    | start => exact absurd ⟨rfl, _, rfl⟩ hb
    | @take _ item => cases item <;> rfl
    | _ => first | rfl | exact ho
  asking hst hD := h.asking_move hm hst hD
  bounded hb' := by
    exact bounded_move hm (hm.isBusy hb' h.begun) hb' h

lemma install {S : List DeclId} {B : Option (DeclId × Nat)} {v : DeclValue} {needsCode frees : Bool}
    (h : Paces quota n m ⟨.working, d :: S, B, e⟩) (hv : v.Fresh needsCode)
    (hs : ∀ f, v.func = some f → f.source.Nests) :
    Paces quota n m ⟨.installed needsCode frees, d :: S, B, e.installed d v⟩ where
  toPrepared := h.toPrepared.install hv hs
  begun := rfl
  asking := nofun
  bounded hb := bounded_move (.install hv) rfl hb h

lemma take {item : WorkItem} {rest : List WorkItem} (hq : e.queue.items = item :: rest)
    (h : Paces quota n (m + 1) ⟨.working, [], none, e⟩) :
    Paces quota n m ⟨.ofItem item, [], none, { e with queue := ⟨rest⟩ }⟩ where
  toPrepared := by
    refine h.toPrepared.move (.take hq) ?_
    rintro ⟨-, needsCode, frees, hi⟩
    cases item <;> cases hi
  begun := by cases item <;> rfl
  asking hst := by cases item <;> cases hst
  bounded _ := by
    have hidle : granting ⟨.ofItem item, [], none, { e with queue := ⟨rest⟩ }⟩ = 0 := by cases item <;> rfl
    rw [Bounded, hidle]
    exact (h.bounded rfl).take hq

lemma queue_eq_nil (h : Paces quota n 0 ⟨.working, [], none, e⟩) : e.queue.items = [] := by
  have hwork : e.queue.items.length + e.program.tolls + 2 * e.program.unregistered + 2 * 0 ≤ 0 := (h.bounded rfl).work
  exact List.eq_nil_of_length_eq_zero (by omega)

end Paces

end Config

open Config

lemma nests_of_item {v : DeclValue}
    (h : ∀ f, v.func = some f → ∃ item : Untyped.Decl, item.kind.Nests ∧ item.kind = .fn f.source) (f : Function)
    (hf : v.func = some f) : f.source.Nests := by
  obtain ⟨item, hn, hk⟩ := h f hf
  rwa [hk] at hn

lemma prepared_upheld (quota : Nat) : Upheld (fun _ => Prepared quota) fun item => item.kind.Nests :=
  .ofSteps (fun _ _ hm _ _ hi h => h.move hm hi) (fun h hu hi => h.sourced.lowers hu hi)
    fun hv hs h => h.install hv (nests_of_item hs)

lemma paces_upheld (quota n m : Nat) : Upheld (fun _ => Paces quota n m) fun item => item.kind.Nests :=
  .ofSteps (fun _ _ hm hb _ hi h => h.move hm hb hi) (fun h hu hi => h.sourced.lowers hu hi)
    fun hv hs h => h.install hv (nests_of_item hs)

lemma paces_paced (quota n m : Nat) : Paced False n (fun _ => Paces quota n m) fun item => item.kind.Nests where
  quota _ h h' := h'.quota.trans h.quota.symm
  callee _ h hf := h.sourced.nests hf
  item _ h := h
  depth _ h hb := (Nat.le_add_left _ _).trans (h.bounded hb).depth
  potential _ h hb := (h.bounded hb).potential.trans (Program.live_add_unregistered_le _)

namespace EngineM

/-! No failure of an analysis ends an update. -/

lemma refusedBy_catches (d : DeclId) (error : BackendError) (cause : String → Cause) (e : Engine) :
    Settles (refusedBy d error cause) e (fun _ _ => True) fun i _ => i ≠ .analysisFail := by
  cases error with
  | outOfMemory => exact .throw nofun
  | retryable reason | permanent reason => exact trivial

lemma ask_catches (d : DeclId) (question : Backend → Decl → Option BackendError × Backend) (cause : String → Cause)
    (e : Engine) : Settles (ask d question cause) e (fun _ _ => True) fun i _ => i ≠ .analysisFail := by
  unfold ask
  refine .program ?_
  split
  · exact trivial
  · next D hD =>
    generalize question e.program.backend D = answer
    obtain ⟨answer, b⟩ := answer
    refine .modify ?_
    cases answer with
    | none => exact trivial
    | some error => exact refusedBy_catches d error cause _

lemma readyForCode_catches (d : DeclId) (e : Engine) :
    Settles (readyForCode d) e (fun _ _ => True) fun i _ => i ≠ .analysisFail := by
  unfold Settles readyForCode
  cases e.program.decl? d with
  | none => exact trivial
  | some D =>
    dsimp only
    split
    · next h =>
      split at h
      · exact trivial
      · exact trivial
    · next i e' h =>
      split at h
      · cases h
      · split at h
        · split at h
          · cases h
          · cases h
          · next hne _ =>
            cases h
            rintro rfl
            exact hne rfl
        all_goals cases h

lemma perform_catches (item : WorkItem) (e : Engine) :
    Settles (perform item) e (fun _ _ => True) fun i _ => i ≠ .analysisFail := by
  cases item with
  | analyze d =>
    show Settles (analyzeItem d) e _ _
    unfold Settles analyzeItem
    generalize EngineM.ensure d e = result
    cases result with
    | ok _ e' => exact trivial
    | error i e' => cases i <;> first | exact trivial | exact nofun
  | codegen d =>
    exact (readyForCode_catches d e).bind fun ready e' _ => .ite (fun _ => ask_catches d _ _ e') fun _ => trivial
  | emitHeader d | updateLine d => exact .program (.ite (fun _ => ask_catches d _ _ e) fun _ => trivial)

lemma performWith_catches (bound : Nat) (e : Engine) :
    Settles (performWith bound) e (fun _ _ => True) fun i _ => i ≠ .analysisFail := by
  induction bound generalizing e with
  | zero =>
    show Settles (if !e.queue.isEmpty then throw Interrupt.exhausted else pure ()) e _ _
    exact .ite (fun _ => .throw (by decide)) fun _ => trivial
  | succ bound ih =>
    cases hq : e.queue.items with
    | nil => exact .ofOk (performWith_succ_of_nil hq) trivial
    | cons item rest =>
      exact .ofEq (performWith_succ_of_cons hq) ((perform_catches item _).bind fun _ e' _ => ih e')

end EngineM

namespace Program
variable {p : Program}

lemma performWork_terminates (hs : p.Sourced) (hg : p.Graph) :
    Settles EngineM.performWork p.begin (fun _ _ => True) fun i _ => i = .outOfMemory := by
  have hstart : Kept (fun _ => Prepared p.options.branchQuota) p.starting :=
    ⟨⟨p, {}⟩, .start hs hg⟩
  obtain ⟨-, hbegin⟩ := begin_upheld (prepared_upheld _) hstart
  have hpaces : Paces p.options.branchQuota (p.begin.program.unattended + p.begin.program.unregistered)
      (p.begin.queue.items.length + 3 * p.begin.program.potentialDecls) ⟨.working, [], none, p.begin⟩ :=
    ⟨hbegin, rfl, nofun, fun _ => p.begin.bounded⟩
  have hpaced := EngineM.performWith_paced (paces_upheld p.options.branchQuota _) (paces_paced p.options.branchQuota _)
    (fun hq ⟨o, h⟩ => ⟨o, h.take hq⟩) (fun _ _ ⟨_, h⟩ => h.queue_eq_nil) _ ⟨⟨p, {}⟩, hpaces⟩
  have hcatches := EngineM.performWith_catches (p.begin.queue.items.length + 3 * p.begin.program.potentialDecls) p.begin
  refine (hpaced.and hcatches).mono (fun _ _ _ => trivial) fun i e' ⟨⟨m, hh⟩, hc⟩ => ?_
  cases i with
  | analysisFail => exact absurd rfl hc
  | outOfMemory => rfl
  | exhausted => exact hh.1.elim

/-- An update of a program that comes of texts returns a report, with nothing left to be deleted, or runs out of memory:
whatever cycles, recursions and loops the texts contain, no recursion reaches its bound. -/
theorem update_terminates (options : Options) (backend : Backend)
    (h : Reaches (·.isText = true) { options, backend } p) :
    (∃ report, p.update.1 = .ok report ∧ p.update.2.deletionSet = []) ∨ p.update.1 = .error .outOfMemory := by
  have hw := performWork_terminates (Sourced.reaches h) ((Graph.empty options backend).reaches h)
  unfold update
  unfold Settles at hw
  generalize EngineM.performWork p.begin = result at hw
  cases result with
  | ok _ e => exact .inl ⟨_, rfl, e.drain_deletionSet⟩
  | error i e =>
    cases hw
    exact .inr rfl

/-- A cycle of constants, a recursion without end and a loop without end. -/
theorem update_terminates_cycle_recursion_loop :
    let text := "const a = b; const b = a; fn f() void \x7b f(); \x7d comptime \x7b _ = a; \x7d\n" ++
      "comptime \x7b f(); \x7d comptime \x7b while (true) \x7b\x7d \x7d\n"
    let p := Program.act { options := { branchQuota := 3, callDepth := 2 } } (.edit (.addSource "a" text))
    ∃ report, p.update.1 = .ok report ∧ p.update.2.deletionSet = [] := by
  intro text p
  have ht : Action.isText (.edit (.addSource "a" text)) = true := rfl
  have hr : Reaches (·.isText = true) { options := { branchQuota := 3, callDepth := 2 } } p := .act .refl ht
  obtain ⟨report, hok⟩ := exists_report (p := p) (by decide +kernel)
  refine (update_terminates _ .silent hr).resolve_right fun h => ?_
  rw [hok] at h
  cases h

end Program

end Frontend
