import Frontend.Proofs.Accord.Work
import Frontend.Proofs.FirstUpdate
import Frontend.Proofs.Registry

/-! The first update. A function is made of one lowering as long as it lasts, however its unit is given, so nothing
hangs on the numbers of lowerings: the work of two programs in accord is the same. -/

namespace Frontend

namespace Program

/-! Declarations stand once. -/

def Narrows (p p' : Program) : Prop := p'.decls.keys.Sublist p.decls.keys

namespace Narrows
variable {p p' p'' : Program} {d : DeclId}

lemma ofDecls (h : p'.decls = p.decls) : p.Narrows p' := by
  unfold Narrows
  rw [h]

lemma trans (h : p.Narrows p') (h' : p'.Narrows p'') : p.Narrows p'' := List.Sublist.trans h' h

lemma modifyDecl (p : Program) (d : DeclId) (f : Decl → Decl) : p.Narrows (p.modifyDecl d f) := by
  unfold Narrows Program.modifyDecl
  dsimp only
  rw [Dict.keys_modify]

lemma foldl {α : Type} {g : Program → α → Program}
    (hg : ∀ (p : Program) a, p.Narrows (g p a)) (as : List α) (p : Program) :
    p.Narrows (as.foldl g p) :=
  as.foldlRecOn _ (.ofDecls rfl) fun q h a _ => h.trans (hg q a)

lemma addEdge (p : Program) (a b : DeclId) : p.Narrows (p.addEdge a b) := by
  unfold Program.addEdge
  split
  · exact .ofDecls rfl
  · exact (modifyDecl p a _).trans (modifyDecl _ b _)

lemma removeEdge (p : Program) (a b : DeclId) : p.Narrows (p.removeEdge a b) :=
  (modifyDecl p a _).trans (modifyDecl _ b _)

lemma doom (p : Program) (d : DeclId) : p.Narrows (p.doom d) := by
  unfold Program.doom
  split
  · exact .ofDecls rfl
  · split
    · exact modifyDecl p d _
    · exact .ofDecls rfl

lemma release (p : Program) (d : DeclId) : p.Narrows (p.release d) :=
  (foldl (fun p b => removeEdge p d b) _ p).trans (foldl doom _ _)

lemma fail (p : Program) (scope : Scope) (span : Span) (cause : Cause) : p.Narrows (p.fail scope span cause) := by
  unfold Program.fail
  dsimp only
  split
  · exact modifyDecl p _ _
  · exact modifyDecl p _ _
  · exact .ofDecls rfl

lemma dependencyFailed (p : Program) (site : Analysis.Site) : p.Narrows (p.dependencyFailed site) := by
  unfold Program.dependencyFailed
  split <;> exact modifyDecl p _ _

lemma markOutdated (e : Engine) (d : DeclId) : e.program.Narrows (e.markOutdated d).program :=
  Engine.markOutdated_rule (.ofDecls rfl) (modifyDecl e.program d _)

lemma detach (p : Program) (d : DeclId) (D : Decl) : p.Narrows (p.detach d D) := by
  unfold Program.detach
  dsimp only
  split <;> exact .ofDecls rfl

lemma forget (p : Program) (d : DeclId) (D : Decl) : p.Narrows (p.forget d D) := by
  have hq :=
    ({ p with failedDecls := p.failedDecls.erase d }.removeOwnedExports_quiet d).trans (removeExportsOf_quiet _ d)
  unfold Narrows Program.forget
  dsimp only
  rw [hq.decls]
  exact List.Sublist.map Prod.fst List.filter_sublist

lemma deleteDecl (e : Engine) (d : DeclId) : e.program.Narrows (e.deleteDecl d).program := by
  have orphan (users : List DeclId) (e : Engine) : e.program.Narrows (users.foldl (Engine.orphanUser d) e).program :=
    users.foldlRecOn (motive := fun e' : Engine => e.program.Narrows e'.program) _ (.ofDecls rfl) fun e' h user _ =>
      (h.trans (removeEdge e'.program user d)).trans (markOutdated (e'.modifyProgram (·.removeEdge user d)) user)
  unfold Engine.deleteDecl
  split
  · exact .ofDecls rfl
  · next D _ => exact (((detach e.program d D).trans (release _ d)).trans (orphan _ _)).trans (forget _ d D)

lemma refresh (e : Engine) (d : DeclId) (D : Decl) (item : ItemSummary) :
    e.program.Narrows (e.refresh d D item).program :=
  Engine.refresh_rule (modifyDecl ..) fun e h => h.trans (markOutdated e d)

lemma drainStep (e : Engine) (d : DeclId) : e.program.Narrows (e.drainStep d).program :=
  Engine.drainStep_rule (.ofDecls rfl) (modifyDecl ..) fun e h => h.trans (deleteDecl e d)

end Narrows

lemma keys_register {p : Program} (hg : p.Graph) (hk : p.decls.keys.Nodup) (file : FileId) (ns : NameHash)
    (item : ItemSummary) : (p.register file ns item).decls.keys.Nodup := by
  refine Dict.nodup_keys_insert hk _ fun hm => ?_
  obtain ⟨⟨d, D⟩, hD, hd⟩ := List.mem_map.1 hm
  exact Nat.lt_irrefl _ (hd ▸ hg.bound (Dict.get?_of_mem hk hD))

end Program

lemma Move.keys {c c' : Config} (hm : Move c c') (hg : c.program.Graph) (hk : c.program.decls.keys.Nodup) :
    c'.program.decls.keys.Nodup := by
  have narrow (h : c.program.Narrows c'.program) : c'.program.decls.keys.Nodup := List.Nodup.sublist h hk
  cases hm with
  | quiet hq => exact narrow (.ofDecls hq.decls)
  | rewind | requeue | enter | install | openBody | closeBody | dropBody | withhold | refuse | finish | abandon =>
    exact narrow (.modifyDecl _ _ _)
  | fail | failLate => exact narrow (.fail _ _ _ _)
  | depend => exact narrow (.dependencyFailed _ _)
  | register => exact Program.keys_register hg hk _ _ _
  | edge => exact narrow (.addEdge _ _ _)
  | release => exact narrow (.release _ _)
  | grant link header => cases header <;> exact narrow (.modifyDecl _ _ _)
  | outdate | retry => exact narrow (.markOutdated _ _)
  | enroll =>
    dsimp only
    split <;> exact Program.keys_register hg hk _ _ _
  | refresh => exact narrow (.refresh _ _ _ _)
  | again => exact narrow ((Program.Narrows.modifyDecl _ _ _).trans (.fail _ _ _ _))
  | drop => exact narrow (.deleteDecl _ _)
  | drain => exact narrow ((Program.Narrows.ofDecls rfl).trans (.drainStep _ _))
  | _ => exact narrow (.ofDecls rfl)

/-! Values last as long as the first update does. -/

structure Config.Begun (o : Engine) (c : Config) : Prop where
  graph : c.engine.program.Graph
  keys : c.engine.program.decls.keys.Nodup
  attentive : c.stage ≠ .torn → c.Attentive
  first : c.First
  carries : o.program.Carries c.engine.program

namespace Config.Begun
variable {o e : Engine} {c c' : Config} {d : DeclId}

lemma move (hm : Move c c') (hb : ¬ c.stage.Begins c'.stage) (h : c.Begun o) : c'.Begun o where
  graph := graph_move c c' hm h.graph
  keys := hm.keys h.graph h.keys
  attentive ht := attentive_move c c' hm ht h.graph (h.attentive fun hc => ht (hm.torn hc))
  first := by
    refine first_move c c' hm (fun hr => ?_) h.graph h.attentive h.first
    cases hm with
    | start => exact absurd ⟨rfl, _, rfl⟩ hb
    | quiet | collide | claim | tear =>
      cases hr
      rfl
    | _ => cases hr
  carries := h.carries.trans (hm.carries h.graph h.first)

lemma upheld : Upheld (fun o c => c.Begun o) fun _ => True :=
  .ofLooks (fun h => { h with carries := .refl _ }) (fun _ _ _ hm hb _ _ _ h => h.move hm hb) (fun _ _ _ => trivial)
    (fun hv _ _ _ _ _ h => h.move (.install hv) fun hs => nomatch hs.1)
    fun _ _ _ _ _ _ h => h.move .ran fun hs => nomatch hs.1

lemma begin {p : Program} (h : p.Unstarted) (hg : p.Graph) (hk : p.decls.keys.Nodup) : Begun ⟨p, {}⟩ p.starting :=
  ⟨hg.ofDecls rfl rfl, hk, fun _ => .ofIdle rfl rfl nofun nofun, h.first, .ofDecls rfl⟩

lemma loweredAs {o : Engine} {st : Stage} {S : List DeclId} {B : Option (DeclId × Nat)} (h : Begun o ⟨st, S, B, e⟩)
    {D : Decl} {v : DeclValue} {f : Function} (hD : o.program.decl? d = some D) (hv : D.value = some v)
    (hf : v.func = some f) : e.program.LoweredAs d f.revision := by
  intro D' hD'
  obtain ⟨D₁, v₁, hD₁, hv₁, hsame⟩ := h.carries.value hD hv
  cases Option.some.inj (hD₁.symm.trans (Dict.get?_of_mem h.keys hD'))
  have hr := hsame.revision
  rw [hf, Option.map_some] at hr
  obtain ⟨f₁, hf₁, hr₁⟩ := Option.map_eq_some_iff.1 hr
  exact ⟨f₁, by rw [Decl.func?, hv₁, Option.bind_some, hf₁], hr₁⟩

lemma keepsLowering (h : Kept (fun o c => c.Begun o) ⟨.coding d, [], none, e⟩) : e.KeepsLowering d := by
  intro D u v f params result cc body hD ha _ hv hf _ _
  have hP := Paced.free (fun o (c : Config) => c.Begun o) fun _ => True
  obtain ⟨_, hopen⟩ := upheld.keep (.openBody hD ha hv hf) rfl h
  have hD₁ := Program.decl?_modifyDecl_self e.program d (·.opened v f)
  rw [hD, Option.map_some] at hD₁
  have hs : Stands [] (some (d, f.revision)) ⟨.body (.declaration (u.scope D.file) d) d (some d) false, d⟩ :=
    .body rfl rfl
  have hk := EngineM.keeps upheld hP (EngineM.ensureAt_ensures upheld hP (e.program.potentialDecls + 1))
    (fun ho => absurd trivial ho) hs
  have lasts {st : Stage} {S : List DeclId} {B : Option (DeclId × Nat)} {e' : Engine}
      (h : Begun (e.modifyProgram (·.modifyDecl d (·.opened v f))) ⟨st, S, B, e'⟩) :
      e'.program.LoweredAs d f.revision := h.loweredAs (f := { f with state := .inProgress }) hD₁ rfl rfl
  refine ((hk _).fnBody (upheld.rebase hopen) v.arena f.source params result body D.src fun ho =>
    absurd trivial ho).mono
    (fun _ _ h => lasts h) fun i _ h => ?_
  cases i with
  | analysisFail | outOfMemory => exact lasts h
  | exhausted => exact lasts h.2

lemma steady (A : Accord) : EngineM.Steady A fun e e' =>
    Kept (fun o c => c.Begun o) ⟨.working, [], none, e⟩ ∧ Kept (fun o c => c.Begun o) ⟨.working, [], none, e'⟩ where
  lowering hj hq hq' :=
    .inr ⟨keepsLowering (upheld.keep (.take hq) rfl hj.1), keepsLowering (upheld.keep (.take (hq' ▸ hq)) rfl hj.2)⟩
  step {e e' e₁ e₁' item rest} hj hq hq' hx hy := by
    have performed {e e₁ : Engine} (h : Kept (fun o c => c.Begun o) ⟨.working, [], none, e⟩)
        (hq : e.queue.items = item :: rest) (hx : EngineM.perform item { e with queue := ⟨rest⟩ } = .ok () e₁) :
        Kept (fun o c => c.Begun o) ⟨.working, [], none, e₁⟩ := by
      have hs := EngineM.perform_upheld upheld (.free _ _) (upheld.keep (.take hq) (by cases item <;> rfl) h)
      unfold Settles at hs
      rwa [hx] at hs
    exact ⟨performed hj.1 hq hx, performed hj.2 (hq' ▸ hq) hy⟩

end Config.Begun

end Frontend
