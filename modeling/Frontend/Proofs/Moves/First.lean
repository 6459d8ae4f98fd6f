import Frontend.Proofs.Moves.Values
import Frontend.Proofs.Quiescence.Attention

/-! The first update. A declaration is analyzed once in its course: what waits has no value, and what has a value keeps
it. Nothing is deleted that has one. -/

namespace Frontend

structure DeclValue.Same (v v' : DeclValue) : Prop where
  ty : v'.ty = v.ty
  val : v'.val = v.val
  source : v'.func.map (·.source) = v.func.map (·.source)
  revision : v'.func.map (·.revision) = v.func.map (·.revision)
  expanded {f'} : v'.func = some f' → f'.state = .inlineOnly → ∃ f, v.func = some f ∧ f.state = .inlineOnly

namespace DeclValue.Same
variable {v v' v'' : DeclValue}

lemma refl (v : DeclValue) : v.Same v := ⟨rfl, rfl, rfl, rfl, fun hf hs => ⟨_, hf, hs⟩⟩

lemma trans (h : v.Same v') (h' : v'.Same v'') : v.Same v'' where
  ty := h'.ty.trans h.ty
  val := h'.val.trans h.val
  source := h'.source.trans h.source
  revision := h'.revision.trans h.revision
  expanded hf hs := by
    obtain ⟨f', hf', hs'⟩ := h'.expanded hf hs
    exact h.expanded hf' hs'

lemma ofFunc {g : Function → Function} (arena : Typed.Arena)
    (hg : ∀ f, (g f).source = f.source ∧ (g f).revision = f.revision ∧
      ((g f).state = .inlineOnly → f.state = .inlineOnly)) :
    v.Same { v with arena, func := v.func.map g } where
  ty := rfl
  val := rfl
  source := by
    cases v.func with
    | none => rfl
    | some f => exact congrArg some (hg f).1
  revision := by
    cases v.func with
    | none => rfl
    | some f => exact congrArg some (hg f).2.1
  expanded hf hs := by
    obtain ⟨f, hv, rfl⟩ := Option.map_eq_some_iff.1 hf
    exact ⟨f, hv, (hg f).2.2 hs⟩

end DeclValue.Same

def Decl.Carries (D D' : Decl) : Prop := ∀ v, D.value = some v → ∃ v', D'.value = some v' ∧ v.Same v'

lemma Decl.Carries.same {D D' : Decl} (h : D'.value = D.value) : D.Carries D' := fun v hv => ⟨v, h ▸ hv, .refl v⟩

lemma Decl.Carries.trans {D D' D'' : Decl} (h : D.Carries D') (h' : D'.Carries D'') : D.Carries D'' := by
  intro v hv
  obtain ⟨v', hv', hs⟩ := h v hv
  obtain ⟨v'', hv'', hs'⟩ := h' v' hv'
  exact ⟨v'', hv'', hs.trans hs'⟩

lemma Decl.Carries.modifyFunc {D : Decl} {g : Function → Function}
    (hg : ∀ f, (g f).source = f.source ∧ (g f).revision = f.revision ∧
      ((g f).state = .inlineOnly → f.state = .inlineOnly)) :
    D.Carries (D.modifyFunc g) := by
  intro v hv
  have hv' : (D.modifyFunc g).value = some { v with func := v.func.map g } := by simp [Decl.modifyFunc, hv]
  exact ⟨_, hv', .ofFunc v.arena hg⟩

namespace Program

def Carries (p p' : Program) : Prop :=
  ∀ d D, p.decl? d = some D → D.value.isSome = true → ∃ D', p'.decl? d = some D' ∧ D.Carries D'

namespace Carries
variable {p p' p'' : Program} {d : DeclId} {f : Decl → Decl}

lemma value (h : p.Carries p') {D : Decl} {v : DeclValue} (hD : p.decl? d = some D) (hv : D.value = some v) :
    ∃ D' v', p'.decl? d = some D' ∧ D'.value = some v' ∧ v.Same v' := by
  obtain ⟨D', hD', hc⟩ := h d D hD (by rw [hv]; rfl)
  obtain ⟨v', hv', hs⟩ := hc v hv
  exact ⟨D', v', hD', hv', hs⟩

lemma ofDecls (h : p'.decls = p.decls) : p.Carries p' := by
  intro d D hD _
  exact ⟨D, by rwa [decl?, h], .same rfl⟩

lemma refl (p : Program) : p.Carries p := ofDecls rfl

lemma trans (h : p.Carries p') (h' : p'.Carries p'') : p.Carries p'' := by
  intro d D hD hs
  obtain ⟨v, hv⟩ := Option.isSome_iff_exists.1 hs
  obtain ⟨D', hD', hc⟩ := h d D hD hs
  obtain ⟨v', hv', -⟩ := hc v hv
  obtain ⟨D'', hD'', hc'⟩ := h' d D' hD' (by rw [hv']; rfl)
  exact ⟨D'', hD'', hc.trans hc'⟩

end Carries

end Program

/-! The course of the first update. -/

structure Decl.Young (D : Decl) : Prop where
  generation : D.generation = 1
  value : D.state.isUnsettled = true → D.value = none
  deps : D.state.Due → D.deps.elems = []

def Stage.isUnderWay : Stage → Bool
  | .resting | .torn => false
  | _ => true

namespace Config

def pending (c : Config) : List DeclId :=
  match c.stage with
  | .installed .. | .settled | .failing => c.stack.tail
  | _ => c.stack

/-- In the first update: as long as it lasts, what waits or is under analysis has no value. -/
structure First (c : Config) : Prop where
  generation : c.engine.program.generation = 1
  young {d D} : c.stage.isUnderWay = true → c.engine.program.decl? d = some D → D.Young
  blank {d D} : c.stage.isOpening = true → c.engine.program.decl? d = some D → D.value = none ∧ D.deps.elems = []
  pending {d D} : c.stage.isUnderWay = true → d ∈ c.pending → c.engine.program.decl? d = some D → D.value = none
  kept : c.stage.isUnderWay = true → c.engine.program.deletionSet = []

end Config

namespace Move
variable {c c' : Config} (hm : Move c c') {d : DeclId}
include hm

lemma isUnderWay (hb : ¬ c.stage.Begins c'.stage) (h : c'.stage.isUnderWay = true) : c.stage.isUnderWay = true := by
  cases hm with
  | quiet | collide | claim => exact h
  | start => exact absurd ⟨rfl, _, rfl⟩ hb
  | _ => first | rfl | cases h

lemma pending (hu : c'.stage.isUnderWay = true) (h : d ∈ c'.pending) : d ∈ c.pending ∨
    c.stage = .due d ∧ ∃ D, c.program.decl? d = some D ∧ D.state.Due := by
  cases hm with
  | quiet | collide | claim => exact .inl h
  | tear | rewind | requeue => cases hu
  | fail | depend | giveUp => exact .inl (List.mem_of_mem_tail h)
  | enter hd hs =>
    obtain rfl | h := List.mem_cons.1 h
    · exact .inr ⟨rfl, _, hd, hs⟩
    · exact .inl h
  | install | ran => exact .inl (List.mem_cons_of_mem _ h)
  | @take _ item => cases item <;> cases h
  | _ => exact .inl h

end Move

lemma Program.release_of_nil {p : Program} {d : DeclId} (h : p.depsOf d = []) : p.release d = p := by
  rw [release, clearEdges, h]
  rfl

namespace Config.First
variable {c c' : Config}

lemma depsOf (h : c.First) (ho : c.stage.isOpening = true) (d : DeclId) : c.program.depsOf d = [] := by
  refine List.eq_nil_iff_forall_not_mem.2 fun y hy => ?_
  obtain ⟨D, hD, hy⟩ := Program.mem_depsOf.1 hy
  have hy : y ∈ D.deps.elems := hy
  rw [(h.blank ho hD).2] at hy
  cases hy

lemma drop {file : FileId} {d : DeclId} {todo : List FileId} {gone : List DeclId} {e : Engine}
    (h : First ⟨.reconciling file (d :: gone) (some []) todo, [], none, e⟩) (hg : e.program.Graph) :
    (e.deleteDecl d).program.deletionSet = e.program.deletionSet := by
  cases hD : e.program.decl? d with
  | none => rw [Engine.deleteDecl_of_none hD]
  | some D =>
    have hu : D.dependants.isEmpty = true := by
      refine List.isEmpty_iff.2 (List.eq_nil_iff_forall_not_mem.2 fun y hy => ?_)
      have hy : d ∈ e.program.depsOf y := hg.symm.2 (Program.mem_dependantsOf.2 ⟨D, hD, hy⟩)
      rw [show e.program.depsOf y = _ from h.depsOf rfl y] at hy
      cases hy
    have hdetach : (e.program.detach d D).depsOf d = [] := by
      rw [Program.depsOf, Program.decl?, Program.detach_decls]
      exact h.depsOf rfl d
    rw [Engine.deleteDecl_of_unused hD hu]
    dsimp only [Engine.modifyProgram]
    rw [Program.release_of_nil hdetach, (Program.forget_quiet _ d D).deletionSet]
    unfold Program.detach
    dsimp only
    split <;> rfl

lemma keeps (h : c.First) (hm : Move c c') (hg : c.program.Graph) (hu : c.stage.isUnderWay = true)
    (hu' : c'.stage.isUnderWay = true) : c'.program.deletionSet = [] := by
  have hk := h.kept hu
  have marked (e : Engine) (d : DeclId) : (e.markOutdated d).program.deletionSet = e.program.deletionSet :=
    Engine.markOutdated_rule (P := (·.deletionSet = _)) rfl rfl
  cases hm with
  | quiet hq => exact hq.deletionSet.trans hk
  | fail | failLate | again => exact (Program.fail_beside ..).deletionSet.trans hk
  | depend => exact (Program.dependencyFailed_beside ..).deletionSet.trans hk
  | edge =>
    dsimp only [Engine.modifyProgram]
    unfold Program.addEdge
    split <;> exact hk
  | @release d S B e D hd hs =>
    have hnil : e.program.depsOf d = [] := by
      rw [Program.depsOf, hd]
      exact (h.young rfl hd).deps (.inl hs)
    exact (congrArg _ (Program.release_of_nil hnil)).trans hk
  | grant link header => cases header <;> exact hk
  | outdate | retry => exact (marked ..).trans hk
  | enroll =>
    dsimp only
    split <;> exact hk
  | refresh => exact Engine.refresh_rule (P := (·.deletionSet = [])) hk fun e h => (marked ..).trans h
  | drop => exact (h.drop hg).trans hk
  | drain hds => cases hds.symm.trans hk
  | drained => cases hu'
  | _ => exact hk

end Config.First

lemma Decl.unused {c : Config} {d : DeclId} {D : Decl} {deps : OrdSet DeclId} (h : D.deps.elems = [])
    (hn : ∀ y, c.stage = .due y → ¬ c.Innermost d) (hd : ∀ y ∈ deps, y ∈ D.deps ∨ c.stage = .due y ∧ c.Innermost d) :
    deps.elems = [] := by
  refine List.eq_nil_iff_forall_not_mem.2 fun y hy => ?_
  obtain hy | ⟨hst, hi⟩ := hd y hy
  · have hy : y ∈ D.deps.elems := hy
    rw [h] at hy
    cases hy
  · exact hn y hst hi

lemma Decl.Young.turn {c c' : Config} {d : DeclId} {D D' : Decl} {r r' : Option Diagnostic} (hy : D.Young) (h : c.First)
    (ha : c.stage ≠ .torn → c.Attentive) (hs : c'.stage.isUnderWay = true) (hD : c.program.decl? d = some D)
    (ht : D.Turn c c' d r D' r') : D'.Young := by
  have hbare := ht.bare
  cases ht with
  | wired _ _ _ hd =>
    refine ⟨hy.generation, hy.value, fun hs => unused (hy.deps hs) (fun y hst hi => ?_) hd⟩
    obtain ⟨D', hD', had⟩ := (ha (hst ▸ nofun)).attends hi.engaged
    cases hD.symm.trans hD'
    exact hs.elim had.outdated had.unreferenced
  | marked _ _ _ hd _ hst =>
    obtain ⟨ho, -⟩ | ⟨-, -, hn⟩ := hst
    · obtain ⟨hv, hnil⟩ := h.blank ho hD
      exact ⟨hy.generation, fun _ => hv, fun _ => unused hnil (fun y hst _ => nomatch hst ▸ ho) hd⟩
    · exact absurd (hy.generation.trans h.generation.symm) hn
  | rereadMarked hst =>
    obtain ⟨hv, hd⟩ := h.blank (hst ▸ rfl) hD
    exact ⟨hy.generation, fun _ => hv, fun _ => hd⟩
  | entered _ _ _ hs => exact ⟨h.generation, fun _ => hy.value (hs.elim (· ▸ rfl) (· ▸ rfl)), nofun⟩
  | rewound hst' => cases (hst' ▸ hs :)
  | failed | repeated => exact ⟨h.generation, nofun, nofun⟩
  | depended | installed | completed => exact ⟨hy.generation, nofun, nofun⟩
  | withheld _ _ _ _ hs => obtain rfl | rfl := hs <;> exact ⟨hy.generation, nofun, nofun⟩
  | refused _ _ hs => obtain rfl | ⟨rfl, -⟩ := hs <;> exact ⟨hy.generation, nofun, nofun⟩
  | failedBody | dependedBody | opened | ended =>
    refine ⟨hy.generation, fun hs => (hbare (hy.value hs)).resolve_right ?_, hy.deps⟩
    rintro ⟨-, -, -, hc⟩
    cases hc ▸ hs
  | granted | reread => exact ⟨hy.generation, hy.value, hy.deps⟩

lemma first_move (c c' : Config) (hm : Move c c') (hp : c.stage = .resting → c.stage.publishes c'.stage = false)
    (hg : c.program.Graph) (ha : c.stage ≠ .torn → c.Attentive) (h : c.First) : c'.First := by
  have hb : ¬ c.stage.Begins c'.stage := fun ⟨hs, todo, hs'⟩ => by
    have := hp hs
    rw [hs, hs'] at this
    cases this
  refine ⟨(hm.generation hb).trans h.generation, fun {d D'} hs hD' => ?_, fun {d D'} hs hD' => ?_,
    fun {d D'} hs hd hD' => ?_,
    fun hs => h.keeps hm hg (hm.isUnderWay hb hs) hs⟩
  · obtain ⟨D, r', hD, -, hturn⟩ | ⟨file, ns, item, -, -, -, -, -, rfl⟩ := hm.was hD'
    · exact (h.young (hm.isUnderWay hb hs) hD).turn h ha hs hD hturn
    · exact ⟨h.generation, fun _ => rfl, fun _ => rfl⟩
  · obtain ⟨D, r', hD, -, hturn⟩ | ⟨file, ns, item, -, -, -, -, -, rfl⟩ := hm.was hD'
    · have ho := hm.isOpening hb hs
      obtain ⟨hv, hd⟩ := h.blank ho hD
      refine ⟨(hturn.bare hv).resolve_right ?_, Decl.unused hd (fun y hst _ => nomatch hst ▸ ho) fun y => hturn.deps⟩
      rintro ⟨⟨hst, -⟩, -⟩
      cases hst ▸ ho
    · exact ⟨rfl, rfl⟩
  · obtain ⟨D, r', hD, -, hturn⟩ | ⟨file, ns, item, -, -, -, -, -, rfl⟩ := hm.was hD'
    · have hu := hm.isUnderWay hb hs
      obtain hp | ⟨hst, D₀, hD₀, hs₀⟩ := hm.pending hs hd
      · refine (hturn.bare (h.pending hu hp hD)).resolve_right ?_
        rintro ⟨⟨hst, _, _, hst'⟩, hS, hS', -⟩
        obtain ⟨S, hS⟩ := List.head?_eq_some_iff.1 hS
        have hnd := (ha (hst ▸ nofun)).nodup
        have hmem : d ∈ c'.stack.tail := by
          rwa [Config.pending, hst'] at hd
        rw [hS', hS] at hmem
        exact (List.nodup_cons.1 (hS ▸ hnd)).1 hmem
      · cases hD.symm.trans hD₀
        refine (hturn.bare ((h.young hu hD).value (hs₀.elim (· ▸ rfl) (· ▸ rfl)))).resolve_right ?_
        rintro ⟨⟨hst', -⟩, -⟩
        cases hst.symm.trans hst'
    · rfl

lemma Move.carries {c c' : Config} (hm : Move c c') (hg : c.program.Graph) (h : c.First) :
    c.program.Carries c'.program := by
  intro d D hD hs
  obtain ⟨D', r', hD', -, hturn⟩ | ⟨-, -, -, -, -, hgone⟩ := hm.becomes hD (hg.bound hD)
  · refine ⟨D', hD', ?_⟩
    cases hturn with
    | failedBody => exact .modifyFunc fun _ => ⟨rfl, rfl, nofun⟩
    | dependedBody =>
      refine .modifyFunc fun f => ?_
      split
      · exact ⟨rfl, rfl, nofun⟩
      · exact ⟨rfl, rfl, id⟩
    | installed hst _ hS =>
      -- The declaration under analysis has no value yet.
      have hd : d ∈ c.pending := by
        rw [Config.pending, hst]
        exact List.mem_of_head? hS
      intro v hv
      cases (h.pending (hst ▸ rfl) hd hD).symm.trans hv
    | @opened v f _ _ _ _ _ hv hf =>
      intro w hw
      cases hv.symm.trans hw
      refine ⟨_, rfl, rfl, rfl, ?_, ?_, fun hf' hs => ?_⟩
      · rw [hf]
        rfl
      · rw [hf]
        rfl
      · cases hf'
        cases hs
    | ended arena g _ _ _ hg =>
      intro v hv
      refine ⟨_, congrArg (Option.map _) hv, ?_⟩
      dsimp only
      split
      · refine .ofFunc arena fun f => ?_
        obtain ⟨-, rfl⟩ | ⟨-, -, body, rfl⟩ | ⟨-, -, rfl⟩ := hg
        · exact ⟨rfl, rfl, nofun⟩
        · exact ⟨rfl, rfl, nofun⟩
        · refine ⟨rfl, rfl, fun hs => ?_⟩
          dsimp only at hs
          split at hs
          · cases hs
          · exact hs
      · exact .refl v
    | _ => exact .same rfl
  · obtain ⟨file, rest, todo, hst⟩ | ⟨hst, -, hmem, -⟩ := hgone
    · have hv := (h.blank (hst ▸ rfl) hD).1
      rw [hv] at hs
      cases hs
    · rw [h.kept (hst ▸ rfl)] at hmem
      cases hmem

end Frontend
