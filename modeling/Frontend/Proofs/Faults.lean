import Frontend.Proofs.Mirroring
import Frontend.Proofs.Moves.First
import Frontend.Proofs.Quiescence.Bodies
import Frontend.Proofs.Redefinition
import Frontend.Proofs.Scoping

/-! Recorded failures and the states they belong to. A declaration has a diagnostic just if it failed by itself, with
one exception: a block has no value of its own, and keeps the function that was there before it. -/

namespace Frontend

def UnitContent.isBlock : UnitContent → Nat → Bool
  | source _ loaded, i => (loaded.bind (·.items[i]?)).any Item.isComptime
  | lowered ds _, i => ds[i]?.any Untyped.Decl.isComptime

def Program.isBlock (p : Program) (d : DeclId) : Bool :=
  (p.decl? d).any fun D => (p.units.get? D.file).any (·.content.isBlock D.index)

def Decl.isAtFault (D : Decl) : Bool :=
  match D.state with
  | .failed | .codegenFailed | .codegenFailedRetryable => true
  | .complete => D.func?.any (·.state == .failed)
  | _ => false

namespace Untyped

lemma Lower.item_isComptime {d : Draft} (scope : Scope) (it : Item) :
    Gives d (item scope it) fun kind => (Decl.mk "" false {} kind).isComptime = it.isComptime := by
  unfold item Item.isComptime
  cases it.kind with
  | fn | var | comptime =>
    refine .bind fun _ _ _ kind d' hm => ?_
    cases hm
    rfl
  | test | usingNamespace | field => exact nofun

lemma isComptime_of_ofItem {it : Item} {name : String} {scope : Scope} {item : Decl}
    (h : ofItem it name scope = .ok item) : item.isComptime = it.isComptime := by
  unfold ofItem at h
  cases hr : (Lower.item (.lowering scope scope.owner?) it).run {} with
  | error e =>
    rw [hr] at h
    cases h
  | ok x =>
    rw [hr] at h
    cases h
    exact Lower.item_isComptime _ it _ _ hr

end Untyped

lemma SourceUnit.LowersTo.isBlock {u : SourceUnit} {scope : Scope} {D : Decl} {item : Untyped.Decl}
    {b : Untyped.Comptime}
    (h : u.LowersTo scope D item) (hb : item.kind = .comptime b) : u.content.isBlock D.index = true := by
  have hitem : item.isComptime = true := by simp [Untyped.Decl.isComptime, hb]
  unfold LowersTo at h
  unfold UnitContent.isBlock
  split at h
  · next hc => simp [hc, h, hitem]
  · next hc =>
    obtain ⟨l, it, rfl, hit, ho⟩ := h
    simp [hc, hit, ← Untyped.isComptime_of_ofItem ho, hitem]

/-! Where declarations lie in the course of the work. -/

lemma Program.exists_of_isBlock {p : Program} {d : DeclId} (h : p.isBlock d = true) :
    ∃ D u, p.decl? d = some D ∧ p.units.get? D.file = some u ∧ u.content.isBlock D.index = true := by
  obtain ⟨D, hD, h⟩ := (Option.any_eq_true _ _).1 h
  obtain ⟨u, hu, h⟩ := (Option.any_eq_true _ _).1 h
  exact ⟨D, u, hD, hu, h⟩

lemma Move.content {c c' : Config} (hm : Move c c') (hw : c.stage.isWork = true) (he : ¬ c.stage.Ends c'.stage)
    {file : FileId} {u : SourceUnit} (hu : c.program.units.get? file = some u) :
    ∃ u', c'.program.units.get? file = some u' ∧ u'.content = u.content := by
  obtain (hs | ⟨f, g, hs, hg⟩) | ⟨f, _, _, _, _, hst, -⟩ | ⟨h, -⟩ := hm.units_or
  · exact ⟨u, hs ▸ hu, rfl⟩
  · rw [hs, Dict.get?_modify, hu]
    split
    · exact ⟨_, rfl, (hg u).content⟩
    · exact ⟨u, rfl, rfl⟩
  · rw [hst] at hw
    cases hw
  · exact absurd h he

lemma Move.isBlock {c c' : Config} (hm : Move c c') (hw : c.stage.isWork = true) (he : ¬ c.stage.Ends c'.stage)
    (hg : c.program.Graph) {d : DeclId} (h : c.program.isBlock d = true) :
    c'.program.isBlock d = true ∨ c'.program.decl? d = none ∧ c.stage = .draining := by
  obtain ⟨D, u, hD, hu, hblock⟩ := Program.exists_of_isBlock h
  obtain ⟨D', r', hD', -, hturn⟩ | ⟨hD', -, -, -, -, ⟨file, rest, todo, hst⟩ | ⟨hst, -⟩⟩ := hm.becomes hD (hg.bound hD)
  · obtain ⟨u', hu', hc⟩ := hm.content hw he hu
    have hi : D'.index = D.index := by
      cases hturn with
      | reread hst | rereadMarked hst | repeated hst =>
        rw [hst] at hw
        cases hw
      | _ => rfl
    refine .inl ?_
    rw [Program.isBlock, hD', Option.any_some, hturn.is.file, hu', Option.any_some, hi, hc]
    exact hblock
  · rw [hst] at hw
    cases hw
  · exact .inr ⟨hD', hst⟩

lemma Stage.isBusy_of_isWork {st : Stage} (hw : st.isWork = true) (hs : st ≠ .draining) : st.isBusy = true := by
  cases st <;> first | rfl | exact absurd rfl hs | cases hw

lemma Move.isWork {c c' : Config} (hm : Move c c') (hw : c.stage.isWork = true) (he : ¬ c.stage.Ends c'.stage)
    (ht : c'.stage ≠ .torn) : c'.stage.isWork = true := by
  cases hm with
  | quiet | collide | claim => exact hw
  | tear | rewind | requeue => exact absurd rfl ht
  | @take e item => cases item <;> rfl
  | drained => exact absurd ⟨rfl, rfl⟩ he
  | _ => first | rfl | cases hw

/-! One declaration. -/

lemma Decl.func?_modifyFunc (D : Decl) (g : Function → Function) : (D.modifyFunc g).func? = D.func?.map g := by
  unfold modifyFunc func?
  cases D.value <;> rfl

structure Decl.SameFault (D D' : Decl) : Prop where
  fault : D'.isAtFault = D.isAtFault
  complete : D.isAtFault = true → D.state = .complete → D'.state = .complete ∧ D'.generation = D.generation

namespace Decl.SameFault
variable {D D' : Decl}

lemma same (hs : D'.state = D.state) (hf : D'.func? = D.func?) (hg : D'.generation = D.generation) :
    D.SameFault D' := by
  refine ⟨?_, fun _ h => ⟨hs.trans h, hg⟩⟩
  unfold isAtFault
  rw [hs, hf]

lemma clean (h : D.isAtFault = false) (h' : D'.isAtFault = false) : D.SameFault D' :=
  ⟨h'.trans h.symm, fun hf => nomatch h.symm.trans hf⟩

lemma ofFunc {v' : Option DeclValue}
    (h : (v'.bind (·.func)).any (·.state == .failed) = D.func?.any (·.state == .failed)) :
    D.SameFault { D with value := v' } := by
  refine ⟨?_, fun _ h => ⟨h, rfl⟩⟩
  unfold isAtFault func?
  cases D.state <;> first | rfl | exact h

variable {g : Function → Function}

lemma modifyFunc (h : ∀ f, D.func? = some f → ((g f).state == .failed) = (f.state == .failed)) :
    D.SameFault (D.modifyFunc g) := by
  refine ofFunc ?_
  show (D.modifyFunc g).func?.any _ = _
  rw [func?_modifyFunc]
  cases hf : D.func? with
  | none => rfl
  | some f => exact h f hf

lemma finishBody {r : Nat} {arena : Typed.Arena}
    (h : ∀ f, D.func? = some f → ((g f).state == .failed) = (f.state == .failed)) :
    D.SameFault { D with
      value := D.value.map fun v =>
        if (v.func).any (·.revision == r) then { v with arena, func := v.func.map g } else v } := by
  refine ofFunc ?_
  rw [func?] at h ⊢
  cases hD : D.value with
  | none => rfl
  | some v =>
    rw [hD] at h
    rw [Option.map_some, Option.bind_some, Option.bind_some]
    split
    · cases hv : v.func with
      | none => rfl
      | some f => simpa using h f hv
    · rfl

end Decl.SameFault

/-- A failure that is recorded for the declaration is its own, and its own failure is recorded, unless it is complete
and excused for the generation in which it was analyzed. -/
structure Program.Answers (excused : Nat → Prop) (p : Program) (d : DeclId) : Prop where
  own : (p.failedDecls.get? d).isSome = true → ∃ D, p.decl? d = some D ∧ D.isAtFault = true
  told {D} : p.decl? d = some D → D.isAtFault = true →
    (p.failedDecls.get? d).isSome = true ∨ D.state = .complete ∧ excused D.generation

namespace Program.Answers
variable {X X' : Nat → Prop} {p p' : Program} {d : DeclId} {D D' : Decl}

lemma mono (h : p.Answers X d) (hX : ∀ D, p.decl? d = some D → ∀ g, X g → X' g) : p.Answers X' d where
  own := h.own
  told hD hf := (h.told hD hf).imp_right fun ⟨hs, hx⟩ => ⟨hs, hX _ hD _ hx⟩

lemma gone (hD : p.decl? d = none) (hr : p.failedDecls.get? d = none) : p.Answers X d where
  own h := by
    rw [hr] at h
    cases h
  told hD' := nomatch hD.symm.trans hD'

lemma clean (hD : p.decl? d = some D) (hf : D.isAtFault = false) (hr : p.failedDecls.get? d = none) :
    p.Answers X d where
  own h := by
    rw [hr] at h
    cases h
  told hD' hf' := by
    cases hD.symm.trans hD'
    cases hf.symm.trans hf'

lemma blamed {diagnostic : Diagnostic} (hD : p.decl? d = some D) (hf : D.isAtFault = true)
    (hr : p.failedDecls.get? d = some diagnostic) : p.Answers X d :=
  ⟨fun _ => ⟨D, hD, hf⟩, fun _ _ => .inl (Option.isSome_iff_exists.2 ⟨diagnostic, hr⟩)⟩

lemma excuse (hD : p.decl? d = some D) (hs : D.state = .complete) (hx : X D.generation)
    (hr : p.failedDecls.get? d = none) : p.Answers X d where
  own h := by
    rw [hr] at h
    cases h
  told hD' _ := by
    cases hD.symm.trans hD'
    exact .inr ⟨hs, hx⟩

lemma same (h : p.Answers X d) (hD : p.decl? d = some D) (hD' : p'.decl? d = some D') (hs : D.SameFault D')
    (hr : p'.failedDecls.get? d = p.failedDecls.get? d) : p'.Answers X d where
  own hr' := by
    rw [hr] at hr'
    obtain ⟨D₀, hD₀, hf⟩ := h.own hr'
    cases hD.symm.trans hD₀
    exact ⟨D', hD', hs.fault.trans hf⟩
  told {D₁} hD₁ hf := by
    cases hD'.symm.trans hD₁
    rw [hr]
    have hf₀ : D.isAtFault = true := hs.fault.symm.trans hf
    refine (h.told hD hf₀).imp_right fun ⟨hstate, hx⟩ => ?_
    obtain ⟨hstate', hgen⟩ := hs.complete hf₀ hstate
    exact ⟨hstate', hgen ▸ hx⟩

lemma record_eq_none (h : p.Answers X d) (hD : p.decl? d = some D) (hf : D.isAtFault = false) :
    p.failedDecls.get? d = none := by
  cases hr : p.failedDecls.get? d with
  | none => rfl
  | some diagnostic =>
    obtain ⟨D', hD', hf'⟩ := h.own (Option.isSome_iff_exists.2 ⟨diagnostic, hr⟩)
    cases hD.symm.trans hD'
    cases hf.symm.trans hf'

end Program.Answers

def Program.Accountable (X : DeclId → Nat → Prop) (p : Program) : Prop := ∀ d, p.Answers (X d) d

/-! Configurations. -/

def Stage.isDone : Stage → Bool
  | .installed .. | .settled => true
  | _ => false

/-- In the course of the work a declaration is also excused if it is a block and was analyzed in this generation. -/
def Config.Pardons (X : DeclId → Nat → Prop) (c : Config) (d : DeclId) (g : Nat) : Prop :=
  X d g ∨ c.stage.isWork = true ∧ g = c.engine.program.generation ∧ c.engine.program.isBlock d = true

structure Config.Answerable (X : DeclId → Nat → Prop) (c : Config) : Prop where
  graph : c.engine.program.Graph
  placed : c.engine.program.Placed (fun _ => True) c.stage
  attentive : c.Attentive
  accounts : c.engine.program.Accountable (c.Pardons X)
  clear {d} : d ∈ c.stack → (c.engine.program.failedDecls.get? d).isSome = true →
    c.stack.head? = some d ∧ c.stage.isClosing = true
  ran {d D} : c.stage.isDone = true → c.stack.head? = some d → c.engine.program.decl? d = some D →
    D.state = .inProgress →
    c.engine.program.isBlock d = true
  writes {d r} : c.body = some (d, r) →
    ∃ D f, c.engine.program.decl? d = some D ∧ D.state.TakesCode ∧ D.func? = some f ∧
    (f.state = .inProgress ∨ c.stage = .failing ∧ c.stack = [])

lemma Move.stack_eq {c c' : Config} (hm : Move c c') (h : c'.stage.isClosing = true) : c'.stack = c.stack := by
  cases hm with
  | @take _ item => cases item <;> cases h
  | _ => first | rfl | cases h

lemma Move.body_turn {c c' : Config} (hm : Move c c') (hg : c.program.Graph) (ha : c.Attentive) (ht : c'.stage ≠ .torn)
    {d : DeclId} {r : Nat} (hd : c.body = some (d, r)) (hd' : c'.body = some (d, r)) {D : Decl}
    (hD : c.program.decl? d = some D) :
    ∃ D', c'.program.decl? d = some D' ∧ (D.Rewired D' ∧ c'.program.record? d = c.program.record? d ∨
      c.stack = [] ∧ c'.stage = .failing ∧ ((∃ diagnostic, D' = D.modifyFunc ({ · with state := .failed }) ∧
          c'.program.record? d = some diagnostic) ∨
        D' = D.modifyFunc (fun f => if f.state = .inProgress then { f with state := .dependencyFailed } else f) ∧
          c'.program.record? d = c.program.record? d)) := by
  have other : c.stack.head? ≠ some d := fun hx => ha.apart hd (List.mem_of_head? hx)
  have hat : D.Attended c.program.generation := by
    obtain ⟨D', hD', hat⟩ := ha.attends (.inr (.inr (.inr ⟨r, hd⟩)))
    cases hD.symm.trans hD'
    exact hat
  have writes : c.body ≠ none := by
    rw [hd]
    nofun
  obtain ⟨D', r', hD', hr', hturn⟩ | ⟨-, -, -, -, hb, -⟩ := hm.becomes hD (hg.bound hD)
  · refine ⟨D', hD', ?_⟩
    rw [hr']
    cases hturn with
    | wired => exact .inl ⟨⟨_, _, _⟩, rfl⟩
    | failedBody _ _ hst' hS => exact .inr ⟨hS, hst', .inl ⟨_, rfl, rfl⟩⟩
    | dependedBody _ hst' hS => exact .inr ⟨hS, hst', .inr ⟨rfl, rfl⟩⟩
    | failed _ _ _ hS | depended hS | installed _ _ hS | granted _ _ _ hS | withheld _ _ _ hS => exact absurd hS other
    | completed _ hS => exact absurd (hS ▸ rfl) other
    | marked _ _ _ _ _ hst =>
      obtain ⟨-, -, hb, -⟩ | ⟨-, -, hn⟩ := hst
      · exact absurd hb writes
      · exact absurd hat.generation hn
    | entered _ _ _ hs => exact (hs.elim hat.outdated hat.unreferenced).elim
    | rewound hst' => exact absurd hst' ht
    | opened _ _ hb | refused _ _ _ _ hb | reread _ _ _ _ _ hb | rereadMarked _ _ _ _ hb | repeated _ _ _ _ _ hb =>
      exact absurd hb writes
    | ended _ _ _ hb' => cases hd'.symm.trans hb'
  · exact absurd hb writes

lemma Decl.isAtFault_failBody (D : Decl) {f : Function} (hs : D.state.TakesCode) (hf : D.func? = some f) :
    (D.modifyFunc ({ · with state := .failed })).isAtFault = true := by
  have hf' := (D.func?_modifyFunc ({ · with state := .failed })).trans (congrArg _ hf)
  have hstate : (D.modifyFunc ({ · with state := .failed })).state = D.state := rfl
  obtain hs | hs := hs <;> simp [isAtFault, hstate, hs, hf']

lemma Decl.isAtFault_install (D : Decl) {v : DeclValue} {needsCode : Bool} (hv : v.Fresh needsCode) :
    { D with value := some v, state := .complete }.isAtFault = false := by
  unfold isAtFault func?
  cases hf : v.func with
  | none => simp [hf]
  | some f => obtain hs | ⟨hs, -⟩ := hv.state hf <;> simp [hf, hs]

namespace Config.Answerable
variable {X : DeclId → Nat → Prop} {c c' : Config} {d : DeclId}

variable (h : c.Answerable X)
include h

lemma record_eq_none {D : Decl} (hD : c.program.decl? d = some D) (hf : D.isAtFault = false) :
    c.program.failedDecls.get? d = none := (h.accounts d).record_eq_none hD hf

lemma clear_move (hm : Move c c') (ht : c'.stage ≠ .torn) (hd : d ∈ c'.stack)
    (hr : (c'.program.failedDecls.get? d).isSome = true) :
    c'.stack.head? = some d ∧ c'.stage.isClosing = true := by
  obtain ⟨diagnostic, hdiagnostic⟩ := Option.isSome_iff_exists.1 hr
  have old (hr : (c.program.failedDecls.get? d).isSome = true) :
      c'.stack.head? = some d ∧ c'.stage.isClosing = true := by
    obtain hS | ⟨D, hD, hs⟩ := hm.mem_stack hd
    · obtain ⟨hhead, hclosing⟩ := h.clear hS hr
      have hnodup := h.attentive.nodup
      cases hm with
      | quiet | collide | claim => exact ⟨hhead, hclosing⟩
      | failLate => exact ⟨hhead, rfl⟩
      | finish | abandon =>
        cases hhead
        exact absurd hd (List.nodup_cons.1 hnodup).1
      | dropBody => cases hd
      | tear | rewind | requeue => exact absurd rfl ht
      | _ => cases hclosing
    · have hclean : D.isAtFault = false := by obtain hs | hs := hs <;> rw [Decl.isAtFault, hs]
      rw [h.record_eq_none hD hclean] at hr
      cases hr
  obtain hr | ⟨hi, hclosing⟩ | ⟨hS', -⟩ := hm.blames hdiagnostic
  · exact old (Option.isSome_iff_exists.2 ⟨_, hr⟩)
  · have hS := hm.stack_eq hclosing
    obtain hi | ⟨hi, -⟩ := hi
    · exact ⟨hS ▸ hi, hclosing⟩
    · rw [hS, hi] at hd
      cases hd
  · rw [hS'] at hd
    cases hd

lemma ran_move (hm : Move c c')
    (hb : c.stage.Runs c'.stage → ∀ d, c.stack.head? = some d → c.program.isBlock d = true) {D' : Decl}
    (hs : c'.stage.isDone = true) (hd : c'.stack.head? = some d) (hD' : c'.program.decl? d = some D')
    (hp : D'.state = .inProgress) : c'.program.isBlock d = true := by
  have hmoved (hw : c.stage.isDone = true) : c.program.isBlock d = true → c'.program.isBlock d = true := by
    refine fun hblock => (hm.isBlock ?_ ?_ h.graph hblock).resolve_right fun ⟨hn, _⟩ => nomatch hn.symm.trans hD'
    · cases hst : c.stage <;> rw [hst] at hw <;> first | rfl | cases hw
    · exact fun he => nomatch he.1 ▸ hw
  cases hm with
  | @quiet st _ _ _ _ hq =>
    have hD : Program.decl? _ d = some D' := (congrArg (Dict.get? · d) hq.decls).symm.trans hD'
    exact hmoved hs (h.ran hs hd hD hp)
  | collide | claim => exact h.ran hs hd hD' hp
  | install =>
    cases hd
    obtain ⟨D₀, -, rfl⟩ := Program.exists_of_decl?_modifyDecl hD'
    rw [if_pos rfl] at hp
    cases hp
  | spare => exact h.ran rfl hd hD' hp
  | @grant _ _ x _ _ e link header hl =>
    have hlink : (e.program.modifyDecl x ({ · with link })).decl? d = some D' := by cases header <;> exact hD'
    obtain ⟨D₀, hD₀, rfl⟩ := Program.exists_of_decl?_modifyDecl hlink
    refine hmoved rfl (h.ran rfl hd hD₀ ?_)
    split at hp <;> exact hp
  | withhold _ _ hstate =>
    cases hd
    obtain ⟨D₀, -, rfl⟩ := Program.exists_of_decl?_modifyDecl hD'
    rw [if_pos rfl] at hp
    obtain rfl | rfl := hstate <;> cases hp
  | ran => exact hb ⟨rfl, rfl⟩ d hd
  | @take e item => cases item <;> cases hs
  | _ => cases hs

lemma writes_move (hm : Move c c') (ht : c'.stage ≠ .torn) {r : Nat} (hd' : c'.body = some (d, r)) :
    ∃ D f, c'.program.decl? d = some D ∧ D.state.TakesCode ∧ D.func? = some f ∧
      (f.state = .inProgress ∨ c'.stage = .failing ∧ c'.stack = []) := by
  obtain hd | ⟨-, D, D', v, f, -, ha, hD', hs, hv, hf, hrun, -⟩ := hm.body hd'
  · obtain ⟨D, f, hD, hstate, hf, hrun⟩ := h.writes hd
    obtain ⟨D', hD', ⟨hw, -⟩ | ⟨hS, hst', hfailed⟩⟩ := hm.body_turn h.graph h.attentive ht hd hd' hD
    · cases hw
      refine ⟨_, f, hD', hstate, hf, hrun.imp_right fun ⟨hfailing, hempty⟩ => ?_⟩
      -- From here the analysis of the body can only be dropped.
      cases hm with
      | quiet | collide | claim => exact ⟨hfailing, hempty⟩
      | tear | rewind | requeue => exact absurd rfl ht
      | abandon => cases hempty
      | dropBody => cases hd'
      | _ => cases hfailing
    · have hS' : c'.stack = [] := (hm.stack_eq (hst' ▸ rfl)).trans hS
      obtain ⟨-, rfl, -⟩ | ⟨rfl, -⟩ := hfailed
      all_goals exact ⟨_, _, hD', hstate, (Decl.func?_modifyFunc ..).trans (congrArg _ hf), .inr ⟨hst', hS'⟩⟩
  · exact ⟨D', f, hD', hs ▸ ha.1, Decl.func?_eq hv hf, .inl hrun⟩

lemma record_of_working (hst : c.stage = .working) (hS : c.stack.head? = some d) : c.program.record? d = none := by
  refine Option.eq_none_iff_forall_ne_some.2 fun diagnostic hr => ?_
  have hc := (h.clear (List.mem_of_head? hS) (Option.isSome_iff_exists.2 ⟨diagnostic, hr⟩)).2
  rw [hst] at hc
  cases hc

lemma answers_absent (hm : Move c c') (hD : c.program.decl? d = none) : c'.program.Answers (c.Pardons X d) d := by
  have hr : c.program.failedDecls.get? d = none := by
    refine Option.eq_none_iff_forall_ne_some.2 fun diagnostic hr => ?_
    obtain ⟨D, hD', -⟩ := (h.accounts d).own (Option.isSome_iff_exists.2 ⟨diagnostic, hr⟩)
    cases hD.symm.trans hD'
  cases hD' : c'.program.decl? d with
  | none =>
    obtain hr' | ⟨-, hi⟩ := hm.absent hD hD'
    · exact .gone hD' (hr'.trans hr)
    · obtain ⟨D, hD', -⟩ := h.attentive.attends hi.engaged
      cases hD.symm.trans hD'
  | some D' =>
    obtain ⟨D, _, hD₀, -⟩ | ⟨file, ns, item, -, -, -, hp, -, rfl⟩ := hm.was hD'
    · cases hD.symm.trans hD₀
    · exact .clean hD' rfl ((congrArg (·.failedDecls.get? d) hp).trans hr)

lemma answers_turn {D D' : Decl} {r' : Option Diagnostic} (hD : c.program.decl? d = some D)
    (hD' : c'.program.decl? d = some D') (hr' : c'.program.record? d = r')
    (hturn : D.Turn c c' d (c.program.record? d) D' r') (ht : c'.stage ≠ .torn) :
    c'.program.Answers (c.Pardons X d) d := by
  have ha := h.accounts d
  cases hturn with
  | wired | granted | reread => exact ha.same hD hD' (.same rfl rfl rfl) hr'
  | marked | rereadMarked => exact .clean hD' rfl hr'
  | rewound hst' => exact absurd hst' ht
  | failed | repeated => exact .blamed hD' rfl hr'
  | entered _ _ _ hs =>
    have hf : D.isAtFault = false := by obtain hs | hs := hs <;> rw [Decl.isAtFault, hs]
    exact ha.same hD hD' (.clean hf rfl) hr'
  | depended _ hs =>
    have hf : D.isAtFault = false := by rw [Decl.isAtFault, hs]
    exact ha.same hD hD' (.clean hf rfl) hr'
  | withheld _ _ _ _ hs =>
    refine .blamed hD' ?_ hr'
    obtain rfl | rfl := hs <;> rfl
  | refused _ _ hs =>
    refine .blamed hD' ?_ hr'
    obtain rfl | ⟨rfl, -⟩ := hs <;> rfl
  | failedBody _ _ _ _ hb =>
    obtain ⟨D₀, f, hD₀, hs, hf, -⟩ := h.writes hb
    cases hD.symm.trans hD₀
    exact .blamed hD' (D.isAtFault_failBody hs hf) hr'
  | dependedBody =>
    refine ha.same hD hD' (.modifyFunc fun f _ => ?_) hr'
    split
    · next hs => rw [hs]; rfl
    · rfl
  | installed hst _ hS _ hv => exact .clean hD' (D.isAtFault_install hv) (hr'.trans (h.record_of_working hst hS))
  | completed hst hS hs =>
    have hf : D.isAtFault = false := by rw [Decl.isAtFault, hs]
    obtain ⟨D₀, hD₀, hat⟩ := h.attentive.attends (.inl (hS ▸ List.mem_cons_self))
    cases hD.symm.trans hD₀
    have hblock := h.ran (hst ▸ rfl) (hS ▸ rfl) hD hs
    exact .excuse hD' rfl (.inr ⟨hst ▸ rfl, hat.generation, hblock⟩) (hr'.trans (h.record_eq_none hD hf))
  | opened _ _ _ _ hw hv hf =>
    obtain ⟨-, g, hg, hqueued⟩ := hw
    cases (Decl.func?_eq hv hf).symm.trans hg
    refine ha.same hD hD' (.ofFunc ?_) hr'
    rw [hg]
    simp [hqueued]
  | ended _ _ hb _ _ hg =>
    refine ha.same hD hD' (.finishBody fun f hf => ?_) hr'
    obtain ⟨hst', -⟩ | ⟨hst, -, _, rfl⟩ | ⟨-, -, rfl⟩ := hg
    · exact absurd hst' ht
    · obtain ⟨D₀, f₀, hD₀, -, hf₀, hrun⟩ := h.writes hb
      cases hD.symm.trans hD₀
      cases hf.symm.trans hf₀
      rw [hrun.resolve_right fun hx => nomatch hst.symm.trans hx.1]
      rfl
    · dsimp only
      split
      · next hs => rw [hs]; rfl
      · rfl

lemma accounts_move (hm : Move c c') (ht : c'.stage ≠ .torn) : c'.program.Accountable (c.Pardons X) := by
  intro d
  cases hD : c.program.decl? d with
  | none => exact h.answers_absent hm hD
  | some D =>
    obtain ⟨D', r', hD', hr', hturn⟩ | ⟨hD', hr', -⟩ := hm.becomes hD (h.graph.bound hD)
    · exact h.answers_turn hD hD' hr' hturn ht
    · exact .gone hD' hr'

lemma pardons_move (hm : Move c c') (hb : ¬ c.stage.Begins c'.stage) (he : ¬ c.stage.Ends c'.stage)
    (ht : c'.stage ≠ .torn) {D' : Decl} (hD' : c'.program.decl? d = some D') {g : Nat} (hx : c.Pardons X d g) :
    c'.Pardons X d g := by
  refine hx.imp_right fun ⟨hwork, hg, hblock⟩ => ⟨?_, hg.trans (hm.generation hb).symm, ?_⟩
  · exact hm.isWork hwork he ht
  · exact (hm.isBlock hwork he h.graph hblock).resolve_right fun ⟨hn, _⟩ => nomatch hn.symm.trans hD'

lemma move (hm : Move c c') (hb : ¬ c.stage.Begins c'.stage) (he : ¬ c.stage.Ends c'.stage) (ht : c'.stage ≠ .torn)
    (hr : c.stage.Runs c'.stage → ∀ d, c.stack.head? = some d → c.program.isBlock d = true) : c'.Answerable X where
  graph := graph_move c c' hm h.graph
  placed := placed_move c c' hm h.placed
  attentive := attentive_move c c' hm ht h.graph h.attentive
  accounts d := (h.accounts_move hm ht d).mono fun _ hD' _ hx => h.pardons_move hm hb he ht hD' hx
  clear hd := h.clear_move hm ht hd
  ran hs hd := h.ran_move hm hr hs hd
  writes hd := h.writes_move hm ht hd

end Config.Answerable

/-! Updates and runs. -/

namespace Program.Accountable
variable {X X' : DeclId → Nat → Prop} {p p' : Program}

lemma mono (h : p.Accountable X) (hd : p'.decls = p.decls) (hr : p'.failedDecls = p.failedDecls)
    (hX : ∀ d D, p'.decl? d = some D → ∀ g, X d g → X' d g) : p'.Accountable X' := by
  intro d
  have hdecl : p'.decl? d = p.decl? d := by rw [decl?, hd, decl?]
  refine Answers.mono ⟨fun hs => ?_, fun hD hf => ?_⟩ (hX d)
  · rw [hdecl]
    exact (h d).own (hr ▸ hs)
  · rw [hdecl] at hD
    rw [hr]
    exact (h d).told hD hf

lemma begin (h : p.Accountable X) (hg : p.Graph) (hr : p.Registry) :
    Config.Answerable X ⟨.working, [], none, p.begin⟩ := by
  have hstart : Config.Answerable X p.starting :=
    { graph := hg.ofDecls rfl rfl
      placed := hr.placedAt.start
      attentive := .ofIdle rfl rfl nofun nofun
      accounts := h.mono rfl rfl fun _ _ _ _ hx => .inl hx
      clear := nofun
      ran := nofun
      writes := nofun }
  have hK : Upheld (fun _ c => c.stage.isOpening = true → c.Answerable X) fun _ => True := by
    refine .ofSteps (fun c c' hm hb he _ h ho => ?_) (fun _ _ _ => trivial) fun _ _ _ ho => nomatch ho
    refine (h (hm.isOpening hb ho)).move hm hb he (fun ht => ?_) fun hr => ?_
    · rw [ht] at ho
      cases ho
    · rw [hr.2] at ho
      cases ho
  obtain ⟨-, hopened⟩ := begin_opened hK ⟨⟨p, {}⟩, fun _ => hstart⟩
  exact (hopened rfl).move .opened (fun hb => nomatch hb.1) (fun he => nomatch he.1) nofun fun hr => nomatch hr.1

lemma work : Upheld (fun o c => c.stage ≠ .torn → c.stage.isWork = true ∧ c.Answerable X ∧
    (c.stage.isBusy = true → ∀ d, o.program.isBlock d = true → c.program.isBlock d = true)) fun _ => True := by
  have step {o : Engine} {c c' : Config} (hm : Move c c') (hb : ¬ c.stage.Begins c'.stage)
      (he : ¬ c.stage.Ends c'.stage)
      (hr : c.stage.Runs c'.stage → ∀ d, c.stack.head? = some d → c.program.isBlock d = true)
      (h : c.stage ≠ .torn → c.stage.isWork = true ∧ c.Answerable X ∧
        (c.stage.isBusy = true → ∀ d, o.program.isBlock d = true → c.program.isBlock d = true))
      (ht : c'.stage ≠ .torn) : c'.stage.isWork = true ∧ c'.Answerable X ∧
        (c'.stage.isBusy = true → ∀ d, o.program.isBlock d = true → c'.program.isBlock d = true) := by
    obtain ⟨hwork, ha, hblocks⟩ := h fun hs => ht (hm.torn hs)
    refine ⟨hm.isWork hwork he ht, ha.move hm hb he ht hr, fun hbusy d hd => ?_⟩
    have hbusy : c.stage.isBusy = true := by
      refine Stage.isBusy_of_isWork hwork fun hs => ?_
      rw [hm.draining he ht hs] at hbusy
      cases hbusy
    refine (hm.isBlock hwork he ha.graph (hblocks hbusy d hd)).resolve_right fun ⟨_, hst⟩ => ?_
    rw [hst] at hbusy
    cases hbusy
  refine .ofLooks (fun h ht => ?_) (fun _ _ _ hm hb he _ hr h => step hm hb he (fun h => absurd h hr) h)
    (fun _ _ _ => trivial) (fun hv _ _ _ _ _ h => ?_) fun {o s d S B e D u scope item b} hD hu hl hb _ hs h => ?_
  · obtain ⟨hwork, ha, -⟩ := h ht
    exact ⟨hwork, ha, fun _ _ hd => hd⟩
  · exact step (.install hv) (fun h => nomatch h.1) (fun h => nomatch h.1) (fun h => nomatch h.2) h
  · refine step .ran (fun h => nomatch h.1) (fun h => nomatch h.1) (fun _ x hx => ?_) h
    obtain ⟨-, -, hblocks⟩ := hs nofun
    cases hx
    refine hblocks rfl d ?_
    rw [isBlock, hD, Option.any_some, hu, Option.any_some]
    exact hl.isBlock hb

lemma update {report : Report} (h : p.Accountable X) (hg : p.Graph) (hr : p.Registry)
    (hu : p.update = (.ok report, p')) : p'.Accountable fun d g => X d g ∨ g = p'.generation ∧ p'.isBlock d = true := by
  have hw := worked_upheld work (p := p) ⟨p.begin, fun _ => ⟨rfl, h.begin hg hr, fun _ _ hd => hd⟩⟩
  rw [hu] at hw
  obtain ⟨e, ⟨o, he⟩, -, -, rfl⟩ := hw
  obtain ⟨-, ha, -⟩ := he nofun
  refine ha.accounts.mono rfl rfl fun d D hD g hx => hx.imp_right fun ⟨_, hg, hblock⟩ => ⟨hg, ?_⟩
  -- The unit of a declaration that is left is not dropped.
  have hD : e.program.decl? d = some D := hD
  obtain ⟨u, hu, -, hremoved⟩ := ha.placed.listed hD
  have hkept : u.removed = false := by
    rw [Bool.eq_false_iff]
    exact fun hr => Stage.not_awaits rfl (hremoved hr)
  have hu' : (e.program.units.filter (!·.removed)).get? D.file = some u := Dict.get?_filter hu (by rw [hkept]; rfl)
  rw [isBlock, hD, Option.any_some, hu] at hblock
  show ((e.program.decl? d).any fun D => ((e.program.units.filter (!·.removed)).get? D.file).any _) = true
  rw [hD, Option.any_some, hu']
  exact hblock

lemma edit (h : p.Accountable X) (change : Edit) : (p.edit change).Accountable X := by
  cases change <;> exact h.mono rfl rfl fun _ _ _ _ hx => hx

end Program.Accountable

namespace Program

/-- In the run to `p` there is an update that left `q`. -/
def PassesBy (start : Program) (edits : List Edit) (q p : Program) : Prop :=
  ∃ before after q₀ report, edits = before ++ after ∧ Runs start before q₀ ∧ q₀.update = (.ok report, q) ∧
    Runs q after p

lemma Runs.accountable {options : Options} {backend : Backend} {edits : List Edit} {p : Program}
    (h : Runs { options, backend } edits p) : p.Accountable fun d g =>
      ∃ q, PassesBy { options, backend } edits q p ∧ q.generation = g ∧ q.isBlock d = true := by
  induction h with
  | refl => exact fun d => .gone rfl rfl
  | @edit edits p _ change ih =>
    refine (ih.edit change).mono rfl rfl fun d D _ g hx => ?_
    obtain ⟨q, ⟨before, after, q₀, report, he, hq, hu, hp⟩, hg, hb⟩ := hx
    exact ⟨q, ⟨before, after ++ [change], q₀, report, by rw [he, List.append_assoc], hq, hu, hp.edit change⟩, hg, hb⟩
  | @update edits p report p' hr hu ih =>
    have hgraph : p.Graph := (Graph.empty options backend).reaches hr.reaches
    have hregistry : p.Registry := .reaches hr.reaches
    refine (ih.update hgraph hregistry hu).mono rfl rfl fun d D _ g hx => ?_
    obtain ⟨q, ⟨before, after, q₀, r, he, hq, hq', hp⟩, hg, hb⟩ | ⟨hg, hb⟩ := hx
    · exact ⟨q, ⟨before, after, q₀, r, he, hq, hq', hp.update hu⟩, hg, hb⟩
    · exact ⟨p', ⟨edits, [], p, report, (List.append_nil _).symm, hr, hu, .refl⟩, hg.symm, hb⟩

/-- A failure is recorded just for a declaration that is there and at fault. The one exception is a declaration that was
a block at the end of the update that analyzed it last: it may be complete and still have a function whose body
failed. -/
theorem diagnostics_match_states {options : Options} {backend : Backend} {edits : List Edit} {p : Program}
    (h : Runs { options, backend } edits p) (d : DeclId) :
    ((p.failedDecls.get? d).isSome = true → ∃ D, p.decl? d = some D ∧ D.isAtFault = true) ∧
      ∀ D, p.decl? d = some D →
        (D.isAtFault = true → (p.failedDecls.get? d).isSome = true ∨ D.state = .complete ∧
          ∃ q, PassesBy { options, backend } edits q p ∧ q.generation = D.generation ∧ q.isBlock d = true) ∧
        (D.state = .dependencyFailed → p.failedDecls.get? d = none) := by
  have ha := h.accountable d
  refine ⟨ha.own, fun D hD => ⟨ha.told hD, fun hs => ha.record_eq_none hD ?_⟩⟩
  rw [Decl.isAtFault, hs]

theorem diagnostics_match_states_failed_body :
    let first := "export fn f() u8 \x7b return y; \x7d\nconst y: u8 = 30;\n"
    let second := "export fn f() u8 \x7b return y + 300; \x7d\nconst y: u8 = 30;\n"
    ∃ p D, Runs {} [.addSource "a" first, .setSource 0 second] p ∧ p.decl? 0 = some D ∧ D.isAtFault = true ∧
      ((p.failedDecls.get? 0).isSome = true ∨ D.state = .complete ∧
        ∃ q, PassesBy {} [.addSource "a" first, .setSource 0 second] q p ∧ q.generation = D.generation ∧
          q.isBlock 0 = true) := by
  intro first second
  let p := Program.edit {} (.addSource "a" first)
  let p' := p.update.2.edit (.setSource 0 second)
  obtain ⟨report, h⟩ := exists_report (p := p) (by decide +kernel)
  obtain ⟨report', h'⟩ := exists_report (p := p') (by decide +kernel)
  have hr := (((Runs.refl.edit (.addSource "a" first)).update h).edit (.setSource 0 second)).update h'
  have hfault : (p'.update.2.decl? 0).any Decl.isAtFault = true := by decide +kernel
  obtain ⟨D, hD, hf⟩ := (Option.any_eq_true _ _).1 hfault
  exact ⟨_, D, hr, hD, hf, ((diagnostics_match_states hr 0).2 D hD).1 hf⟩

/-- A block that takes over the name of a function whose body failed is complete, and no failure is recorded for it, but
it still has the function. -/
theorem block_keeps_failed_function :
    let f : Untyped.Fn := {
      code := ⟨#[.primitive .void, .fnType [] 0 .unspecified, .compileError "no"], #[]⟩, signature := ⟨[0, 1], 1⟩,
        params := [],
      body := some [2], isInline := false }
    let p := Program.edit {} (.addLowered "a" [⟨"x", true, ⟨0, 1⟩, .fn f⟩])
    let p' := p.update.2.edit (.setLowered 0 [⟨"x", false, ⟨0, 1⟩, .comptime ⟨{}, []⟩⟩])
    p.update.1.isOk = true ∧ p'.update.1.isOk = true ∧ (p'.update.2.failedDecls.get? 0).isNone = true ∧
      (p'.update.2.decl? 0).any (fun D => D.state == .complete && D.isAtFault) = true := by
  decide +kernel

end Program

end Frontend
