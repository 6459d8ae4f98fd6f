import Frontend.Proofs.Reaches

/-! The dependency graph keeps its shape, whatever is done to a program. -/

namespace Frontend

namespace Program
variable {p : Program}

variable (h : p.Graph)
include h

lemma Graph.record (d : DeclId) (diagnostic : Diagnostic) : (p.record d diagnostic).Graph :=
  h.ofDecls rfl rfl

lemma Graph.fail (scope : Scope) (span : Span) (cause : Cause) : (p.fail scope span cause).Graph := by
  unfold Program.fail
  dsimp only
  split
  · refine record ?_ _ _
    exact h.modifyDecl _ (fun _ => rfl) fun _ => rfl
  · refine record ?_ _ _
    exact h.modifyDecl _ (fun _ => rfl) fun _ => rfl
  · exact h.ofDecls rfl rfl

lemma Graph.dependencyFailed (site : Analysis.Site) : (p.dependencyFailed site).Graph := by
  unfold Program.dependencyFailed
  split
  · exact h.modifyDecl _ (fun _ => rfl) fun _ => rfl
  · refine h.modifyDecl _ (fun D => ?_) fun D => ?_
    · split <;> rfl
    · split <;> rfl

lemma Graph.refuse (d : DeclId) (D : Decl) (state : DeclState) (cause : Cause) : (p.refuse d D state cause).Graph :=
  (h.modifyDecl d (f := ({ · with state })) (fun _ => rfl) fun _ => rfl).ofDecls rfl rfl

lemma Graph.finishBody (d : DeclId) (revision : Nat) (arena : Typed.Arena) (f : Function → Function) :
    (p.finishBody d revision arena f).Graph :=
  h.modifyDecl d (fun _ => rfl) fun _ => rfl

lemma Graph.finishAnalysis (d : DeclId) : (p.finishAnalysis d).Graph := by
  refine ofDecls (h.modifyDecl d (f := fun D => if D.isInProgress then { D with state := .complete } else D)
    (fun D => ?_) fun D => ?_) rfl rfl
  · split <;> rfl
  · split <;> rfl

lemma Graph.abandonAnalysis (d : DeclId) : (p.abandonAnalysis d).Graph := by
  refine h.modifyDecl d (fun D => ?_) fun D => ?_
  · split <;> rfl
  · split <;> rfl

end Program

namespace Engine
variable {e : Engine}

lemma graph_refresh (h : e.program.Graph) (d : DeclId) (D : Decl) (item : ItemSummary) :
    (e.refresh d D item).program.Graph :=
  refresh_rule (h.modifyDecl d (fun _ => rfl) fun _ => rfl) fun _ h => graph_markOutdated h d

lemma graph_repeatedItem (h : e.program.Graph) (file : FileId) (d : DeclId) (item : ItemSummary) :
    (e.repeatedItem file d item).program.Graph := by
  unfold repeatedItem modifyProgram
  dsimp only
  refine Program.Graph.fail ?_ _ _ _
  exact h.modifyDecl d (fun _ => rfl) fun _ => rfl

end Engine

lemma graph_move (c c' : Config) (hm : Move c c') (h : c.program.Graph) : c'.program.Graph := by
  cases hm with
  | quiet hq => exact h.ofDecls hq.decls hq.nextDecl
  | tear | giveUp | notice | dismiss | spare | ran | take | passOver | handOver | bodiless | asked | retried | skip
  | blank | itemize | disregard | closeUnit | opened | worked => exact h
  | collide | claim | start | openUnit | unread | read | drained => exact h.ofDecls rfl rfl
  | rewind | enter | install | openBody => exact h.modifyDecl _ (fun _ => rfl) fun _ => rfl
  | requeue arena | closeBody arena body | dropBody arena => exact h.finishBody _ _ arena _
  | fail _ span cause | failLate _ _ span cause => exact h.fail _ span cause
  | depend => exact h.dependencyFailed _
  | register => exact h.register _ _ _
  | edge => exact h.addEdge _ _
  | release => exact h.release _
  | grant link header =>
    dsimp only
    split
    · exact h.modifyDecl _ (fun _ => rfl) fun _ => rfl
    · exact h.modifyDecl _ (fun _ => rfl) fun _ => rfl
  | withhold _ _ _ cause | refuse _ _ _ cause => exact h.refuse _ _ _ cause
  | finish => exact h.finishAnalysis _
  | abandon => exact h.abandonAnalysis _
  | outdate => exact Engine.graph_markOutdated h _
  | retry d => exact Engine.graph_markOutdated h d
  | enroll =>
    dsimp only
    split
    · exact h.register _ _ _
    · exact h.register _ _ _
  | refresh => exact Engine.graph_refresh h _ _ _
  | again => exact Engine.graph_repeatedItem h _ _ _
  | drop => exact Engine.graph_deleteDecl h _
  | drain =>
    refine Engine.graph_drainStep ?_ _
    exact h.ofDecls rfl rfl

/-! Actions from outside. -/

namespace Program
variable {p : Program}

lemma Graph.edit (h : p.Graph) (change : Edit) : (p.edit change).Graph := by
  cases change <;> exact h.ofDecls rfl rfl

lemma Graph.lasting : Lasting Graph fun _ => True where
  upheld := .ofMoves graph_move
  update := update_of_upheld (.ofMoves graph_move) (fun h => h.ofDecls rfl rfl) fun h => h.ofDecls rfl rfl
  addEdge a b h := h.addEdge a b
  removeEdge a b h := h.removeEdge a b
  clearEdges a h := h.clearEdges a

lemma Graph.act (h : p.Graph) (action : Action) : (p.act action).Graph :=
  lasting.act action (fun change _ => h.edit change) h

lemma Graph.reaches {allowed : Action → Prop} {p' : Program} (h : p.Graph) (hr : Reaches allowed p p') : p'.Graph :=
  lasting.reaches (fun _ h => h.edit _) (fun _ h => h.ofDecls rfl rfl) hr h

lemma graph_acts (actions : List Action) (h : p.Graph) : (actions.foldl Program.act p).Graph :=
  actions.foldlRecOn _ h fun _ h action _ => h.act action

lemma Graph.empty (options : Options) (backend : Backend) : ({ options, backend } : Program).Graph where
  symm := by simp [depsOf, dependantsOf, decl?, Dict.get?, Dict.lookupIn]
  irrefl := by simp [depsOf, decl?, Dict.get?, Dict.lookupIn]
  bound h := nomatch h

/-- Whatever is done to a program from its beginning, an edge stands at both of its ends, between two declarations that
are there and differ. -/
theorem edges_symmetric_live_irreflexive (options : Options) (backend : Backend) (actions : List Action)
    (a b : DeclId) :
    let p := actions.foldl act { options, backend }
    (b ∈ p.depsOf a ↔ a ∈ p.dependantsOf b) ∧
      (b ∈ p.depsOf a → (p.decl? a).isSome ∧ (p.decl? b).isSome ∧ a ≠ b) := by
  intro p
  have h : p.Graph := graph_acts actions (.empty options backend)
  refine ⟨h.symm, fun hb => ⟨?_, ?_, ?_⟩⟩
  · obtain ⟨D, hD, -⟩ := mem_depsOf.1 hb
    rw [hD]
    rfl
  · obtain ⟨D, hD, -⟩ := mem_dependantsOf.1 (h.symm.1 hb)
    rw [hD]
    rfl
  · rintro rfl
    exact h.irrefl hb

end Program

end Frontend
