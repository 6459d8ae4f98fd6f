import Frontend.Proofs.Graph

/-! Declarations that wait for deletion. A declaration is flagged just if it is in the deletion set, where it stands
once. -/

namespace Frontend

namespace Program
variable {p p' : Program} {d x : DeclId} {D : Decl} {f : Decl → Decl}

structure Doomed (p : Program) : Prop where
  flagged {d : DeclId} {D : Decl} : p.decl? d = some D → (D.isDoomed = true ↔ d ∈ p.deletionSet)
  nodup : p.deletionSet.Nodup
  bound {d : DeclId} : d ∈ p.deletionSet → d < p.nextDecl

namespace Doomed

section

variable (h : p.Doomed)
include h

lemma keep (ht : p.Tracks (fun _ D D' => D'.isDoomed = D.isDoomed) p') (hs : p'.deletionSet = p.deletionSet)
    (hn : p.nextDecl ≤ p'.nextDecl) : p'.Doomed where
  flagged {d D'} hD' := by
    obtain ⟨D, hD, hflag⟩ := ht d D' hD'
    rw [hflag, hs]
    exact h.flagged hD
  nodup := by
    rw [hs]
    exact h.nodup
  bound hd := by
    rw [hs] at hd
    exact Nat.lt_of_lt_of_le (h.bound hd) hn

lemma ofDecls (hd : p'.decls = p.decls) (hs : p'.deletionSet = p.deletionSet) (hn : p'.nextDecl = p.nextDecl) :
    p'.Doomed := h.keep (.ofDecls (fun _ _ => rfl) hd) hs (Nat.le_of_eq hn.symm)

lemma modifyDecl (d : DeclId) (hf : ∀ D, (f D).isDoomed = D.isDoomed) : (p.modifyDecl d f).Doomed :=
  h.keep (.modifyDecl (fun _ _ => rfl) fun D _ => hf D) rfl (Nat.le_refl _)

lemma erase (d : DeclId) : Doomed { p with decls := p.decls.erase d } where
  flagged {x D} hD := by
    change (p.decls.erase d).get? x = some D at hD
    rw [Dict.get?_erase] at hD
    split at hD
    · cases hD
    · exact h.flagged hD
  nodup := h.nodup
  bound := h.bound

lemma register (file : FileId) (ns : NameHash) (item : ItemSummary) : (p.register file ns item).Doomed where
  flagged {x D} hD := by
    obtain ⟨hD, -⟩ | ⟨rfl, rfl⟩ := decl?_register_cases hD
    · exact h.flagged hD
    · have hfresh : p.nextDecl ∉ p.deletionSet := fun hx => Nat.lt_irrefl _ (h.bound hx)
      exact ⟨nofun, fun hx => absurd hx hfresh⟩
  nodup := h.nodup
  bound hx := Nat.lt_succ_of_lt (h.bound hx)

lemma record (d : DeclId) (diagnostic : Diagnostic) : (p.record d diagnostic).Doomed :=
  h.ofDecls rfl rfl rfl

lemma fail (scope : Scope) (span : Span) (cause : Cause) : (p.fail scope span cause).Doomed := by
  unfold Program.fail
  dsimp only
  split
  · refine record ?_ _ _
    exact h.modifyDecl _ fun _ => rfl
  · refine record ?_ _ _
    exact h.modifyDecl _ fun _ => rfl
  · exact h.ofDecls rfl rfl rfl

lemma settle (d : DeclId) (state : DeclState) :
    (p.modifyDecl d fun D => if D.isInProgress then { D with state } else D).Doomed := by
  refine h.modifyDecl d fun D => ?_
  split <;> rfl

/-! Edges. -/

lemma addEdge (a b : DeclId) : (p.addEdge a b).Doomed := by
  unfold Program.addEdge
  split
  · exact h
  · refine modifyDecl ?_ b fun _ => rfl
    exact modifyDecl h a fun _ => rfl

lemma removeEdge (a b : DeclId) : (p.removeEdge a b).Doomed := by
  refine modifyDecl ?_ b fun _ => rfl
  exact modifyDecl h a fun _ => rfl

lemma clearEdges (a : DeclId) : (p.clearEdges a).Doomed :=
  List.foldlRecOn _ _ h fun _ h b _ => h.removeEdge a b

variable (hb : ∀ {d D}, p.decl? d = some D → d < p.nextDecl)
include hb

lemma doom (d : DeclId) : (p.doom d).Doomed := by
  unfold Program.doom
  split
  · exact h
  · next D hD =>
    split
    · next hfree =>
      simp only [Bool.and_eq_true, Bool.not_eq_true'] at hfree
      have hnew : d ∉ p.deletionSet := by
        rw [← h.flagged hD, hfree.2]
        nofun
      refine ⟨fun {x X} hX => ?_, List.nodup_cons.2 ⟨hnew, h.nodup⟩, fun hx => ?_⟩
      · obtain ⟨X₀, hX₀, rfl⟩ := exists_of_decl?_modifyDecl hX
        rw [List.mem_cons]
        split
        · next hx => exact ⟨fun _ => .inl hx.symm, fun _ => rfl⟩
        · next hx => exact (h.flagged hX₀).trans ⟨.inr, fun h => h.resolve_left fun he => hx he.symm⟩
      · obtain rfl | hx := List.mem_cons.1 hx
        · exact hb hD
        · exact h.bound hx
    · exact h

lemma foldl_doom (ds : List DeclId) : (ds.foldl Program.doom p).Doomed := by
  induction ds generalizing p with
  | nil => exact h
  | cons d ds ih =>
    refine ih (h.doom hb d) fun hD => ?_
    have hw := p.doom_rewired d
    obtain ⟨D₀, hD₀, -⟩ := hw.exists_of_decl? hD
    exact hw.nextDecl ▸ hb hD₀

lemma release (a : DeclId) : (p.release a).Doomed := by
  refine (h.clearEdges a).foldl_doom (fun hD => ?_) _
  have hw := p.clearEdges_rewired a
  obtain ⟨D₀, hD₀, -⟩ := hw.exists_of_decl? hD
  exact hw.nextDecl ▸ hb hD₀

end

/-! Deletion. -/

variable {e : Engine} {rest : List DeclId}

lemma markOutdated (h : e.program.Doomed) (d : DeclId) : (e.markOutdated d).program.Doomed :=
  Engine.markOutdated_rule h ((h.modifyDecl d (f := ({ · with state := .outdated })) fun _ => rfl).ofDecls rfl rfl rfl)

lemma deleteDecl (h : e.program.Doomed) (hg : e.program.Graph) (d : DeclId) : (e.deleteDecl d).program.Doomed := by
  have orphan (users : List DeclId) {e : Engine} (h : e.program.Doomed) :
      (users.foldl (Engine.orphanUser d) e).program.Doomed :=
    users.foldlRecOn (motive := fun e : Engine => e.program.Doomed) _ h fun _ h user _ =>
      markOutdated (h.removeEdge user d) user
  unfold Engine.deleteDecl
  split
  · exact h
  · next D hD =>
    have hdetached : (e.program.detach d D).Doomed := by
      refine h.ofDecls (detach_decls ..) ?_ (detach_nextDecl ..)
      unfold detach
      dsimp only
      split <;> rfl
    have hgraph := hg.ofDecls (e.program.detach_decls d D) (e.program.detach_nextDecl d D)
    dsimp only
    generalize he : List.foldl _ _ _ = e'
    have he' : e'.program.Doomed := he ▸ orphan _ (hdetached.release hgraph.bound d)
    have hq := e'.program.forget_quiet d D
    exact (he'.erase d).ofDecls hq.decls hq.deletionSet hq.nextDecl

lemma spare (h : p.Doomed) (hs : p.deletionSet.Perm (d :: rest)) :
    Doomed ({ p with deletionSet := rest }.spare d) := by
  obtain ⟨hd, hrest⟩ := List.nodup_cons.1 (hs.nodup h.nodup)
  refine ⟨fun {x X} hX => ?_, hrest, fun hx => h.bound (hs.mem_iff.2 (List.mem_cons_of_mem _ hx))⟩
  obtain ⟨X₀, hX₀, rfl⟩ := exists_of_decl?_modifyDecl hX
  show _ ↔ x ∈ rest
  split
  · next hx =>
    subst hx
    exact ⟨nofun, fun hx => absurd hx hd⟩
  · next hx =>
    rw [h.flagged hX₀, hs.mem_iff, List.mem_cons]
    exact ⟨fun h => h.resolve_left fun he => hx he.symm, .inr⟩

lemma drainStep (h : e.program.Doomed) (hg : e.program.Graph) (hs : e.program.deletionSet.Perm (d :: rest)) :
    ((e.popped rest).drainStep d).program.Doomed := by
  have hspared := h.spare hs
  unfold Engine.drainStep
  split
  · next hn =>
    refine ⟨fun {x X} hX => ?_, (List.nodup_cons.1 (hs.nodup h.nodup)).2,
      fun hx => h.bound (hs.mem_iff.2 (List.mem_cons_of_mem _ hx))⟩
    show _ ↔ x ∈ rest
    rw [h.flagged hX, hs.mem_iff, List.mem_cons]
    refine ⟨fun hx => hx.resolve_left ?_, .inr⟩
    rintro rfl
    cases hn.symm.trans hX
  · dsimp only
    split
    · exact hspared
    · refine deleteDecl hspared ?_ d
      refine Graph.modifyDecl ?_ d (fun _ => rfl) fun _ => rfl
      exact hg.ofDecls rfl rfl

end Doomed

end Program

lemma Move.doomed {c c' : Config} (hm : Move c c') (hg : c.engine.program.Graph) (h : c.engine.program.Doomed) :
    c'.engine.program.Doomed := by
  cases hm with
  | quiet hq => exact h.ofDecls hq.decls hq.deletionSet hq.nextDecl
  | rewind | enter | install | openBody | requeue | closeBody | dropBody => exact h.modifyDecl _ fun _ => rfl
  | fail | failLate => exact h.fail _ _ _
  | depend =>
    unfold Engine.modifyProgram Program.dependencyFailed
    dsimp only
    split
    · exact h.modifyDecl _ fun _ => rfl
    · exact h.settle _ _
  | register => exact h.register _ _ _
  | edge => exact h.addEdge _ _
  | release => exact h.release hg.bound _
  | grant link header => cases header <;> exact h.modifyDecl _ fun _ => rfl
  | @withhold _ _ d _ _ e _ _ state | @refuse d _ e _ state =>
    exact (h.modifyDecl d (f := ({ · with state })) fun _ => rfl).ofDecls rfl rfl rfl
  | @finish d => exact (h.settle d .complete).ofDecls rfl rfl rfl
  | abandon => exact h.settle _ _
  | outdate | retry => exact h.markOutdated _
  | enroll =>
    dsimp only
    split <;> exact h.register _ _ _
  | refresh => exact Engine.refresh_rule (h.modifyDecl _ fun _ => rfl) fun _ h => Program.Doomed.markOutdated h _
  | again =>
    unfold Engine.repeatedItem Engine.modifyProgram
    dsimp only
    refine Program.Doomed.fail ?_ _ _ _
    exact h.modifyDecl _ fun _ => rfl
  | drop => exact h.deleteDecl hg _
  | drain hs => exact h.drainStep hg (.of_eq hs)
  | _ => exact h.ofDecls rfl rfl rfl

namespace Program.Doomed

lemma outlasts : Outlasts (fun c => c.program.Graph ∧ c.program.Doomed) (fun p => p.Graph ∧ p.Doomed)
    fun _ => True := by
  have upheld : Upheld (fun _ c => c.program.Graph ∧ c.program.Doomed) fun _ => True :=
    .ofMoves fun c c' hm h => ⟨graph_move c c' hm h.1, hm.doomed h.1 h.2⟩
  exact
    { upheld
      update := update_of_upheld (P := fun p => p.Graph ∧ p.Doomed) upheld
        (fun h => ⟨h.1.ofDecls rfl rfl, h.2.ofDecls rfl rfl rfl⟩)
        fun h => ⟨h.1.ofDecls rfl rfl, h.2.ofDecls rfl rfl rfl⟩
      addEdge := fun a b h => ⟨h.1.addEdge a b, h.2.addEdge a b⟩
      removeEdge := fun a b h => ⟨h.1.removeEdge a b, h.2.removeEdge a b⟩
      clearEdges := fun a h => ⟨h.1.clearEdges a, h.2.clearEdges a⟩ }

lemma reaches {options : Options} {backend : Backend} {allowed : Action → Prop} {p : Program}
    (h : Reaches allowed { options, backend } p) : p.Doomed := by
  refine (outlasts.reaches (fun _ h => ⟨h.1.edit _, ?_⟩) (fun _ h => ⟨h.1.ofDecls rfl rfl, h.2.ofDecls rfl rfl rfl⟩) h
    ⟨.empty options backend, nofun, .nil, nofun⟩).2
  next change _ => cases change <;> exact h.2.ofDecls rfl rfl rfl

end Program.Doomed

end Frontend
