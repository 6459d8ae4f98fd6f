import Frontend.Proofs.Edges

/-! The deletion set gets empty. Each turn takes an entry out, and an entry put in costs an edge; so entries and edges
together become fewer. -/

attribute [local instance (high)] Zero.ofOfNat0

namespace Frontend

namespace Dict
variable {κ α : Type} [DecidableEq κ] {d : Dict κ α} {k : κ} {a : α} {g : α → α} {w : α → Nat}

lemma sum_modify_le (h : ∀ a, w (g a) ≤ w a) : ((d.modify k g).values.map w).sum ≤ (d.values.map w).sum := by
  obtain ⟨entries⟩ := d
  unfold modify values
  induction entries with
  | nil => exact Nat.le_refl 0
  | cons entry rest ih =>
    simp only [List.map_cons, List.sum_cons] at ih ⊢
    refine Nat.add_le_add ?_ ih
    split
    · exact h entry.2
    · exact Nat.le_refl _

lemma sum_modify_add_le (h : ∀ a, w (g a) ≤ w a) (hk : d.get? k = some a) :
    ((d.modify k g).values.map w).sum + w a ≤ (d.values.map w).sum + w (g a) := by
  obtain ⟨entries⟩ := d
  induction entries with
  | nil => cases hk
  | cons entry rest ih =>
    have hle : ((modify ⟨rest⟩ k g).values.map w).sum ≤ (values ⟨rest⟩ |>.map w).sum := sum_modify_le h
    unfold get? lookupIn at hk
    unfold modify values at ih hle ⊢
    simp only [List.map_cons, List.sum_cons] at ih hle ⊢
    split at hk
    · next he =>
      cases hk
      rw [if_pos he]
      dsimp only
      omega
    · next he =>
      have ih := ih hk
      rw [if_neg he]
      omega

lemma sum_erase_le : ((d.erase k).values.map w).sum ≤ (d.values.map w).sum := by
  obtain ⟨entries⟩ := d
  unfold erase values
  induction entries with
  | nil => exact Nat.le_refl 0
  | cons entry rest ih =>
    rw [List.filter_cons]
    split
    · simp only [List.map_cons, List.sum_cons] at ih ⊢
      omega
    · simp only [List.map_cons, List.sum_cons] at ih ⊢
      omega

end Dict

namespace Program
variable {p : Program} {a b d : DeclId}

def edgeCount (p : Program) : Nat := (p.decls.values.map (·.deps.elems.length)).sum

def burden (p : Program) : Nat := p.deletionSet.length + p.edgeCount

lemma edgeCount_removeEdge :
    (p.removeEdge a b).edgeCount + (p.depsOf a).length ≤ p.edgeCount + ((p.removeEdge a b).depsOf a).length := by
  have hw (D : Decl) : (D.deps.erase b).elems.length ≤ D.deps.elems.length := List.length_filter_le ..
  have hu (q : Program) : (q.modifyDecl b fun D => { D with dependants := D.dependants.erase a }).edgeCount ≤
      q.edgeCount := Dict.sum_modify_le fun _ => Nat.le_refl _
  have hb := hu (p.modifyDecl a fun D => { D with deps := D.deps.erase b })
  have hdeps : (p.removeEdge a b).depsOf a = (p.modifyDecl a fun D => { D with deps := D.deps.erase b }).depsOf a :=
    depsOf_modifyDecl fun _ => rfl
  rw [hdeps]
  unfold removeEdge
  unfold depsOf
  rw [decl?_modifyDecl_self]
  cases hD : p.decl? a with
  | none =>
    have ha : (p.modifyDecl a fun D => { D with deps := D.deps.erase b }).edgeCount ≤ p.edgeCount :=
      Dict.sum_modify_le hw
    exact Nat.le_trans hb ha
  | some D =>
    have ha : (p.modifyDecl a fun D => { D with deps := D.deps.erase b }).edgeCount + D.deps.elems.length ≤
        p.edgeCount + (D.deps.erase b).elems.length := Dict.sum_modify_add_le hw hD
    exact Nat.le_trans (Nat.add_le_add_right hb _) ha

lemma edgeCount_clearEdges : (p.clearEdges a).edgeCount + (p.depsOf a).length ≤ p.edgeCount := by
  have fold (bs : List DeclId) (p : Program) :
      (bs.foldl (fun p b => p.removeEdge a b) p).edgeCount + (p.depsOf a).length ≤
        p.edgeCount + ((bs.foldl (fun p b => p.removeEdge a b) p).depsOf a).length := by
    induction bs generalizing p with
    | nil => exact Nat.le_refl _
    | cons b bs ih =>
      have h₁ := edgeCount_removeEdge (p := p) (a := a) (b := b)
      have h₂ := ih (p.removeEdge a b)
      rw [List.foldl_cons]
      omega
  have hnil : (p.clearEdges a).depsOf a = [] := by
    refine List.eq_nil_iff_forall_not_mem.2 fun y hy => ?_
    exact (mem_depsOf_clearEdges.1 hy).2 rfl
  have h := fold (p.depsOf a) p
  rw [clearEdges] at hnil
  rwa [hnil] at h

lemma burden_doom : (p.doom d).burden ≤ p.burden + 1 := by
  unfold doom
  split
  · exact Nat.le_succ _
  · split
    · have h : (p.modifyDecl d fun D => { D with isDoomed := true }).edgeCount ≤ p.edgeCount :=
        Dict.sum_modify_le fun _ => Nat.le_refl _
      unfold burden edgeCount at *
      dsimp only at *
      rw [List.length_cons]
      omega
    · exact Nat.le_succ _

lemma deletionSet_clearEdges (p : Program) (a : DeclId) : (p.clearEdges a).deletionSet = p.deletionSet :=
  List.foldlRecOn (motive := fun q : Program => q.deletionSet = p.deletionSet) _ _ rfl fun _ h _ _ => h

lemma burden_release : (p.release a).burden ≤ p.burden := by
  have fold (ds : List DeclId) (p : Program) : (ds.foldl doom p).burden ≤ p.burden + ds.length := by
    induction ds generalizing p with
    | nil => exact Nat.le_refl _
    | cons d ds ih =>
      have h₁ := ih (p.doom d)
      have h₂ := burden_doom (p := p) (d := d)
      rw [List.foldl_cons, List.length_cons]
      omega
  have hset := p.deletionSet_clearEdges a
  have h₁ := fold (p.depsOf a) (p.clearEdges a)
  have h₂ := edgeCount_clearEdges (p := p) (a := a)
  unfold release
  unfold burden at *
  rw [hset] at h₁
  omega

end Program

namespace Engine
variable {e : Engine} {d : DeclId}

lemma burden_deleteDecl {D : Decl} (hD : e.program.decl? d = some D) (hu : D.dependants.isEmpty = true) :
    (e.deleteDecl d).program.burden ≤ e.program.burden := by
  have hdecls : (e.program.detach d D).decls = e.program.decls := e.program.detach_decls d D
  have hset : (e.program.detach d D).deletionSet = e.program.deletionSet := by
    unfold Program.detach
    dsimp only
    split <;> rfl
  rw [deleteDecl_of_unused hD hu, modifyProgram]
  have hr : ((e.program.detach d D).release d).burden ≤ (e.program.detach d D).burden := Program.burden_release
  have hq := Program.forget_quiet ((e.program.detach d D).release d) d D
  have he : ∀ q : Program, ((q.decls.erase d).values.map (·.deps.elems.length)).sum ≤ q.edgeCount :=
    fun q => Dict.sum_erase_le
  have he := he ((e.program.detach d D).release d)
  unfold Program.burden Program.edgeCount at *
  rw [hdecls, hset] at hr
  rw [hq.decls, hq.deletionSet]
  dsimp only
  omega

lemma burden_drainStep : (e.drainStep d).program.burden ≤ e.program.burden := by
  unfold drainStep
  split
  · exact Nat.le_refl _
  · next D hD =>
    have hm : (e.program.spare d).burden ≤ e.program.burden := by
      refine Nat.add_le_add_left ?_ _
      exact Dict.sum_modify_le fun _ => Nat.le_refl _
    dsimp only
    split
    · exact hm
    · next h =>
      have hu : D.dependants.isEmpty = true := by
        simp only [Bool.or_eq_true, Bool.not_eq_true', not_or, Bool.not_eq_false] at h
        exact h.1
      refine Nat.le_trans (burden_deleteDecl (D := { D with isDoomed := false }) ?_ hu) hm
      rw [modifyProgram, Program.decl?_modifyDecl_self, hD]
      rfl

lemma drainWith_deletionSet (fuel : Nat) (h : e.program.burden ≤ fuel) :
    (drainWith fuel e).program.deletionSet = [] := by
  induction fuel generalizing e with
  | zero =>
    unfold Program.burden at h
    exact List.eq_nil_of_length_eq_zero (by unfold drainWith; omega)
  | succ fuel ih =>
    unfold drainWith
    split
    · next hs => exact hs
    · next d rest hs =>
      refine ih (Nat.le_trans burden_drainStep ?_)
      have hb : e.program.burden = rest.length + 1 + e.program.edgeCount := by
        rw [Program.burden, hs, List.length_cons]
      have hr : ({ e.program with deletionSet := rest } : Program).burden = rest.length + e.program.edgeCount := rfl
      rw [modifyProgram, hr]
      omega

lemma drain_deletionSet (e : Engine) : e.drain.program.deletionSet = [] := drainWith_deletionSet _ (Nat.le_refl _)

end Engine

end Frontend
