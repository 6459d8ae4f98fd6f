import Frontend.Proofs.Program

/-! The edges of the dependency graph under the operations on a program, and the shape they keep: each edge stands at
both of its ends, and no declaration uses itself. -/

namespace Frontend

namespace Program

variable {p p' : Program} {a b d x y : DeclId} {f : Decl → Decl}

lemma mem_depsOf : b ∈ p.depsOf a ↔ ∃ D, p.decl? a = some D ∧ b ∈ D.deps := by
  unfold depsOf
  cases p.decl? a with
  | none => simp
  | some D => exact ⟨fun h => ⟨D, rfl, h⟩, fun ⟨_, hD, h⟩ => Option.some.inj hD ▸ h⟩

lemma mem_dependantsOf : a ∈ p.dependantsOf b ↔ ∃ D, p.decl? b = some D ∧ a ∈ D.dependants := by
  unfold dependantsOf
  cases p.decl? b with
  | none => simp
  | some D => exact ⟨fun h => ⟨D, rfl, h⟩, fun ⟨_, hD, h⟩ => Option.some.inj hD ▸ h⟩

lemma depsOf_modifyDecl (hf : ∀ D, (f D).deps = D.deps) : (p.modifyDecl d f).depsOf x = p.depsOf x := by
  unfold depsOf
  rw [decl?_modifyDecl]
  split
  · cases p.decl? x with
    | none => rfl
    | some D => exact congrArg OrdSet.elems (hf D)
  · rfl

lemma dependantsOf_modifyDecl (hf : ∀ D, (f D).dependants = D.dependants) :
    (p.modifyDecl d f).dependantsOf x = p.dependantsOf x := by
  unfold dependantsOf
  rw [decl?_modifyDecl]
  split
  · cases p.decl? x with
    | none => rfl
    | some D => exact congrArg OrdSet.elems (hf D)
  · rfl

lemma mem_depsOf_modifyDecl :
    y ∈ (p.modifyDecl d f).depsOf x ↔ if d = x then ∃ D, p.decl? x = some D ∧ y ∈ (f D).deps else y ∈ p.depsOf x := by
  rw [mem_depsOf, decl?_modifyDecl]
  split
  · simp
  · exact mem_depsOf.symm

lemma mem_dependantsOf_modifyDecl :
    y ∈ (p.modifyDecl d f).dependantsOf x ↔
      if d = x then ∃ D, p.decl? x = some D ∧ y ∈ (f D).dependants else y ∈ p.dependantsOf x := by
  rw [mem_dependantsOf, decl?_modifyDecl]
  split
  · simp
  · exact mem_dependantsOf.symm

/-! Adding and removing edges. -/

lemma addEdge_of (h : a ≠ b ∧ p.decls.contains a ∧ p.decls.contains b) :
    p.addEdge a b = (p.modifyDecl a fun D => { D with deps := D.deps.insert b }).modifyDecl b fun D =>
      { D with dependants := D.dependants.insert a } := by
  unfold addEdge
  rw [if_neg (by simp [h])]

lemma addEdge_of_not (h : ¬ (a ≠ b ∧ p.decls.contains a ∧ p.decls.contains b)) : p.addEdge a b = p := by
  unfold addEdge
  rw [if_pos]
  by_contra hn
  simp only [Bool.or_eq_true, decide_eq_true_eq, Bool.not_eq_true', not_or, Bool.not_eq_false] at hn
  exact h ⟨hn.1.1, hn.1.2, hn.2⟩

lemma mem_depsOf_addEdge : y ∈ (p.addEdge a b).depsOf x ↔
    y ∈ p.depsOf x ∨ x = a ∧ y = b ∧ a ≠ b ∧ p.decls.contains a ∧ p.decls.contains b := by
  by_cases h : a ≠ b ∧ p.decls.contains a ∧ p.decls.contains b
  · rw [addEdge_of h, depsOf_modifyDecl, mem_depsOf_modifyDecl]
    · have ⟨D, hD⟩ := Option.isSome_iff_exists.1 h.2.1
      split
      · next hx =>
        subst hx
        simp only [mem_depsOf, decl?, hD, Option.some.injEq, exists_eq_left', OrdSet.mem_insert]
        grind
      · grind
    · exact fun _ => rfl
  · rw [addEdge_of_not h]
    grind

lemma mem_dependantsOf_addEdge : y ∈ (p.addEdge a b).dependantsOf x ↔
    y ∈ p.dependantsOf x ∨ x = b ∧ y = a ∧ a ≠ b ∧ p.decls.contains a ∧ p.decls.contains b := by
  by_cases h : a ≠ b ∧ p.decls.contains a ∧ p.decls.contains b
  · rw [addEdge_of h, mem_dependantsOf_modifyDecl]
    split
    · next hx =>
      subst hx
      obtain ⟨D, hD⟩ := Option.isSome_iff_exists.1 h.2.2
      rw [decl?_modifyDecl_of_ne h.1]
      simp only [mem_dependantsOf, decl?, hD, Option.some.injEq, exists_eq_left', OrdSet.mem_insert]
      grind
    · rw [dependantsOf_modifyDecl]
      · grind
      · exact fun _ => rfl
  · rw [addEdge_of_not h]
    grind

lemma mem_depsOf_removeEdge : y ∈ (p.removeEdge a b).depsOf x ↔ y ∈ p.depsOf x ∧ ¬ (x = a ∧ y = b) := by
  unfold removeEdge
  rw [depsOf_modifyDecl, mem_depsOf_modifyDecl]
  · split
    · next hx =>
      subst hx
      simp only [mem_depsOf, OrdSet.mem_erase]
      grind
    · grind
  · exact fun _ => rfl

lemma mem_dependantsOf_removeEdge :
    y ∈ (p.removeEdge a b).dependantsOf x ↔ y ∈ p.dependantsOf x ∧ ¬ (x = b ∧ y = a) := by
  unfold removeEdge
  have ha : ∀ y, y ∈ (p.modifyDecl a fun D => { D with deps := D.deps.erase b }).dependantsOf x ↔
      y ∈ p.dependantsOf x := by
    intro y
    rw [dependantsOf_modifyDecl]
    exact fun _ => rfl
  rw [mem_dependantsOf_modifyDecl]
  split
  · next hx =>
    subst hx
    simp only [OrdSet.mem_erase, ← ha, mem_dependantsOf]
    grind
  · grind

lemma mem_depsOf_foldl_removeEdge (bs : List DeclId) :
    y ∈ (bs.foldl (fun p b => p.removeEdge a b) p).depsOf x ↔ y ∈ p.depsOf x ∧ ¬ (x = a ∧ y ∈ bs) := by
  induction bs generalizing p with
  | nil => simp
  | cons b bs ih =>
    rw [List.foldl_cons, ih, mem_depsOf_removeEdge]
    grind

lemma mem_dependantsOf_foldl_removeEdge (bs : List DeclId) :
    y ∈ (bs.foldl (fun p b => p.removeEdge a b) p).dependantsOf x ↔
      y ∈ p.dependantsOf x ∧ ¬ (x ∈ bs ∧ y = a) := by
  induction bs generalizing p with
  | nil => simp
  | cons b bs ih =>
    rw [List.foldl_cons, ih, mem_dependantsOf_removeEdge]
    grind

lemma mem_depsOf_clearEdges : y ∈ (p.clearEdges a).depsOf x ↔ y ∈ p.depsOf x ∧ x ≠ a := by
  rw [clearEdges, mem_depsOf_foldl_removeEdge]
  grind

lemma mem_dependantsOf_clearEdges :
    y ∈ (p.clearEdges a).dependantsOf x ↔ y ∈ p.dependantsOf x ∧ ¬ (y = a ∧ x ∈ p.depsOf a) := by
  rw [clearEdges, mem_dependantsOf_foldl_removeEdge]
  grind

lemma depsOf_doom : (p.doom d).depsOf x = p.depsOf x := by
  unfold doom
  split
  · rfl
  · split
    · exact depsOf_modifyDecl fun _ => rfl
    · rfl

lemma dependantsOf_doom : (p.doom d).dependantsOf x = p.dependantsOf x := by
  unfold doom
  split
  · rfl
  · split
    · exact dependantsOf_modifyDecl fun _ => rfl
    · rfl

lemma mem_depsOf_release : y ∈ (p.release a).depsOf x ↔ y ∈ p.depsOf x ∧ x ≠ a := by
  have fold (ds : List DeclId) (p : Program) : (ds.foldl doom p).depsOf x = p.depsOf x :=
    ds.foldlRecOn (motive := fun q : Program => q.depsOf x = p.depsOf x) _ rfl fun _ h _ _ => (depsOf_doom ..).trans h
  rw [release, fold, mem_depsOf_clearEdges]

lemma mem_dependantsOf_release :
    y ∈ (p.release a).dependantsOf x ↔ y ∈ p.dependantsOf x ∧ ¬ (y = a ∧ x ∈ p.depsOf a) := by
  have fold (ds : List DeclId) (p : Program) : (ds.foldl doom p).dependantsOf x = p.dependantsOf x :=
    ds.foldlRecOn (motive := fun q : Program => q.dependantsOf x = p.dependantsOf x) _ rfl fun _ h _ _ =>
      (dependantsOf_doom ..).trans h
  rw [release, fold, mem_dependantsOf_clearEdges]

/-! The shape of the graph. -/

/-- Each edge stands at both of its ends, and no declaration uses itself. Numbers are given out once. -/
structure Graph (p : Program) : Prop where
  symm {a b : DeclId} : b ∈ p.depsOf a ↔ a ∈ p.dependantsOf b
  irrefl {a : DeclId} : a ∉ p.depsOf a
  bound {d : DeclId} {D : Decl} : p.decl? d = some D → d < p.nextDecl

namespace Graph

variable (h : p.Graph)
include h

lemma same (hd : ∀ x, p'.depsOf x = p.depsOf x) (hu : ∀ x, p'.dependantsOf x = p.dependantsOf x)
    (hb : ∀ {d D}, p'.decl? d = some D → d < p'.nextDecl) : p'.Graph where
  symm {a b} := by
    rw [hd, hu]
    exact h.symm
  irrefl {a} := by
    rw [hd]
    exact h.irrefl
  bound := hb

lemma ofDecls (hd : p'.decls = p.decls) (hn : p'.nextDecl = p.nextDecl) : p'.Graph := by
  have hx (x : DeclId) : p'.decl? x = p.decl? x := congrArg (·.get? x) hd
  refine h.same (fun x => ?_) (fun x => ?_) fun hD => ?_
  · rw [depsOf, hx, depsOf]
  · rw [dependantsOf, hx, dependantsOf]
  · rw [hn]
    exact h.bound (hx _ ▸ hD)

lemma modifyDecl (d : DeclId) (hd : ∀ D, (f D).deps = D.deps) (hu : ∀ D, (f D).dependants = D.dependants) :
    (p.modifyDecl d f).Graph := by
  refine h.same (fun _ => depsOf_modifyDecl hd) (fun _ => dependantsOf_modifyDecl hu) fun hD => ?_
  obtain ⟨D₀, hD₀, -⟩ := exists_of_decl?_modifyDecl hD
  exact h.bound hD₀

lemma rewire (hw : p.Rewired p') (hs : ∀ {a b}, b ∈ p'.depsOf a ↔ a ∈ p'.dependantsOf b) (hi : ∀ {a}, a ∉ p'.depsOf a) :
    p'.Graph where
  symm := hs
  irrefl := hi
  bound := by
    intro d D hD
    obtain ⟨D₀, hD₀, -⟩ := hw.exists_of_decl? hD
    rw [hw.nextDecl]
    exact h.bound hD₀

lemma addEdge (a b : DeclId) : (p.addEdge a b).Graph := by
  refine h.rewire (p.addEdge_rewired a b) ?_ ?_
  · intro x y
    rw [mem_depsOf_addEdge, mem_dependantsOf_addEdge, h.symm]
    grind
  · intro x
    rw [mem_depsOf_addEdge]
    have := @h.irrefl x
    grind

lemma removeEdge (a b : DeclId) : (p.removeEdge a b).Graph := by
  refine h.rewire (p.removeEdge_rewired a b) ?_ ?_
  · intro x y
    rw [mem_depsOf_removeEdge, mem_dependantsOf_removeEdge, h.symm]
    grind
  · intro x hx
    exact h.irrefl (mem_depsOf_removeEdge.1 hx).1

lemma clearEdges (a : DeclId) : (p.clearEdges a).Graph := by
  refine h.rewire (p.clearEdges_rewired a) ?_ ?_
  · intro x y
    rw [mem_depsOf_clearEdges, mem_dependantsOf_clearEdges, h.symm]
    have := @h.symm a y
    grind
  · intro x hx
    exact h.irrefl (mem_depsOf_clearEdges.1 hx).1

lemma release (a : DeclId) : (p.release a).Graph := by
  refine h.rewire (p.release_rewired a) ?_ ?_
  · intro x y
    rw [mem_depsOf_release, mem_dependantsOf_release, h.symm]
    have := @h.symm a y
    grind
  · intro x hx
    exact h.irrefl (mem_depsOf_release.1 hx).1

lemma register (file : FileId) (ns : NameHash) (item : ItemSummary) : (p.register file ns item).Graph := by
  have hnew : p.decl? p.nextDecl = none := by
    cases hD : p.decl? p.nextDecl with
    | none => rfl
    | some D => exact absurd (h.bound hD) (Nat.lt_irrefl _)
  obtain ⟨D, hD⟩ : ∃ D : Decl, (∀ x, (p.register file ns item).decl? x =
      if p.nextDecl = x then some D else p.decl? x) ∧ D.deps = {} ∧ D.dependants = {} :=
    ⟨_, fun x => Dict.get?_insert p.decls p.nextDecl x _, rfl, rfl⟩
  refine h.same (fun x => ?_) (fun x => ?_) fun {d D'} hD' => ?_
  · rw [depsOf, hD.1, depsOf]
    split
    · next hx =>
      rw [← hx, hnew, Option.map_some, hD.2.1]
      rfl
    · rfl
  · rw [dependantsOf, hD.1, dependantsOf]
    split
    · next hx =>
      rw [← hx, hnew, Option.map_some, hD.2.2]
      rfl
    · rfl
  · rw [hD.1] at hD'
    show d < p.nextDecl + 1
    split at hD'
    · next hx => exact hx ▸ Nat.lt_succ_self _
    · exact Nat.lt_succ_of_lt (h.bound hD')

lemma erase (hd : p.depsOf d = []) (hu : p.dependantsOf d = []) :
    ({ p with decls := p.decls.erase d } : Program).Graph := by
  have hx (x : DeclId) : ({ p with decls := p.decls.erase d } : Program).decl? x =
      if d = x then none else p.decl? x := Dict.get?_erase p.decls d x
  refine h.same (fun x => ?_) (fun x => ?_) fun hD => ?_
  · rw [depsOf, hx]
    split
    · next h => exact h ▸ hd.symm
    · rfl
  · rw [dependantsOf, hx]
    split
    · next h => exact h ▸ hu.symm
    · rfl
  · rw [hx] at hD
    split at hD
    · cases hD
    · exact h.bound hD

end Graph

lemma detach_decls (p : Program) (d : DeclId) (D : Decl) : (p.detach d D).decls = p.decls := by
  unfold detach
  dsimp only
  split <;> rfl

lemma detach_nextDecl (p : Program) (d : DeclId) (D : Decl) : (p.detach d D).nextDecl = p.nextDecl := by
  unfold detach
  dsimp only
  split <;> rfl

end Program

/-! The same of engines. -/

namespace Engine

variable {e : Engine} {d x y user : DeclId} {D : Decl}

/-- A declaration is detached, its users lose their edges and are marked, and what is left of it is forgotten. What
changes of edges and marks keep holds before the last step. -/
theorem deleteDecl_through {P : Engine → Prop} (hw : ∀ {e : Engine} {p' : Program}, e.program.Rewired p' →
      (∀ x y, y ∈ p'.depsOf x → y ∈ e.program.depsOf x) → P e → P { e with program := p' })
    (hm : ∀ {e' : Engine} (x : DeclId), x ∈ e.program.dependantsOf d → P e' → P (e'.markOutdated x))
    (hD : e.program.decl? d = some D) (h : P (e.modifyProgram (·.detach d D))) :
    ∃ e₁, P e₁ ∧ e.deleteDecl d = e₁.modifyProgram (·.forget d D) := by
  unfold deleteDecl
  rw [hD]
  refine ⟨_, List.foldlRecOn _ _ (hw (Program.release_rewired ..) (fun _ _ h => (Program.mem_depsOf_release.1 h).1) h)
    fun e' h x hx => hm x ?_ (hw (e'.program.removeEdge_rewired x d)
      (fun _ _ h => (Program.mem_depsOf_removeEdge.1 h).1) h),
    rfl⟩
  have hx := (Program.mem_dependantsOf_release.1 hx).1
  rwa [Program.dependantsOf, Program.decl?, Program.detach_decls] at hx

lemma deleteDecl_of (hD : e.program.decl? d = some D) :
    ∃ e₁, (e.modifyProgram (·.detach d D)).Marks e₁ ∧ e.deleteDecl d = e₁.modifyProgram (·.forget d D) :=
  deleteDecl_through (fun hr _ h => h.trans (.ofRewired hr)) (fun x _ h => h.trans (.markOutdated _ x)) hD
    (.ofRewired (.refl _))

lemma deleteDecl_of_none (hD : e.program.decl? d = none) : e.deleteDecl d = e := by
  unfold deleteDecl
  rw [hD]

lemma deleteDecl_gone (e : Engine) (d : DeclId) : (e.deleteDecl d).program.decl? d = none := by
  cases hD : e.program.decl? d with
  | none => rwa [deleteDecl_of_none hD]
  | some D =>
    obtain ⟨e₁, hm, he⟩ := deleteDecl_of hD
    rw [he]
    exact (e₁.program.decl?_forget d d D).trans (if_pos rfl)

lemma deleteDecl_rule {P : Program → Prop} (h : P e.program)
    (hd : ∀ D, e.program.decl? d = some D → P (e.program.detach d D))
    (hw : ∀ {p p' : Program}, p.Rewired p' → P p → P p')
    (hm : ∀ (e : Engine) (x : DeclId), P e.program → P (e.markOutdated x).program)
    (hf : ∀ (p : Program) (D : Decl), P p → P (p.forget d D)) : P (e.deleteDecl d).program := by
  cases hD : e.program.decl? d with
  | none => rwa [deleteDecl_of_none hD]
  | some D =>
    obtain ⟨e₁, h₁, he⟩ :=
      deleteDecl_through (P := fun e => P e.program) (fun hr _ => hw hr) (fun x _ => hm _ x) hD (hd D hD)
    rw [he]
    exact hf _ D h₁

lemma deleteDecl_of_marks {P : Program → Prop} (h : P e.program) (hd : ∀ D, P (e.program.detach d D))
    (hm : ∀ {e e' : Engine}, e.Marks e' → P e.program → P e'.program)
    (hf : ∀ (p : Program) (D : Decl), P p → P (p.forget d D)) : P (e.deleteDecl d).program :=
  deleteDecl_rule h (fun D _ => hd D) (fun {p _} hw => hm (e := ⟨p, {}⟩) (.ofRewired hw))
    (fun e x => hm (.markOutdated e x)) hf

lemma depsOf_markOutdated : (e.markOutdated d).program.depsOf x = e.program.depsOf x :=
  markOutdated_rule (P := fun p => p.depsOf x = e.program.depsOf x) rfl (Program.depsOf_modifyDecl fun _ => rfl)

lemma dependantsOf_markOutdated : (e.markOutdated d).program.dependantsOf x = e.program.dependantsOf x :=
  markOutdated_rule (P := fun p => p.dependantsOf x = _) rfl (Program.dependantsOf_modifyDecl fun _ => rfl)

lemma graph_markOutdated (h : e.program.Graph) (d : DeclId) : (e.markOutdated d).program.Graph :=
  markOutdated_rule h
    ((h.modifyDecl d (f := ({ · with state := .outdated })) (fun _ => rfl) fun _ => rfl).ofDecls rfl rfl)

lemma mem_depsOf_orphanUsers (users : List DeclId) :
    y ∈ (users.foldl (orphanUser d) e).program.depsOf x ↔ y ∈ e.program.depsOf x ∧ ¬ (x ∈ users ∧ y = d) := by
  induction users generalizing e with
  | nil => simp
  | cons user users ih =>
    rw [List.foldl_cons, ih, orphanUser, depsOf_markOutdated, modifyProgram, Program.mem_depsOf_removeEdge]
    grind

lemma mem_dependantsOf_orphanUsers (users : List DeclId) :
    y ∈ (users.foldl (orphanUser d) e).program.dependantsOf x ↔
      y ∈ e.program.dependantsOf x ∧ ¬ (x = d ∧ y ∈ users) := by
  induction users generalizing e with
  | nil => simp
  | cons user users ih =>
    rw [List.foldl_cons, ih, orphanUser, dependantsOf_markOutdated, modifyProgram,
      Program.mem_dependantsOf_removeEdge]
    grind

lemma graph_orphanUsers (h : e.program.Graph) (users : List DeclId) :
    (users.foldl (orphanUser d) e).program.Graph :=
  users.foldlRecOn (motive := fun e : Engine => e.program.Graph) _ h fun _ h user _ =>
    graph_markOutdated (h.removeEdge user d) user

lemma graph_deleteDecl (h : e.program.Graph) (d : DeclId) : (e.deleteDecl d).program.Graph := by
  unfold deleteDecl
  split
  · exact h
  · next D hD =>
    have h₁ : ((e.program.detach d D).release d).Graph :=
      (h.ofDecls (e.program.detach_decls d D) (e.program.detach_nextDecl d D)).release d
    dsimp only
    generalize he₁ : e.modifyProgram (fun p => (p.detach d D).release d) = e₁
    replace h₁ : e₁.program.Graph := he₁ ▸ h₁
    have h₂ := graph_orphanUsers (d := d) h₁ (e₁.program.dependantsOf d)
    -- By now nothing uses the declaration, and it uses nothing.
    have hdeps : ((e₁.program.dependantsOf d).foldl (orphanUser d) e₁).program.depsOf d = [] := by
      refine List.eq_nil_iff_forall_not_mem.2 fun y hy => ?_
      have hy := (mem_depsOf_orphanUsers _).1 hy
      rw [← he₁, modifyProgram, Program.mem_depsOf_release] at hy
      exact hy.1.2 rfl
    have husers : ((e₁.program.dependantsOf d).foldl (orphanUser d) e₁).program.dependantsOf d = [] := by
      refine List.eq_nil_iff_forall_not_mem.2 fun y hy => ?_
      have hy := (mem_dependantsOf_orphanUsers _).1 hy
      exact hy.2 ⟨rfl, hy.1⟩
    have hq := Program.forget_quiet ((e₁.program.dependantsOf d).foldl (orphanUser d) e₁).program d D
    exact (h₂.erase hdeps husers).ofDecls hq.decls hq.nextDecl

lemma deleteDecl_of_unused {D : Decl} (hD : e.program.decl? d = some D) (hu : D.dependants.isEmpty = true) :
    e.deleteDecl d = e.modifyProgram fun p => ((p.detach d D).release d).forget d D := by
  have hnil : ((e.program.detach d D).release d).dependantsOf d = [] := by
    refine List.eq_nil_iff_forall_not_mem.2 fun y hy => ?_
    obtain ⟨D', hD', hy⟩ := Program.mem_dependantsOf.1 (Program.mem_dependantsOf_release.1 hy).1
    rw [Program.decl?, Program.detach_decls] at hD'
    cases hD.symm.trans hD'
    rw [OrdSet.isEmpty, List.isEmpty_iff] at hu
    have hy : y ∈ D.dependants.elems := hy
    rw [hu] at hy
    cases hy
  unfold deleteDecl
  rw [hD]
  dsimp only [modifyProgram]
  rw [hnil, List.foldl_nil]

lemma drainStep_turns (e : Engine) (d : DeclId) :
    (e.program.decl? d = none ∧ e.drainStep d = e) ∨
      (∃ D, e.program.decl? d = some D ∧ (D.isRoot = true ∨ D.dependants.elems ≠ []) ∧
        e.drainStep d = e.modifyProgram (·.spare d)) ∨
      ∃ D, e.program.decl? d = some D ∧ D.isRoot = false ∧ D.dependants.elems = [] ∧
        e.drainStep d = (e.modifyProgram (·.spare d)).deleteDecl d := by
  unfold drainStep
  split
  · next hn => exact .inl ⟨hn, rfl⟩
  · next D hD =>
    dsimp only
    split
    · next hkept =>
      refine .inr (.inl ⟨D, hD, ?_, rfl⟩)
      simpa [OrdSet.isEmpty, or_comm] using hkept
    · next hfree =>
      simp only [Bool.or_eq_true, Bool.not_eq_true', not_or, Bool.not_eq_false, Bool.not_eq_true] at hfree
      exact .inr (.inr ⟨D, hD, hfree.2, List.isEmpty_iff.1 hfree.1, rfl⟩)

lemma deleteDecl_of_spared {D : Decl} (hD : e.program.decl? d = some D) (hu : D.dependants.elems = []) :
    (e.modifyProgram (·.spare d)).deleteDecl d = e.modifyProgram fun p =>
      (((p.spare d).detach d { D with isDoomed := false }).release d).forget d
        { D with isDoomed := false } := by
  have hspared : (e.modifyProgram (·.spare d)).program.decl? d =
      some { D with isDoomed := false } := (Program.decl?_modifyDecl_self ..).trans (congrArg _ hD)
  exact deleteDecl_of_unused hspared (List.isEmpty_iff.2 hu)

lemma drainStep_cases (e : Engine) (d : DeclId) :
    e.drainStep d = e ∨ e.drainStep d = e.modifyProgram (·.spare d) ∨
      ∃ D, e.drainStep d = e.modifyProgram fun p =>
        (((p.spare d).detach d D).release d).forget d D := by
  obtain ⟨-, he⟩ | ⟨D, -, -, he⟩ | ⟨D, hD, -, hu, he⟩ := e.drainStep_turns d
  · exact .inl he
  · exact .inr (.inl he)
  · exact .inr (.inr ⟨_, he.trans (deleteDecl_of_spared hD hu)⟩)

lemma deleteDecl_nextDecl (e : Engine) (d : DeclId) : (e.deleteDecl d).program.nextDecl = e.program.nextDecl :=
  deleteDecl_of_marks (P := (·.nextDecl = _)) rfl (Program.detach_nextDecl _ d) (fun hm h => hm.nextDecl.trans h)
    fun p D h => (p.forget_quiet d D).nextDecl.trans h

lemma drainStep_nextDecl (e : Engine) (d : DeclId) : (e.drainStep d).program.nextDecl = e.program.nextDecl :=
  drainStep_rule (P := (·.nextDecl = _)) rfl rfl fun e h => (e.deleteDecl_nextDecl d).trans h

lemma refresh_nextDecl (e : Engine) (d : DeclId) (D : Decl) (item : ItemSummary) :
    (e.refresh d D item).program.nextDecl = e.program.nextDecl :=
  refresh_rule (P := (·.nextDecl = _)) rfl fun e h => (Marks.markOutdated e d).nextDecl.trans h

lemma drainStep_queue (e : Engine) (d : DeclId) : (e.drainStep d).queue = e.queue := by
  obtain h | h | ⟨D, h⟩ := e.drainStep_cases d <;> rw [h] <;> rfl

lemma graph_drainStep (h : e.program.Graph) (d : DeclId) : (e.drainStep d).program.Graph :=
  drainStep_rule h (h.modifyDecl d (fun _ => rfl) fun _ => rfl) fun _ h => graph_deleteDecl h d

end Engine

end Frontend
