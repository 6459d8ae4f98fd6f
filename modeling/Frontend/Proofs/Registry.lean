import Frontend.Proofs.Quiescence.Units

/-! Names and declarations. In whatever way a program is reached, each declaration is listed by its unit and found under
its name, and a name leads to its own declaration. -/

namespace Frontend

namespace Dict
variable {κ α : Type}

lemma keys_modify [DecidableEq κ] (d : Dict κ α) (k : κ) (f : α → α) : (d.modify k f).keys = d.keys := by
  unfold keys modify
  rw [List.map_map]
  refine List.map_congr_left fun e _ => ?_
  dsimp only [Function.comp_apply]
  split <;> rfl

variable {d : Dict κ α}

lemma get?_of_mem [DecidableEq κ] (hk : d.keys.Nodup) {k : κ} {a : α} (h : (k, a) ∈ d.entries) :
    d.get? k = some a := by
  obtain ⟨entries⟩ := d
  unfold get? keys at *
  dsimp only at hk h ⊢
  induction entries with
  | nil => cases h
  | cons e rest ih =>
    rw [List.map_cons, List.nodup_cons] at hk
    unfold lookupIn
    obtain rfl | h := List.mem_cons.1 h
    · rw [if_pos rfl]
    · have hne : e.1 ≠ k := fun he => hk.1 (he ▸ List.mem_map_of_mem (f := Prod.fst) h)
      rw [if_neg hne]
      exact ih hk.2 h

lemma nodup_keys_filter (hk : d.keys.Nodup) (p : α → Bool) : (d.filter p).keys.Nodup :=
  List.Nodup.sublist (List.Sublist.map Prod.fst List.filter_sublist) hk

lemma nodup_keys_insert [DecidableEq κ] [LT κ] [DecidableLT κ] (hk : d.keys.Nodup) {k : κ} (a : α) (h : k ∉ d.keys) :
    (d.insert k a).keys.Nodup := by
  obtain ⟨entries⟩ := d
  unfold insert keys at *
  dsimp only at hk h ⊢
  induction entries with
  | nil => exact List.nodup_cons.2 ⟨List.not_mem_nil, .nil⟩
  | cons e rest ih =>
    rw [List.map_cons, List.nodup_cons] at hk
    rw [List.map_cons, List.mem_cons, not_or] at h
    unfold insertIn
    rw [if_neg (Ne.symm h.1)]
    split
    · exact List.nodup_cons.2 ⟨fun hm => (List.mem_cons.1 hm).elim h.1 h.2, List.nodup_cons.2 hk⟩
    · refine List.nodup_cons.2 ⟨fun hm => ?_, ih hk.2 h.2⟩
      obtain ⟨⟨j, b⟩, hj, he⟩ := List.mem_map.1 hm
      obtain heq | hj := mem_insert (d := ⟨rest⟩) hj
      · exact h.1 ((congrArg Prod.fst heq).symm.trans he)
      · exact hk.1 (List.mem_map.2 ⟨(j, b), hj, he⟩)

end Dict

structure SourceUnit.Is (u u' : SourceUnit) : Prop where
  path : u'.path = u.path
  namespaceHash : u'.namespaceHash = u.namespaceHash
  decls : u'.decls = u.decls

namespace Program
variable {p p' p'' : Program} {d : DeclId} {D : Decl} {f : Decl → Decl}

structure Retains (p p' : Program) : Prop where
  decl : ∀ d, Option.Rel Decl.Is (p.decl? d) (p'.decl? d)
  declTable : p'.declTable = p.declTable
  nextDecl : p'.nextDecl = p.nextDecl
  units : p'.units = p.units ∨ ∃ file g, (∀ u : SourceUnit, u.Is (g u)) ∧ p'.units = p.units.modify file g

namespace Retains

lemma ofDecls (hd : p'.decls = p.decls) (ht : p'.declTable = p.declTable) (hn : p'.nextDecl = p.nextDecl)
    (hu : p'.units = p.units) : p.Retains p' := by
  refine ⟨fun d => ?_, ht, hn, .inl hu⟩
  rw [decl?, decl?, hd]
  cases p.decls.get? d with
  | none => exact .none
  | some D => exact .some (.refl D)

lemma refl (p : Program) : p.Retains p := ofDecls rfl rfl rfl rfl

variable {file : FileId}

lemma modifyUnit {g : SourceUnit → SourceUnit} (hg : ∀ u : SourceUnit, u.Is (g u)) :
    p.Retains (p.modifyUnit file g) where
  decl := (refl p).decl
  declTable := rfl
  nextDecl := rfl
  units := .inr ⟨file, g, hg, rfl⟩

lemma modifyDecl (hf : ∀ D : Decl, D.Is (f D)) : p.Retains (p.modifyDecl d f) :=
  ⟨decl?_modifyDecl_rel .refl hf, rfl, rfl, .inl rfl⟩

lemma congr (h : p.Retains p') (hd : p''.decls = p'.decls) (ht : p''.declTable = p'.declTable)
    (hn : p''.nextDecl = p'.nextDecl) (hu : p''.units = p'.units) : p.Retains p'' := by
  refine ⟨fun d => ?_, ht.trans h.declTable, hn.trans h.nextDecl, ?_⟩
  · have hx : p''.decl? d = p'.decl? d := by rw [decl?, hd, decl?]
    rw [hx]
    exact h.decl d
  · rw [hu]
    exact h.units

lemma rewire (h : p.Rewired p') : p.Retains p' := by
  refine ⟨fun x => ?_, by rw [h.rest], h.nextDecl, .inl h.units⟩
  refine (h.decl x).elim .none fun _ _ hw => ?_
  cases hw
  exact .some ⟨rfl, rfl, rfl, rfl⟩

lemma setState (p : Program) (d : DeclId) (state : DeclState) : p.Retains (p.modifyDecl d ({ · with state })) :=
  modifyDecl fun _ => ⟨rfl, rfl, rfl, rfl⟩

lemma markOutdated (e : Engine) (d : DeclId) : e.program.Retains (e.markOutdated d).program :=
  Engine.markOutdated_rule (ofDecls rfl rfl rfl rfl) ((setState e.program d .outdated).congr rfl rfl rfl rfl)

lemma trans_decl (h : p.Retains p') (h' : p'.Retains p'') (d : DeclId) : Option.Rel Decl.Is (p.decl? d) (p''.decl? d) :=
  (h.decl d).comp (h'.decl d) .trans

lemma trans (h : p.Retains p') (h' : p'.Retains p'') (hu : p'.units = p.units) : p.Retains p'' :=
  ⟨h.trans_decl h', h'.declTable.trans h.declTable, h'.nextDecl.trans h.nextDecl, hu ▸ h'.units⟩

lemma spare (p : Program) (rest : List DeclId) (d : DeclId) :
    p.Retains (({ p with deletionSet := rest } : Program).spare d) := by
  have hr : p.Retains { p with deletionSet := rest } := ofDecls rfl rfl rfl rfl
  exact hr.trans (modifyDecl fun _ => ⟨rfl, rfl, rfl, rfl⟩) rfl

lemma refresh (e : Engine) (d : DeclId) (D : Decl) (item : ItemSummary) :
    e.program.Retains (e.refresh d D item).program :=
  (Engine.refresh_rule (P := fun p => e.program.Retains p ∧ p.units = e.program.units)
    ⟨modifyDecl fun _ => ⟨rfl, rfl, rfl, rfl⟩, rfl⟩
    fun e' h => ⟨h.1.trans (markOutdated e' d) h.2, (e'.markOutdated_units d).trans h.2⟩).1

lemma decl?_of (h : p.Retains p') {D' : Decl} (hD' : p'.decl? d = some D') : ∃ D, p.decl? d = some D ∧ D.Is D' :=
  (h.decl d).exists_left hD'

lemma exists_decl? (h : p.Retains p') (hD : p.decl? d = some D) : ∃ D', p'.decl? d = some D' ∧ D.Is D' :=
  (h.decl d).exists_right hD

lemma unit (h : p.Retains p') {u : SourceUnit} (hu : p.units.get? file = some u) :
    ∃ u', p'.units.get? file = some u' ∧ u.Is u' := by
  obtain hs | ⟨f, g, hg, hs⟩ := h.units
  · exact ⟨u, hs ▸ hu, rfl, rfl, rfl⟩
  · rw [hs, Dict.get?_modify, hu]
    split
    · exact ⟨g u, rfl, hg u⟩
    · exact ⟨u, rfl, rfl, rfl, rfl⟩

lemma keys (h : p.Retains p') : p'.units.keys = p.units.keys := by
  obtain hs | ⟨f, g, -, hs⟩ := h.units
  · rw [hs]
  · rw [hs, Dict.keys_modify]

lemma mem_units (h : p.Retains p') {u' : SourceUnit} (hu' : (file, u') ∈ p'.units.entries) :
    ∃ u, (file, u) ∈ p.units.entries ∧ u.Is u' := by
  obtain hs | ⟨f, g, hg, hs⟩ := h.units
  · exact ⟨u', hs ▸ hu', rfl, rfl, rfl⟩
  · rw [hs] at hu'
    obtain ⟨u, hu, rfl⟩ := Dict.mem_modify hu'
    refine ⟨u, hu, ?_⟩
    split
    · exact hg u
    · exact ⟨rfl, rfl, rfl⟩

end Retains

end Program

lemma Move.retains_or {c c' : Config} (hm : Move c c') (he : ¬ c.stage.Ends c'.stage) :
    c.program.Retains c'.program ∨ c.program.Registers c'.program ∨
      ∃ (e : Engine) (d : DeclId), c.program.Retains e.program ∧ c'.engine = e.deleteDecl d := by
  have keep (ht : c'.program.declTable = c.program.declTable) (hn : c'.program.nextDecl = c.program.nextDecl)
      (hu : c'.program.units = c.program.units) (hs : c.stage.deletes = false) : c.program.Retains c'.program :=
    ⟨fun _ => hm.rel_decl hn hs (·.is), ht, hn, .inl hu⟩
  have beside (h : c.program.Beside c'.program) := keep h.declTable h.nextDecl h.units
  cases hm with
  | quiet hq => exact .inl (.ofDecls hq.decls hq.declTable hq.nextDecl hq.units)
  | collide | claim | tear | closeUnit | worked => exact .inl (.ofDecls rfl rfl rfl rfl)
  | fail | failLate => exact .inl (beside (Program.fail_beside ..) rfl)
  | depend => exact .inl (beside (Program.dependencyFailed_beside ..) rfl)
  | register hi ht => exact .inr (.inl ⟨_, _, _, hi, ht, rfl⟩)
  | edge => exact .inl (.rewire (Program.addEdge_rewired ..))
  | release => exact .inl (.rewire (Program.release_rewired ..))
  | grant link header => cases header <;> exact .inl (keep rfl rfl rfl rfl)
  | outdate | retry => exact .inl (.markOutdated ..)
  | openUnit =>
    refine .inl ⟨(Program.Retains.refl _).decl, rfl, rfl, .inr ⟨_, ({ · with dirty := false }), fun _ => ?_, rfl⟩⟩
    exact ⟨rfl, rfl, rfl⟩
  | read => exact .inl (.modifyUnit fun _ => ⟨rfl, rfl, rfl⟩)
  | enroll hi ht =>
    refine .inr (.inl ⟨_, _, _, hi, ht, ?_⟩)
    dsimp only
    split <;> rfl
  | refresh => exact .inl (.refresh ..)
  | drop => exact .inr (.inr ⟨_, _, .ofDecls rfl rfl rfl rfl, rfl⟩)
  | @drain e d rest =>
    obtain ⟨-, he⟩ | ⟨D, -, -, he⟩ | ⟨D, -, -, -, he⟩ :=
      (e.popped rest).drainStep_turns d <;> rw [he]
    · exact .inl (.ofDecls rfl rfl rfl rfl)
    · exact .inl (.spare ..)
    · exact .inr (.inr ⟨_, _, .spare .., rfl⟩)
  | drained => exact absurd ⟨rfl, rfl⟩ he
  | _ => exact .inl (keep rfl rfl rfl rfl)

namespace Program
variable {p p' p'' : Program}

/-- Each declaration is listed by its unit and found under its name, and a name leads to its own declaration. -/
structure Registry (p : Program) : Prop where
  files : p.units.keys.Nodup
  filed {file : FileId} : p.Has file → file < p.nextFile
  rooted {file : FileId} {u : SourceUnit} : (file, u) ∈ p.units.entries → u.namespaceHash = .root u.path
  bound {d : DeclId} {D : Decl} : p.decl? d = some D → d < p.nextDecl
  placed {d : DeclId} {D : Decl} : p.decl? d = some D →
    ∃ u, p.units.get? D.file = some u ∧ d ∈ u.decls ∧ D.nameHash = u.namespaceHash.child D.name
  listed {file : FileId} {u : SourceUnit} {d : DeclId} : (file, u) ∈ p.units.entries → d ∈ u.decls →
    ∃ D, p.decl? d = some D ∧ D.file = file
  found {d : DeclId} {D : Decl} : p.decl? d = some D → p.declTable.get? D.nameHash = some d
  named {h : NameHash} {d : DeclId} : p.declTable.get? h = some d → ∃ D, p.decl? d = some D ∧ D.nameHash = h

namespace Registry
variable {d : DeclId} {D : Decl}

lemma same_name {x y : NameHash} (h : p.Registry) (hx : p.declTable.get? x = some d)
    (hy : p.declTable.get? y = some d) : x = y := by
  obtain ⟨D, hD, rfl⟩ := h.named hx
  obtain ⟨D', hD', rfl⟩ := h.named hy
  cases hD.symm.trans hD'
  rfl

lemma retain (h : p.Registry) (hs : p.Retains p') (hf : p'.nextFile = p.nextFile) : p'.Registry where
  files := hs.keys ▸ h.files
  filed {file} hh := by
    obtain ⟨u', hu'⟩ := hh
    obtain ⟨u, hu, -⟩ := hs.mem_units hu'
    exact hf ▸ h.filed ⟨u, hu⟩
  rooted hu' := by
    obtain ⟨u, hu, his⟩ := hs.mem_units hu'
    rw [his.namespaceHash, his.path]
    exact h.rooted hu
  bound hD' := by
    obtain ⟨D, hD, -⟩ := hs.decl?_of hD'
    exact hs.nextDecl ▸ h.bound hD
  placed hD' := by
    obtain ⟨D, hD, his⟩ := hs.decl?_of hD'
    obtain ⟨u, hu, hm, hn⟩ := h.placed hD
    obtain ⟨u', hu', hius⟩ := hs.unit hu
    refine ⟨u', his.file ▸ hu', hius.decls ▸ hm, ?_⟩
    rw [his.nameHash, hn, hius.namespaceHash, his.name]
  listed hu' hd := by
    obtain ⟨u, hu, hius⟩ := hs.mem_units hu'
    obtain ⟨D, hD, hfile⟩ := h.listed hu (hius.decls ▸ hd)
    obtain ⟨D', hD', his⟩ := hs.exists_decl? hD
    exact ⟨D', hD', his.file.trans hfile⟩
  found hD' := by
    obtain ⟨D, hD, his⟩ := hs.decl?_of hD'
    rw [hs.declTable, his.nameHash]
    exact h.found hD
  named ht := by
    rw [hs.declTable] at ht
    obtain ⟨D, hD, hn⟩ := h.named ht
    obtain ⟨D', hD', his⟩ := hs.exists_decl? hD
    exact ⟨D', hD', his.nameHash.trans hn⟩

lemma register (h : p.Registry) {file : FileId} {ns : NameHash} {item : ItemSummary} (hi : p.Declares file ns item)
    (ht : p.declTable.get? (ns.child item.name) = none) : (p.register file ns item).Registry := by
  have htable (x : NameHash) : (p.register file ns item).declTable.get? x =
      if ns.child item.name = x then some p.nextDecl else p.declTable.get? x := Dict.get?_insert ..
  have old {x : DeclId} {X : Decl} (hX : p.decl? x = some X) : (p.register file ns item).decl? x = some X := by
    show (p.decls.insert p.nextDecl _).get? x = some X
    rw [Dict.get?_insert, if_neg (Nat.ne_of_gt (h.bound hX))]
    exact hX
  have had {f : FileId} {u' : SourceUnit} (hu' : (f, u') ∈ (p.register file ns item).units.entries) :
      ∃ u, (f, u) ∈ p.units.entries ∧ u'.namespaceHash = u.namespaceHash ∧ u'.path = u.path := by
    obtain ⟨u, hu, rfl⟩ := Dict.mem_modify hu'
    refine ⟨u, hu, ?_⟩
    split <;> exact ⟨rfl, rfl⟩
  refine ⟨?_, fun hf => ?_, fun hu' => ?_, fun hX => ?_, fun hX => ?_, fun hu' hx => ?_, fun hX => ?_, fun hx => ?_⟩
  · show (p.units.modify file _).keys.Nodup
    rw [Dict.keys_modify]
    exact h.files
  · obtain ⟨u', hu'⟩ := hf
    obtain ⟨u, hu, -⟩ := had hu'
    exact h.filed ⟨u, hu⟩
  · obtain ⟨u, hu, hn, hp⟩ := had hu'
    rw [hn, hp]
    exact h.rooted hu
  · obtain ⟨hX, -⟩ | ⟨rfl, -⟩ := decl?_register_cases hX
    · exact Nat.lt_succ_of_lt (h.bound hX)
    · exact Nat.lt_succ_self _
  · rw [units_get?_register]
    obtain ⟨hX, -⟩ | ⟨rfl, rfl⟩ := decl?_register_cases hX
    · obtain ⟨u, hu, hm, hn⟩ := h.placed hX
      rw [hu]
      split
      · exact ⟨_, rfl, (OrdSet.mem_insert ..).2 (.inr hm), hn⟩
      · exact ⟨u, rfl, hm, hn⟩
    · obtain ⟨u, hu, rfl, -⟩ := hi
      rw [if_pos rfl, hu]
      exact ⟨_, rfl, (OrdSet.mem_insert ..).2 (.inl rfl), rfl⟩
  · obtain ⟨u, hu, rfl⟩ := Dict.mem_modify hu'
    split at hx
    · next hf =>
      obtain rfl | hx := (OrdSet.mem_insert ..).1 hx
      · exact ⟨_, (Dict.get?_insert ..).trans (if_pos rfl), hf.symm⟩
      · obtain ⟨X, hX, hfile⟩ := h.listed hu hx
        exact ⟨X, old hX, hfile⟩
    · obtain ⟨X, hX, hfile⟩ := h.listed hu hx
      exact ⟨X, old hX, hfile⟩
  · rw [htable]
    obtain ⟨hX, -⟩ | ⟨rfl, rfl⟩ := decl?_register_cases hX
    · rw [if_neg]
      · exact h.found hX
      · intro he
        have hf := h.found hX
        rw [← he, ht] at hf
        cases hf
    · exact if_pos rfl
  · rw [htable] at hx
    split at hx
    · next he =>
      cases hx
      exact ⟨_, (Dict.get?_insert ..).trans (if_pos rfl), he⟩
    · obtain ⟨X, hX, hn⟩ := h.named hx
      exact ⟨X, old hX, hn⟩

lemma nameHash_inj (h : p.Registry) {x : DeclId} {X : Decl} (hD : p.decl? d = some D) (hX : p.decl? x = some X)
    (hn : X.nameHash = D.nameHash) : x = d := by
  have hx := h.found hX
  rw [hn, h.found hD] at hx
  exact (Option.some.inj hx).symm

lemma deleteDecl {e : Engine} (h : e.program.Registry) (d : DeclId) : (e.deleteDecl d).program.Registry := by
  cases hD : e.program.decl? d with
  | none => rwa [Engine.deleteDecl_of_none hD]
  | some D =>
    have hfile := (Goes.deleteDecl e d).nextFile
    have hunits := Engine.deleteDecl_units hD
    have hdecl {x : DeclId} (hx : x ≠ d) : Option.Rel Decl.Is (e.program.decl? x) ((e.deleteDecl d).program.decl? x) :=
      e.deleteDecl_rel (fun _ _ _ _ _ => ⟨rfl, rfl, rfl, rfl⟩) hx
    have htable : (e.deleteDecl d).program.declTable = e.program.declTable.erase D.nameHash := by
      obtain ⟨e₁, hm, he⟩ := Engine.deleteDecl_of hD
      rw [he]
      refine ((e₁.program.forget_quiet d D).declTable.trans hm.declTable).trans ?_
      show (e.program.detach d D).declTable = _
      unfold detach
      dsimp only
      split
      · rfl
      · next hn => exact absurd (h.found hD) hn
    -- What is left was there before, and is another declaration.
    have had {x : DeclId} {X' : Decl} (hX' : (e.deleteDecl d).program.decl? x = some X') :
        x ≠ d ∧ ∃ X, e.program.decl? x = some X ∧ X.Is X' := by
      have hx : x ≠ d := by
        rintro rfl
        cases (e.deleteDecl_gone x).symm.trans hX'
      exact ⟨hx, (hdecl hx).exists_left hX'⟩
    have hkept {x : DeclId} {X : Decl} (hX : e.program.decl? x = some X) (hne : X ≠ D) :
        ∃ X', (e.deleteDecl d).program.decl? x = some X' ∧ X.Is X' := by
      refine (hdecl ?_).exists_right hX
      rintro rfl
      exact hne (Option.some.inj (hX.symm.trans hD))
    refine ⟨?_, fun hf => ?_, fun hu' => ?_, fun hX' => ?_, fun hX' => ?_, fun hu' hx => ?_, fun hX' => ?_,
      fun hx => ?_⟩
    · rw [hunits, Dict.keys_modify]
      exact h.files
    · obtain ⟨u', hu'⟩ := hf
      rw [hunits] at hu'
      obtain ⟨u, hu, -⟩ := Dict.mem_modify hu'
      exact hfile ▸ h.filed ⟨u, hu⟩
    · rw [hunits] at hu'
      obtain ⟨u, hu, rfl⟩ := Dict.mem_modify hu'
      have hr := h.rooted hu
      split <;> exact hr
    · obtain ⟨-, X, hX, -⟩ := had hX'
      rw [e.deleteDecl_nextDecl d]
      exact h.bound hX
    · obtain ⟨hx, X, hX, his⟩ := had hX'
      obtain ⟨u, hu, hm, hn⟩ := h.placed hX
      rw [hunits, Dict.get?_modify, his.file, his.nameHash, his.name, hu]
      split
      · exact ⟨_, rfl, (OrdSet.mem_erase ..).2 ⟨hm, hx⟩, hn⟩
      · exact ⟨u, rfl, hm, hn⟩
    · rw [hunits] at hu'
      obtain ⟨u, hu, rfl⟩ := Dict.mem_modify hu'
      split at hx
      · obtain ⟨hx, hne⟩ := (OrdSet.mem_erase ..).1 hx
        obtain ⟨X, hX, hfile⟩ := h.listed hu hx
        obtain ⟨X', hX', his⟩ := (hdecl hne).exists_right hX
        exact ⟨X', hX', his.file.trans hfile⟩
      · next hf =>
        obtain ⟨X, hX, hfile⟩ := h.listed hu hx
        obtain ⟨X', hX', his⟩ := hkept hX (by rintro rfl; exact hf hfile.symm)
        exact ⟨X', hX', his.file.trans hfile⟩
    · obtain ⟨hx, X, hX, his⟩ := had hX'
      rw [htable, Dict.get?_erase, his.nameHash, if_neg]
      · exact h.found hX
      · exact fun hn => hx (h.nameHash_inj hD hX hn.symm)
    · rw [htable, Dict.get?_erase] at hx
      split at hx
      · cases hx
      · next hne =>
        obtain ⟨X, hX, hn⟩ := h.named hx
        obtain ⟨X', hX', his⟩ := hkept hX (by rintro rfl; exact hne hn)
        exact ⟨X', hX', his.nameHash.trans hn⟩

lemma move {c c' : Config} (h : c.program.Registry) (hm : Move c c') (he : ¬ c.stage.Ends c'.stage) :
    c'.program.Registry := by
  obtain hs | ⟨file, ns, item, hi, ht, hp⟩ | ⟨e, d, hs, hd⟩ := hm.retains_or he
  · exact h.retain hs hm.alike.nextFile
  · rw [hp]
    exact h.register hi ht
  · have hf : e.program.nextFile = c.program.nextFile := by
      have hx := hm.alike.nextFile
      rw [Config.program, hd] at hx
      exact (Goes.deleteDecl e d).nextFile.symm.trans hx
    rw [Config.program, hd]
    exact (h.retain hs hf).deleteDecl d

lemma placedAt (h : p.Registry) : p.Placed (fun _ => True) .resting := by
  refine ⟨fun hD => ?_, fun _ _ => trivial, fun _ => ⟨fun _ _ _ => trivial, fun _ _ _ _ => trivial⟩⟩
  obtain ⟨u, hu, hm, -⟩ := h.placed hD
  exact ⟨u, hu, hm, fun _ => .inl trivial⟩

lemma ends {K : ItemSummary → Prop} (h : p.Registry) (hp : p.Placed K .draining) : Registry p.closed where
  files := Dict.nodup_keys_filter h.files _
  filed hf := by
    obtain ⟨u, hu⟩ := hf
    exact h.filed ⟨u, List.mem_of_mem_filter hu⟩
  rooted hu := h.rooted (List.mem_of_mem_filter hu)
  bound hD := h.bound hD
  placed hD := by
    obtain ⟨u, hu, hm, hn⟩ := h.placed hD
    obtain ⟨u', hu', -, hr⟩ := hp.listed hD
    cases hu.symm.trans hu'
    have hr : u.removed = false := by
      cases hx : u.removed with
      | false => rfl
      | true => exact absurd (hr hx) (Stage.not_awaits rfl)
    exact ⟨u, Dict.get?_filter hu (by rw [hr]; rfl), hm, hn⟩
  listed hu hd := h.listed (List.mem_of_mem_filter hu) hd
  found hD := h.found hD
  named ht := h.named ht

lemma upheld : Upheld (fun _ c => c.program.Registry) fun _ => True :=
  .ofSteps (fun _ _ hm _ he _ h => h.move hm he) (fun _ _ _ => trivial) fun hv _ h =>
    h.move (.install hv) fun ⟨hs, _⟩ => nomatch hs

lemma update (h : p.Registry) : p.update.2.Registry := by
  have hplaced : Upheld (fun _ c => c.program.Registry ∧ c.program.Placed (fun _ => True) c.stage)
      fun _ => True :=
    .ofSteps (fun c c' hm _ he _ h => ⟨h.1.move hm he, placed_move c c' hm h.2⟩) (fun _ _ _ => trivial) fun hv _ h =>
      ⟨h.1.move (.install hv) (fun ⟨hs, _⟩ => nomatch hs), placed_move _ _ (.install hv) h.2⟩
  have hstart : p.nextGeneration.Registry := h.retain (.ofDecls rfl rfl rfl rfl) rfl
  have hu := update_upheld hplaced (p := p) ⟨⟨p, {}⟩, hstart, h.placedAt.start⟩
  generalize p.update = outcome at hu
  obtain ⟨i | report, p'⟩ := outcome
  · obtain ⟨queue, -, hr, -⟩ := hu
    exact hr
  · obtain ⟨e, ⟨-, hr, hp⟩, -, -, rfl⟩ := hu
    exact hr.ends hp

lemma lasting : Lasting Registry fun _ => True :=
  .ofRewire upheld (fun h => h.update) fun hw h => h.retain (.rewire hw) hw.alike.nextFile

lemma addUnit (h : p.Registry) (path : String) (content : UnitContent) : (p.addUnit path content).Registry := by
  have hfresh : p.nextFile ∉ p.units.keys := by
    intro hm
    obtain ⟨⟨file, u⟩, hu, hf⟩ := List.mem_map.1 hm
    cases hf
    exact absurd (h.filed ⟨u, hu⟩) (Nat.lt_irrefl _)
  refine ⟨Dict.nodup_keys_insert h.files _ hfresh, fun hf => ?_, fun hu => ?_, fun hD => h.bound hD, fun hD => ?_,
    fun hu hd => ?_, fun hD => h.found hD, fun ht => h.named ht⟩
  · obtain ⟨u, hu⟩ := hf
    obtain he | hu := Dict.mem_insert hu
    · cases he
      exact Nat.lt_succ_self _
    · exact Nat.lt_succ_of_lt (h.filed ⟨u, hu⟩)
  · obtain he | hu := Dict.mem_insert hu
    · cases he
      rfl
    · exact h.rooted hu
  · obtain ⟨u, hu, hm, hn⟩ := h.placed hD
    refine ⟨u, ?_, hm, hn⟩
    show (p.units.insert p.nextFile _).get? _ = some u
    rw [Dict.get?_insert, if_neg]
    · exact hu
    · exact Nat.ne_of_gt (h.filed ⟨u, Dict.mem_of_get? hu⟩)
  · obtain he | hu := Dict.mem_insert hu
    · cases he
      cases hd
    · exact h.listed hu hd

lemma edit (h : p.Registry) (change : Edit) : (p.edit change).Registry := by
  have reserve {q : Program} (hq : q.Registry) (decls : List Untyped.Decl) : (q.reserve decls).Registry :=
    hq.retain (.ofDecls rfl rfl rfl rfl) rfl
  cases change with
  | addSource path | addPath path => exact h.addUnit path _
  | setSource | setFile =>
    refine h.retain (.modifyUnit fun u => ?_) rfl
    split <;> exact ⟨rfl, rfl, rfl⟩
  | addLowered path decls => exact reserve (h.addUnit path _) decls
  | setLowered file decls =>
    refine reserve ?_ decls
    exact h.retain (.modifyUnit fun _ => ⟨rfl, rfl, rfl⟩) rfl
  | touch file | removeUnit file => exact h.retain (.modifyUnit fun _ => ⟨rfl, rfl, rfl⟩) rfl

lemma reaches {allowed : Action → Prop} {options : Options} {backend : Backend}
    (hr : Reaches allowed { options, backend } p) : p.Registry := by
  refine lasting.reaches (fun _ h => h.edit _) (fun _ h => h.retain (.ofDecls rfl rfl rfl rfl) rfl) hr ?_
  exact ⟨.nil, nofun, nofun, nofun, nofun, nofun, nofun, nofun⟩

end Registry

end Program

end Frontend
