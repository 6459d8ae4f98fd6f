import Frontend.Proofs.Mirroring

/-! Updates that find nothing to do. A unit that is only looked at again has the items it had, and each of its
declarations is as one of them says; a unit whose text cannot be read keeps its items. So nothing is marked, analyzed or
deleted and the backend is not called. An item whose declaration was collected gets a new one that nothing asks for. -/

namespace Frontend

/-- A unit is looked at again, gets a text that cannot be read, or loses its file. -/
def Edit.isIdle : Edit → Bool
  | touch _ => true
  | setSource _ text => !(Parse.file text).isOk
  | setFile _ text => text.all fun text => !(Parse.file text).isOk
  | _ => false

structure SourceUnit.Echoes (file : FileId) (u u' : SourceUnit) : Prop where
  path : u'.path = u.path
  namespaceHash : u'.namespaceHash = u.namespaceHash
  removed : u'.removed = u.removed
  items : u'.content.items? = u.content.items?
  content : u'.content = u.content ∨ ∃ failure, Program.loadContent file u'.content = .error failure

lemma SourceUnit.Echoes.refl (file : FileId) (u : SourceUnit) : u.Echoes file u := ⟨rfl, rfl, rfl, rfl, .inl rfl⟩

namespace Program
variable {p q : Program} {e : Engine} {d : DeclId} {D : Decl} {file : FileId} {u : SourceUnit} {item : ItemSummary}
  {items left : List ItemSummary} {untaken : List DeclId}

def DeclaresOnce (p : Program) : Prop := ∀ u ∈ p.units.values, ∀ items ∈ u.content.items?, (items.map (·.name)).Nodup

instance (p : Program) : Decidable p.DeclaresOnce := inferInstanceAs (Decidable (∀ u ∈ p.units.values, _))

def Framed (p q : Program) : Prop :=
  q = { p with
    decls := q.decls, nextDecl := q.nextDecl, declTable := q.declTable, units := q.units, failedFiles := q.failedFiles,
    generation := q.generation, report := q.report }

lemma Framed.change (h : p.Framed q) {decls : Dict DeclId Decl} {nextDecl : DeclId} {declTable : Dict NameHash DeclId}
    {units : Dict FileId SourceUnit} {failedFiles : Dict FileId FileFailure} {generation : Nat} {report : Report} :
    p.Framed { q with decls, nextDecl, declTable, units, failedFiles, generation, report } := by
  let changed (x : Program) : Program := { x with decls, nextDecl, declTable, units, failedFiles, generation, report }
  have heq : changed q = changed _ := congrArg changed h
  exact heq

def Renews (p : Program) (d : DeclId) (D : Decl) : Prop :=
  ∃ u item, p.units.get? D.file = some u ∧ item ∈ u.offers D.file ∧ item.isRoot = false ∧
    p.declTable.get? (u.namespaceHash.child item.name) = none ∧
    D = { id := d, name := item.name, nameHash := u.namespaceHash.child item.name, file := D.file, index := item.index,
          src := item.src, line := item.line, contents := item.hash, generation := p.generation + 1, isRoot := false }

structure Idles (p : Program) (e : Engine) : Prop where
  queue : e.queue = {}
  generation : e.program.generation = p.generation + 1
  report : e.program.report = { generation := p.generation + 1 }
  framed : p.Framed e.program
  registry : e.program.Registry
  unit (file : FileId) : Option.Rel (SourceUnit.Echoes file) (p.units.get? file) (e.program.units.get? file)
  kept {d : DeclId} {D : Decl} : p.decl? d = some D → e.program.decl? d = some D
  fresh {d : DeclId} {D : Decl} : e.program.decl? d = some D → p.decl? d = some D ∨ p.decl? d = none ∧ p.Renews d D

/-! Names and items. -/

namespace Reconciled

lemma mem_items (h : p.Reconciled) (hu : p.units.get? file = some u) (hi : item ∈ u.offers file) :
    loadContent file u.content = .ok u.content ∧ ∃ items, u.content.items? = some items ∧ item ∈ items := by
  unfold SourceUnit.offers at hi
  rw [if_neg (by simp [(h.units hu).1])] at hi
  cases hl : loadContent file u.content with
  | error failure =>
    rw [hl] at hi
    cases hi
  | ok content =>
    obtain rfl := h.settled hu content hl
    rw [hl] at hi
    dsimp only at hi
    cases hc : u.content.items? with
    | none =>
      rw [hc] at hi
      cases hi
    | some items =>
      rw [hc] at hi
      exact ⟨rfl, items, rfl, hi⟩

lemma mem_offers (h : p.Reconciled) (hu : p.units.get? file = some u) (hl : loadContent file u.content = .ok u.content)
    (hc : u.content.items? = some items) (hi : item ∈ items) : item ∈ u.offers file := by
  have hitems : u.items? = some items := by simp [SourceUnit.items?, (h.units hu).1, hc]
  rwa [SourceUnit.offers_eq (.inr hl) hitems]

end Reconciled

lemma DeclaresOnce.nodup (h : p.DeclaresOnce) (hu : p.units.get? file = some u) (hc : u.content.items? = some items) :
    (items.map (·.name)).Nodup :=
  h u (List.mem_map.2 ⟨(file, u), Dict.mem_of_get? hu, rfl⟩) items hc

namespace Idles

variable (h : p.Idles e)
include h

lemma qualified (hp : p.Reconciled) (hD : e.program.decl? d = some D) :
    ∃ u, p.units.get? D.file = some u ∧ (u.path, D.name) ∈ p.names ∧ D.nameHash = u.namespaceHash.child D.name := by
  obtain hD | ⟨-, u, item, hu, hi, -, -, hd⟩ := h.fresh hD
  · obtain ⟨u, hu, -, hn⟩ := hp.registry.placed hD
    exact ⟨u, hu, mem_names_of_decl? hD hu, hn⟩
  · refine ⟨u, hu, ?_, ?_⟩
    · rw [hd]
      exact mem_names_of_offers hu hi
    · rw [hd]

lemma own (hp : p.Reconciled) (ha : p.Unambiguous) (hu : p.units.get? file = some u) (hi : item ∈ u.offers file)
    (ht : e.program.declTable.get? (u.namespaceHash.child item.name) = some d) :
    ∃ D, e.program.decl? d = some D ∧ D.file = file ∧ D.name = item.name := by
  obtain ⟨D, hD, hn⟩ := h.registry.named ht
  obtain ⟨v, hv, hname, hhash⟩ := h.qualified hp hD
  have hq : NameHash.qualified (v.path, D.name) = NameHash.qualified (u.path, item.name) := by
    unfold NameHash.qualified
    dsimp only
    rw [← hp.registry.rooted (Dict.mem_of_get? hu), ← hp.registry.rooted (Dict.mem_of_get? hv), ← hhash, hn]
  have heq := ha.hashes _ hname _ (mem_names_of_offers hu hi) hq
  obtain ⟨hpath, hname⟩ := Prod.mk.inj heq
  exact ⟨D, hD, ha.distinct _ _ _ _ hv hu hpath, hname⟩

lemma mirrors (hp : p.Reconciled) (hn : p.DeclaresOnce) (hD : e.program.decl? d = some D)
    (hu : p.units.get? D.file = some u) (hc : u.content.items? = some items) : ∃ item ∈ items, D.Mirrors item := by
  obtain hD | ⟨-, v, item, hv, hi, hroot, -, hd⟩ := h.fresh hD
  · obtain ⟨v, hv, hm, -⟩ := hp.registry.placed hD
    cases hu.symm.trans hv
    obtain ht | ⟨D', item, hD', hi, hm⟩ := (hp.current hu items hc (hn.nodup hu hc)).decls hm
    · cases ht
    · cases hD.symm.trans hD'
      exact ⟨item, hi, hm⟩
  · cases hu.symm.trans hv
    obtain ⟨-, items', hc', hi⟩ := hp.mem_items hu hi
    cases hc.symm.trans hc'
    refine ⟨item, hi, ?_⟩
    rw [hd]
    exact ⟨rfl, rfl, rfl, rfl, rfl, hroot.symm⟩

/-! Steps. -/

lemma modifyUnit (g : SourceUnit → SourceUnit) {failedFiles : Dict FileId FileFailure}
    (hg : ∀ v : SourceUnit, v.Is (g v))
    (he : ∀ u v, p.units.get? file = some u → u.Echoes file v → u.Echoes file (g v)) :
    p.Idles { e with program := { e.program.modifyUnit file g with failedFiles } } := by
  refine ⟨h.queue, h.generation, h.report, h.framed.change, ?_, fun f => ?_, fun hD => h.kept hD, fun hD => h.fresh hD⟩
  · exact (h.registry.retain (.modifyUnit hg) rfl).retain (.ofDecls rfl rfl rfl rfl) rfl
  · show Option.Rel _ _ ((e.program.units.modify file g).get? f)
    have hunit := h.unit f
    rw [Dict.get?_modify]
    split
    · next hf =>
      subst hf
      generalize hx : p.units.get? file = x at hunit
      generalize e.program.units.get? file = y at hunit
      cases hunit with
      | none => exact .none
      | some hr => exact .some (he _ _ hx hr)
    · exact hunit

lemma refresh (hD : e.program.decl? d = some D) (hm : D.Mirrors item) :
    p.Idles (e.refresh d D item) ∧ ∀ x, (e.refresh d D item).program.decl? x = e.program.decl? x := by
  have hregistry := h.registry.retain (.refresh e d D item) (Goes.refresh e d D item).nextFile
  have hsame : e.refresh d D item = e.modifyProgram (·.modifyDecl d (.reread item)) := by
    unfold Engine.refresh
    simp [hm.contents, hm.line]
  rw [hsame] at hregistry ⊢
  have hdecl (x : DeclId) : (e.program.modifyDecl d (.reread item)).decl? x =
      e.program.decl? x := by
    rw [decl?_modifyDecl]
    split
    · next hx =>
      subst hx
      rw [hD, Option.map_some, Decl.reread, ← hm.index, ← hm.src, ← hm.isRoot, ← hm.line, ← hm.contents]
    · rfl
  refine ⟨⟨h.queue, h.generation, h.report, h.framed.change, hregistry, h.unit, fun hD => ?_, fun hD => ?_⟩, hdecl⟩
  · exact (hdecl _).trans (h.kept hD)
  · exact h.fresh ((hdecl _).symm.trans hD)

lemma register (hp : p.Reconciled) (hn : p.DeclaresOnce) (hu : p.units.get? file = some u) (hi : item ∈ u.offers file)
    (ht : e.program.declTable.get? (u.namespaceHash.child item.name) = none) :
    item.isRoot = false ∧ p.Idles (e.modifyProgram (·.register file u.namespaceHash item)) := by
  obtain ⟨-, items, hc, hmem⟩ := hp.mem_items hu hi
  -- No declaration has the name.
  have free {x : DeclId} {X : Decl} (hX : p.decl? x = some X) (hname : X.nameHash = u.namespaceHash.child item.name) :
      False := by
    have hfound := h.registry.found (h.kept hX)
    rw [hname, ht] at hfound
    cases hfound
  have hroot : item.isRoot = false := by
    cases hroot : item.isRoot with
    | false => rfl
    | true =>
      obtain ⟨x, X, hx, -, hX, hm⟩ := (hp.current hu items hc (hn.nodup hu hc)).roots hmem nofun hroot
      obtain ⟨v, hv, -, hname⟩ := hp.registry.placed hX
      rw [hp.registry.file_of_mem hu hx hX] at hv
      cases hu.symm.trans hv
      rw [hm.name] at hname
      exact (free hX hname).elim
  obtain ⟨v, hv, hecho⟩ := (h.unit file).exists_right hu
  have hdeclares : e.program.Declares file u.namespaceHash item := by
    refine ⟨v, hv, hecho.namespaceHash, ?_⟩
    have hitems : v.items? = some items := by
      simp [SourceUnit.items?, hecho.removed, (hp.units hu).1, hecho.items, hc]
    rwa [hitems]
  refine ⟨hroot, h.queue, h.generation, h.report, h.framed.change, h.registry.register hdeclares ht, fun f => ?_,
    fun hD => ?_, fun {x X} hX => ?_⟩
  · show Option.Rel _ _ ((e.program.register file u.namespaceHash item).units.get? f)
    have hunit := h.unit f
    rw [units_get?_register]
    split
    · generalize p.units.get? f = x at hunit
      generalize e.program.units.get? f = y at hunit
      cases hunit with
      | none => exact .none
      | some hr => exact .some ⟨hr.path, hr.namespaceHash, hr.removed, hr.items, hr.content⟩
    · exact hunit
  · have hD := h.kept hD
    exact (decl?_register_of_lt (h.registry.bound hD)).trans hD
  · change (e.program.decls.insert e.program.nextDecl _).get? x = some X at hX
    rw [Dict.get?_insert] at hX
    split at hX
    · next hx =>
      subst hx
      cases hX
      refine .inr ⟨?_, u, item, hu, hi, hroot, ?_, ?_⟩
      · cases hD : p.decl? e.program.nextDecl with
        | none => rfl
        | some D => exact absurd (h.registry.bound (h.kept hD)) (Nat.lt_irrefl _)
      · cases hx : p.declTable.get? (u.namespaceHash.child item.name) with
        | none => rfl
        | some x =>
          obtain ⟨X, hX, hname⟩ := hp.registry.named hx
          exact (free hX hname).elim
      · rw [hroot, h.generation]
    · exact h.fresh hX

end Idles

/-! A unit. -/

structure Pairs (p : Program) (e : Engine) (file : FileId) (untaken : List DeclId) (left : List ItemSummary) :
    Prop where
  idles : p.Idles e
  mirrored {d : DeclId} : d ∈ untaken →
    ∃ D item, e.program.decl? d = some D ∧ D.file = file ∧ item ∈ left ∧ D.Mirrors item
  waiting {item : ItemSummary} {d : DeclId} {D : Decl} : item ∈ left → e.program.decl? d = some D → D.file = file →
    D.name = item.name → d ∈ untaken

namespace Pairs

lemma reconcileItem (h : p.Pairs e file untaken (item :: left)) (hp : p.Reconciled) (ha : p.Unambiguous)
    (hn : p.DeclaresOnce) (hu : p.units.get? file = some u) (hi : item ∈ u.offers file)
    (hname : item.name ∉ left.map (·.name)) :
    p.Pairs (Engine.reconcileItem file u.namespaceHash (e, untaken) item).1 file
      (Engine.reconcileItem file u.namespaceHash (e, untaken) item).2 left := by
  obtain ⟨hload, items, hc, hmem⟩ := hp.mem_items hu hi
  -- A declaration of the unit with the name of an item stands under its digest.
  have found {x : DeclId} {X : Decl} (hX : e.program.decl? x = some X) (hf : X.file = file) (hx : X.name = item.name) :
      e.program.declTable.get? (u.namespaceHash.child item.name) = some x := by
    obtain ⟨v, hv, -, hhash⟩ := h.idles.qualified hp hX
    rw [hf] at hv
    cases hu.symm.trans hv
    rw [← hx, ← hhash]
    exact h.idles.registry.found hX
  unfold Engine.reconcileItem
  dsimp only
  cases ht : e.program.declTable.get? (u.namespaceHash.child item.name) with
  | none =>
    dsimp only
    obtain ⟨hroot, hidles⟩ := h.idles.register hp hn hu hi ht
    rw [if_neg (by simp [hroot])]
    refine ⟨hidles, fun hx => ?_, fun {i x X} hi' hX hf hxn => ?_⟩
    · obtain ⟨X, i, hX, hf, hi', hm⟩ := h.mirrored hx
      obtain rfl | hi' := List.mem_cons.1 hi'
      · cases ht.symm.trans (found hX hf hm.name)
      · refine ⟨X, i, ?_, hf, hi', hm⟩
        exact (decl?_register_of_lt (h.idles.registry.bound hX)).trans hX
    · change (e.program.decls.insert e.program.nextDecl _).get? x = some X at hX
      rw [Dict.get?_insert] at hX
      split at hX
      · cases hX
        exact absurd (List.mem_map.2 ⟨i, hi', hxn.symm⟩) hname
      · exact h.waiting (List.mem_cons_of_mem _ hi') hX hf hxn
  | some d =>
    dsimp only
    obtain ⟨D, hD, hf, hdn⟩ := h.idles.own hp ha hu hi ht
    have htaken := h.waiting List.mem_cons_self hD hf hdn
    rw [hD]
    dsimp only
    rw [if_pos htaken]
    -- Of the items only this one has the name.
    have hmirrors : D.Mirrors item := by
      obtain ⟨i, hi', hm⟩ := h.idles.mirrors hp hn hD (hf ▸ hu) hc
      have heq := List.inj_on_of_nodup_map (hn.nodup hu hc) hi' hmem (hm.name.symm.trans hdn)
      exact heq ▸ hm
    obtain ⟨hidles, hsame⟩ := h.idles.refresh hD hmirrors
    refine ⟨hidles, fun {x} hx => ?_, fun {i x X} hi' hX hfx hxn => ?_⟩
    · obtain ⟨hx, hne⟩ := List.mem_filter.1 hx
      obtain ⟨X, i, hX, hfx, hi', hm⟩ := h.mirrored hx
      obtain rfl | hi' := List.mem_cons.1 hi'
      · cases ht.symm.trans (found hX hfx hm.name)
        simp at hne
      · exact ⟨X, i, (hsame x).trans hX, hfx, hi', hm⟩
    · rw [hsame] at hX
      refine List.mem_filter.2 ⟨h.waiting (List.mem_cons_of_mem _ hi') hX hfx hxn, decide_eq_true ?_⟩
      rintro rfl
      cases hD.symm.trans hX
      exact hname (List.mem_map.2 ⟨i, hi', hxn.symm.trans hdn⟩)

lemma foldl (hp : p.Reconciled) (ha : p.Unambiguous) (hn : p.DeclaresOnce) (hu : p.units.get? file = some u) :
    ∀ {left : List ItemSummary} {st : Engine × List DeclId}, (∀ i ∈ left, i ∈ u.offers file) →
      (left.map (·.name)).Nodup →
      p.Pairs st.1 file st.2 left →
      p.Pairs (left.foldl (Engine.reconcileItem file u.namespaceHash) st).1 file
        (left.foldl (Engine.reconcileItem file u.namespaceHash) st).2 [] := by
  intro left
  induction left with
  | nil => exact fun _ _ h => h
  | cons item left ih =>
    intro st hi hnodup h
    rw [List.map_cons, List.nodup_cons] at hnodup
    refine ih (fun i hi' => hi i (List.mem_cons_of_mem _ hi')) hnodup.2 ?_
    exact h.reconcileItem hp ha hn hu (hi item List.mem_cons_self) hnodup.1

end Pairs

lemma Idles.reconcileItems {v : SourceUnit} {listed : OrdSet DeclId} (h : p.Idles e) (hp : p.Reconciled)
    (ha : p.Unambiguous) (hn : p.DeclaresOnce) (hu : p.units.get? file = some u)
    (hv : e.program.units.get? file = some v) (hd : v.decls = listed)
    (hl : loadContent file u.content = .ok u.content) (hc : u.content.items? = some items) :
    p.Idles (let (e', gone) := items.foldl (Engine.reconcileItem file u.namespaceHash) (e, listed.elems)
      gone.foldl Engine.deleteDecl e') := by
  have hpairs : p.Pairs (e, listed.elems).1 file (e, listed.elems).2 items := by
    refine ⟨h, fun hx => ?_, fun _ hD hf _ => ?_⟩
    · obtain ⟨D, hD, hf⟩ := h.registry.listed (Dict.mem_of_get? hv) (hd ▸ hx)
      obtain ⟨item, hi, hm⟩ := h.mirrors hp hn hD (hf ▸ hu) hc
      exact ⟨D, item, hD, hf, hi, hm⟩
    · obtain ⟨w, hw, hmem, -⟩ := h.registry.placed hD
      rw [hf] at hw
      cases hv.symm.trans hw
      exact hd ▸ hmem
  have hend := Pairs.foldl hp ha hn hu (fun i hi => hp.mem_offers hu hl hc hi) (hn.nodup hu hc) hpairs
  generalize items.foldl (Engine.reconcileItem file u.namespaceHash) (e, listed.elems) = st at hend ⊢
  obtain ⟨e', gone⟩ := st
  have hgone : gone = [] := by
    refine List.eq_nil_iff_forall_not_mem.2 fun x hx => ?_
    obtain ⟨-, item, -, -, hi, -⟩ := hend.mirrored hx
    cases hi
  subst hgone
  exact hend.idles

lemma Idles.reconcile (h : p.Idles e) (hp : p.Reconciled) (ha : p.Unambiguous) (hn : p.DeclaresOnce) (file : FileId) :
    p.Idles (e.reconcile file) := by
  unfold Engine.reconcile
  cases hv : e.program.units.get? file with
  | none => exact h
  | some v =>
    dsimp only
    obtain ⟨u, hu, hecho⟩ := (h.unit file).exists_left hv
    have hremoved : v.removed = false := hecho.removed.trans (hp.units hu).1
    have hopened : p.Idles (e.modifyProgram fun q =>
        { q.modifyUnit file ({ · with dirty := false }) with failedFiles := q.failedFiles.erase file }) :=
      h.modifyUnit ({ · with dirty := false }) (fun _ => ⟨rfl, rfl, rfl⟩) fun _ _ _ hr =>
        ⟨hr.path, hr.namespaceHash, hr.removed, hr.items, hr.content⟩
    have hv' : (e.program.units.modify file ({ · with dirty := false })).get? file =
        some { v with dirty := false } := by
      rw [Dict.get?_modify, if_pos rfl, hv]
      rfl
    generalize he : (e.modifyProgram fun q =>
      { q.modifyUnit file ({ · with dirty := false }) with failedFiles := q.failedFiles.erase file }) = e' at hopened ⊢
    replace hv' : e'.program.units.get? file = some { v with dirty := false } := by rwa [← he]
    rw [if_neg (by simp [hremoved])]
    unfold load
    cases hl : loadContent file v.content with
    | error failure =>
      exact ⟨hopened.queue, hopened.generation, hopened.report, hopened.framed.change,
        hopened.registry.retain (.ofDecls rfl rfl rfl rfl) rfl, hopened.unit, fun hD => hopened.kept hD,
        fun hD => hopened.fresh hD⟩
    | ok content =>
      -- What can be read is what was read before.
      have hcontent : v.content = u.content := by
        refine hecho.content.resolve_right ?_
        rintro ⟨failure, hf⟩
        cases hl.symm.trans hf
      rw [hcontent] at hl
      obtain rfl := hp.settled hu content hl
      have hread : p.Idles { e' with program := e'.program.modifyUnit file ({ · with content := u.content }) } := by
        refine hopened.modifyUnit ({ · with content := u.content }) (fun _ => ⟨rfl, rfl, rfl⟩) fun _ w hw hr => ?_
        cases hu.symm.trans hw
        exact ⟨hr.path, hr.namespaceHash, hr.removed, rfl, .inl rfl⟩
      have hunit : (e'.program.units.modify file ({ · with content := u.content })).get? file =
          some { v with dirty := false, content := u.content } := by
        rw [Dict.get?_modify, if_pos rfl, hv']
        rfl
      dsimp only [Except.map, Program.modifyUnit]
      rw [hunit]
      have hitems : ({ v with dirty := false, content := u.content } : SourceUnit).items? = u.content.items? := by
        simp [SourceUnit.items?, hremoved]
      rw [Option.bind_some, hitems]
      cases hc : u.content.items? with
      | none => exact hread
      | some items =>
        dsimp only
        rw [hecho.namespaceHash]
        exact hread.reconcileItems hp ha hn hu hunit rfl hl hc

/-! An update. -/

structure Echoes (p q : Program) : Prop where
  units : q = { p with units := q.units }
  registry : q.Registry
  unit (file : FileId) : Option.Rel (SourceUnit.Echoes file) (p.units.get? file) (q.units.get? file)

namespace Echoes

lemma refl (h : p.Registry) : p.Echoes p := by
  refine ⟨rfl, h, fun file => ?_⟩
  cases p.units.get? file with
  | none => exact .none
  | some u => exact .some (.refl file u)

lemma modifyUnit (h : p.Echoes q) (file : FileId) {g : SourceUnit → SourceUnit}
    (hg : ∀ v : SourceUnit, v.Is (g v))
    (he : ∀ u v : SourceUnit, u.Echoes file v → u.Echoes file (g v)) : p.Echoes (q.modifyUnit file g) := by
  refine ⟨?_, h.registry.retain (.modifyUnit hg) rfl, fun f => ?_⟩
  · have heq := congrArg (Program.modifyUnit · file g) h.units
    exact heq
  · show Option.Rel _ _ ((q.units.modify file g).get? f)
    have hunit := h.unit f
    rw [Dict.get?_modify]
    split
    · next hf =>
      subst hf
      generalize p.units.get? file = x at hunit
      generalize q.units.get? file = y at hunit
      cases hunit with
      | none => exact .none
      | some hr => exact .some (he _ _ hr)
    · exact hunit

lemma setOrigin (h : p.Echoes q) (file : FileId) {f : Origin → Origin}
    (hf : ∀ origin, f origin = origin ∨ ∀ text ∈ (f origin).text?, (Parse.file text).isOk = false) :
    p.Echoes (q.setOrigin file f) := by
  refine h.modifyUnit file (fun v => ?_) fun u v hr => ?_
  · split <;> exact ⟨rfl, rfl, rfl⟩
  · split
    · next origin loaded hv =>
      have hitems : (UnitContent.source (f origin) loaded).items? = u.content.items? := by
        rw [← hr.items, hv]
        cases loaded <;> rfl
      obtain hsame | hfails := hf origin
      · refine ⟨hr.path, hr.namespaceHash, hr.removed, hitems, ?_⟩
        dsimp only
        rw [hsame, ← hv]
        exact hr.content
      · exact ⟨hr.path, hr.namespaceHash, hr.removed, hitems, .inr (loadContent_fails hfails)⟩
    · exact ⟨hr.path, hr.namespaceHash, hr.removed, hr.items, hr.content⟩

lemma edit (h : p.Echoes q) {change : Edit} (hc : change.isIdle = true) : p.Echoes (q.edit change) := by
  cases change with
  | touch file =>
    exact h.modifyUnit file (fun _ => ⟨rfl, rfl, rfl⟩) fun _ _ hr =>
      ⟨hr.path, hr.namespaceHash, hr.removed, hr.items, hr.content⟩
  | setSource file text =>
    refine h.setOrigin file fun _ => .inr fun t ht => ?_
    cases ht
    simpa [Edit.isIdle] using hc
  | setFile file text =>
    refine h.setOrigin file fun origin => ?_
    cases origin with
    | memory kept => exact .inl rfl
    | path path kept =>
      refine .inr fun t ht => ?_
      cases ht
      simpa [Edit.isIdle] using hc
  | _ => cases hc

lemma edits (h : p.Echoes q) {changes : List Edit} (hc : ∀ change ∈ changes, change.isIdle = true) :
    p.Echoes (changes.foldl Program.edit q) :=
  changes.foldlRecOn _ h fun _ h change hm => h.edit (hc change hm)

lemma begins (h : p.Echoes q) (hr : p.retryable = []) :
    q.nextGeneration.retryable = [] ∧ p.Idles ⟨q.nextGeneration, {}⟩ := by
  have hdecls : q.decls = p.decls := by rw [h.units]
  have hsame (x : DeclId) : q.decl? x = p.decl? x := by rw [decl?, decl?, hdecls]
  have hgeneration : q.generation = p.generation := by rw [h.units]
  refine ⟨?_, rfl, congrArg (· + 1) hgeneration, ?_, ?_, ?_, h.unit, fun {d D} hD => ?_, fun {d D} hD => ?_⟩
  · rw [← hr]
    unfold retryable nextGeneration
    rw [h.units]
  · show ({ generation := q.generation + 1 } : Report) = _
    rw [hgeneration]
  · show p.Framed q.nextGeneration
    rw [h.units]
    rfl
  · exact h.registry.retain (.ofDecls rfl rfl rfl rfl) rfl
  · exact (hsame d).trans hD
  · exact .inl ((hsame d).symm.trans hD)

end Echoes

lemma performWork_idle (h : e.queue = {}) : EngineM.performWork e = .ok () e := by
  have hperform (bound : Nat) : EngineM.performWith bound e = .ok () e := by
    cases bound with
    | zero =>
      rw [EngineM.performWith, EngineM.get_bind, h]
      rfl
    | succ bound => exact EngineM.performWith_succ_of_nil (by rw [h])
  exact hperform _

lemma drain_idle (h : e.program.deletionSet = []) : e.drain = e := by
  have hdrain (fuel : Nat) : Engine.drainWith fuel e = e := by
    cases fuel with
    | zero => rfl
    | succ fuel =>
      unfold Engine.drainWith
      rw [h]
  exact hdrain _

lemma Idles.foldl_reconcile (hp : p.Reconciled) (ha : p.Unambiguous) (hn : p.DeclaresOnce) (files : List FileId)
    {e : Engine} (h : p.Idles e) : p.Idles (files.foldl Engine.reconcile e) :=
  files.foldlRecOn _ h fun _ h file _ => h.reconcile hp ha hn file

/-- After an update, units are looked at again, get texts that cannot be read or lose their files. The next update
reports nothing, and all is as it was, but for new declarations of items that had none. -/
theorem update_of_idle_edits {options : Options} {backend : Backend} {p p' : Program} {report : Report}
    {changes : List Edit}
    (h : Evolves { options, backend } p) (ha : p.Unambiguous) (hu : p.update = (.ok report, p')) (ha' : p'.Unambiguous)
    (hn : p'.DeclaresOnce) (hr : p'.retryable = []) (hc : ∀ change ∈ changes, change.isIdle = true) :
    ∃ report' p'', (changes.foldl edit p').update = (.ok report', p'') ∧ report'.outdated = [] ∧ report'.analyzed = [] ∧
      report'.deleted = [] ∧ p'.Framed p'' ∧ (∀ d D, p'.decl? d = some D → p''.decl? d = some D) ∧
      ∀ d D, p''.decl? d = some D → p'.decl? d = some D ∨ p'.decl? d = none ∧ p'.Renews d D := by
  obtain ⟨hregistry, hmirroring⟩ := h.mirroring
  have hp := hmirroring.update hregistry ha hu
  obtain ⟨hretry, hidle⟩ := ((Echoes.refl hp.registry).edits hc).begins hr
  generalize changes.foldl edit p' = q at hretry hidle ⊢
  have hbegin : p'.Idles q.begin := by
    unfold begin
    dsimp only
    rw [hretry]
    exact hidle.foldl_reconcile hp ha' hn _
  have hdeletions : q.begin.program.deletionSet = [] := by
    rw [hbegin.framed]
    exact hp.deletions
  have hupdate : q.update = (.ok { generation := p'.generation + 1 }, q.begin.program.closed) := by
    unfold update
    rw [performWork_idle hbegin.queue]
    dsimp only
    rw [drain_idle hdeletions, hbegin.report]
  refine ⟨_, _, hupdate, rfl, rfl, rfl, hbegin.framed.change, fun d D hD => ?_, fun d D hD => ?_⟩
  · exact hbegin.kept hD
  · exact hbegin.fresh hD

/-- One unit lost the use of a declaration, which was collected. It is looked at again while another one gets a text
that cannot be read, and the file of a third is removed. -/
theorem update_of_idle_edits_collected :
    let first := "const a = 1;\ncomptime \x7b _ = a; \x7d\n"
    let second := "const a = 1;\ncomptime \x7b _ = 0; \x7d\n"
    let p₁ := [.addSource "a" first, .addSource "b" "export fn f() void \x7b\x7d\n", .addPath "c",
      .setFile 2 (some "export fn g() void \x7b\x7d\n")].foldl Program.edit {}
    let p := p₁.update.2.edit (.setSource 0 second)
    let p' := p.update.2
    p'.decl? 0 = none ∧ p'.nextDecl = 4 ∧ ∃ report p'',
      ([.touch 0, .setSource 1 "const (", .setFile 2 none].foldl Program.edit p').update = (.ok report, p'') ∧
        report.outdated = [] ∧ report.analyzed = [] ∧ report.deleted = [] ∧ p'.Framed p'' ∧
        (p''.decl? 4).isSome = true ∧ ∀ d D, p'.decl? d = some D → p''.decl? d = some D := by
  intro first second p₁ p p'
  let changes : List Edit := [.touch 0, .setSource 1 "const (", .setFile 2 none]
  have hd : p₁.update.1.isOk = true ∧ p₁.Unambiguous ∧ p.update.1.isOk = true ∧ p.Unambiguous ∧ p'.Unambiguous ∧
      p'.DeclaresOnce ∧ p'.retryable = [] ∧ p'.decl? 0 = none ∧ p'.nextDecl = 4 ∧
      ((changes.foldl Program.edit p').update.2.decl? 4).isSome = true ∧ ∀ change ∈ changes, change.isIdle = true := by
    decide +kernel
  obtain ⟨hok₁, ha₁, hok, ha, ha', hn, hr, hgone, hnext, hnew, hidle⟩ := hd
  obtain ⟨_, hu₁⟩ := exists_report hok₁
  obtain ⟨_, hu⟩ := exists_report hok
  have hp₁ : Evolves {} p₁ := Evolves.refl.edits _
  have hp : Evolves {} p := (hp₁.update ha₁ hu₁).edit _
  obtain ⟨report, p'', hupdate, houtdated, hanalyzed, hdeleted, hframed, hkept, -⟩ :=
    update_of_idle_edits hp ha hu ha' hn hr hidle
  have hp'' : p'' = (changes.foldl Program.edit p').update.2 := (congrArg Prod.snd hupdate).symm
  exact ⟨hgone, hnext, report, p'', hupdate, houtdated, hanalyzed, hdeleted, hframed, hp'' ▸ hnew, hkept⟩

/-- Two names with one digest, a compile-time block that is declared twice, or a unit that once had the path of another:
the digest of a declaration is spoilt, and looking at its unit again marks it. -/
theorem touch_marks_again :
    (let text := "const declared_name__hnlbeehkiceollifibcnipahhonchapi = 1;\n" ++
        "const declared_name__bmcdoeckodnmblnfmknejjfmdfclggkd = 2;\n"
      let p := Program.edit {} (.addSource "a" text)
      p.update.1.isOk = true ∧ p.update.2.DeclaresOnce ∧ p.update.2.retryable = [] ∧
        (p.update.2.edit (.touch 0)).update.1.toOption.map (·.outdated) = some [0]) ∧
    (let decls := [⟨"c", false, ⟨0, 1⟩, .comptime ⟨{}, []⟩⟩, ⟨"c", false, ⟨1, 2⟩, .comptime ⟨{}, []⟩⟩]
      let p := Program.edit {} (.addLowered "a" decls)
      p.update.1.isOk = true ∧ p.Unambiguous ∧ p.update.2.Unambiguous ∧ p.update.2.retryable = [] ∧
        (p.update.2.edit (.touch 0)).update.1.toOption.map (·.outdated) = some [0]) ∧
    (let p := (Program.edit {} (.addSource "a" "const x = 1;\n")).edit
        (.addLowered "a" [⟨"x", false, ⟨0, 1⟩, .comptime ⟨{}, []⟩⟩])
      let p' := p.update.2.edit (.removeUnit 1)
      p.update.1.isOk = true ∧ p'.update.1.isOk = true ∧ p'.update.2.Unambiguous ∧ p'.update.2.DeclaresOnce ∧
        p'.update.2.retryable = [] ∧
        (p'.update.2.edit (.touch 0)).update.1.toOption.map (·.outdated) = some [0]) := by
  decide +kernel

end Program

end Frontend
