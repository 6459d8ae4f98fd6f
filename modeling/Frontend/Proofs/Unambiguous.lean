import Mathlib.Data.List.Nodup
import Frontend.Proofs.Registry

/-! Names that tell declarations apart. Where units have different paths and no two of the names at hand have one
digest, an item of a unit meets a declaration of its own unit and name, or none. -/

namespace Frontend

/-- The items that the unit has once it is looked at; if it is removed or cannot be read there are none. -/
def SourceUnit.offers (u : SourceUnit) (file : FileId) : List ItemSummary :=
  if u.removed then []
  else
    match Program.loadContent file u.content with
    | .ok content => content.items?.getD []
    | .error _ => []

structure SourceUnit.Serves (file : FileId) (u u' : SourceUnit) : Prop where
  path : u'.path = u.path
  namespaceHash : u'.namespaceHash = u.namespaceHash
  offers : u'.offers file = u.offers file

namespace SourceUnit
variable {u u' u'' : SourceUnit} {file : FileId}

lemma Serves.refl (u : SourceUnit) : u.Serves file u := ⟨rfl, rfl, rfl⟩

lemma Serves.same (hp : u'.path = u.path) (hn : u'.namespaceHash = u.namespaceHash) (hc : u'.content = u.content)
    (hr : u'.removed = u.removed) : u.Serves file u' := by
  refine ⟨hp, hn, ?_⟩
  unfold SourceUnit.offers
  rw [hc, hr]

lemma Serves.read {content : UnitContent} (h : Program.loadContent file u.content = .ok content) :
    u.Serves file { u with content } := by
  refine ⟨rfl, rfl, ?_⟩
  have h' := Program.loadContent_idem h
  unfold SourceUnit.offers
  dsimp only
  rw [h, h']

lemma offers_eq {items : List ItemSummary} (hl : u.removed = true ∨ Program.loadContent file u.content = .ok u.content)
    (h : u.items? = some items) : u.offers file = items := by
  unfold SourceUnit.items? at h
  unfold SourceUnit.offers
  split at h
  · next hr =>
    cases h
    rw [if_pos hr]
  · next hr =>
    have hl := hl.resolve_left hr
    rw [if_neg hr, hl]
    dsimp only
    rw [h, Option.getD_some]

lemma offers_eq_nil (hl : u.removed = true ∨ Program.loadContent file u.content = .ok u.content)
    (h : u.items? = none) : u.offers file = [] := by
  unfold SourceUnit.items? at h
  unfold SourceUnit.offers
  split at h
  · cases h
  · next hr =>
    have hl := hl.resolve_left hr
    rw [if_neg hr, hl]
    dsimp only
    rw [h, Option.getD_none]

end SourceUnit

def NameHash.qualified (name : String × String) : NameHash := (NameHash.root name.1).child name.2

namespace Program

def names (p : Program) : List (String × String) :=
  (p.units.entries.flatMap fun (file, u) => (u.offers file).map fun item => (u.path, item.name)) ++
    p.decls.values.filterMap fun D => (p.units.get? D.file).map fun u => (u.path, D.name)

/-- Units have different paths, and names have different digests. -/
structure Unambiguous (p : Program) : Prop where
  paths : (p.units.values.map (·.path)).Nodup
  hashes : ∀ x ∈ p.names, ∀ y ∈ p.names, NameHash.qualified x = NameHash.qualified y → x = y

instance (p : Program) : Decidable p.Unambiguous :=
  decidable_of_iff (_ ∧ _) ⟨fun ⟨paths, hashes⟩ => ⟨paths, hashes⟩, fun h => ⟨h.paths, h.hashes⟩⟩

variable {p p' : Program} {file : FileId} {u : SourceUnit}

lemma mem_names_of_offers {item : ItemSummary} (hu : p.units.get? file = some u) (hi : item ∈ u.offers file) :
    (u.path, item.name) ∈ p.names := by
  refine List.mem_append_left _ (List.mem_flatMap.2 ⟨(file, u), Dict.mem_of_get? hu, ?_⟩)
  exact List.mem_map.2 ⟨item, hi, rfl⟩

lemma mem_names_of_decl? {d : DeclId} {D : Decl} (hD : p.decl? d = some D) (hu : p.units.get? D.file = some u) :
    (u.path, D.name) ∈ p.names := by
  refine List.mem_append_right _ (List.mem_filterMap.2 ⟨D, ?_, ?_⟩)
  · exact List.mem_map.2 ⟨(d, D), Dict.mem_of_get? hD, rfl⟩
  · rw [hu, Option.map_some]

def Distinct (p : Program) : Prop :=
  ∀ file u file' u', p.units.get? file = some u → p.units.get? file' = some u' → u.path = u'.path → file = file'

lemma Unambiguous.distinct (h : p.Unambiguous) : p.Distinct := by
  intro file u file' u' hu hu' hp
  have hpaths := h.paths
  unfold Dict.values at hpaths
  rw [List.map_map] at hpaths
  have he := List.inj_on_of_nodup_map hpaths (Dict.mem_of_get? hu) (Dict.mem_of_get? hu') hp
  exact congrArg Prod.fst he

def Serves (p p' : Program) : Prop :=
  ∀ file, Option.Rel (SourceUnit.Serves file) (p.units.get? file) (p'.units.get? file)

lemma Serves.ofUnits (h : p'.units = p.units) : p.Serves p' := by
  intro file
  rw [h]
  cases p.units.get? file with
  | none => exact .none
  | some u => exact .some (.refl u)

lemma Serves.modifyUnit {f : FileId} {g : SourceUnit → SourceUnit} (hu : p'.units = p.units.modify f g)
    (hg : ∀ u, p.units.get? f = some u → u.Serves f (g u)) : p.Serves p' := by
  intro file
  rw [hu, Dict.get?_modify]
  split
  · next hf =>
    subst hf
    cases h : p.units.get? f with
    | none => exact .none
    | some u => exact .some (hg u h)
  · exact ofUnits rfl file

lemma Serves.back {u' : SourceUnit} (h : p.Serves p') (hu' : p'.units.get? file = some u') :
    ∃ u, p.units.get? file = some u ∧ u.Serves file u' := (h file).exists_left hu'

lemma Serves.forth (h : p.Serves p') (hu : p.units.get? file = some u) :
    ∃ u', p'.units.get? file = some u' ∧ u.Serves file u' := (h file).exists_right hu

lemma Serves.register (p : Program) (file : FileId) (ns : NameHash) (item : ItemSummary) :
    p.Serves (p.register file ns item) :=
  modifyUnit (g := fun u => { u with decls := u.decls.insert p.nextDecl }) rfl fun _ _ => .same rfl rfl rfl rfl

lemma Distinct.serves (h : p.Distinct) (hs : p.Serves p') : p'.Distinct := by
  intro file u file' u' hu hu' hp
  obtain ⟨v, hv, hsv⟩ := hs.back hu
  obtain ⟨v', hv', hsv'⟩ := hs.back hu'
  exact h file v file' v' hv hv' (by rw [← hsv.path, ← hsv'.path, hp])

end Program

def Stage.files : Stage → List FileId
  | .retrying todo | .opening todo => todo
  | .reconciling file _ _ todo => file :: todo
  | _ => []

lemma Move.serves {c c' : Config} (hm : Move c c') (he : ¬ c.stage.Ends c'.stage) : c.program.Serves c'.program := by
  obtain (hu | ⟨f, g, hu, hg⟩) | ⟨f, _, _, v, content, -, hv, hc, hu⟩ | ⟨h, -⟩ := hm.units_or
  · exact .ofUnits hu
  · exact .modifyUnit hu fun u _ => .same (hg u).path (hg u).namespaceHash (hg u).content (hg u).removed
  · refine .modifyUnit hu fun w hw => ?_
    cases hv.symm.trans hw
    exact .read hc
  · exact absurd h he

lemma Stage.not_ends {st st' : Stage} (h : st'.isOpening = true) : ¬ st.Ends st' := by
  rintro ⟨-, rfl⟩
  cases h

structure Config.Orderly (N : String × String → Prop) (c : Config) : Prop where
  opening : c.stage.isOpening = true
  files : c.stage.files.Nodup
  distinct : c.engine.program.Distinct
  decls {d D u} : c.engine.program.decl? d = some D → c.engine.program.units.get? D.file = some u → N (u.path, D.name)
  offers {file u item} : file ∈ c.stage.files → c.engine.program.units.get? file = some u → item ∈ u.offers file →
    N (u.path, item.name)
  untaken {file untaken todo u} : c.stage = .reconciling file untaken none todo →
    c.engine.program.units.get? file = some u → untaken = u.decls.elems
  left {file untaken left todo u item} : c.stage = .reconciling file untaken (some left) todo →
    c.engine.program.units.get? file = some u → item ∈ left → item ∈ u.offers file

namespace Config.Orderly
variable {N : String × String → Prop} {c c' : Config}

lemma keep (h : c.Orderly N) (ho : c'.stage.isOpening = true) (hf : c'.stage.files.Sublist c.stage.files)
    (hs : c.program.Serves c'.program)
    (hd : ∀ d D' u, c'.program.decl? d = some D' → c'.program.units.get? D'.file = some u →
      N (u.path, D'.name))
    (hu : ∀ file untaken todo u, c'.stage = .reconciling file untaken none todo →
      c'.program.units.get? file = some u → untaken = u.decls.elems)
    (hl : ∀ file untaken left todo u item, c'.stage = .reconciling file untaken (some left) todo →
      c'.program.units.get? file = some u → item ∈ left → item ∈ u.offers file) : c'.Orderly N where
  opening := ho
  files := h.files.sublist hf
  distinct := h.distinct.serves hs
  decls hD' hu' := hd _ _ _ hD' hu'
  offers hfile hu' hi := by
    obtain ⟨u, hu, hsu⟩ := hs.back hu'
    rw [hsu.path]
    exact h.offers (hf.subset hfile) hu (hsu.offers ▸ hi)
  untaken hst hu' := hu _ _ _ _ hst hu'
  left hst hu' hi := hl _ _ _ _ _ _ hst hu' hi

lemma decls_of (h : c.Orderly N) {p' : Program} (hs : c.program.Serves p') (hf : c.program.Follows p')
    (d : DeclId) (D' : Decl) (u' : SourceUnit) (hD' : p'.decl? d = some D') (hu' : p'.units.get? D'.file = some u') :
    N (u'.path, D'.name) := by
  obtain ⟨D, hD, his⟩ := hf d D' hD'
  rw [his.file] at hu'
  obtain ⟨u, hu, hsu⟩ := hs.back hu'
  rw [hsu.path, his.name]
  exact h.decls hD hu

lemma keepUnits (h : c.Orderly N) (hst : c'.stage = c.stage) (hu : c'.program.units = c.program.units)
    (hf : c.program.Follows c'.program) : c'.Orderly N := by
  have hs : c.program.Serves c'.program := .ofUnits hu
  refine h.keep (hst ▸ h.opening) (hst ▸ .refl _) hs (h.decls_of hs hf) ?_ ?_
  · intro file untaken todo u hst' hu'
    exact h.untaken (hst ▸ hst') (hu ▸ hu')
  · intro file untaken left todo u item hst' hu' hi
    exact h.left (hst ▸ hst') (hu ▸ hu') hi

variable {file : FileId} {item : ItemSummary}

lemma next {untaken untaken' : List DeclId} {left : List ItemSummary} {todo : List FileId} {S S' : List DeclId}
    {B B' : Option (DeclId × Nat)} {e e' : Engine}
    (h : Orderly N ⟨.reconciling file untaken (some (item :: left)) todo, S, B, e⟩) (hs : e.program.Serves e'.program)
    (hd : ∀ d D' u, e'.program.decl? d = some D' → e'.program.units.get? D'.file = some u → N (u.path, D'.name)) :
    Orderly N ⟨.reconciling file untaken' (some left) todo, S', B', e'⟩ := by
  refine h.keep rfl (.refl _) hs hd nofun ?_
  intro f untaken left todo u' i hst hu' hi
  cases hst
  obtain ⟨u, hu, hsu⟩ := hs.back hu'
  rw [hsu.offers]
  exact h.left rfl hu (List.mem_cons_of_mem _ hi)

lemma move (h : c.Orderly N) (hm : Move c c') (ho : c'.stage.isOpening = true) : c'.Orderly N := by
  have hs := hm.serves (Stage.not_ends ho)
  have hf := hm.follows
  cases hm with
  | quiet hq => exact h.keepUnits rfl hq.units (hf hq.nextDecl)
  | collide | claim => exact h.keepUnits rfl rfl (hf rfl)
  | retry => exact h.keepUnits rfl (Engine.markOutdated_units ..) (hf (Engine.Marks.markOutdated ..).nextDecl)
  | retried => exact h.keep rfl (.refl _) hs (h.decls_of hs (hf rfl)) nofun nofun
  | skip => exact h.keep rfl (List.sublist_cons_self ..) hs (h.decls_of hs (hf rfl)) nofun nofun
  | unread | blank | closeUnit =>
    exact h.keep rfl (List.sublist_cons_self ..) hs (h.decls_of hs (hf rfl)) nofun nofun
  | @openUnit file _ e u hu | @read file _ _ e u _ hu =>
    refine h.keep rfl (.refl _) hs (h.decls_of hs (hf rfl)) ?_ nofun
    intro f untaken todo u' hst hu'
    cases hst
    change (e.program.units.modify file _).get? file = some u' at hu'
    rw [Dict.get?_modify, if_pos rfl, hu] at hu'
    cases hu'
    first | rfl | exact (h.untaken rfl hu :)
  | @itemize file untaken todo e u items hu hl hi =>
    refine h.keep rfl (.refl _) hs (h.decls_of hs (hf rfl)) nofun ?_
    intro f untaken left todo u' item hst hu' hm
    cases hst
    cases hu.symm.trans hu'
    rwa [SourceUnit.offers_eq hl hi]
  | @enroll file untaken left todo e ns item hi ht =>
    have hd : ∀ d D' u, (e.program.register file ns item).decl? d = some D' →
        (e.program.register file ns item).units.get? D'.file = some u → N (u.path, D'.name) := by
      intro d D' u' hD' hu'
      obtain ⟨u, hu, hsu⟩ := (Program.Serves.register _ _ _ _).back hu'
      rw [hsu.path]
      obtain ⟨hD, -⟩ | ⟨-, rfl⟩ := Program.decl?_register_cases hD'
      · exact h.decls hD hu
      · exact h.offers List.mem_cons_self hu (h.left rfl hu List.mem_cons_self)
    dsimp only
    split <;> exact h.next (.register _ _ _ _) hd
  | refresh => exact h.next hs (h.decls_of hs (hf (Engine.refresh_nextDecl ..)))
  | again => exact h.next hs (h.decls_of hs (hf (Program.fail_beside ..).nextDecl))
  | disregard => exact h.next hs (h.decls_of hs (hf rfl))
  | drop =>
    refine h.keep rfl (.refl _) hs (h.decls_of hs (hf (Engine.deleteDecl_nextDecl ..))) nofun ?_
    intro f untaken left todo u' item hst hu' hm
    cases hst
    cases hm
  | start => cases h.opening
  | @take e item => cases item <;> cases ho
  | _ => cases ho

variable (h : c.Orderly N) (hr : c.program.Registry)
  (hN : ∀ x y, N x → N y → NameHash.qualified x = NameHash.qualified y → x = y) (hf : file ∈ c.stage.files)
include h hr hN hf

lemma same_item {file' : FileId} {u u' : SourceUnit} {item' : ItemSummary} (hf' : file' ∈ c.stage.files)
    (hu : c.program.units.get? file = some u) (hu' : c.program.units.get? file' = some u')
    (hi : item ∈ u.offers file) (hi' : item' ∈ u'.offers file')
    (hk : u.namespaceHash.child item.name = u'.namespaceHash.child item'.name) :
    file = file' ∧ item.name = item'.name := by
  rw [hr.rooted (Dict.mem_of_get? hu), hr.rooted (Dict.mem_of_get? hu')] at hk
  obtain ⟨hp, hname⟩ := Prod.mk.inj (hN _ _ (h.offers hf hu hi) (h.offers hf' hu' hi') hk)
  exact ⟨h.distinct _ _ _ _ hu hu' hp, hname⟩

lemma own {u : SourceUnit} {d : DeclId} (hu : c.program.units.get? file = some u) (hi : item ∈ u.offers file)
    (ht : c.program.declTable.get? (u.namespaceHash.child item.name) = some d) :
    d ∈ u.decls ∧ ∃ D, c.program.decl? d = some D ∧ D.file = file ∧ D.name = item.name := by
  obtain ⟨D, hD, hn⟩ := hr.named ht
  obtain ⟨v, hv, hm, hh⟩ := hr.placed hD
  have hroot := hr.rooted (Dict.mem_of_get? hu)
  have hroot' := hr.rooted (Dict.mem_of_get? hv)
  have hq : NameHash.qualified (v.path, D.name) = NameHash.qualified (u.path, item.name) := by
    unfold NameHash.qualified
    dsimp only
    rw [← hroot, ← hroot', ← hh, hn]
  have heq := hN _ _ (h.decls hD hv) (h.offers hf hu hi) hq
  obtain ⟨hp, hname⟩ := Prod.mk.inj heq
  have hfile := h.distinct _ _ _ _ hv hu hp
  rw [hfile] at hv
  cases hv.symm.trans hu
  exact ⟨hm, D, hD, hfile, hname⟩

omit hf in
lemma declared {untaken : List DeclId} {left : List ItemSummary} {todo : List FileId} {ns : NameHash} {d : DeclId}
    {D : Decl} (hst : c.stage = .reconciling file untaken (some (item :: left)) todo)
    (hi : c.program.Declares file ns item)
    (ht : c.program.declTable.get? (ns.child item.name) = some d) (hD : c.program.decl? d = some D) :
    D.file = file ∧ D.name = item.name := by
  obtain ⟨u, hu, rfl, -⟩ := hi
  have hf : file ∈ c.stage.files := by
    rw [hst]
    exact List.mem_cons_self
  obtain ⟨-, D', hD', hown⟩ := h.own hr hN hf hu (h.left hst hu List.mem_cons_self) ht
  cases hD.symm.trans hD'
  exact hown

end Config.Orderly

structure Config.Sole (c : Config) : Prop where
  offers {file u} : file ∈ c.stage.files → c.engine.program.units.get? file = some u →
    ((u.offers file).map (·.name)).Nodup
  left {file untaken left todo u} : c.stage = .reconciling file untaken (some left) todo →
    c.engine.program.units.get? file = some u → (left.map (·.name)).Nodup ∧
      ∀ item ∈ left, ∀ d, c.engine.program.declTable.get? (u.namespaceHash.child item.name) = some d → d ∈ untaken

namespace Config.Sole
variable {N : String × String → Prop} {c c' : Config}

lemma keep (h : c.Sole) (hs : c.program.Serves c'.program) (hf : c'.stage.files.Sublist c.stage.files)
    (hl : ∀ file untaken left todo u, c'.stage = .reconciling file untaken (some left) todo →
      c'.program.units.get? file = some u → (left.map (·.name)).Nodup ∧
        ∀ item ∈ left, ∀ d, c'.program.declTable.get? (u.namespaceHash.child item.name) = some d →
          d ∈ untaken) : c'.Sole where
  offers hfile hu' := by
    obtain ⟨u, hu, hsu⟩ := hs.back hu'
    rw [hsu.offers]
    exact h.offers (hf.subset hfile) hu
  left hst hu' := hl _ _ _ _ _ hst hu'

lemma same (h : c.Sole) (hs : c.program.Serves c'.program) (hst : c'.stage = c.stage)
    (ht : c'.program.declTable = c.program.declTable) : c'.Sole := by
  refine h.keep hs (hst ▸ .refl _) fun file untaken left todo u' hst' hu' => ?_
  obtain ⟨u, hu, hsu⟩ := hs.back hu'
  rw [ht, hsu.namespaceHash]
  exact h.left (hst ▸ hst') hu

lemma next {file : FileId} {untaken untaken' : List DeclId} {item : ItemSummary} {left : List ItemSummary}
    {todo : List FileId} {S S' : List DeclId} {B B' : Option (DeclId × Nat)} {e e' : Engine}
    (h : Sole ⟨.reconciling file untaken (some (item :: left)) todo, S, B, e⟩) (hs : e.program.Serves e'.program)
    (hd : ∀ u, e.program.units.get? file = some u → ∀ i ∈ left, i.name ≠ item.name → ∀ d,
      e'.program.declTable.get? (u.namespaceHash.child i.name) = some d →
      (e.program.declTable.get? (u.namespaceHash.child i.name) = some d → d ∈ untaken) → d ∈ untaken') :
    Sole ⟨.reconciling file untaken' (some left) todo, S', B', e'⟩ := by
  refine h.keep hs (.refl _) fun f untaken left todo u' hst hu' => ?_
  cases hst
  obtain ⟨u, hu, hsu⟩ := hs.back hu'
  obtain ⟨hnodup, hleft⟩ := h.left rfl hu
  rw [List.map_cons, List.nodup_cons] at hnodup
  refine ⟨hnodup.2, fun i hi d ht => ?_⟩
  rw [hsu.namespaceHash] at ht
  refine hd u hu i hi (fun hn => hnodup.1 ?_) d ht (hleft i (List.mem_cons_of_mem _ hi) d)
  exact hn ▸ List.mem_map_of_mem hi

lemma untaken {file : FileId} {untaken : List DeclId} {item : ItemSummary} {left : List ItemSummary}
    {todo : List FileId} {S : List DeclId} {B : Option (DeclId × Nat)} {e : Engine} {ns : NameHash} {d : DeclId}
    (h : Sole ⟨.reconciling file untaken (some (item :: left)) todo, S, B, e⟩) (hi : e.program.Declares file ns item)
    (ht : e.program.declTable.get? (ns.child item.name) = some d) : d ∈ untaken := by
  obtain ⟨u, hu, rfl, -⟩ := hi
  exact (h.left rfl hu).2 item List.mem_cons_self d ht

lemma move (h : c.Sole) (ho : c.Orderly N) (hr : c.program.Registry)
    (hN : ∀ x y, N x → N y → NameHash.qualified x = NameHash.qualified y → x = y) (hm : Move c c')
    (hopen : c'.stage.isOpening = true) : c'.Sole := by
  have hs := hm.serves (Stage.not_ends hopen)
  cases hm with
  | quiet hq => exact h.same hs rfl hq.declTable
  | collide | claim => exact h.same hs rfl rfl
  | retry => exact h.same hs rfl (Program.Retains.markOutdated ..).declTable
  | skip | unread | blank | closeUnit => exact h.keep hs (List.sublist_cons_self ..) nofun
  | retried | openUnit | read => exact h.keep hs (.refl _) nofun
  | @itemize file untaken todo e u items hu hl hi =>
    refine h.keep hs (.refl _) fun f untaken left todo u' hst hu' => ?_
    cases hst
    cases hu.symm.trans hu'
    have hoffers := SourceUnit.offers_eq hl hi
    refine ⟨hoffers ▸ h.offers List.mem_cons_self hu, fun item hitem d ht => ?_⟩
    rw [ho.untaken rfl hu]
    exact (ho.own hr hN List.mem_cons_self hu (hoffers ▸ hitem) ht).1
  | @enroll file untaken left todo e ns item hi ht =>
    have hregistered : Sole ⟨.reconciling file untaken (some left) todo, [], none,
        e.modifyProgram (·.register file ns item)⟩ := by
      refine h.next (.register _ _ _ _) fun u hu i hi' hn d htable hold => ?_
      obtain ⟨u', hu', rfl, -⟩ := hi
      cases hu.symm.trans hu'
      change (e.program.declTable.insert _ _).get? _ = _ at htable
      rw [Dict.get?_insert, if_neg] at htable
      · exact hold htable
      · intro hhash
        have hof {x : ItemSummary} (hx : x ∈ item :: left) : x ∈ u.offers file := ho.left rfl hu hx
        have heq := ho.same_item hr hN List.mem_cons_self List.mem_cons_self hu hu (hof List.mem_cons_self)
          (hof (List.mem_cons_of_mem _ hi')) hhash
        exact hn heq.2.symm
    dsimp only
    split <;> exact hregistered.same (.ofUnits rfl) rfl rfl
  | @refresh file untaken left todo e ns d D item hi ht hd hu =>
    refine h.next hs fun u hu i hi' hn x htable hold => ?_
    obtain ⟨u', hu', rfl, -⟩ := hi
    cases hu.symm.trans hu'
    rw [(Program.Retains.refresh ..).declTable] at htable
    have own {j : ItemSummary} {y : DeclId} (hj : j ∈ item :: left)
        (hy : e.program.declTable.get? (u.namespaceHash.child j.name) = some y) :
        ∃ Y, e.program.decl? y = some Y ∧ Y.file = file ∧ Y.name = j.name :=
      (ho.own hr hN List.mem_cons_self hu (ho.left rfl hu hj) hy).2
    obtain ⟨D₁, hD₁, -, hname⟩ := own List.mem_cons_self ht
    obtain ⟨X, hX, -, hname'⟩ := own (List.mem_cons_of_mem _ hi') htable
    refine List.mem_filter.2 ⟨hold htable, decide_eq_true ?_⟩
    rintro rfl
    cases hD₁.symm.trans hX
    exact hn (hname'.symm.trans hname)
  | again hi ht _ hu => exact absurd (h.untaken hi ht) hu
  | disregard => exact h.next hs fun u hu i hi hn d ht hold => hold ht
  | drop =>
    refine h.keep hs (.refl _) fun f untaken left todo u' hst hu' => ?_
    cases hst
    exact ⟨.nil, nofun⟩
  | start => cases ho.opening
  | @take e item => cases item <;> cases hopen
  | _ => cases hopen

end Config.Sole

lemma Program.pendingUnits_sublist (p : Program) : p.pendingUnits.Sublist p.units.keys := by
  unfold pendingUnits Dict.keys
  induction p.units.entries with
  | nil => exact .slnil
  | cons entry rest ih =>
    obtain ⟨file, u⟩ := entry
    rw [List.map_cons, List.filterMap_cons]
    dsimp only
    split
    · exact ih.cons _
    · next hf =>
      obtain rfl := Option.some.inj (Option.ite_none_right_eq_some.1 hf).2
      exact ih.cons_cons _

variable {p : Program}

lemma Program.Unambiguous.orderly (h : p.Unambiguous) (hr : p.Registry) :
    Config.Orderly (· ∈ p.names) p.starting where
  opening := rfl
  files := hr.files.sublist p.pendingUnits_sublist
  distinct := h.distinct
  decls hD hu := mem_names_of_decl? (p := p) hD hu
  offers _ hu hi := mem_names_of_offers hu hi
  untaken := nofun
  left := nofun

def Program.Unrepeated (p : Program) : Prop :=
  ∀ file ∈ p.pendingUnits, ∀ u ∈ p.units.get? file, ((u.offers file).map (·.name)).Nodup

instance (p : Program) : Decidable p.Unrepeated := inferInstanceAs (Decidable (∀ file ∈ p.pendingUnits, _))

lemma Program.Unrepeated.sole (h : p.Unrepeated) : Config.Sole p.starting where
  offers hf hu := h _ hf _ hu
  left := nofun

end Frontend
