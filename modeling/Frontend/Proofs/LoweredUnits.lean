import Frontend.Proofs.Accord.Lowerings
import Frontend.Proofs.Faults
import Frontend.Proofs.Termination

/-! Units of text and units of lowered declarations. A program that is given a text, and one that is given what the text
is lowered to, come to the same in their first update. -/

namespace Frontend

open Analysis (Pointwise)

/-! What two such programs may differ in. -/

def DeclValue.forgetPlace (v : DeclValue) : DeclValue := { v with func := v.func.map ({ · with revision := 0 }) }

/-- Without what tells where the item stands in its unit: its position, its line and the digest of its text. -/
def Decl.forgetPlace (D : Decl) : Decl :=
  { D with index := 0, line := 0, contents := ⟨0⟩, value := D.value.map DeclValue.forgetPlace }

def BackendCall.forgetPlace : BackendCall → BackendCall
  | .allocate D => .allocate D.forgetPlace
  | .free D => .free D.forgetPlace
  | .updateExports D exports => .updateExports D.forgetPlace exports
  | .updateDecl D => .updateDecl D.forgetPlace
  | .updateLine D => .updateLine D.forgetPlace
  | .emitHeader D => .emitHeader D.forgetPlace

def Backend.forgetPlaces : Backend → Backend
  | .silent => .silent
  | .recording r => .recording { r with calls := r.calls.map fun c => { c with call := c.call.forgetPlace } }

/-- The program without the places of its items and without how its units were given. All else stays: declarations with
their names, states, types, values, code and edges, exports, failures, the report, and the calls to the backend. -/
def Program.forgetPlaces (p : Program) : Program :=
  { p with
    backend := p.backend.forgetPlaces
    decls := ⟨p.decls.entries.map fun (d, D) => (d, D.forgetPlace)⟩
    units := ⟨p.units.entries.map fun (file, u) => (file, { u with content := .lowered [] 0 })⟩
    nextRevision := 0 }

/-! Programs in accord whose texts have the same places. -/

namespace Typed

variable {apart : Prop}

lemma InstKind.Matches.eq_of_eq {k l : InstKind} (h : k.Matches apart Eq l) : l = k := by
  cases h with
  | const hv => rw [hv.same.eq_of_eq]
  | code => rfl

lemma Inst.Matches.eq_of_eq {i j : Inst} (h : i.Matches apart Eq Eq j) : j = i := by
  obtain ⟨kind, ty, src⟩ := i
  obtain ⟨kind', ty', src'⟩ := j
  obtain ⟨hk, ht, hs⟩ := h
  dsimp only at hk ht hs
  rw [hk.eq_of_eq, ht, hs]

end Typed

section
variable {numbered : Prop}

lemma Diagnostic.Accords.eq {x x' : Diagnostic} (h : x.Accords ⟨Eq, numbered⟩ x') : x' = x := by
  obtain ⟨file, span, cause⟩ := x
  obtain ⟨rfl, rfl, rfl⟩ := h
  rfl

lemma Export.Accords.eq {x x' : Export} (h : x.Accords ⟨Eq, numbered⟩ x') : x' = x := by
  obtain ⟨id, symbol, src, owner, exported, status⟩ := x
  obtain ⟨rfl, rfl, rfl, rfl, rfl, rfl⟩ := h
  rfl

lemma Typed.Arena.Accords.eq {a a' : Typed.Arena} (h : a.Accords ⟨Eq, numbered⟩ a') : a' = a := by
  obtain ⟨insts, limit⟩ := a
  obtain ⟨insts', limit'⟩ := a'
  obtain ⟨hi, rfl⟩ := h
  have hinsts : insts' = insts := by
    refine Array.ext_getElem? fun i => ?_
    exact (hi i).elim rfl fun _ _ h => congrArg some h.eq_of_eq
  rw [hinsts]

lemma Untyped.Fn.Like.eq_of_eq {f f' : Untyped.Fn} (h : f.Like Eq f') : f' = f := by
  have hk : DeclKind.fn f' = .fn f := DeclKind.Like.eq_of_eq (.fn h)
  cases hk
  rfl

lemma DeclValue.Accords.forgetPlace_eq {v v' : DeclValue} (h : v.Accords ⟨Eq, numbered⟩ v') :
    v'.forgetPlace = v.forgetPlace := by
  obtain ⟨ty, val, arena, func⟩ := v
  obtain ⟨ty', val', arena', func'⟩ := v'
  obtain ⟨rfl, rfl, ha, hf⟩ := h
  dsimp only at ha hf
  unfold forgetPlace
  rw [ha.eq]
  cases hf with
  | none => rfl
  | @some f f' hf =>
    obtain ⟨owner, source, revision, body, state⟩ := f
    obtain ⟨owner', source', revision', body', state'⟩ := f'
    obtain ⟨rfl, hs, -, rfl, rfl⟩ := hf
    dsimp only at hs
    rw [hs.eq_of_eq]
    rfl

lemma Decl.Accords.forgetPlace_eq {D D' : Decl} (h : D.Accords ⟨Eq, numbered⟩ D') : D'.forgetPlace = D.forgetPlace := by
  have hv : D'.value.map DeclValue.forgetPlace = D.value.map DeclValue.forgetPlace := by
    exact h.value.elim rfl fun _ _ hv => congrArg some hv.forgetPlace_eq
  unfold forgetPlace
  rw [h.id, h.name, h.nameHash, h.file, h.src, h.state, h.generation, h.isDoomed, h.isRoot, hv, h.link, h.deps,
    h.dependants]

lemma map_eq_of_forall₂ {α β : Type} {R : α → α → Prop} {f : α → β} {xs ys : List α} (h : List.Forall₂ R xs ys)
    (hf : ∀ x y, R x y → f y = f x) : ys.map f = xs.map f := by
  induction h with
  | nil => rfl
  | cons hxy _ ih => rw [List.map_cons, List.map_cons, hf _ _ hxy, ih]

lemma BackendCall.Accords.forgetPlace_eq {c c' : BackendCall} (h : c.Accords ⟨Eq, numbered⟩ c') :
    c'.forgetPlace = c.forgetPlace := by
  cases h with
  | updateExports hD hx =>
    have hxs := map_eq_of_forall₂ (f := id) hx fun _ _ h => h.eq
    rw [List.map_id, List.map_id] at hxs
    rw [hxs, forgetPlace, forgetPlace, hD.forgetPlace_eq]
  | _ hD => rw [forgetPlace, forgetPlace, hD.forgetPlace_eq]

lemma Backend.Accords.forgetPlaces_eq {b b' : Backend} (h : b.Accords ⟨Eq, numbered⟩ b') :
    b'.forgetPlaces = b.forgetPlaces := by
  cases h with
  | silent => rfl
  | @recording r r' hr =>
    have hc :=
      map_eq_of_forall₂ (f := fun c : CallRecord => { c with call := c.call.forgetPlace }) hr.calls fun x y h => by
      rw [h.call.forgetPlace_eq, h.refusal]
    rw [forgetPlaces, forgetPlaces, hc, hr.rules, hr.nextLink, hr.links]

lemma Dict.Rel.map_eq {κ α γ : Type} {R : κ → α → α → Prop} {d d' : Dict κ α} (h : d.Rel R d') {f : α → γ}
    (hf : ∀ k x y, R k x y → f y = f x) :
    d'.entries.map (fun e => (e.1, f e.2)) = d.entries.map fun e => (e.1, f e.2) :=
  map_eq_of_forall₂ h fun x y hxy => by rw [hxy.1, hf _ _ _ hxy.2]

lemma Dict.Rel.eq {κ α : Type} {R : κ → α → α → Prop} {d d' : Dict κ α} (h : d.Rel R d')
    (hR : ∀ k x y, R k x y → y = x) :
    d' = d := by
  have hm := h.map_eq (f := id) hR
  obtain ⟨xs⟩ := d
  obtain ⟨ys⟩ := d'
  exact congrArg Dict.mk (by simpa using hm)

end

lemma Program.Accords.forgetPlaces_eq {A : Accord} (hA : A.spans = Eq) {p p' : Program} (h : p.Accords A p') :
    p'.forgetPlaces = p.forgetPlaces := by
  have hlike : A.toLikeness = ⟨Eq, A.numbered⟩ := by rw [← hA]
  have hb := h.backend
  have hd := h.decls.map_eq (f := Decl.forgetPlace) fun _ _ _ hD => by
    have hacc := hD.toAccords
    rw [hlike] at hacc
    exact hacc.forgetPlace_eq
  have hu := h.units.map_eq (f := fun u => { u with content := .lowered [] 0 }) fun _ u u' hu => by
    rw [hu.path, hu.namespaceHash, hu.decls, hu.dirty, hu.removed]
  have hf := h.failedDecls
  have hx := h.failedExports
  have he := h.exports
  rw [hlike] at hb hf hx he
  unfold forgetPlaces
  rw [hb.forgetPlaces_eq, hd, hu, hf.eq fun _ _ _ h => h.eq, hx.eq fun _ _ _ h => h.eq, he.eq fun _ _ _ h => h.eq,
    h.options,
    h.nextDecl, h.declTable, h.nextFile, h.failedFiles, h.nextExport, h.exportOwners, h.declExports, h.symbolExports,
    h.deletionSet, h.generation, h.report]

/-! What is in accord with itself. -/

section
variable {A : Likeness} (hs : ∀ s, A.spans s s)
include hs

lemma Export.Accords.refl (x : Export) : x.Accords A x := ⟨rfl, rfl, hs _, rfl, rfl, rfl⟩

lemma Typed.Arena.Accords.refl (a : Typed.Arena) : a.Accords A a := by
  refine ⟨fun i => ?_, rfl⟩
  cases a.insts[i]? with
  | none => exact .none
  | some x => exact .some ⟨Analysis.matches_self_kind x.kind False.elim, rfl, hs _⟩

lemma Function.Accords.refl (f : Function) : f.Accords A f := by
  refine ⟨rfl, ⟨⟨rfl, fun i => ?_⟩, rfl, rfl, rfl, rfl⟩, fun _ => rfl, rfl, rfl⟩
  cases f.source.code.spans[i]? with
  | none => exact .none
  | some s => exact .some (hs s)

lemma DeclValue.Accords.refl (v : DeclValue) : v.Accords A v := by
  refine ⟨rfl, rfl, .refl hs _, ?_⟩
  cases v.func with
  | none => exact .none
  | some f => exact .some (.refl hs f)

lemma Decl.Accords.refl (D : Decl) : D.Accords A D := by
  refine ⟨rfl, rfl, rfl, rfl, hs _, rfl, rfl, rfl, rfl, ?_, rfl, rfl, rfl⟩
  cases D.value with
  | none => exact .none
  | some v => exact .some (.refl hs v)

lemma BackendCall.Accords.refl (c : BackendCall) : c.Accords A c := by
  cases c with
  | updateExports D xs => exact .updateExports (.refl hs D) (List.forall₂_same.2 fun x _ => .refl hs x)
  | allocate D => exact .allocate (.refl hs D)
  | free D => exact .free (.refl hs D)
  | updateDecl D => exact .updateDecl (.refl hs D)
  | updateLine D => exact .updateLine (.refl hs D)
  | emitHeader D => exact .emitHeader (.refl hs D)

lemma Backend.Accords.refl (b : Backend) : b.Accords A b := by
  cases b with
  | silent => exact .silent
  | recording r => exact .recording ⟨List.forall₂_same.2 fun c _ => ⟨.refl hs c.call, rfl⟩, rfl, rfl, rfl⟩

end

/-! A file and what it is lowered to. -/

variable {items : List Item}

lemma getElem?_of_mem_declared {k n i : Nat} {name : String} {it : Item} (h : (i, name, it) ∈ declared k n items) :
    ∃ j, i = k + j ∧ items[j]? = some it := by
  induction items generalizing k n with
  | nil => cases h
  | cons item rest ih =>
    have later {m : Nat} (h : (i, name, it) ∈ declared (k + 1) m rest) :
        ∃ j, i = k + j ∧ (item :: rest)[j]? = some it := by
      obtain ⟨j, rfl, hj⟩ := ih h
      exact ⟨j + 1, by omega, hj⟩
    have here {name' : String} {m : Nat} (h : (i, name, it) ∈ (k, name', item) :: declared (k + 1) m rest) :
        ∃ j, i = k + j ∧ (item :: rest)[j]? = some it := by
      obtain h | h := List.mem_cons.1 h
      · cases h
        exact ⟨0, rfl, rfl⟩
      · exact later h
    unfold declared at h
    split at h
    · exact here h
    · exact here h
    · exact here h
    · exact later h

lemma forall₂_of_mapM {ε α β : Type} {f : α → Except ε β} {xs : List α} {ys : List β} (h : xs.mapM f = .ok ys) :
    List.Forall₂ (fun x y => f x = .ok y) xs ys := by
  induction xs generalizing ys with
  | nil =>
    cases h
    exact .nil
  | cons x xs ih =>
    rw [List.mapM_cons] at h
    cases hx : f x with
    | error e =>
      rw [hx] at h
      cases h
    | ok y =>
      cases hxs : xs.mapM f with
      | error e =>
        rw [hx, hxs] at h
        cases h
      | ok zs =>
        rw [hx, hxs] at h
        cases h
        exact .cons hx (ih hxs)

namespace Untyped

variable {name : String} {scope : Scope}

lemma name_of_ofItem {it : Item} {d : Decl} (h : ofItem it name scope = .ok d) :
    d.name = name ∧ d.isExported = it.isExported ∧ d.src = it.span := by
  unfold ofItem at h
  generalize (Lower.item (.lowering scope scope.owner?) it).run {} = r at h
  cases r with
  | error e => cases h
  | ok x =>
    cases h
    exact ⟨rfl, rfl, rfl⟩

lemma forall₂_of_ofFile {items : List Item} {file : FileId} {ds : List Decl} (h : ofFile items file = .ok ds) :
    List.Forall₂ (fun x d => ofItem x.2.2 x.2.1 (.lowered file) = .ok d) (declared 0 0 items) ds := forall₂_of_mapM h

lemma like_of_ofItem {it : Item} {d : Decl} (h : ofItem it name scope = .ok d) : d.Like Eq d := by
  have hl := ofItem_lowered (.refl (fun _ => rfl) it : it.Like Eq it) name scope scope
  rw [h] at hl
  cases hl with
  | ok h => exact h

end Untyped

def Accord.ofFile (text : String) (items : List Item) (ds : List Untyped.Decl) (spoilt : DeclId → Prop) : Accord where
  spans := Eq
  numbered := False
  places _ name i i' := ∃ it d scope, ds[i]? = some d ∧ items[i']? = some it ∧ Untyped.ofItem it name scope = .ok d
  contents _ c c' := (∃ first, c = .lowered ds first) ∧ c' = .source (.memory text) (some ⟨text, items⟩)
  first := True
  spoilt := spoilt
  first_of_spoilt _ _ := trivial

namespace Accord.ofFile
variable {text : String} {items : List Item} {file : FileId} {ds : List Untyped.Decl} {spoilt : DeclId → Prop}

lemma items_accord (h : Untyped.ofFile items file = .ok ds) (unit : FileId) :
    List.Forall₂ (ItemSummary.Accords (Accord.ofFile text items ds spoilt) unit)
      (ds.zipIdx.map fun (d, i) => .ofDecl i d)
        ((declared 0 0 items).map fun (i, name, it) => .ofItem text i name it) := by
  have hall := Untyped.forall₂_of_ofFile h
  refine List.forall₂_map_left_iff.2 (List.forall₂_map_right_iff.2 (List.forall₂_iff_get.2 ⟨?_, fun i hi hi' => ?_⟩))
  · rw [List.length_zipIdx, hall.length_eq]
  have hlt : i < ds.length := by rwa [List.length_zipIdx] at hi
  have hx : (declared 0 0 items).get ⟨i, hi'⟩ ∈ declared 0 0 items := List.get_mem _ _
  have hz : ds.zipIdx.get ⟨i, hi⟩ = (ds.get ⟨i, hlt⟩, i) := by
    simp only [List.get_eq_getElem, List.getElem_zipIdx, Nat.zero_add]
  have hd := hall.get hi' hlt
  have hget : ds[i]? = some (ds.get ⟨i, hlt⟩) := List.getElem?_eq_getElem hlt
  rw [hz]
  generalize ds.get ⟨i, hlt⟩ = d at hd hget
  generalize (declared 0 0 items).get ⟨i, hi'⟩ = x at hx hd
  obtain ⟨j, name, it⟩ := x
  obtain ⟨j, rfl, hj⟩ := getElem?_of_mem_declared hx
  dsimp only at hd ⊢
  obtain ⟨rfl, he, hs⟩ := Untyped.name_of_ofItem hd
  refine ⟨rfl, hs, ?_, it, d, .lowered file, hget, ?_, hd⟩
  · show (it.isExported || it.isComptime) = (d.isExported || d.isComptime)
    rw [he, Untyped.isComptime_of_ofItem hd]
  · show items[0 + j]? = some it
    rwa [Nat.zero_add]

lemma lawful (h : Untyped.ofFile items file = .ok ds) : (Accord.ofFile text items ds spoilt).Lawful where
  blank := rfl
  point hs := congrArg (fun s : Span => Span.point s.stop) hs
  items := by
    rintro unit _ _ ⟨⟨first, rfl⟩, rfl⟩
    exact .some (items_accord h unit)
  counts {unit u u'} hu := by
    obtain ⟨⟨first, hc⟩, hc'⟩ := hu.content
    unfold SourceUnit.itemCount
    rw [hc, hc']
    dsimp only
    rw [← (Untyped.forall₂_of_ofFile h).length_eq]
    exact declared_length_le 0 0 items
  numbers hn := hn.elim
  lowers := by
    rintro unit _ _ name i i' src src' ⟨⟨first, rfl⟩, rfl⟩ ⟨it, d, scope, hd, hit, ho⟩ - scope₁ scope₂
    unfold UnitContent.lower
    dsimp only
    rw [hd, Option.bind_some, hit]
    dsimp only
    rw [Untyped.ofItem_scope it name scope scope₂, ho]
    exact .ok (Untyped.like_of_ofItem ho)

/-! Reconciling the units, item by item. -/

variable {e e' : Engine} {unit : FileId} {i i' : ItemSummary} {d : DeclId}

lemma repeatedItem (he : e.Accords (Accord.ofFile text items ds spoilt) e') (hs : i'.src = i.src)
    (hn : i'.name = i.name)
    (hd : d < e.program.nextDecl) :
    (e.repeatedItem unit d i).Accords (Accord.ofFile text items ds fun x => spoilt x ∨ x = d)
      (e'.repeatedItem unit d i') := by
  have hp := he.program
  -- The declaration has lost its place, and has not failed yet.
  have hmoved := hp.decls.modifyTo d (S := fun x D D' => D.Accords ⟨Eq, False⟩ D' ∧
      (x ≠ d → D.Corresponds (Accord.ofFile text items ds spoilt) x D'))
    (f := fun D => { D with index := i.index, src := i.src, contents := ⟨i.hash.bits ^^^ redefinitionMask⟩ })
    (g := fun D => { D with index := i'.index, src := i'.src, contents := ⟨i'.hash.bits ^^^ redefinitionMask⟩ })
    (fun D D' _ _ hD => ⟨{ hD.toAccords with src := hs.symm }, fun hx => absurd rfl hx⟩)
    fun _ _ _ _ hD => ⟨hD.toAccords, fun _ => hD⟩
  have hfailed := hmoved.modifyTo d (S := Decl.Corresponds (Accord.ofFile text items ds fun x => spoilt x ∨ x = d))
    (f := fun D => { D with state := .failed, generation := e.program.generation })
    (g := fun D => { D with state := .failed, generation := e'.program.generation })
    (fun D D' _ _ hD =>
      { hD.1 with
        state := rfl
        generation := hp.generation
        place := fun hx => absurd (.inr rfl) hx
        stuck := fun _ => rfl
        fresh := fun _ h => nomatch h })
    fun x D D' hx hD =>
      { (hD.2 hx) with
        place := fun hs => (hD.2 hx).place fun h => hs (.inl h)
        stuck := fun hs => (hD.2 hx).stuck (hs.resolve_right hx) }
  refine ⟨?_, he.queue⟩
  show Program.Accords _ (Program.fail _ (.declaration (.file unit) d) i.src (.redefinition i.name))
    (Program.fail _ (.declaration (.file unit) d) i'.src (.redefinition i'.name))
  exact { hp with
    decls := hfailed
    failedDecls := hp.failedDecls.insertIfNew ⟨rfl, hs.symm, congrArg Cause.redefinition hn⟩
    units := hp.units.mono fun _ _ _ hu => { hu with }
    spoilt := fun hx => hx.elim hp.spoilt fun hx => hx ▸ hd }

lemma reconcileItem (he : e.Accords (Accord.ofFile text items ds spoilt) e') (hg : e.program.Graph)
    (hi : i.Accords (Accord.ofFile text items ds spoilt) unit i') (ns : NameHash) :
    ∃ spoilt' e₁ e₁', Engine.reconcileItem unit ns (e, []) i = (e₁, []) ∧
      Engine.reconcileItem unit ns (e', []) i' = (e₁', []) ∧
      e₁.Accords (Accord.ofFile text items ds spoilt') e₁' ∧ e₁.program.Graph := by
  unfold Engine.reconcileItem
  dsimp only
  rw [hi.name, he.program.declTable]
  cases e.program.declTable.get? (ns.child i.name) with
  | none =>
    have hr : (e.modifyProgram (·.register unit ns i)).Accords (Accord.ofFile text items ds spoilt)
        (e'.modifyProgram (·.register unit ns i')) := he.modifyProgram fun hp => hp.register unit ns hi
    refine ⟨spoilt, _, _, rfl, rfl, ?_, ?_⟩
    · rw [hi.isRoot, he.program.nextDecl]
      split
      · exact hr.push _
      · exact hr
    · split <;> exact hg.register unit ns i
  | some d =>
    dsimp only
    obtain ⟨hx, hy⟩ | ⟨D, D', hx, hy, -⟩ := EngineM.rel_cases (he.program.decl? d)
    · rw [hx, hy]
      exact ⟨spoilt, e, e', rfl, rfl, he, hg⟩
    · rw [hx, hy]
      exact ⟨_, _, _, rfl, rfl, repeatedItem he hi.src.symm hi.name (hg.bound hx),
        Engine.graph_repeatedItem hg unit d i⟩

lemma foldl_reconcileItem {is is' : List ItemSummary}
    (hi : ∀ spoilt, List.Forall₂ (ItemSummary.Accords (Accord.ofFile text items ds spoilt) unit) is is')
    (he : e.Accords (Accord.ofFile text items ds spoilt) e') (hg : e.program.Graph) (ns : NameHash) :
    ∃ spoilt' e₁ e₁', is.foldl (Engine.reconcileItem unit ns) (e, []) = (e₁, []) ∧
      is'.foldl (Engine.reconcileItem unit ns) (e', []) = (e₁', []) ∧
      e₁.Accords (Accord.ofFile text items ds spoilt') e₁' := by
  induction is generalizing is' e e' spoilt with
  | nil =>
    cases hi spoilt
    exact ⟨spoilt, e, e', rfl, rfl, he⟩
  | cons i is ih =>
    obtain ⟨i', is'', hii, -, rfl⟩ := List.forall₂_cons_left_iff.1 (hi spoilt)
    obtain ⟨spoilt', e₁, e₁', hx, hy, he₁, hg₁⟩ := reconcileItem he hg hii ns
    rw [List.foldl_cons, List.foldl_cons, hx, hy]
    exact ih (fun spoilt => (List.forall₂_cons.1 (hi spoilt)).2) he₁ hg₁

end Accord.ofFile

/-! Programs with one unit. -/

namespace Program

def sole (options : Options) (backend : Backend) (path : String) (content : UnitContent) (revision : Nat) : Program :=
  { options, backend, nextFile := 1, units := ⟨[(0, .ofContent path content)]⟩, nextRevision := revision }

variable {options : Options} {backend : Backend} {path : String} {content content' : UnitContent} {revision : Nat}

lemma unstarted_sole : (sole options backend path content revision).Unstarted := ⟨rfl, rfl, fun _ => rfl⟩

lemma graph_sole : (sole options backend path content revision).Graph := (Graph.empty options backend).ofDecls rfl rfl

lemma begin_sole (hc : loadContent 0 content = .ok content') {is : List ItemSummary} (hi : content'.items? = some is) :
    (sole options backend path content revision).begin =
      let e : Engine := ⟨{ (sole options backend path content revision).nextGeneration with
        units := ⟨[(0, { SourceUnit.ofContent path content' with dirty := false })]⟩ }, {}⟩
      let (e, gone) := is.foldl (Engine.reconcileItem 0 (.root path)) (e, [])
      gone.foldl Engine.deleteDecl e := by
  show Engine.reconcile ⟨(sole options backend path content revision).nextGeneration, {}⟩ 0 = _
  unfold Engine.reconcile
  have hu : (sole options backend path content revision).nextGeneration.units.get? 0 = some (.ofContent path content) :=
    rfl
  dsimp only
  rw [hu]
  dsimp only
  have hr : ¬ (SourceUnit.ofContent path content).removed = true := Bool.false_ne_true
  rw [if_neg hr]
  unfold load
  rw [show (SourceUnit.ofContent path content).content = content from rfl, hc]
  dsimp only [Except.map]
  split
  · next hn => cases hi.symm.trans hn
  · next items hs =>
    cases hi.symm.trans hs
    rfl

variable {text : String} {items : List Item} {file : FileId} {ds : List Untyped.Decl}

lemma sourced_sole (h : Untyped.ofFile items file = .ok ds) :
    (sole options backend path (.lowered ds 0) revision).Sourced where
  units := by
    intro f u hu
    cases List.mem_singleton.1 hu
    rintro _ _ hc item hi
    cases hc
    obtain ⟨hlen, hall⟩ := List.forall₂_iff_get.1 (Untyped.forall₂_of_ofFile h)
    obtain ⟨n, rfl⟩ := List.mem_iff_get.1 hi
    have hlt : n.1 < (declared 0 0 items).length := by
      rw [hlen]
      exact n.2
    have hx := hall n hlt n.2
    exact Untyped.nests_of_ofItem hx
  nests := nofun

lemma begin_accords (options : Options) (backend : Backend) (path : String) (revision : Nat)
    (hp : Parse.file text = .ok items) (h : Untyped.ofFile items file = .ok ds) :
    ∃ spoilt, (sole options backend path (.lowered ds 0) revision).begin.Accords (Accord.ofFile text items ds spoilt)
      (sole options backend path (.source (.memory text) none) 0).begin := by
  have hload : loadContent 0 (.source (.memory text) none) = .ok (.source (.memory text) (some ⟨text, items⟩)) :=
    loadContent_source rfl hp
  rw [begin_sole (rfl : loadContent 0 (.lowered ds 0) = .ok (.lowered ds 0)) rfl, begin_sole hload rfl]
  have hstart : Engine.Accords (Accord.ofFile text items ds fun _ => False)
      ⟨{ (sole options backend path (.lowered ds 0) revision).nextGeneration with
        units := ⟨[(0, { SourceUnit.ofContent path (.lowered ds 0) with dirty := false })]⟩ }, {}⟩
      ⟨{ (sole options backend path (.source (.memory text) none) 0).nextGeneration with
        units := ⟨[(0,
          { SourceUnit.ofContent path (.source (.memory text) (some ⟨text, items⟩)) with dirty := false })]⟩ }, {}⟩ :=
    ⟨{ options := rfl, backend := .refl (fun _ => rfl) backend, decls := .nil, nextDecl := rfl, declTable := rfl,
       units := .cons ⟨rfl, rfl, rfl, rfl, ⟨⟨0, rfl⟩, rfl⟩, rfl, rfl⟩ .nil, nextFile := rfl, failedDecls := .nil,
       failedFiles := rfl, failedExports := .nil, exports := .nil, nextExport := rfl, exportOwners := rfl,
       declExports := rfl, symbolExports := rfl, deletionSet := rfl, generation := rfl, report := rfl,
       nextRevision := False.elim, spoilt := False.elim }, rfl⟩
  obtain ⟨spoilt, e, e', hx, hy, he⟩ := Accord.ofFile.foldl_reconcileItem
    (fun _ => Accord.ofFile.items_accord h 0) hstart ((Graph.empty options backend).ofDecls rfl rfl) (.root path)
  dsimp only
  rw [hx, hy]
  exact ⟨spoilt, he⟩

end Program

def Accord.worked : Accord where
  spans := Eq
  numbered := False
  places _ _ _ _ := True
  contents _ _ _ := True
  first := False
  spoilt _ := False
  first_of_spoilt _ h := h

lemma Accord.ofFile.worked {text : String} {ds : List Untyped.Decl} {spoilt : DeclId → Prop} {e e' : Engine}
    (h : e.Accords (Accord.ofFile text items ds spoilt) e') : e.Accords .worked e' where
  program := { h.program with
    decls := h.program.decls.mono fun _ _ _ hD =>
      { hD.toAccords with place := fun _ => trivial, stuck := False.elim, fresh := False.elim }
    units := h.program.units.mono fun _ _ _ hu => { hu with content := trivial }
    nextRevision := False.elim
    spoilt := False.elim }
  queue := h.queue

namespace Program
variable {p q : Program}

lemma update_eq_of_worked
    (h : EngineM.EndInAccord .worked Eq (EngineM.performWork p.begin) (EngineM.performWork q.begin))
    (hs : p.Sourced) (hg : p.Graph) : q.update.1 = p.update.1 ∧ q.update.2.forgetPlaces = p.update.2.forgetPlaces := by
  have hp := performWork_terminates hs hg
  unfold update
  unfold Settles at hp
  generalize EngineM.performWork p.begin = r at h hp
  generalize EngineM.performWork q.begin = r' at h
  cases h with
  | ok _ he =>
    have hd := (he.drain not_false).program
    refine ⟨congrArg Except.ok hd.report, ?_⟩
    have hf : Accords .worked (Engine.drain _).program.closed (Engine.drain _).program.closed :=
      { hd with units := hd.units.filter fun _ _ _ hu => by rw [hu.removed], report := rfl }
    exact hf.forgetPlaces_eq rfl
  | error he => exact ⟨rfl, he.program.forgetPlaces_eq rfl⟩
  | lost hl =>
    cases hl
    cases hp

lemma addLowered_eq_sole (options : Options) (backend : Backend) (path : String) (ds : List Untyped.Decl) :
    ({ options, backend } : Program).addLowered path ds = sole options backend path (.lowered ds 0) (0 + ds.length) :=
  rfl

lemma addSource_eq_sole (options : Options) (backend : Backend) (path text : String) :
    ({ options, backend } : Program).addSource path text = sole options backend path (.source (.memory text) none) 0 :=
  rfl

lemma performWork_endInAccord_sole (options : Options) (backend : Backend) (path : String) (revision : Nat)
    {text : String}
    {items : List Item} {file : FileId} {ds : List Untyped.Decl} (hp : Parse.file text = .ok items)
    (hl : Untyped.ofFile items file = .ok ds) :
    EngineM.EndInAccord .worked Eq (EngineM.performWork (sole options backend path (.lowered ds 0) revision).begin)
      (EngineM.performWork (sole options backend path (.source (.memory text) none) 0).begin) := by
  obtain ⟨spoilt, he⟩ := begin_accords options backend path revision hp hl
  have begun (content : UnitContent) (revision : Nat) : Kept (fun o c => c.Begun o)
      ⟨.working, [], none, (sole options backend path content revision).begin⟩ :=
    begin_upheld Config.Begun.upheld ⟨_, .begin unstarted_sole graph_sole .nil⟩
  have h := EngineM.performWork_endInAccord (Accord.ofFile.lawful hl) (Config.Begun.steady _) he ⟨begun _ _, begun _ _⟩
  generalize EngineM.performWork (sole options backend path (.lowered ds 0) revision).begin = r at h
  generalize EngineM.performWork (sole options backend path (.source (.memory text) none) 0).begin = r' at h
  cases h with
  | ok ha he => exact .ok ha (Accord.ofFile.worked he)
  | error he => exact .error (Accord.ofFile.worked he)
  | lost hl => exact .lost hl

/-- A fresh program that is given what a text is lowered to, and one that is given the text, are updated with the same
outcome, and come to the same but for the places of items and the contents of units: declarations with their states,
values, code and edges, exports, failures and calls to the backend. -/
theorem update_lowered_eq_update_source (options : Options) (backend : Backend) (path text : String) {items : List Item}
    {file : FileId} {ds : List Untyped.Decl} (hp : Parse.file text = .ok items)
    (hl : Untyped.ofFile items file = .ok ds) :
    let p := ({ options, backend } : Program).addLowered path ds
    let q := ({ options, backend } : Program).addSource path text
    q.update.1 = p.update.1 ∧ q.update.2.forgetPlaces = p.update.2.forgetPlaces := by
  rw [addLowered_eq_sole, addSource_eq_sole]
  exact update_eq_of_worked (performWork_endInAccord_sole options backend path _ hp hl) (sourced_sole hl) graph_sole

/-- A text with an item that declares nothing, a failure, and a name that is taken twice. -/
theorem update_lowered_eq_update_source_failing :
    let text :=
    "test \"t\" \x7b\x7d export fn f(a: u8) u8 \x7b return a + c; \x7d\nconst c: u8 = 300; const d = 1; const d = 2;\n"
    ∃ items ds, Parse.file text = .ok items ∧ Untyped.ofFile items 0 = .ok ds ∧ ds.length < items.length ∧
      let p := ({ backend := .recording {} } : Program).addLowered "a" ds
      let q := ({ backend := .recording {} } : Program).addSource "a" text
      q.update.1 = p.update.1 ∧ q.update.2.forgetPlaces = p.update.2.forgetPlaces := by
  intro text
  have hd : (match Parse.file text with
      | .ok items =>
        match Untyped.ofFile items 0 with
        | .ok ds => decide (ds.length < items.length)
        | .error _ => false
      | .error _ => false) = true := by decide +kernel
  split at hd
  · next items hp =>
    split at hd
    · next ds hl =>
      exact ⟨items, ds, hp, hl, of_decide_eq_true hd,
        update_lowered_eq_update_source {} (.recording {}) "a" text hp hl⟩
    · cases hd
  · cases hd

end Program

end Frontend
