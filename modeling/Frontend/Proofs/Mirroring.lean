import Frontend.Proofs.Reports

/-! Declarations and the items they were made from. Between updates a declaration has the place, the digest and the kind
of the item of its name in what was last read of its unit, however it was registered; and every item that is a root has
a declaration. -/

namespace Frontend

structure Decl.Mirrors (D : Decl) (item : ItemSummary) : Prop where
  name : D.name = item.name
  index : D.index = item.index
  src : D.src = item.src
  line : D.line = item.line
  contents : D.contents = item.hash
  isRoot : D.isRoot = item.isRoot

structure Decl.Matches (D D' : Decl) : Prop where
  name : D'.name = D.name
  file : D'.file = D.file
  index : D'.index = D.index
  src : D'.src = D.src
  line : D'.line = D.line
  contents : D'.contents = D.contents
  isRoot : D'.isRoot = D.isRoot

namespace Decl
variable {D D' D'' : Decl} {item : ItemSummary}

lemma Matches.refl (D : Decl) : D.Matches D := ⟨rfl, rfl, rfl, rfl, rfl, rfl, rfl⟩

lemma Matches.mirrors (h : D.Matches D') (hm : D.Mirrors item) : D'.Mirrors item :=
  ⟨h.name.trans hm.name, h.index.trans hm.index, h.src.trans hm.src, h.line.trans hm.line, h.contents.trans hm.contents,
    h.isRoot.trans hm.isRoot⟩

end Decl

namespace Program
variable {p p' p'' : Program} {d : DeclId} {f : Decl → Decl}

lemma rel_matches_refl (o : Option Decl) : Option.Rel Decl.Matches o o := by
  cases o with
  | none => exact .none
  | some D => exact .some (.refl D)

structure Fixes (p p' : Program) : Prop where
  decl (d : DeclId) : Option.Rel Decl.Matches (p.decl? d) (p'.decl? d)
  units : p'.units = p.units
  nextDecl : p'.nextDecl = p.nextDecl

namespace Fixes

lemma ofDecls (hd : p'.decls = p.decls) (hu : p'.units = p.units) (hn : p'.nextDecl = p.nextDecl) : p.Fixes p' := by
  refine ⟨fun d => ?_, hu, hn⟩
  rw [decl?, decl?, hd]
  exact rel_matches_refl _

lemma rewire (h : p.Rewired p') : p.Fixes p' := by
  refine ⟨fun x => ?_, h.units, h.nextDecl⟩
  refine (h.decl x).elim .none fun _ _ hw => ?_
  cases hw
  exact .some ⟨rfl, rfl, rfl, rfl, rfl, rfl, rfl⟩

lemma decl?_of (h : p.Fixes p') {D' : Decl} (hD' : p'.decl? d = some D') : ∃ D, p.decl? d = some D ∧ D.Matches D' :=
  (h.decl d).exists_left hD'

end Fixes

/-! One unit. -/

/-- Of the declarations of the unit, those that are taken are as their items say, and of the items that are dealt with
those that are roots have one. What the items that are left declare is not taken. -/
structure Reflects (p : Program) (u : SourceUnit) (untaken : List DeclId) (left items : List ItemSummary) : Prop where
  decls {d : DeclId} : d ∈ u.decls → d ∈ untaken ∨ ∃ D item, p.decl? d = some D ∧ item ∈ items ∧ D.Mirrors item
  roots {item : ItemSummary} : item ∈ items → item ∉ left → item.isRoot = true →
    ∃ d D, d ∈ u.decls ∧ d ∉ untaken ∧ p.decl? d = some D ∧ D.Mirrors item
  free {item : ItemSummary} {d : DeclId} {D : Decl} : item ∈ left → d ∈ u.decls → p.decl? d = some D →
    D.name = item.name → d ∈ untaken

namespace Reflects
variable {u u' : SourceUnit} {untaken : List DeclId} {left items : List ItemSummary}

lemma transport (h : p.Reflects u untaken left items)
    (hs : ∀ d ∈ u'.decls, d ∈ u.decls ∧ Option.Rel Decl.Matches (p.decl? d) (p'.decl? d))
    (hr : ∀ d D, d ∈ u.decls → d ∉ untaken → p.decl? d = some D → D.isRoot = true → d ∈ u'.decls) :
    p'.Reflects u' untaken left items where
  decls {d} hd := by
    obtain ⟨hd, hx⟩ := hs d hd
    refine (h.decls hd).imp_right ?_
    rintro ⟨D, item, hD, hi, hm⟩
    obtain ⟨D', hD', hx⟩ := hx.exists_right hD
    exact ⟨D', item, hD', hi, hx.mirrors hm⟩
  roots {item} hi hl hroot := by
    obtain ⟨d, D, hd, ht, hD, hm⟩ := h.roots hi hl hroot
    have hd' := hr d D hd ht hD (hm.isRoot.trans hroot)
    obtain ⟨D', hD', hx⟩ := (hs d hd').2.exists_right hD
    exact ⟨d, D', hd', ht, hD', hx.mirrors hm⟩
  free {item d D'} hi hd hD' hn := by
    obtain ⟨hd, hx⟩ := hs d hd
    obtain ⟨D, hD, hx⟩ := hx.exists_left hD'
    exact h.free hi hd hD (hx.name.symm.trans hn)

variable {item : ItemSummary}

lemma register {file : FileId} {ns : NameHash} {left' : List ItemSummary} (h : p.Reflects u untaken left items)
    (hb : ∀ d ∈ u.decls, d < p.nextDecl) (ht : ∀ d ∈ untaken, d < p.nextDecl) (hi : item ∈ items)
    (hl : ∀ i ∈ left', i ∈ left ∧ i.name ≠ item.name) (hl' : ∀ i ∈ left, i = item ∨ i ∈ left') :
    (p.register file ns item).Reflects { u with decls := u.decls.insert p.nextDecl } untaken left' items := by
  obtain ⟨N, hN, hm⟩ : ∃ N, (p.register file ns item).decl? p.nextDecl = some N ∧ N.Mirrors item :=
    ⟨_, (Dict.get?_insert ..).trans (if_pos rfl), rfl, rfl, rfl, rfl, rfl, rfl⟩
  refine ⟨fun {d} hd => ?_, fun {i} hi' hn hroot => ?_, fun {i d D} hi' hd hD hn => ?_⟩
  · obtain rfl | hd := (OrdSet.mem_insert ..).1 hd
    · exact .inr ⟨N, item, hN, hi, hm⟩
    · rw [decl?_register_of_lt (hb d hd)]
      exact h.decls hd
  · by_cases hx : i ∈ left
    · obtain rfl | hx := hl' i hx
      · refine ⟨p.nextDecl, N, (OrdSet.mem_insert ..).2 (.inl rfl), fun ht' => ?_, hN, hm⟩
        exact Nat.lt_irrefl _ (ht _ ht')
      · exact absurd hx hn
    · obtain ⟨d, D, hd, hfree, hD, hm⟩ := h.roots hi' hx hroot
      exact ⟨d, D, (OrdSet.mem_insert ..).2 (.inr hd), hfree, (decl?_register_of_lt (hb d hd)).trans hD, hm⟩
  · obtain ⟨hx, hne⟩ := hl i hi'
    obtain rfl | hd := (OrdSet.mem_insert ..).1 hd
    · cases hN.symm.trans hD
      exact absurd (hn.symm.trans hm.name) hne
    · exact h.free hx hd ((decl?_register_of_lt (hb d hd)).symm.trans hD) hn

lemma refresh {D' : Decl} (h : p.Reflects u untaken (item :: left) items) (hi : item ∈ items)
    (hn : item.name ∉ left.map (·.name)) (hd : d ∈ u.decls) (hu : d ∈ untaken) (hD' : p'.decl? d = some D')
    (hm : D'.Mirrors item) (hs : ∀ x, x ≠ d → Option.Rel Decl.Matches (p.decl? x) (p'.decl? x)) :
    p'.Reflects u (untaken.filter (· ≠ d)) left items where
  decls {x} hx := by
    by_cases hxd : x = d
    · subst hxd
      exact .inr ⟨D', item, hD', hi, hm⟩
    · refine (h.decls hx).imp (fun ht => List.mem_filter.2 ⟨ht, decide_eq_true hxd⟩) ?_
      rintro ⟨X, i, hX, hi, hm⟩
      obtain ⟨X', hX', hr⟩ := (hs x hxd).exists_right hX
      exact ⟨X', i, hX', hi, hr.mirrors hm⟩
  roots {i} hi' hl hroot := by
    by_cases hii : i = item
    · subst hii
      exact ⟨d, D', hd, fun ht => by simpa using (List.mem_filter.1 ht).2, hD', hm⟩
    · obtain ⟨x, X, hx, ht, hX, hmx⟩ := h.roots hi' (fun hx => (List.mem_cons.1 hx).elim hii hl) hroot
      by_cases hxd : x = d
      · exact absurd (hxd ▸ hu) ht
      · obtain ⟨X', hX', hr⟩ := (hs x hxd).exists_right hX
        exact ⟨x, X', hx, fun hf => ht (List.mem_filter.1 hf).1, hX', hr.mirrors hmx⟩
  free {i x X'} hi' hx hX' hname := by
    have hne : x ≠ d := by
      rintro rfl
      cases hD'.symm.trans hX'
      exact hn (List.mem_map.2 ⟨i, hi', hname.symm.trans hm.name⟩)
    obtain ⟨X, hX, hr⟩ := (hs x hne).exists_left hX'
    exact List.mem_filter.2 ⟨h.free (List.mem_cons_of_mem _ hi') hx hX (hr.name.symm.trans hname), decide_eq_true hne⟩

end Reflects

def Current (p : Program) (u : SourceUnit) : Prop :=
  ∀ items, u.content.items? = some items → (items.map (·.name)).Nodup → p.Reflects u [] [] items

lemma Current.transport {u u' : SourceUnit} (h : p.Current u) (hc : u'.content.items? = u.content.items?)
    (hs : ∀ d ∈ u'.decls, d ∈ u.decls ∧ Option.Rel Decl.Matches (p.decl? d) (p'.decl? d))
    (hr : ∀ d D, d ∈ u.decls → p.decl? d = some D → D.isRoot = true → d ∈ u'.decls) : p'.Current u' :=
  fun items hi hn => (h items (hc ▸ hi) hn).transport hs fun d D hd _ => hr d D hd

/-- The unit is in the state of its content: what it would be read as is what it was read as. -/
def Settled (file : FileId) (u : SourceUnit) : Prop :=
  ∀ content, loadContent file u.content = .ok content → content = u.content

/-- Between updates: units that are not to be dropped, nor have other items by now, are as they were read. -/
structure Mirroring (p : Program) : Prop where
  current {file : FileId} {u : SourceUnit} : p.units.get? file = some u → u.removed = false →
    (u.isLowered = true → u.dirty = false) → p.Current u
  settled {file : FileId} {u : SourceUnit} : p.units.get? file = some u → u.removed = false → u.dirty = false →
    Settled file u

end Program

namespace Stage
variable {st : Stage}

def Reconciles (st : Stage) (file : FileId) : Prop := ∃ untaken left todo, st = .reconciling file untaken left todo

def isReconciling : Stage → Bool
  | reconciling .. => true
  | _ => false

lemma ne_reconciling (h : st.isReconciling = false) (file : FileId) (untaken : List DeclId)
    (left : Option (List ItemSummary)) (todo : List FileId) : st ≠ .reconciling file untaken left todo := by
  rintro rfl
  cases h

lemma not_reconciles (h : st.isReconciling = false) (file : FileId) : ¬ st.Reconciles file := by
  rintro ⟨untaken, left, todo, hs⟩
  exact ne_reconciling h _ _ _ _ hs

lemma isReconciling_eq_false (h : st.isOpening = false) : st.isReconciling = false := by
  cases st with
  | reconciling => cases h
  | _ => rfl

end Stage

structure Config.Mirroring (c : Config) : Prop where
  current {file u} : c.engine.program.units.get? file = some u → u.removed = false →
    (u.isLowered = true → u.dirty = false) → ¬ c.stage.Reconciles file → c.engine.program.Current u
  settled {file u} : c.engine.program.units.get? file = some u → u.removed = false → u.dirty = false →
    ¬ c.stage.Reconciles file → Program.Settled file u
  unread {file untaken todo u failure} : c.stage = .reconciling file untaken none todo →
    c.engine.program.units.get? file = some u → u.removed = false →
    Program.loadContent file u.content = .error failure → c.engine.program.Current u
  reading {file untaken left todo u} : c.stage = .reconciling file untaken (some left) todo →
    c.engine.program.units.get? file = some u → u.removed = false → Program.Settled file u ∧
      ∀ items, u.content.items? = some items → (items.map (·.name)).Nodup →
        (∃ done, items = done ++ left) ∧ c.engine.program.Reflects u untaken left items
  untaken {file untaken left todo x} : c.stage = .reconciling file untaken left todo → x ∈ untaken →
    x < c.engine.program.nextDecl ∧ ∀ X, c.engine.program.decl? x = some X → X.file = file

namespace Config.Mirroring
variable {c c' : Config}

lemma keep (h : c.Mirroring) (hf : c.program.Fixes c'.program)
    (hst : ∀ file untaken left todo, c'.stage = .reconciling file untaken left todo →
      c.stage = .reconciling file untaken left todo)
    (hre : ∀ file, c.stage.Reconciles file → c'.stage.Reconciles file) : c'.Mirroring := by
  have hsame {u : SourceUnit} : ∀ d ∈ u.decls, d ∈ u.decls ∧
      Option.Rel Decl.Matches (c.program.decl? d) (c'.program.decl? d) := fun d hd => ⟨hd, hf.decl d⟩
  refine ⟨fun {file u} hu hr hl hn => ?_, fun {file u} hu hr hd hn => ?_, fun hs hu hr hl => ?_, fun hs hu hr => ?_,
    fun hs hx => ?_⟩
  · exact (h.current (hf.units ▸ hu) hr hl fun hx => hn (hre _ hx)).transport rfl hsame fun d D hd _ _ => hd
  · exact h.settled (hf.units ▸ hu) hr hd fun hx => hn (hre _ hx)
  · exact (h.unread (hst _ _ _ _ hs) (hf.units ▸ hu) hr hl).transport rfl hsame fun d D hd _ _ => hd
  · obtain ⟨hsettled, hreading⟩ := h.reading (hst _ _ _ _ hs) (hf.units ▸ hu) hr
    refine ⟨hsettled, fun items hi hn => ?_⟩
    obtain ⟨hdone, hreflects⟩ := hreading items hi hn
    exact ⟨hdone, hreflects.transport hsame fun d D hd _ _ _ => hd⟩
  · obtain ⟨hlt, hfile⟩ := h.untaken (hst _ _ _ _ hs) hx
    refine ⟨hf.nextDecl ▸ hlt, fun X' hX' => ?_⟩
    obtain ⟨X, hX, hm⟩ := hf.decl?_of hX'
    exact hm.file.trans (hfile X hX)

lemma pass (h : c.Mirroring) (hf : c.program.Fixes c'.program) (hn : c'.stage.isReconciling = false)
    (hn' : c.stage.isReconciling = false) : c'.Mirroring :=
  h.keep hf (fun _ _ _ _ hs => absurd hs (c'.stage.ne_reconciling hn _ _ _ _)) fun _ hs =>
    absurd hs (c.stage.not_reconciles hn' _)

end Config.Mirroring

namespace Program
variable {p p' : Program} {d x : DeclId}

variable {file : FileId} {u : SourceUnit}

lemma Registry.mem_lt (h : p.Registry) (hu : p.units.get? file = some u) (hd : d ∈ u.decls) : d < p.nextDecl := by
  obtain ⟨D, hD, -⟩ := h.listed (Dict.mem_of_get? hu) hd
  exact h.bound hD

lemma Registry.file_of_mem (h : p.Registry) {D : Decl} (hu : p.units.get? file = some u) (hd : d ∈ u.decls)
    (hD : p.decl? d = some D) : D.file = file := by
  obtain ⟨D', hD', hf⟩ := h.listed (Dict.mem_of_get? hu) hd
  cases hD.symm.trans hD'
  exact hf

end Program

namespace Config.Mirroring
variable {c : Config} {S : List DeclId} {B : Option (DeclId × Nat)} {e : Engine} {file : FileId} {ns : NameHash}
  {item : ItemSummary} {untaken : List DeclId} {left : List ItemSummary} {todo : List FileId} {st : Stage}

open Program (decl?_register_of_lt units_get?_register rel_matches_refl)

lemma name_notMem_left {items done : List ItemSummary} (hdone : items = done ++ item :: left)
    (hnodup : (items.map (·.name)).Nodup) : item.name ∉ left.map (·.name) := by
  rw [hdone, List.map_append, List.map_cons] at hnodup
  exact (List.nodup_cons.1 (List.nodup_append.1 hnodup).2.1).1

lemma register (h : Mirroring ⟨.working, S, B, e⟩) (hr : e.program.Registry) (hi : e.program.Declares file ns item)
    (hn : st.isReconciling = false) : Mirroring ⟨st, S, B, e.modifyProgram (·.register file ns item)⟩ := by
  have hnot (f : FileId) : ¬ Stage.working.Reconciles f := Stage.not_reconciles rfl f
  have hn := st.ne_reconciling hn
  refine ⟨fun {f u'} hu' hrem hl _ => ?_, fun {f u'} hu' hrem hd _ => ?_, fun hs => absurd hs (hn _ _ _ _),
    fun hs => absurd hs (hn _ _ _ _), fun hs => absurd hs (hn _ _ _ _)⟩
  · have hu' : (e.program.register file ns item).units.get? f = some u' := hu'
    rw [units_get?_register] at hu'
    split at hu'
    · next hf =>
      subst hf
      obtain ⟨u, hu, rfl⟩ := Option.map_eq_some_iff.1 hu'
      intro items hitems hnodup
      have hreflects := h.current hu hrem hl (hnot _) items hitems hnodup
      obtain ⟨v, hv, -, items', hitems', hmem⟩ := hi.removed_eq_false
      cases hu.symm.trans hv
      cases hitems.symm.trans hitems'
      exact hreflects.register (fun d hd => hr.mem_lt hu hd) (by simp) hmem (by simp) (by simp)
    · refine (h.current hu' hrem hl (hnot _)).transport rfl (fun d hd => ⟨hd, ?_⟩) fun d D hd _ _ => hd
      show Option.Rel _ _ ((e.program.register file ns item).decl? d)
      rw [decl?_register_of_lt (hr.mem_lt hu' hd)]
      exact rel_matches_refl _
  · have hu' : (e.program.register file ns item).units.get? f = some u' := hu'
    rw [units_get?_register] at hu'
    split at hu'
    · obtain ⟨u, hu, rfl⟩ := Option.map_eq_some_iff.1 hu'
      have hsettled : Program.Settled f u := h.settled hu hrem hd (hnot _)
      exact hsettled
    · exact h.settled hu' hrem hd (hnot _)

variable {e' : Engine} {d : DeclId}

lemma step {l l' : Option (List ItemSummary)} {untaken' : List DeclId}
    (h : Mirroring ⟨.reconciling file untaken l todo, S, B, e⟩) (hr : e.program.Registry)
    (hunits : ∀ f, file ≠ f → e'.program.units.get? f = e.program.units.get? f)
    (hdecl : ∀ x X, e.program.decl? x = some X → X.file ≠ file →
      Option.Rel Decl.Matches (e.program.decl? x) (e'.program.decl? x))
    (hunread : l' = none → ∀ u failure, e'.program.units.get? file = some u → u.removed = false →
      Program.loadContent file u.content = .error failure → e'.program.Current u)
    (hreading : ∀ left, l' = some left → ∀ u, e'.program.units.get? file = some u → u.removed = false →
      Program.Settled file u ∧ ∀ items, u.content.items? = some items → (items.map (·.name)).Nodup →
        (∃ done, items = done ++ left) ∧ e'.program.Reflects u untaken' left items)
    (hsub : ∀ x ∈ untaken', x ∈ untaken) (hnext : e.program.nextDecl ≤ e'.program.nextDecl)
    (hfile : ∀ x X', x < e.program.nextDecl → e'.program.decl? x = some X' →
      ∃ X, e.program.decl? x = some X ∧ X'.file = X.file) :
    Mirroring ⟨.reconciling file untaken' l' todo, S, B, e'⟩ := by
  have hne {f : FileId} (hn : ¬ (Stage.reconciling file untaken' l' todo).Reconciles f) : file ≠ f := by
    rintro rfl
    exact hn ⟨_, _, _, rfl⟩
  have hne' {f : FileId} (hf : file ≠ f) : ¬ (Stage.reconciling file untaken l todo).Reconciles f := by
    rintro ⟨_, _, _, hs⟩
    cases hs
    exact hf rfl
  refine ⟨fun {f u} hu hrem hl hn => ?_, fun {f u} hu hrem hd hn => ?_, fun hs hu => ?_, fun hs hu => ?_,
    fun hs hx => ?_⟩
  · rw [hunits f (hne hn)] at hu
    refine (h.current hu hrem hl (hne' (hne hn))).transport rfl (fun d hd => ⟨hd, ?_⟩) fun d D hd _ _ => hd
    obtain ⟨D, hD, hf⟩ := hr.listed (Dict.mem_of_get? hu) hd
    exact hdecl d D hD (hf ▸ (hne hn).symm)
  · rw [hunits f (hne hn)] at hu
    exact h.settled hu hrem hd (hne' (hne hn))
  · cases hs
    exact hunread rfl _ _ hu
  · cases hs
    exact hreading _ rfl _ hu
  · cases hs
    obtain ⟨hlt, hf⟩ := h.untaken rfl (hsub _ hx)
    refine ⟨Nat.lt_of_lt_of_le hlt hnext, fun X' hX' => ?_⟩
    obtain ⟨X, hX, he⟩ := hfile _ X' hlt hX'
    exact he.trans (hf X hX)

variable (h : Mirroring ⟨.reconciling file untaken (some (item :: left)) todo, S, B, e⟩) (hr : e.program.Registry)
include h hr

lemma enroll (he : e'.program = e.program.register file ns item) :
    Mirroring ⟨.reconciling file untaken (some left) todo, S, B, e'⟩ := by
  have hold {d : DeclId} (hd : d < e.program.nextDecl) : e'.program.decl? d = e.program.decl? d := by
    rw [he, decl?_register_of_lt hd]
  refine h.step hr (fun f hf => ?_) (fun x X hX _ => ?_) nofun (fun l hl u' hu' hrem => ?_) (fun _ hx => hx) ?_
    fun x X hx hX => ⟨X, hold hx ▸ hX, rfl⟩
  · rw [he, units_get?_register, if_neg hf]
  · rw [hold (hr.bound hX)]
    exact rel_matches_refl _
  · cases hl
    rw [he, units_get?_register, if_pos rfl] at hu'
    obtain ⟨u, hu, rfl⟩ := Option.map_eq_some_iff.1 hu'
    obtain ⟨hsettled, hreading⟩ := h.reading rfl hu hrem
    refine ⟨hsettled, fun items hitems hnodup => ?_⟩
    obtain ⟨⟨done, hdone⟩, hreflects⟩ := hreading items hitems hnodup
    have hname := name_notMem_left hdone hnodup
    refine ⟨⟨done ++ [item], by simp [hdone]⟩, ?_⟩
    rw [he]
    refine hreflects.register (fun d hd => hr.mem_lt hu hd) (fun d hd => (h.untaken rfl hd).1) ?_
      (fun i hi => ⟨?_, ?_⟩) ?_
    · rw [hdone]
      exact List.mem_append_right _ List.mem_cons_self
    · exact List.mem_cons_of_mem _ hi
    · intro hn
      exact hname (List.mem_map.2 ⟨i, hi, hn⟩)
    · exact fun i hi => List.mem_cons.1 hi
  · rw [he]
    exact Nat.le_succ _

lemma compared {D : Decl} {untaken' : List DeclId} (hD : e.program.decl? d = some D) (hf : D.file = file)
    (hunits : e'.program.units = e.program.units) (hn : e'.program.nextDecl = e.program.nextDecl)
    (hfollows : e.program.Follows e'.program)
    (hs : ∀ x, x ≠ d → Option.Rel Decl.Matches (e.program.decl? x) (e'.program.decl? x))
    (hsub : ∀ x ∈ untaken', x ∈ untaken)
    (hread : ∀ u done items, items = done ++ item :: left → (items.map (·.name)).Nodup → d ∈ u.decls →
      e.program.Reflects u untaken (item :: left) items → e'.program.Reflects u untaken' left items) :
    Mirroring ⟨.reconciling file untaken' (some left) todo, S, B, e'⟩ := by
  refine h.step hr (fun f _ => by rw [hunits]) (fun x X hX hx => hs x ?_) nofun (fun l hl u hu' hrem => ?_) hsub
    (Nat.le_of_eq hn.symm) fun x X' _ hX' => ?_
  · rintro rfl
    cases hD.symm.trans hX
    exact hx hf
  · cases hl
    rw [hunits] at hu'
    obtain ⟨hsettled, hreading⟩ := h.reading rfl hu' hrem
    refine ⟨hsettled, fun items hitems hnodup => ?_⟩
    obtain ⟨⟨done, hdone⟩, hreflects⟩ := hreading items hitems hnodup
    obtain ⟨v, hv, hmem, -⟩ := hr.placed hD
    rw [hf] at hv
    cases hv.symm.trans hu'
    exact ⟨⟨done ++ [item], by simp [hdone]⟩, hread u done items hdone hnodup hmem hreflects⟩
  · obtain ⟨X, hX, his⟩ := hfollows x X' hX'
    exact ⟨X, hX, his.file⟩

end Config.Mirroring

/-! Declarations go. -/

namespace Program
variable {p p' : Program} {d x : DeclId}

lemma Reflects.drop {u u' : SourceUnit} {gone : List DeclId} {items : List ItemSummary}
    (h : p.Reflects u (d :: gone) [] items) (hu : ∀ x, x ∈ u'.decls ↔ x ∈ u.decls ∧ x ≠ d)
    (hs : ∀ x, x ≠ d → Option.Rel Decl.Matches (p.decl? x) (p'.decl? x)) : p'.Reflects u' gone [] items where
  decls {x} hx := by
    obtain ⟨hx, hne⟩ := (hu x).1 hx
    refine (h.decls hx).imp (fun ht => (List.mem_cons.1 ht).resolve_left hne) ?_
    rintro ⟨X, item, hX, hi, hm⟩
    obtain ⟨X', hX', hrel⟩ := (hs x hne).exists_right hX
    exact ⟨X', item, hX', hi, hrel.mirrors hm⟩
  roots {item} hi hl hroot := by
    obtain ⟨x, X, hx, ht, hX, hm⟩ := h.roots hi hl hroot
    have hne : x ≠ d := fun hxd => ht (hxd ▸ List.mem_cons_self)
    obtain ⟨X', hX', hrel⟩ := (hs x hne).exists_right hX
    exact ⟨x, X', (hu x).2 ⟨hx, hne⟩, fun hg => ht (List.mem_cons_of_mem _ hg), hX', hrel.mirrors hm⟩
  free hi := nomatch hi

end Program

namespace Engine
variable {e : Engine} {d x : DeclId} {D : Decl}

lemma deleteDecl_matches (e : Engine) (hx : x ≠ d) :
    Option.Rel Decl.Matches (e.program.decl? x) ((e.deleteDecl d).program.decl? x) :=
  e.deleteDecl_rel (fun _ _ _ _ _ => ⟨rfl, rfl, rfl, rfl, rfl, rfl, rfl⟩) hx

lemma deleteDecl_unit (hr : e.program.Registry) {file : FileId} {u' : SourceUnit}
    (hu' : (e.deleteDecl d).program.units.get? file = some u') :
    ∃ u, e.program.units.get? file = some u ∧ u' = { u with decls := u'.decls } ∧
      ∀ x, x ∈ u'.decls ↔ x ∈ u.decls ∧ x ≠ d := by
  -- Where nothing is erased, the declaration was not listed.
  have other {u : SourceUnit} (hu : e.program.units.get? file = some u)
      (hd : ∀ D, e.program.decl? d = some D → D.file ≠ file) : ∀ x, x ∈ u.decls ↔ x ∈ u.decls ∧ x ≠ d := by
    refine fun x => ⟨fun hx => ⟨hx, ?_⟩, And.left⟩
    rintro rfl
    obtain ⟨X, hX, hf⟩ := hr.listed (Dict.mem_of_get? hu) hx
    exact hd X hX hf
  cases hD : e.program.decl? d with
  | none =>
    rw [deleteDecl_of_none hD] at hu'
    refine ⟨u', hu', rfl, other hu' fun D hD' => ?_⟩
    cases hD.symm.trans hD'
  | some D =>
    rw [deleteDecl_units hD, Dict.get?_modify] at hu'
    split at hu'
    · obtain ⟨u, hu, rfl⟩ := Option.map_eq_some_iff.1 hu'
      exact ⟨u, hu, rfl, fun x => OrdSet.mem_erase ..⟩
    · next hf =>
      refine ⟨u', hu', rfl, other hu' fun D' hD' => ?_⟩
      cases hD.symm.trans hD'
      exact hf

end Engine

namespace Config.Mirroring
variable {c : Config} {S : List DeclId} {B : Option (DeclId × Nat)} {e e' : Engine} {file : FileId} {d : DeclId}
  {untaken gone : List DeclId} {left : Option (List ItemSummary)} {todo : List FileId}

lemma drop (h : Mirroring ⟨.reconciling file (d :: gone) (some []) todo, S, B, e⟩) (hr : e.program.Registry) :
    Mirroring ⟨.reconciling file gone (some []) todo, S, B, e.deleteDecl d⟩ := by
  obtain ⟨-, hown⟩ := h.untaken rfl List.mem_cons_self
  refine h.step hr (fun f hf => ?_) (fun x X hX hx => e.deleteDecl_matches ?_) nofun (fun l hl u' hu' hrem => ?_)
    (fun x hx => List.mem_cons_of_mem _ hx) (Nat.le_of_eq (e.deleteDecl_nextDecl d).symm) fun x X' _ hX' => ?_
  · cases hD : e.program.decl? d with
    | none => rw [Engine.deleteDecl_of_none hD]
    | some D => rw [Engine.deleteDecl_units hD, Dict.get?_modify, if_neg (hown D hD ▸ hf)]
  · rintro rfl
    exact hx (hown X hX)
  · cases hl
    obtain ⟨u, hu, he, hmem⟩ := Engine.deleteDecl_unit hr hu'
    have hcontent : u'.content = u.content := by rw [he]
    have hremoved : u.removed = false := by
      rw [he] at hrem
      exact hrem
    obtain ⟨hsettled, hreading⟩ := h.reading rfl hu hremoved
    unfold Program.Settled
    rw [hcontent]
    refine ⟨hsettled, fun items hitems hnodup => ?_⟩
    obtain ⟨hdone, hreflects⟩ := hreading items hitems hnodup
    exact ⟨hdone, hreflects.drop hmem fun x hx => e.deleteDecl_matches hx⟩
  · have hne : x ≠ d := by
      rintro rfl
      cases (e.deleteDecl_gone x).symm.trans hX'
    obtain ⟨X, hX, hx⟩ := (e.deleteDecl_matches hne).exists_left hX'
    exact ⟨X, hX, hx.file⟩

lemma collect {D : Decl} (h : Mirroring ⟨.draining, S, B, e⟩) (hr : e.program.Registry)
    (hD : e.program.decl? d = some D)
    (hroot : D.isRoot = false) : Mirroring ⟨.draining, S, B, e.deleteDecl d⟩ := by
  have hnot (f : FileId) : ¬ Stage.draining.Reconciles f := Stage.not_reconciles rfl f
  refine ⟨fun {f u'} hu' hrem hl _ => ?_, fun {f u'} hu' hrem hd _ => ?_, nofun, nofun, nofun⟩
  · obtain ⟨u, hu, he, hmem⟩ := Engine.deleteDecl_unit hr hu'
    rw [he] at hrem hl
    refine (h.current hu hrem hl (hnot _)).transport ?_ (fun x hx => ?_) fun x X hx hX hxroot => (hmem x).2 ⟨hx, ?_⟩
    · rw [he]
    · obtain ⟨hx, hne⟩ := (hmem x).1 hx
      exact ⟨hx, e.deleteDecl_matches hne⟩
    · rintro rfl
      cases hD.symm.trans hX
      exact absurd (hroot.symm.trans hxroot) nofun
  · obtain ⟨u, hu, he, -⟩ := Engine.deleteDecl_unit hr hu'
    rw [he] at hrem hd ⊢
    have hsettled : Program.Settled f u := h.settled hu hrem hd (hnot _)
    exact hsettled

lemma drain {rest : List DeclId} (h : Mirroring ⟨.draining, S, B, e⟩) (hr : e.program.Registry) :
    Mirroring ⟨.draining, S, B, (e.popped rest).drainStep d⟩ := by
  have hrest : Mirroring ⟨.draining, S, B, e.popped rest⟩ :=
    h.pass (.ofDecls rfl rfl rfl) rfl rfl
  have hspared : Mirroring ⟨.draining, S, B, (e.popped rest).modifyProgram (·.spare d)⟩ :=
    hrest.pass (.rewire (.modifyDecl _ d fun _ => ⟨_, _, _⟩)) rfl rfl
  obtain ⟨-, he⟩ | ⟨D, -, -, he⟩ | ⟨D, hD, hroot, -, he⟩ :=
    (e.popped rest).drainStep_turns d <;> rw [he]
  · exact hrest
  · exact hspared
  · exact hspared.collect (hr.retain (.spare ..) rfl) ((Program.decl?_modifyDecl_self ..).trans (congrArg _ hD)) hroot

lemma close (h : Mirroring ⟨.reconciling file untaken left todo, S, B, e⟩) (hf : e.program.Fixes e'.program)
    (hc : ∀ u, e.program.units.get? file = some u → u.removed = false →
      e.program.Current u ∧ Program.Settled file u) : Mirroring ⟨.opening todo, S, B, e'⟩ := by
  have hsame {u : SourceUnit} : ∀ d ∈ u.decls, d ∈ u.decls ∧
      Option.Rel Decl.Matches (e.program.decl? d) (e'.program.decl? d) := fun d hd => ⟨hd, hf.decl d⟩
  have hne {f : FileId} (hn : file ≠ f) : ¬ (Stage.reconciling file untaken left todo).Reconciles f := by
    rintro ⟨_, _, _, hs⟩
    cases hs
    exact hn rfl
  refine ⟨fun {f u} hu hrem hl _ => ?_, fun {f u} hu hrem hd _ => ?_, nofun, nofun, nofun⟩
  · have hu : e.program.units.get? f = some u := hf.units ▸ hu
    refine Program.Current.transport ?_ rfl hsame fun d D hd _ _ => hd
    by_cases hff : file = f
    · subst hff
      exact (hc u hu hrem).1
    · exact h.current hu hrem hl (hne hff)
  · have hu : e.program.units.get? f = some u := hf.units ▸ hu
    by_cases hff : file = f
    · subst hff
      exact (hc u hu hrem).2
    · exact h.settled hu hrem hd (hne hff)

variable {u : SourceUnit}

lemma openUnit (h : Mirroring ⟨.opening (file :: todo), S, B, e⟩) (hr : e.program.Registry)
    (hu : e.program.units.get? file = some u) : Mirroring ⟨.reconciling file u.decls.elems none todo, S, B,
      e.modifyProgram fun p =>
        { p.modifyUnit file ({ · with dirty := false }) with failedFiles := p.failedFiles.erase file }⟩ := by
  have hnot (f : FileId) : ¬ (Stage.opening (file :: todo)).Reconciles f := Stage.not_reconciles rfl f
  have hunit {f : FileId} {v : SourceUnit}
      (hv : (e.program.units.modify file ({ · with dirty := false })).get? f = some v) :
      f = file ∧ v = { u with dirty := false } ∨ file ≠ f ∧ e.program.units.get? f = some v := by
    rw [Dict.get?_modify] at hv
    split at hv
    · next hf =>
      subst hf
      rw [hu] at hv
      cases hv
      exact .inl ⟨rfl, rfl⟩
    · next hf => exact .inr ⟨hf, hv⟩
  have hother {f : FileId} {v : SourceUnit}
      (hv : (e.program.units.modify file ({ · with dirty := false })).get? f = some v)
      (hn : ¬ (Stage.reconciling file u.decls.elems none todo).Reconciles f) : e.program.units.get? f = some v := by
    obtain ⟨rfl, -⟩ | ⟨-, hv⟩ := hunit hv
    · exact absurd ⟨_, _, _, rfl⟩ hn
    · exact hv
  refine ⟨fun hv hrem hl hn => ?_, fun hv hrem hd hn => ?_, fun hs hv hrem hfail => ?_,
    fun hs => (by cases hs), fun hs hx => ?_⟩
  · refine (h.current (hother hv hn) hrem hl (hnot _)).transport rfl (fun d hd => ⟨hd, ?_⟩) fun d D hd _ _ => hd
    exact Program.rel_matches_refl _
  · exact h.settled (hother hv hn) hrem hd (hnot _)
  · cases hs
    obtain ⟨-, rfl⟩ | ⟨hne, -⟩ := hunit hv
    · have hsource : u.isLowered = true → u.dirty = false := by
        intro hl
        unfold SourceUnit.isLowered at hl
        split at hl
        · next hc =>
          have hfail : Program.loadContent file u.content = .error _ := hfail
          rw [hc] at hfail
          cases hfail
        · cases hl
      refine (h.current hu hrem hsource (hnot _)).transport rfl (fun d hd => ⟨hd, ?_⟩) fun d D hd _ _ => hd
      exact Program.rel_matches_refl _
    · exact absurd rfl hne
  · cases hs
    refine ⟨hr.mem_lt hu hx, fun X hX => ?_⟩
    exact hr.file_of_mem hu hx hX

variable (h : Mirroring ⟨.reconciling file untaken none todo, S, B, e⟩) (hr : e.program.Registry)
  (hu : e.program.units.get? file = some u)
include h hr hu

lemma read {content : UnitContent} (hc : Program.loadContent file u.content = .ok content) :
    Mirroring ⟨.reconciling file untaken none todo, S, B,
      e.modifyProgram (·.modifyUnit file ({ · with content }))⟩ := by
  refine h.step hr (fun f hf => ?_) (fun x X _ _ => Program.rel_matches_refl _) (fun _ u' failure hu' _ hfail => ?_)
    nofun
    (fun _ hx => hx) (Nat.le_refl _) fun x X _ hX => ⟨X, hX, rfl⟩
  · show (e.program.units.modify file _).get? f = _
    rw [Dict.get?_modify, if_neg hf]
  · change (e.program.units.modify file _).get? file = some u' at hu'
    rw [Dict.get?_modify, if_pos rfl, hu] at hu'
    cases hu'
    have hagain := Program.loadContent_idem hc
    cases hagain.symm.trans hfail

lemma itemize {items : List ItemSummary} (ht : untaken = u.decls.elems)
    (hl : u.removed = true ∨ Program.loadContent file u.content = .ok u.content) (hi : u.items? = some items) :
    Mirroring ⟨.reconciling file untaken (some items) todo, S, B, e⟩ := by
  refine h.step hr (fun _ _ => rfl) (fun x X _ _ => Program.rel_matches_refl _) nofun (fun l hl' v hv hrem => ?_)
    (fun _ hx => hx) (Nat.le_refl _) fun x X _ hX => ⟨X, hX, rfl⟩
  cases hl'
  cases hu.symm.trans hv
  have hload := hl.resolve_left (by simp [hrem])
  refine ⟨fun content hc => ?_, fun items' hitems' hnodup => ?_⟩
  · cases hload.symm.trans hc
    rfl
  · have heq : items' = items := by
      have hi : u.content.items? = some items := by simpa [SourceUnit.items?, hrem] using hi
      exact Option.some.inj (hitems'.symm.trans hi)
    subst heq
    refine ⟨⟨[], rfl⟩, fun hd => .inl ?_, fun hi hn => absurd hi hn, fun _ hd _ _ => ?_⟩
    · exact ht ▸ hd
    · exact ht ▸ hd

omit hr in
lemma blank (hl : u.removed = true ∨ Program.loadContent file u.content = .ok u.content) (hi : u.items? = none) :
    Mirroring ⟨.opening todo, S, B, e⟩ := by
  refine h.close (.ofDecls rfl rfl rfl) fun v hv hrem => ?_
  cases hu.symm.trans hv
  have hload := hl.resolve_left (by simp [hrem])
  refine ⟨fun items hitems => ?_, fun content hc => ?_⟩
  · simp [SourceUnit.items?, hrem, hitems] at hi
  · cases hload.symm.trans hc
    rfl

end Config.Mirroring

/-! An update. -/

variable {e : Engine} {item : ItemSummary}

lemma Engine.refresh_mirrors {d : DeclId} {D : Decl} (hD : e.program.decl? d = some D) (hn : D.name = item.name) :
    ∃ D', (e.refresh d D item).program.decl? d = some D' ∧ D'.Mirrors item := by
  refine refresh_rule (P := fun p => ∃ D', p.decl? d = some D' ∧ D'.Mirrors item) ?_ fun e h => ?_
  · exact ⟨_, Program.decl?_modifyDecl_of hD, hn, rfl, rfl, rfl, rfl, rfl⟩
  · refine markOutdated_rule (P := fun p => ∃ D', p.decl? d = some D' ∧ D'.Mirrors item) h ?_
    obtain ⟨D', hD', hm⟩ := h
    exact ⟨_, Program.decl?_modifyDecl_of hD', hm.name, hm.index, hm.src, hm.line, hm.contents, hm.isRoot⟩

lemma Decl.Turn.matches {c c' : Config} {x : DeclId} {D D' : Decl} {r r' : Option Diagnostic}
    (h : D.Turn c c' x r D' r')
    (hn : ∀ file untaken item left todo ns, c.stage = .reconciling file untaken (some (item :: left)) todo →
      c.program.Declares file ns item → c.program.declTable.get? (ns.child item.name) ≠ some x) : D.Matches D' := by
  cases h with
  | reread hst _ hi _ _ _ ht | rereadMarked hst _ _ _ _ hi ht | repeated hst _ hi ht =>
    exact absurd ht (hn _ _ _ _ _ _ hst hi)
  | _ => exact ⟨rfl, rfl, rfl, rfl, rfl, rfl, rfl⟩

lemma Move.matches_of_ne {c c' : Config} (hm : Move c c') {d x : DeclId} {file : FileId} {untaken : List DeclId}
    {left : List ItemSummary} {todo : List FileId} {ns : NameHash}
    (hst : c.stage = .reconciling file untaken (some (item :: left)) todo) (hi : c.program.Declares file ns item)
    (hd : c.program.declTable.get? (ns.child item.name) = some d) (hn : c'.program.nextDecl = c.program.nextDecl)
    (hx : x ≠ d) : Option.Rel Decl.Matches (c.program.decl? x) (c'.program.decl? x) := by
  refine hm.rel_decl hn (hst ▸ rfl) fun h => h.matches ?_
  intro _ _ _ _ _ _ hst' hi' hd'
  cases hst.symm.trans hst'
  obtain ⟨u, hu, rfl, -⟩ := hi
  obtain ⟨u', hu', rfl, -⟩ := hi'
  cases hu.symm.trans hu'
  exact hx (Option.some.inj (hd'.symm.trans hd))

lemma Config.Mirroring.move {N : String × String → Prop} {c c' : Config} (h : c.Mirroring) (hr : c.program.Registry)
    (ho : c.stage.isOpening = true → c.Orderly N)
    (hN : ∀ x y, N x → N y → NameHash.qualified x = NameHash.qualified y → x = y) (hm : Move c c')
    (he : ¬ c.stage.Ends c'.stage) (ht : c'.stage = .torn → c.stage.isOpening = false) : c'.Mirroring := by
  have pass (hs : c.stage.isReconciling = false) (hs' : c'.stage.isReconciling = false) (hd : c.stage.deletes = false)
      (hn : c'.program.nextDecl = c.program.nextDecl) (hu : c'.program.units = c.program.units) : c'.Mirroring := by
    refine h.pass ⟨fun x => hm.rel_decl hn hd fun hx => hx.matches ?_, hu, hn⟩ hs' hs
    exact fun _ _ _ _ _ _ hst => absurd hst (c.stage.ne_reconciling hs _ _ _ _)
  have beside (hb : c.program.Beside c'.program) (hs : c.stage.isReconciling = false)
      (hs' : c'.stage.isReconciling = false) (hd : c.stage.deletes = false) := pass hs hs' hd hb.nextDecl hb.units
  have hfollows := hm.follows
  have hmove := hm
  cases hm with
  | quiet hq => exact h.keep (.ofDecls hq.decls hq.units hq.nextDecl) (fun _ _ _ _ hs => hs) fun _ hs => hs
  | collide | claim => exact h.keep (.ofDecls rfl rfl rfl) (fun _ _ _ _ hs => hs) fun _ hs => hs
  | tear => exact h.pass (.ofDecls rfl rfl rfl) rfl (Stage.isReconciling_eq_false (ht rfl))
  | fail | failLate => exact beside (Program.fail_beside ..) rfl rfl rfl
  | depend => exact beside (Program.dependencyFailed_beside ..) rfl rfl rfl
  | register hi => exact h.register hr hi rfl
  | edge => exact h.pass (.rewire (Program.addEdge_rewired ..)) rfl rfl
  | release => exact h.pass (.rewire (Program.release_rewired ..)) rfl rfl
  | grant link header => cases header <;> exact pass rfl rfl rfl rfl rfl
  | outdate | retry => exact pass rfl rfl rfl (Engine.Marks.markOutdated ..).nextDecl (Engine.markOutdated_units ..)
  | @take e item => cases item <;> exact pass rfl rfl rfl rfl rfl
  | openUnit hu => exact h.openUnit hr hu
  | unread hu _ failure hf =>
    refine h.close (.ofDecls rfl rfl rfl) fun v hv hrem => ?_
    cases hu.symm.trans hv
    refine ⟨h.unread rfl hu hrem hf, fun content hc => ?_⟩
    cases hf.symm.trans hc
  | read hu hc => exact h.read hr hu hc
  | blank hu hl hi => exact h.blank hu hl hi
  | itemize hu hl hi => exact h.itemize hr hu ((ho rfl).untaken rfl hu) hl hi
  | enroll =>
    dsimp only
    split <;> exact h.enroll hr rfl
  | @refresh file untaken left todo e ns d D item hi hd hD hu =>
    have hs {x : DeclId} := hmove.matches_of_ne (x := x) rfl hi hd (Engine.refresh_nextDecl ..)
    obtain ⟨hfile, hname⟩ := (ho rfl).declared hr hN rfl hi hd hD
    obtain ⟨D', hD', hm⟩ := Engine.refresh_mirrors (e := e) hD hname
    refine h.compared hr hD hfile (Engine.refresh_units ..) (Engine.refresh_nextDecl ..)
      (hfollows (Engine.refresh_nextDecl ..)) (fun _ => hs) (fun _ hx => (List.mem_filter.1 hx).1)
      fun u done items hdone hnodup hmem hreflects => ?_
    refine hreflects.refresh ?_ (name_notMem_left hdone hnodup) hmem hu hD' hm fun _ => hs
    rw [hdone]
    exact List.mem_append_right _ List.mem_cons_self
  | again hi hd hD hu =>
    have hs {x : DeclId} := hmove.matches_of_ne (x := x) rfl hi hd rfl
    obtain ⟨hfile, hname⟩ := (ho rfl).declared hr hN rfl hi hd hD
    exact h.compared hr hD hfile (Engine.repeatedItem_units ..) rfl (hfollows rfl) (fun _ => hs) (fun _ hx => hx)
      fun u _ _ _ _ hmem hreflects => absurd (hreflects.free List.mem_cons_self hmem hD hname) hu
  | disregard _ hd hn =>
    obtain ⟨D, hD, -⟩ := hr.named hd
    cases hn.symm.trans hD
  | drop => exact h.drop hr
  | closeUnit =>
    refine h.close (.ofDecls rfl rfl rfl) fun u hu hrem => ?_
    obtain ⟨hsettled, hreading⟩ := h.reading rfl hu hrem
    exact ⟨fun items hi hn => (hreading items hi hn).2, hsettled⟩
  | drain => exact h.drain hr
  | drained => exact absurd ⟨rfl, rfl⟩ he
  | worked => exact h.pass (.ofDecls rfl rfl rfl) rfl rfl
  | _ => exact pass rfl rfl rfl rfl rfl

namespace Program
variable {p p' : Program}

lemma Current.same {u : SourceUnit} (h : p.Current u) (hd : p'.decls = p.decls) : p'.Current u := by
  refine h.transport rfl (fun d hm => ⟨hm, ?_⟩) fun d D hm _ _ => hm
  rw [decl?, decl?, hd]
  exact rel_matches_refl _

structure Reconciled (p : Program) : Prop where
  registry : p.Registry
  units {file : FileId} {u : SourceUnit} : p.units.get? file = some u → u.removed = false ∧ u.dirty = false
  current {file : FileId} {u : SourceUnit} : p.units.get? file = some u → p.Current u
  settled {file : FileId} {u : SourceUnit} : p.units.get? file = some u → Settled file u
  deletions : p.deletionSet = []

lemma Reconciled.mirroring (h : p.Reconciled) : p.Mirroring where
  current hu _ _ := h.current hu
  settled hu _ _ := h.settled hu

lemma Mirroring.update {report : Report} (h : p.Mirroring) (hr : p.Registry) (ha : p.Unambiguous)
    (hu : p.update = (.ok report, p')) : p'.Reconciled := by
  have hregistry : p'.Registry := by
    have hupdated := hr.update
    rwa [hu] at hupdated
  have hclean {file : FileId} {u : SourceUnit} (hunit : p'.units.get? file = some u) :
      u.removed = false ∧ u.dirty = false :=
    clean_of_update hr hu hunit
  obtain ⟨e, ⟨he, -, hm⟩, hdel, -, rfl⟩ := update_intact
    (P := fun c => c.program.Registry ∧ (c.stage.isOpening = true → c.Orderly (· ∈ p.names)) ∧ c.Mirroring)
    (fun c c' hm hb he ht h => by
      obtain ⟨hr, ho, h⟩ := h
      refine ⟨hr.move hm he, fun hopen => (ho (hm.isOpening hb hopen)).move hm hopen, ?_⟩
      exact h.move hr ho (fun x y hx hy => ha.hashes x hx y hy) hm he fun hs => absurd hs ht)
    ⟨hr.retain (.ofDecls rfl rfl rfl rfl) rfl, fun _ => ha.orderly hr,
      fun hu hrem hl _ => (h.current hu hrem hl).same rfl,
      fun hu hrem hd _ => h.settled hu hrem hd, nofun, nofun, nofun⟩ hu
  have hnot (file : FileId) : ¬ Stage.draining.Reconciles file := Stage.not_reconciles rfl file
  -- A unit that is still there was there before those that are removed were dropped.
  have hunit {file : FileId} {u : SourceUnit} (hu : (e.program.units.filter (!·.removed)).get? file = some u) :
      e.program.units.get? file = some u := Dict.get?_of_mem he.files (List.mem_of_mem_filter (Dict.mem_of_get? hu))
  refine ⟨hregistry, hclean, fun hu => ?_, fun hu => ?_, hdel⟩
  · obtain ⟨hrem, hd⟩ := hclean hu
    exact (hm.current (hunit hu) hrem (fun _ => hd) (hnot _)).same rfl
  · obtain ⟨hrem, hd⟩ := hclean hu
    exact hm.settled (hunit hu) hrem hd (hnot _)

/-! Edits. -/

namespace Mirroring

lemma addUnit (h : p.Mirroring) (path : String) {content : UnitContent}
    (hc : content.items? = none ∨ (SourceUnit.ofContent path content).isLowered = true) :
    (p.addUnit path content).Mirroring := by
  have hunit {file : FileId} {u : SourceUnit} (hu : (p.addUnit path content).units.get? file = some u) :
      u = .ofContent path content ∨ p.units.get? file = some u := by
    change (p.units.insert p.nextFile _).get? file = some u at hu
    rw [Dict.get?_insert] at hu
    split at hu
    · exact .inl (Option.some.inj hu).symm
    · exact .inr hu
  refine ⟨fun hu hrem hl => ?_, fun hu hrem hd => ?_⟩
  · obtain rfl | hu := hunit hu
    · obtain hc | hc := hc
      · intro items hi
        cases hc.symm.trans hi
      · cases hl hc
    · exact (h.current hu hrem hl).same rfl
  · obtain rfl | hu := hunit hu
    · cases hd
    · exact h.settled hu hrem hd

lemma modifyUnit (h : p.Mirroring) (file : FileId) {g : SourceUnit → SourceUnit} (hg : ∀ u, (g u).dirty = true ∧
      ((g u).removed = true ∨ (g u).isLowered = true ∨ u.isLowered = false ∧ u.removed = (g u).removed ∧
        (g u).content.items? = u.content.items? ∧ (g u).decls = u.decls)) : (p.modifyUnit file g).Mirroring := by
  have hunit {f : FileId} {v : SourceUnit} (hv : (p.modifyUnit file g).units.get? f = some v) :
      (∃ u, p.units.get? f = some u ∧ v = g u) ∨ p.units.get? f = some v := by
    change (p.units.modify file g).get? f = some v at hv
    rw [Dict.get?_modify] at hv
    split at hv
    · obtain ⟨u, hu, rfl⟩ := Option.map_eq_some_iff.1 hv
      exact .inl ⟨u, hu, rfl⟩
    · exact .inr hv
  refine ⟨fun hv hrem hl => ?_, fun hv hrem hd => ?_⟩
  · obtain ⟨u, hu, rfl⟩ | hv := hunit hv
    · obtain ⟨hdirty, hx | hx | ⟨hx, hr, hi, hd⟩⟩ := hg u
      · cases hx.symm.trans hrem
      · cases hdirty.symm.trans (hl hx)
      · refine (h.current hu (hr.trans hrem) (fun hl => ?_)).transport hi (fun d hm => ?_) fun d D hm _ _ => hd ▸ hm
        · cases hx.symm.trans hl
        · exact ⟨hd ▸ hm, rel_matches_refl _⟩
    · exact (h.current hv hrem hl).same rfl
  · obtain ⟨u, hu, rfl⟩ | hv := hunit hv
    · cases (hg u).1.symm.trans hd
    · exact h.settled hv hrem hd

lemma edit (h : p.Mirroring) (change : Edit) : (p.edit change).Mirroring := by
  have reserve {q : Program} (hq : q.Mirroring) (decls : List Untyped.Decl) : (q.reserve decls).Mirroring :=
    ⟨fun hu hrem hl => (hq.current hu hrem hl).same rfl, fun hu => hq.settled hu⟩
  have lowered (u : SourceUnit) : u.isLowered = true ∨ u.isLowered = false := by cases u.isLowered <;> simp
  cases change with
  | addSource path | addPath path => exact h.addUnit path (.inl rfl)
  | setSource file | setFile file =>
    refine h.modifyUnit file fun u => ?_
    split
    · next origin loaded hc =>
      have hitems (o : Origin) : (UnitContent.source o loaded).items? = u.content.items? := by
        rw [hc]
        cases loaded <;> rfl
      exact ⟨rfl, .inr (.inr ⟨by rw [SourceUnit.isLowered, hc], rfl, hitems _, rfl⟩)⟩
    · next hc => exact ⟨rfl, .inr (.inl (by rw [SourceUnit.isLowered, hc]))⟩
  | addLowered path decls => exact reserve (h.addUnit path (.inr rfl)) decls
  | setLowered file decls =>
    refine reserve (h.modifyUnit file fun u => ⟨rfl, .inr (.inl rfl)⟩) decls
  | touch file =>
    refine h.modifyUnit file fun u => ⟨rfl, .inr ((lowered u).imp_right fun hl => ⟨hl, rfl, rfl, rfl⟩)⟩
  | removeUnit file => exact h.modifyUnit file fun u => ⟨rfl, .inl rfl⟩

end Mirroring

/-- Programs that come of edits and of updates that succeed, each of them begun with names that tell declarations
apart. -/
inductive Evolves (p : Program) : Program → Prop
  | refl : Evolves p p
  | edit {q} (h : Evolves p q) (change : Edit) : Evolves p (q.edit change)
  | update {q report q'} (h : Evolves p q) (ha : q.Unambiguous) (hu : q.update = (.ok report, q')) : Evolves p q'

lemma Evolves.edits {q : Program} (h : Evolves p q) (changes : List Edit) : Evolves p (changes.foldl Program.edit q) :=
  changes.foldlRecOn _ h fun _ h change _ => h.edit change

lemma Evolves.mirroring {options : Options} {backend : Backend} (h : Evolves { options, backend } p) :
    p.Registry ∧ p.Mirroring := by
  induction h with
  | refl =>
    have hstart : Reaches (fun _ => True) { options, backend } { options, backend } := .refl
    exact ⟨.reaches hstart, nofun, nofun⟩
  | edit _ change ih => exact ⟨ih.1.edit change, ih.2.edit change⟩
  | update _ ha hu ih =>
    have h := ih.2.update ih.1 ha hu
    exact ⟨h.registry, h.mirroring⟩

end Program

end Frontend
