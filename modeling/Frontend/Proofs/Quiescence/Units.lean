import Frontend.Proofs.Graph
import Frontend.Proofs.Moves.Identity

/-! Units and their declarations in the course of an update. A declaration is listed by its unit; a unit that is
removed or changed is dealt with before any work is done; and every item comes from an edit. -/

namespace Frontend

def Stage.Unopened (st : Stage) (file : FileId) : Prop :=
  match st with
  | .resting | .torn => True
  | .retrying todo | .opening todo | .reconciling _ _ _ todo => file ∈ todo
  | _ => False

def Stage.Awaits (st : Stage) (file : FileId) (d : DeclId) : Prop :=
  st.Unopened file ∨ ∃ untaken left todo, st = .reconciling file untaken left todo ∧ d ∈ untaken

structure UnitContent.Known (K : ItemSummary → Prop) (content : UnitContent) : Prop where
  now {items : List ItemSummary} : content.items? = some items → ∀ i ∈ items, K i
  later {file : FileId} {content' : UnitContent} {items : List ItemSummary} :
    Program.loadContent file content = .ok content' → content'.items? = some items → ∀ i ∈ items, K i

structure Program.Placed (K : ItemSummary → Prop) (st : Stage) (p : Program) : Prop where
  listed {d D} : p.decl? d = some D →
    ∃ u, p.units.get? D.file = some u ∧ d ∈ u.decls ∧ (u.removed = true → st.Awaits D.file d)
  opened {file u} : (file, u) ∈ p.units.entries → u.dirty = true → st.Unopened file
  known {file u} : (file, u) ∈ p.units.entries → u.content.Known K

def Stage.isWork : Stage → Bool
  | .resting | .retrying _ | .opening _ | .reconciling .. | .torn => false
  | _ => true

namespace Stage
variable {st st' : Stage} {file : FileId} {d : DeclId}

lemma not_unopened (hw : st.isWork = true) : ¬ st.Unopened file := by
  cases st <;> first | exact id | cases hw

lemma not_awaits (hw : st.isWork = true) : ¬ st.Awaits file d := by
  rintro (h | ⟨untaken, left, todo, rfl, -⟩)
  · exact not_unopened hw h
  · cases hw

variable {todo : List FileId} {f : FileId} {untaken : List DeclId}

lemma awaits_retrying : (retrying todo).Awaits file d ↔ file ∈ todo := by
  simp [Awaits, Unopened]

lemma awaits_opening : (opening todo).Awaits file d ↔ file ∈ todo := by
  simp [Awaits, Unopened]

lemma awaits_reconciling {left : Option (List ItemSummary)} :
    (reconciling f untaken left todo).Awaits file d ↔ file ∈ todo ∨ file = f ∧ d ∈ untaken := by
  simp only [Awaits, Unopened, reconciling.injEq]
  grind

lemma Awaits.left {left left' : Option (List ItemSummary)} (h : (reconciling f untaken left todo).Awaits file d) :
    (reconciling f untaken left' todo).Awaits file d := by
  rw [awaits_reconciling] at h ⊢
  exact h

end Stage

variable {K : ItemSummary → Prop} {file : FileId}

lemma UnitContent.Known.load {content content' : UnitContent} (h : content.Known K)
    (hl : Program.loadContent file content = .ok content') : content'.Known K where
  now hi := h.later hl hi
  later {file' content'' items} hl' hi := by
    have same : content'' = content' := by
      obtain ⟨origin, _, text, items, -, ht, hp, rfl⟩ | ⟨_, _, -, rfl⟩ := Program.loadContent_cases hl
      · rw [Program.loadContent_source ht hp] at hl'
        cases hl'
        rfl
      · cases hl'
        rfl
    exact h.later hl (same ▸ hi)

lemma Program.Declares.removed_eq_false {p : Program} {ns : NameHash} {item : ItemSummary}
    (h : p.Declares file ns item) : ∃ u, p.units.get? file = some u ∧ u.removed = false ∧
      ∃ items, u.content.items? = some items ∧ item ∈ items := by
  obtain ⟨u, hu, -, hi⟩ := h
  unfold SourceUnit.items? at hi
  split at hi
  · cases hi
  · next hr =>
    refine ⟨u, hu, by simpa using hr, ?_⟩
    cases hc : u.content.items? with
    | none =>
      rw [hc] at hi
      cases hi
    | some items =>
      rw [hc] at hi
      exact ⟨items, rfl, hi⟩

lemma Engine.deleteDecl_units {e : Engine} {d : DeclId} {D : Decl} (hD : e.program.decl? d = some D) :
    (e.deleteDecl d).program.units = e.program.units.modify D.file fun u => { u with decls := u.decls.erase d } := by
  obtain ⟨e₁, hm, he⟩ := deleteDecl_of hD
  rw [he]
  refine ((e₁.program.forget_quiet d D).units.trans hm.units).trans ?_
  show (e.program.detach d D).units = _
  unfold Program.detach
  dsimp only
  split <;> rfl

namespace Program
variable {K : ItemSummary → Prop} {st st' : Stage} {p p' : Program} {d : DeclId} {file : FileId}

lemma units_get?_register (p : Program) (file f : FileId) (ns : NameHash) (item : ItemSummary) :
    (p.register file ns item).units.get? f =
      if file = f then (p.units.get? f).map fun u => { u with decls := u.decls.insert p.nextDecl }
      else p.units.get? f := Dict.get?_modify ..

namespace Placed

variable {ns : NameHash} {item : ItemSummary} {e : Engine} {u : SourceUnit}

section

variable (h : p.Placed K st)
include h

lemma declares_known (hi : p.Declares file ns item) : K item := by
  obtain ⟨u, hu, -, items, hc, hm⟩ := hi.removed_eq_false
  exact (h.known (Dict.mem_of_get? hu)).now hc item hm

lemma keep (hu : p'.units = p.units) (ht : p.Follows p')
    (hun : ∀ file u, p.units.get? file = some u → st.Unopened file → st'.Unopened file)
    (haw : ∀ d D u, p.decl? d = some D → p.units.get? D.file = some u → u.removed = true → st.Awaits D.file d →
      st'.Awaits D.file d) :
    p'.Placed K st' where
  listed {d D'} hD' := by
    obtain ⟨D, hD, hs⟩ := ht d D' hD'
    obtain ⟨u, hg, hm, hr⟩ := h.listed hD
    rw [hu, hs.file]
    exact ⟨u, hg, hm, fun h => haw d D u hD hg h (hr h)⟩
  opened {file u} hm hd := by
    rw [hu] at hm
    obtain ⟨v, hv⟩ := Dict.exists_get?_of_mem hm
    exact hun _ v hv (h.opened hm hd)
  known hm := h.known (hu ▸ hm)

lemma keepWork (hw : st.isWork = true) (hu : p'.units = p.units) (ht : p.Follows p') : p'.Placed K st' :=
  h.keep hu ht (fun _ _ _ h => absurd h (Stage.not_unopened hw)) fun _ _ _ _ _ _ h => absurd h (Stage.not_awaits hw)

lemma keepStage (hu : p'.units = p.units) (ht : p.Follows p') : p'.Placed K st :=
  h.keep hu ht (fun _ _ _ h => h) fun _ _ _ _ _ _ h => h

lemma modifyUnit {g : SourceUnit → SourceUnit} (hd : ∀ u, (g u).decls = u.decls ∧ (g u).removed = u.removed)
    (hun : ∀ f, st.Unopened f → st'.Unopened f ∨ f = file ∧ ∀ u, (g u).dirty = false)
    (hdirty : ∀ u, (g u).dirty = true → u.dirty = true)
    (haw : ∀ f d D u, p.decl? d = some D → D.file = f → p.units.get? f = some u → d ∈ u.decls → st.Awaits f d →
      st'.Awaits f d)
    (hk : ∀ u, (file, u) ∈ p.units.entries → u.content.Known K → (g u).content.Known K) :
    (p.modifyUnit file g).Placed K st' where
  listed {d D} hD := by
    obtain ⟨u, hg, hm, hr⟩ := h.listed hD
    have hu : (p.modifyUnit file g).units.get? D.file = if file = D.file then some (g u) else some u := by
      show (p.units.modify file g).get? D.file = _
      rw [Dict.get?_modify, hg]
      rfl
    have hr := fun h => haw _ _ _ _ hD rfl hg hm (hr h)
    rw [hu]
    split
    · exact ⟨g u, rfl, (hd u).1 ▸ hm, fun h => hr ((hd u).2 ▸ h)⟩
    · exact ⟨u, rfl, hm, hr⟩
  opened {f u'} hm hdirty' := by
    obtain ⟨u, hu, rfl⟩ := Dict.mem_modify hm
    split at hdirty'
    · next hf =>
      subst hf
      obtain hs | ⟨-, hs⟩ := hun _ (h.opened hu (hdirty u hdirty'))
      · exact hs
      · rw [hs u] at hdirty'
        cases hdirty'
    · next hf => exact (hun _ (h.opened hu hdirty')).resolve_right fun h => hf h.1
  known {f u'} hm := by
    obtain ⟨u, hu, rfl⟩ := Dict.mem_modify hm
    split
    · next hf =>
      subst hf
      exact hk u hu (h.known hu)
    · exact h.known hu

lemma register (hi : p.Declares file ns item) (haw : ∀ f d, st.Awaits f d → st'.Awaits f d)
    (hun : ∀ f, st.Unopened f → st'.Unopened f) : (p.register file ns item).Placed K st' where
  listed {d D} hD := by
    change (p.decls.insert p.nextDecl _).get? d = some D at hD
    rw [Dict.get?_insert] at hD
    rw [units_get?_register]
    split at hD
    · next hd =>
      cases hD
      obtain ⟨u, hg, hr, -⟩ := hi.removed_eq_false
      rw [if_pos rfl, hg]
      refine ⟨_, rfl, (OrdSet.mem_insert ..).2 (.inl hd.symm), fun h => ?_⟩
      rw [hr] at h
      cases h
    · obtain ⟨u, hg, hm, hr⟩ := h.listed hD
      rw [hg]
      split
      · exact ⟨_, rfl, (OrdSet.mem_insert ..).2 (.inr hm), fun h => haw _ _ (hr h)⟩
      · exact ⟨u, rfl, hm, fun h => haw _ _ (hr h)⟩
  opened {f u'} hm hd := by
    obtain ⟨u, hu, rfl⟩ := Dict.mem_modify hm
    refine hun _ (h.opened hu ?_)
    split at hd <;> exact hd
  known {f u'} hm := by
    obtain ⟨u, hu, rfl⟩ := Dict.mem_modify hm
    have := h.known hu
    split <;> exact this

lemma delete {f : FileId} (hu : p'.units = p.units.modify f fun u => { u with decls := u.decls.erase d })
    (ht : p.Follows p') (hgone : p'.decl? d = none) (haw : ∀ f x, x ≠ d → st.Awaits f x → st'.Awaits f x)
    (hun : ∀ f, st.Unopened f → st'.Unopened f) : p'.Placed K st' where
  listed {x D'} hD' := by
    obtain ⟨D, hD, hs⟩ := ht x D' hD'
    obtain ⟨u, hg, hm, hr⟩ := h.listed hD
    have hx : x ≠ d := by
      rintro rfl
      cases hgone.symm.trans hD'
    rw [hu, hs.file, Dict.get?_modify, hg]
    split
    · exact ⟨_, rfl, (OrdSet.mem_erase ..).2 ⟨hm, hx⟩, fun h => haw _ _ hx (hr h)⟩
    · exact ⟨u, rfl, hm, fun h => haw _ _ hx (hr h)⟩
  opened {f u'} hm hd := by
    rw [hu] at hm
    obtain ⟨u, hu, rfl⟩ := Dict.mem_modify hm
    refine hun _ (h.opened hu ?_)
    split at hd <;> exact hd
  known {f u'} hm := by
    rw [hu] at hm
    obtain ⟨u, hu, rfl⟩ := Dict.mem_modify hm
    have := h.known hu
    split <;> exact this

end

lemma deleteDecl (h : e.program.Placed K st) (hf : e.program.Follows (e.deleteDecl d).program)
    (haw : ∀ f x, x ≠ d → st.Awaits f x → st'.Awaits f x) (hun : ∀ f, st.Unopened f → st'.Unopened f) :
    (e.deleteDecl d).program.Placed K st' := by
  cases hD : e.program.decl? d with
  | none =>
    rw [Engine.deleteDecl_of_none hD] at hf ⊢
    refine h.keep rfl hf (fun f _ _ => hun f) fun x D _ hx _ _ => haw D.file x ?_
    rintro rfl
    cases hD.symm.trans hx
  | some D => exact h.delete (Engine.deleteDecl_units hD) hf (e.deleteDecl_gone d) haw hun

lemma start (h : p.Placed K .resting) : p.nextGeneration.Placed K (.retrying p.pendingUnits) := by
  have pending {f u} (hm : (f, u) ∈ p.units.entries) (hu : u.dirty = true ∨ u.removed = true) :
      f ∈ p.pendingUnits := by
    refine List.mem_filterMap.2 ⟨(f, u), hm, if_pos ?_⟩
    obtain h | h := hu <;> simp [h]
  refine ⟨fun hD => ?_, fun hm hd => pending hm (.inl hd), fun hm => h.known hm⟩
  obtain ⟨u, hg, hm, -⟩ := h.listed hD
  exact ⟨u, hg, hm, fun hr => .inl (pending (Dict.mem_of_get? hg) (.inr hr))⟩

lemma drained (h : p.Placed K .draining) : p.closed.Placed K .resting := by
  refine ⟨fun {d D} hD => ?_, fun _ _ => trivial, fun hm => h.known (List.mem_of_mem_filter hm)⟩
  obtain ⟨u, hg, hm, hr⟩ := h.listed hD
  refine ⟨u, ?_, hm, fun _ => .inl trivial⟩
  have hr : u.removed = false := by
    cases hu : u.removed with
    | false => rfl
    | true => exact absurd (hr hu) (Stage.not_awaits rfl)
  exact Dict.get?_filter hg (by rw [hr]; rfl)

/-! Stages of reconciling. Declarations are awaited by a unit that is removed. -/

lemma close {untaken : List DeclId} {todo : List FileId} (h : p.Placed K (.reconciling file untaken none todo))
    (hu : p.units.get? file = some u) (hr : u.removed = false) (hp : p'.units = p.units) (hf : p.Follows p') :
    p'.Placed K (.opening todo) := by
  refine h.keep hp hf (fun f u _ ho => ho) fun d D v _ hg hv ho => ?_
  rw [Stage.awaits_reconciling] at ho
  rw [Stage.awaits_opening]
  refine ho.resolve_right fun ho => ?_
  rw [ho.1] at hg
  cases hu.symm.trans hg
  cases hr.symm.trans hv

lemma skip {todo : List FileId} (h : p.Placed K (.opening (file :: todo))) (hu : p.units.get? file = none)
    (hf : p.Follows p) : p.Placed K (.opening todo) := by
  have other {f u} (hg : p.units.get? f = some u) (hm : f ∈ file :: todo) : f ∈ todo := by
    refine (List.mem_cons.1 hm).resolve_left ?_
    rintro rfl
    cases hu.symm.trans hg
  refine h.keep rfl hf (fun f u hg ho => other hg ho) fun d D u _ hg _ ho => ?_
  rw [Stage.awaits_opening] at ho ⊢
  exact other hg ho

lemma openUnit {todo : List FileId} (h : p.Placed K (.opening (file :: todo))) (hu : p.units.get? file = some u) :
    (p.modifyUnit file ({ · with dirty := false })).Placed K (.reconciling file u.decls.elems none todo) := by
  refine h.modifyUnit (fun _ => ⟨rfl, rfl⟩) (fun f ho => ?_) (fun _ => nofun) (fun f d D v hD hf hv hm ho => ?_)
    fun _ _ hk => hk
  · exact (List.mem_cons.1 ho).symm.imp_right fun h => ⟨h, fun _ => rfl⟩
  · rw [Stage.awaits_opening] at ho
    rw [Stage.awaits_reconciling]
    obtain rfl | ho := List.mem_cons.1 ho
    · cases hu.symm.trans hv
      exact .inr ⟨rfl, hm⟩
    · exact .inl ho

lemma refresh {untaken untaken' : List DeclId} {left left' : Option (List ItemSummary)} {todo : List FileId}
    (h : p.Placed K (.reconciling file untaken left todo)) (hi : p.Declares file ns item) (hp : p'.units = p.units)
    (hf : p.Follows p') : p'.Placed K (.reconciling file untaken' left' todo) := by
  refine h.keep hp hf (fun f u _ ho => ho) fun d D v _ hg hv ho => ?_
  rw [Stage.awaits_reconciling] at ho ⊢
  refine .inl (ho.resolve_right fun ho => ?_)
  obtain ⟨u, hu, hr, -⟩ := hi.removed_eq_false
  rw [ho.1] at hg
  cases hu.symm.trans hg
  rw [hr] at hv
  cases hv

lemma drain {rest : List DeclId} (h : e.program.Placed K .draining)
    (hf : let e' := (e.popped rest).drainStep d
      e'.program.nextDecl = e.program.nextDecl → e.program.Follows e'.program) :
    ((e.popped rest).drainStep d).program.Placed K .draining := by
  obtain ⟨-, he⟩ | ⟨D, -, -, he⟩ | ⟨D, hD, -, -, he⟩ :=
    (e.popped rest).drainStep_turns d <;> rw [he] at hf ⊢
  · exact h.keepStage rfl (hf rfl)
  · exact h.keepStage rfl (hf rfl)
  · exact h.delete (Engine.deleteDecl_units (Program.decl?_modifyDecl_of hD)) (hf (Engine.deleteDecl_nextDecl ..))
      (Engine.deleteDecl_gone ..) (fun _ _ _ ho => ho) fun _ ho => ho

end Placed

end Program

lemma placed_move (c c' : Config) (hm : Move c c') (h : c.program.Placed K c.stage) :
    c'.program.Placed K c'.stage := by
  have hf := hm.follows
  cases hm with
  | quiet hq => exact h.keepStage hq.units (hf hq.nextDecl)
  | tear => exact h.keep rfl (hf rfl) (fun _ _ _ _ => trivial) fun _ _ _ _ _ _ _ => .inl trivial
  | collide | claim | rewind | requeue => exact h.keepStage rfl (hf rfl)
  | fail | failLate => exact h.keepWork rfl (Program.fail_beside ..).units (hf (Program.fail_beside ..).nextDecl)
  | depend =>
    exact h.keepWork rfl (Program.dependencyFailed_beside ..).units (hf (Program.dependencyFailed_beside ..).nextDecl)
  | register hi => exact h.register hi (fun _ _ h => h.elim False.elim nofun) fun _ h => h.elim
  | edge => exact h.keepWork rfl (Program.addEdge_rewired ..).units (hf (Program.addEdge_rewired ..).nextDecl)
  | release => exact h.keepWork rfl (Program.release_rewired ..).units (hf (Program.release_rewired ..).nextDecl)
  | outdate => exact h.keepWork rfl (Engine.markOutdated_units ..) (hf (Engine.Marks.markOutdated ..).nextDecl)
  | grant link header =>
    cases header with
    | true => exact h.keepWork rfl rfl (hf rfl)
    | false => exact h.keepWork rfl rfl (hf rfl)
  | start => exact h.start
  | retry d => exact h.keepStage (Engine.markOutdated_units ..) (hf (Engine.Marks.markOutdated ..).nextDecl)
  | retried =>
    exact h.keep rfl (hf rfl) (fun _ _ _ ho => ho) fun _ _ _ _ _ _ ho =>
      Stage.awaits_opening.2 (Stage.awaits_retrying.1 ho)
  | skip hu => exact h.skip hu (hf rfl)
  | openUnit hu => exact (h.openUnit hu).keepStage rfl (hf rfl)
  | unread hu hr => exact h.close hu hr rfl (hf rfl)
  | read hu hl =>
    have hk := (h.known (Dict.mem_of_get? hu)).load hl
    exact h.modifyUnit (fun _ => ⟨rfl, rfl⟩) (fun f ho => .inl ho) (fun _ h => h)
      (fun f d D v hD hf hv hm ho => ho) fun _ _ _ => hk
  | blank hu _ hi =>
    refine h.close hu ?_ rfl (hf rfl)
    unfold SourceUnit.items? at hi
    split at hi
    · cases hi
    · next hr => exact Bool.eq_false_iff.2 hr
  | itemize | disregard => exact h.keep rfl (hf rfl) (fun f u _ ho => ho) fun _ _ _ _ _ _ ho => ho.left
  | @enroll file untaken left todo _ _ _ hi =>
    have h : Program.Placed K (.reconciling file untaken (some left) todo) (Program.register ..) :=
      h.register hi (fun _ _ ho => ho.left) fun _ h => h
    dsimp only
    split <;> exact h
  | refresh hi => exact h.refresh hi (Engine.refresh_units ..) (hf (Engine.refresh_nextDecl ..))
  | again =>
    exact h.keep (Program.fail_beside ..).units (hf (Program.fail_beside ..).nextDecl) (fun f u _ ho => ho)
      fun _ _ _ _ _ _ ho => ho.left
  | drop =>
    refine h.deleteDecl (hf (Engine.deleteDecl_nextDecl ..)) (fun f x hx ho => ?_) fun _ ho => ho
    rw [Stage.awaits_reconciling] at ho ⊢
    exact ho.imp_right fun ho => ⟨ho.1, (List.mem_cons.1 ho.2).resolve_left hx⟩
  | closeUnit =>
    refine h.keep rfl (hf rfl) (fun f u _ ho => ho) fun d D v _ hg hv ho => ?_
    rw [Stage.awaits_reconciling] at ho
    rw [Stage.awaits_opening]
    exact ho.resolve_right nofun
  | opened =>
    refine h.keep rfl (hf rfl) (fun f u _ ho => nomatch ho) fun d D v _ hg hv ho => ?_
    rw [Stage.awaits_opening] at ho
    cases ho
  | drain => exact h.drain hf
  | drained => exact h.drained
  | _ => exact h.keepWork rfl rfl (hf rfl)

def Program.Has (p : Program) (file : FileId) : Prop := ∃ u, (file, u) ∈ p.units.entries

def Program.HadUnit (p : Program) (file : FileId) (u : SourceUnit) : Prop :=
  ∃ u₀, (file, u₀) ∈ p.units.entries ∧ (u.content = u₀.content ∨ loadContent file u₀.content = .ok u.content)

structure SourceUnit.Like (u u' : SourceUnit) : Prop where
  path : u'.path = u.path
  namespaceHash : u'.namespaceHash = u.namespaceHash
  content : u'.content = u.content
  removed : u'.removed = u.removed

lemma Engine.deleteDecl_like (e : Engine) (d : DeclId) : (e.deleteDecl d).program.units = e.program.units ∨
    ∃ file g, (e.deleteDecl d).program.units = e.program.units.modify file g ∧ ∀ u : SourceUnit, u.Like (g u) := by
  cases hD : e.program.decl? d with
  | none => exact .inl (by rw [deleteDecl_of_none hD])
  | some D => exact .inr ⟨_, _, deleteDecl_units hD, fun _ => ⟨rfl, rfl, rfl, rfl⟩⟩

lemma Move.units_or {c c' : Config} (hm : Move c c') : (c'.program.units = c.program.units ∨
      ∃ file g, c'.program.units = c.program.units.modify file g ∧ ∀ u : SourceUnit, u.Like (g u)) ∨
    (∃ file untaken todo u content, c.stage = .reconciling file untaken none todo ∧ c.program.units.get? file = some u ∧
      Program.loadContent file u.content = .ok content ∧
      c'.program.units = c.program.units.modify file ({ · with content })) ∨
    c.stage.Ends c'.stage ∧ c'.program.units = c.program.units.filter (!·.removed) := by
  have registered (p : Program) (file : FileId) (ns : NameHash) (item : ItemSummary) :
      ∃ f g, (p.register file ns item).units = p.units.modify f g ∧ ∀ u : SourceUnit, u.Like (g u) :=
    ⟨file, fun u => { u with decls := u.decls.insert p.nextDecl }, rfl, fun _ => ⟨rfl, rfl, rfl, rfl⟩⟩
  cases hm with
  | quiet hq => exact .inl (.inl hq.units)
  | fail | failLate | again => exact .inl (.inl (Program.fail_beside ..).units)
  | depend => exact .inl (.inl (Program.dependencyFailed_beside ..).units)
  | edge => exact .inl (.inl (Program.addEdge_rewired ..).units)
  | release => exact .inl (.inl (Program.release_rewired ..).units)
  | grant link header => cases header <;> exact .inl (.inl rfl)
  | outdate | retry => exact .inl (.inl (Engine.markOutdated_units ..))
  | refresh => exact .inl (.inl (Engine.refresh_units ..))
  | register => exact .inl (.inr (registered ..))
  | openUnit => exact .inl (.inr ⟨_, ({ · with dirty := false }), rfl, fun _ => ⟨rfl, rfl, rfl, rfl⟩⟩)
  | read hu hc => exact .inr (.inl ⟨_, _, _, _, _, rfl, hu, hc, rfl⟩)
  | enroll =>
    dsimp only
    split <;> exact .inl (.inr (registered ..))
  | drop => exact .inl (Engine.deleteDecl_like ..)
  | @drain e d rest =>
    obtain ⟨-, he⟩ | ⟨D, -, -, he⟩ | ⟨D, -, -, -, he⟩ :=
      (e.popped rest).drainStep_turns d <;> rw [he]
    · exact .inl (.inl rfl)
    · exact .inl (.inl rfl)
    · exact .inl (Engine.deleteDecl_like ..)
  | drained => exact .inr (.inr ⟨⟨rfl, rfl⟩, rfl⟩)
  | _ => exact .inl (.inl rfl)

lemma Move.hadUnit {c c' : Config} (hm : Move c c') {u : SourceUnit}
    (h : (file, u) ∈ c'.program.units.entries) : c.program.HadUnit file u := by
  obtain (hu | ⟨f, g, hu, hg⟩) | ⟨f, _, _, v, content, -, hv, hc, hu⟩ | ⟨-, hu⟩ := hm.units_or <;> rw [hu] at h
  · exact ⟨u, h, .inl rfl⟩
  · obtain ⟨w, hw, rfl⟩ := Dict.mem_modify h
    refine ⟨w, hw, .inl ?_⟩
    split
    · exact (hg w).content
    · rfl
  · obtain ⟨w, hw, rfl⟩ := Dict.mem_modify h
    split
    · next hf =>
      subst hf
      exact ⟨v, Dict.mem_of_get? hv, .inr hc⟩
    · exact ⟨w, hw, .inl rfl⟩
  · exact ⟨u, List.mem_of_mem_filter h, .inl rfl⟩

lemma SourceUnit.isLowered_of_load {u u' : SourceUnit} (h : u.isLowered = false)
    (hl : Program.loadContent file u.content = .ok u'.content) : u'.isLowered = false := by
  unfold isLowered at h ⊢
  obtain ⟨_, _, _, _, -, -, -, hc⟩ | ⟨_, _, hc, -⟩ := Program.loadContent_cases hl
  · rw [hc]
  · rw [hc] at h
    cases h

def Program.OfTexts (p : Program) : Prop := ∀ file u, (file, u) ∈ p.units.entries → u.isLowered = false

namespace Program.OfTexts
variable {p p' : Program}

lemma modifyUnit (h : p.OfTexts) (file : FileId) {g : SourceUnit → SourceUnit}
    (hg : ∀ u, u.isLowered = false → (g u).isLowered = false) : (p.modifyUnit file g).OfTexts := by
  intro f u hu
  obtain ⟨u₀, hu₀, rfl⟩ := Dict.mem_modify hu
  split
  · exact hg u₀ (h f u₀ hu₀)
  · exact h f u₀ hu₀

lemma edit (h : p.OfTexts) {change : Edit} (ht : change.isText = true) : (p.edit change).OfTexts := by
  cases change with
  | addSource | addPath =>
    intro file u hu
    obtain he | hu := Dict.mem_insert hu
    · cases he
      rfl
    · exact h file u hu
  | setSource file | setFile file =>
    refine h.modifyUnit file fun u hu => ?_
    cases hc : u.content with
    | source origin loaded => rfl
    | lowered ds r =>
      rw [SourceUnit.isLowered, hc] at hu
      cases hu
  | touch file | removeUnit file => exact h.modifyUnit file fun _ h => h
  | addLowered | setLowered => cases ht

end Program.OfTexts

lemma Move.ofTexts {c c' : Config} (hm : Move c c') (h : c.program.OfTexts) : c'.program.OfTexts := by
  intro file u hu
  obtain ⟨u₀, hu₀, hc⟩ := hm.hadUnit hu
  obtain hc | hc := hc
  · rw [SourceUnit.isLowered, hc]
    exact h file u₀ hu₀
  · exact SourceUnit.isLowered_of_load (h file u₀ hu₀) hc

lemma Move.has {c c' : Config} (hm : Move c c') (h : c'.program.Has file) : c.program.Has file := by
  obtain ⟨u, hu⟩ := h
  obtain ⟨v, hv, -⟩ := hm.hadUnit hu
  exact ⟨v, hv⟩

end Frontend
