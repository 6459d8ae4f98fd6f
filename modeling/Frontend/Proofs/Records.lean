import Frontend.Proofs.Reports

/-! The failures that a program records. A declaration that has failed keeps its diagnostic as long as nothing has it
analyzed anew or deleted, and the ways in which that comes about are few. -/

namespace Frontend

variable {c c' : Config} {d : DeclId} {p : Program} {edits : List Edit}

def Config.Handles (c : Config) (d : DeclId) : Prop := c.Engaged d ∨ c.stage = .asking d .code

lemma Move.handles (hm : Move c c') (h : c'.Handles d) :
    c.Handles d ∨ ∃ D, c.program.decl? d = some D ∧ D.state.Due := by
  obtain (h | h | h | ⟨r, h⟩) | h := h
  · exact (hm.mem_stack h).imp_left fun h => .inl (.inl h)
  · obtain h | ⟨h, -⟩ := hm.owes h
    · exact .inl (.inl (.inr (.inl h)))
    · exact .inl (.inl (.inl (List.mem_of_head? h)))
  · exact .inl (.inl (.inr ((hm.coding h).symm.imp_right .inl)))
  · obtain h | ⟨h, -⟩ := hm.body h
    · exact .inl (.inl (.inr (.inr (.inr ⟨r, h⟩))))
    · exact .inl (.inl (.inr (.inr (.inl h))))
  · obtain ⟨h, -⟩ | ⟨-, h⟩ := hm.asks h nofun
    · exact .inl (.inr h)
    · exact .inl (.inl (.inr h))

namespace Engine
variable {e : Engine} {d x : DeclId} {D X : Decl}

lemma decl?_repeatedItem (file : FileId) (item : ItemSummary) (hD : e.program.decl? d = some D) :
    ∃ D', (e.repeatedItem file d item).program.decl? d = some D' ∧ D'.state = .failed ∧
      D'.generation = (e.repeatedItem file d item).program.generation := by
  have hdecl : (e.repeatedItem file d item).program.decl? d = some { D with
      index := item.index, src := item.src, contents := ⟨item.hash.bits ^^^ redefinitionMask⟩, state := .failed
      generation := e.program.generation } := by
    show ((e.program.modifyDecl d _).modifyDecl d _).decl? d = _
    rw [Program.decl?_modifyDecl_self, Program.decl?_modifyDecl_self, hD]
    rfl
  exact ⟨_, hdecl, rfl, rfl⟩

lemma record_repeatedItem {file : FileId} {item : ItemSummary} :
    (e.repeatedItem file d item).program.failedDecls.get? d =
      some ((e.program.failedDecls.get? d).getD ⟨file, item.src, .redefinition item.name⟩) :=
  (Dict.get?_insertIfNew ..).trans (if_pos rfl)

end Engine

/-- The declaration has failed with the diagnostic, and is left alone; if `fresh`, it was dealt with in this
generation. -/
structure Config.Fails (fresh : Prop) (d : DeclId) (diagnostic : Diagnostic) (c : Config) : Prop where
  failed : ∃ D, c.engine.program.decl? d = some D ∧ D.state = .failed ∧
    (fresh → D.generation = c.engine.program.generation)
  record : c.engine.program.failedDecls.get? d = some diagnostic
  free : ¬ c.Handles d

inductive Config.Loses (fresh : Prop) (d : DeclId) (c c' : Config) : Prop
  | stale (hf : ¬ fresh) (h : d ∈ c'.engine.program.report.outdated)
  | retried {todo} (hst : c.stage = .retrying todo) (h : d ∈ c'.engine.program.report.outdated)
  | taken {file untaken left todo} (hst : c.stage = .reconciling file untaken left todo) (hd : d ∈ untaken)
      (h : d ∈ c'.engine.program.report.outdated ∨ d ∈ c'.engine.program.report.deleted)
  | orphaned {x} (ho : c.stage.isOpening = true) (hx : x ∈ c.engine.program.depsOf d)
      (h : x ∈ c'.engine.program.report.deleted)
      (hd : d ∈ c'.engine.program.report.outdated)
  | drained (hst : c'.stage = .draining) (hd : c'.engine.program.decl? d = none)
      (h : d ∈ c'.engine.program.report.deleted)

namespace Config.Fails
variable {fresh : Prop} {d : DeclId} {diagnostic : Diagnostic} {c c' : Config}

lemma free_move (h : c.Fails fresh d diagnostic) (hm : Move c c') : ¬ c'.Handles d := by
  intro hh
  obtain hh | ⟨D, hD, hs⟩ := hm.handles hh
  · exact h.free hh
  · obtain ⟨D', hD', hs', -⟩ := h.failed
    cases hD.symm.trans hD'
    rw [hs'] at hs
    obtain hs | hs := hs <;> cases hs

lemma move (h : c.Fails fresh d diagnostic) (hm : Move c c') (hb : ¬ c.stage.Begins c'.stage)
    (ht : c'.stage ≠ .torn) (hg : c.program.Graph) : c'.Fails fresh d diagnostic ∨ c.Loses fresh d c' := by
  obtain ⟨D, hD, hstate, hgen⟩ := h.failed
  have other : ¬ c.Innermost d := fun hd => h.free (.inl hd.engaged)
  obtain ⟨D', r', hD', hr', hturn⟩ | ⟨hD', -, hdel, -, -, hgone⟩ := hm.becomes hD (hg.bound hD)
  · have kept (hs : D'.state = .failed) (hg' : fresh → D'.generation = c.program.generation)
        (hr : r' = some diagnostic) : c'.Fails fresh d diagnostic ∨ c.Loses fresh d c' :=
      .inl ⟨⟨D', hD', hs, fun hf => (hg' hf).trans (hm.generation hb).symm⟩, hr'.trans hr, h.free_move hm⟩
    rw [show c.program.record? d = _ from h.record] at hturn
    cases hturn with
    | wired | reread => exact kept hstate hgen rfl
    | repeated => exact kept rfl (fun _ => rfl) rfl
    | marked _ _ _ _ hl hst =>
      obtain ⟨ho, -, -, ⟨todo, hst⟩ | ⟨file, x, rest, todo, hst, hx, hdel⟩⟩ | ⟨-, -, hn⟩ := hst
      · exact .inr (.retried hst hl.2)
      · exact .inr (.orphaned ho (hg.symm.2 hx) hdel hl.2)
      · exact .inr (.stale (fun hf => hn (hgen hf)) hl.2)
    | rereadMarked hst _ hl hu => exact .inr (.taken hst hu (.inl hl.2))
    | rewound hst' => exact absurd hst' ht
    | entered _ _ _ hs =>
      rw [hstate] at hs
      exact hs.elim nofun nofun
    -- What is under analysis is another declaration.
    | failed _ _ _ hS | depended hS | installed _ _ hS | granted _ _ _ hS | withheld _ _ _ hS =>
      exact absurd (.inl hS) other
    | completed _ hS => exact absurd (.inl (hS ▸ rfl)) other
    | failedBody _ _ _ hS hb | dependedBody _ _ hS hb | ended _ _ hb _ hS => exact absurd (.inr ⟨hS, _, hb⟩) other
    | opened hst => exact absurd (.inl (.inr (.inr (.inl hst)))) h.free
    | @refused about _ _ hst _ hc =>
      cases about with
      | code => exact absurd (.inr hst) h.free
      | header | line => cases (hc nofun).symm.trans hstate
  · obtain ⟨file, rest, todo, hst⟩ | ⟨-, hst', -⟩ := hgone
    · exact .inr (.taken hst List.mem_cons_self (.inr hdel))
    · exact .inr (.drained hst' hD' hdel)

end Config.Fails

/-! Where failures come from. -/

lemma Move.blames (hm : Move c c') {diagnostic : Diagnostic} (h : c'.program.record? d = some diagnostic) :
    c.program.record? d = some diagnostic ∨ c.Innermost d ∧ c'.stage.isClosing = true ∨ c'.stack = [] ∧
      ∃ D, c.program.decl? d = some D ∧ ((∃ about, c.stage = .asking d about) ∨
        ∃ file untaken item left todo ns, c.stage = .reconciling file untaken (some (item :: left)) todo ∧
          c.program.Declares file ns item ∧ c.program.declTable.get? (ns.child item.name) = some d ∧
          d ∉ untaken) := by
  have hturns := hm.turns d
  generalize c.program.decl? d = o, c.program.record? d = r, c'.program.decl? d = o',
    c'.program.record? d = r' at hturns h ⊢
  cases hturns with
  | gone => cases h
  | fresh => exact .inl h
  | absent hr =>
    obtain rfl | ⟨hst', hi⟩ := hr
    · exact .inl h
    · exact .inr (.inl ⟨hi, hst' ▸ rfl⟩)
  | kept hturn =>
    cases hturn with
    | marked | rereadMarked => cases h
    | failed _ _ hst' hS | withheld _ _ hst' hS => exact .inr (.inl ⟨.inl hS, hst' ▸ rfl⟩)
    | failedBody _ _ hst' hS hb => exact .inr (.inl ⟨.inr ⟨hS, _, hb⟩, hst' ▸ rfl⟩)
    | refused _ hst _ _ _ hS' => exact .inr (.inr ⟨hS', _, rfl, .inl ⟨_, hst⟩⟩)
    | repeated hst _ hi ht hu _ hS' => exact .inr (.inr ⟨hS', _, rfl, .inr ⟨_, _, _, _, _, _, hst, hi, ht, hu⟩⟩)
    | _ => exact .inl h

structure Program.Wipes (x : DeclId) (p p' : Program) : Prop where
  record : p.record? x = none → p'.record? x = none
  outdated : x ∈ p'.report.outdated → x ∈ p.report.outdated ∨ p'.record? x = none

namespace Program.Wipes
variable {p p' p'' : Program} {x : DeclId}

lemma same (hf : p'.failedDecls = p.failedDecls) (hr : p'.report.outdated = p.report.outdated) : p.Wipes x p' := by
  refine ⟨fun h => ?_, fun h => .inl (hr ▸ h)⟩
  rwa [record?, hf]

lemma trans (h : p.Wipes x p') (h' : p'.Wipes x p'') : p.Wipes x p'' where
  record := h'.record ∘ h.record
  outdated hx := by
    obtain hx | hx := h'.outdated hx
    · exact (h.outdated hx).imp_right h'.record
    · exact .inr hx

lemma ofErase (d : DeclId) (hf : p'.failedDecls = p.failedDecls.erase d)
    (hr : ∀ {x}, x ∈ p'.report.outdated → x ∈ p.report.outdated ∨ x = d) : p.Wipes x p' := by
  have hrecord : p'.record? x = if d = x then none else p.record? x := by rw [record?, hf, Dict.get?_erase, record?]
  refine ⟨fun h => ?_, fun hx => (hr hx).imp_right fun hx => ?_⟩
  · rw [hrecord, h, ite_self]
  · rw [hrecord, if_pos hx.symm]

lemma markOutdated (e : Engine) (d : DeclId) : e.program.Wipes x (e.markOutdated d).program :=
  Engine.markOutdated_rule (same rfl rfl) (ofErase d rfl mem_outdate.1)

lemma deleteDecl (e : Engine) (d : DeclId) : e.program.Wipes x (e.deleteDecl d).program := by
  refine Engine.deleteDecl_rule (same rfl rfl) (fun D _ => same ?_ ?_) (fun hw h => h.trans (same ?_ ?_))
    (fun e y h => h.trans (markOutdated e y)) fun p D h => h.trans (ofErase d ?_ fun hx => ?_)
  · unfold detach
    dsimp only
    split <;> rfl
  · rw [detach_report]
  · exact hw.failedDecls
  · rw [hw.report]
  · exact (p.forget_quiet d D).failedDecls
  · exact .inl (outdated_forget p d D ▸ hx)

lemma refresh (e : Engine) (d : DeclId) (D : Decl) (item : ItemSummary) :
    e.program.Wipes x (e.refresh d D item).program :=
  Engine.refresh_rule (same rfl rfl) fun e h => h.trans (markOutdated e d)

end Program.Wipes

lemma Move.outdated (hm : Move c c') (h : d ∈ c'.program.report.outdated) :
    d ∈ c.program.report.outdated ∨ c'.program.record? d = none := by
  cases hm with
  | quiet hq => exact .inl (hq.report ▸ h)
  | fail | failLate => exact .inl ((Program.fail_beside ..).report ▸ h)
  | depend => exact .inl ((Program.dependencyFailed_beside ..).report ▸ h)
  | edge => exact .inl ((Program.addEdge_rewired ..).report ▸ h)
  | release => exact .inl ((Program.release_rewired ..).report ▸ h)
  | grant link header => cases header <;> exact .inl h
  | outdate | retry => exact (Program.Wipes.markOutdated ..).outdated h
  | enroll =>
    dsimp only at h
    split at h <;> exact .inl h
  | refresh => exact (Program.Wipes.refresh ..).outdated h
  | drop => exact (Program.Wipes.deleteDecl ..).outdated h
  | drain =>
    rw [Config.program, Engine.outdated_drainStep] at h
    exact .inl h
  | start | drained => cases h
  | _ => exact .inl h

def Program.Recorded (p : Program) : Prop := ∀ d diagnostic, p.failedDecls.get? d = some diagnostic → d < p.nextDecl

lemma Program.Recorded.move (h : c.program.Recorded) (hm : Move c c')
    (hg : c.program.Graph) (ha : c.Attentive) : c'.program.Recorded := by
  intro x diagnostic hx
  refine Nat.lt_of_lt_of_le ?_ hm.nextDecl_le
  obtain hx | ⟨hi, -⟩ | ⟨-, D, hD, -⟩ := hm.blames hx
  · exact h x diagnostic hx
  · obtain ⟨D, hD, -⟩ := ha.attends hi.engaged
    exact hg.bound hD
  · exact hg.bound hD

lemma Program.Runs.reaches {p' : Program} (h : Runs p edits p') : Reaches (fun _ => True) p p' := by
  induction h with
  | refl => exact .refl
  | @edit _ p' _ change ih =>
    have hact : Reaches (fun _ => True) p (p'.act (.edit change)) := ih.act trivial
    exact hact
  | @update _ p' _ _ _ hu ih =>
    have hact : Reaches (fun _ => True) p (p'.act .update) := ih.act trivial
    rwa [act, hu] at hact

lemma Program.Recorded.edit (h : p.Recorded) (change : Edit) : (p.edit change).Recorded := by
  cases change <;> exact h

lemma Program.Runs.recorded {options : Options} {backend : Backend} (h : Runs { options, backend } edits p) :
    p.Recorded := by
  induction h with
  | refl => exact nofun
  | edit _ change ih => exact ih.edit change
  | @update _ p _ _ hr hu ih =>
    have hg : p.Graph := (Graph.empty options backend).reaches hr.reaches
    obtain ⟨e, ⟨-, -, he⟩, -, -, rfl⟩ := update_intact
      (P := fun c => c.program.Graph ∧ c.Attentive ∧ c.program.Recorded)
      (fun c c' hm _ _ ht h => ⟨graph_move c c' hm h.1, attentive_move c c' hm ht h.1 h.2.1, h.2.2.move hm h.1 h.2.1⟩)
      ⟨hg.ofDecls rfl rfl, .ofIdle rfl rfl nofun nofun, ih⟩ hu
    exact he

end Frontend
