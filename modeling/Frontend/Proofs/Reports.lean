import Frontend.Proofs.Quiescence.Attention
import Frontend.Proofs.Unambiguous

/-! What an update reports. A declaration that was analyzed is attended to until the update ends, and one that was
deleted does not come back, so that neither is listed twice. A declaration that was marked is not marked again either,
unless a repeated item fails it in between. -/

namespace Frontend

/-! What a move does to a declaration that was dealt with, to the numbers given out and to the report. -/

lemma Program.detach_report (p : Program) (d : DeclId) (D : Decl) : (p.detach d D).report = p.report := by
  unfold detach
  dsimp only
  split <;> rfl

lemma Program.report_forget (p : Program) (d : DeclId) (D : Decl) :
    (p.forget d D).report = { p.report with deleted := p.report.deleted ++ [d] } := (p.forget_quiet d D).report

lemma Program.outdated_forget (p : Program) (d : DeclId) (D : Decl) :
    (p.forget d D).report.outdated = p.report.outdated := by rw [report_forget]

variable {c c' : Config} {N : String × String → Prop}

lemma Move.gone (hm : Move c c') {d : DeclId} (hd : d < c.program.nextDecl)
    (h : c.program.decl? d = none) : c'.program.decl? d = none := by
  cases hD' : c'.program.decl? d with
  | none => rfl
  | some D' =>
    obtain ⟨D, -, hD, -⟩ | ⟨-, -, -, rfl, -⟩ := hm.was hD'
    · cases h.symm.trans hD
    · exact absurd hd (Nat.lt_irrefl _)

lemma Move.mem_stack (hm : Move c c') {d : DeclId} (h : d ∈ c'.stack) :
    d ∈ c.stack ∨ ∃ D, c.program.decl? d = some D ∧ D.state.Due := by
  cases hm with
  | enter hd hs =>
    obtain rfl | h := List.mem_cons.1 h
    · exact .inr ⟨_, hd, hs⟩
    · exact .inl h
  | rewind | finish | abandon => exact .inl (List.mem_cons_of_mem _ h)
  | _ => exact .inl h

structure Engine.Silent (e e' : Engine) : Prop where
  analyzed : e'.program.report.analyzed = e.program.report.analyzed
  deleted : e'.program.report.deleted = e.program.report.deleted

lemma Engine.Silent.markOutdated {e e' : Engine} (h : e.Silent e') (d : DeclId) : e.Silent (e'.markOutdated d) := by
  obtain ⟨he, -⟩ | ⟨D, -, -, he⟩ := e'.markOutdated_cases d
  · rwa [he]
  · rw [he]
    exact ⟨h.analyzed, h.deleted⟩

def Engine.Deletes (e e' : Engine) : Prop :=
  ∃ d D, e.program.decl? d = some D ∧ e'.program.decl? d = none ∧
    e'.program.report.analyzed = e.program.report.analyzed ∧ e'.program.report.deleted = e.program.report.deleted ++ [d]

namespace Engine

lemma Silent.refl (e : Engine) : e.Silent e := ⟨rfl, rfl⟩

lemma Silent.rewire {e e' : Engine} {p : Program} (h : e.Silent e') (hw : e'.program.Rewired p) :
    e.Silent { e' with program := p } := by
  refine ⟨?_, ?_⟩
  · show p.report.analyzed = _
    rw [hw.report, h.analyzed]
  · show p.report.deleted = _
    rw [hw.report, h.deleted]

lemma silent_or_deletes_deleteDecl (e : Engine) (d : DeclId) :
    e.Silent (e.deleteDecl d) ∨ e.Deletes (e.deleteDecl d) := by
  cases hD : e.program.decl? d with
  | none =>
    rw [deleteDecl_of_none hD]
    exact .inl (.refl e)
  | some D =>
    have hdetached : e.Silent (e.modifyProgram (·.detach d D)) := by
      constructor
      · exact congrArg Report.analyzed (Program.detach_report ..)
      · exact congrArg Report.deleted (Program.detach_report ..)
    obtain ⟨e₁, hs, he⟩ :=
      deleteDecl_through (P := e.Silent) (fun hw _ h => h.rewire hw) (fun x _ h => h.markOutdated x) hD
      hdetached
    rw [he]
    refine .inr ⟨d, D, hD, ?_, ?_, ?_⟩
    · exact (e₁.program.decl?_forget d d D).trans (if_pos rfl)
    · show (e₁.program.forget d D).report.analyzed = _
      rw [Program.report_forget]
      exact hs.analyzed
    · show (e₁.program.forget d D).report.deleted = _
      rw [Program.report_forget]
      dsimp only
      rw [hs.deleted]

lemma silent_or_deletes_drainStep (e : Engine) (d : DeclId) :
    e.Silent (e.drainStep d) ∨ e.Deletes (e.drainStep d) := by
  unfold drainStep
  split
  · exact .inl (.refl e)
  · next D hD =>
    dsimp only
    split
    · exact .inl ⟨rfl, rfl⟩
    · obtain hs | ⟨x, X, hX, hrest⟩ := silent_or_deletes_deleteDecl (e.modifyProgram (·.spare d)) d
      · exact .inl ⟨hs.analyzed, hs.deleted⟩
      · obtain ⟨X₀, hX₀, -⟩ := Program.exists_of_decl?_modifyDecl hX
        exact .inr ⟨x, X₀, hX₀, hrest⟩

lemma outdated_drainStep (e : Engine) (d : DeclId) :
    (e.drainStep d).program.report.outdated = e.program.report.outdated := by
  obtain he | he | ⟨D, he⟩ := e.drainStep_cases d
  · rw [he]
  · rw [he]
    rfl
  · rw [he, modifyProgram]
    dsimp only
    rw [Program.outdated_forget, (Program.release_rewired ..).report, Program.detach_report]
    rfl

lemma silent_refresh (e : Engine) (d : DeclId) (D : Decl) (item : ItemSummary) : e.Silent (e.refresh d D item) := by
  unfold refresh
  dsimp only
  split
  · split
    · split <;> exact ⟨rfl, rfl⟩
    · refine Silent.markOutdated ?_ d
      exact ⟨rfl, rfl⟩
  · split <;> exact ⟨rfl, rfl⟩

end Engine

lemma Move.report_or (hm : Move c c') (hb : ¬ c.stage.Begins c'.stage) (he : ¬ c.stage.Ends c'.stage) :
    c.engine.Silent c'.engine ∨ c.engine.Deletes c'.engine ∨
      ∃ d, c'.stage = .working ∧ c.stack = d :: c'.stack ∧
        c'.program.report.analyzed = c.program.report.analyzed ++ [d] ∧
        c'.program.report.deleted = c.program.report.deleted := by
  have same (h : c'.program.report = c.program.report) : c.engine.Silent c'.engine := by
    constructor <;> rw [h]
  cases hm with
  | quiet hq => exact .inl (same hq.report)
  | fail | failLate | again => exact .inl (same (Program.fail_beside ..).report)
  | depend => exact .inl (same (Program.dependencyFailed_beside ..).report)
  | edge => exact .inl (.rewire (.refl _) (Program.addEdge_rewired ..))
  | release => exact .inl (.rewire (.refl _) (Program.release_rewired ..))
  | grant link header => cases header <;> exact .inl ⟨rfl, rfl⟩
  | finish => exact .inr (.inr ⟨_, rfl, rfl, rfl, rfl⟩)
  | outdate | retry => exact .inl (.markOutdated (.refl _) _)
  | start => exact absurd ⟨rfl, _, rfl⟩ hb
  | enroll =>
    dsimp only
    split <;> exact .inl ⟨rfl, rfl⟩
  | refresh => exact .inl (Engine.silent_refresh ..)
  | drop => exact (Engine.silent_or_deletes_deleteDecl ..).imp_right .inl
  | @drain e d rest =>
    obtain hs | hd := (e.popped rest).silent_or_deletes_drainStep d
    · exact .inl ⟨hs.analyzed, hs.deleted⟩
    · exact .inr (.inl hd)
  | drained => exact absurd ⟨rfl, rfl⟩ he
  | _ => exact .inl ⟨rfl, rfl⟩

lemma Program.clean_of_update {p p' : Program} {report : Report} (hr : p.Registry) (hu : p.update = (.ok report, p'))
    {file : FileId} {u : SourceUnit} (hunit : p'.units.get? file = some u) : u.removed = false ∧ u.dirty = false := by
  obtain ⟨e, hplaced, -, -, rfl⟩ := update_intact (P := fun c => c.program.Placed (fun _ => True) c.stage)
    (fun c c' hm _ _ _ h => placed_move c c' hm h) hr.placedAt.start hu
  have hmem := Dict.mem_of_get? hunit
  refine ⟨by simpa using (List.mem_filter.1 hmem).2, ?_⟩
  cases hd : u.dirty with
  | false => rfl
  | true => exact absurd (hplaced.opened (List.mem_of_mem_filter hmem) hd) (Stage.not_unopened rfl)

/-! Nothing is deleted or analyzed twice. -/

structure Program.Deletions (p : Program) : Prop where
  nodup : p.report.deleted.Nodup
  gone {d : DeclId} : d ∈ p.report.deleted → d < p.nextDecl ∧ p.decl? d = none

lemma Program.Deletions.move (h : c.program.Deletions) (hm : Move c c') (hb : ¬ c.stage.Begins c'.stage)
    (he : ¬ c.stage.Ends c'.stage) (hg : c.program.Graph) : c'.program.Deletions := by
  have gone {d : DeclId} (hd : d ∈ c.program.report.deleted) :
      d < c'.program.nextDecl ∧ c'.program.decl? d = none := by
    obtain ⟨hlt, hn⟩ := h.gone hd
    exact ⟨Nat.lt_of_lt_of_le hlt (hm.nextDecl_le), hm.gone hlt hn⟩
  have same (hdel : c'.program.report.deleted = c.program.report.deleted) : c'.program.Deletions :=
    ⟨hdel ▸ h.nodup, fun hd => gone (hdel ▸ hd)⟩
  obtain hs | ⟨d, D, hD, hd', -, hdel⟩ | ⟨d, -, -, -, hdel⟩ := hm.report_or hb he
  · exact same hs.deleted
  · refine ⟨?_, fun {x} hx => ?_⟩
    · rw [hdel, ← List.concat_eq_append]
      refine h.nodup.concat fun hd => ?_
      cases hD.symm.trans (h.gone hd).2
    · rw [hdel] at hx
      obtain hx | hx := List.mem_append.1 hx
      · exact gone hx
      · rw [List.mem_singleton.1 hx]
        exact ⟨Nat.lt_of_lt_of_le (hg.bound hD) (hm.nextDecl_le), hd'⟩
  · exact same hdel

structure Config.Analyses (c : Config) : Prop where
  opening : c.stage.isOpening = true → c.engine.program.report.analyzed = []
  nodup : c.engine.program.report.analyzed.Nodup
  done {d} : d ∈ c.engine.program.report.analyzed → d < c.engine.program.nextDecl ∧ d ∉ c.stack ∧
    (c.engine.program.Attends d ∨ c.engine.program.decl? d = none)

lemma Config.Analyses.move (h : c.Analyses) (hm : Move c c') (hb : ¬ c.stage.Begins c'.stage)
    (he : ¬ c.stage.Ends c'.stage) (ht : c'.stage ≠ .torn) (hg : c.program.Graph) (ha : c.Attentive) :
    c'.Analyses := by
  have done {d : DeclId} (hd : d ∈ c.program.report.analyzed) : d < c'.program.nextDecl ∧ d ∉ c'.stack ∧
      (c'.program.Attends d ∨ c'.program.decl? d = none) := by
    obtain ⟨hlt, hS, hd'⟩ := h.done hd
    refine ⟨Nat.lt_of_lt_of_le hlt (hm.nextDecl_le), fun hx => ?_, ?_⟩
    -- It is not entered again, since it is attended to.
    · obtain hx | ⟨D, hD, hs⟩ := hm.mem_stack hx
      · exact hS hx
      · obtain ⟨D', hD', hatt⟩ | hn := hd'
        · cases hD.symm.trans hD'
          exact hs.elim hatt.outdated hatt.unreferenced
        · cases hD.symm.trans hn
    · cases ho : c'.stage.isOpening with
      | true =>
        rw [h.opening (hm.isOpening hb ho)] at hd
        cases hd
      | false =>
        obtain hatt | hn := hd'
        · exact (hm.attends ht ho hg hatt).imp_right And.left
        · exact .inr (hm.gone hlt hn)
  have same (hrep : c'.program.report.analyzed = c.program.report.analyzed) : c'.Analyses :=
    ⟨fun ho => hrep ▸ h.opening (hm.isOpening hb ho), hrep ▸ h.nodup, fun hd => done (hrep ▸ hd)⟩
  obtain hs | ⟨-, -, -, -, hrep, -⟩ | ⟨d, hst, hS, hrep, -⟩ := hm.report_or hb he
  · exact same hs.analyzed
  · exact same hrep
  · have ho : c'.stage.isOpening = false := by
      rw [hst]
      rfl
    have hmem : d ∈ c.stack := hS ▸ List.mem_cons_self ..
    have hatt : c.program.Attends d := ha.attends (.inl hmem)
    refine ⟨fun ho' => ?_, ?_, fun {x} hx => ?_⟩
    · rw [ho] at ho'
      cases ho'
    · rw [hrep, ← List.concat_eq_append]
      exact h.nodup.concat fun hd => (h.done hd).2.1 hmem
    · rw [hrep] at hx
      obtain hx | hx := List.mem_append.1 hx
      · exact done hx
      · rw [List.mem_singleton.1 hx]
        have hnodup := ha.nodup
        rw [hS, List.nodup_cons] at hnodup
        obtain ⟨D, hD, -⟩ := id hatt
        exact ⟨Nat.lt_of_lt_of_le (hg.bound hD) (hm.nextDecl_le), hnodup.1,
          (hm.attends ht ho hg hatt).imp_right And.left⟩

/-! Nothing is marked twice, if no item is repeated. -/

namespace Program
variable {p : Program} {d x : DeclId}

lemma mem_outdate : x ∈ (p.outdate d).report.outdated ↔ x ∈ p.report.outdated ∨ x = d := by simp [outdate]

lemma nodup_outdate (h : p.report.outdated.Nodup) (hd : d ∉ p.report.outdated) :
    (p.outdate d).report.outdated.Nodup := by
  unfold outdate
  dsimp only
  rw [← List.concat_eq_append]
  exact h.concat hd

lemma outdate_state {D : Decl} (hD : (p.outdate d).decl? d = some D) : D.state = .outdated := by
  obtain ⟨D₀, -, rfl⟩ := exists_of_decl?_modifyDecl hD
  rw [if_pos rfl]

end Program

def Program.Meets (p : Program) (d : DeclId) : Prop :=
  ∀ D, p.decl? d = some D → D.state = .outdated ∨ D.generation = p.generation

structure Config.Outdates (c : Config) : Prop where
  nodup : c.engine.program.report.outdated.Nodup
  bound {d} : d ∈ c.engine.program.report.outdated → d < c.engine.program.nextDecl
  meets {d} : d ∈ c.engine.program.report.outdated → c.engine.program.Meets d
  asks {d} : c.stage = .asking d .code → c.engine.program.Attends d

lemma Move.outdated_or (hm : Move c c') (ho : c'.stage.isOpening = false) (he : ¬ c.stage.Ends c'.stage) :
    c'.program.report.outdated = c.program.report.outdated ∨
      ∃ d D, c.program.decl? d = some D ∧ D.state ≠ .outdated ∧ D.generation ≠ c.program.generation ∧
        c'.program = c.program.outdate d := by
  cases hm with
  | quiet hq => exact .inl (congrArg Report.outdated hq.report)
  | fail | failLate => exact .inl (congrArg Report.outdated (Program.fail_beside ..).report)
  | depend => exact .inl (congrArg Report.outdated (Program.dependencyFailed_beside ..).report)
  | edge => exact .inl (congrArg Report.outdated (Program.addEdge_rewired ..).report)
  | release => exact .inl (congrArg Report.outdated (Program.release_rewired ..).report)
  | grant link header => cases header <;> exact .inl rfl
  | @outdate d S B e D hd hs hg =>
    have hne : D.state ≠ .outdated := fun hx => by
      rw [hx] at hs
      cases hs
    obtain ⟨-, hout⟩ | ⟨-, -, -, he⟩ := e.markOutdated_cases d
    · exact absurd (hout D hd) hne
    · exact .inr ⟨d, D, hd, hne, hg, congrArg Engine.program he⟩
  | drain => exact .inl (Engine.outdated_drainStep ..)
  | drained => exact absurd ⟨rfl, rfl⟩ he
  | start | retry | retried | skip | openUnit | unread | read | blank | itemize | enroll | refresh | again
  | disregard | drop
  | closeUnit => cases ho
  | _ => exact .inl rfl

lemma Config.Outdates.work (h : c.Outdates) (hm : Move c c') (ho : c'.stage.isOpening = false)
    (he : ¬ c.stage.Ends c'.stage) (ht : c'.stage ≠ .torn) (hg : c.program.Graph) (ha : c.Attentive) :
    c'.Outdates := by
  have hle := hm.nextDecl_le
  have hgen := hm.generation fun ⟨_, todo, hst'⟩ => by
    rw [hst'] at ho
    cases ho
  have meets {d : DeclId} (hd : d ∈ c.program.report.outdated) : c'.program.Meets d := by
    intro D' hD'
    rw [hgen]
    obtain ⟨D, r', hD, -, hturn⟩ | ⟨-, -, -, rfl, -⟩ := hm.was hD'
    · have hmet := h.meets hd D hD
      have attended (hatt : c.program.Attends d) : D.generation = c.program.generation := by
        obtain ⟨D₁, hD₁, ha⟩ := hatt
        cases hD.symm.trans hD₁
        exact ha.generation
      cases hturn with
      | marked | rereadMarked => exact .inl rfl
      | entered | failed | repeated => exact .inr rfl
      | rewound hst' => exact absurd hst' ht
      | depended _ hs | completed _ _ hs => exact .inr (hmet.resolve_left (hs ▸ nofun))
      | installed _ _ hS | withheld _ _ _ hS => exact .inr (attended (ha.attends (.inl (List.mem_of_head? hS))))
      | @refused about _ _ hst _ hc =>
        refine .inr ?_
        cases about with
        | code => exact attended (h.asks hst)
        | header | line => exact hmet.resolve_left (hc nofun ▸ nofun)
      | _ => exact hmet
    · exact absurd (h.bound hd) (Nat.lt_irrefl _)
  have asks {d : DeclId} (hst : c'.stage = .asking d .code) : c'.program.Attends d := by
    obtain ⟨hst₀, hd⟩ | ⟨-, he⟩ := hm.asks hst nofun
    · exact (h.asks hst₀).ofDecls hd hgen
    · obtain hatt | ⟨-, hi⟩ := hm.attends ht ho hg (ha.attends (.inr he))
      · exact hatt
      · cases hst ▸ hi
  obtain hr | ⟨d, D, hD, hs, hn, hp⟩ := hm.outdated_or ho he
  · exact ⟨hr ▸ h.nodup, fun hd => Nat.lt_of_lt_of_le (h.bound (hr ▸ hd)) hle, fun hd => meets (hr ▸ hd), asks⟩
  · have hmem {x : DeclId} (hx : x ∈ c'.program.report.outdated) : x ∈ c.program.report.outdated ∨ x = d :=
      Program.mem_outdate.1 (hp ▸ hx)
    refine ⟨?_, fun {x} hx => ?_, fun {x} hx => ?_, asks⟩
    · rw [← Config.program, hp]
      exact Program.nodup_outdate h.nodup fun hx => (h.meets hx D hD).elim hs hn
    · obtain hx | rfl := hmem hx
      · exact Nat.lt_of_lt_of_le (h.bound hx) hle
      · exact Nat.lt_of_lt_of_le (hg.bound hD) hle
    · obtain hx | rfl := hmem hx
      · exact meets hx
      · intro X (hX : c'.program.decl? _ = some X)
        exact .inl (Program.outdate_state (hp ▸ hX))

structure Program.Marked (p : Program) : Prop where
  nodup : p.report.outdated.Nodup
  marked {d} : d ∈ p.report.outdated → d < p.nextDecl ∧ ∀ D, p.decl? d = some D → D.state = .outdated
  bound {d D} : p.decl? d = some D → d < p.nextDecl

namespace Program.Marked
variable {p p' : Program} {e : Engine} {d : DeclId}

lemma keep (h : p.Marked) (hr : p'.report.outdated = p.report.outdated) (hn : p'.nextDecl = p.nextDecl)
    (hd : ∀ x X', p'.decl? x = some X' → ∃ X, p.decl? x = some X ∧ (X.state = .outdated → X'.state = .outdated)) :
    p'.Marked where
  nodup := hr ▸ h.nodup
  marked {x} hx := by
    obtain ⟨hlt, hout⟩ := h.marked (hr ▸ hx)
    refine ⟨hn ▸ hlt, fun X' hX' => ?_⟩
    obtain ⟨X, hX, hs⟩ := hd x X' hX'
    exact hs (hout X hX)
  bound {x X'} hX' := by
    obtain ⟨X, hX, -⟩ := hd x X' hX'
    exact hn ▸ h.bound hX

lemma ofDecls (h : p.Marked) (hd : p'.decls = p.decls) (hn : p'.nextDecl = p.nextDecl) (hr : p'.report = p.report) :
    p'.Marked :=
  h.keep (congrArg Report.outdated hr) hn fun x X' hX' => ⟨X', by rwa [decl?, hd] at hX', id⟩

lemma modifyDecl (h : p.Marked) {f : Decl → Decl} (hf : ∀ D : Decl, (f D).state = D.state) :
    (p.modifyDecl d f).Marked := by
  refine h.keep rfl rfl fun x X' hX' => ?_
  obtain ⟨X, hX, rfl⟩ := exists_of_decl?_modifyDecl hX'
  refine ⟨X, hX, fun hs => ?_⟩
  split
  · rw [hf, hs]
  · exact hs

lemma rewire (h : p.Marked) (hw : p.Rewired p') : p'.Marked := by
  refine h.keep (congrArg Report.outdated hw.report) hw.nextDecl fun x X' hX' => ?_
  obtain ⟨X, hX, hr⟩ := hw.exists_of_decl? hX'
  cases hr
  exact ⟨X, hX, id⟩

lemma markOutdated (h : e.program.Marked) (d : DeclId) : (e.markOutdated d).program.Marked := by
  obtain ⟨he, -⟩ | ⟨D, hD, hs, he⟩ := e.markOutdated_cases d
  · rwa [he]
  rw [he]
  refine ⟨nodup_outdate h.nodup fun hx => hs ((h.marked hx).2 D hD), fun {x} hx => ?_, fun {x X} hX => ?_⟩
  · obtain hx | rfl := mem_outdate.1 hx
    · refine ⟨(h.marked hx).1, fun X hX => ?_⟩
      obtain ⟨X₀, hX₀, rfl⟩ := exists_of_decl?_modifyDecl hX
      split
      · rfl
      · exact (h.marked hx).2 X₀ hX₀
    · exact ⟨h.bound hD, fun X hX => outdate_state hX⟩
  · obtain ⟨X₀, hX₀, -⟩ := exists_of_decl?_modifyDecl hX
    exact h.bound hX₀

lemma register (h : p.Marked) (file : FileId) (ns : NameHash) (item : ItemSummary) :
    (p.register file ns item).Marked where
  nodup := h.nodup
  marked {x} hx := by
    obtain ⟨hlt, hout⟩ := h.marked hx
    refine ⟨Nat.lt_succ_of_lt hlt, fun X hX => ?_⟩
    obtain ⟨hX, -⟩ | ⟨rfl, -⟩ := decl?_register_cases hX
    · exact hout X hX
    · exact absurd hlt (Nat.lt_irrefl _)
  bound {x X} hX := by
    obtain ⟨hX, -⟩ | ⟨rfl, -⟩ := decl?_register_cases hX
    · exact Nat.lt_succ_of_lt (h.bound hX)
    · exact Nat.lt_succ_self _

lemma refresh (h : e.program.Marked) (d : DeclId) (D : Decl) (item : ItemSummary) :
    (e.refresh d D item).program.Marked := Engine.refresh_rule (h.modifyDecl fun _ => rfl) fun _ h => markOutdated h d

lemma deleteDecl (h : e.program.Marked) (d : DeclId) : (e.deleteDecl d).program.Marked := by
  refine Engine.deleteDecl_rule h (fun D _ => h.ofDecls (detach_decls ..) (detach_nextDecl ..) (detach_report ..))
    (fun hw h => h.rewire hw) (fun _ x h => h.markOutdated x) fun p D h => ?_
  refine h.keep (outdated_forget ..) (p.forget_quiet d D).nextDecl fun x X hX => ⟨X, ?_, id⟩
  rw [decl?_forget] at hX
  split at hX
  · cases hX
  · exact hX

lemma move {c c' : Config} (h : c.program.Marked) (hm : Move c c') (hb : ¬ c.stage.Begins c'.stage)
    (ho : c'.stage.isOpening = true) (hs : c.Sole) : c'.program.Marked := by
  cases hm with
  | quiet hq => exact h.ofDecls hq.decls hq.nextDecl hq.report
  | retry => exact h.markOutdated _
  | enroll =>
    dsimp only
    split <;> exact h.register _ _ _
  | refresh => exact h.refresh _ _ _
  | again hi ht _ hu => exact absurd (hs.untaken hi ht) hu
  | drop => exact h.deleteDecl _
  | start => exact absurd ⟨rfl, _, rfl⟩ hb
  | @take e item => cases item <;> cases ho
  | collide | claim | retried | skip | openUnit | unread | read | blank | itemize | disregard | closeUnit =>
    exact h.ofDecls rfl rfl rfl
  | _ => cases ho

lemma outdates {c : Config} (h : c.program.Marked) (ha : ∀ d, c.stage ≠ .asking d .code) : c.Outdates where
  nodup := h.nodup
  bound hd := (h.marked hd).1
  meets hd D hD := .inl ((h.marked hd).2 D hD)
  asks hst := absurd hst (ha _)

end Program.Marked

lemma Move.opens (hm : Move c c') (ho : c.stage.isOpening = true) (ho' : c'.stage.isOpening = false)
    (ht : c'.stage ≠ .torn) : c'.stage = .working ∧ c'.engine = c.engine := by
  cases hm with
  | quiet | collide | claim =>
    rw [show _ = true from ho] at ho'
    cases ho'
  | tear => exact absurd rfl ht
  | opened => exact ⟨rfl, rfl⟩
  | _ => first | (cases ho; done) | cases ho'

structure Config.Distinguishes (N : String × String → Prop) (c : Config) : Prop where
  opening : c.stage.isOpening = true → c.Orderly N ∧ c.Sole ∧ c.engine.program.Marked
  outdates : c.stage.isOpening = false → c.Outdates

lemma Config.Distinguishes.move (h : c.Distinguishes N)
    (hN : ∀ x y, N x → N y → NameHash.qualified x = NameHash.qualified y → x = y) (hm : Move c c')
    (hb : ¬ c.stage.Begins c'.stage) (he : ¬ c.stage.Ends c'.stage) (ht : c'.stage ≠ .torn)
    (hr : c.program.Registry) (hg : c.program.Graph) (ha : c.Attentive) : c'.Distinguishes N where
  opening ho' := by
    obtain ⟨ho, hs, hmarked⟩ := h.opening (hm.isOpening hb ho')
    exact ⟨ho.move hm ho', hs.move ho hr hN hm ho', hmarked.move hm hb ho' hs⟩
  outdates ho' := by
    cases ho : c.stage.isOpening with
    | false => exact (h.outdates ho).work hm ho' he ht hg ha
    | true =>
      obtain ⟨hst, heng⟩ := hm.opens ho ho' ht
      refine Program.Marked.outdates ?_ fun d hd => ?_
      · rw [Config.program, heng]
        exact (h.opening ho).2.2
      · rw [hst] at hd
        cases hd

structure Config.Reporting (sole : Prop) (N : String × String → Prop) (c : Config) : Prop where
  graph : c.engine.program.Graph
  registry : c.engine.program.Registry
  attentive : c.Attentive
  deletions : c.engine.program.Deletions
  analyses : c.Analyses
  distinguishes : sole → c.Distinguishes N

lemma Config.Reporting.move {sole : Prop} (h : c.Reporting sole N)
    (hN : sole → ∀ x y, N x → N y → NameHash.qualified x = NameHash.qualified y → x = y) (hm : Move c c')
    (hb : ¬ c.stage.Begins c'.stage) (he : ¬ c.stage.Ends c'.stage) (ht : c'.stage ≠ .torn) : c'.Reporting sole N where
  graph := graph_move c c' hm h.graph
  registry := h.registry.move hm he
  attentive := attentive_move c c' hm ht h.graph h.attentive
  deletions := h.deletions.move hm hb he h.graph
  analyses := h.analyses.move hm hb he ht h.graph h.attentive
  distinguishes hs := (h.distinguishes hs).move (hN hs) hm hb he ht h.registry h.graph h.attentive

namespace Program

lemma reporting_begins {p : Program} (hg : p.Graph) (hr : p.Registry) :
    Config.Reporting (p.Unambiguous ∧ p.Unrepeated) (· ∈ p.names) p.starting where
  graph := hg.ofDecls rfl rfl
  registry := hr.retain (.ofDecls rfl rfl rfl rfl) rfl
  attentive := .ofIdle rfl rfl nofun nofun
  deletions := ⟨.nil, nofun⟩
  analyses := ⟨fun _ => rfl, .nil, nofun⟩
  distinguishes hs := by
    refine ⟨fun _ => ⟨hs.1.orderly hr, hs.2.sole, ?_⟩, nofun⟩
    exact ⟨.nil, nofun, fun hD => hg.bound hD⟩

/-- An update analyzes no declaration twice and deletes none twice. If no unit that changed declares a name twice, be it
that of a compile-time block, and names have different digests, it marks none twice either. -/
theorem update_reports_once {options : Options} {backend : Backend} {p p' : Program} {report : Report}
    (h : Reaches (fun _ => True) { options, backend } p) (hu : p.update = (.ok report, p')) :
    report.analyzed.Nodup ∧ report.deleted.Nodup ∧ (p.Unambiguous → p.Unrepeated → report.outdated.Nodup) := by
  have hbegin := reporting_begins ((Graph.empty options backend).reaches h) (.reaches h)
  have hN (hs : p.Unambiguous ∧ p.Unrepeated) x y (hx : x ∈ p.names) (hy : y ∈ p.names) := hs.1.hashes x hx y hy
  obtain ⟨e, he, -, rfl, -⟩ := update_intact (fun c c' hm hb hE ht hc => hc.move hN hm hb hE ht) hbegin hu
  refine ⟨he.analyses.nodup, he.deletions.nodup, fun ha hr => ?_⟩
  exact ((he.distinguishes ⟨ha, hr⟩).outdates rfl).nodup

theorem update_reports_once_diamond :
    let first := "const a = 1;\nconst b = a;\nconst c = a;\ncomptime \x7b _ = b + c; \x7d"
    let second := "const a = 2;\nconst b = a;\nconst c = a;\ncomptime \x7b _ = b + c; \x7d"
    let p := ((Program.act {} (.edit (.addSource "a" first))).act .update).act (.edit (.setSource 0 second))
    ∃ report p', p.update = (.ok report, p') ∧ report.outdated.length = 4 ∧ report.analyzed.Nodup ∧
      report.deleted.Nodup ∧ report.outdated.Nodup := by
  intro first second p
  have hr₁ : Reaches (fun _ => True) {} (Program.act {} (.edit (.addSource "a" first))) := Reaches.refl.act trivial
  have hr : Reaches (fun _ => True) {} p := (hr₁.act trivial).act trivial
  have hd : (p.update.1.toOption.any (·.outdated.length == 4)) = true ∧ p.Unambiguous ∧ p.Unrepeated := by
    decide +kernel
  obtain ⟨report, h, hlen⟩ := exists_report_of hd.1
  obtain ⟨hanalyzed, hdeleted, houtdated⟩ := update_reports_once hr h
  exact ⟨report, _, h, beq_iff_eq.1 hlen, hanalyzed, hdeleted, houtdated hd.2.1 hd.2.2⟩

/-- A declaration that two items meet is marked as changed, then fails, and is marked again as what it used is deleted.
This takes two names with one digest, or a compile-time block that is declared twice. -/
theorem update_marks_twice :
    (let first := "const declared_name__hnlbeehkiceollifibcnipahhonchapi = b;\nconst b = 1;\n" ++
        "comptime \x7b _ = declared_name__hnlbeehkiceollifibcnipahhonchapi; \x7d\n"
      let second := "const declared_name__hnlbeehkiceollifibcnipahhonchapi = 2;\n" ++
        "const declared_name__bmcdoeckodnmblnfmknejjfmdfclggkd = 3;\ncomptime \x7b _ = 0; \x7d\n"
      let p := Program.edit {} (.addSource "a" first)
      let p' := p.update.2.edit (.setSource 0 second)
      p.update.1.isOk = true ∧ p'.Unrepeated ∧ p'.update.1.toOption.map (·.outdated) = some [0, 2, 0]) ∧
    (let used : Untyped.Var := {
        code := ⟨#[.int 1], #[]⟩, ty := none, init := some ⟨[0], 0⟩, isMutable := false, isExternal := false
        isThreadLocal := false, keyword := {} }
      let p := Program.edit {} (.addLowered "a" [⟨"c", false, ⟨0, 1⟩, .comptime ⟨⟨#[.declVal "x"], #[]⟩, [0]⟩⟩,
        ⟨"x", false, ⟨1, 2⟩, .var used⟩])
      let p' := p.update.2.edit (.setLowered 0 [⟨"c", false, ⟨0, 1⟩, .comptime ⟨{}, []⟩⟩,
        ⟨"c", false, ⟨1, 2⟩, .comptime ⟨{}, []⟩⟩])
      p.update.1.isOk = true ∧ p'.Unambiguous ∧ p'.update.1.toOption.map (·.outdated) = some [0, 0]) := by
  decide +kernel

end Program

end Frontend
