import Frontend.Proofs.Records

/-! Names that are declared twice. A unit that is reconciled has the second item of a name reported with the declaration
that the first one took. The report can be missing afterwards for three reasons only: the declaration had another
diagnostic already, something that it used to use was deleted meanwhile, or it was deleted itself. -/

namespace Frontend

/-! Items and declarations while units are reconciled. -/

def Stage.untaken : Stage → List DeclId
  | .reconciling _ untaken _ _ => untaken
  | _ => []

def Stage.todo : Stage → List FileId
  | .retrying todo | .opening todo | .reconciling _ _ _ todo => todo
  | _ => []

variable {c c' : Config} {p : Program} {key : NameHash}

lemma Move.todo (hm : Move c c') (hb : ¬ c.stage.Begins c'.stage) : c'.stage.todo ⊆ c.stage.todo := by
  cases hm with
  | start => exact absurd ⟨rfl, _, rfl⟩ hb
  | skip | openUnit => exact List.subset_cons_self ..
  | @take _ item => cases item <;> exact nofun
  | _ => first | exact fun _ h => h | exact nofun

lemma Move.untaken (hm : Move c c') {d : DeclId} (h : d ∈ c'.stage.untaken) :
    d ∈ c.stage.untaken ∨
      ∃ file u, file ∈ c.stage.todo ∧ c.program.units.get? file = some u ∧ d ∈ u.decls := by
  cases hm with
  | openUnit hu => exact .inr ⟨_, _, List.mem_cons_self .., hu, h⟩
  | refresh => exact .inl (List.mem_of_mem_filter h)
  | drop => exact .inl (List.mem_cons_of_mem _ h)
  | @take _ item => cases item <;> cases h
  | _ => first | exact .inl h | cases h

lemma Move.retrying (hm : Move c c') (hb : ¬ c.stage.Begins c'.stage) {todo : List FileId}
    (h : c'.stage = .retrying todo) : c.stage = .retrying todo := by
  cases hm with
  | start => exact absurd ⟨rfl, _, rfl⟩ hb
  | @take _ item => cases item <;> cases h
  | _ => first | exact h | cases h

lemma Move.mem_depsOf (hm : Move c c') (ho : c'.stage.isOpening = true) {d x : DeclId}
    (h : x ∈ c'.program.depsOf d) : x ∈ c.program.depsOf d := by
  obtain ⟨D', hD', hx⟩ := Program.mem_depsOf.1 h
  obtain ⟨D, _, hD, -, hturn⟩ | ⟨_, _, _, -, -, -, -, -, rfl⟩ := hm.was hD'
  · obtain hx | ⟨hst, -⟩ := hturn.deps hx
    · exact Program.mem_depsOf.2 ⟨D, hD, hx⟩
    · have ho := hm.isOpening (fun hb => nomatch hst.symm.trans hb.1) ho
      rw [hst] at ho
      cases ho
  · cases hx

lemma Program.Follows.table {p' : Program} (h : p.Follows p') (hr : p.Registry) (hr' : p'.Registry) {d : DeclId}
    (ht : p'.declTable.get? key = some d) : p.declTable.get? key = some d := by
  obtain ⟨D', hD', rfl⟩ := hr'.named ht
  obtain ⟨D, hD, his⟩ := h d D' hD'
  rw [his.nameHash]
  exact hr.found hD

/-- All that is recorded for the declaration and all that it uses is from before the update, when it stood under the
name already. What is recorded is forgotten if the declaration is marked. -/
structure Program.Aged (p : Program) (key : NameHash) (q : Program) (d : DeclId) : Prop where
  record {diagnostic} : q.failedDecls.get? d = some diagnostic →
    p.declTable.get? key = some d ∧ p.failedDecls.get? d = some diagnostic ∧ d ∉ q.report.outdated
  uses {x} : x ∈ q.depsOf d → p.declTable.get? key = some d ∧ x ∈ p.depsOf d

lemma Program.Aged.same {q q' : Program} {d : DeclId} (h : p.Aged key q d) (hd : q'.decls = q.decls)
    (hf : q'.failedDecls = q.failedDecls) (hr : q'.report = q.report) : p.Aged key q' d := by
  refine ⟨fun hd => ?_, fun hx => h.uses ?_⟩
  · rw [hr]
    exact h.record (hf ▸ hd)
  · rwa [depsOf, decl?, hd] at hx

lemma Move.unmarked (hm : Move c c') {d : DeclId} {diagnostic : Diagnostic} (h : c'.program.record? d = some diagnostic)
    (ho : d ∉ c.program.report.outdated) : d ∉ c'.program.report.outdated := by
  intro hd
  obtain hd | hn := hm.outdated hd
  · exact ho hd
  · cases hn.symm.trans h

lemma Program.Aged.move {d : DeclId}
    (h : p.Aged key c.program d) (hm : Move c c') (ho : c.stage.isOpening = true)
    (ho' : c'.stage.isOpening = true)
    (hne : ∀ file untaken item left todo ns, c.stage = .reconciling file untaken (some (item :: left)) todo →
      c.program.Declares file ns item → c.program.declTable.get? (ns.child item.name) = some d →
      d ∈ untaken) : p.Aged key c'.program d where
  record {diagnostic} hd' := by
    obtain hd | ⟨-, hst'⟩ | ⟨-, -, -, ⟨about, hst⟩ | ⟨file, untaken, item, left, todo, ns, hst, hi, ht, hu⟩⟩ :=
      hm.blames hd'
    · obtain ⟨ht, hrecord, ho⟩ := h.record hd
      exact ⟨ht, hrecord, hm.unmarked hd' ho⟩
    · cases hx : c'.stage <;> rw [hx] at ho' hst' <;> first | (cases ho'; done) | cases hst'
    · rw [hst] at ho
      cases ho
    · exact absurd (hne file untaken item left todo ns hst hi ht) hu
  uses hx := h.uses (hm.mem_depsOf ho' hx)

lemma Program.Aged.register {q : Program} (hr : q.Recorded) (file : FileId) (ns : NameHash) (item : ItemSummary) :
    p.Aged key (q.register file ns item) q.nextDecl where
  record {diagnostic} hd := absurd (hr _ diagnostic hd) (Nat.lt_irrefl _)
  uses hx := by
    obtain ⟨D, hD, hx⟩ := mem_depsOf.1 hx
    have hnew : (q.register file ns item).decl? q.nextDecl = some _ := (Dict.get?_insert ..).trans (if_pos rfl)
    cases hnew.symm.trans hD
    cases hx

/-- The declaration has failed for a repeated item of the name, unless it had failed before, and is left alone. -/
structure Config.Told (p : Program) (file : FileId) (name : String) (key : NameHash) (c : Config) (d : DeclId) :
    Prop where
  fails : ∃ diagnostic, c.Fails True d diagnostic ∧ ((∃ span, diagnostic = ⟨file, span, .redefinition name⟩) ∨
    p.declTable.get? key = some d ∧ p.failedDecls.get? d = some diagnostic ∧ d ∉ c.engine.program.report.outdated)
  place : ∃ D, c.engine.program.decl? d = some D ∧ D.file = file ∧ D.nameHash = key
  uses {x} : c.stage.isOpening = true → x ∈ c.engine.program.depsOf d → p.declTable.get? key = some d ∧ x ∈ p.depsOf d
  begun (todo) : c.stage ≠ .retrying todo
  untaken : d ∉ c.stage.untaken
  todo : file ∉ c.stage.todo

inductive Config.Telling (p : Program) (file : FileId) (name : String) (key : NameHash) (c : Config) : Prop
  | waits (ho : c.stage.isOpening = true) (hf : file ∈ c.stage.files)
      (hst : ∀ untaken left todo, c.stage ≠ .reconciling file untaken (some left) todo)
      (h : ∀ d, c.engine.program.declTable.get? key = some d → p.Aged key c.engine.program d)
  | first {untaken left todo} (hst : c.stage = .reconciling file untaken (some left) todo)
      (hk : 1 < (left.map (·.name)).count name) (hu : ∀ d ∈ untaken, d < c.engine.program.nextDecl)
      (h : ∀ d, c.engine.program.declTable.get? key = some d → d ∈ untaken ∧ p.Aged key c.engine.program d)
  | second {untaken left todo d} (hst : c.stage = .reconciling file untaken (some left) todo)
      (hk : 0 < (left.map (·.name)).count name) (ht : c.engine.program.declTable.get? key = some d) (hd : d ∉ untaken)
      (h : p.Aged key c.engine.program d)
  | told {d} (h : c.Told p file name key d)
  | lost {d x} (hd : p.declTable.get? key = some d) (hx : x ∈ p.depsOf d) (h : x ∈ c.engine.program.report.deleted)
  | gone (hst : c.stage = .draining) (h : c.engine.program.declTable.get? key = none)

structure Config.Tells (p : Program) (file : FileId) (name : String) (key : NameHash) (c : Config) : Prop where
  graph : c.engine.program.Graph
  registry : c.engine.program.Registry
  attentive : c.Attentive
  recorded : c.engine.program.Recorded
  orderly : c.stage.isOpening = true → c.Orderly (· ∈ p.names)
  unit : c.stage.isOpening = true → ∃ u, c.engine.program.units.get? file = some u ∧
    u.namespaceHash.child name = key ∧ 1 < ((u.offers file).map (·.name)).count name
  telling : c.Telling p file name key

lemma Move.follows_or_enrolls (hm : Move c c') (ho : c.stage.isOpening = true) :
    c.program.Follows c'.program ∨
      ∃ file untaken item left todo ns, c.stage = .reconciling file untaken (some (item :: left)) todo ∧
        c.program.Declares file ns item ∧ c.program.declTable.get? (ns.child item.name) = none ∧
        c'.program = c.program.register file ns item := by
  have hf := hm.follows
  cases hm with
  | quiet hq => exact .inl (hf hq.nextDecl)
  | retry => exact .inl (hf (Engine.Marks.markOutdated ..).nextDecl)
  | enroll hi ht =>
    refine .inr ⟨_, _, _, _, _, _, rfl, hi, ht, ?_⟩
    dsimp only
    split <;> rfl
  | refresh => exact .inl (hf (Engine.refresh_nextDecl ..))
  | again => exact .inl (hf (Program.fail_beside ..).nextDecl)
  | drop => exact .inl (hf (Engine.deleteDecl_nextDecl ..))
  | _ => first | (cases ho; done) | exact .inl (hf rfl)

lemma Move.follows_draining (hm : Move c c') (hst : c'.stage = .draining) :
    c.program.Follows c'.program := by
  have hf := hm.follows
  cases hm with
  | quiet hq => exact hf hq.nextDecl
  | collide | claim | worked => exact hf rfl
  | drain => exact hf (Engine.drainStep_nextDecl ..)
  | @take _ item => cases item <;> cases hst
  | _ => cases hst

lemma Move.draining (hm : Move c c') (he : ¬ c.stage.Ends c'.stage) (ht : c'.stage ≠ .torn)
    (hst : c.stage = .draining) : c'.stage = .draining := by
  cases hm with
  | quiet | collide | claim => exact hst
  | drain => rfl
  | drained => exact absurd ⟨rfl, rfl⟩ he
  | tear => exact absurd rfl ht
  | _ => cases hst

lemma Move.identity (hm : Move c c') (hg : c.program.Graph) {d : DeclId} {D D' : Decl}
    (hD : c.program.decl? d = some D) (hD' : c'.program.decl? d = some D') : D.Is D' := by
  obtain ⟨D₀, _, hD₀, -, hturn⟩ | ⟨-, -, -, rfl, -⟩ := hm.was hD'
  · cases hD.symm.trans hD₀
    exact hturn.is
  · exact absurd (hg.bound hD) (Nat.lt_irrefl _)

namespace Config
variable {p : Program} {file : FileId} {name : String} {key : NameHash} {c c' : Config} {d : DeclId}

lemma Told.move (h : c.Told p file name key d) (hm : Move c c') (hb : ¬ c.stage.Begins c'.stage)
    (ht : c'.stage ≠ .torn) (hg : c.program.Graph) (hr : c.program.Registry) (hr' : c'.program.Registry) :
    c'.Telling p file name key := by
  obtain ⟨diagnostic, hfails, hcause⟩ := h.fails
  obtain ⟨D, hD, hfile, hkey⟩ := h.place
  obtain hfails' | hloses := hfails.move hm hb ht hg
  · obtain ⟨D', hD', -⟩ := hfails'.failed
    have his := hm.identity hg hD hD'
    refine .told ⟨⟨diagnostic, hfails', hcause.imp_right fun h => ⟨h.1, h.2.1, hm.unmarked hfails'.record h.2.2⟩⟩,
      ⟨D', hD', his.file.trans hfile, his.nameHash.trans hkey⟩, fun ho hx => ?_,
      fun todo hst => h.begun todo (hm.retrying hb hst), fun hd => ?_, fun hf => h.todo (hm.todo hb hf)⟩
    · exact h.uses (hm.isOpening hb ho) (hm.mem_depsOf ho hx)
    · obtain hd | ⟨f, u, hf, hu, hd⟩ := hm.untaken hd
      · exact h.untaken hd
      · -- Another unit is opened.
        obtain ⟨D₀, hD₀, hf₀⟩ := hr.listed (Dict.mem_of_get? hu) hd
        cases hD.symm.trans hD₀
        exact h.todo (hfile ▸ hf₀ ▸ hf)
  · cases hloses with
    | stale hf => exact absurd trivial hf
    | retried hst => exact absurd hst (h.begun _)
    | taken hst hd =>
      refine absurd ?_ h.untaken
      rw [hst]
      exact hd
    | orphaned ho hx hdel =>
      obtain ⟨ht, hx⟩ := h.uses ho hx
      exact .lost ht hx hdel
    | drained hst hn =>
      refine .gone hst ?_
      cases htable : c'.program.declTable.get? key with
      | none => rfl
      | some x =>
        -- It would have to be the one that is gone.
        have hx := (hm.follows_draining hst).table hr hr' htable
        rw [← hkey, hr.found hD] at hx
        cases hx
        obtain ⟨D', hD', -⟩ := hr'.named htable
        cases hn.symm.trans hD'

variable {ns : NameHash} {untaken : List DeclId} {item : ItemSummary} {left : List ItemSummary} {todo : List FileId}

section

variable (h : c.Tells p file name key)
include h

lemma Tells.same_item (ha : p.Unambiguous) {f : FileId}
    (hst : c.stage = .reconciling f untaken (some (item :: left)) todo) (hi : c.program.Declares f ns item)
    (hf : file ∈ c.stage.files) (hk : ns.child item.name = key) : f = file ∧ item.name = name := by
  have ho : c.stage.isOpening = true := by
    rw [hst]
    rfl
  have hord := h.orderly ho
  obtain ⟨u, hu, hkey, hcount⟩ := h.unit ho
  obtain ⟨v, hv, rfl, -⟩ := hi
  obtain ⟨i, hi, hname⟩ := List.mem_map.1 (List.count_pos_iff.1 (Nat.lt_of_succ_lt hcount))
  have hfiles : f ∈ c.stage.files := by
    rw [hst]
    exact List.mem_cons_self ..
  have hN x y (hx : x ∈ p.names) (hy : y ∈ p.names) := ha.hashes x hx y hy
  obtain ⟨rfl, heq⟩ := hord.same_item h.registry hN hfiles hf hv hu (hord.left hst hv List.mem_cons_self) hi
    (by rw [hk, hname, hkey])
  exact ⟨rfl, heq.trans hname⟩

lemma Tells.other (hm : Move c c') (ho : c.stage.isOpening = true) (ho' : c'.stage.isOpening = true)
    (hr' : c'.program.Registry)
    (hne : ∀ f untaken item left todo ns, c.stage = .reconciling f untaken (some (item :: left)) todo →
      c.program.Declares f ns item → ns.child item.name ≠ key)
    (ht : c'.program.declTable.get? key = some d) : c.program.declTable.get? key = some d ∧
      (p.Aged key c.program d → p.Aged key c'.program d) := by
  have htable : c.program.declTable.get? key = some d := by
    obtain hf | ⟨f, untaken, item, left, todo, ns, hst, hi, -, hp⟩ := hm.follows_or_enrolls ho
    · exact hf.table h.registry hr' ht
    · rw [hp] at ht
      change (c.program.declTable.insert (ns.child item.name) _).get? key = some d at ht
      rwa [Dict.get?_insert, if_neg (hne f untaken item left todo ns hst hi)] at ht
  refine ⟨htable, fun haged => haged.move hm ho ho' fun f untaken item left todo ns hst hi hd => ?_⟩
  exact absurd (h.registry.same_name hd htable) (hne f untaken item left todo ns hst hi)

lemma Tells.waits_move (ha : p.Unambiguous) (hm : Move c c') (ht : c'.stage ≠ .torn)
    (hr' : c'.program.Registry) (ho : c.stage.isOpening = true) (hf : file ∈ c.stage.files)
    (hst : ∀ untaken left todo, c.stage ≠ .reconciling file untaken (some left) todo)
    (hA : ∀ d, c.program.declTable.get? key = some d → p.Aged key c.program d) :
    c'.Telling p file name key := by
  have waits (ho' : c'.stage.isOpening = true) (hf' : file ∈ c'.stage.files)
      (hst' : ∀ untaken left todo, c'.stage ≠ .reconciling file untaken (some left) todo) :
      c'.Telling p file name key := by
    refine .waits ho' hf' hst' fun d hd => ?_
    have hne f untaken item left todo ns (hst₀ : c.stage = .reconciling f untaken (some (item :: left)) todo)
        (hi : c.program.Declares f ns item) : ns.child item.name ≠ key := by
      intro hk
      obtain ⟨rfl, -⟩ := h.same_item ha hst₀ hi hf hk
      exact hst _ _ _ hst₀
    obtain ⟨ht, haged⟩ := h.other hm ho ho' hr' hne hd
    exact haged (hA d ht)
  obtain ⟨u, hu, hkey, hcount⟩ := h.unit ho
  -- The unit has items, and so its turn does not come to nothing.
  have hoffers : u.offers file ≠ [] := by
    intro hn
    rw [hn] at hcount
    exact absurd hcount (Nat.not_lt_zero _)
  cases hm with
  | quiet | collide | claim => exact waits ho hf hst
  | tear => exact absurd rfl ht
  | start => cases ho
  | retry | retried | openUnit | read => exact waits rfl hf nofun
  | skip hn =>
    obtain rfl | hf := List.mem_cons.1 hf
    · cases hn.symm.trans hu
    · exact waits rfl hf nofun
  | unread hv hr failure hload =>
    obtain rfl | hf := List.mem_cons.1 hf
    · cases hv.symm.trans hu
      refine absurd ?_ hoffers
      unfold SourceUnit.offers
      rw [hr, hload]
      rfl
    · exact waits rfl hf nofun
  | blank hv hl hi =>
    obtain rfl | hf := List.mem_cons.1 hf
    · cases hv.symm.trans hu
      exact absurd (SourceUnit.offers_eq_nil hl hi) hoffers
    · exact waits rfl hf nofun
  | @itemize f untaken todo e v items hv hl hi =>
    by_cases hfile : f = file
    · subst hfile
      cases hv.symm.trans hu
      have hitems := SourceUnit.offers_eq hl hi
      have hord := h.orderly ho
      have huntaken : untaken = u.decls.elems := hord.untaken rfl hu
      have hN x y (hx : x ∈ p.names) (hy : y ∈ p.names) := ha.hashes x hx y hy
      obtain ⟨i, hmem, hname⟩ := List.mem_map.1 (List.count_pos_iff.1 (Nat.lt_of_succ_lt hcount))
      refine .first rfl (hitems ▸ hcount) (fun d hd => ?_) fun d hd => ⟨?_, hA d hd⟩
      · rw [huntaken] at hd
        obtain ⟨D, hD, -⟩ := h.registry.listed (Dict.mem_of_get? hu) hd
        exact h.graph.bound hD
      · rw [huntaken]
        exact (hord.own h.registry hN hf hu hmem (by rwa [hname, hkey])).1
    · refine waits rfl hf fun _ _ _ hst' => ?_
      cases hst'
      exact hfile rfl
  | enroll | refresh | again | disregard | drop =>
    refine waits rfl hf fun _ _ _ hst' => ?_
    cases hst'
    exact hst _ _ _ rfl
  | closeUnit =>
    obtain rfl | hf := List.mem_cons.1 hf
    · exact absurd rfl (hst _ _ _)
    · exact waits rfl hf nofun
  | opened => cases hf
  | _ => cases ho

lemma Tells.digest (ha : p.Unambiguous) (hst : c.stage = .reconciling file untaken (some (item :: left)) todo)
    (hi : c.program.Declares file ns item) : ns.child item.name = key ↔ item.name = name := by
  have hf : file ∈ c.stage.files := by
    rw [hst]
    exact List.mem_cons_self ..
  refine ⟨fun hk => (h.same_item ha hst hi hf hk).2, ?_⟩
  rintro rfl
  obtain ⟨u, hu, hkey, -⟩ := h.unit (by rw [hst]; rfl)
  obtain ⟨v, hv, rfl, -⟩ := hi
  cases hu.symm.trans hv
  exact hkey

lemma Tells.passed (ha : p.Unambiguous) (hm : Move c c') (hr' : c'.program.Registry) {untaken' : List DeclId}
    (hst : c.stage = .reconciling file untaken (some (item :: left)) todo)
    (hst' : c'.stage = .reconciling file untaken' (some left) todo) (hn : item.name ≠ name)
    (ht : c'.program.declTable.get? key = some d) : c.program.declTable.get? key = some d ∧
      (p.Aged key c.program d → p.Aged key c'.program d) := by
  refine h.other hm (by rw [hst]; rfl) (by rw [hst']; rfl) hr' (fun f untaken item left todo ns hst₀ hi hk => ?_) ht
  cases hst.symm.trans hst₀
  exact hn ((h.digest ha hst hi).1 hk)

lemma Tells.first_move (ha : p.Unambiguous) (hm : Move c c') (ht : c'.stage ≠ .torn)
    (hr' : c'.program.Registry) (hst : c.stage = .reconciling file untaken (some left) todo)
    (hk : 1 < (left.map (·.name)).count name) (hu : ∀ d ∈ untaken, d < c.program.nextDecl)
    (hA : ∀ d, c.program.declTable.get? key = some d → d ∈ untaken ∧ p.Aged key c.program d) :
    c'.Telling p file name key := by
  have hle := hm.nextDecl_le
  have passed {untaken' : List DeclId} {item : ItemSummary} {left' : List ItemSummary} (hl : left = item :: left')
      (hn : item.name ≠ name) (hst' : c'.stage = .reconciling file untaken' (some left') todo)
      (hsub : untaken' ⊆ untaken)
      (hkeep : ∀ d ∈ untaken, c.program.declTable.get? key = some d → d ∈ untaken') :
      c'.Telling p file name key := by
    subst hl
    rw [List.map_cons, List.count_cons_of_ne hn] at hk
    refine .first hst' hk (fun d hd => Nat.lt_of_lt_of_le (hu d (hsub hd)) hle) fun d hd => ?_
    obtain ⟨ht, haged⟩ := h.passed ha hm hr' hst hst' hn hd
    exact ⟨hkeep d (hA d ht).1 ht, haged (hA d ht).2⟩
  have hm' := hm
  cases hm with
  | quiet hq =>
    refine .first hst hk (fun d hd => Nat.lt_of_lt_of_le (hu d hd) hle) fun d hd => ?_
    have hd : _ = some d := hq.declTable ▸ hd
    exact ⟨(hA d hd).1, (hA d hd).2.same hq.decls hq.failedDecls hq.report⟩
  | collide | claim => exact .first hst hk hu fun d hd => ⟨(hA d hd).1, (hA d hd).2.same rfl rfl rfl⟩
  | tear => exact absurd rfl ht
  | @enroll _ _ left _ e ns item hi htable =>
    cases hst
    by_cases hn : item.name = name
    · rw [List.map_cons, hn, List.count_cons_self] at hk
      have second (e' : Engine) (he : e'.program = e.program.register file ns item) :
          Telling p file name key ⟨.reconciling file untaken (some left) todo, [], none, e'⟩ := by
        refine .second (d := e.program.nextDecl) rfl (Nat.lt_of_succ_lt_succ hk) ?_ ?_ ?_
        · rw [he, ← (h.digest ha rfl hi).2 hn]
          exact (Dict.get?_insert ..).trans (if_pos rfl)
        · exact fun hd => absurd (hu _ hd) (Nat.lt_irrefl _)
        · rw [he]
          exact .register h.recorded file ns item
      dsimp only
      split <;> exact second _ rfl
    · exact passed rfl hn rfl (List.Subset.refl _) fun _ hd _ => hd
  | @refresh _ _ left _ e ns x X item hi htable hX hx =>
    cases hst
    by_cases hn : item.name = name
    · rw [List.map_cons, hn, List.count_cons_self] at hk
      rw [(h.digest ha rfl hi).2 hn] at htable
      refine .second (d := x) rfl (Nat.lt_of_succ_lt_succ hk) ?_ ?_ ?_
      · rwa [(Program.Retains.refresh ..).declTable]
      · exact fun hd => of_decide_eq_true (List.mem_filter.1 hd).2 rfl
      · refine (hA x htable).2.move hm' rfl rfl fun f untaken item left todo ns hst hi hd => ?_
        cases hst
        exact hx
    · refine passed rfl hn rfl List.filter_sublist.subset fun d hd hd' => List.mem_filter.2 ⟨hd, decide_eq_true ?_⟩
      rintro rfl
      exact hn ((h.digest ha rfl hi).1 (h.registry.same_name htable hd'))
  | again hi htable hX hx =>
    cases hst
    refine passed rfl (fun hn => hx ?_) rfl (List.Subset.refl _) fun _ hd _ => hd
    rw [(h.digest ha rfl hi).2 hn] at htable
    exact (hA _ htable).1
  | disregard hi htable hX =>
    obtain ⟨D, hD, -⟩ := h.registry.named htable
    cases hD.symm.trans hX
  | drop | closeUnit =>
    cases hst
    cases hk
  | _ => cases hst

end

lemma Tells.tell {e : Engine} {D : Decl}
    (h : Tells p file name key ⟨.reconciling file untaken (some (item :: left)) todo, [], none, e⟩) (ha : p.Unambiguous)
    (hi : e.program.Declares file ns item) (hn : item.name = name) (hD : e.program.decl? d = some D)
    (ht : e.program.declTable.get? key = some d) (hd : d ∉ untaken) (hA : p.Aged key e.program d)
    (hm : Move ⟨.reconciling file untaken (some (item :: left)) todo, [], none, e⟩
      ⟨.reconciling file untaken (some left) todo, [], none, e.repeatedItem file d item⟩) :
    Told p file name key ⟨.reconciling file untaken (some left) todo, [], none, e.repeatedItem file d item⟩ d := by
  have hord := h.orderly rfl
  obtain ⟨D', hD', hs, hgen⟩ := Engine.decl?_repeatedItem file item hD
  refine ⟨⟨_, ⟨⟨D', hD', hs, fun _ => hgen⟩, Engine.record_repeatedItem, ?_⟩, ?_⟩, ⟨D', hD', ?_⟩, fun _ hx => ?_, nofun,
    hd, ?_⟩
  · rintro ((hx | hx | hx | ⟨r, hx⟩) | hx)
    · cases hx
    · exact h.attentive.idle rfl hx
    all_goals cases hx
  · cases hr : e.program.failedDecls.get? d with
    | none => exact .inl ⟨item.src, hn ▸ rfl⟩
    | some diagnostic =>
      obtain ⟨ht, hrecord, ho⟩ := hA.record hr
      refine .inr ⟨ht, hrecord, @Move.unmarked _ _ hm _ diagnostic ?_ ho⟩
      exact Engine.record_repeatedItem.trans (by rw [hr]; rfl)
  · obtain ⟨D₁, hD₁, his⟩ := hm.follows rfl _ _ hD'
    obtain ⟨D₂, hD₂, hkey⟩ := h.registry.named ht
    cases hD₁.symm.trans hD₂
    refine ⟨?_, his.nameHash.trans hkey⟩
    have hN x y (hx : x ∈ p.names) (hy : y ∈ p.names) := ha.hashes x hx y hy
    rw [← (h.digest ha rfl hi).2 hn] at ht
    exact his.file.trans (hord.declared h.registry hN rfl hi ht hD₁).1
  · exact hA.uses (hm.mem_depsOf rfl hx)
  · exact (List.nodup_cons.1 hord.files).1

lemma Tells.second_move (h : c.Tells p file name key) (ha : p.Unambiguous) (hm : Move c c') (ht : c'.stage ≠ .torn)
    (hr' : c'.program.Registry) (hst : c.stage = .reconciling file untaken (some left) todo)
    (hk : 0 < (left.map (·.name)).count name) (htable : c.program.declTable.get? key = some d) (hd : d ∉ untaken)
    (hA : p.Aged key c.program d) : c'.Telling p file name key := by
  have passed {untaken' : List DeclId} {item : ItemSummary} {left' : List ItemSummary} (hl : left = item :: left')
      (hn : item.name ≠ name) (hst' : c'.stage = .reconciling file untaken' (some left') todo)
      (hsub : untaken' ⊆ untaken) (ht' : c'.program.declTable.get? key = some d) : c'.Telling p file name key := by
    subst hl
    rw [List.map_cons, List.count_cons_of_ne hn] at hk
    exact .second hst' hk ht' (fun hd' => hd (hsub hd')) ((h.passed ha hm hr' hst hst' hn ht').2 hA)
  have hm' := hm
  cases hm with
  | quiet hq => exact .second hst hk (hq.declTable.symm ▸ htable) hd (hA.same hq.decls hq.failedDecls hq.report)
  | collide | claim => exact .second hst hk htable hd (hA.same rfl rfl rfl)
  | tear => exact absurd rfl ht
  | @enroll _ _ left _ e ns item hi hnone =>
    cases hst
    have hkey : ns.child item.name ≠ key := by
      rintro rfl
      cases htable.symm.trans hnone
    refine passed rfl (fun hn => hkey ((h.digest ha rfl hi).2 hn)) rfl (List.Subset.refl _) ?_
    have htable' : (e.program.register file ns item).declTable.get? key = some d :=
      (Dict.get?_insert ..).trans ((if_neg hkey).trans htable)
    dsimp only
    split <;> exact htable'
  | @refresh _ _ left _ e ns x X item hi hx hX hu =>
    cases hst
    refine passed rfl (fun hn => ?_) rfl List.filter_sublist.subset ?_
    · rw [(h.digest ha rfl hi).2 hn] at hx
      cases hx.symm.trans htable
      exact hd hu
    · rwa [(Program.Retains.refresh ..).declTable]
  | @again _ _ left _ e ns x X item hi hx hX hu =>
    cases hst
    by_cases hn : item.name = name
    · rw [(h.digest ha rfl hi).2 hn] at hx
      cases hx.symm.trans htable
      exact .told (h.tell ha hi hn hX hx hd hA hm')
    · refine passed rfl hn rfl (List.Subset.refl _) ?_
      exact htable
  | disregard hi hx hX =>
    obtain ⟨D, hD, -⟩ := h.registry.named hx
    cases hD.symm.trans hX
  | drop | closeUnit =>
    cases hst
    cases hk
  | _ => cases hst

lemma Tells.move (h : c.Tells p file name key) (ha : p.Unambiguous) (hm : Move c c') (hb : ¬ c.stage.Begins c'.stage)
    (he : ¬ c.stage.Ends c'.stage) (ht : c'.stage ≠ .torn) : c'.Tells p file name key := by
  have hr' := h.registry.move hm he
  refine ⟨graph_move c c' hm h.graph, hr', attentive_move c c' hm ht h.graph h.attentive,
    h.recorded.move hm h.graph h.attentive, fun ho' => ?_, fun ho' => ?_, ?_⟩
  · exact (h.orderly (hm.isOpening hb ho')).move hm ho'
  · obtain ⟨u, hu, hkey, hcount⟩ := h.unit (hm.isOpening hb ho')
    obtain ⟨u', hu', hserves⟩ := (hm.serves he).forth hu
    exact ⟨u', hu', by rw [hserves.namespaceHash, hkey], by rwa [hserves.offers]⟩
  · cases h.telling with
    | waits ho hf hst hA => exact h.waits_move ha hm ht hr' ho hf hst hA
    | first hst hk hu hA => exact h.first_move ha hm ht hr' hst hk hu hA
    | second hst hk htable hd hA => exact h.second_move ha hm ht hr' hst hk htable hd hA
    | told h' => exact h'.move hm hb ht h.graph h.registry hr'
    | lost hd hx hdel => exact .lost hd hx ((hm.goes hb he).deleted hdel)
    | gone hst hn =>
      have hst' : c'.stage = .draining := hm.draining he ht hst
      refine .gone hst' ?_
      cases htable : c'.program.declTable.get? key with
      | none => rfl
      | some d => cases hn.symm.trans ((hm.follows_draining hst').table h.registry hr' htable)

end Config

end Frontend
