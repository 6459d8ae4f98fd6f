import Frontend.Proofs.Accord.Program
import Frontend.Proofs.Matching.Declaration

/-! Analyses of programs in accord. Whatever is asked of one declaration in both, the analyses do the same, and leave
the programs in accord. The first may be allowed fewer nested analyses; where it runs out of them, nothing is said. -/

namespace Frontend

open Analysis (Pointwise Site)

def UnitContent.lower (c : UnitContent) (scope : Scope) (name : String) (index : Nat) (src : Span) :
    Except (Span × Cause) Untyped.Decl :=
  match c with
  | .lowered ds _ =>
    match ds[index]? with
    | some d => .ok d
    | none => .error (src, .noSource)
  | .source _ loaded =>
    match loaded.bind (fun l => l.items[index]?) with
    | none => .error (src, .noSource)
    | some it =>
      match Untyped.ofItem it name scope with
      | .error e => .error (e.span, .lowering e.cause)
      | .ok d => .ok d

def UnitContent.number (c : UnitContent) (index next : Nat) : Nat × Nat :=
  match c with
  | .lowered _ first => (first + index, next)
  | .source .. => (next, next + 1)

inductive Accord.Lowers (A : Accord) : Except (Span × Cause) Untyped.Decl → Except (Span × Cause) Untyped.Decl → Prop
  | ok {d d'} (h : d.Like A.spans d') : Lowers A (.ok d) (.ok d')
  | error {s s'} (h : A.spans s s') (cause : Cause) : Lowers A (.error (s, cause)) (.error (s', cause))

structure Accord.Lawful (A : Accord) : Prop where
  blank : A.spans {} {}
  point {s s'} : A.spans s s' → A.spans (.point s.stop) (.point s'.stop)
  items {file c c'} : A.contents file c c' → Option.Rel (List.Forall₂ (ItemSummary.Accords A file)) c.items? c'.items?
  counts {file} {u u' : SourceUnit} : u.Accords A file u' → u.itemCount ≤ u'.itemCount
  numbers {file c c' name i i'} : A.numbered → A.contents file c c' → A.places file name i i' → c' = c ∧ i' = i
  lowers {file c c' name i i' src src'} : A.contents file c c' → A.places file name i i' → A.spans src src' →
    ∀ scope scope', A.Lowers (c.lower scope name i src) (c'.lower scope' name i' src')

variable {A : Accord}

structure Scope.Accords (d : DeclId) (s s' : Scope) : Prop where
  owner : s.owner? = some d
  owner' : s'.owner? = some d
  func : s'.func? = s.func?
  file : s'.fileOf = s.fileOf

namespace SourceUnit.Accords
variable {file : FileId} {u u' : SourceUnit}

lemma items? (hA : A.Lawful) (h : u.Accords A file u') :
    Option.Rel (List.Forall₂ (ItemSummary.Accords A file)) u.items? u'.items? := by
  unfold SourceUnit.items?
  rw [h.removed]
  split
  · exact .some .nil
  · exact hA.items h.content

end SourceUnit.Accords

lemma SourceUnit.scope_accords (u u' : SourceUnit) (file : FileId) (d : DeclId) :
    Scope.Accords d (.declaration (u.scope file) d) (.declaration (u'.scope file) d) := by
  refine ⟨rfl, rfl, ?_, rfl⟩
  unfold SourceUnit.scope
  split <;> split <;> rfl

lemma ItemSummary.Accords.find? {file : FileId} {is is' : List ItemSummary}
    (h : List.Forall₂ (ItemSummary.Accords A file) is is') (name : String) :
    Option.Rel (ItemSummary.Accords A file) (is.find? (·.name == name)) (is'.find? (·.name == name)) := by
  induction h with
  | nil => exact .none
  | cons hi _ ih =>
    rw [List.find?_cons, List.find?_cons, hi.name]
    split
    · exact .some hi
    · exact ih

lemma Program.Accords.potentialDecls_le (hA : A.Lawful) {p p' : Program} (h : p.Accords A p') :
    p.potentialDecls ≤ p'.potentialDecls := by
  have hu := h.units
  unfold potentialDecls
  rw [h.decls.size_eq]
  refine Nat.add_le_add_left ?_ _
  unfold Dict.values
  unfold Dict.Rel at hu
  generalize p.units.entries = xs at hu
  generalize p'.units.entries = ys at hu
  induction hu with
  | nil => exact Nat.le_refl _
  | cons hxy _ ih =>
    simp only [List.map_cons, List.sum_cons]
    exact Nat.add_le_add (hA.counts hxy.2) ih

lemma Program.Accords.resolve (hA : A.Lawful) {p p' : Program} (h : p.Accords A p') (file : FileId) (name : String) :
    (p'.resolve file name).1 = (p.resolve file name).1 ∧
      (p.resolve file name).2.Accords A (p'.resolve file name).2 := by
  unfold Program.resolve
  refine (h.unit? file).elim ⟨rfl, h⟩ fun u u' hu => ?_
  dsimp only
  rw [hu.namespaceHash, h.declTable]
  split
  · exact ⟨rfl, h⟩
  · have hi : Option.Rel (ItemSummary.Accords A file) ((u.items?.getD []).find? (·.name == name))
        ((u'.items?.getD []).find? (·.name == name)) := by
      refine ItemSummary.Accords.find? ?_ name
      exact Pointwise.getDRel (S := List.Forall₂ (ItemSummary.Accords A file)) .nil (fun _ _ h => h) (hu.items? hA)
    generalize (u.items?.getD []).find? (·.name == name) = x at hi
    generalize (u'.items?.getD []).find? (·.name == name) = y at hi
    cases hi with
    | none => exact ⟨rfl, h⟩
    | some hi => exact ⟨congrArg some h.nextDecl, h.register file _ hi⟩

namespace EngineM

def InAccord (A : Accord) {α β : Type} (P : α → β → Prop) (m : EngineM α) (m' : EngineM β) : Prop :=
  ∀ e e', e.Accords A e' → Alike P (Engine.Accords A) (fun _ => Engine.Accords A) (· = .exhausted) (m e) (m' e')

variable {α β γ δ : Type} {P : α → β → Prop} {Q : γ → δ → Prop} {m : EngineM α} {m' : EngineM β}

namespace InAccord

lemma pure {a : α} {b : β} (h : P a b) : InAccord A P (Pure.pure a) (Pure.pure b) := fun _ _ he => .ok h he

lemma throw (i : Interrupt) : InAccord A P (MonadExcept.throw i) (MonadExcept.throw i) := fun _ _ he => .error he

lemma bind {f : α → EngineM γ} {f' : β → EngineM δ} (hm : InAccord A P m m')
    (hf : ∀ a b, P a b → InAccord A Q (f a) (f' b)) : InAccord A Q (m >>= f) (m' >>= f') := by
  intro e e' he
  have h := hm e e' he
  show Alike Q _ _ _ (EStateM.bind m f e) (EStateM.bind m' f' e')
  unfold EStateM.bind
  generalize m e = r at h
  generalize m' e' = r' at h
  cases h with
  | ok ha hs => exact hf _ _ ha _ _ hs
  | error h => exact .error h
  | lost h => exact .lost h

lemma bindEq {m m' : EngineM α} {f : α → EngineM γ} {f' : α → EngineM δ} (hm : InAccord A Eq m m')
    (hf : ∀ a, InAccord A Q (f a) (f' a)) : InAccord A Q (m >>= f) (m' >>= f') :=
  hm.bind fun a _ h => h ▸ hf a

lemma program {f : Program → EngineM γ} {f' : Program → EngineM δ}
    (h : ∀ p p', p.Accords A p' → InAccord A Q (f p) (f' p')) :
    InAccord A Q (EngineM.program >>= f) (EngineM.program >>= f') :=
  fun e e' he => h _ _ he.program e e' he

lemma modify {f g : Program → Program} (h : ∀ p p', p.Accords A p' → (f p).Accords A (g p')) :
    InAccord A Eq (modifyProgram f) (modifyProgram g) :=
  fun _ _ he => .ok rfl (he.modifyProgram (h _ _))

lemma push (item : WorkItem) : InAccord A Eq (EngineM.push item) (EngineM.push item) :=
  fun _ _ he => .ok rfl (he.push item)

lemma ite {c : Prop} [Decidable c] {n : EngineM α} {n' : EngineM β} (ht : c → InAccord A P m m')
    (hf : ¬ c → InAccord A P n n') : InAccord A P (if c then m else n) (if c then m' else n') := by
  split
  · exact ht ‹c›
  · exact hf ‹¬ c›

lemma fail {d : DeclId} {s s' : Scope} (hs : Scope.Accords d s s') {span span' : Span} (h : A.spans span span')
    (cause : Cause) : InAccord A P (EngineM.fail s span cause) (EngineM.fail s' span' cause) := by
  intro e e' he
  refine .error (he.modifyProgram fun hp => hp.fail ?_ (hs.owner'.trans hs.owner.symm) hs.func hs.file h cause)
  rw [hs.owner]
  rfl

lemma guard {d : DeclId} {s s' : Scope} (hs : Scope.Accords d s s') {span span' : Span} (h : A.spans span span')
    {c : Prop} [Decidable c] {cause : Cause} {k : Unit → EngineM α} {k' : Unit → EngineM β}
    (hk : InAccord A P (k ()) (k' ())) :
    InAccord A P (if c then EngineM.fail s span cause >>= k else k ())
      (if c then EngineM.fail s' span' cause >>= k' else k' ()) :=
  .ite (fun _ => .bindEq (.fail hs h cause) fun _ => hk) fun _ => hk

end InAccord

def Agree (A : Accord) (ensure ensure' : DeclId → EngineM Unit) : Prop := ∀ d, InAccord A Eq (ensure d) (ensure' d)

variable {ensure ensure' : DeclId → EngineM Unit} {site site' : Site} {d : DeclId} {span span' : Span} {s s' : Scope}

/-! Mentions and exports. -/

lemma require_inAccord (hE : Agree A ensure ensure') (hs : Scope.Accords site.owner site.scope site'.scope)
    (ho : site'.owner = site.owner) (d : DeclId) : InAccord A Eq (require ensure site d) (require ensure' site' d) := by
  intro e e' he
  have h := hE d e e' he
  unfold require
  generalize ensure d e = r at h
  generalize ensure' d e' = r' at h
  cases h with
  | ok ha hs => exact .ok ha hs
  | @error i _ _ h =>
    cases i with
    | analysisFail => exact .error (h.modifyProgram fun hp => hp.dependencyFailed ho hs.func)
    | outOfMemory => exact .error h
    | exhausted => exact .error h
  | lost h =>
    subst h
    exact .lost rfl

lemma mention_inAccord (hA : A.Lawful) (hE : Agree A ensure ensure')
    (hs : Scope.Accords site.owner site.scope site'.scope) (ho : site'.owner = site.owner) (name : String)
    (h : A.spans span span') : InAccord A Eq (mention ensure site name span) (mention ensure' site' name span') := by
  unfold mention
  refine .program fun p p' hp => ?_
  have hr := hp.resolve hA site.scope.fileOf name
  rw [hs.file]
  generalize p.resolve site.scope.fileOf name = x at hr
  generalize p'.resolve site.scope.fileOf name = y at hr
  obtain ⟨found, q⟩ := x
  obtain ⟨found', q'⟩ := y
  obtain ⟨hf, hq⟩ := hr
  dsimp only at hf hq ⊢
  subst hf
  refine .bindEq (.modify fun _ _ _ => hq) fun _ => ?_
  cases found' with
  | none => exact .fail hs h _
  | some d =>
    refine .bindEq (.modify fun _ _ hp => ho ▸ hp.addEdge _ d) fun _ => .program fun p p' hp => ?_
    rw [hp.any_eq d fun _ _ hD => hD.isInProgress_eq]
    exact .guard hs h (.bindEq (require_inAccord hE hs ho d) fun _ => .pure rfl)

lemma materialize_inAccord (hs : Scope.Accords d s s') (h : A.spans span span') (x : ExportId) (exported : DeclId) :
    InAccord A Eq (materialize s span x exported) (materialize s' span' x exported) := by
  unfold materialize
  refine .program fun p p' hp => ?_
  refine (hp.decl? exported).elim (.modify fun _ _ hp => hp.setExportStatus x _) fun D D' hD => ?_
  have hc := hp.backend.call .updateExports hD.toAccords (.updateExports hD.toAccords (hp.exportsOf exported))
  dsimp only [Backend.updateExports] at hc ⊢
  rw [hc.1]
  refine .bindEq (.modify fun _ _ hq => hq.withBackend hc.2) fun _ => ?_
  rw [pure_bind, pure_bind]
  split
  · exact .modify fun _ _ hp => hp.setExportStatus x _
  · exact .throw _
  · exact .modify fun _ _ hp => (hp.setExportStatus x _).failExport x ⟨hs.file, h, rfl⟩
  · exact .modify fun _ _ hp => (hp.setExportStatus x _).failExport x ⟨hs.file, h, rfl⟩

lemma enterExport_inAccord (hs : Scope.Accords d s s') (h : A.spans span span') (symbol : String)
    (owner exported : DeclId) :
    InAccord A Eq (enterExport s span symbol owner exported) (enterExport s' span' symbol owner exported) := by
  unfold enterExport
  refine .program fun p p' hp => ?_
  rw [hp.nextExport]
  refine .bindEq (.modify fun _ _ hp => hp.addExport symbol h owner exported) fun _ => .program fun q q' hq => ?_
  rw [hq.symbolExports]
  refine .ite (fun _ => ?_) fun _ => ?_
  · exact .modify fun _ _ hp => (hp.setExportStatus _ _).failExport _ ⟨hs.file, h, rfl⟩
  · exact .bindEq (.modify fun _ _ hp => hp.claimSymbol symbol _) fun _ => materialize_inAccord hs h _ exported

lemma exportSymbol_inAccord (hE : Agree A ensure ensure') (hs : Scope.Accords d s s') (h : A.spans span span')
    (symbol : String) (exported : DeclId) :
    InAccord A Eq (exportSymbol ensure s span symbol exported) (exportSymbol ensure' s' span' symbol exported) := by
  unfold exportSymbol
  refine .bindEq (hE exported) fun _ => .program fun p p' hp => ?_
  have hty : (((p'.decl? exported).bind (·.value)).map (·.ty)).getD .void =
      (((p.decl? exported).bind (·.value)).map (·.ty)).getD .void := by
    exact (hp.value? exported).elim rfl fun _ _ hv => hv.ty
  rw [hty, hs.owner, hs.owner']
  exact .guard hs h (enterExport_inAccord hs h symbol d exported)

end EngineM

/-! Evaluation. -/

def Accord.pairing (A : Accord) (site site' : Site) (ensure ensure' : DeclId → EngineM Unit) : Analysis.Pairing where
  left := site
  right := site'
  ensureLeft := ensure
  ensureRight := ensure'
  spans := A.spans
  engines := fun ρ e e' => ρ = Eq ∧ e.Accords A e'
  ended := fun _ => Engine.Accords A
  lost := (· = .exhausted)
  overruns := True
  apart := False
  least := 0

lemma Untyped.Code.Like.matches {c c' : Untyped.Code} (hA : A.Lawful) (h : c.Like A.spans c') :
    c.Matches A.spans c' :=
  ⟨h.insts, fun r => Pointwise.getDRel hA.blank (fun _ _ h => h) (h.spans r)⟩

section
variable {ensure ensure' : DeclId → EngineM Unit}

lemma Accord.Lawful.pairing (hA : A.Lawful) (hE : EngineM.Agree A ensure ensure') (site site' : Site)
    (hs : Scope.Accords site.owner site.scope site'.scope) (ho : site'.owner = site.owner) :
    (A.pairing site site' ensure ensure').Lawful where
  biUnique := by
    rintro ρ e e' ⟨rfl, -⟩
    exact ⟨fun _ _ _ hac hbc => hac.trans hbc.symm, fun _ _ _ hab hac => hab.symm.trans hac⟩
  options := by
    rintro ρ e e' ⟨-, he⟩
    exact he.program.options
  value := by
    rintro ρ e e' d d' ⟨rfl, he⟩ rfl
    exact (he.program.value? d).elim .none fun _ _ hv => .some ⟨hv.ty, hv.val ▸ Value.Matches.refl (fun _ => rfl) _⟩
  func := by
    rintro ρ e e' d d' ⟨rfl, he⟩ rfl
    exact (he.program.func? d).elim .none fun _ _ hf => .some ⟨hf.source.code.matches hA, hf.source.body⟩
  inlined := by
    rintro ρ e e' d d' ⟨rfl, he⟩ rfl
    exact he.program.any_eq d fun _ _ hD => hD.isInlineFn_eq
  fails := by
    rintro ρ e e' span span' c c' ⟨rfl, he⟩ hspan hc
    rw [hc.eq_of_eq]
    refine he.modifyProgram fun hp => hp.fail ?_ (hs.owner'.trans hs.owner.symm) hs.func hs.file hspan c
    show site.scope.owner?.isSome = true
    rw [hs.owner]
    rfl
  stops := by
    rintro ρ e e' i ⟨-, he⟩ _ _
    exact he
  quota := fun h => absurd trivial h
  callee := fun h => absurd trivial h
  mentions := by
    rintro ρ e e' span span' name ⟨rfl, he⟩ hspan
    refine ⟨Eq, le_rfl, (EngineM.mention_inAccord hA hE hs ho name hspan e e' he).mono fun _ _ h => ⟨rfl, h⟩⟩
  exports := by
    rintro ρ e e' span span' d d' symbol ⟨rfl, he⟩ hspan rfl
    exact ⟨Eq, le_rfl, (EngineM.exportSymbol_inAccord hE hs hspan symbol d e e' he).mono fun _ _ h => ⟨rfl, h⟩⟩

lemma Accord.matches_state {M : Analysis.Pairing} {e e' : Engine} (he : M.engines Eq e e') (hl : M.least = 0)
    {a a' : Typed.Arena} (hi : Pointwise (Typed.Inst.Matches M.apart Eq M.spans) a.insts a'.insts)
    (hlimit : a'.limit = a.limit)
    (isComptime : Bool) :
    Analysis.State.Matches M Eq { engine := e, block := { arena := a, isComptime } }
      { engine := e', block := { arena := a', isComptime } } where
  engine := he
  insts := hi
  limit := hlimit
  body := rfl
  comptime := rfl
  results := rfl
  slots := fun _ => .none
  branches := rfl
  least := Nat.le_of_eq hl

end

namespace EngineM
variable {α β : Type} {ensure ensure' : DeclId → EngineM Unit} {d : DeclId} {span : Span} {s s' : Scope}

lemma inScratch_inAccord {B : Pairs → α → β → Prop} {m : Analysis α} {m' : Analysis β}
    (hm : Analysis.InStep (A.pairing ⟨.body s d none true, d⟩ ⟨.body s' d none true, d⟩ ensure ensure') Eq B m m') :
    InAccord A (B Eq) (Analysis.inScratch s d m) (Analysis.inScratch s' d m') := by
  intro e e' he
  have hlimit : e'.program.freshArena.limit = e.program.freshArena.limit :=
    congrArg Options.arenaLimit he.program.options
  have hM : (A.pairing ⟨.body s d none true, d⟩ ⟨.body s' d none true, d⟩ ensure ensure').engines Eq e e' := ⟨rfl, he⟩
  obtain ⟨ρ, -, h⟩ := hm Eq le_rfl _ _ (Accord.matches_state hM rfl (fun _ => .none) hlimit true)
  unfold Analysis.inScratch
  dsimp only [Accord.pairing] at h ⊢
  generalize m _ _ = r at h
  generalize m' _ _ = r' at h
  cases h with
  | ok ha hst =>
    obtain ⟨rfl, he⟩ := hst.engine
    exact .ok ha he
  | error h => exact .error h.1
  | lost h => exact .lost h

/-! The analysis of a declaration. -/

lemma lowered_cases (s : Scope) (D : Decl) (u : SourceUnit) (e : Engine) :
    match u.content.lower s D.name D.index D.src with
    | .ok item => lowered s D u e = .ok (item, (u.content.number D.index e.program.nextRevision).1)
        (e.modifyProgram ({ · with nextRevision := (u.content.number D.index e.program.nextRevision).2 }))
    | .error (span, cause) => lowered s D u e = .error .analysisFail (e.modifyProgram (·.fail s span cause)) := by
  unfold UnitContent.lower UnitContent.number lowered
  cases u.content with
  | lowered ds first =>
    dsimp only
    cases ds[D.index]? with
    | some item => rfl
    | none => rfl
  | source origin loaded =>
    dsimp only
    cases loaded.bind (fun l => l.items[D.index]?) with
    | none => rfl
    | some it =>
      dsimp only
      cases Untyped.ofItem it D.name s with
      | error error => rfl
      | ok item => rfl

lemma lowered_inAccord (hA : A.Lawful) (hs : Scope.Accords d s s') {D D' : Decl} (hD : D.Corresponds A d D')
    (hd : ¬ A.spoilt d) {u u' : SourceUnit} (hu : u.Accords A D.file u') :
    InAccord A (fun x y => x.1.Like A.spans y.1 ∧ (A.numbered → y.2 = x.2)) (lowered s D u) (lowered s' D' u') := by
  intro e e' he
  have hl := hA.lowers hu.content (hD.place hd) hD.src s s'
  have h := lowered_cases s D u e
  have h' := lowered_cases s' D' u' e'
  rw [hD.name] at h'
  generalize u.content.lower s D.name D.index D.src = x at hl h
  generalize u'.content.lower s' D.name D'.index D'.src = y at hl h'
  cases hl with
  | ok hi =>
    have hn (hnum : A.numbered) : u'.content.number D'.index e'.program.nextRevision =
        u.content.number D.index e.program.nextRevision := by
      obtain ⟨hc, hi⟩ := hA.numbers hnum hu.content (hD.place hd)
      rw [hc, hi, he.program.nextRevision hnum]
    dsimp only at h h'
    rw [h, h']
    exact .ok ⟨hi, fun hnum => congrArg Prod.fst (hn hnum)⟩
      (he.modifyProgram fun hp => hp.withRevision fun hnum => congrArg Prod.snd (hn hnum))
  | error hspan cause =>
    dsimp only at h h'
    rw [h, h']
    refine .error (he.modifyProgram fun hp => hp.fail ?_ (hs.owner'.trans hs.owner.symm) hs.func hs.file hspan cause)
    rw [hs.owner]
    rfl

lemma install_inAccord (hd : ¬ A.spoilt d) {v v' : DeclValue} (hv : v.Accords A v') :
    InAccord A Eq (install d v) (install d v') := by
  refine .modify fun _ _ hp => hp.modifyDecl d fun _ _ hD => ?_
  exact { hD with
    state := rfl
    value := .some hv
    stuck := fun h => absurd h hd
    fresh := nofun }

lemma allocate_inAccord (hd : ¬ A.spoilt d) (typeChanged : Bool) :
    InAccord A Eq (allocate d typeChanged) (allocate d typeChanged) := by
  unfold allocate
  refine .program fun p p' hp => ?_
  refine (hp.decl? d).elim (.pure rfl) fun D D' hD => ?_
  have hb := hp.backend.allocate hD.toAccords
  dsimp only
  generalize p.backend.allocate D = x at hb
  generalize p'.backend.allocate D' = y at hb
  obtain ⟨answer, b⟩ := x
  obtain ⟨answer', b'⟩ := y
  obtain ⟨rfl, hb⟩ := hb
  dsimp only
  refine .bindEq (.modify fun _ _ hq => hq.withBackend hb) fun _ => ?_
  cases answer' with
  | ok link =>
    refine .bindEq (.modify fun _ _ hq => hq.modifyDecl d fun _ _ hD => { hD with link := rfl }) fun _ => ?_
    refine .bindEq (.push _) fun _ => ?_
    rw [hp.options]
    exact .ite (fun _ => .push _) fun _ => .pure rfl
  | error error =>
    cases error with
    | outOfMemory => exact .throw _
    | retryable reason => exact .modify fun _ _ hq => hq.refuse hd hD.toAccords (by decide) _
    | permanent reason => exact .modify fun _ _ hq => hq.refuse hd hD.toAccords (by decide) _

lemma freeStorage_inAccord (d : DeclId) : InAccord A Eq (freeStorage d) (freeStorage d) := by
  refine .modify fun p p' hp => ?_
  exact (hp.decl? d).elim hp fun _ _ hD => hp.withBackend (hp.backend.free hD.toAccords)

lemma settle_inAccord (hE : Agree A ensure ensure') (hs : Scope.Accords d s s') (hd : ¬ A.spoilt d)
    {item item' : Untyped.Decl} (hi : item.Like A.spans item') (needsCodegen frees typeChanged : Bool) :
    InAccord A Eq (settle ensure s d item needsCodegen frees typeChanged)
      (settle ensure' s' d item' needsCodegen frees typeChanged) := by
  have exported : InAccord A Eq
      (do
        if item.isExported && ((← EngineM.program).decl? d).any (·.state == .complete) then
          exportSymbol ensure s item.src item.name d)
      (do
        if item'.isExported && ((← EngineM.program).decl? d).any (·.state == .complete) then
          exportSymbol ensure' s' item'.src item'.name d) := by
    refine .program fun p p' hp => ?_
    rw [hi.isExported, hi.name, hp.any_eq d fun _ _ hD => by rw [hD.state]]
    exact .ite (fun _ => exportSymbol_inAccord hE hs hi.src _ d) fun _ => .pure rfl
  unfold settle
  refine .ite (fun _ => .bindEq (allocate_inAccord hd typeChanged) fun _ => exported) fun _ => ?_
  exact .ite (fun _ => .bindEq (freeStorage_inAccord d) fun _ => exported) fun _ => exported

section

variable (hA : A.Lawful) (hE : Agree A ensure ensure') (hs : Scope.Accords d s s')
include hA hE hs

lemma analyzeFn_inAccord (hd : ¬ A.spoilt d) {item item' : Untyped.Decl} (hi : item.Like A.spans item')
    {f f' : Untyped.Fn} (hf : f.Like A.spans f') {revision revision' : Nat} (hr : A.numbered → revision' = revision)
    (prev : Previous) :
    InAccord A Eq (analyzeFn ensure s d item f revision prev) (analyzeFn ensure' s' d item' f' revision' prev) := by
  have hM := hA.pairing hE ⟨.body s d none true, d⟩ ⟨.body s' d none true, d⟩ ⟨rfl, rfl, rfl, hs.file⟩ rfl
  have hstep := Analysis.signatureType_inStep (ρ := Eq) hM hi.src (hf.code.matches hA) hf.signature
    fun h => absurd trivial h
  unfold analyzeFn
  refine .bindEq (inScratch_inAccord hstep) fun ty => ?_
  cases ty with
  | function params result cc =>
    dsimp only
    rw [hf.isInline, hf.body]
    refine .program fun p p' hp => ?_
    have harena : p.freshArena.Accords A p'.freshArena := ⟨fun _ => .none, congrArg Options.arenaLimit hp.options⟩
    have settled (needsCodegen : Bool) := InAccord.bindEq
      (settle_inAccord hE hs hd hi needsCodegen (!prev.wasInline && prev.hadBits)
        (decide (prev.ty ≠ some (.function params result cc)))) fun _ =>
      .pure (rfl : (decide (prev.ty ≠ some (.function params result cc)) || (f.isInline || cc == .inlined)) = _)
    refine .ite (fun _ => .bindEq (install_inAccord hd ?_) fun _ => settled _) fun _ =>
      .bindEq (install_inAccord hd ?_) fun _ => settled _
    · exact ⟨rfl, rfl, harena, .some ⟨rfl, hf, hr, rfl, rfl⟩⟩
    · exact ⟨rfl, rfl, ⟨fun _ => .none, rfl⟩, .none⟩
  | _ => exact .fail hs hi.src _

lemma analyzeVar_inAccord (hd : ¬ A.spoilt d) {item item' : Untyped.Decl} (hi : item.Like A.spans item')
    {v v' : Untyped.Var} (hv : v.Like A.spans v') (prev : Previous) :
    InAccord A Eq (analyzeVar ensure s d item v prev) (analyzeVar ensure' s' d item' v' prev) := by
  have hM := hA.pairing hE ⟨.body s d none true, d⟩ ⟨.body s' d none true, d⟩ ⟨rfl, rfl, rfl, hs.file⟩ rfl
  have hvar : v.Matches A.spans v' :=
    ⟨hv.code.matches hA, hv.ty, hv.init, hv.isMutable, hv.isExternal, hv.isThreadLocal⟩
  have hstep := Analysis.variableValue_inStep (ρ := Eq) hM hi.src hvar fun h => absurd trivial h
  unfold analyzeVar
  rw [hv.isExternal, hv.init, hv.isThreadLocal, hv.isMutable]
  refine .guard hs hi.src (.guard hs hv.keyword ?_)
  refine .bind (inScratch_inAccord hstep) fun x y hxy => ?_
  obtain ⟨ty, init⟩ := x
  obtain ⟨ty', init'⟩ := y
  obtain ⟨hty, hinit⟩ := hxy
  cases hty
  cases Value.Twin.eq_of_eqOption hinit
  refine .guard hs hi.src (.bindEq (install_inAccord hd ⟨rfl, rfl, ⟨fun _ => .none, rfl⟩, .none⟩) fun _ => ?_)
  exact .bindEq (settle_inAccord hE hs hd hi _ _ _) fun _ => .pure rfl

lemma analyzeComptime_inAccord {b b' : Untyped.Comptime} (hb : b.Like A.spans b') :
    InAccord A Eq (analyzeComptime ensure s d b) (analyzeComptime ensure' s' d b') := by
  have hM := hA.pairing hE ⟨.body s d none true, d⟩ ⟨.body s' d none true, d⟩ ⟨rfl, rfl, rfl, hs.file⟩ rfl
  have hstep : Analysis.InStep (A.pairing ⟨.body s d none true, d⟩ ⟨.body s' d none true, d⟩ ensure ensure') Eq
      Analysis.Same
      (Analysis.run ensure { code := b.code, ret := .void, kind := .comptime } b.body)
      (Analysis.run ensure' { code := b'.code, ret := .void, kind := .comptime } b.body) :=
    Analysis.run_inStep hM (.ofCode (hb.code.matches hA) [] .void .comptime) b.body fun h => absurd trivial h
  unfold analyzeComptime
  rw [hb.body]
  exact .bindEq (inScratch_inAccord hstep) fun _ => .pure rfl

end

lemma analyzeDecl_inAccord (hA : A.Lawful) (hE : Agree A ensure ensure') (hd : ¬ A.spoilt d) :
    InAccord A Eq (analyzeDecl ensure d) (analyzeDecl ensure' d) := by
  unfold analyzeDecl
  refine .program fun p p' hp => ?_
  refine (hp.decl? d).elim (.throw _) fun D D' hD => ?_
  have hu := hp.unit? D.file
  dsimp only
  rw [hD.file]
  generalize p.units.get? D.file = x at hu
  generalize p'.units.get? D.file = y at hu
  cases hu with
  | none => exact .throw _
  | @some u u' hu =>
    have hs := SourceUnit.scope_accords u u' D.file d
    have hprev : D'.previous = D.previous := by
      have hv := hD.value
      unfold Decl.previous
      rw [hD.isInlineFn_eq, hD.hasBits_eq]
      generalize D.value = v at hv
      generalize D'.value = v' at hv
      cases hv with
      | none => rfl
      | some hv => rw [Option.map_some, Option.map_some, hv.ty]
    dsimp only
    refine .bind (lowered_inAccord hA hs hD hd hu) fun x y hxy => ?_
    obtain ⟨item, revision⟩ := x
    obtain ⟨item', revision'⟩ := y
    obtain ⟨hi, hr⟩ := hxy
    have hk := hi.kind
    dsimp only at hi hr hk ⊢
    rw [hprev]
    generalize item.kind = k at hk
    generalize item'.kind = k' at hk
    cases hk with
    | fn hf => exact analyzeFn_inAccord hA hE hs hd hi hf hr _
    | var hv => exact analyzeVar_inAccord hA hE hs hd hi hv _
    | comptime hb => exact analyzeComptime_inAccord hA hE hs hb

/-! What is done before and after an analysis. -/

lemma analyzeFrom_inAccord (hd : ¬ A.spoilt d) {prev : DeclState} (hprev : A.first → prev ≠ .outdated)
    {m m' : EngineM Bool} (hm : InAccord A Eq m m') : InAccord A Eq (analyzeFrom prev d m) (analyzeFrom prev d m') := by
  intro e e' he
  have h := hm e e' he
  unfold analyzeFrom
  generalize m e = r at h
  generalize m' e' = r' at h
  cases h with
  | ok ha hs => exact .ok ha (hs.modifyProgram fun hp => hp.finishAnalysis d)
  | @error i _ _ h =>
    have rewound {e e' : Engine} (h : e.Accords A e') :
        (e.modifyProgram (·.modifyDecl d ({ · with state := prev }))).Accords A
        (e'.modifyProgram (·.modifyDecl d ({ · with state := prev }))) :=
      h.modifyProgram fun hp => hp.modifyDecl d fun _ _ hD => hD.withState hd hprev
    cases i with
    | analysisFail => exact .error (h.modifyProgram fun hp => hp.abandonAnalysis d)
    | outOfMemory => exact .error (rewound h)
    | exhausted => exact .error (rewound h)
  | lost h =>
    subst h
    exact .lost rfl

lemma invalidateUsers_inAccord (hA : ¬ A.first) (d : DeclId) :
    InAccord A Eq (invalidateUsers d) (invalidateUsers d) := by
  intro e e' he
  refine .ok rfl ?_
  dsimp only
  rw [he.program.dependantsOf_eq]
  exact Engine.Accords.foldl (fun _ _ x h => h.invalidate hA x) _ he

lemma renew_inAccord (hd : ¬ A.spoilt d) {prev : DeclState} (hprev : A.first → prev ≠ .outdated)
    {analyze analyze' : DeclId → EngineM Bool} (hm : InAccord A Eq (analyze d) (analyze' d)) :
    InAccord A Eq (renew analyze d prev) (renew analyze' d prev) := by
  have started : InAccord A Eq
      (do
        modifyProgram (·.startAnalysis d)
        let changed ← analyzeFrom prev d (analyze d)
        if prev = .outdated then
          let isFn := (((← EngineM.program).decl? d).bind (·.value)).any (·.val.isFunction)
          if changed || !isFn then invalidateUsers d)
      (do
        modifyProgram (·.startAnalysis d)
        let changed ← analyzeFrom prev d (analyze' d)
        if prev = .outdated then
          let isFn := (((← EngineM.program).decl? d).bind (·.value)).any (·.val.isFunction)
          if changed || !isFn then invalidateUsers d) := by
    refine .bindEq (.modify fun _ _ hp => hp.startAnalysis hd) fun _ => ?_
    refine .bindEq (analyzeFrom_inAccord hd hprev hm) fun changed => .ite (fun ho => ?_) fun _ => .pure rfl
    refine .program fun p p' hp => ?_
    have hfn : ((p'.decl? d).bind (·.value)).any (·.val.isFunction) =
        ((p.decl? d).bind (·.value)).any (·.val.isFunction) := by
      refine (hp.value? d).elim rfl fun _ _ hv => ?_
      simp only [Option.any_some, hv.val]
    rw [hfn]
    exact .ite (fun _ => invalidateUsers_inAccord (fun hf => hprev hf ho) d) fun _ => .pure rfl
  unfold renew
  refine .ite (fun _ => .bindEq (.modify fun _ _ hp => ?_) fun _ => started) fun _ => started
  exact (hp.removeOwnedExports d).release d

lemma ensureWith_inAccord {analyze analyze' : DeclId → EngineM Bool}
    (hm : ∀ d, ¬ A.spoilt d → InAccord A Eq (analyze d) (analyze' d)) (d : DeclId) :
    InAccord A Eq (ensureWith analyze d) (ensureWith analyze' d) := by
  unfold ensureWith
  refine .program fun p p' hp => ?_
  refine (hp.decl? d).elim (.throw _) fun D D' hD => ?_
  dsimp only
  rw [hD.state]
  refine .ite (fun _ => .pure rfl) fun _ => .ite (fun hs => ?_) fun _ => .throw _
  have hd : ¬ A.spoilt d := fun hd => by
    rw [hD.stuck hd] at hs
    cases hs
  exact renew_inAccord hd hD.fresh (hm d hd)

lemma ensureAt_agree (hA : A.Lawful) {n m : Nat} (hnm : n ≤ m) : Agree A (ensureAt n) (ensureAt m) := by
  induction n generalizing m with
  | zero => exact fun _ _ _ _ => .lost rfl
  | succ n ih =>
    obtain ⟨m, rfl⟩ := Nat.exists_eq_add_of_le' hnm
    have hE : Agree A (ensureAt n) (ensureAt (m + n)) := ih (Nat.le_add_left n m)
    exact ensureWith_inAccord fun d hd => analyzeDecl_inAccord hA hE hd

end EngineM

end Frontend
