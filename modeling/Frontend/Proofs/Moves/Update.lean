import Frontend.Proofs.Drain
import Frontend.Proofs.Moves.Analysis

/-! Pending work, reconciliation and whole updates, as moves. -/

namespace Frontend

def Kept (K : Engine → Config → Prop) (c : Config) : Prop := ∃ o, K o c

variable {overruns : Prop} {n : Nat} {K : Engine → Config → Prop} {L : Untyped.Decl → Prop} {o e : Engine} {d : DeclId}

lemma Halts.kept {st : Stage} {S : List DeclId} {B : Option (DeclId × Nat)} (i : Interrupt) (e : Engine)
    (h : Halts overruns (K o) st S B i e) : Halts overruns (Kept K) st S B i e := by
  cases i with
  | analysisFail | outOfMemory => exact ⟨o, h⟩
  | exhausted => exact ⟨h.1, o, h.2⟩

namespace Upheld

variable (hK : Upheld K L)
include hK

lemma keep {st : Stage} {S : List DeclId} {c' : Config} (hm : Move ⟨st, S, none, e⟩ c')
    (hp : st.concludes c'.stage = false) (hc : Kept K ⟨st, S, none, e⟩) : Kept K c' := by
  obtain ⟨o, hc⟩ := hc
  by_cases hb : c'.body = none ∨ c'.body = none
  · exact ⟨o, hK.step hm hp (hb.elim id id) hc⟩
  · exact hK.opens hm hb hc

lemma keepHalt {st : Stage} {S : List DeclId} {B : Option (DeclId × Nat)} (hc : Kept K ⟨st, S, B, e⟩) {i : Interrupt}
    (hi : i ≠ .analysisFail) (ho : i = .exhausted → overruns) {st' : Stage} : Halts overruns (Kept K) st' S B i e := by
  obtain ⟨o, hc⟩ := hc
  exact Halts.kept i e (hK.halt hc hi ho)

end Upheld

namespace EngineM

variable (hK : Upheld K L)
include hK

/-! Bodies of functions. -/

omit hK in
lemma analyzeBody_cases {D : Decl} {v : DeclValue} {f : Function} (hd : e.program.decl? d = some D)
    (hv : D.value = some v)
    (hf : v.func = some f) :
    (analyzeBody d e = .ok () e ∧
      (e.program.units.get? D.file = none ∨ v.ty.isFunction = false ∨ f.source.body = none)) ∨
      ∃ u params result cc body, v.ty = .function params result cc ∧ f.source.body = some body ∧
        analyzeBody d e =
          runBody ⟨.body (.declaration (SourceUnit.scope u D.file) d) d (some d) false, d⟩ v.arena f.revision
          (Analysis.fnBody (ensureAt (e.program.potentialDecls + 1)) f.source params result body D.src)
          (e.modifyProgram (·.modifyDecl d (·.opened v f))) := by
  unfold analyzeBody Decl.opened
  rw [program_bind, hd]
  dsimp only
  rw [hv]
  cases hu : e.program.units.get? D.file with
  | none => exact .inl ⟨rfl, .inl rfl⟩
  | some u =>
    dsimp only
    rw [hf]
    cases hty : v.ty with
    | function params result cc =>
      dsimp only
      cases hb : f.source.body with
      | none => exact .inl ⟨rfl, .inr (.inr rfl)⟩
      | some body => exact .inr ⟨u, params, result, cc, body, rfl, rfl, rfl⟩
    | _ => exact .inl ⟨rfl, .inr (.inl rfl)⟩

lemma analyzeBody_upheld (hP : Paced overruns n K L) {D : Decl} (hd : e.program.decl? d = some D) (ha : D.AwaitsBody)
    (hc : Kept K ⟨.coding d, [], none, e⟩) :
    Settles (analyzeBody d) e (fun _ e' => Kept K ⟨.asking d .code, [], none, e'⟩)
      (Halts overruns (Kept K) .working [] none) := by
  have ⟨_, f, hf, _⟩ := ha
  obtain ⟨v, hv, hvf⟩ := Option.bind_eq_some_iff.1 hf
  obtain ⟨hr, hb⟩ | ⟨u, params, result, cc, body, hty, hb, hr⟩ := analyzeBody_cases hd hv hvf
  · refine .ofOk hr (hK.keep (.bodiless hd hf (hb.imp_right (Or.imp_left fun hty v' hv' => ?_))) rfl hc)
    cases hv.symm.trans hv'
    exact hty
  · have hp (ho : ¬ overruns) : n + 1 - (e.program.potentialDecls + 1) ≤ 0 := by
      obtain ⟨o, hc⟩ := hc
      have : n ≤ e.program.potentialDecls := hP.potential ho hc rfl
      omega
    obtain ⟨o₀, hc₀⟩ := hc
    obtain ⟨o, hc⟩ := hK.keep (.openBody hd ha hv hvf) rfl ⟨o₀, hc₀⟩
    have hd' := Program.decl?_modifyDecl_self e.program d (·.opened v f)
    rw [hd] at hd'
    have hn (ho : ¬ overruns) : f.source.code.Nests body :=
      (hP.callee ho hc (congrArg (Option.bind · Decl.func?) hd')).body hb
    refine .ofEq hr ((hK.body (v := { v with arena := {}, func := some { f with state := .inProgress } }) hc₀ hd ha hv
      hd' rfl
      rfl hty hb hn ?_ hc).mono (fun _ _ h => ⟨o, h⟩) Halts.kept)
    exact keeps hK hP (ensureAt_ensures hK hP _) hp (.body rfl rfl)

lemma readyForCode_upheld (hP : Paced overruns n K L) (hc : Kept K ⟨.coding d, [], none, e⟩) :
    Settles (readyForCode d) e
      (fun ready e' => Kept K ⟨if ready then .asking d .code else .working, [], none, e'⟩)
      (Halts overruns (Kept K) .working [] none) := by
  have passed (h : ∀ D, e.program.decl? d = some D → ¬ D.AwaitsBody) : Kept K ⟨.working, [], none, e⟩ :=
    hK.keep (.passOver h) rfl hc
  unfold Settles readyForCode
  cases hd : e.program.decl? d with
  | none =>
    refine passed fun D hD => ?_
    rw [hd] at hD
    cases hD
  | some D =>
    have only {P : Decl → Prop} (h : P D) : ∀ D', e.program.decl? d = some D' → P D' := by
      intro D' hD'
      rw [hd] at hD'
      cases hD'
      exact h
    dsimp only
    by_cases hs : D.state ≠ .complete ∧ D.state ≠ .codegenFailedRetryable
    · rw [if_pos (by simpa using hs)]
      exact passed (only fun ha => ha.1.elim hs.1 hs.2)
    · rw [if_neg (by simpa using hs)]
      have idle {s : FnState} (hf : D.func?.map Function.state = some s) (hs : s ≠ .queued) : ¬ D.AwaitsBody := by
        rintro ⟨-, f, hf', hq⟩
        rw [hf', Option.map_some, hq] at hf
        exact hs (Option.some.inj hf).symm
      have handed (h : ∀ f, D.func? = some f → f.state = .inProgress ∨ f.state = .success) :
          Kept K ⟨.asking d .code, [], none, e⟩ := hK.keep (.handOver (only h)) rfl hc
      cases hf : D.func?.map Function.state with
      | none =>
        refine handed fun f h => ?_
        rw [h] at hf
        cases hf
      | some s =>
        obtain ⟨f, hf', rfl⟩ := Option.map_eq_some_iff.1 hf
        cases hq : f.state with
        | queued =>
          have hs : D.state = .complete ∨ D.state = .codegenFailedRetryable := by
            rwa [not_and_or, not_not, not_not] at hs
          have h := analyzeBody_upheld hK hP hd ⟨hs, f, hf', hq⟩ hc
          unfold Settles at h
          dsimp only
          generalize analyzeBody d e = result at h ⊢
          cases result with
          | ok _ e' => exact h
          | error i e' => cases i <;> exact h
        | inlineOnly => exact passed (only (idle (hq ▸ hf) (by decide)))
        | failed => exact passed (only (idle (hq ▸ hf) (by decide)))
        | dependencyFailed => exact passed (only (idle (hq ▸ hf) (by decide)))
        | inProgress => exact handed fun f h => by simp_all
        | success => exact handed fun f h => by simp_all

/-! Questions to the backend. -/

variable {about : Inquiry} {cause : String → Cause}

lemma ask_upheld (hs : about ≠ .code → ∀ D, e.program.decl? d = some D → D.state = .complete)
    (hc : Kept K ⟨.asking d about, [], none, e⟩) :
    Settles (ask d about.ask cause) e (fun _ e' => Kept K ⟨.working, [], none, e'⟩)
      (Halts overruns (Kept K) .working [] none) := by
  unfold ask
  refine .program ?_
  split
  · exact hK.keep .asked rfl hc
  · next D hD =>
    have ht : e.program.Tells (.asking d about) [] (about.ask e.program.backend D).2 := .ask hD fun h => hs h D hD
    have hb := about.rules_ask e.program.backend D
    have hl (h : about = .line) := Inquiry.ask_ne_permanent h e.program.backend D
    generalize about.ask e.program.backend D = a at ht hb hl
    obtain ⟨answer, b⟩ := a
    have hc := hc.imp fun _ hc => hK.tell hc hb ht
    refine .modify ?_
    cases answer with
    | none => exact hK.keep .asked rfl hc
    | some error =>
      have hD' : (e.modifyProgram ({ · with backend := b })).program.decl? d = some D := hD
      have refused {state : DeclState} {cause : Cause} {g : Program → Program}
          (hg : g (e.modifyProgram ({ · with backend := b })).program =
            (e.modifyProgram ({ · with backend := b })).program.refuse d D state cause)
          (hst : state = .codegenFailedRetryable ∨ state = .codegenFailed ∧ about ≠ .line) :
          Kept K ⟨.working, [], none, (e.modifyProgram ({ · with backend := b })).modifyProgram g⟩ := by
        have hm := hK.keep (.refuse hD' hst (fun h => hs h D hD) cause) rfl hc
        unfold Engine.modifyProgram at hm hg ⊢
        rw [hg]
        exact hm
      unfold refusedBy
      cases error with
      | outOfMemory => exact .throw (hK.keepHalt hc (by decide) fun h => by cases h)
      | retryable reason => exact refused (by rw [hD']) (.inl rfl)
      | permanent reason => exact refused (by rw [hD']) (.inr ⟨rfl, fun h => hl h reason rfl⟩)

lemma askComplete_upheld (hc : Kept K ⟨.asking d about, [], none, e⟩) :
    Settles (askComplete d about.ask cause) e (fun _ e' => Kept K ⟨.working, [], none, e'⟩)
      (Halts overruns (Kept K) .working [] none) :=
  .program (.ite (fun h => ask_upheld hK (fun _ D hD => by simpa [hD] using h) hc) fun _ => hK.keep .asked rfl hc)

/-! Pending work. -/

lemma codegen_upheld (hP : Paced overruns n K L) (hc : Kept K ⟨.coding d, [], none, e⟩) :
    Settles (codegen d) e (fun _ e' => Kept K ⟨.working, [], none, e'⟩) (Halts overruns (Kept K) .working [] none) := by
  refine (readyForCode_upheld hK hP hc).bind fun ready e' hc => .ite (fun h => ?_) fun h => ?_
  · rw [if_pos h] at hc
    exact ask_upheld hK (fun h => absurd rfl h) hc
  · rw [if_neg h] at hc
    exact hc

lemma analyzeItem_upheld (hP : Paced overruns n K L) (hc : Kept K ⟨.due d, [], none, e⟩) :
    Settles (analyzeItem d) e (fun _ e' => Kept K ⟨.working, [], none, e'⟩)
      (Halts overruns (Kept K) .working [] none) := by
  obtain ⟨o, hc⟩ := hc
  have h : Settles (EngineM.ensure d) e (fun _ e' => Kept K ⟨.working, [], none, e'⟩)
      (Halts overruns (Kept K) .working [] none) :=
    (ensure_upheld hK hP hc).mono (fun _ _ h => ⟨o, h⟩) Halts.kept
  unfold Settles at h ⊢
  unfold analyzeItem
  generalize EngineM.ensure d e = x at h ⊢
  cases x with
  | ok _ e' => exact h
  | error i e' => cases i <;> exact h

lemma perform_upheld (hP : Paced overruns n K L) {item : WorkItem} (hc : Kept K ⟨.ofItem item, [], none, e⟩) :
    Settles (perform item) e (fun _ e' => Kept K ⟨.working, [], none, e'⟩)
      (Halts overruns (Kept K) .working [] none) := by
  cases item with
  | analyze d => exact analyzeItem_upheld hK hP hc
  | codegen d => exact codegen_upheld hK hP hc
  | emitHeader d | updateLine d => exact askComplete_upheld hK hc

omit hK in
lemma performWith_paced {K : Nat → Engine → Config → Prop}
    (hK : ∀ m, Upheld (K m) L) (hP : ∀ m, Paced overruns n (K m) L)
    (ht : ∀ {m e item rest}, e.queue.items = item :: rest → Kept (K (m + 1)) ⟨.working, [], none, e⟩ →
      Kept (K m) ⟨.ofItem item, [], none, { e with queue := ⟨rest⟩ }⟩)
    (hq : ¬ overruns → ∀ {e}, Kept (K 0) ⟨.working, [], none, e⟩ → e.queue.items = [])
    (bound : Nat) (hc : Kept (K bound) ⟨.working, [], none, e⟩) :
    Settles (performWith bound) e (fun _ e' => ∃ m, Kept (K m) ⟨.working, [], none, e'⟩ ∧ e'.queue.items = [])
      (fun i e' => ∃ m, Halts overruns (Kept (K m)) .working [] none i e') := by
  induction bound generalizing e with
  | zero =>
    show Settles (if !e.queue.isEmpty then throw Interrupt.exhausted else pure ()) e _ _
    refine .ite (fun h => .throw ⟨0, (hK 0).keepHalt hc (by decide) fun _ => ?_⟩) fun h => ?_
    · refine Classical.byContradiction fun ho => ?_
      simp [WorkQueue.isEmpty, hq ho hc] at h
    · exact ⟨0, hc, by simpa [WorkQueue.isEmpty] using h⟩
  | succ bound ih =>
    cases hq : e.queue.items with
    | nil => exact .ofOk (performWith_succ_of_nil hq) ⟨bound + 1, hc, hq⟩
    | cons item rest =>
      refine .ofEq (performWith_succ_of_cons hq) ?_
      exact ((perform_upheld (hK bound) (hP bound) (ht hq hc)).mono (fun _ _ h => h) fun _ _ h => ⟨bound, h⟩).bind
        fun _ _ hc => ih hc

lemma performWork_upheld (hc : Kept K ⟨.working, [], none, e⟩) :
    Settles performWork e (fun _ e' => Kept K ⟨.working, [], none, e'⟩ ∧ e'.queue.items = [])
      (Halts True (Kept K) .working [] none) := by
  refine (performWith_paced (K := fun _ => K) (fun _ => hK) (fun _ => .free K L)
    (fun {_ _ item _} hq hc => hK.keep (.take hq) (by cases item <;> rfl) hc) (fun h => absurd trivial h) _
      hc).mono ?_ ?_
  · exact fun _ _ ⟨_, h⟩ => h
  · exact fun _ _ ⟨_, h⟩ => h

end EngineM

/-! Reconciling. -/

namespace Program
variable {file : FileId} {content content' : UnitContent} {origin : Origin} {loaded : Option Loaded} {text : String}
  {items : List Item}

lemma loadContent_source (ht : origin.text? = some text) (hp : Parse.file text = .ok items) :
    loadContent file (.source origin loaded) = .ok (.source origin (some ⟨text, items⟩)) := by
  have hparsed : loadContent.parsed file origin text = .ok (.source origin (some ⟨text, items⟩)) := by
    rw [loadContent.parsed, hp]
  cases origin with
  | memory t =>
    cases ht
    exact hparsed
  | path p t =>
    cases ht
    exact hparsed

lemma loadContent_cases (h : loadContent file content = .ok content') :
    (∃ origin loaded text items, content = .source origin loaded ∧ origin.text? = some text ∧
      Parse.file text = .ok items ∧
        content' = .source origin (some ⟨text, items⟩)) ∨
      ∃ decls first, content = .lowered decls first ∧ content' = .lowered decls first := by
  have hparsed {origin : Origin} {text : String} (h : loadContent.parsed file origin text = .ok content') :
      ∃ items, Parse.file text = .ok items ∧ content' = .source origin (some ⟨text, items⟩) := by
    unfold loadContent.parsed at h
    split at h
    · next items hp =>
      cases h
      exact ⟨items, hp, rfl⟩
    · cases h
    · cases h
  unfold loadContent at h
  split at h
  · cases h
  · obtain ⟨items, hp, rfl⟩ := hparsed h
    exact .inl ⟨_, _, _, items, rfl, rfl, hp, rfl⟩
  · obtain ⟨items, hp, rfl⟩ := hparsed h
    exact .inl ⟨_, _, _, items, rfl, rfl, hp, rfl⟩
  · cases h
    exact .inr ⟨_, _, rfl, rfl⟩

lemma loadContent_fails (h : ∀ text ∈ origin.text?, (Parse.file text).isOk = false) :
    ∃ failure, loadContent file (.source origin loaded) = .error failure := by
  cases hl : loadContent file (.source origin loaded) with
  | error failure => exact ⟨failure, rfl⟩
  | ok content =>
    obtain ⟨_, _, text, items, hc, ht, hp, -⟩ | ⟨_, _, hc, -⟩ := loadContent_cases hl
    · cases hc
      have hfails := h text ht
      rw [hp] at hfails
      cases hfails
    · cases hc

lemma loadContent_idem (h : loadContent file content = .ok content') : loadContent file content' = .ok content' := by
  obtain ⟨origin, loaded, text, items, -, ht, hp, rfl⟩ | ⟨decls, first, -, rfl⟩ := loadContent_cases h
  · exact loadContent_source ht hp
  · rfl

end Program

namespace Engine

def Offers (e : Engine) (file : FileId) (ns : NameHash) (items : List ItemSummary) : Prop :=
  ∀ item ∈ items, e.program.Declares file ns item

variable {file : FileId} {ns : NameHash} {todo : List FileId} {items : List ItemSummary}

lemma Offers.ofUnits {e' : Engine} (h : e.Offers file ns items) (hu : e'.program.units = e.program.units) :
    e'.Offers file ns items := by
  intro item hi
  obtain ⟨u, hg, hn, hm⟩ := h item hi
  exact ⟨u, hu ▸ hg, hn, hm⟩

lemma Offers.register (h : e.Offers file ns items) (ns' : NameHash) (item : ItemSummary) :
    (e.modifyProgram (·.register file ns' item)).Offers file ns items := by
  intro i hi
  obtain ⟨u, hg, hn, hm⟩ := h i hi
  refine ⟨{ u with decls := u.decls.insert e.program.nextDecl }, ?_, hn, hm⟩
  show Dict.get? (e.program.units.modify file _) file = _
  rw [Dict.get?_modify, if_pos rfl, hg]
  rfl

lemma refresh_units (e : Engine) (d : DeclId) (D : Decl) (item : ItemSummary) :
    (e.refresh d D item).program.units = e.program.units :=
  refresh_rule (P := (·.units = _)) rfl fun e h => (markOutdated_units e d).trans h

lemma repeatedItem_units (e : Engine) (file : FileId) (d : DeclId) (item : ItemSummary) :
    (e.repeatedItem file d item).program.units = e.program.units := rfl

variable (hK : Upheld K L)
include hK

variable {untaken : List DeclId}

lemma reconcileItem_upheld {item : ItemSummary} {left : List ItemSummary} (ho : e.Offers file ns items)
    (hi : item ∈ items) (hc : Kept K ⟨.reconciling file untaken (some (item :: left)) todo, [], none, e⟩) :
    let (e', untaken') := reconcileItem file ns (e, untaken) item
    Kept K ⟨.reconciling file untaken' (some left) todo, [], none, e'⟩ ∧ e'.Offers file ns items := by
  unfold reconcileItem
  dsimp only
  cases ht : e.program.declTable.get? (ns.child item.name) with
  | none =>
    refine ⟨hK.keep (.enroll (ho item hi) ht) rfl hc, ?_⟩
    have h := ho.register ns item
    dsimp only
    split
    · exact h
    · exact h
  | some d =>
    dsimp only
    cases hd : e.program.decl? d with
    | none => exact ⟨hK.keep (.disregard (ho item hi) ht hd) rfl hc, ho⟩
    | some D =>
      dsimp only
      by_cases hu : d ∈ untaken
      · rw [if_pos hu]
        exact ⟨hK.keep (.refresh (ho item hi) ht hd hu) rfl hc, ho.ofUnits (refresh_units e d D item)⟩
      · rw [if_neg hu]
        exact ⟨hK.keep (.again (ho item hi) ht hd hu) rfl hc, ho.ofUnits (repeatedItem_units e file d item)⟩

lemma foldl_reconcileItem_upheld (left : List ItemSummary) (hs : left ⊆ items) (ho : e.Offers file ns items)
    (hc : Kept K ⟨.reconciling file untaken (some left) todo, [], none, e⟩) :
    let (e', untaken') := left.foldl (reconcileItem file ns) (e, untaken)
    Kept K ⟨.reconciling file untaken' (some []) todo, [], none, e'⟩ := by
  induction left generalizing e untaken with
  | nil => exact hc
  | cons item left ih =>
    have ⟨hi, hr⟩ := List.cons_subset.1 hs
    have h := reconcileItem_upheld hK ho hi hc
    rw [List.foldl_cons]
    generalize reconcileItem file ns (e, untaken) item = x at h
    obtain ⟨e', untaken'⟩ := x
    exact ih hr h.2 h.1

lemma foldl_deleteDecl_upheld (gone : List DeclId)
    (hc : Kept K ⟨.reconciling file gone (some []) todo, [], none, e⟩) :
    Kept K ⟨.opening todo, [], none, gone.foldl deleteDecl e⟩ := by
  induction gone generalizing e with
  | nil => exact hK.keep .closeUnit rfl hc
  | cons d gone ih => exact ih (hK.keep .drop rfl hc)

lemma reconcileItems_upheld {u : SourceUnit} (hu : e.program.units.get? file = some u) (hn : u.namespaceHash = ns)
    (hl : u.removed = true ∨ Program.loadContent file u.content = .ok u.content)
    (hc : Kept K ⟨.reconciling file untaken none todo, [], none, e⟩) :
    Kept K ⟨.opening todo, [], none,
      match (e.program.units.get? file).bind SourceUnit.items? with
      | none => e
      | some items =>
        let (e, gone) := items.foldl (reconcileItem file ns) (e, untaken)
        gone.foldl deleteDecl e⟩ := by
  rw [hu, Option.bind_some]
  cases hi : u.items? with
  | none => exact hK.keep (.blank hu hl hi) rfl hc
  | some items =>
    have ho : e.Offers file ns items := fun item hm => ⟨u, hu, hn, by rwa [hi]⟩
    have h := foldl_reconcileItem_upheld hK items (fun _ h => h) ho (hK.keep (.itemize hu hl hi) rfl hc)
    dsimp only
    generalize items.foldl (reconcileItem file ns) (e, untaken) = x at h
    obtain ⟨e', gone⟩ := x
    exact foldl_deleteDecl_upheld hK gone h

lemma reconcile_upheld (hc : Kept K ⟨.opening (file :: todo), [], none, e⟩) :
    Kept K ⟨.opening todo, [], none, e.reconcile file⟩ := by
  unfold reconcile
  cases hu : e.program.units.get? file with
  | none => exact hK.keep (.skip hu) rfl hc
  | some u =>
    have hc := hK.keep (.openUnit hu) rfl hc
    dsimp only
    generalize he : e.modifyProgram (fun p => { p.modifyUnit file ({ · with dirty := false }) with
      failedFiles := p.failedFiles.erase file }) = e₁ at hc ⊢
    have hu₁ : e₁.program.units.get? file = some { u with dirty := false } := by
      rw [← he]
      show Dict.get? (e.program.units.modify file _) file = _
      rw [Dict.get?_modify, if_pos rfl, hu]
      rfl
    by_cases hr : u.removed = true
    · rw [if_pos hr]
      exact reconcileItems_upheld hK hu₁ rfl (.inl hr) hc
    · rw [if_neg hr]
      unfold Program.load
      cases hl : Program.loadContent file u.content with
      | error failure => exact hK.keep (.unread hu₁ (by simpa using hr) failure hl) rfl hc
      | ok content =>
        have hu₂ : (e₁.modifyProgram (·.modifyUnit file ({ · with content }))).program.units.get? file =
            some { u with dirty := false, content } := by
          show Dict.get? (e₁.program.units.modify file _) file = _
          rw [Dict.get?_modify, if_pos rfl, hu₁]
          rfl
        exact reconcileItems_upheld hK hu₂ rfl (.inr (Program.loadContent_idem hl)) (hK.keep (.read hu₁ hl) rfl hc)

end Engine

namespace Program

variable (hK : Upheld K L)
include hK

variable {p : Program}

section

variable (hc : Kept K p.starting)
include hc

lemma begin_opened : Kept K ⟨.opening [], [], none, p.begin⟩ := by
  have retried (ds : List DeclId) {e : Engine} {todo : List FileId} (hc : Kept K ⟨.retrying todo, [], none, e⟩) :
      Kept K ⟨.retrying todo, [], none, ds.foldl Engine.markOutdated e⟩ :=
    ds.foldlRecOn (motive := fun e : Engine => Kept K ⟨.retrying todo, [], none, e⟩) _ hc fun _ hc d _ =>
      hK.keep (.retry d) rfl hc
  have reconciled (todo : List FileId) : ∀ {e : Engine}, Kept K ⟨.opening todo, [], none, e⟩ →
      Kept K ⟨.opening [], [], none, todo.foldl Engine.reconcile e⟩ := by
    induction todo with
    | nil => exact fun hc => hc
    | cons file todo ih => exact fun hc => ih (Engine.reconcile_upheld hK hc)
  exact reconciled _ (hK.keep .retried rfl (retried _ hc))

lemma begin_upheld : Kept K ⟨.working, [], none, p.begin⟩ := hK.keep .opened rfl (begin_opened hK hc)

end

def Outcome (K : Engine → Config → Prop) : Except Interrupt Report × Program → Prop
  | (.ok report, p') => ∃ e, Kept K ⟨.draining, [], none, e⟩ ∧ e.program.deletionSet = [] ∧
      report = e.program.report ∧ p' = e.program.closed
  | (.error _, p') => ∃ queue, Kept K ⟨.torn, [], none, ⟨p', queue⟩⟩

lemma worked_upheld (hc : Kept K ⟨.working, [], none, p.begin⟩) : Outcome K p.update := by
  have drained (fuel : Nat) : ∀ {e : Engine}, Kept K ⟨.draining, [], none, e⟩ →
      Kept K ⟨.draining, [], none, Engine.drainWith fuel e⟩ := by
    induction fuel with
    | zero => exact fun hc => hc
    | succ fuel ih =>
      intro e hc
      unfold Engine.drainWith
      split
      · exact hc
      · next hs => exact ih (hK.keep (.drain hs) rfl hc)
  have h := EngineM.performWork_upheld hK hc
  unfold update
  unfold Settles at h
  generalize EngineM.performWork p.begin = result at h
  cases result with
  | error i e => exact ⟨e.queue, h.torn (hK.keep .tear rfl)⟩
  | ok _ e =>
    exact ⟨e.drain, drained _ (hK.keep (.worked h.2) rfl h.1), e.drain_deletionSet, rfl, rfl⟩

lemma update_upheld (hc : Kept K p.starting) : Outcome K p.update :=
  worked_upheld hK (begin_upheld hK hc)

end Program

/-! Reaching a configuration by moves is itself upheld. -/

lemma Moves.upheld (c : Config) : Upheld (fun _ => Moves c) fun _ => True := .ofMoves fun _ _ hm h => h.tail hm

lemma Program.update_moves (p : Program) :
    match p.update with
    | (.ok _, p') => ∃ e, Moves p.resting ⟨.draining, [], none, e⟩ ∧ e.program.deletionSet = [] ∧ p' = e.program.closed
    | (.error _, p') => ∃ queue, Moves p.resting ⟨.torn, [], none, ⟨p', queue⟩⟩ := by
  have h := Program.update_upheld (Moves.upheld p.resting) ⟨⟨p, {}⟩, .single .start⟩
  generalize p.update = outcome at h
  obtain ⟨report | i, p'⟩ := outcome
  · obtain ⟨queue, -, h⟩ := h
    exact ⟨queue, h⟩
  · obtain ⟨e, ⟨-, h⟩, hs, -, hp⟩ := h
    exact ⟨e, h, hs, hp⟩

namespace Program

/-- The moves are the update's own: the chain goes along with the update, and gets longer where that makes a move. -/
theorem update_steps {P : Config → Prop} {R : Config → Config → Prop} {p : Program}
    (step : ∀ {c c'}, Move c c' → ¬ c.stage.Ends c'.stage → P c → P c') (known : ∀ {c c'}, Move c c' → P c → R c c')
    (h : P p.resting) :
    ∃ st queue, Relation.ReflTransGen (fun c c' => Move c c' ∧ R c c') p.resting ⟨st, [], none, ⟨p.update.2, queue⟩⟩ ∧
      ∃ st e units report, P ⟨st, [], none, e⟩ ∧ p.update.2 = { e.program with units, report } := by
  let K (c : Config) : Prop := Relation.ReflTransGen (fun c c' => Move c c' ∧ R c c') p.resting c ∧ P c
  have stepK {c c' : Config} (hm : Move c c') (he : ¬ c.stage.Ends c'.stage) (hc : K c) : K c' :=
    ⟨hc.1.tail ⟨hm, known hm hc.2⟩, step hm he hc.2⟩
  have upheld : Upheld (fun _ => K) fun _ => True :=
    .ofSteps (fun _ _ hm _ he _ hc => stepK hm he hc) (fun _ _ _ => trivial)
      fun hv _ hc => stepK (.install hv) (fun ⟨hs, _⟩ => nomatch hs) hc
  have hstart : K p.starting :=
    stepK .start (fun ⟨hs, _⟩ => nomatch hs) ⟨.refl, h⟩
  have hu := update_upheld upheld ⟨⟨p, {}⟩, hstart⟩
  generalize p.update = outcome at hu
  obtain ⟨report | i, p'⟩ := outcome
  · obtain ⟨queue, -, hpath, hc⟩ := hu
    exact ⟨_, queue, hpath, _, _, p'.units, p'.report, hc, rfl⟩
  · obtain ⟨e, ⟨-, hpath, hc⟩, hempty, -, rfl⟩ := hu
    have hm := Move.drained hempty
    exact ⟨_, _, hpath.tail ⟨hm, known hm hc⟩, _, e, _, _, hc, rfl⟩

end Program

end Frontend
