import Frontend.Proofs.Matching.Alone
import Frontend.Proofs.Moves.Basic

/-! The analysis of declarations, as moves. Whatever moves keep is kept by it; where an evaluation hands out a value or
a body, the property has to be met by what the evaluation came to. -/

namespace Frontend

def SourceUnit.Lowers (u : SourceUnit) (scope : Scope) (item : Untyped.Decl) : Prop :=
  match u.content with
  | .lowered ds _ => item ∈ ds
  | .source _ loaded => ∃ l it name, loaded = some l ∧ it ∈ l.items ∧ Untyped.ofItem it name scope = .ok item

def SourceUnit.LowersTo (u : SourceUnit) (scope : Scope) (D : Decl) (item : Untyped.Decl) : Prop :=
  match u.content with
  | .lowered ds _ => ds[D.index]? = some item
  | .source _ loaded =>
    ∃ l it, loaded = some l ∧ l.items[D.index]? = some it ∧ Untyped.ofItem it D.name scope = .ok item

lemma SourceUnit.LowersTo.lowers {u : SourceUnit} {scope : Scope} {D : Decl} {item : Untyped.Decl}
    (h : u.LowersTo scope D item) : u.Lowers scope item := by
  unfold LowersTo at h
  unfold Lowers
  split at h
  · exact List.mem_of_getElem? h
  · obtain ⟨l, it, hl, hit, ho⟩ := h
    exact ⟨l, it, D.name, hl, List.mem_of_getElem? hit, ho⟩

inductive DeclValue.OfFn (d : DeclId) (f : Untyped.Fn) : DeclValue → Prop
  | body {ty arena revision state} (hty : ty.isFunction = true) :
      OfFn d f { ty, val := .function d, arena, func := some ⟨d, f, revision, none, state⟩ }
  | external {ty} (hty : ty.isFunction = true) : OfFn d f { ty, val := .externalFn d }

def Untyped.Var.valueOf (v : Untyped.Var) (d : DeclId) (init : Option Value) : Value :=
  if v.isMutable || v.isExternal then .global d init v.isMutable v.isExternal v.isThreadLocal
  else init.getD .undefined

lemma Untyped.Var.needsStorage_eq (v : Untyped.Var) (d : DeclId) (ty : Ty) (init : Option Value)
    (hg : ∀ w, init = some w → w.isGlobal = false) :
    ({ ty, val := v.valueOf d init } : DeclValue).needsStorage =
      (!v.isExternal && !(v.valueOf d init).isFunction && ty.hasBits) := by
  unfold valueOf
  split
  · show (!v.isExternal && ty.hasBits) = (!v.isExternal && true && ty.hasBits)
    rw [Bool.and_true]
  · next hc =>
    have hx : v.isExternal = false := by simp_all
    rw [hx, Bool.not_false, Bool.true_and]
    cases init with
    | none => rfl
    | some w => exact DeclValue.needsStorage_constant (hg w rfl)

def Engine.installed (e : Engine) (d : DeclId) (v : DeclValue) : Engine :=
  e.modifyProgram (·.modifyDecl d ({ · with value := some v, state := .complete }))

/-- A property of configurations, seen from an engine met before, that updates keep: moves do, and so does what
evaluations hand out. Of the items that are lowered, `L` is known. -/
structure Upheld (K : Engine → Config → Prop) (L : Untyped.Decl → Prop) : Prop where
  rebase {o st S B e} : K o ⟨st, S, B, e⟩ → K e ⟨st, S, B, e⟩
  step {o c c'} : Move c c' → c.stage.concludes c'.stage = false → c'.body = c.body → K o c → K o c'
  opens {o c c'} : Move c c' → ¬ (c'.body = none ∨ c'.body = c.body) → K o c → ∃ o', K o' c'
  lowers {o st S B e file u scope item} : K o ⟨st, S, B, e⟩ → e.program.units.get? file = some u →
    u.Lowers scope item → L item
  fn {o s d S B e D item f v needsCode} : L item → item.kind = .fn f → v.OfFn d f → v.Fresh needsCode →
    s.program.decl? d = some D → K s ⟨.working, d :: S, B, s⟩ → K s ⟨.working, d :: S, B, e⟩ →
    K o ⟨.working, d :: S, B, e⟩ →
    K o ⟨.installed needsCode (!D.isInlineFn && D.hasBits), d :: S, B, e.installed d v⟩
  var {overruns o s d S B e D item v ensure scope} : L item → item.kind = .var v → (¬ overruns → v.Nests) →
    (∀ o, Analysis.Keeps overruns ⟨.body scope d none true, d⟩ ensure (fun e => K o ⟨.working, d :: S, B, e⟩)
      (Halts overruns (K o) .failing (d :: S) B)) →
    s.program.decl? d = some D → K s ⟨.working, d :: S, B, s⟩ → K s ⟨.working, d :: S, B, e⟩ →
    K o ⟨.working, d :: S, B, e⟩ →
    Settles (Analysis.inScratch scope d (EngineM.variableValue ensure item.src v)) e
      (fun x e' => K o ⟨.working, d :: S, B, e'⟩ ∧ ∀ needsCode,
        ({ ty := x.1, val := v.valueOf d x.2 } : DeclValue).Fresh needsCode →
        K o ⟨.installed needsCode D.hasBits, d :: S, B, e'.installed d { ty := x.1, val := v.valueOf d x.2 }⟩)
      (Halts overruns (K o) .failing (d :: S) B)
  block {o s d S B e D u scope item b} : s.program.decl? d = some D → s.program.units.get? D.file = some u →
    u.LowersTo scope D item → item.kind = .comptime b → K s ⟨.working, d :: S, B, s⟩ → K s ⟨.working, d :: S, B, e⟩ →
    K o ⟨.working, d :: S, B, e⟩ → K o ⟨.settled, d :: S, B, e⟩
  body {overruns o o₀ d e₀ D₀ v₀ e D v f params result cc rs ensure scope src} : K o₀ ⟨.coding d, [], none, e₀⟩ →
    e₀.program.decl? d = some D₀ → D₀.AwaitsBody → D₀.value = some v₀ → e.program.decl? d = some D → D.value = some v →
      v.func = some f → v.ty = .function params result cc → f.source.body = some rs →
        (¬ overruns → f.source.code.Nests rs) →
    (∀ o, Analysis.Keeps overruns ⟨scope, d⟩ ensure (fun e => K o ⟨.working, [], some (d, f.revision), e⟩)
      (Halts overruns (K o) .failing [] (some (d, f.revision)))) →
    K o ⟨.working, [], some (d, f.revision), e⟩ →
    Settles (EngineM.runBody ⟨scope, d⟩ v₀.arena f.revision (Analysis.fnBody ensure f.source params result rs src)) e
      (fun _ e' => K o ⟨.asking d .code, [], none, e'⟩) (Halts overruns (K o) .working [] none)

/-- What holds where no bound may be reached: the quota stays the same, bodies nest no deeper than their code is long,
and at most `n` analyses are under way, which is no more than declarations there may come to be. -/
structure Paced (overruns : Prop) (n : Nat) (K : Engine → Config → Prop) (L : Untyped.Decl → Prop) : Prop where
  quota {o o' c c'} : ¬ overruns → K o c → K o' c' →
    c'.engine.program.options.branchQuota = c.engine.program.options.branchQuota
  callee {o c d f} : ¬ overruns → K o c → c.engine.program.func? d = some f → f.source.Nests
  item {item} : ¬ overruns → L item → item.kind.Nests
  depth {o c} : ¬ overruns → K o c → c.stage.isBusy = true → c.stack.length ≤ n
  potential {o c} : ¬ overruns → K o c → c.stage.isBusy = true → n ≤ c.engine.program.potentialDecls

lemma Paced.free (K : Engine → Config → Prop) (L : Untyped.Decl → Prop) : Paced True 0 K L :=
  ⟨fun h => absurd trivial h, fun h => absurd trivial h, fun h => absurd trivial h, fun h => absurd trivial h,
    fun h => absurd trivial h⟩

variable {overruns : Prop} {n : Nat} {K : Engine → Config → Prop} {L : Untyped.Decl → Prop} {o : Engine} {st : Stage}
  {S : List DeclId}
  {B : Option (DeclId × Nat)} {e : Engine}

namespace EngineM

variable {d : DeclId} {r : Nat} {scope : Scope} {arena : Typed.Arena} {m : Analysis Unit}

lemma runBody_outcome {Q : Analysis.State → Prop} {E : Interrupt → Engine → Prop}
    (hm : Settles (m ⟨scope, d⟩) { engine := e, block := { arena } } (fun _ => Q) fun i s => E i s.engine) :
    Settles (runBody ⟨scope, d⟩ arena r m) e
      (fun _ e' => ∃ s, Q s ∧ e' = s.engine.modifyProgram (·.finishBody d r s.block.arena fun f =>
        { f with body := some s.block.insts, state := .success }))
      (fun i e' => ∃ s : Analysis.State, E i s.engine ∧
        e' = s.engine.modifyProgram (·.finishBody d r (s.block.arena.restore arena.size) fun f => { f with
          state := if i = .analysisFail then
            if f.state = .inProgress then .dependencyFailed else f.state else .queued })) := by
  unfold Settles at hm ⊢
  unfold runBody
  dsimp only
  generalize m ⟨scope, d⟩ { engine := e, block := { arena } } = x at hm
  cases x with
  | ok _ s => exact ⟨s, hm, rfl⟩
  | error i s => exact ⟨s, hm, by cases i <;> rfl⟩

lemma runBody_settles {C : Config → Prop}
    (ends : ∀ {st st' e} (a : Typed.Arena) {g : Function → Function},
      (∀ f, (g f).body = f.body) → st.concludes st' = false →
      Move ⟨st, [], some (d, r), e⟩ ⟨st', [], none, e.modifyProgram (·.finishBody d r (a.restore arena.size) g)⟩ →
      C ⟨st, [], some (d, r), e⟩ → C ⟨st', [], none, e.modifyProgram (·.finishBody d r (a.restore arena.size) g)⟩)
    (hm : Settles (m ⟨scope, d⟩) { engine := e, block := { arena } }
      (fun _ s => C ⟨.asking d .code, [], none, s.engine.modifyProgram (·.finishBody d r s.block.arena
        fun f => { f with body := some s.block.insts, state := .success })⟩)
      (fun i s => Halts overruns C .failing [] (some (d, r)) i s.engine)) :
    Settles (runBody ⟨scope, d⟩ arena r m) e
      (fun _ e' => C ⟨.asking d .code, [], none, e'⟩) (Halts overruns C .working [] none) := by
  refine (runBody_outcome hm).mono (fun _ e' h => ?_) fun i e' h => ?_
  · obtain ⟨s, h, rfl⟩ := h
    exact h
  · obtain ⟨s, h, rfl⟩ := h
    cases i with
    | analysisFail => exact ends _ (fun _ => rfl) rfl (.dropBody _) h
    | outOfMemory => exact ends _ (fun _ => rfl) rfl (.requeue _) h
    | exhausted => exact ⟨h.1, ends _ (fun _ => rfl) rfl (.requeue _) h.2⟩

end EngineM

namespace Upheld

lemma plain (hK : ∀ o c c', Move c c' → ¬ c.stage.Begins c'.stage → ¬ c.stage.Ends c'.stage →
      ¬ c.stage.Installs c'.stage →
      ¬ c.stage.Runs c'.stage → K o c → K o c') {c c' : Config} (hm : Move c c')
      (hp : c.stage.concludes c'.stage = false)
    (h : K o c) : K o c' := by
  refine hK o c c' hm (fun hs => ?_) (fun hs => ?_) (fun hs => ?_) (fun hs => ?_) h
  · obtain ⟨hr, todo, ho⟩ := hs
    rw [hr, ho] at hp
    cases hp
  · obtain ⟨hd, hr⟩ := hs
    rw [hd, hr] at hp
    cases hp
  · obtain ⟨hw, needsCode, frees, hi⟩ := hs
    rw [hw, hi] at hp
    cases hp
  · obtain ⟨hw, hr⟩ := hs
    rw [hw, hr] at hp
    cases hp

lemma ofLooks (rebase : ∀ {o st S B e}, K o ⟨st, S, B, e⟩ → K e ⟨st, S, B, e⟩)
    (hK : ∀ o c c', Move c c' → ¬ c.stage.Begins c'.stage → ¬ c.stage.Ends c'.stage → ¬ c.stage.Installs c'.stage →
      ¬ c.stage.Runs c'.stage → K o c → K o c')
    (lowers : ∀ {o st S B e file u scope item}, K o ⟨st, S, B, e⟩ → e.program.units.get? file = some u →
      u.Lowers scope item → L item)
    (install : ∀ {o s d S B e D v needsCode frees}, v.Fresh needsCode →
      (∀ f, v.func = some f → ∃ item, L item ∧ item.kind = .fn f.source) → s.program.decl? d = some D →
      (frees = D.hasBits ∨ frees = (!D.isInlineFn && D.hasBits)) → K s ⟨.working, d :: S, B, s⟩ →
        K s ⟨.working, d :: S, B, e⟩ →
      K o ⟨.working, d :: S, B, e⟩ → K o ⟨.installed needsCode frees, d :: S, B, e.installed d v⟩)
    (block : ∀ {o s d S B e D u scope item b}, s.program.decl? d = some D → s.program.units.get? D.file = some u →
      u.LowersTo scope D item → item.kind = .comptime b → K s ⟨.working, d :: S, B, s⟩ →
      K s ⟨.working, d :: S, B, e⟩ → K o ⟨.working, d :: S, B, e⟩ → K o ⟨.settled, d :: S, B, e⟩) : Upheld K L where
  rebase := rebase
  step hm hp _ h := plain hK hm hp h
  opens {o c c'} hm hb h := by
    -- Of the moves only the one that opens a body leads to another body.
    refine ⟨o, plain hK hm ?_ h⟩
    cases hm with
    | openBody => rfl
    | _ => first | exact absurd (.inl rfl) hb | exact absurd (.inr rfl) hb
  lowers h hu hi := lowers h hu hi
  fn {_ _ _ _ _ _ _ item _ _ _} hL hf hv hfresh hD begun seen h := by
    refine install hfresh (fun g hg => ?_) hD (.inr rfl) begun seen h
    cases hv with
    | body _ =>
      cases hg
      exact ⟨item, hL, hf⟩
    | external _ => cases hg
  var {_ o s _ _ _ _ _ item v _ _} _ _ hn hk hD begun seen h := by
    refine (((hk o).variableValue h item.src v hn).also ((hk s).variableValue seen item.src v hn)).mono
      (fun _ _ ⟨⟨seen, _⟩, h, _⟩ => ⟨h, fun _ hv => ?_⟩) fun _ _ h => h
    exact install hv nofun hD (.inl rfl) begun seen h
  block := block
  body {_ o _ _ _ _ _ _ _ _ f params result _ rs _ _ src} _ _ _ _ _ _ _ _ _ hn hk h :=
    EngineM.runBody_settles (fun _ _ _ hp hm => plain hK hm hp)
      (((hk o).fnBody h _ f.source params result rs src hn).mono (fun _ _ h => hK _ _ _ (.closeBody _ _)
        (fun ⟨hs, _⟩ => nomatch hs) (fun ⟨hs, _⟩ => nomatch hs) (fun ⟨_, _, _, hs⟩ => nomatch hs)
        (fun ⟨_, hs⟩ => nomatch hs) h)
        fun _ _ h => h)

variable {P : Config → Prop} {st' : Stage} {i : Interrupt}

lemma ofSteps
    (hP : ∀ c c', Move c c' → ¬ c.stage.Begins c'.stage → ¬ c.stage.Ends c'.stage → ¬ c.stage.Installs c'.stage →
      P c → P c')
    (lowers : ∀ {st S B e file u scope item}, P ⟨st, S, B, e⟩ → e.program.units.get? file = some u →
      u.Lowers scope item →
      L item)
    (install : ∀ {d S B e v needsCode frees}, v.Fresh needsCode →
      (∀ f, v.func = some f → ∃ item, L item ∧ item.kind = .fn f.source) →
      P ⟨.working, d :: S, B, e⟩ → P ⟨.installed needsCode frees, d :: S, B, e.installed d v⟩) :
    Upheld (fun _ => P) L :=
  ofLooks (fun h => h) (fun _ c c' hm hb he hi _ h => hP c c' hm hb he hi h) lowers
    (fun hv hf _ _ _ _ h => install hv hf h) fun _ _ _ _ _ _ h =>
      hP _ _ .ran (fun ⟨hs, _⟩ => nomatch hs) (fun ⟨hs, _⟩ => nomatch hs) (fun ⟨_, _, _, hs⟩ => nomatch hs) h

lemma ofMoves (hP : ∀ c c', Move c c' → P c → P c') : Upheld (fun _ => P) fun _ => True :=
  ofSteps (fun c c' hm _ _ _ h => hP c c' hm h) (fun _ _ _ => trivial) fun hv _ h => hP _ _ (.install hv) h

variable (hK : Upheld K L)
include hK

lemma move {S' : List DeclId} {e' : Engine} (hm : Move ⟨st, S, B, e⟩ ⟨st', S', B, e'⟩) (hp : st.concludes st' = false)
    (hc : K o ⟨st, S, B, e⟩) : K o ⟨st', S', B, e'⟩ :=
  hK.step hm hp rfl hc

section

variable (hc : K o ⟨st, S, B, e⟩)
include hc

lemma quiet {g : Program → Program} (h : e.program.Quiet (g e.program)) (ht : e.program.Trades (g e.program))
    (hb : (g e.program).backend = e.program.backend) : K o ⟨st, S, B, e.modifyProgram g⟩ := by
  refine hK.move (.quiet h ht ?_) st.concludes_self hc
  rw [hb]
  exact .nothing

lemma tell {b : Backend} (hb : b.rules = e.program.backend.rules) (ht : e.program.Tells st S b) :
    K o ⟨st, S, B, e.modifyProgram ({ · with backend := b })⟩ :=
  hK.move (.quiet ⟨rfl, rfl, rfl, rfl, rfl, rfl, rfl, rfl, rfl, rfl, hb, rfl⟩ (.leave ⟨rfl, rfl, rfl, rfl, rfl, rfl⟩)
    ht)
    st.concludes_self hc

lemma halt (hi : i ≠ .analysisFail) (ho : i = .exhausted → overruns) : Halts overruns (K o) st' S B i e := by
  have torn : K o ⟨.torn, S, B, e⟩ := hK.move .tear (by cases st <;> rfl) hc
  cases i with
  | analysisFail => exact absurd rfl hi
  | outOfMemory => exact torn
  | exhausted => exact ⟨ho rfl, torn⟩

lemma spend : Halts overruns (K o) st' S B .outOfMemory e :=
  hK.halt hc (by decide) nofun

end

lemma haltMove (h : Halts overruns (K o) st S B i e) (hm : Move ⟨st, S, B, e⟩ ⟨st', S, B, e⟩)
    (hp : st.concludes st' = false) : Halts overruns (K o) st' S B i e := by
  cases i with
  | analysisFail => exact hK.move hm hp h
  | outOfMemory => exact h
  | exhausted => exact h

end Upheld

namespace Program

lemma resolve_cases (p : Program) (file : FileId) (name : String) :
    (∃ found, p.resolve file name = (found, p)) ∨
      ∃ ns item, p.Declares file ns item ∧ p.declTable.get? (ns.child item.name) = none ∧
        p.resolve file name = (some p.nextDecl, p.register file ns item) := by
  unfold resolve
  split
  · exact .inl ⟨none, rfl⟩
  · next u hu =>
    split
    · exact .inl ⟨_, rfl⟩
    · next ht =>
      split
      · exact .inl ⟨none, rfl⟩
      · next item hi =>
        have hn : item.name = name := by simpa using List.find?_some hi
        exact .inr ⟨u.namespaceHash, item, ⟨u, hu, rfl, List.mem_of_find?_eq_some hi⟩, hn ▸ ht, rfl⟩

end Program

lemma Stands.owner?_eq {site : Analysis.Site} (hs : Stands S B site) : site.scope.owner? = some site.owner := by
  cases hs <;> assumption

/-- A function that sees that declarations are analyzed, and upholds the property. It reaches no bound where that many
analyses are under way already. -/
structure Ensures (overruns : Prop) (depth : Nat) (K : Engine → Config → Prop) (ensure : DeclId → EngineM Unit) :
    Prop where
  upheld {o d S B e} : (¬ overruns → depth ≤ S.length) → K o ⟨.due d, S, B, e⟩ →
    Settles (ensure d) e (fun _ e' => K o ⟨.working, S, B, e'⟩) (Halts overruns (K o) .working S B)
  complete {o st S B d e D} : (¬ overruns → depth ≤ S.length) → K o ⟨st, S, B, e⟩ → st.isBusy = true →
    e.program.decl? d = some D → D.state = .complete →
    ensure d e = .ok () e ∨ overruns ∧ ensure d e = .error .exhausted e

namespace EngineM

variable (hK : Upheld K L) {depth : Nat} {ensure : DeclId → EngineM Unit} {site : Analysis.Site}
include hK

/-! Mentions and exports. -/

section

variable (hE : Ensures overruns depth K ensure) (hS : ¬ overruns → depth ≤ S.length) (hs : Stands S B site)
include hE hS hs

lemma require_upheld {d : DeclId} (hc : K o ⟨.due d, S, B, e⟩) :
    Settles (require ensure site d) e (fun _ e' => K o ⟨.working, S, B, e'⟩) (Halts overruns (K o) .failing S B) := by
  have h := hE.upheld hS hc
  unfold Settles at h
  unfold Settles require
  split at h
  · next he => rw [he]; exact h
  · next i e' he =>
    rw [he]
    cases i with
    | analysisFail => exact hK.move (.depend hs) rfl h
    | outOfMemory => exact h
    | exhausted => exact h

lemma mention_upheld (name : String) (span : Span) (hc : K o ⟨.working, S, B, e⟩) :
    Settles (mention ensure site name span) e (fun _ e' => K o ⟨.working, S, B, e'⟩)
      (Halts overruns (K o) .failing S B) := by
  have goOn (d : DeclId) {e : Engine} (hc : K o ⟨.due d, S, B, e⟩) :
      Settles (do
          modifyProgram (·.addEdge site.owner d)
          if ((← program).decl? d).any Decl.isInProgress then fail site.scope span .dependencyLoop
          require ensure site d
          return d) e (fun _ e' => K o ⟨.working, S, B, e'⟩) (Halts overruns (K o) .failing S B) := by
    have hc := hK.move (.edge hs) rfl hc
    refine .modify (.program (.ite (fun hd => ?_) fun _ => ?_))
    · refine .failThen (hK.move (.fail hs span _) rfl (hK.move (.dismiss fun D hD => ?_) rfl hc))
      have hp : D.state = .inProgress := by
        simpa [hD, Decl.isInProgress] using hd
      rw [hp]
      exact ⟨by decide, by decide⟩
    · exact (require_upheld hK hE hS hs hc).bind fun _ _ h => h
  unfold mention
  refine .program ?_
  obtain ⟨found, hr⟩ | ⟨ns, item, hi, ht, hr⟩ := e.program.resolve_cases site.scope.fileOf name
  · rw [hr]
    cases found with
    | none => exact .modify (.fail (hK.move (.fail hs span _) rfl hc))
    | some d => exact .modify (goOn d (hK.move (.notice d) rfl hc))
  · rw [hr]
    exact .modify (goOn _ (hK.move (.register hi ht) rfl hc))

end

variable {st' : Stage} {item : Untyped.Decl} {s : Engine} {D : Decl} {analyze : DeclId → EngineM Bool}

lemma materialize_upheld (hst : st = .working ∨ st = .settled) (scope : Scope) {id : ExportId} {X : Export}
    (hX : e.program.exports.get? id = some X) (hs : e.program.symbolExports.get? X.symbol = some id)
    (hc : K o ⟨st, S, B, e⟩) :
    Settles (materialize scope X.src id X.exported) e (fun _ e' => K o ⟨st, S, B, e'⟩)
      (Halts overruns (K o) st' S B) := by
  unfold materialize
  refine .program ?_
  have settled {e : Engine} {status : ExportStatus} {failed : Dict ExportId Diagnostic}
      (hc : K o ⟨st, S, B, e⟩) (hX : e.program.exports.get? id = some X)
      (hs : e.program.symbolExports.get? X.symbol = some id) (hf : failed = e.program.failedExports ∨ ∃ file reason,
        failed = e.program.failedExports.insert id ⟨file, X.src, .exportRefused reason⟩) :
      K o ⟨st, S, B, { e with program := { e.program.setExportStatus id status with failedExports := failed } }⟩ :=
    hK.quiet (g := fun p => { p.setExportStatus id status with failedExports := failed }) hc
      ⟨rfl, rfl, rfl, rfl, rfl, rfl, rfl, rfl, rfl, rfl, rfl, rfl⟩ (.settle hX hs hf) rfl
  split
  · exact settled hc hX hs (.inl rfl)
  · next D hD =>
    have hc := hK.tell hc (Backend.rules_call ..) (.exports hst hX hs hD)
    refine .modify ?_
    rw [pure_bind]
    dsimp only
    split
    · exact settled hc hX hs (.inl rfl)
    · exact .throw (hK.spend hc)
    · exact settled hc hX hs (.inr ⟨_, _, rfl⟩)
    · exact settled hc hX hs (.inr ⟨_, _, rfl⟩)

lemma enterExport_upheld (hst : st = .working ∨ st = .settled) (hs : Stands S B site) (scope : Scope) (src : Span)
    (symbol : String) {exported : DeclId} (hx : (e.program.tyOf exported).isFunction = true) (hc : K o ⟨st, S, B, e⟩) :
    Settles (enterExport scope src symbol site.owner exported) e (fun _ e' => K o ⟨st, S, B, e'⟩)
      (Halts overruns (K o) st' S B) := by
  refine .program (.modify (.program (.ite (fun ht => ?_) fun ht => ?_)))
  · have htaken : e.program.symbolExports.get? symbol ≠ none := by
      simpa [Dict.contains, Engine.modifyProgram, Program.addExport, Option.isSome_iff_ne_none] using ht
    exact hK.move (.collide hs scope.fileOf symbol src hx htaken) st.concludes_self hc
  · have hfree : e.program.symbolExports.get? symbol = none := by
      simpa [Dict.contains, Engine.modifyProgram, Program.addExport] using ht
    have hc := hK.move (.claim hs symbol src hx hfree) st.concludes_self hc
    have hX : (e.program.claimExport symbol src site.owner exported).exports.get? e.program.nextExport =
        some ⟨e.program.nextExport, symbol, src, site.owner, exported, .inProgress⟩ :=
      (Dict.get?_insert ..).trans (if_pos rfl)
    exact .modify (materialize_upheld hK hst scope hX ((Dict.get?_insert ..).trans (if_pos rfl)) hc)

lemma exportSymbol_upheld (hE : Ensures overruns depth K ensure) (hS : ¬ overruns → depth ≤ S.length)
    (hs : Stands S B site) (src : Span) (symbol : String) (exported : DeclId) (hc : K o ⟨.working, S, B, e⟩) :
    Settles (exportSymbol ensure site.scope src symbol exported) e (fun _ e' => K o ⟨.working, S, B, e'⟩)
      (Halts overruns (K o) .failing S B) := by
  have hc := hK.move (.notice exported) rfl hc
  refine ((hE.upheld hS hc).mono (fun _ _ h => h) fun i e' h => hK.haltMove h .giveUp rfl).bind fun _ e' hc => ?_
  refine .program (.ite (fun _ => .failThen (hK.move (.fail hs src _) rfl hc)) fun hty => ?_)
  rw [hs.owner?_eq]
  exact enterExport_upheld hK (.inl rfl) hs site.scope src symbol (by simpa [Program.tyOf] using hty) hc

/-! Evaluation. -/

lemma keeps (hP : Paced overruns n K L) (hE : Ensures overruns depth K ensure) (hS : ¬ overruns → depth ≤ S.length)
    (hs : Stands S B site) (o : Engine) : Analysis.Keeps overruns site ensure (fun e => K o ⟨.working, S, B, e⟩)
      (Halts overruns (K o) .failing S B) where
  fails span cause hc := hK.move (.fail hs span cause) rfl hc
  stops hc hi ho := hK.halt hc hi ho
  quota ho hc hc₁ := hP.quota ho hc hc₁
  callee ho hc hf := hP.callee ho hc hf
  mentions name span hc := mention_upheld hK hE hS hs name span hc
  exports span symbol d hc := exportSymbol_upheld hK hE hS hs span symbol d hc

/-! The analysis of a declaration. -/

variable {scope : Scope} {d : DeclId}

lemma lowered_upheld (hs : Stands (d :: S) B ⟨scope, d⟩) (decl : Decl) (u : SourceUnit)
    (hc : K o ⟨.working, d :: S, B, e⟩) :
    Settles (lowered scope decl u) e (fun x e' => K o ⟨.working, d :: S, B, e'⟩ ∧ u.LowersTo scope decl x.1)
      (Halts overruns (K o) .failing (d :: S) B) := by
  unfold lowered
  split
  · next ds first hu =>
    split
    · next item hi =>
      refine ⟨hc, ?_⟩
      rw [SourceUnit.LowersTo, hu]
      exact hi
    · exact .fail (hK.move (.fail hs _ _) rfl hc)
  · next origin loaded hu =>
    split
    · exact .fail (hK.move (.fail hs _ _) rfl hc)
    · next it hi =>
      split
      · exact .fail (hK.move (.fail hs _ _) rfl hc)
      · next item ho =>
        refine .program (.modify ⟨hK.quiet hc ?_ (.leave ⟨rfl, rfl, rfl, rfl, rfl, rfl⟩) rfl, ?_⟩)
        · exact ⟨rfl, rfl, rfl, rfl, rfl, rfl, rfl, rfl, rfl, rfl, rfl, rfl⟩
        obtain ⟨l, hl, hi⟩ := Option.bind_eq_some_iff.1 hi
        rw [SourceUnit.LowersTo, hu]
        exact ⟨l, it, hl, hi, ho⟩

lemma allocate_upheld (typeChanged : Bool) {frees : Bool} (hc : K o ⟨.installed true frees, d :: S, B, e⟩) :
    Settles (allocate d typeChanged) e (fun _ e' => K o ⟨.settled, d :: S, B, e'⟩)
      (Halts overruns (K o) st' (d :: S) B) := by
  unfold allocate
  refine .program ?_
  split
  · next hD =>
    refine hK.move (.spare (.inr hD) fun _ D h => ?_) rfl hc
    rw [hD] at h
    cases h
  · next D hD =>
    generalize ha : e.program.backend.allocate D = a
    obtain ⟨answer, b⟩ := a
    have hr : b.rules = e.program.backend.rules := by rw [← Backend.rules_allocate e.program.backend D, ha]
    have ht : e.program.Tells (.installed true frees) (d :: S) (e.program.backend.allocate D).2 := .allocate hD
    rw [ha] at ht
    have hc := hK.tell hc hr ht
    have refused {error : BackendError} (he : answer = .error error) {state : DeclState}
        (hs : state = .codegenFailed ∨ state = .codegenFailedRetryable) (cause : Cause) :
        K o ⟨.settled, d :: S, B, (e.modifyProgram ({ · with backend := b })).modifyProgram
          (·.refuse d D state cause)⟩ := by
      refine hK.move (.withhold ?_ (?_ : _ = some error) hs cause) rfl hc
      · exact hD
      · subst he
        exact hr ▸ Backend.lookup_of_allocate ha
    refine .modify ?_
    split
    · next link =>
      have held (D' : Decl) (hD' : e.program.decl? d = some D') : b = .silent ∨ b.link? D'.id = some link := by
        rw [hD] at hD'
        cases hD'
        exact Backend.link?_of_allocate ha
      refine .modify (.push (.ite (fun hh => ?_) fun hh => ?_))
      · exact hK.move (.grant link true held rfl) rfl hc
      · exact hK.move (.grant link false held rfl) rfl hc
    · exact .throw (hK.spend hc)
    · exact refused rfl (.inr rfl) _
    · exact refused rfl (.inl rfl) _

lemma freeStorage_upheld (hc : K o ⟨.installed false true, d :: S, B, e⟩) :
    K o ⟨.settled, d :: S, B, e.modifyProgram fun p =>
      match p.decl? d with
      | some decl => { p with backend := p.backend.free decl }
      | none => p⟩ := by
  unfold Engine.modifyProgram
  dsimp only
  split
  · next D hD =>
    refine hK.move (.spare (.inl rfl) fun _ D' hD' => ?_) rfl (hK.tell hc (Backend.rules_free ..) (.free hD))
    cases hD.symm.trans hD'
    exact (Backend.link?_free ..).trans (if_pos rfl)
  · next hD =>
    refine hK.move (.spare (.inl rfl) fun _ D h => ?_) rfl hc
    rw [hD] at h
    cases h

section

variable (hE : Ensures overruns depth K ensure) (hS : ¬ overruns → depth ≤ (d :: S).length)
  (hs : Stands (d :: S) B ⟨scope, d⟩)
include hE hS hs

lemma exportSelf_upheld (src : Span) (symbol : String) (hd : (e.program.decl? d).any (·.state == .complete) = true)
    (hc : K o ⟨.settled, d :: S, B, e⟩) :
    Settles (exportSymbol ensure scope src symbol d) e (fun _ e' => K o ⟨.settled, d :: S, B, e'⟩)
      (Halts overruns (K o) .failing (d :: S) B) := by
  obtain ⟨D, hD, hst⟩ := (Option.any_eq_true _ _).1 hd
  have hst : D.state = .complete := by simpa using hst
  have h : Settles (ensure d) e (fun _ e' => e' = e) (Halts overruns (K o) .failing (d :: S) B) := by
    unfold Settles
    obtain h | ⟨ho, h⟩ := hE.complete hS hc rfl hD hst <;> rw [h]
    exact hK.halt hc (by decide) fun _ => ho
  refine h.bind fun _ e' he => ?_
  subst he
  refine .program (.ite (fun hty => ?_) fun hty => ?_)
  · exact .failThen (hK.move (.failLate hs (by simpa [Program.tyOf] using hty) src _) rfl hc)
  · rw [hs.owner?_eq]
    exact enterExport_upheld hK (.inr rfl) hs scope src symbol (by simpa [Program.tyOf] using hty) hc

lemma settle_upheld (item : Untyped.Decl) {needsCode frees : Bool} (typeChanged : Bool)
    (hc : K o ⟨.installed needsCode frees, d :: S, B, e⟩) :
    Settles (settle ensure scope d item needsCode frees typeChanged) e
      (fun _ e' => K o ⟨.settled, d :: S, B, e'⟩) (Halts overruns (K o) .failing (d :: S) B) := by
  have exported {e : Engine} (hc : K o ⟨.settled, d :: S, B, e⟩) :
      Settles (do
          if item.isExported && ((← program).decl? d).any (·.state == .complete) then
            exportSymbol ensure scope item.src item.name d) e
        (fun _ e' => K o ⟨.settled, d :: S, B, e'⟩) (Halts overruns (K o) .failing (d :: S) B) := by
    refine .program (.ite (fun h => ?_) fun _ => hc)
    exact exportSelf_upheld hK hE hS hs _ _ (Bool.and_eq_true_iff.1 h).2 hc
  unfold settle
  cases needsCode with
  | true => exact (allocate_upheld hK typeChanged hc).bind fun _ _ hc => exported hc
  | false =>
    cases frees with
    | true => exact .modify (exported (freeStorage_upheld hK hc))
    | false =>
      have hm : Move ⟨.installed false false, d :: S, B, e⟩ ⟨.settled, d :: S, B, e⟩ := .spare (.inl rfl) nofun
      exact exported (hK.move hm rfl hc)

end

section

variable (hP : Paced overruns n K L) (hE : Ensures overruns depth K ensure) (hS : ¬ overruns → depth ≤ (d :: S).length)
include hP hE hS

lemma keepsScratch (scope : Scope) (o : Engine) :
    Analysis.Keeps overruns ⟨.body scope d none true, d⟩ ensure (fun e => K o ⟨.working, d :: S, B, e⟩)
      (Halts overruns (K o) .failing (d :: S) B) :=
  keeps hK hP hE hS (.decl rfl rfl) o

lemma analyzeFn_upheld (hs : Stands (d :: S) B ⟨scope, d⟩) (hL : L item) {f : Untyped.Fn} (hf : item.kind = .fn f)
    (revision : Nat) (hD : s.program.decl? d = some D) (begun : K s ⟨.working, d :: S, B, s⟩)
    (seen : K s ⟨.working, d :: S, B, e⟩) (hc : K o ⟨.working, d :: S, B, e⟩) :
    Settles (analyzeFn ensure scope d item f revision D.previous) e (fun _ e' => K o ⟨.settled, d :: S, B, e'⟩)
      (Halts overruns (K o) .failing (d :: S) B) := by
  have hn (ho : ¬ overruns) : f.Nests := by
    have h := hP.item ho hL
    rwa [hf] at h
  have signature (o : Engine) (hc : K o ⟨.working, d :: S, B, e⟩) := Analysis.inScratch_settles
    (Analysis.signatureType_inStep (keepsScratch (S := S) (B := B) (d := d) hK hP hE hS scope o).lawful
      (rfl : item.src = item.src) (Analysis.matches_self_code f.code) rfl hn) hc
  refine ((signature o hc).also (signature s seen)).bind fun ty e' h => ?_
  obtain ⟨⟨seen, -⟩, hc, -⟩ := h
  split
  · next params result cc =>
    refine .program (.ite (fun hb => .modify ?_) fun hb => .modify ?_)
    · refine (settle_upheld hK hE hS hs item _ (hK.fn hL hf (.body rfl) ?_ hD begun seen hc)).bind fun _ _ hc => hc
      refine ⟨?_, fun _ => rfl, fun hf => rfl, fun hf => ?_, fun hf => ?_, fun hf => ?_⟩
      · rw [hb, Bool.true_and]
        cases f.isInline || cc == .inlined <;> rfl
      · cases hf
        exact hb
      · cases hf
        dsimp only
        split
        · exact .inl rfl
        · next hi =>
          refine .inr ⟨rfl, ?_⟩
          simp [hb, hi]
      · cases hf
        exact ⟨rfl, rfl⟩
    · have hn : f.body.isSome = false := Bool.not_eq_true _ ▸ hb
      rw [hn, Bool.false_and, Bool.false_and]
      exact (settle_upheld hK hE hS hs item _ (hK.fn hL hf (.external rfl) (.ofNone rfl rfl) hD begun seen hc)).bind
        fun _ _ hc => hc
  · exact .fail (hK.move (.fail hs _ _) rfl hc)

lemma analyzeVar_upheld (hs : Stands (d :: S) B ⟨scope, d⟩) (hL : L item) {v : Untyped.Var} (hv : item.kind = .var v)
    (hD : s.program.decl? d = some D) (begun : K s ⟨.working, d :: S, B, s⟩) (seen : K s ⟨.working, d :: S, B, e⟩)
    (hc : K o ⟨.working, d :: S, B, e⟩) :
    Settles (analyzeVar ensure scope d item v D.previous) e (fun _ e' => K o ⟨.settled, d :: S, B, e'⟩)
      (Halts overruns (K o) .failing (d :: S) B) := by
  unfold analyzeVar
  refine .ite (fun _ => .failThen (hK.move (.fail hs _ _) rfl hc)) fun _ => ?_
  refine .ite (fun _ => .failThen (hK.move (.fail hs _ _) rfl hc)) fun _ => ?_
  have hn (ho : ¬ overruns) : v.Nests := by
    have h := hP.item ho hL
    rwa [hv] at h
  have known := (keepsScratch hK hP hE hS scope o).variableValue hc item.src v hn
  refine ((hK.var hL hv hn (keepsScratch hK hP hE hS scope) hD begun seen hc).also known).bind
    fun (ty, init) e' ⟨⟨_, hg⟩, hc, hi⟩ => ?_
  refine .ite (fun _ => .failThen (hK.move (.fail hs _ _) rfl hc)) fun _ => ?_
  exact .modify ((settle_upheld hK hE hS hs item _ (hi _ (.ofNone rfl (v.needsStorage_eq d ty init hg)))).bind
    fun _ _ hc => hc)

lemma analyzeComptime_upheld (scope : Scope) (hL : L item) {b : Untyped.Comptime} (hb : item.kind = .comptime b)
    (hs : K s ⟨.working, d :: S, B, e⟩)
    (ended : ∀ e', K s ⟨.working, d :: S, B, e'⟩ → K o ⟨.working, d :: S, B, e'⟩ → K o ⟨.settled, d :: S, B, e'⟩)
    (hc : K o ⟨.working, d :: S, B, e⟩) :
    Settles (analyzeComptime ensure scope d b) e (fun _ e' => K o ⟨.settled, d :: S, B, e'⟩)
      (Halts overruns (K o) .failing (d :: S) B) := by
  have hn (ho : ¬ overruns) : b.code.Nests b.body := by
    have h := hP.item ho hL
    rwa [hb] at h
  have run (o : Engine) (hc : K o ⟨.working, d :: S, B, e⟩) := Analysis.inScratch_settles
    (Analysis.run_inStep (keepsScratch (S := S) (B := B) (d := d) hK hP hE hS scope o).lawful
      (Analysis.Frame.Matches.ofCode (Analysis.matches_self_code b.code) [] .void .comptime) b.body hn) hc
  exact ((run o hc).also (run s hs)).bind fun _ e' h => ended e' h.1.1 h.2.1

lemma analyzeDecl_upheld (hc : K o ⟨.working, d :: S, B, e⟩) :
    Settles (analyzeDecl ensure d) e (fun _ e' => K o ⟨.settled, d :: S, B, e'⟩)
      (Halts overruns (K o) .failing (d :: S) B) := by
  unfold analyzeDecl
  refine .program ?_
  split
  · exact .throw (hK.move .giveUp rfl hc)
  · next D hD =>
    split
    · exact .throw (hK.move .giveUp rfl hc)
    · next u hu =>
      have hs : Stands (d :: S) B ⟨.declaration (u.scope D.file) d, d⟩ := by
        refine .decl rfl ?_
        show (u.scope D.file).func? = none
        unfold SourceUnit.scope
        split <;> rfl
      have begun := hK.rebase hc
      have hl : Settles _ _ _ (Halts overruns (K e) .failing (d :: S) B) := lowered_upheld hK hs D u begun
      refine ((lowered_upheld hK hs D u hc).also hl).bind fun x e' ⟨⟨seen, _⟩, hc, hi⟩ => ?_
      obtain ⟨item, revision⟩ := x
      have hL : L item := hK.lowers begun hu hi.lowers
      dsimp only
      split
      · next f hf => exact analyzeFn_upheld hK hP hE hS hs hL hf revision hD begun seen hc
      · next v hv => exact analyzeVar_upheld hK hP hE hS hs hL hv hD begun seen hc
      · next b hb =>
        exact analyzeComptime_upheld hK hP hE hS _ hL hb seen (fun e' seen hc => hK.block hD hu hi hb begun seen hc) hc

end

/-! Seeing that a declaration is analyzed. -/

omit hK in
lemma invalidateUsers_settles {R : Engine → Prop} {E : Interrupt → Engine → Prop}
    (hR : ∀ {e x D}, e.program.decl? x = some D → D.state.isUnsettled = false →
      D.generation ≠ e.program.generation → R e → R (e.markOutdated x)) (h : R e) :
    Settles (invalidateUsers d) e (fun _ => R) E := by
  refine List.foldlRecOn _ _ h fun e h user _ => ?_
  unfold Engine.invalidate
  split
  · exact h
  · next D hD =>
    split
    · exact h
    · next hs =>
      have hs : D.state.isUnsettled = false ∧ D.generation ≠ e.program.generation := by simpa using hs
      exact hR hD hs.1 hs.2 h

lemma analyzeFrom_upheld {analyze : EngineM Bool} {prev : DeclState} (hprev : prev = .outdated ∨ prev = .unreferenced)
    (ha : Settles analyze e (fun _ e' => K o ⟨.settled, d :: S, B, e'⟩) (Halts overruns (K o) .failing (d :: S) B)) :
    Settles (analyzeFrom prev d analyze) e (fun _ e' => K o ⟨.working, S, B, e'⟩)
      (Halts overruns (K o) .working S B) := by
  unfold Settles at ha ⊢
  unfold analyzeFrom
  cases hr : analyze e with
  | ok changed e' =>
    rw [hr] at ha
    exact hK.move .finish rfl ha
  | error i e' =>
    rw [hr] at ha
    cases i with
    | analysisFail => exact hK.move .abandon rfl ha
    | outOfMemory => exact hK.move (.rewind hprev) rfl ha
    | exhausted => exact ⟨ha.1, hK.move (.rewind hprev) rfl ha.2⟩

lemma renew_settles {R : Engine → Prop} {E : Interrupt → Engine → Prop} (hD : e.program.decl? d = some D)
    (hst : D.state.Due)
    (ha : ∀ {e}, K o ⟨.working, d :: S, B, e⟩ → Settles (analyzeFrom D.state d (analyze d)) e (fun _ => R) E)
    (hR : ∀ {e}, R e → Settles (invalidateUsers d) e (fun _ => R) E) (hc : K o ⟨.due d, S, B, e⟩) :
    Settles (renew analyze d D.state) e (fun _ => R) E := by
  have entered {e' : Engine} {D' : Decl} (hc : K o ⟨.due d, S, B, e'⟩)
      (hD' : e'.program.decl? d = some D') (hst' : D'.state = D.state)
      (hx : D.state = .outdated → ∀ x ∈ e'.program.ownedExports d, e'.program.exports.get? x = none) :
      Settles (do
          modifyProgram (·.startAnalysis d)
          let changed ← analyzeFrom D.state d (analyze d)
          if D.state = .outdated then
            let isFn := (((← program).decl? d).bind (·.value)).any (·.val.isFunction)
            if changed || !isFn then invalidateUsers d) e' (fun _ => R) E := by
    have hc := hK.move (.enter hD' (hst' ▸ hst) (hst' ▸ hx)) rfl hc
    refine .modify ((ha hc).bind fun changed e' h => ?_)
    exact .ite (fun _ => .program (.ite (fun _ => hR h) fun _ => h)) fun _ => h
  unfold renew
  refine .ite (fun ho => .modify ?_) fun ho => entered hc hD rfl fun h => absurd h ho
  have hc : K o ⟨.due d, S, B, e.modifyProgram (·.removeOwnedExports d)⟩ :=
    hK.quiet hc (e.program.removeOwnedExports_quiet d) (.withdraw d) (e.program.removeOwnedExports_backend d)
  have hD₁ : (e.program.removeOwnedExports d).decl? d = some D := by
    rw [← hD]
    exact congrArg (·.get? d) (e.program.removeOwnedExports_quiet d).decls
  have hr := (e.program.removeOwnedExports d).release_rewired d
  obtain ⟨D', hD', hw⟩ := hr.exists_decl? hD₁
  refine entered (hK.move (.release hD₁ ho) rfl hc) hD' (by cases hw; rfl) fun _ x hx => ?_
  have hx : x ∈ (e.program.removeOwnedExports d).ownedExports d :=
    congrArg (Program.ownedExports · d) hr.rest ▸ hx
  exact (congrArg (·.exports.get? x) hr.rest).trans (Program.removeOwnedExports_get? hx)

lemma ensureWith_upheld (ha : ∀ {e}, K o ⟨.working, d :: S, B, e⟩ → Settles (analyze d) e
      (fun _ e' => K o ⟨.settled, d :: S, B, e'⟩) (Halts overruns (K o) .failing (d :: S) B))
      (hc : K o ⟨.due d, S, B, e⟩) :
    Settles (ensureWith analyze d) e (fun _ e' => K o ⟨.working, S, B, e'⟩) (Halts overruns (K o) .working S B) := by
  unfold ensureWith
  refine .program ?_
  split
  · next hD =>
    refine .throw (hK.move (.dismiss fun D h => ?_) rfl hc)
    rw [hD] at h
    cases h
  · next D hD =>
    have dismissed (h : D.state ≠ .outdated ∧ D.state ≠ .unreferenced) : K o ⟨.working, S, B, e⟩ := by
      refine hK.move (.dismiss fun D' h' => ?_) rfl hc
      rw [hD] at h'
      cases h'
      exact h
    refine .ite (fun hs => ?_) fun _ => .ite (fun hs => ?_) fun hs => ?_
    · exact dismissed (by rw [hs]; decide)
    · have hs : D.state.Due := by simpa using hs
      refine renew_settles hK hD hs (fun hc => analyzeFrom_upheld hK hs (ha hc)) (fun hc => ?_) hc
      exact invalidateUsers_settles (fun hD hs hg => hK.move (.outdate hD hs hg) rfl) hc
    · exact .throw (dismissed (by simpa using hs))

omit hK in
lemma ensureWith_eq (hd : e.program.decl? d = some D) (hs : D.state ≠ .outdated ∧ D.state ≠ .unreferenced) :
    ensureWith analyze d e = if D.state = .complete then .ok () e else .error .analysisFail e := by
  rw [ensureWith, program_bind, hd]
  simp only [hs, decide_false, Bool.or_self, Bool.false_eq_true, if_false]
  split <;> rfl

omit hK in
lemma ensureWith_of_none (hd : e.program.decl? d = none) : ensureWith analyze d e = .error .analysisFail e := by
  rw [ensureWith, program_bind, hd]
  rfl

lemma ensureAt_ensures (hP : Paced overruns n K L) (level : Nat) :
    Ensures overruns (n + 1 - level) K (ensureAt level) := by
  induction level with
  | zero =>
    -- More analyses are under way than there may be, unless bounds may be reached.
    have spent {o st S B e} (hS : ¬ overruns → n + 1 ≤ S.length) (hc : K o ⟨st, S, B, e⟩) (hb : st.isBusy = true) :
        overruns := by
      refine Classical.byContradiction fun ho => ?_
      have h : S.length ≤ n := hP.depth ho hc hb
      exact absurd (hS ho) (Nat.not_le.2 (Nat.lt_succ_of_le h))
    exact ⟨fun hS hc => .throw (hK.halt hc (by decide) fun _ => spent hS hc rfl),
      fun hS hc hb _ _ => .inr ⟨spent hS hc hb, rfl⟩⟩
  | succ level ih =>
    refine ⟨fun hS hc => ensureWith_upheld hK (fun hc => analyzeDecl_upheld hK hP ih (fun ho => ?_) hc) hc,
      fun _ _ _ hd hs => .inl ((ensureWith_eq hd (by rw [hs]; decide)).trans (if_pos hs))⟩
    have := hS ho
    rw [List.length_cons]
    omega

lemma ensure_upheld (hP : Paced overruns n K L) (hc : K o ⟨.due d, S, B, e⟩) :
    Settles (EngineM.ensure d) e (fun _ e' => K o ⟨.working, S, B, e'⟩) (Halts overruns (K o) .working S B) := by
  refine .program ((ensureAt_ensures hK hP _).upheld (fun ho => ?_) hc)
  have : n ≤ e.program.potentialDecls := hP.potential ho hc rfl
  omega

end EngineM

end Frontend
