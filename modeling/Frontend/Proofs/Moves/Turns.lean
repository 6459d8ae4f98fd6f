import Frontend.Proofs.Edges
import Frontend.Proofs.Moves.Basic

/-! What a move does to one declaration and to the failure that is recorded for it. It is said once, by one constructor
for each thing that may become of a declaration, with what is known of the configurations around it. -/

namespace Frontend

abbrev Program.record? (p : Program) (d : DeclId) : Option Diagnostic := p.failedDecls.get? d

def Engine.Lists (e : Engine) (x : DeclId) : Prop := .analyze x ∈ e.queue.items ∧ x ∈ e.program.report.outdated

lemma Engine.lists_push (e : Engine) (x : DeclId) : ((e.modifyProgram (·.outdate x)).push (.analyze x)).Lists x :=
  ⟨List.mem_concat_self, List.mem_concat_self⟩

lemma Engine.Lists.markOutdated {e : Engine} {x : DeclId} (h : e.Lists x) (d : DeclId) :
    (e.markOutdated d).Lists x := by
  obtain ⟨he, -⟩ | ⟨D, -, -, he⟩ := e.markOutdated_cases d <;> rw [he]
  · exact h
  · exact ⟨List.mem_append_left _ h.1, List.mem_append_left _ h.2⟩

lemma Engine.Lists.forget {e : Engine} {x : DeclId} (h : e.Lists x) (d : DeclId) (D : Decl) :
    (e.modifyProgram (·.forget d D)).Lists x := by
  refine ⟨h.1, ?_⟩
  show x ∈ (e.program.forget d D).report.outdated
  rw [(e.program.forget_quiet d D).report]
  exact h.2

def Config.Innermost (c : Config) (x : DeclId) : Prop :=
  c.stack.head? = some x ∨ c.stack = [] ∧ ∃ r, c.body = some (x, r)

def Config.Unsettles (c c' : Config) (x : DeclId) : Prop :=
  c.body = none ∧ ((∃ todo, c.stage = .retrying todo) ∨
    ∃ file y rest todo, c.stage = .reconciling file (y :: rest) (some []) todo ∧ x ∈ c.program.dependantsOf y ∧
      y ∈ c'.program.report.deleted)

inductive Decl.Turn (c c' : Config) (x : DeclId) (D : Decl) (r : Option Diagnostic) : Decl → Option Diagnostic → Prop
  | wired (deps dependants : OrdSet DeclId) (isDoomed : Bool)
      (hd : ∀ y ∈ deps, y ∈ D.deps ∨ c.stage = .due y ∧ c.Innermost x) :
      Turn c c' x D r { D with deps, dependants, isDoomed } r
  | marked (deps dependants : OrdSet DeclId) (isDoomed : Bool)
      (hd : ∀ y ∈ deps, y ∈ D.deps ∨ c.stage = .due y ∧ c.Innermost x) (hl : c'.engine.Lists x)
      (hst : c.stage.isOpening = true ∧ c'.stage.isOpening = true ∧ c.Unsettles c' x ∨
        c.stage = .working ∧ D.state.isUnsettled = false ∧ D.generation ≠ c.program.generation) :
      Turn c c' x D r { D with state := .outdated, deps, dependants, isDoomed } none
  | entered (hst : c.stage = .due x) (hst' : c'.stage = .working) (hS : c'.stack = x :: c.stack) (hs : D.state.Due) :
      Turn c c' x D r { D with state := .inProgress, generation := c.program.generation } r
  | rewound {prev : DeclState} (hst : c'.stage = .torn) : Turn c c' x D r { D with state := prev } r
  | failed (diagnostic : Diagnostic)
      (hst : c.stage = .working ∨ c.stage = .settled ∧ (c.program.tyOf x).isFunction = false)
      (hst' : c'.stage = .failing)
      (hS : c.stack.head? = some x) (hS' : c'.stack = c.stack) :
      Turn c c' x D r { D with state := .failed, generation := c.program.generation } (some (r.getD diagnostic))
  | failedBody {rev : Nat} (diagnostic : Diagnostic) (hst : c.stage = .working) (hst' : c'.stage = .failing)
      (hS : c.stack = []) (hb : c.body = some (x, rev)) :
      Turn c c' x D r (D.modifyFunc ({ · with state := .failed })) (some (r.getD diagnostic))
  | depended (hS : c.stack.head? = some x) (hs : D.state = .inProgress) :
      Turn c c' x D r { D with state := .dependencyFailed } r
  | dependedBody {rev : Nat} (hst : c.stage = .working) (hst' : c'.stage = .failing) (hS : c.stack = [])
      (hb : c.body = some (x, rev)) :
      Turn c c' x D r
        (D.modifyFunc fun f => if f.state = .inProgress then { f with state := .dependencyFailed } else f) r
  | installed {v : DeclValue} {needsCode frees : Bool} (hst : c.stage = .working)
      (hst' : c'.stage = .installed needsCode frees) (hS : c.stack.head? = some x) (hS' : c'.stack = c.stack)
      (hv : v.Fresh needsCode) : Turn c c' x D r { D with value := some v, state := .complete } r
  | granted {needsCode frees : Bool} (link : Nat) (hst : c.stage = .installed needsCode frees)
      (hst' : c'.stage = .settled) (hS : c.stack.head? = some x) : Turn c c' x D r { D with link } r
  | withheld {needsCode frees : Bool} {state : DeclState} {error : BackendError} (cause : Cause)
      (hst : c.stage = .installed needsCode frees) (hst' : c'.stage = .settled) (hS : c.stack.head? = some x)
      (hs : state = .codegenFailed ∨ state = .codegenFailedRetryable)
      (hr : c.program.backend.rules.lookup (.allocate, D.name) = some error) :
      Turn c c' x D r { D with state } (some ⟨D.file, D.src, cause⟩)
  | completed (hst : c.stage = .settled) (hS : c.stack = x :: c'.stack) (hs : D.state = .inProgress) :
      Turn c c' x D r { D with state := .complete } r
  | opened {v : DeclValue} {f : Function} (hst : c.stage = .coding x) (hst' : c'.stage = .working)
      (hb : c.body = none) (hb' : c'.body = some (x, f.revision)) (ha : D.AwaitsBody) (hv : D.value = some v)
      (hf : v.func = some f) : Turn c c' x D r (D.opened v f) r
  | ended {rev : Nat} (arena : Typed.Arena) (g : Function → Function) (hb : c.body = some (x, rev))
      (hb' : c'.body = none)
      (hS : c.stack = []) (hg : (c'.stage = .torn ∧ g = fun f => { f with state := .queued }) ∨
        (c.stage = .working ∧ c'.stage = .asking x .code ∧ ∃ body, g = fun f => { f with body, state := .success }) ∨
        c.stage = .failing ∧ c'.stage = .working ∧
          g = fun f => { f with state := if f.state = .inProgress then .dependencyFailed else f.state }) :
      Turn c c' x D r { D with
        value := D.value.map fun v =>
          if (v.func).any (·.revision == rev) then { v with arena, func := v.func.map g } else v } r
  | refused {about : Inquiry} {state : DeclState} (cause : Cause) (hst : c.stage = .asking x about)
      (hs : state = .codegenFailedRetryable ∨ state = .codegenFailed ∧ about ≠ .line)
      (hc : about ≠ .code → D.state = .complete) (hb : c.body = none) (hS' : c'.stack = []) :
      Turn c c' x D r { D with state } (some ⟨D.file, D.src, cause⟩)
  | reread {item file untaken left todo ns} (hst : c.stage = .reconciling file untaken (some (item :: left)) todo)
      (hst' : c'.stage.isOpening = true) (hi : c.program.Declares file ns item)
      (hs : D.contents = item.hash ∨ D.state = .outdated ∨
        D.state = .unreferenced ∧ (item.isRoot = true → .analyze x ∈ c'.engine.queue.items)) (hu : x ∈ untaken)
      (hb : c.body = none) (ht : c.program.declTable.get? (ns.child item.name) = some x) :
      Turn c c' x D r (D.reread item) r
  | rereadMarked {item file untaken left todo ns} (hst : c.stage = .reconciling file untaken (some (item :: left)) todo)
      (hst' : c'.stage.isOpening = true) (hl : c'.engine.Lists x) (hu : x ∈ untaken) (hb : c.body = none)
      (hi : c.program.Declares file ns item) (ht : c.program.declTable.get? (ns.child item.name) = some x) :
      Turn c c' x D r { D.reread item with state := .outdated } none
  | repeated {item file untaken left todo ns} (hst : c.stage = .reconciling file untaken (some (item :: left)) todo)
      (hst' : c'.stage.isOpening = true) (hi : c.program.Declares file ns item)
      (ht : c.program.declTable.get? (ns.child item.name) = some x) (hu : x ∉ untaken) (hb : c.body = none)
      (hS' : c'.stack = []) :
      Turn c c' x D r { D with
        index := item.index, src := item.src, contents := ⟨item.hash.bits ^^^ redefinitionMask⟩, state := .failed,
        generation := c.program.generation } (some (r.getD ⟨file, item.src, .redefinition item.name⟩))

inductive Config.Turns (c c' : Config) (x : DeclId) :
    Option Decl → Option Diagnostic → Option Decl → Option Diagnostic → Prop
  | kept {D D' : Decl} {r r' : Option Diagnostic} (h : D.Turn c c' x r D' r') : Turns c c' x (some D) r (some D') r'
  | absent {r r' : Option Diagnostic} (h : r' = r ∨ c'.stage = .failing ∧ c.Innermost x) : Turns c c' x none r none r'
  | gone {D : Decl} {r : Option Diagnostic} (hr : x ∈ c'.program.report.deleted) (hst' : c'.stage.isIdle = true)
      (hb : c.body = none) (h : (∃ file rest todo, c.stage = .reconciling file (x :: rest) (some []) todo) ∨
        c.stage = .draining ∧ c'.stage = .draining ∧ x ∈ c.program.deletionSet ∧ D.isRoot = false ∧
          D.dependants.elems = []) :
      Turns c c' x (some D) r none none
  | fresh {o : Option Decl} {r : Option Diagnostic} {file : FileId} {ns : NameHash} {item : ItemSummary}
      (hx : x = c.program.nextDecl) (hi : c.program.Declares file ns item)
      (ht : c.program.declTable.get? (ns.child item.name) = none) (hp : c'.program = c.program.register file ns item)
      (hq : c'.stage = .due x ∨ (item.isRoot = true → .analyze x ∈ c'.engine.queue.items)) :
      Turns c c' x o r (some (c.program.entry file ns item)) r

abbrev Config.Turned (c c' : Config) (x : DeclId) : Prop :=
  c.Turns c' x (c.program.decl? x) (c.program.record? x) (c'.program.decl? x) (c'.program.record? x)

/-! What failing does, by what the scope belongs to. -/

namespace Program
variable {p : Program} {scope : Scope} {d : DeclId}

lemma fail_decl (ho : scope.owner? = some d) (hf : scope.func? = none) (span : Span) (cause : Cause) :
    p.fail scope span cause = (p.modifyDecl d fun D => { D with state := .failed, generation := p.generation }).record d
      ⟨scope.fileOf, span, cause⟩ := by
  unfold fail
  rw [ho, hf]

lemma fail_body (ho : scope.owner? = some d) (hf : scope.func? = some d) (span : Span) (cause : Cause) :
    p.fail scope span cause = (p.modifyDecl d fun D => D.modifyFunc ({ · with state := .failed })).record d
      ⟨scope.fileOf, span, cause⟩ := by
  unfold fail
  rw [ho, hf]

lemma dependencyFailed_decl (hf : scope.func? = none) :
    p.dependencyFailed ⟨scope, d⟩ =
      p.modifyDecl d fun D => if D.isInProgress then { D with state := .dependencyFailed } else D := by
  unfold dependencyFailed
  rw [hf]

lemma dependencyFailed_body (hf : scope.func? = some d) :
    p.dependencyFailed ⟨scope, d⟩ = p.modifyDecl d fun D =>
      D.modifyFunc fun f => if f.state = .inProgress then { f with state := .dependencyFailed } else f := by
  unfold dependencyFailed
  rw [hf]

end Program

/-! Changes of one declaration and of its record. -/

namespace Config.Turns
variable {c c' : Config} {d x : DeclId} {o : Option Decl} {r : Option Diagnostic} {p p' : Program} {f : Decl → Decl}

lemma same : c.Turns c' x o r o r := by
  cases o with
  | none => exact .absent (.inl rfl)
  | some D => exact .kept (.wired D.deps D.dependants D.isDoomed fun _ h => .inl h)

lemma change (f : Decl → Decl) (g : Option Diagnostic → Option Diagnostic)
    (hd : p'.decl? x = if d = x then (p.decl? x).map f else p.decl? x)
    (hr : p'.record? x = if d = x then g (p.record? x) else p.record? x)
    (hf : ∀ D, p.decl? d = some D → D.Turn c c' d (p.record? d) (f D) (g (p.record? d)))
    (hn : p.decl? d = none → g (p.record? d) = p.record? d ∨ c'.stage = .failing ∧ c.Innermost d) :
    c.Turns c' x (p.decl? x) (p.record? x) (p'.decl? x) (p'.record? x) := by
  rw [hd, hr]
  split
  · next hx =>
    subst hx
    cases hD : p.decl? d with
    | none => exact .absent (hn hD)
    | some D => exact .kept (hf D hD)
  · exact same

lemma modify (hf : ∀ D, p.decl? d = some D → D.Turn c c' d (p.record? d) (f D) (p.record? d)) :
    c.Turns c' x (p.decl? x) (p.record? x) ((p.modifyDecl d f).decl? x) (p.record? x) :=
  show c.Turns c' x _ _ _ ((p.modifyDecl d f).record? x) from change f id (p.decl?_modifyDecl ..) (ite_self _).symm hf
    fun _ => .inl rfl

lemma settle {state : DeclState}
    (hs : ∀ D, p.decl? d = some D → D.state = .inProgress →
      D.Turn c c' d (p.record? d) { D with state } (p.record? d)) :
    c.Turns c' x (p.decl? x) (p.record? x)
      ((p.modifyDecl d fun D => if D.isInProgress then { D with state } else D).decl? x) (p.record? x) := by
  refine modify fun D hD => ?_
  split
  · next hi => exact hs D hD (beq_iff_eq.1 hi)
  · exact .wired D.deps D.dependants D.isDoomed fun _ h => .inl h

lemma forget {D : Decl} (hD : p.decl? d = some D)
    (hg : (∃ file rest todo, c.stage = .reconciling file (d :: rest) (some []) todo) ∨
      c.stage = .draining ∧ c'.stage = .draining ∧ d ∈ c.program.deletionSet ∧ D.isRoot = false ∧
        D.dependants.elems = [])
    (D' : Decl) (hp : c'.program = p'.forget d D') (hst' : c'.stage.isIdle = true) (hb : c.body = none)
    (h : c.Turns c' x (p.decl? x) (p.record? x) (p'.decl? x) (p'.record? x)) :
    c.Turns c' x (p.decl? x) (p.record? x) ((p'.forget d D').decl? x) ((p'.forget d D').record? x) := by
  rw [p'.decl?_forget, Program.record?, Program.record?, (p'.forget_quiet d D').failedDecls, Dict.get?_erase]
  split
  · next hx =>
    subst hx
    rw [hD]
    refine .gone ?_ hst' hb hg
    rw [hp, (p'.forget_quiet d D').report]
    exact List.mem_concat_self
  · exact h

lemma refuse {D : Decl} {state : DeclState} {cause : Cause} (hD : p.decl? d = some D)
    (h : D.Turn c c' d (p.record? d) { D with state } (some ⟨D.file, D.src, cause⟩)) :
    c.Turns c' x (p.decl? x) (p.record? x) ((p.refuse d D state cause).decl? x)
      ((p.refuse d D state cause).record? x) := by
  refine change ({ · with state }) (fun _ => some ⟨D.file, D.src, cause⟩) (p.decl?_modifyDecl ..)
    (Dict.get?_insert ..) (fun D' hD' => ?_) fun hn => ?_
  · cases hD.symm.trans hD'
    exact h
  · rw [hD] at hn
    cases hn

lemma record (f : Decl → Decl) (diagnostic : Diagnostic)
    (hf : ∀ D, p.decl? d = some D → D.Turn c c' d (p.record? d) (f D) (some ((p.record? d).getD diagnostic)))
    (hn : p.decl? d = none → c'.stage = .failing ∧ c.Innermost d) :
    c.Turns c' x (p.decl? x) (p.record? x) (((p.modifyDecl d f).record d diagnostic).decl? x)
      (((p.modifyDecl d f).record d diagnostic).record? x) :=
  change f (some <| ·.getD diagnostic) (p.decl?_modifyDecl ..) (Dict.get?_insertIfNew ..) hf fun h => .inr (hn h)

lemma register {file : FileId} {ns : NameHash} {item : ItemSummary} (hi : c.program.Declares file ns item)
    (ht : c.program.declTable.get? (ns.child item.name) = none) (hp : c'.program = c.program.register file ns item)
    (hq : c'.stage = .due c.program.nextDecl ∨
      (item.isRoot = true → .analyze c.program.nextDecl ∈ c'.engine.queue.items)) :
    c.Turns c' x (c.program.decl? x) r ((c.program.register file ns item).decl? x) r := by
  rw [Program.decl?_register]
  split
  · next hx =>
    subst hx
    exact .fresh rfl hi ht hp hq
  · exact same

end Config.Turns

lemma Program.decl?_modifyDecl_twice (p : Program) (d x : DeclId) (f g : Decl → Decl) :
    ((p.modifyDecl d f).modifyDecl d g).decl? x = if d = x then (p.decl? x).map (g ∘ f) else p.decl? x := by
  rw [decl?_modifyDecl, decl?_modifyDecl]
  split
  · exact Option.map_map ..
  · rfl

/-! Marks and deletions. -/

inductive Engine.Touches (uses : DeclId → Prop) (marked : Prop) :
    Option Decl → Option Diagnostic → Option Decl → Option Diagnostic → Prop
  | absent {r} : Touches uses marked none r none r
  | wired {D r} (deps dependants : OrdSet DeclId) (isDoomed : Bool) (hd : ∀ y ∈ deps, y ∈ D.deps ∨ uses y) :
      Touches uses marked (some D) r (some { D with deps, dependants, isDoomed }) r
  | marked {D r} (deps dependants : OrdSet DeclId) (isDoomed : Bool)
      (hd : ∀ y ∈ deps, y ∈ D.deps ∨ uses y) (h : marked) :
      Touches uses marked (some D) r (some { D with state := .outdated, deps, dependants, isDoomed }) none

namespace Engine.Touches
variable {u : DeclId → Prop} {k k' k'' : Prop} {x : DeclId} {o o' o'' : Option Decl} {r r' r'' : Option Diagnostic}

lemma refl : Touches u k o r o r := by
  cases o with
  | none => exact .absent
  | some D => exact .wired D.deps D.dependants D.isDoomed fun _ => .inl

lemma trans (h : Touches u k o r o' r') (hk : k → k'') (h' : Touches u k' o' r' o'' r'') (hk' : k' → k'') :
    Touches u k'' o r o'' r'' := by
  cases h with
  | absent =>
    cases h'
    exact .absent
  | wired _ _ _ hd =>
    cases h' with
    | wired _ _ _ hd' => exact .wired _ _ _ fun y hy => (hd' y hy).elim (hd y) .inr
    | marked _ _ _ hd' h => exact .marked _ _ _ (fun y hy => (hd' y hy).elim (hd y) .inr) (hk' h)
  | marked _ _ _ hd h =>
    cases h' with
    | wired _ _ _ hd' | marked _ _ _ hd' => exact .marked _ _ _ (fun y hy => (hd' y hy).elim (hd y) .inr) (hk h)

lemma ofRewired {p p' : Program} (h : p.Rewired p') (hd : ∀ y, y ∈ p'.depsOf x → y ∈ p.depsOf x ∨ u y) :
    Touches u k (p.decl? x) (p.record? x) (p'.decl? x) (p'.record? x) := by
  simp only [Program.mem_depsOf] at hd
  rw [Program.record?, Program.record?, h.failedDecls]
  revert hd
  refine (h.decl x).elim (fun _ => .absent) fun D D' hw hd => ?_
  cases hw
  refine .wired _ _ _ fun y hy => (hd y ⟨_, rfl, hy⟩).imp_left ?_
  rintro ⟨_, hD, hy⟩
  cases hD
  exact hy

lemma release (p : Program) (d : DeclId) :
    Touches u k (p.decl? x) (p.record? x) ((p.release d).decl? x) ((p.release d).record? x) :=
  ofRewired (p.release_rewired d) fun _ h => .inl (Program.mem_depsOf_release.1 h).1

lemma detach (p : Program) (d : DeclId) (D : Decl) :
    Touches u k (p.decl? x) (p.record? x) ((p.detach d D).decl? x) ((p.detach d D).record? x) := by
  unfold Program.detach
  dsimp only
  split <;> exact refl

lemma markOutdated (e : Engine) (d : DeclId) :
    Touches u (d = x ∧ (e.markOutdated d).Lists x) (e.program.decl? x) (e.program.record? x)
      ((e.markOutdated d).program.decl? x) ((e.markOutdated d).program.record? x) := by
  obtain ⟨he, -⟩ | ⟨D, hD, -, he⟩ := e.markOutdated_cases d <;> rw [he]
  · exact refl
  · show Touches _ _ _ _ ((e.program.modifyDecl d _).decl? x) ((e.program.failedDecls.erase d).get? x)
    rw [Program.decl?_modifyDecl, Dict.get?_erase]
    split
    · next hx =>
      subst hx
      rw [hD]
      exact .marked _ _ _ (fun _ => .inl) ⟨rfl, lists_push ..⟩
    · exact refl

lemma turns {c c' : Config} (h : Touches u k o r o' r') (hu : ∀ y, u y → c.stage = .due y ∧ c.Innermost x)
    (hk : k → (c.stage.isOpening = true ∧ c'.stage.isOpening = true ∧ c.Unsettles c' x) ∧ c'.engine.Lists x) :
    c.Turns c' x o r o' r' := by
  cases h with
  | absent => exact .absent (.inl rfl)
  | wired _ _ _ hd => exact .kept (.wired _ _ _ fun y hy => (hd y hy).imp_right (hu y))
  | marked _ _ _ hd h => exact .kept (.marked _ _ _ (fun y hy => (hd y hy).imp_right (hu y)) (hk h).2 (.inl (hk h).1))

end Engine.Touches

lemma Engine.deleteDecl_touches {e : Engine} {d : DeclId} {D : Decl} (hD : e.program.decl? d = some D) (x : DeclId) :
    ∃ e₁ : Engine, Touches (fun _ => False) (e₁.Lists x ∧ x ∈ e.program.dependantsOf d) (e.program.decl? x)
      (e.program.record? x) (e₁.program.decl? x) (e₁.program.record? x) ∧
        e.deleteDecl d = e₁.modifyProgram (·.forget d D) := by
  refine deleteDecl_through (fun hw hd h => ?_) (fun {e'} y hy h => ?_) hD (.detach ..)
  · refine h.trans (fun ⟨⟨hq, hr⟩, hu⟩ => ⟨⟨hq, ?_⟩, hu⟩) (.ofRewired hw fun y h => .inl (hd x y h)) False.elim
    rwa [hw.report]
  · exact h.trans (fun ⟨hl, hu⟩ => ⟨hl.markOutdated y, hu⟩) (.markOutdated e' y) fun ⟨hx, hl⟩ => ⟨hl, hx ▸ hy⟩

lemma Engine.deleteDecl_rel {R : Decl → Decl → Prop}
    (hR : ∀ D deps dependants isDoomed state, R D { D with deps, dependants, isDoomed, state }) (e : Engine)
    {d x : DeclId}
    (hx : x ≠ d) : Option.Rel R (e.program.decl? x) ((e.deleteDecl d).program.decl? x) := by
  cases hD : e.program.decl? d with
  | none =>
    rw [deleteDecl_of_none hD]
    cases e.program.decl? x with
    | none => exact .none
    | some D => exact .some (hR D ..)
  | some D =>
    obtain ⟨e₁, ht, he⟩ := deleteDecl_touches hD x
    have hother : (e₁.program.forget d D).decl? x = e₁.program.decl? x :=
      (e₁.program.decl?_forget d x D).trans (if_neg hx.symm)
    rw [he, modifyProgram, hother]
    generalize e.program.decl? x = o, e₁.program.decl? x = o', e.program.record? x = r,
      e₁.program.record? x = r' at ht ⊢
    cases ht with
    | absent => exact .none
    | wired | marked => exact .some (hR ..)

/-! The moves that do more to a declaration than change a part of it. -/

namespace Config.Turns
variable {S : List DeclId} {B : Option (DeclId × Nat)} {e : Engine} {site : Analysis.Site} {file : FileId}
  {untaken gone : List DeclId} {left : List ItemSummary} {todo : List FileId} {ns : NameHash} {item : ItemSummary}
  {d x : DeclId} {D : Decl}

lemma fail (hs : Stands S B site) (span : Span) (cause : Cause) :
    Turned ⟨.working, S, B, e⟩ ⟨.failing, S, B, e.modifyProgram (·.fail site.scope span cause)⟩ x := by
  show Turns _ _ x _ _ ((e.program.fail ..).decl? x) ((e.program.fail ..).record? x)
  cases hs with
  | decl ho hf =>
    rw [Program.fail_decl ho hf]
    exact .record _ _ (fun D _ => .failed _ (.inl rfl) rfl rfl rfl) fun _ => ⟨rfl, .inl rfl⟩
  | body ho hf =>
    rw [Program.fail_body ho hf]
    exact .record _ _ (fun D _ => .failedBody _ rfl rfl rfl rfl) fun _ => ⟨rfl, .inr ⟨rfl, _, rfl⟩⟩

lemma depend (hs : Stands S B site) :
    Turned ⟨.working, S, B, e⟩ ⟨.failing, S, B, e.modifyProgram (·.dependencyFailed site)⟩ x := by
  show Turns _ _ x _ _ ((e.program.dependencyFailed _).decl? x) ((e.program.dependencyFailed _).record? x)
  cases hs with
  | decl ho hf =>
    rw [Program.dependencyFailed_decl hf]
    exact .settle fun D _ hs => .depended rfl hs
  | body ho hf =>
    rw [Program.dependencyFailed_body hf]
    exact .modify fun D _ => .dependedBody rfl rfl rfl rfl

lemma outdate (hd : e.program.decl? d = some D) (hs : D.state.isUnsettled = false)
    (hg : D.generation ≠ e.program.generation) : Turned ⟨.working, S, B, e⟩ ⟨.working, S, B, e.markOutdated d⟩ x := by
  obtain ⟨he, -⟩ | ⟨-, -, -, he⟩ := e.markOutdated_cases d <;> rw [he]
  · exact .same
  · refine .change ({ · with state := .outdated }) (fun _ => none) (Program.decl?_modifyDecl ..) (Dict.get?_erase ..)
      (fun D' hD' => ?_) fun hn => ?_
    · cases hd.symm.trans hD'
      exact .marked _ _ _ (fun _ => .inl) (Engine.lists_push ..) (.inr ⟨rfl, hs, hg⟩)
    · rw [hd] at hn
      cases hn

lemma refresh (hi : e.program.Declares file ns item) (ht : e.program.declTable.get? (ns.child item.name) = some d)
    (hd : e.program.decl? d = some D) (hu : d ∈ untaken) :
    Turned ⟨.reconciling file untaken (some (item :: left)) todo, [], none, e⟩
      ⟨.reconciling file gone (some left) todo, [], none, e.refresh d D item⟩ x := by
  have moved {c' : Config} (hst' : c'.stage.isOpening = true) (hs : D.contents = item.hash ∨ D.state = .outdated ∨
        D.state = .unreferenced ∧ (item.isRoot = true → .analyze d ∈ c'.engine.queue.items)) :
      Turns ⟨.reconciling file untaken (some (item :: left)) todo, [], none, e⟩ c' x (e.program.decl? x)
        (e.program.record? x) ((e.program.modifyDecl d (.reread item)).decl? x) (e.program.record? x) := by
    refine .modify fun D' hD' => ?_
    cases hd.symm.trans hD'
    exact .reread rfl hst' hi hs hu rfl ht
  unfold Engine.refresh
  dsimp only
  split
  · split
    · next hs =>
      split
      · exact moved rfl (.inr (.inr ⟨hs, fun _ => List.mem_concat_self⟩))
      · next hr => exact moved rfl (.inr (.inr ⟨hs, fun h => absurd h hr⟩))
    · obtain ⟨he, hs⟩ | ⟨D', hD', -, he⟩ := (e.modifyProgram (·.modifyDecl d (.reread item))).markOutdated_cases d <;>
        rw [he]
      · exact moved rfl (.inr (.inl (hs (D.reread item) (Program.decl?_modifyDecl_of hd))))
      · refine .change (fun D => { D.reread item with state := .outdated }) (fun _ => none) ?_ (Dict.get?_erase ..)
          (fun D' _ => ?_) fun hn => ?_
        · exact Program.decl?_modifyDecl_twice ..
        · exact .rereadMarked rfl rfl (Engine.lists_push ..) hu rfl hi ht
        · rw [hd] at hn
          cases hn
  · next hs => split <;> exact moved rfl (.inl (not_not.1 hs))

lemma drop : Turned ⟨.reconciling file (d :: gone) (some []) todo, [], none, e⟩
    ⟨.reconciling file gone (some []) todo, [], none, e.deleteDecl d⟩ x := by
  cases hD : e.program.decl? d with
  | none =>
    rw [Engine.deleteDecl_of_none hD]
    exact .same
  | some D =>
    obtain ⟨e₁, h₁, he⟩ := Engine.deleteDecl_touches hD x
    have hdel : d ∈ (e₁.program.forget d D).report.deleted := by
      rw [(e₁.program.forget_quiet d D).report]
      exact List.mem_concat_self
    rw [he]
    exact .forget hD (.inl ⟨_, _, _, rfl⟩) D rfl rfl rfl (h₁.turns (fun _ => False.elim) fun h =>
      ⟨⟨rfl, rfl, rfl, .inr ⟨_, _, _, _, rfl, h.2, hdel⟩⟩, h.1.forget d D⟩)

lemma drain {rest : List DeclId} (h : e.program.deletionSet = d :: rest) : Turned ⟨.draining, [], none, e⟩
    ⟨.draining, [], none, (e.popped rest).drainStep d⟩ x := by
  obtain ⟨-, he⟩ | ⟨D, -, -, he⟩ | ⟨D, hD, hr, hu, he⟩ :=
    (e.popped rest).drainStep_turns d <;> rw [he]
  · exact .same
  · exact .modify fun D _ => .wired _ _ _ fun _ h => .inl h
  · rw [Engine.deleteDecl_of_spared hD hu]
    have spared (p : Program) : Engine.Touches (fun _ => False) False (p.decl? x) (p.record? x)
        ((p.spare d).decl? x) (p.record? x) := by
      refine .ofRewired (.modifyDecl p d fun _ => ⟨_, _, _⟩) fun y h => .inl ?_
      rwa [Program.depsOf_modifyDecl (by exact fun _ => rfl)] at h
    exact .forget hD (.inr ⟨rfl, rfl, h ▸ List.mem_cons_self .., hr, hu⟩) _ rfl rfl rfl
      ((((spared _).trans id (.detach ..) id).trans id (.release ..) id).turns (fun _ => False.elim) False.elim)

end Config.Turns

lemma Move.turns {c c' : Config} (hm : Move c c') (x : DeclId) :
    c.Turns c' x (c.program.decl? x) (c.program.record? x) (c'.program.decl? x) (c'.program.record? x) := by
  cases hm with
  | @quiet st S B e g h =>
    show Config.Turns _ _ x _ _ ((g e.program).decls.get? x) ((g e.program).failedDecls.get? x)
    rw [h.decls, h.failedDecls]
    exact .same
  | rewind => exact .modify fun D _ => .rewound rfl
  | requeue arena => exact .modify fun D _ => .ended arena _ rfl rfl rfl (.inl ⟨rfl, rfl⟩)
  | fail hs span cause => exact .fail hs span cause
  | @failLate d S B e scope hs hty span cause =>
    show Config.Turns _ _ x _ _ ((e.program.fail ..).decl? x) ((e.program.fail ..).record? x)
    cases hs with
    | decl ho hf =>
      rw [Program.fail_decl ho hf]
      exact .record _ _ (fun D _ => .failed _ (.inr ⟨rfl, hty⟩) rfl rfl rfl) fun _ => ⟨rfl, .inl rfl⟩
  | depend hs => exact .depend hs
  | register hi ht => exact .register hi ht rfl (.inl rfl)
  | edge hs =>
    refine (Engine.Touches.ofRewired (Program.addEdge_rewired ..) fun y h => ?_).turns (fun y h => h) False.elim
    refine (Program.mem_depsOf_addEdge.1 h).imp_right fun ⟨hx, hy, _⟩ => ⟨hy ▸ rfl, hx ▸ ?_⟩
    cases hs with
    | decl => exact .inl rfl
    | body => exact .inr ⟨rfl, _, rfl⟩
  | release => exact (Engine.Touches.release ..).turns (fun _ => False.elim) False.elim
  | enter hd h =>
    refine .modify fun D hD => ?_
    cases hd.symm.trans hD
    exact .entered rfl rfl rfl h
  | install hv => exact .modify fun D _ => .installed rfl rfl rfl rfl hv
  | grant link header => cases header <;> exact .modify fun D _ => .granted link rfl rfl rfl
  | withhold hd hr hs cause => exact .refuse hd (.withheld cause rfl rfl rfl hs hr)
  | finish => exact .settle fun D _ hs => .completed rfl rfl hs
  | abandon => exact .settle fun D _ hs => .depended rfl hs
  | outdate hd hs hg => exact .outdate hd hs hg
  | openBody hd ha hv hf =>
    refine .modify fun D hD => ?_
    cases hd.symm.trans hD
    exact .opened rfl rfl rfl rfl ha hv hf
  | closeBody arena body => exact .modify fun D _ => .ended arena _ rfl rfl rfl (.inr (.inl ⟨rfl, rfl, _, rfl⟩))
  | dropBody arena => exact .modify fun D _ => .ended arena _ rfl rfl rfl (.inr (.inr ⟨rfl, rfl, rfl⟩))
  | refuse hd hs hc cause => exact .refuse hd (.refused cause rfl hs hc rfl rfl)
  | retry d => exact (Engine.Touches.markOutdated _ d).turns (fun _ => False.elim) fun h =>
    ⟨⟨rfl, rfl, rfl, .inl ⟨_, rfl⟩⟩, h.2⟩
  | enroll hi ht =>
    dsimp only
    split
    · exact .register hi ht rfl (.inr fun _ => List.mem_concat_self)
    · next hr => exact .register hi ht rfl (.inr fun h => absurd h hr)
  | refresh hi ht hd hu => exact .refresh hi ht hd hu
  | @again file untaken left todo e ns d D item hi ht hd hu =>
    refine .change _ (some <| ·.getD ⟨file, item.src, .redefinition item.name⟩) (Program.decl?_modifyDecl_twice ..)
      (Dict.get?_insertIfNew ..) (fun D _ => .repeated rfl rfl hi ht hu rfl rfl) fun hn => ?_
    rw [hd] at hn
    cases hn
  | drop => exact .drop
  | drain h => exact .drain h
  | _ => exact .same

def Program.Registers (p p' : Program) : Prop :=
  ∃ file ns item, p.Declares file ns item ∧ p.declTable.get? (ns.child item.name) = none ∧ p' = p.register file ns item

namespace Move
variable {c c' : Config} (hm : Move c c') {x : DeclId} {D D' : Decl}
include hm

lemma was (hD' : c'.program.decl? x = some D') :
    (∃ D r', c.program.decl? x = some D ∧ c'.program.record? x = r' ∧ D.Turn c c' x (c.program.record? x) D' r') ∨
      ∃ file ns item, x = c.program.nextDecl ∧ c.program.Declares file ns item ∧
        c.program.declTable.get? (ns.child item.name) = none ∧ c'.program = c.program.register file ns item ∧
        (c'.stage = .due x ∨ (item.isRoot = true → .analyze x ∈ c'.engine.queue.items)) ∧
        D' = c.program.entry file ns item := by
  have h := hm.turns x
  rw [hD'] at h
  generalize c.program.decl? x = o, c.program.record? x = r, c'.program.record? x = r' at h ⊢
  cases h with
  | kept h => exact .inl ⟨_, _, rfl, rfl, h⟩
  | fresh hx hi ht hp hq => exact .inr ⟨_, _, _, hx, hi, ht, hp, hq, rfl⟩

lemma becomes (hD : c.program.decl? x = some D) (hx : x < c.program.nextDecl) :
    (∃ D' r', c'.program.decl? x = some D' ∧ c'.program.record? x = r' ∧ D.Turn c c' x (c.program.record? x) D' r') ∨
      c'.program.decl? x = none ∧ c'.program.record? x = none ∧ x ∈ c'.program.report.deleted ∧ c'.stage.isIdle = true ∧
        c.body = none ∧ ((∃ file rest todo, c.stage = .reconciling file (x :: rest) (some []) todo) ∨
          c.stage = .draining ∧ c'.stage = .draining ∧ x ∈ c.program.deletionSet ∧ D.isRoot = false ∧
            D.dependants.elems = []) := by
  have h := hm.turns x
  rw [hD] at h
  generalize c'.program.decl? x = o, c.program.record? x = r, c'.program.record? x = r' at h ⊢
  cases h with
  | kept h => exact .inl ⟨_, _, rfl, rfl, h⟩
  | gone hr hst' hb h => exact .inr ⟨rfl, rfl, hr, hst', hb, h⟩
  | fresh h => exact absurd (h ▸ hx) (Nat.lt_irrefl _)

lemma absent (hD : c.program.decl? x = none) (hD' : c'.program.decl? x = none) :
    c'.program.record? x = c.program.record? x ∨ c'.stage = .failing ∧ c.Innermost x := by
  have h := hm.turns x
  rw [hD, hD'] at h
  generalize c.program.record? x = r, c'.program.record? x = r' at h ⊢
  cases h with
  | absent h => exact h

lemma tracks_or_registers {R : DeclId → Decl → Decl → Prop}
    (hR : ∀ {x D r D' r'}, c.program.decl? x = some D → D.Turn c c' x r D' r' → R x D D') :
    c.program.Tracks R c'.program ∨ c.program.Registers c'.program := by
  by_cases hr : c.program.Registers c'.program
  · exact .inr hr
  · refine .inl fun x D' hD' => ?_
    obtain ⟨D, r', hD, -, h⟩ | ⟨file, ns, item, -, hi, ht, hp, -, -⟩ := hm.was hD'
    · exact ⟨D, hD, hR hD h⟩
    · exact absurd ⟨file, ns, item, hi, ht, hp⟩ hr

end Move

end Frontend
