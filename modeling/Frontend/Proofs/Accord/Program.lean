import Frontend.Proofs.Lowering
import Frontend.Proofs.Program
import Frontend.Update

/-! Programs that accord: they hold the same declarations, edges, exports and failures, and differ in the places of
texts, in the positions of items, and in how the units are given. What is done to both in the same way leaves them in
accord. -/

namespace Frontend

open Analysis (Pointwise)

/-! Maps of related values. -/

def Dict.Rel {κ α β : Type} (R : κ → α → β → Prop) (d : Dict κ α) (d' : Dict κ β) : Prop :=
  List.Forall₂ (fun x y => y.1 = x.1 ∧ R x.1 x.2 y.2) d.entries d'.entries

namespace Dict.Rel
variable {κ α β : Type} [DecidableEq κ] {R S : κ → α → β → Prop} {d : Dict κ α} {d' : Dict κ β} {f : α → α} {g : β → β}

omit [DecidableEq κ] in
lemma mono (h : d.Rel R d') (hRS : ∀ k a b, R k a b → S k a b) : d.Rel S d' :=
  List.Forall₂.imp (fun x y hxy => ⟨hxy.1, hRS x.1 x.2 y.2 hxy.2⟩) h

lemma get? (h : d.Rel R d') (k : κ) : Option.Rel (R k) (d.get? k) (d'.get? k) := by
  obtain ⟨xs⟩ := d
  obtain ⟨ys⟩ := d'
  unfold Dict.Rel at h
  unfold Dict.get?
  dsimp only at h ⊢
  induction h with
  | nil => exact .none
  | @cons x y xs ys hxy _ ih =>
    obtain ⟨hk, hR⟩ := hxy
    simp only [lookupIn, hk]
    split
    · next he => exact .some (he ▸ hR)
    · exact ih

lemma contains_eq (h : d.Rel R d') (k : κ) : d'.contains k = d.contains k := Pointwise.isSome_eq (h.get? k)

lemma insert [LT κ] [DecidableLT κ] (h : d.Rel R d') {k : κ} {a : α} {b : β} (hab : R k a b) :
    (d.insert k a).Rel R (d'.insert k b) := by
  obtain ⟨xs⟩ := d
  obtain ⟨ys⟩ := d'
  unfold Dict.Rel at h ⊢
  unfold Dict.insert
  dsimp only at h ⊢
  induction h with
  | nil => exact .cons ⟨rfl, hab⟩ .nil
  | @cons x y xs ys hxy hr ih =>
    obtain ⟨hk, hR⟩ := hxy
    simp only [insertIn, hk]
    split
    · exact .cons ⟨rfl, hab⟩ hr
    · split
      · exact .cons ⟨rfl, hab⟩ (.cons ⟨hk, hR⟩ hr)
      · exact .cons ⟨hk, hR⟩ ih

lemma insertIfNew [LT κ] [DecidableLT κ] (h : d.Rel R d') {k : κ} {a : α} {b : β} (hab : R k a b) :
    (d.insertIfNew k a).Rel R (d'.insertIfNew k b) := by
  unfold Dict.insertIfNew
  rw [h.contains_eq]
  split
  · exact h
  · exact h.insert hab

lemma erase (h : d.Rel R d') (k : κ) : (d.erase k).Rel R (d'.erase k) :=
  List.rel_filter (fun x y hxy => by simp only [hxy.1]) h

omit [DecidableEq κ] in
lemma filter (h : d.Rel R d') {p : α → Bool} {q : β → Bool} (hpq : ∀ k a b, R k a b → q b = p a) :
    (d.filter p).Rel R (d'.filter q) :=
  List.rel_filter (fun x y hxy => by simp only [hpq _ _ _ hxy.2]) h

lemma modifyTo (h : d.Rel R d') (k : κ)
    (hfg : ∀ a b, (k, a) ∈ d.entries → (k, b) ∈ d'.entries → R k a b → S k (f a) (g b))
    (hRS : ∀ j a b, j ≠ k → R j a b → S j a b) : (d.modify k f).Rel S (d'.modify k g) := by
  obtain ⟨xs⟩ := d
  obtain ⟨ys⟩ := d'
  unfold Dict.Rel at h ⊢
  unfold Dict.modify
  dsimp only at h hfg ⊢
  induction h with
  | nil => exact .nil
  | @cons x y xs ys hxy _ ih =>
    refine .cons ?_ (ih fun a b ha hb => hfg a b (List.mem_cons_of_mem _ ha) (List.mem_cons_of_mem _ hb))
    obtain ⟨i, a⟩ := x
    obtain ⟨j, b⟩ := y
    obtain ⟨hk, hR⟩ := hxy
    dsimp only at hk hR ⊢
    subst hk
    split
    · next he =>
      subst he
      exact ⟨rfl, hfg a b List.mem_cons_self List.mem_cons_self hR⟩
    · next he => exact ⟨rfl, hRS _ _ _ he hR⟩

lemma modifyMem (h : d.Rel R d') (k : κ)
    (hfg : ∀ a b, (k, a) ∈ d.entries → (k, b) ∈ d'.entries → R k a b → R k (f a) (g b)) :
    (d.modify k f).Rel R (d'.modify k g) := h.modifyTo k hfg fun _ _ _ _ hab => hab

lemma modify (h : d.Rel R d') (k : κ) (hfg : ∀ a b, R k a b → R k (f a) (g b)) :
    (d.modify k f).Rel R (d'.modify k g) := h.modifyMem k fun a b _ _ hab => hfg a b hab

omit [DecidableEq κ] in
lemma mapValues {γ : Type} (h : d.Rel R d') {f : α → γ} {g : β → γ} (hfg : ∀ k a b, R k a b → g b = f a) :
    d'.values.map g = d.values.map f := by
  obtain ⟨xs⟩ := d
  obtain ⟨ys⟩ := d'
  unfold Dict.Rel at h
  unfold Dict.values
  dsimp only at h ⊢
  induction h with
  | nil => rfl
  | cons hxy _ ih => simp only [List.map_cons, hfg _ _ _ hxy.2, ih]

omit [DecidableEq κ] in
lemma size_eq (h : d.Rel R d') : d'.size = d.size := (List.Forall₂.length_eq h).symm

end Dict.Rel

/-! Accord. -/

/-- In what declarations of two programs may differ. -/
structure Likeness where
  spans : Span → Span → Prop
  numbered : Prop

/-- In what two programs may differ. -/
structure Accord extends Likeness where
  places : FileId → String → Nat → Nat → Prop
  contents : FileId → UnitContent → UnitContent → Prop
  first : Prop
  /-- Declarations that failed before the first analysis, whose items need not correspond. -/
  spoilt : DeclId → Prop
  first_of_spoilt : ∀ d, spoilt d → first

instance : Coe Accord Likeness := ⟨Accord.toLikeness⟩

variable {A : Accord}

structure Diagnostic.Accords (A : Likeness) (x x' : Diagnostic) : Prop where
  file : x'.file = x.file
  span : A.spans x.span x'.span
  cause : x'.cause = x.cause

structure Export.Accords (A : Likeness) (x x' : Export) : Prop where
  id : x'.id = x.id
  symbol : x'.symbol = x.symbol
  src : A.spans x.src x'.src
  owner : x'.owner = x.owner
  exported : x'.exported = x.exported
  status : x'.status = x.status

structure Typed.Arena.Accords (A : Likeness) (a a' : Typed.Arena) : Prop where
  insts : Pointwise (Typed.Inst.Matches False Eq A.spans) a.insts a'.insts
  limit : a'.limit = a.limit

structure Function.Accords (A : Likeness) (f f' : Function) : Prop where
  owner : f'.owner = f.owner
  source : f.source.Like A.spans f'.source
  revision : A.numbered → f'.revision = f.revision
  body : f'.body = f.body
  state : f'.state = f.state

structure DeclValue.Accords (A : Likeness) (v v' : DeclValue) : Prop where
  ty : v'.ty = v.ty
  val : v'.val = v.val
  arena : v.arena.Accords A v'.arena
  func : Option.Rel (Function.Accords A) v.func v'.func

structure Decl.Accords (A : Likeness) (D D' : Decl) : Prop where
  id : D'.id = D.id
  name : D'.name = D.name
  nameHash : D'.nameHash = D.nameHash
  file : D'.file = D.file
  src : A.spans D.src D'.src
  state : D'.state = D.state
  generation : D'.generation = D.generation
  isDoomed : D'.isDoomed = D.isDoomed
  isRoot : D'.isRoot = D.isRoot
  value : Option.Rel (DeclValue.Accords A) D.value D'.value
  link : D'.link = D.link
  deps : D'.deps = D.deps
  dependants : D'.dependants = D.dependants

structure Decl.Corresponds (A : Accord) (d : DeclId) (D D' : Decl) : Prop extends D.Accords A D' where
  place : ¬ A.spoilt d → A.places D.file D.name D.index D'.index
  stuck : A.spoilt d → D.state = .failed
  fresh : A.first → D.state ≠ .outdated

structure SourceUnit.Accords (A : Accord) (file : FileId) (u u' : SourceUnit) : Prop where
  path : u'.path = u.path
  namespaceHash : u'.namespaceHash = u.namespaceHash
  decls : u'.decls = u.decls
  content : A.contents file u.content u'.content
  dirty : u'.dirty = u.dirty
  removed : u'.removed = u.removed

structure ItemSummary.Accords (A : Accord) (file : FileId) (i i' : ItemSummary) : Prop where
  name : i'.name = i.name
  src : A.spans i.src i'.src
  isRoot : i'.isRoot = i.isRoot
  place : A.places file i.name i.index i'.index

inductive BackendCall.Accords (A : Likeness) : BackendCall → BackendCall → Prop
  | allocate {D D'} (h : D.Accords A D') : Accords A (.allocate D) (.allocate D')
  | free {D D'} (h : D.Accords A D') : Accords A (.free D) (.free D')
  | updateExports {D D' xs xs'} (h : D.Accords A D') (hx : List.Forall₂ (Export.Accords A) xs xs') :
      Accords A (.updateExports D xs) (.updateExports D' xs')
  | updateDecl {D D'} (h : D.Accords A D') : Accords A (.updateDecl D) (.updateDecl D')
  | updateLine {D D'} (h : D.Accords A D') : Accords A (.updateLine D) (.updateLine D')
  | emitHeader {D D'} (h : D.Accords A D') : Accords A (.emitHeader D) (.emitHeader D')

structure CallRecord.Accords (A : Likeness) (c c' : CallRecord) : Prop where
  call : c.call.Accords A c'.call
  refusal : c'.refusal = c.refusal

structure Recorder.Accords (A : Likeness) (r r' : Recorder) : Prop where
  calls : List.Forall₂ (CallRecord.Accords A) r.calls r'.calls
  rules : r'.rules = r.rules
  nextLink : r'.nextLink = r.nextLink
  links : r'.links = r.links

inductive Backend.Accords (A : Likeness) : Backend → Backend → Prop
  | silent : Accords A .silent .silent
  | recording {r r'} (h : r.Accords A r') : Accords A (.recording r) (.recording r')

structure Program.Accords (A : Accord) (p p' : Program) : Prop where
  options : p'.options = p.options
  backend : p.backend.Accords A p'.backend
  decls : p.decls.Rel (Decl.Corresponds A) p'.decls
  nextDecl : p'.nextDecl = p.nextDecl
  declTable : p'.declTable = p.declTable
  units : p.units.Rel (SourceUnit.Accords A) p'.units
  nextFile : p'.nextFile = p.nextFile
  failedDecls : p.failedDecls.Rel (fun _ => Diagnostic.Accords A) p'.failedDecls
  failedFiles : p'.failedFiles = p.failedFiles
  failedExports : p.failedExports.Rel (fun _ => Diagnostic.Accords A) p'.failedExports
  exports : p.exports.Rel (fun _ => Export.Accords A) p'.exports
  nextExport : p'.nextExport = p.nextExport
  exportOwners : p'.exportOwners = p.exportOwners
  declExports : p'.declExports = p.declExports
  symbolExports : p'.symbolExports = p.symbolExports
  deletionSet : p'.deletionSet = p.deletionSet
  generation : p'.generation = p.generation
  report : p'.report = p.report
  nextRevision : A.numbered → p'.nextRevision = p.nextRevision
  spoilt {d} : A.spoilt d → d < p.nextDecl

structure Engine.Accords (A : Accord) (e e' : Engine) : Prop where
  program : e.program.Accords A e'.program
  queue : e'.queue = e.queue

/-! Declarations. -/

namespace DeclValue.Accords
variable {v v' : DeclValue}

lemma modifyFunc (h : v.Accords A v') {f g : Function → Function}
    (hfg : ∀ x y, x.Accords A y → (f x).Accords A (g y)) :
    ({ v with func := v.func.map f } : DeclValue).Accords A { v' with func := v'.func.map g } :=
  { h with func := Pointwise.mapRel hfg h.func }

end DeclValue.Accords

namespace Decl.Accords
variable {D D' : Decl}

variable (h : D.Accords A D')
include h

lemma func? : Option.Rel (Function.Accords A) D.func? D'.func? := by
  unfold Decl.func?
  exact h.value.elim .none fun _ _ hv => hv.func

lemma fnState_eq : D'.func?.map Function.state = D.func?.map Function.state := by
  exact h.func?.elim rfl fun _ _ h => congrArg some h.state

lemma isInlineFn_eq : D'.isInlineFn = D.isInlineFn := by
  unfold Decl.isInlineFn
  refine h.func?.elim rfl fun _ _ h => ?_
  simp only [Option.any_some, h.state]

lemma hasBits_eq : D'.hasBits = D.hasBits := by
  unfold Decl.hasBits
  rw [h.isInlineFn_eq]
  refine h.value.elim rfl fun _ _ hv => ?_
  simp only [hv.ty, hv.val]

lemma isInProgress_eq : D'.isInProgress = D.isInProgress := by
  unfold Decl.isInProgress
  rw [h.state]

lemma modifyFunc {f g : Function → Function} (hfg : ∀ x y, x.Accords A y → (f x).Accords A (g y)) :
    (D.modifyFunc f).Accords A (D'.modifyFunc g) :=
  { h with value := Pointwise.mapRel (fun _ _ hv => hv.modifyFunc hfg) h.value }

end Decl.Accords

namespace Decl.Corresponds
variable {D D' : Decl} {d : DeclId}

lemma modifyFunc (h : D.Corresponds A d D') {f g : Function → Function}
    (hfg : ∀ x y, x.Accords A y → (f x).Accords A (g y)) : (D.modifyFunc f).Corresponds A d (D'.modifyFunc g) :=
  { h with toAccords := h.toAccords.modifyFunc hfg }

variable {state : DeclState}

lemma withState (h : D.Corresponds A d D') (hd : ¬ A.spoilt d) (hs : A.first → state ≠ .outdated) :
    ({ D with state } : Decl).Corresponds A d { D' with state } :=
  { h with state := rfl, stuck := fun h => absurd h hd, fresh := hs }

lemma whileRunning (h : D.Corresponds A d D') (hs : state ≠ .outdated) :
    (if D.isInProgress then { D with state } else D : Decl).Corresponds A d
      (if D'.isInProgress then { D' with state } else D') := by
  rw [h.isInProgress_eq]
  split
  · next hp =>
    have hd : ¬ A.spoilt d := fun hd => by
      rw [isInProgress, h.stuck hd] at hp
      cases hp
    exact h.withState hd fun _ => hs
  · exact h

end Decl.Corresponds

/-! The backend. -/

namespace Backend.Accords
variable {b b' : Backend} {D D' : Decl} {entry entry' : BackendCall}

lemma log {r r' : Recorder} (h : r.Accords A r') (he : entry.Accords A entry') (refusal : Option BackendError) :
    (r.log entry refusal).Accords A (r'.log entry' refusal) :=
  { h with calls := List.rel_append h.calls (.cons ⟨he, rfl⟩ .nil) }

lemma call (h : b.Accords A b') (hook : BackendHook) (hD : D.Accords A D') (he : entry.Accords A entry') :
    (b'.call hook entry' D').1 = (b.call hook entry D).1 ∧
      (b.call hook entry D).2.Accords A (b'.call hook entry' D').2 := by
  cases h with
  | silent => exact ⟨rfl, .silent⟩
  | recording hr =>
    unfold Backend.call Recorder.refusal?
    dsimp only
    rw [hr.rules, hD.name]
    exact ⟨rfl, .recording (log hr he _)⟩

lemma allocate (h : b.Accords A b') (hD : D.Accords A D') :
    (b'.allocate D').1 = (b.allocate D).1 ∧ (b.allocate D).2.Accords A (b'.allocate D').2 := by
  cases h with
  | silent => exact ⟨congrArg Except.ok hD.link, .silent⟩
  | @recording r r' hr =>
    have hl (refusal : Option BackendError) := log hr (.allocate hD) refusal
    unfold Backend.allocate Recorder.refusal?
    dsimp only
    rw [hr.rules, hD.name]
    generalize List.lookup (BackendHook.allocate, D.name) r.rules = refusal
    cases refusal with
    | some error => exact ⟨rfl, .recording (hl _)⟩
    | none =>
      dsimp only
      rw [(hl none).links, hD.id]
      split
      · exact ⟨rfl, .recording (hl _)⟩
      · rw [(hl none).nextLink]
        exact ⟨rfl, .recording { hl none with nextLink := rfl, links := rfl }⟩

lemma free (h : b.Accords A b') (hD : D.Accords A D') : (b.free D).Accords A (b'.free D') := by
  cases h with
  | silent => exact .silent
  | @recording r r' hr =>
    have hl := log hr (.free hD) none
    unfold Backend.free
    dsimp only
    rw [hl.links, hD.id]
    exact .recording { hl with links := rfl }

end Backend.Accords

namespace Program.Accords
variable {p p' : Program} {d a b : DeclId}

section

variable (h : p.Accords A p')
include h

lemma decl? (d : DeclId) : Option.Rel (Decl.Corresponds A d) (p.decl? d) (p'.decl? d) := h.decls.get? d

lemma unit? (file : FileId) : Option.Rel (SourceUnit.Accords A file) (p.units.get? file) (p'.units.get? file) :=
  h.units.get? file

lemma any_eq (d : DeclId) {t : Decl → Bool} (ht : ∀ D D', D.Accords A D' → t D' = t D) :
    (p'.decl? d).any t = (p.decl? d).any t := by
  refine (h.decl? d).elim rfl fun _ _ hD => ?_
  simp only [Option.any_some, ht _ _ hD.toAccords]

lemma value? (d : DeclId) :
    Option.Rel (DeclValue.Accords A) ((p.decl? d).bind (·.value)) ((p'.decl? d).bind (·.value)) := by
  exact (h.decl? d).elim .none fun _ _ hD => hD.value

lemma func? (d : DeclId) : Option.Rel (Function.Accords A) (p.func? d) (p'.func? d) := by
  unfold Program.func?
  exact (h.decl? d).elim .none fun _ _ hD => hD.func?

lemma depsOf_eq (d : DeclId) : p'.depsOf d = p.depsOf d := by
  unfold depsOf
  refine (h.decl? d).elim rfl fun _ _ hD => ?_
  simp only [Option.map_some, Option.getD_some, hD.deps]

lemma dependantsOf_eq (d : DeclId) : p'.dependantsOf d = p.dependantsOf d := by
  unfold dependantsOf
  refine (h.decl? d).elim rfl fun _ _ hD => ?_
  simp only [Option.map_some, Option.getD_some, hD.dependants]

/-! Changes of one declaration. -/

lemma modifyDecl (d : DeclId) {f g : Decl → Decl} (hfg : ∀ D D', D.Corresponds A d D' → (f D).Corresponds A d (g D')) :
    (p.modifyDecl d f).Accords A (p'.modifyDecl d g) :=
  { h with decls := h.decls.modify d hfg }

lemma modifyUnit (file : FileId) {f g : SourceUnit → SourceUnit}
    (hfg : ∀ u u', u.Accords A file u' → (f u).Accords A file (g u')) :
    (p.modifyUnit file f).Accords A (p'.modifyUnit file g) :=
  { h with units := h.units.modify file hfg }

lemma withBackend {b b' : Backend} (hb : b.Accords A b') :
    ({ p with backend := b } : Program).Accords A { p' with backend := b' } := { h with backend := hb }

lemma withRevision {n n' : Nat} (hn : A.numbered → n' = n) :
    ({ p with nextRevision := n } : Program).Accords A { p' with nextRevision := n' } := { h with nextRevision := hn }

lemma record (d : DeclId) {x x' : Diagnostic} (hx : x.Accords A x') : (p.record d x).Accords A (p'.record d x') :=
  { h with failedDecls := h.failedDecls.insertIfNew hx }

lemma fail {scope scope' : Scope} (ho : scope.owner?.isSome = true) (ho' : scope'.owner? = scope.owner?)
    (hf : scope'.func? = scope.func?) (hfile : scope'.fileOf = scope.fileOf) {span span' : Span}
    (hs : A.spans span span') (cause : Cause) : (p.fail scope span cause).Accords A (p'.fail scope' span' cause) := by
  obtain ⟨owner, howner⟩ := Option.isSome_iff_exists.1 ho
  have hx : Diagnostic.Accords A ⟨scope.fileOf, span, cause⟩ ⟨scope'.fileOf, span', cause⟩ := ⟨hfile, hs, rfl⟩
  unfold Program.fail
  rw [ho', hf, howner]
  dsimp only
  split
  · refine record (h.modifyDecl _ fun _ _ hD => hD.modifyFunc fun _ _ hf => ?_) _ hx
    exact { hf with state := rfl }
  · refine record (h.modifyDecl _ fun _ _ hD => ?_) _ hx
    exact { hD with
      state := rfl
      generation := h.generation
      stuck := fun _ => rfl
      fresh := nofun }
  · next hn => cases hn

lemma dependencyFailed {site site' : Analysis.Site} (ho : site'.owner = site.owner)
    (hf : site'.scope.func? = site.scope.func?) : (p.dependencyFailed site).Accords A (p'.dependencyFailed site') := by
  unfold Program.dependencyFailed
  rw [hf, ho]
  split
  · refine h.modifyDecl _ fun _ _ hD => hD.modifyFunc fun f f' hf => ?_
    rw [hf.state]
    split
    · exact { hf with state := rfl }
    · exact hf
  · exact h.modifyDecl _ fun _ _ hD => hD.whileRunning nofun

lemma startAnalysis (hd : ¬ A.spoilt d) : (p.startAnalysis d).Accords A (p'.startAnalysis d) := by
  unfold Program.startAnalysis
  refine h.modifyDecl d fun _ _ hD => ?_
  exact { hD with
    state := rfl
    generation := h.generation
    stuck := fun h => absurd h hd
    fresh := nofun }

lemma finishAnalysis (d : DeclId) : (p.finishAnalysis d).Accords A (p'.finishAnalysis d) := by
  unfold Program.finishAnalysis
  rw [h.report]
  exact { h with
    decls := h.decls.modify d fun _ _ hD => hD.whileRunning nofun
    report := rfl }

lemma abandonAnalysis (d : DeclId) : (p.abandonAnalysis d).Accords A (p'.abandonAnalysis d) :=
  h.modifyDecl d fun _ _ hD => hD.whileRunning nofun

lemma refuse (hd : ¬ A.spoilt d) {D D' : Decl} (hD : D.Accords A D') {state : DeclState} (hs : state ≠ .outdated)
    (cause : Cause) : (p.refuse d D state cause).Accords A (p'.refuse d D' state cause) := by
  have hx : Diagnostic.Accords A ⟨D.file, D.src, cause⟩ ⟨D'.file, D'.src, cause⟩ := ⟨hD.file, hD.src, rfl⟩
  exact { h with
    decls := h.decls.modify d fun _ _ hD => hD.withState hd fun _ => hs
    failedDecls := h.failedDecls.insert hx }

lemma finishBody {r r' : Nat}
    (hr : ∀ D D', (d, D) ∈ p.decls.entries → (d, D') ∈ p'.decls.entries → D.Accords A D' →
      D'.func?.any (·.revision == r') = D.func?.any (·.revision == r))
    {a a' : Typed.Arena} (ha : a.Accords A a') {f g : Function → Function}
    (hfg : ∀ x y, x.Accords A y → (f x).Accords A (g y)) :
    (p.finishBody d r a f).Accords A (p'.finishBody d r' a' g) := by
  refine { h with decls := h.decls.modifyMem d fun D D' hm hm' hD => { hD with value := ?_ } }
  have hany := hr D D' hm hm' hD.toAccords
  have hv := hD.value
  unfold Decl.func? at hany
  generalize D.value = v at hv hany
  generalize D'.value = v' at hv hany
  cases hv with
  | none => exact .none
  | some hv =>
    refine .some ?_
    dsimp only [Option.bind_some] at hany ⊢
    rw [hany]
    split
    · exact { hv with arena := ha, func := Pointwise.mapRel hfg hv.func }
    · exact hv

lemma outdate (hA : ¬ A.first) (d : DeclId) : (p.outdate d).Accords A (p'.outdate d) := by
  have hd : ¬ A.spoilt d := fun hd => hA (A.first_of_spoilt d hd)
  unfold Program.outdate
  rw [h.report]
  exact { h with
    decls := h.decls.modify d fun _ _ hD => hD.withState hd fun hf => absurd hf hA
    failedDecls := h.failedDecls.erase d
    report := rfl }

/-! Edges. -/

lemma addEdge (a b : DeclId) : (p.addEdge a b).Accords A (p'.addEdge a b) := by
  unfold Program.addEdge
  rw [h.decls.contains_eq, h.decls.contains_eq]
  split
  · exact h
  · refine (h.modifyDecl a fun _ _ hD => ?_).modifyDecl b fun _ _ hD => ?_
    · exact { hD with deps := by rw [hD.deps] }
    · exact { hD with dependants := by rw [hD.dependants] }

lemma removeEdge (a b : DeclId) : (p.removeEdge a b).Accords A (p'.removeEdge a b) := by
  refine (h.modifyDecl a fun _ _ hD => ?_).modifyDecl b fun _ _ hD => ?_
  · exact { hD with deps := by rw [hD.deps] }
  · exact { hD with dependants := by rw [hD.dependants] }

end

lemma foldl {α : Type} {f g : Program → α → Program}
    (hfg : ∀ q q' x, q.Accords A q' → (f q x).Accords A (g q' x)) (xs : List α) (h : p.Accords A p') :
    (xs.foldl f p).Accords A (xs.foldl g p') :=
  List.rel_foldl (R := Eq) (fun _ _ h x _ hx => hx ▸ hfg _ _ x h) h (List.forall₂_refl xs)

variable (h : p.Accords A p')
include h

lemma clearEdges (a : DeclId) : (p.clearEdges a).Accords A (p'.clearEdges a) := by
  unfold Program.clearEdges
  rw [h.depsOf_eq]
  exact foldl (fun _ _ b h => h.removeEdge a b) _ h

lemma doom (d : DeclId) : (p.doom d).Accords A (p'.doom d) := by
  unfold Program.doom
  refine (h.decl? d).elim h fun _ _ hD => ?_
  dsimp only
  rw [hD.dependants, hD.isDoomed, h.deletionSet]
  split
  · exact { h with
      decls := h.decls.modify d fun _ _ hD => { hD with isDoomed := rfl }
      deletionSet := rfl }
  · exact h

lemma release (a : DeclId) : (p.release a).Accords A (p'.release a) := by
  unfold Program.release
  rw [h.depsOf_eq]
  exact foldl (fun _ _ d h => h.doom d) _ (h.clearEdges a)

/-! Exports. -/

lemma export? (x : ExportId) : Option.Rel (Export.Accords A) (p.exports.get? x) (p'.exports.get? x) := h.exports.get? x

lemma removeExport (x : ExportId) : (p.removeExport x).Accords A (p'.removeExport x) := by
  unfold Program.removeExport
  refine (h.export? x).elim h fun _ _ hx => ?_
  dsimp only
  rw [h.exportOwners, h.declExports, h.symbolExports, hx.owner, hx.exported, hx.symbol]
  exact { h with
    exports := h.exports.erase x
    failedExports := h.failedExports.erase x
    exportOwners := rfl
    declExports := rfl
    symbolExports := rfl }

lemma removeOwnedExports (d : DeclId) : (p.removeOwnedExports d).Accords A (p'.removeOwnedExports d) := by
  unfold Program.removeOwnedExports
  rw [h.exportOwners]
  exact foldl (fun _ _ x h => h.removeExport x) _ h

lemma removeExportsOf (d : DeclId) : (p.removeExportsOf d).Accords A (p'.removeExportsOf d) := by
  unfold Program.removeExportsOf
  rw [h.declExports]
  exact foldl (fun _ _ x h => h.removeExport x) _ h

lemma addExport (symbol : String) {src src' : Span} (hs : A.spans src src') (owner exported : DeclId) :
    (p.addExport symbol src owner exported).Accords A (p'.addExport symbol src' owner exported) := by
  unfold Program.addExport
  dsimp only
  rw [h.nextExport, h.exportOwners, h.declExports]
  exact { h with
    nextExport := rfl
    exports := h.exports.insert ⟨rfl, rfl, hs, rfl, rfl, rfl⟩
    exportOwners := rfl
    declExports := rfl }

lemma setExportStatus (x : ExportId) (status : ExportStatus) :
    (p.setExportStatus x status).Accords A (p'.setExportStatus x status) :=
  { h with exports := h.exports.modify x fun _ _ hx => { hx with status := rfl } }

lemma failExport (x : ExportId) {y y' : Diagnostic} (hy : y.Accords A y') :
    ({ p with failedExports := p.failedExports.insert x y } : Program).Accords A
      { p' with failedExports := p'.failedExports.insert x y' } :=
  { h with failedExports := h.failedExports.insert hy }

lemma claimSymbol (symbol : String) (x : ExportId) :
    ({ p with symbolExports := p.symbolExports.insert symbol x } : Program).Accords A
      { p' with symbolExports := p'.symbolExports.insert symbol x } :=
  { h with symbolExports := by rw [h.symbolExports] }

lemma exportsOf (d : DeclId) : List.Forall₂ (Export.Accords A) (p.exportsOf d) (p'.exportsOf d) := by
  unfold Program.exportsOf
  rw [h.declExports]
  exact List.rel_filterMap (R := Eq) (fun x _ hx => hx ▸ h.export? x) (List.forall₂_refl _)

/-! Registering and deleting. -/

lemma register (file : FileId) (ns : NameHash) {i i' : ItemSummary} (hi : i.Accords A file i') :
    (p.register file ns i).Accords A (p'.register file ns i') := by
  unfold Program.register
  dsimp only
  rw [h.nextDecl, h.declTable, hi.name]
  have hnew : Decl.Corresponds A p.nextDecl
      { id := p.nextDecl, name := i.name, nameHash := ns.child i.name, file, index := i.index, src := i.src,
        line := i.line, contents := i.hash, generation := p.generation, isRoot := i.isRoot }
      { id := p.nextDecl, name := i.name, nameHash := ns.child i.name, file, index := i'.index, src := i'.src,
        line := i'.line, contents := i'.hash, generation := p'.generation, isRoot := i'.isRoot } :=
    { id := rfl, name := rfl, nameHash := rfl, file := rfl, src := hi.src, state := rfl, generation := h.generation,
      isDoomed := rfl, isRoot := hi.isRoot, value := .none, link := rfl, deps := rfl, dependants := rfl,
      place := fun _ => hi.place, stuck := fun hs => absurd (h.spoilt hs) (Nat.lt_irrefl _), fresh := nofun }
  exact { h with
    nextDecl := rfl
    decls := h.decls.insert hnew
    declTable := rfl
    units := h.units.modify file fun _ _ hu => { hu with decls := by rw [hu.decls] }
    spoilt := fun hs => Nat.lt_succ_of_lt (h.spoilt hs) }

lemma detach (d : DeclId) {D D' : Decl} (hD : D.Accords A D') : (p.detach d D).Accords A (p'.detach d D') := by
  have hu : (p.modifyUnit D.file fun u => { u with decls := u.decls.erase d }).Accords A
      (p'.modifyUnit D.file fun u => { u with decls := u.decls.erase d }) :=
    h.modifyUnit D.file fun _ _ hu => { hu with decls := by rw [hu.decls] }
  unfold Program.detach
  dsimp only
  rw [hD.file, hD.nameHash, hu.declTable]
  split
  · exact { hu with declTable := rfl }
  · exact hu

lemma forget (d : DeclId) {D D' : Decl} (hD : D.Accords A D') : (p.forget d D).Accords A (p'.forget d D') := by
  have hc : ({ p with failedDecls := p.failedDecls.erase d } : Program).Accords A
      { p' with failedDecls := p'.failedDecls.erase d } := { h with failedDecls := h.failedDecls.erase d }
  have hx := (hc.removeOwnedExports d).removeExportsOf d
  unfold Program.forget
  dsimp only
  rw [hx.report]
  exact { hx with
    decls := hx.decls.erase d
    backend := hx.backend.free hD
    report := rfl }

end Program.Accords

/-! Engines. -/

namespace Engine.Accords
variable {e e' : Engine} {d : DeclId}

lemma modifyProgram (h : e.Accords A e') {f g : Program → Program}
    (hfg : e.program.Accords A e'.program → (f e.program).Accords A (g e'.program)) :
    (e.modifyProgram f).Accords A (e'.modifyProgram g) := ⟨hfg h.program, h.queue⟩

lemma push (h : e.Accords A e') (item : WorkItem) : (e.push item).Accords A (e'.push item) :=
  ⟨h.program, congrArg (·.push item) h.queue⟩

lemma foldl {α : Type} {f g : Engine → α → Engine}
    (hfg : ∀ q q' x, q.Accords A q' → (f q x).Accords A (g q' x)) (xs : List α) (h : e.Accords A e') :
    (xs.foldl f e).Accords A (xs.foldl g e') :=
  List.rel_foldl (R := Eq) (fun _ _ h x _ hx => hx ▸ hfg _ _ x h) h (List.forall₂_refl xs)

variable (hA : ¬ A.first)
include hA

lemma markOutdated (h : e.Accords A e') (d : DeclId) : (e.markOutdated d).Accords A (e'.markOutdated d) := by
  unfold Engine.markOutdated
  refine (h.program.decl? d).elim h fun _ _ hD => ?_
  dsimp only
  rw [hD.state]
  split
  · exact h
  · exact (h.modifyProgram fun hp => hp.outdate hA d).push _

lemma orphanUser (h : e.Accords A e') (d user : DeclId) : (e.orphanUser d user).Accords A (e'.orphanUser d user) :=
  (h.modifyProgram fun hp => hp.removeEdge user d).markOutdated hA user

lemma deleteDecl (h : e.Accords A e') (d : DeclId) : (e.deleteDecl d).Accords A (e'.deleteDecl d) := by
  unfold Engine.deleteDecl
  refine (h.program.decl? d).elim h fun D D' hD => ?_
  have hr : (e.modifyProgram fun p => (p.detach d D).release d).Accords A
      (e'.modifyProgram fun p => (p.detach d D').release d) :=
    h.modifyProgram fun hp => (hp.detach d hD.toAccords).release d
  dsimp only
  rw [hr.program.dependantsOf_eq]
  exact (foldl (fun _ _ user h => h.orphanUser hA d user) _ hr).modifyProgram fun hp => hp.forget d hD.toAccords

lemma drainStep (h : e.Accords A e') (d : DeclId) : (e.drainStep d).Accords A (e'.drainStep d) := by
  unfold Engine.drainStep
  refine (h.program.decl? d).elim h fun _ _ hD => ?_
  have hm : (e.modifyProgram (·.spare d)).Accords A (e'.modifyProgram (·.spare d)) :=
    h.modifyProgram fun hp => hp.modifyDecl d fun _ _ hD => { hD with isDoomed := rfl }
  dsimp only
  rw [hD.dependants, hD.isRoot]
  split
  · exact hm
  · exact hm.deleteDecl hA d

lemma drainWith (fuel : Nat) (h : e.Accords A e') : (drainWith fuel e).Accords A (drainWith fuel e') := by
  induction fuel generalizing e e' with
  | zero => exact h
  | succ fuel ih =>
    unfold Engine.drainWith
    rw [h.program.deletionSet]
    split
    · exact h
    · refine ih (drainStep hA (h.modifyProgram fun hp => ?_) _)
      exact { hp with deletionSet := rfl }

lemma drain (h : e.Accords A e') : e.drain.Accords A e'.drain := by
  have hedges : e'.program.decls.values.map (·.deps.elems.length) = e.program.decls.values.map (·.deps.elems.length) :=
    h.program.decls.mapValues fun _ _ _ hD => by rw [hD.deps]
  unfold Engine.drain
  rw [hedges, h.program.deletionSet]
  exact h.drainWith hA _

lemma invalidate (h : e.Accords A e') (d : DeclId) : (e.invalidate d).Accords A (e'.invalidate d) := by
  unfold Engine.invalidate
  refine (h.program.decl? d).elim h fun _ _ hD => ?_
  dsimp only
  rw [hD.state, hD.generation, h.program.generation]
  split
  · exact h
  · exact h.markOutdated hA d

end Engine.Accords

end Frontend
