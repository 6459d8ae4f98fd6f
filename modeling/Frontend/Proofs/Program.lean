import Mathlib.Data.Option.Basic
import Frontend.Reconcile

/-! What the operations on a program do to its declarations. Exports and reports are kept beside them; changes to the
dependency graph rewire declarations and leave all else alone. -/

namespace Option.Rel
variable {α β γ : Type} {R : α → β → Prop} {S : β → γ → Prop} {x : Option α} {y : Option β} {z : Option γ}

@[elab_as_elim] lemma elim {P : Option α → Option β → Prop} (h : Option.Rel R x y) (hn : P .none .none)
    (hs : ∀ a b, R a b → P (.some a) (.some b)) : P x y := by
  cases h with
  | none => exact hn
  | some h => exact hs _ _ h

lemma exists_right {a : α} (h : Option.Rel R x y) (hx : x = .some a) : ∃ b, y = .some b ∧ R a b := by
  subst hx
  cases h with
  | some h => exact ⟨_, rfl, h⟩

lemma exists_left {b : β} (h : Option.Rel R x y) (hy : y = .some b) : ∃ a, x = .some a ∧ R a b := by
  subst hy
  cases h with
  | some h => exact ⟨_, rfl, h⟩

lemma comp {T : α → γ → Prop} (h : Option.Rel R x y) (h' : Option.Rel S y z) (hT : ∀ {a b c}, R a b → S b c → T a c) :
    Option.Rel T x z := by
  cases h with
  | none =>
    cases h'
    exact .none
  | some h =>
    cases h' with
    | some h' => exact .some (hT h h')

end Option.Rel

namespace Frontend

lemma Dict.get?_insertIfNew {κ α : Type} [DecidableEq κ] [LT κ] [DecidableLT κ] (d : Dict κ α) (k j : κ) (a : α) :
    (d.insertIfNew k a).get? j = if k = j then some ((d.get? j).getD a) else d.get? j := by
  unfold insertIfNew contains
  split
  · next h =>
    obtain ⟨b, hb⟩ := Option.isSome_iff_exists.1 h
    split
    · next hk => rw [← hk, hb, Option.getD_some]
    · rfl
  · next h =>
    have hn : d.get? k = none := by simpa using h
    rw [get?_insert]
    split
    · next hk => rw [← hk, hn, Option.getD_none]
    · rfl

abbrev Decl.reread (item : ItemSummary) (D : Decl) : Decl := { D with
  index := item.index, src := item.src, isRoot := item.isRoot, line := item.line, contents := item.hash }

def Backend.rules : Backend → List ((BackendHook × String) × BackendError)
  | silent => []
  | recording r => r.rules

def Backend.link? : Backend → DeclId → Option Nat
  | silent, _ => none
  | recording r, d => r.links.get? d

namespace Backend

@[simp] lemma rules_call (b : Backend) (hook : BackendHook) (entry : BackendCall) (d : Decl) :
    (b.call hook entry d).2.rules = b.rules := by cases b <;> rfl

@[simp] lemma rules_free (b : Backend) (d : Decl) : (b.free d).rules = b.rules := by cases b <;> rfl

lemma rules_allocate (b : Backend) (d : Decl) : (b.allocate d).2.rules = b.rules := by
  cases b with
  | silent => rfl
  | recording r =>
    unfold allocate
    dsimp only
    split
    · rfl
    · split <;> rfl

lemma link?_of_allocate {b b' : Backend} {d : Decl} {link : Nat} (h : b.allocate d = (.ok link, b')) :
    b' = silent ∨ b'.link? d.id = some link := by
  cases b with
  | silent =>
    cases h
    exact .inl rfl
  | recording r =>
    right
    unfold allocate at h
    dsimp only at h
    split at h
    · cases h
    · split at h
      · next hl =>
        cases h
        exact hl
      · cases h
        exact (Dict.get?_insert ..).trans (if_pos rfl)

@[simp] lemma link?_free (b : Backend) (d : Decl) (x : DeclId) :
    (b.free d).link? x = if d.id = x then none else b.link? x := by
  cases b with
  | silent => simp [free, link?]
  | recording r => exact Dict.get?_erase ..

lemma lookup_of_allocate {b b' : Backend} {d : Decl} {error : BackendError}
    (h : b.allocate d = (.error error, b')) : b.rules.lookup (.allocate, d.name) = some error := by
  cases b with
  | silent => cases h
  | recording r =>
    unfold allocate at h
    dsimp only at h
    split at h
    · next he =>
      cases h
      exact he
    · split at h <;> cases h

end Backend

structure Program.Alike (p p' : Program) : Prop where
  options : p'.options = p.options
  rules : p'.backend.rules = p.backend.rules
  nextFile : p'.nextFile = p.nextFile

lemma Program.Alike.refl (p : Program) : p.Alike p := ⟨rfl, rfl, rfl⟩

lemma Program.Alike.trans {p p' p'' : Program} (h : p.Alike p') (h' : p'.Alike p'') : p.Alike p'' :=
  ⟨h'.options.trans h.options, h'.rules.trans h.rules, h'.nextFile.trans h.nextFile⟩

structure Program.Quiet (p p' : Program) : Prop where
  decls : p'.decls = p.decls
  nextDecl : p'.nextDecl = p.nextDecl
  declTable : p'.declTable = p.declTable
  units : p'.units = p.units
  failedDecls : p'.failedDecls = p.failedDecls
  failedFiles : p'.failedFiles = p.failedFiles
  deletionSet : p'.deletionSet = p.deletionSet
  generation : p'.generation = p.generation
  report : p'.report = p.report
  alike : p.Alike p'

namespace Program

lemma Quiet.refl (p : Program) : p.Quiet p := ⟨rfl, rfl, rfl, rfl, rfl, rfl, rfl, rfl, rfl, .refl p⟩

lemma Quiet.trans {p p' p'' : Program} (h : p.Quiet p') (h' : p'.Quiet p'') : p.Quiet p'' :=
  ⟨h'.decls.trans h.decls, h'.nextDecl.trans h.nextDecl, h'.declTable.trans h.declTable, h'.units.trans h.units,
    h'.failedDecls.trans h.failedDecls, h'.failedFiles.trans h.failedFiles, h'.deletionSet.trans h.deletionSet,
    h'.generation.trans h.generation, h'.report.trans h.report, h.alike.trans h'.alike⟩

lemma removeExport_quiet (p : Program) (id : ExportId) : p.Quiet (p.removeExport id) := by
  unfold removeExport
  split
  · exact .refl p
  · exact ⟨rfl, rfl, rfl, rfl, rfl, rfl, rfl, rfl, rfl, rfl, rfl, rfl⟩

lemma foldl_removeExport_quiet (ids : List ExportId) (p : Program) : p.Quiet (ids.foldl removeExport p) :=
  ids.foldlRecOn _ (.refl p) fun q h id _ => h.trans (q.removeExport_quiet id)

lemma removeOwnedExports_quiet (p : Program) (d : DeclId) : p.Quiet (p.removeOwnedExports d) :=
  foldl_removeExport_quiet _ p

lemma foldl_removeExport_backend (ids : List ExportId) (p : Program) :
    (ids.foldl removeExport p).backend = p.backend := by
  induction ids generalizing p with
  | nil => rfl
  | cons id ids ih =>
    rw [List.foldl_cons, ih]
    unfold removeExport
    split <;> rfl

lemma removeOwnedExports_backend (p : Program) (d : DeclId) : (p.removeOwnedExports d).backend = p.backend :=
  foldl_removeExport_backend _ p

lemma removeExportsOf_quiet (p : Program) (d : DeclId) : p.Quiet (p.removeExportsOf d) :=
  foldl_removeExport_quiet _ p

lemma forget_quiet (p : Program) (d : DeclId) (D : Decl) :
    ({ p with
      decls := p.decls.erase d
      failedDecls := p.failedDecls.erase d
      report := { p.report with deleted := p.report.deleted ++ [d] } } : Program).Quiet (p.forget d D) := by
  have h := ({ p with failedDecls := p.failedDecls.erase d }.removeOwnedExports_quiet d).trans
    (removeExportsOf_quiet _ d)
  exact ⟨congrArg (·.erase d) h.decls, h.nextDecl, h.declTable, h.units, h.failedDecls, h.failedFiles, h.deletionSet,
    h.generation, congrArg (fun r : Report => { r with deleted := r.deleted ++ [d] }) h.report, h.alike.options,
    (Backend.rules_free ..).trans h.alike.rules, h.alike.nextFile⟩

lemma decl?_forget (p : Program) (d x : DeclId) (D : Decl) :
    (p.forget d D).decl? x = if d = x then none else p.decl? x := by
  rw [decl?, (p.forget_quiet d D).decls, Dict.get?_erase, decl?]

end Program

inductive Decl.Rewired (D : Decl) : Decl → Prop
  | mk (deps dependants : OrdSet DeclId) (isDoomed : Bool) : Rewired D { D with deps, dependants, isDoomed }

namespace Decl.Rewired
variable {D D' D'' : Decl}

lemma refl (D : Decl) : D.Rewired D := ⟨D.deps, D.dependants, D.isDoomed⟩

lemma trans (h : D.Rewired D') (h' : D'.Rewired D'') : D.Rewired D'' := by
  cases h
  cases h'
  exact ⟨_, _, _⟩

end Decl.Rewired

namespace Program
variable {p p' p'' : Program} {d x : DeclId} {D : Decl} {f : Decl → Decl}

lemma decl?_modifyDecl (p : Program) (d x : DeclId) (f : Decl → Decl) :
    (p.modifyDecl d f).decl? x = if d = x then (p.decl? x).map f else p.decl? x :=
  Dict.get?_modify p.decls d x f

@[simp] lemma decl?_modifyDecl_self (p : Program) (d : DeclId) (f : Decl → Decl) :
    (p.modifyDecl d f).decl? d = (p.decl? d).map f := by
  rw [decl?_modifyDecl, if_pos rfl]

lemma decl?_modifyDecl_of (hD : p.decl? d = some D) : (p.modifyDecl d f).decl? d = some (f D) :=
  (decl?_modifyDecl_self ..).trans (congrArg _ hD)

lemma decl?_modifyDecl_of_ne (h : d ≠ x) : (p.modifyDecl d f).decl? x = p.decl? x := by
  rw [decl?_modifyDecl, if_neg h]

lemma exists_of_decl?_modifyDecl (h : (p.modifyDecl d f).decl? x = some D) :
    ∃ D₀, p.decl? x = some D₀ ∧ D = if d = x then f D₀ else D₀ := by
  rw [decl?_modifyDecl] at h
  split at h
  · next hx =>
    obtain ⟨D₀, h₀, rfl⟩ := Option.map_eq_some_iff.1 h
    exact ⟨D₀, h₀, (if_pos hx).symm⟩
  · next hx => exact ⟨D, h, (if_neg hx).symm⟩

lemma decl?_modifyDecl_rel {R : Decl → Decl → Prop} (hrefl : ∀ D, R D D) (hf : ∀ D, R D (f D)) (x : DeclId) :
    Option.Rel R (p.decl? x) ((p.modifyDecl d f).decl? x) := by
  rw [decl?_modifyDecl]
  cases p.decl? x with
  | none => split <;> exact .none
  | some D =>
    split
    · exact .some (hf D)
    · exact .some (hrefl D)

abbrev entry (p : Program) (file : FileId) (ns : NameHash) (item : ItemSummary) : Decl := {
  id := p.nextDecl, name := item.name, nameHash := ns.child item.name, file, index := item.index, src := item.src,
  line := item.line, contents := item.hash, generation := p.generation, isRoot := item.isRoot }

section
variable {file : FileId} {ns : NameHash} {item : ItemSummary}

lemma decl?_register :
    (p.register file ns item).decl? x = if p.nextDecl = x then some (p.entry file ns item) else p.decl? x :=
  Dict.get?_insert ..

lemma decl?_register_of_lt (hd : d < p.nextDecl) : (p.register file ns item).decl? d = p.decl? d := by
  rw [decl?_register, if_neg (Nat.ne_of_gt hd)]

lemma decl?_register_cases (h : (p.register file ns item).decl? x = some D) :
    p.decl? x = some D ∧ x ≠ p.nextDecl ∨ x = p.nextDecl ∧ D = p.entry file ns item := by
  rw [decl?_register] at h
  split at h
  · next hx =>
    cases h
    exact .inr ⟨hx.symm, rfl⟩
  · next hx => exact .inl ⟨h, fun h => hx h.symm⟩

end

lemma decl?_modifyDecl_cases {D' : Decl} (h : (p.modifyDecl d f).decl? x = some D') :
    x = d ∧ (∃ D, p.decl? d = some D ∧ D' = f D) ∨ x ≠ d ∧ p.decl? x = some D' := by
  obtain ⟨D, hD, rfl⟩ := exists_of_decl?_modifyDecl h
  split
  · next hx =>
    subst hx
    exact .inl ⟨rfl, D, hD, rfl⟩
  · next hx => exact .inr ⟨Ne.symm hx, hD⟩

def Tracks (R : DeclId → Decl → Decl → Prop) (p p' : Program) : Prop :=
  ∀ d D', p'.decl? d = some D' → ∃ D, p.decl? d = some D ∧ R d D D'

namespace Tracks
variable {R : DeclId → Decl → Decl → Prop}

lemma ofDecls (hR : ∀ d D, R d D D) (h : p'.decls = p.decls) : Tracks R p p' := by
  intro d D' hD'
  rw [decl?, h] at hD'
  exact ⟨D', hD', hR d D'⟩

lemma modifyDecl (hR : ∀ d D, R d D D) (hf : ∀ D, p.decl? d = some D → R d D (f D)) :
    Tracks R p (p.modifyDecl d f) := by
  intro x D' hD'
  obtain ⟨D, hD, rfl⟩ := exists_of_decl?_modifyDecl hD'
  refine ⟨D, hD, ?_⟩
  split
  · next hx =>
    subst hx
    exact hf D hD
  · exact hR x D

end Tracks

structure Rewired (p p' : Program) : Prop where
  decl : ∀ d, Option.Rel Decl.Rewired (p.decl? d) (p'.decl? d)
  rest : p' = { p with decls := p'.decls, deletionSet := p'.deletionSet }

namespace Rewired

lemma refl (p : Program) : p.Rewired p where
  decl d := by
    cases p.decl? d with
    | none => exact .none
    | some D => exact .some (.refl D)
  rest := rfl

lemma trans (h : p.Rewired p') (h' : p'.Rewired p'') : p.Rewired p'' where
  decl d := (h.decl d).comp (h'.decl d) .trans
  rest := by
    rw [h'.rest, h.rest]

lemma modifyDecl (p : Program) (d : DeclId) (hf : ∀ D : Decl, D.Rewired (f D)) : p.Rewired (p.modifyDecl d f) where
  decl := decl?_modifyDecl_rel .refl hf
  rest := rfl

lemma foldl {α : Type} {g : Program → α → Program}
    (hg : ∀ (p : Program) a, p.Rewired (g p a)) (as : List α) (p : Program) :
    p.Rewired (as.foldl g p) :=
  as.foldlRecOn _ (.refl p) fun q h a _ => h.trans (hg q a)

variable (h : p.Rewired p')
include h

lemma exists_of_decl? (hd : p'.decl? d = some D) : ∃ D₀, p.decl? d = some D₀ ∧ D₀.Rewired D :=
  (h.decl d).exists_left hd

lemma exists_decl? (hd : p.decl? d = some D) : ∃ D₁, p'.decl? d = some D₁ ∧ D.Rewired D₁ :=
  (h.decl d).exists_right hd

lemma units : p'.units = p.units := by rw [h.rest]

lemma nextDecl : p'.nextDecl = p.nextDecl := by rw [h.rest]

lemma generation : p'.generation = p.generation := by rw [h.rest]

lemma failedDecls : p'.failedDecls = p.failedDecls := by rw [h.rest]

lemma report : p'.report = p.report := by rw [h.rest]

lemma alike : p.Alike p' := by
  rw [h.rest]
  exact ⟨rfl, rfl, rfl⟩

end Rewired

lemma addEdge_rewired (p : Program) (a b : DeclId) : p.Rewired (p.addEdge a b) := by
  unfold addEdge
  split
  · exact .refl p
  · exact (Rewired.modifyDecl p a fun _ => ⟨_, _, _⟩).trans (.modifyDecl _ b fun _ => ⟨_, _, _⟩)

lemma removeEdge_rewired (p : Program) (a b : DeclId) : p.Rewired (p.removeEdge a b) :=
  (Rewired.modifyDecl p a fun _ => ⟨_, _, _⟩).trans (.modifyDecl _ b fun _ => ⟨_, _, _⟩)

lemma clearEdges_rewired (p : Program) (a : DeclId) : p.Rewired (p.clearEdges a) :=
  .foldl (fun p b => p.removeEdge_rewired a b) _ p

lemma doom_rewired (p : Program) (d : DeclId) : p.Rewired (p.doom d) := by
  unfold doom
  split
  · exact .refl p
  · split
    · exact ⟨(Rewired.modifyDecl p d fun _ => ⟨_, _, true⟩).decl, rfl⟩
    · exact .refl p

lemma release_rewired (p : Program) (a : DeclId) : p.Rewired (p.release a) :=
  (p.clearEdges_rewired a).trans (.foldl doom_rewired _ _)

abbrev spare (p : Program) (d : DeclId) : Program := p.modifyDecl d ({ · with isDoomed := false })

end Program

namespace Engine
variable {e : Engine} {d x : DeclId} {D : Decl}

lemma markOutdated_cases (e : Engine) (d : DeclId) :
    (e.markOutdated d = e ∧ ∀ D, e.program.decl? d = some D → D.state = .outdated) ∨
      ∃ D, e.program.decl? d = some D ∧ D.state ≠ .outdated ∧
        e.markOutdated d = (e.modifyProgram (·.outdate d)).push (.analyze d) := by
  unfold markOutdated
  cases hd : e.program.decl? d with
  | none => exact .inl ⟨rfl, fun D h => nomatch h⟩
  | some D =>
    by_cases hs : D.state = .outdated
    · refine .inl ⟨if_pos hs, fun D' h => ?_⟩
      cases h
      exact hs
    · exact .inr ⟨D, rfl, hs, if_neg hs⟩

lemma markOutdated_rule {P : Program → Prop} (h : P e.program) (ho : P (e.program.outdate d)) :
    P (e.markOutdated d).program := by
  obtain ⟨he, -⟩ | ⟨D, -, -, he⟩ := e.markOutdated_cases d <;> rw [he]
  · exact h
  · exact ho

lemma refresh_rule {P : Program → Prop} {item : ItemSummary} (h : P (e.program.modifyDecl d (.reread item)))
    (hm : ∀ e : Engine, P e.program → P (e.markOutdated d).program) : P (e.refresh d D item).program := by
  unfold refresh
  dsimp only
  split
  · split
    · split <;> exact h
    · exact hm _ h
  · split <;> exact h

abbrev popped (e : Engine) (rest : List DeclId) : Engine := e.modifyProgram ({ · with deletionSet := rest })

lemma drainStep_rule {P : Program → Prop} (h : P e.program) (hs : P (e.program.spare d))
    (hd : ∀ e : Engine, P e.program → P (e.deleteDecl d).program) : P (e.drainStep d).program := by
  unfold drainStep
  split
  · exact h
  · dsimp only
    split
    · exact hs
    · exact hd _ hs

structure Marks (e e' : Engine) : Prop where
  queue : ∃ more : List WorkItem, e'.queue.items = e.queue.items ++ more ∧ ∀ item ∈ more, ∃ x, item = .analyze x
  units : e'.program.units = e.program.units
  declTable : e'.program.declTable = e.program.declTable
  nextDecl : e'.program.nextDecl = e.program.nextDecl
  generation : e'.program.generation = e.program.generation
  alike : e.program.Alike e'.program

namespace Marks
variable {e' e'' : Engine}

lemma mem_queue (h : e.Marks e') {item : WorkItem} (hi : item ∈ e.queue.items) : item ∈ e'.queue.items := by
  obtain ⟨more, hq, -⟩ := h.queue
  rw [hq]
  exact List.mem_append_left _ hi

lemma ofRewired {p' : Program} (h : e.program.Rewired p') : e.Marks { e with program := p' } where
  queue := ⟨[], (List.append_nil _).symm, fun _ h => nomatch h⟩
  units := h.units
  declTable := by rw [h.rest]
  nextDecl := h.nextDecl
  generation := h.generation
  alike := h.alike

lemma trans (h : e.Marks e') (h' : e'.Marks e'') : e.Marks e'' where
  queue := by
    obtain ⟨more, hq, hm⟩ := h.queue
    obtain ⟨more', hq', hm'⟩ := h'.queue
    refine ⟨more ++ more', by rw [hq', hq, List.append_assoc], fun item hi => ?_⟩
    exact (List.mem_append.1 hi).elim (hm item) (hm' item)
  units := h'.units.trans h.units
  declTable := h'.declTable.trans h.declTable
  nextDecl := h'.nextDecl.trans h.nextDecl
  generation := h'.generation.trans h.generation
  alike := h.alike.trans h'.alike

lemma markOutdated (e : Engine) (d : DeclId) : e.Marks (e.markOutdated d) := by
  obtain ⟨he, -⟩ | ⟨D, hD, -, he⟩ := e.markOutdated_cases d
  · rw [he]
    exact ofRewired (.refl _)
  · rw [he]
    exact ⟨⟨[.analyze d], rfl, fun _ h => ⟨d, List.mem_singleton.1 h⟩⟩, rfl, rfl, rfl, rfl, rfl, rfl, rfl⟩

end Marks

@[simp] lemma markOutdated_units (e : Engine) (d : DeclId) :
    (e.markOutdated d).program.units = e.program.units := (Marks.markOutdated e d).units

end Engine

end Frontend
