import Frontend.Proofs.Doomed
import Frontend.Proofs.ExportTables

/-! Collecting what is of no use any more. In whatever order the deletion set is worked off, the same declarations go,
and what is left is the same: it can be told from the program before and the declarations that went. -/

namespace Frontend

namespace Program
variable {p p' p'' : Program} {d x : DeclId}

/-! Exports that go. -/

def Culls (gone : ExportId → Bool) (lists lists' : Dict DeclId (List ExportId)) : Prop :=
  ∀ d es, lists'.get? d = some es ↔ ∃ all, lists.get? d = some all ∧ es = all.filter (!gone ·) ∧ es ≠ []

namespace Culls
variable {gone gone' : ExportId → Bool} {lists lists' lists'' : Dict DeclId (List ExportId)}

lemma trans (h : Culls gone lists lists') (h' : Culls gone' lists' lists'') :
    Culls (fun x => gone x || gone' x) lists lists'' := by
  intro d es
  have hfilter (all : List ExportId) :
      (all.filter (!gone ·)).filter (!gone' ·) = all.filter fun x => !(gone x || gone' x) := by
    rw [List.filter_filter]
    refine List.filter_congr fun x _ => ?_
    rw [Bool.not_or, Bool.and_comm]
  rw [h' d es]
  constructor
  · rintro ⟨es', hes', rfl, hne⟩
    obtain ⟨all, hall, rfl, -⟩ := (h d es').1 hes'
    exact ⟨all, hall, hfilter all, hne⟩
  · rintro ⟨all, hall, rfl, hne⟩
    rw [← hfilter] at hne ⊢
    refine ⟨_, (h d _).2 ⟨all, hall, rfl, fun hnil => hne ?_⟩, rfl, hne⟩
    rw [hnil]
    rfl

lemma unique (h : Culls gone lists lists') (h' : Culls gone lists lists'') (d : DeclId) :
    lists''.get? d = lists'.get? d := by
  refine Option.ext fun es => ?_
  rw [h d es, h' d es]

variable {key : Export → DeclId} {exports : Dict ExportId Export} {id : ExportId}

lemma kept (hl : Program.Lists key exports lists) {d : DeclId} {es : List ExportId}
    (hall : ∀ {all}, lists.get? d = some all → all.filter (!gone ·) = all) :
    lists.get? d = some es ↔ ∃ all, lists.get? d = some all ∧ es = all.filter (!gone ·) ∧ es ≠ [] := by
  constructor
  · intro h
    exact ⟨es, h, (hall h).symm, hl.nonempty h⟩
  · rintro ⟨all, h, rfl, -⟩
    rw [hall h]
    exact h

lemma none (hl : Program.Lists key exports lists) (hg : ∀ x, (exports.get? x).isSome = true → gone x = false) :
    Culls gone lists lists := by
  intro d es
  have hall {all : List ExportId} (h : lists.get? d = some all) : all.filter (!gone ·) = all := by
    refine List.filter_eq_self.2 fun x hx => ?_
    obtain ⟨X, hX, -⟩ := hl.listed h hx
    rw [hg x (by rw [hX]; rfl)]
    rfl
  exact kept hl hall

lemma unlist (hl : Program.Lists key exports lists) {X : Export} (hX : exports.get? id = some X) :
    Culls (fun x => decide (x = id)) lists (Program.unlist lists (key X) id) := by
  have hfilter (all : List ExportId) : all.filter (fun x => !decide (x = id)) = all.filter (· ≠ id) := by simp
  intro k es
  rw [get?_unlist]
  split
  · next hk =>
    subst hk
    obtain ⟨all, hall, -⟩ := hl.lists hX
    rw [hall, Option.getD_some]
    constructor
    · rintro ⟨rfl, hne⟩
      exact ⟨all, rfl, (hfilter all).symm, hne⟩
    · rintro ⟨_, he, rfl, hne⟩
      cases he
      rw [hfilter] at hne ⊢
      exact ⟨rfl, hne⟩
  · next hk =>
    have hall {all : List ExportId} (h : lists.get? k = some all) : all.filter (fun x => !decide (x = id)) = all := by
      refine List.filter_eq_self.2 fun x hx => ?_
      obtain ⟨Y, hY, hkey⟩ := hl.listed h hx
      have hne : x ≠ id := by
        rintro rfl
        cases hX.symm.trans hY
        exact hk hkey
      simpa using hne
    exact kept hl hall

end Culls

structure Sheds (gone : ExportId → Bool) (p p' : Program) : Prop where
  exports (x : ExportId) : p'.exports.get? x = if gone x then none else p.exports.get? x
  owners : Culls gone p.exportOwners p'.exportOwners
  targets : Culls gone p.declExports p'.declExports
  symbols (s : String) : p'.symbolExports.get? s = (p.symbolExports.get? s).filter (!gone ·)
  failed : p'.failedExports.entries = p.failedExports.entries.filter (!gone ·.1)
  nextExport : p'.nextExport = p.nextExport

namespace Sheds
variable {gone gone' : ExportId → Bool}

lemma congr (h : Sheds gone p p') (hg : ∀ x, gone' x = gone x) : Sheds gone' p p' := by
  rwa [funext hg]

lemma trans (h : Sheds gone p p') (h' : Sheds gone' p' p'') : Sheds (fun x => gone x || gone' x) p p'' where
  exports x := by
    rw [h'.exports, h.exports]
    cases gone x <;> cases gone' x <;> rfl
  owners := h.owners.trans h'.owners
  targets := h.targets.trans h'.targets
  symbols s := by
    rw [h'.symbols, h.symbols, Option.filter_filter]
    refine congrArg (Option.filter · _) (funext fun x => ?_)
    rw [Bool.not_or, Bool.and_comm]
  failed := by
    rw [h'.failed, h.failed, List.filter_filter]
    refine List.filter_congr fun x _ => ?_
    rw [Bool.not_or, Bool.and_comm]
  nextExport := h'.nextExport.trans h.nextExport

lemma none (h : p.Exported) (hg : ∀ x, (p.exports.get? x).isSome = true → gone x = false) : Sheds gone p p where
  exports x := by
    split
    · next hx =>
      cases hX : p.exports.get? x with
      | none => rfl
      | some X =>
        rw [hg x (by rw [hX]; rfl)] at hx
        cases hx
    · rfl
  owners := .none h.owners hg
  targets := .none h.targets hg
  symbols s := by
    cases hs : p.symbolExports.get? s with
    | none => rfl
    | some x =>
      obtain ⟨X, hX, -⟩ := h.symbols hs
      rw [Option.filter_some, hg x (by rw [hX]; rfl)]
      rfl
  failed := by
    refine (List.filter_eq_self.2 fun entry he => ?_).symm
    obtain ⟨diagnostic, hd⟩ := Dict.exists_get?_of_mem (d := p.failedExports) (k := entry.1) (a := entry.2) he
    rw [hg _ (h.failed hd)]
    rfl
  nextExport := rfl

lemma ofSame (h : Sheds gone p p') (hs : p'.SameExports p'') : Sheds gone p p'' where
  exports := hs.exports ▸ h.exports
  owners := hs.exportOwners ▸ h.owners
  targets := hs.declExports ▸ h.targets
  symbols := hs.symbolExports ▸ h.symbols
  failed := hs.failedExports ▸ h.failed
  nextExport := hs.nextExport.trans h.nextExport

lemma removeExport (h : p.Exported) (id : ExportId) : Sheds (fun x => decide (x = id)) p (p.removeExport id) := by
  unfold Program.removeExport
  split
  · next hn =>
    refine none h fun x hx => decide_eq_false ?_
    rintro rfl
    rw [hn] at hx
    cases hx
  · next X hX =>
    refine ⟨fun x => ?_, .unlist h.owners hX, .unlist h.targets hX, fun s => ?_, ?_, rfl⟩
    · rw [Dict.get?_erase]
      simp [eq_comm]
    · have hsymbol := h.symbolExports_removeExport id s
      rwa [Program.removeExport, hX] at hsymbol
    · show p.failedExports.entries.filter (fun e => e.1 ≠ id) = _
      simp

lemma foldl_removeExport (h : p.Exported) (ids : List ExportId) :
    Sheds (fun x => decide (x ∈ ids)) p (ids.foldl Program.removeExport p) := by
  induction ids generalizing p with
  | nil => exact none h fun _ _ => rfl
  | cons id ids ih =>
    refine ((removeExport h id).trans (ih (h.removeExport id))).congr fun x => ?_
    simp

lemma removeExportsOf (h : p.Exported) (d : DeclId) :
    Sheds (fun x => decide (x ∈ (p.declExports.get? d).getD [])) p (p.removeExportsOf d) := foldl_removeExport h _

end Sheds

lemma Lists.mem_iff {key : Export → DeclId} {exports : Dict ExportId Export} {lists : Dict DeclId (List ExportId)}
    (h : Lists key exports lists) {x : ExportId} :
    x ∈ (lists.get? d).getD [] ↔ ∃ X, exports.get? x = some X ∧ key X = d := by
  constructor
  · intro hx
    cases hl : lists.get? d with
    | none =>
      rw [hl] at hx
      cases hx
    | some es =>
      rw [hl] at hx
      exact h.listed hl hx
  · rintro ⟨X, hX, rfl⟩
    obtain ⟨es, hes, hx⟩ := h.lists hX
    rw [hes]
    exact hx

def isLost (p : Program) (ds : List DeclId) (x : ExportId) : Bool :=
  (p.exports.get? x).any fun X => decide (X.owner ∈ ds ∨ X.exported ∈ ds)

lemma Sheds.forget (h : p.Exported) (d : DeclId) (D : Decl) : Sheds (p.isLost [d]) p (p.forget d D) := by
  have h₁ : Exported { p with failedDecls := p.failedDecls.erase d } :=
    h.same ⟨rfl, rfl, rfl, rfl, rfl, rfl⟩ fun _ h => h
  have h₂ := h₁.removeOwnedExports d
  have hs₁ := foldl_removeExport h₁ ((p.exportOwners.get? d).getD [])
  have hs₂ := removeExportsOf h₂ d
  -- What was asked for is gone when what is emitted is looked up.
  have hx (x : ExportId) := hs₁.exports x
  simp only [decide_eq_true_eq, h.owners.mem_iff] at hx
  have hs : Sheds (p.isLost [d]) _ _ := (hs₁.trans hs₂).congr fun x => by
    rw [Bool.eq_iff_iff, isLost]
    simp only [Option.any_eq_true, decide_eq_true_eq, List.mem_singleton, Bool.or_eq_true, h.owners.mem_iff,
      h₂.targets.mem_iff]
    have hx := hx x
    unfold removeOwnedExports
    grind
  exact ⟨hs.exports, hs.owners, hs.targets, hs.symbols, hs.failed, hs.nextExport⟩

/-! Declarations that lose a user. -/

end Program

def Decl.unflagged (D : Decl) : Decl := { D with isDoomed := false }

def Decl.withoutUsers (D : Decl) (gone : List DeclId) : Decl :=
  { D with dependants := ⟨D.dependants.elems.filter (· ∉ gone)⟩, isDoomed := false }

namespace Program
variable {p p' : Program} {a d x : DeclId}

def bare? (p : Program) (x : DeclId) : Option Decl := (p.decl? x).map Decl.unflagged

lemma bare?_doom (p : Program) (d x : DeclId) : (p.doom d).bare? x = p.bare? x := by
  unfold doom
  split
  · rfl
  · split
    · show ((p.modifyDecl d fun D => { D with isDoomed := true }).decl? x).map _ = _
      rw [decl?_modifyDecl]
      split
      · rw [Option.map_map]
        rfl
      · rfl
    · rfl

lemma bare?_spare (p : Program) (d : DeclId) (rest : List DeclId) (x : DeclId) :
    bare? ({ p with deletionSet := rest }.spare d) x = p.bare? x := by
  unfold bare?
  rw [decl?_modifyDecl]
  split
  · rw [Option.map_map]
    rfl
  · rfl

lemma bare?_foldl_doom (ds : List DeclId) (p : Program) (x : DeclId) : (ds.foldl doom p).bare? x = p.bare? x :=
  ds.foldlRecOn (motive := fun q : Program => q.bare? x = p.bare? x) doom rfl fun _ h _ _ => (bare?_doom ..).trans h

lemma decl?_foldl_removeEdge (hx : x ≠ a) (bs : List DeclId) (p : Program) :
    (bs.foldl (fun p b => p.removeEdge a b) p).decl? x =
      (p.decl? x).map fun D => if x ∈ bs then { D with dependants := D.dependants.erase a } else D := by
  induction bs generalizing p with
  | nil => simp
  | cons b bs ih =>
    have hone : (p.removeEdge a b).decl? x =
        (p.decl? x).map fun D => if b = x then { D with dependants := D.dependants.erase a } else D := by
      unfold removeEdge
      rw [decl?_modifyDecl, decl?_modifyDecl_of_ne hx.symm]
      split <;> simp
    have hidem (s : OrdSet DeclId) : (s.erase a).erase a = s.erase a := by
      unfold OrdSet.erase
      simp
    rw [List.foldl_cons, ih, hone, Option.map_map]
    refine congrArg (Option.map · _) (funext fun D => ?_)
    simp only [Function.comp_apply, List.mem_cons]
    grind

lemma bare?_release (hg : p.Graph) (hx : x ≠ a) :
    (p.release a).bare? x = (p.decl? x).map fun D => D.withoutUsers [a] := by
  have hwithout (D : Decl) : D.withoutUsers [a] = { D with dependants := D.dependants.erase a, isDoomed := false } := by
    unfold Decl.withoutUsers OrdSet.erase
    simp
  unfold release
  rw [bare?_foldl_doom, bare?, clearEdges, decl?_foldl_removeEdge hx, Option.map_map]
  cases hD : p.decl? x with
  | none => rfl
  | some D =>
    simp only [Option.map_some, Function.comp_apply, hwithout]
    split
    · rfl
    · next hdeps =>
      have hfree : D.dependants.erase a = D.dependants := by
        have hsame : D.dependants.elems.filter (· ≠ a) = D.dependants.elems := by
          refine List.filter_eq_self.2 fun u hu => decide_eq_true ?_
          rintro rfl
          exact hdeps (hg.symm.2 (mem_dependantsOf.2 ⟨D, hD, hu⟩))
        unfold OrdSet.erase
        rw [hsame]
      rw [hfree]
      rfl

def Unused (p : Program) (x : DeclId) : Prop := ∃ D, p.bare? x = some D ∧ D.dependants.isEmpty = true

lemma mem_deletionSet_doom (h : p.Doomed) :
    x ∈ (p.doom d).deletionSet ↔ x ∈ p.deletionSet ∨ x = d ∧ p.Unused d := by
  unfold doom Unused bare?
  cases hD : p.decl? d with
  | none => simp
  | some D =>
    have hflag := h.flagged hD
    have hdependants : D.unflagged.dependants = D.dependants := rfl
    simp only [Option.map_some, Option.some.injEq, exists_eq_left', hdependants]
    cases hu : D.dependants.isEmpty <;> cases hf : D.isDoomed <;> simp [hf] at hflag ⊢ <;> grind

lemma mem_deletionSet_foldl_doom (h : p.Doomed) (hb : ∀ {d D}, p.decl? d = some D → d < p.nextDecl)
    (ds : List DeclId) : x ∈ (ds.foldl doom p).deletionSet ↔ x ∈ p.deletionSet ∨ x ∈ ds ∧ p.Unused x := by
  induction ds generalizing p with
  | nil => simp
  | cons d ds ih =>
    have hunused : (p.doom d).Unused x ↔ p.Unused x := by
      unfold Unused
      rw [bare?_doom]
    have hw := p.doom_rewired d
    rw [List.foldl_cons, ih (h.doom hb d), mem_deletionSet_doom h, hunused, List.mem_cons]
    · grind
    · intro y Y hY
      obtain ⟨Y₀, hY₀, -⟩ := hw.exists_of_decl? hY
      exact hw.nextDecl ▸ hb hY₀

lemma mem_deletionSet_release (h : p.Doomed) (hg : p.Graph) :
    x ∈ (p.release a).deletionSet ↔ x ∈ p.deletionSet ∨ x ∈ p.depsOf a ∧ (p.release a).Unused x := by
  have hset := p.deletionSet_clearEdges a
  have hunused : (p.release a).Unused x ↔ (p.clearEdges a).Unused x := by
    unfold Unused release
    rw [bare?_foldl_doom]
  rw [hunused]
  unfold release
  rw [mem_deletionSet_foldl_doom (h.clearEdges a) (hg.clearEdges a).bound, hset]

structure Coherent (p : Program) : Prop where
  graph : p.Graph
  registry : p.Registry
  exported : p.Exported
  doomed : p.Doomed

lemma Coherent.reaches {options : Options} {backend : Backend} {allowed : Action → Prop}
    (h : Reaches allowed { options, backend } p) : p.Coherent :=
  ⟨(Graph.empty options backend).reaches h, .reaches h, .reaches h, .reaches h⟩

lemma Coherent.spare {rest : List DeclId} (h : p.Coherent) (hs : p.deletionSet.Perm (d :: rest)) :
    Coherent ({ p with deletionSet := rest }.spare d) := by
  have hspared := Retains.spare p rest d
  refine ⟨?_, h.registry.retain hspared rfl, h.exported.same ⟨rfl, rfl, rfl, rfl, rfl, rfl⟩ hspared.outlives,
    h.doomed.spare hs⟩
  refine Graph.modifyDecl ?_ d (fun _ => rfl) fun _ => rfl
  exact h.graph.ofDecls rfl rfl

lemma Coherent.drainStep {e : Engine} {rest : List DeclId} (h : e.program.Coherent)
    (hs : e.program.deletionSet.Perm (d :: rest)) : ((e.popped rest).drainStep d).program.Coherent := by
  have hspared := h.spare hs
  have hdoomed := h.doomed.drainStep h.graph hs
  obtain ⟨-, he⟩ | ⟨D, -, -, he⟩ | ⟨D, -, -, -, he⟩ :=
    (e.popped rest).drainStep_turns d <;> rw [he] at hdoomed ⊢
  · have hr : e.program.Retains { e.program with deletionSet := rest } := .ofDecls rfl rfl rfl rfl
    exact ⟨h.graph.ofDecls rfl rfl, h.registry.retain hr rfl,
      h.exported.same ⟨rfl, rfl, rfl, rfl, rfl, rfl⟩ hr.outlives, hdoomed⟩
  · exact hspared
  · exact ⟨Engine.graph_deleteDecl hspared.graph d, hspared.registry.deleteDecl d, hspared.exported.deleteDecl d,
      hdoomed⟩

structure Without (d : DeclId) (p p' : Program) : Prop where
  bare (x : DeclId) : p'.bare? x = if x = d then none else (p.decl? x).map fun D => D.withoutUsers [d]
  table (h : NameHash) : p'.declTable.get? h = (p.declTable.get? h).filter (· ≠ d)
  unit (file : FileId) : p'.units.get? file = (p.units.get? file).map fun u => { u with decls := u.decls.erase d }
  exports : Sheds (p.isLost [d]) p p'
  failedDecls : p'.failedDecls = p.failedDecls.erase d
  failedFiles : p'.failedFiles = p.failedFiles
  deleted : p'.report.deleted = p.report.deleted ++ [d]
  doomed (x : DeclId) : x ∈ p'.deletionSet ↔ x ∈ p.deletionSet ∨ x ∈ p.depsOf d ∧ p'.Unused x

lemma detach_of_found {D : Decl} (h : p.declTable.get? D.nameHash = some d) :
    p.detach d D = { p with
      units := p.units.modify D.file fun u => { u with decls := u.decls.erase d }
      declTable := p.declTable.erase D.nameHash } := by
  unfold detach
  exact if_pos h

lemma Without.forget (h : p.Coherent) {D : Decl} (hD : p.decl? d = some D) :
    p.Without d (((p.detach d D).release d).forget d D) := by
  rw [detach_of_found (h.registry.found hD)]
  -- Names and units are dealt with first, then edges, then the rest.
  generalize hp₁ : ({ p with
      units := p.units.modify D.file fun u => { u with decls := u.decls.erase d }
      declTable := p.declTable.erase D.nameHash } : Program) = p₁
  have hdecl (x : DeclId) : p₁.decl? x = p.decl? x := hp₁ ▸ rfl
  have hgraph : p₁.Graph := hp₁ ▸ h.graph.ofDecls rfl rfl
  have hdoomed : p₁.Doomed := hp₁ ▸ h.doomed.ofDecls rfl rfl rfl
  have hw := p₁.release_rewired d
  have hq := (p₁.release d).forget_quiet d D
  have hrest : p₁.release d = { p₁ with decls := (p₁.release d).decls, deletionSet := (p₁.release d).deletionSet } :=
    hw.rest
  have hsame : p.SameExports (p₁.release d) := by
    rw [hrest, ← hp₁]
    exact ⟨rfl, rfl, rfl, rfl, rfl, rfl⟩
  have hexported : (p₁.release d).Exported := by
    refine h.exported.same hsame fun x hx => ?_
    refine (Retains.rewire hw).outlives x ?_
    rwa [hdecl]
  have hbare (x : DeclId) (hx : x ≠ d) : ((p₁.release d).forget d D).bare? x = (p₁.release d).bare? x := by
    unfold bare? decl?
    rw [hq.decls, Dict.get?_erase, if_neg hx.symm]
  refine ⟨fun x => ?_, fun hash => ?_, fun file => ?_, ?_, ?_, ?_, ?_, fun x => ?_⟩
  · split
    · next hx =>
      unfold bare? decl?
      rw [hq.decls, Dict.get?_erase, if_pos hx.symm]
      rfl
    · next hx => rw [hbare x hx, bare?_release hgraph hx, hdecl]
  · have htable : ((p₁.release d).forget d D).declTable = p.declTable.erase D.nameHash := by
      rw [hq.declTable, hrest, ← hp₁]
    rw [htable, Dict.get?_erase]
    split
    · next he =>
      subst he
      rw [h.registry.found hD]
      simp [Option.filter]
    · next hne =>
      cases ht : p.declTable.get? hash with
      | none => rfl
      | some y =>
        have hy : y ≠ d := by
          rintro rfl
          exact hne (h.registry.same_name (h.registry.found hD) ht)
        simp [Option.filter, hy]
  · have hunits : ((p₁.release d).forget d D).units =
        p.units.modify D.file fun u => { u with decls := u.decls.erase d } := by
      rw [hq.units, hrest, ← hp₁]
    rw [hunits, Dict.get?_modify]
    split
    · rfl
    · next hne =>
      cases hu : p.units.get? file with
      | none => rfl
      | some u =>
        have hsame : u.decls.erase d = u.decls := by
          have hfilter : u.decls.elems.filter (· ≠ d) = u.decls.elems := by
            refine List.filter_eq_self.2 fun y hy => decide_eq_true ?_
            rintro rfl
            obtain ⟨D', hD', hfile⟩ := h.registry.listed (Dict.mem_of_get? hu) hy
            cases hD.symm.trans hD'
            exact hne hfile
          unfold OrdSet.erase
          rw [hfilter]
        rw [Option.map_some, hsame]
  · have hs : Sheds (p.isLost [d]) _ _ := (Sheds.forget hexported d D).congr fun x => by
      unfold isLost
      rw [hsame.exports]
    exact ⟨hsame.exports ▸ hs.exports, hsame.exportOwners ▸ hs.owners, hsame.declExports ▸ hs.targets,
      hsame.symbolExports ▸ hs.symbols, hsame.failedExports ▸ hs.failed, hs.nextExport.trans hsame.nextExport⟩
  · rw [hq.failedDecls, hrest, ← hp₁]
  · rw [(forget_quiet ..).failedFiles, hrest, ← hp₁]
  · rw [hq.report, hrest, ← hp₁]
  · have hset : p₁.deletionSet = p.deletionSet := hp₁ ▸ rfl
    have hdeps : p₁.depsOf d = p.depsOf d := by rw [depsOf, hdecl, depsOf]
    rw [hq.deletionSet]
    show x ∈ (p₁.release d).deletionSet ↔ _
    rw [mem_deletionSet_release hdoomed hgraph, hset, hdeps]
    refine or_congr_right (and_congr_right fun hx => ?_)
    have hne : x ≠ d := by
      rintro rfl
      exact h.graph.irrefl hx
    unfold Unused
    rw [hbare x hne]

/-! What is left after some declarations went. -/

structure Swept (p₀ : Program) (gone : List DeclId) (p : Program) : Prop where
  bare (x : DeclId) : p.bare? x = if x ∈ gone then none else (p₀.decl? x).map fun D => D.withoutUsers gone
  table (h : NameHash) : p.declTable.get? h = (p₀.declTable.get? h).filter (· ∉ gone)
  unit (file : FileId) :
    p.units.get? file = (p₀.units.get? file).map fun u => { u with decls := ⟨u.decls.elems.filter (· ∉ gone)⟩ }
  exports : Sheds (p₀.isLost gone) p₀ p
  failedDecls : p.failedDecls.entries = p₀.failedDecls.entries.filter (·.1 ∉ gone)
  failedFiles : p.failedFiles = p₀.failedFiles
  deleted : p.report.deleted = p₀.report.deleted ++ gone

namespace Swept
variable {p₀ : Program} {gone : List DeclId}

lemma start (h : p.Exported) : Swept p [] p where
  bare x := by
    unfold bare? Decl.withoutUsers Decl.unflagged
    simp
  table hash := by
    cases p.declTable.get? hash with
    | none => rfl
    | some d => simp [Option.filter]
  unit file := by simp
  exports := .none h fun x _ => by
    unfold isLost
    simp
  failedDecls := by simp
  failedFiles := rfl
  deleted := (List.append_nil _).symm

lemma congr (h : Swept p₀ gone p) (hb : ∀ x, p'.bare? x = p.bare? x)
    (hr : p' = { p with decls := p'.decls, deletionSet := p'.deletionSet }) : Swept p₀ gone p' := by
  refine ⟨fun x => (hb x).trans (h.bare x), ?_, ?_, h.exports.ofSame ?_, ?_, ?_, ?_⟩ <;> rw [hr]
  · exact h.table
  · exact h.unit
  · exact ⟨rfl, rfl, rfl, rfl, rfl, rfl⟩
  · exact h.failedDecls
  · exact h.failedFiles
  · exact h.deleted

lemma delete (h : Swept p₀ gone p) (hw : p.Without d p') : Swept p₀ (gone ++ [d]) p' where
  bare x := by
    have hD := h.bare x
    rw [hw.bare]
    by_cases hx : x = d
    · subst hx
      rw [if_pos rfl, if_pos (List.mem_append_right _ (List.mem_singleton_self x))]
    · rw [if_neg hx]
      have hwithout (D D₀ : Decl) (hD : D.unflagged = D₀.withoutUsers gone) :
          D.withoutUsers [d] = D₀.withoutUsers (gone ++ [d]) := by
        have hsame : D.withoutUsers [d] = D.unflagged.withoutUsers [d] := rfl
        rw [hsame, hD]
        unfold Decl.withoutUsers
        simp only [List.filter_filter, List.mem_append, not_or, Bool.decide_and]
        congr 2
        exact List.filter_congr fun u _ => Bool.and_comm ..
      unfold bare? at hD
      simp only [List.mem_append, List.mem_singleton, hx, or_false]
      split at hD
      · next hgone =>
        rw [if_pos hgone, Option.map_eq_none_iff.1 hD]
        rfl
      · next hgone =>
        rw [if_neg hgone]
        cases h₀ : p₀.decl? x with
        | none =>
          rw [h₀] at hD
          rw [Option.map_eq_none_iff.1 hD]
          rfl
        | some D₀ =>
          rw [h₀] at hD
          obtain ⟨D, hx, hD⟩ := Option.map_eq_some_iff.1 hD
          rw [hx, Option.map_some, Option.map_some, hwithout D D₀ hD]
  table hash := by
    rw [hw.table, h.table, Option.filter_filter]
    refine congrArg (Option.filter · _) (funext fun y => ?_)
    simp [Bool.and_comm]
  unit file := by
    rw [hw.unit, h.unit, Option.map_map]
    refine congrArg (Option.map · _) (funext fun u => ?_)
    simp only [Function.comp_apply, OrdSet.erase, List.filter_filter, List.mem_append, List.mem_singleton, not_or,
      Bool.decide_and]
    congr 2
    exact List.filter_congr fun u _ => Bool.and_comm ..
  exports := by
    refine (h.exports.trans hw.exports).congr fun x => ?_
    have hx := h.exports.exports x
    unfold isLost at hx ⊢
    rw [hx]
    cases p₀.exports.get? x with
    | none => rfl
    | some X =>
      rw [Bool.eq_iff_iff]
      simp only [Option.any_some, List.mem_append, List.mem_singleton, Bool.or_eq_true, decide_eq_true_eq]
      split
      · next hgone => exact ⟨fun _ => .inl hgone, fun _ => hgone.imp .inl .inl⟩
      · simp only [Option.any_some, decide_eq_true_eq]
        grind
  failedDecls := by
    rw [hw.failedDecls]
    show p.failedDecls.entries.filter (fun e => e.1 ≠ d) = _
    rw [h.failedDecls, List.filter_filter]
    refine List.filter_congr fun e _ => ?_
    simp [Bool.and_comm]
  failedFiles := hw.failedFiles.trans h.failedFiles
  deleted := by rw [hw.deleted, h.deleted, List.append_assoc]

end Swept

/-! Which declarations go. -/

/-- Whether a declaration may be doomed at all: it is so from the beginning, or something uses it that may go. -/
def Candidate (p₀ : Program) (d : DeclId) : Prop := d ∈ p₀.deletionSet ∨ p₀.dependantsOf d ≠ []

/-- The declarations go in an order in which each one has lost all its users when its turn comes. -/
inductive Cascade (p₀ : Program) : List DeclId → Prop
  | nil : Cascade p₀ []
  | snoc {gone : List DeclId} {d : DeclId} {D : Decl} (h : Cascade p₀ gone) (hD : p₀.decl? d = some D)
      (hr : D.isRoot = false) (hu : ∀ u ∈ D.dependants, u ∈ gone) (hc : p₀.Candidate d) (hn : d ∉ gone) :
      Cascade p₀ (gone ++ [d])

def Closed (p₀ : Program) (gone : List DeclId) : Prop :=
  ∀ d D, p₀.decl? d = some D → D.isRoot = false → (∀ u ∈ D.dependants, u ∈ gone) → p₀.Candidate d → d ∈ gone

namespace Cascade
variable {p₀ : Program} {gone gone' : List DeclId}

lemma nodup (h : Cascade p₀ gone) : gone.Nodup := by
  induction h with
  | nil => exact .nil
  | snoc _ _ _ _ _ hn ih => exact List.nodup_append.2 ⟨ih, List.nodup_singleton _, by grind⟩

lemma subset (h : Cascade p₀ gone) (hc : p₀.Closed gone') : gone ⊆ gone' := by
  induction h with
  | nil => exact List.nil_subset _
  | snoc _ hD hr hu hd _ ih =>
    refine List.append_subset.2 ⟨ih, List.cons_subset.2 ⟨?_, List.nil_subset _⟩⟩
    exact hc _ _ hD hr (fun u hm => ih (hu u hm)) hd

lemma perm (h : Cascade p₀ gone) (h' : Cascade p₀ gone') (hc : p₀.Closed gone) (hc' : p₀.Closed gone') :
    gone.Perm gone' :=
  (List.perm_ext_iff_of_nodup h.nodup h'.nodup).2 fun _ => ⟨fun hx => h.subset hc' hx, fun hx => h'.subset hc hx⟩

end Cascade

/-- A collection is under way: of the program that it began with, some declarations are gone, and whatever has to go
next is in the deletion set. -/
structure Sweeping (p₀ : Program) (gone : List DeclId) (p : Program) : Prop where
  coherent : p.Coherent
  swept : Swept p₀ gone p
  cascade : Cascade p₀ gone
  candidate {d : DeclId} : d ∈ p.deletionSet → p₀.Candidate d
  due {d : DeclId} {D : Decl} : p.decl? d = some D → D.isRoot = false → D.dependants.elems = [] → p₀.Candidate d →
    d ∈ p.deletionSet

namespace Sweeping
variable {p₀ : Program} {gone : List DeclId}

lemma start (h : p.Coherent) {order : List DeclId} (ho : order.Perm p.deletionSet) :
    Sweeping p [] { p with deletionSet := order } where
  coherent := by
    refine ⟨h.graph.ofDecls rfl rfl, h.registry.retain (.ofDecls rfl rfl rfl rfl) rfl,
      h.exported.same ⟨rfl, rfl, rfl, rfl, rfl, rfl⟩ fun _ h => h, fun hD => ?_, ho.nodup_iff.2 h.doomed.nodup,
      fun hd => ?_⟩
    · rw [ho.mem_iff]
      exact h.doomed.flagged hD
    · exact h.doomed.bound (ho.mem_iff.1 hd)
  swept := (Swept.start h.exported).congr (fun _ => rfl) rfl
  cascade := .nil
  candidate hd := .inl (ho.mem_iff.1 hd)
  due {d D} hD _ hu hc := by
    refine ho.mem_iff.2 (hc.resolve_right fun hne => hne ?_)
    have hD : p.decl? d = some D := hD
    rw [dependantsOf, hD]
    exact hu

lemma decl?_of (h : Swept p₀ gone p) {D : Decl} (hD : p.decl? d = some D) :
    d ∉ gone ∧ ∃ D₀, p₀.decl? d = some D₀ ∧ D₀.isRoot = D.isRoot ∧
      D.dependants.elems = D₀.dependants.elems.filter (· ∉ gone) := by
  have hb := h.bare d
  rw [bare?, hD, Option.map_some] at hb
  split at hb
  · cases hb
  · next hgone =>
    obtain ⟨D₀, hD₀, hb⟩ := Option.map_eq_some_iff.1 hb.symm
    have hdependants : (D₀.withoutUsers gone).dependants.elems = D.dependants.elems := congrArg (·.dependants.elems) hb
    have hroot : (D₀.withoutUsers gone).isRoot = D.isRoot := congrArg (·.isRoot) hb
    exact ⟨hgone, D₀, hD₀, hroot, hdependants.symm⟩

lemma spare {rest : List DeclId} (h : Sweeping p₀ gone p) (hs : p.deletionSet.Perm (d :: rest))
    (hc : p'.Coherent) (hp : p' = { p with decls := p'.decls, deletionSet := rest })
    (hb : ∀ x, p'.bare? x = p.bare? x)
    (hd : ∀ D, p.decl? d = some D → D.isRoot = true ∨ D.dependants.elems ≠ []) : Sweeping p₀ gone p' := by
  have hset : p'.deletionSet = rest := by rw [hp]
  refine ⟨hc, h.swept.congr hb (by rw [hp]), h.cascade, fun hx => ?_, fun {x X'} hX' hr hu hx => ?_⟩
  · rw [hset] at hx
    exact h.candidate (hs.mem_iff.2 (List.mem_cons_of_mem _ hx))
  · have hX := hb x
    rw [bare?, hX', Option.map_some] at hX
    obtain ⟨X, hX, he⟩ := Option.map_eq_some_iff.1 hX.symm
    have hroot : X.isRoot = X'.isRoot := congrArg (·.isRoot) he
    have husers : X.dependants.elems = X'.dependants.elems := congrArg (·.dependants.elems) he
    have hmem := hs.mem_iff.1 (h.due hX (hroot.trans hr) (husers.trans hu) hx)
    rw [hset]
    obtain rfl | hmem := List.mem_cons.1 hmem
    · obtain h | h := hd X hX
      · rw [hroot, hr] at h
        cases h
      · exact absurd (husers.trans hu) h
    · exact hmem

lemma delete {rest : List DeclId} {D : Decl} (h : Sweeping p₀ gone p) (hs : p.deletionSet.Perm (d :: rest))
    (hc : p'.Coherent) (hD : p.decl? d = some D) (hr : D.isRoot = false) (hu : D.dependants.elems = [])
    (hw : Without d ({ p with deletionSet := rest }.spare d) p') : Sweeping p₀ (gone ++ [d]) p' := by
  have hswept : Swept p₀ gone ({ p with deletionSet := rest }.spare d) :=
    h.swept.congr (bare?_spare p d rest) rfl
  have hmember : d ∈ p.deletionSet := hs.mem_iff.2 List.mem_cons_self
  obtain ⟨hgone, D₀, hD₀, hroot, hdependants⟩ := decl?_of h.swept hD
  have hdeps : depsOf ({ p with deletionSet := rest }.spare d) d = p.depsOf d :=
    depsOf_modifyDecl fun _ => rfl
  refine ⟨hc, hswept.delete hw, .snoc h.cascade hD₀ (hroot.trans hr) (fun u hm => ?_) (h.candidate hmember) hgone,
    fun {x} hx => ?_, fun {x X'} hX' hr' hu' hx => ?_⟩
  · by_contra hleft
    have hm : u ∈ D₀.dependants.elems.filter (· ∉ gone) := List.mem_filter.2 ⟨hm, decide_eq_true hleft⟩
    rw [← hdependants, hu] at hm
    cases hm
  · obtain hx | ⟨hx, -⟩ := (hw.doomed x).1 hx
    · exact h.candidate (hs.mem_iff.2 (List.mem_cons_of_mem _ hx))
    · rw [hdeps] at hx
      obtain ⟨X, hX, hm⟩ := mem_dependantsOf.1 (h.coherent.graph.symm.1 hx)
      obtain ⟨-, X₀, hX₀, -, hdependants⟩ := decl?_of h.swept hX
      have hm : d ∈ X.dependants.elems := hm
      rw [hdependants] at hm
      refine .inr fun hnil => ?_
      rw [dependantsOf, hX₀] at hnil
      have hm := (List.mem_filter.1 hm).1
      have hnil : X₀.dependants.elems = [] := hnil
      rw [hnil] at hm
      cases hm
  · -- It was of no use before, or the declaration that went was its last user.
    have hb := hw.bare x
    rw [bare?, hX', Option.map_some] at hb
    split at hb
    · cases hb
    · next hne =>
      obtain ⟨X₁, hX₁, he⟩ := Option.map_eq_some_iff.1 hb.symm
      rw [decl?_modifyDecl_of_ne (Ne.symm hne)] at hX₁
      have hX₁ : p.decl? x = some X₁ := hX₁
      have hroot : X₁.isRoot = X'.isRoot := congrArg (·.isRoot) he
      have husers : X₁.dependants.elems.filter (· ∉ [d]) = X'.dependants.elems := congrArg (·.dependants.elems) he
      rw [hu'] at husers
      refine (hw.doomed x).2 ?_
      by_cases hnil : X₁.dependants.elems = []
      · have hmem := hs.mem_iff.1 (h.due hX₁ (hroot.trans hr') hnil hx)
        exact .inl ((List.mem_cons.1 hmem).resolve_left hne)
      · obtain ⟨u, hu⟩ := List.exists_mem_of_ne_nil _ hnil
        have hud : u = d := by
          by_contra hud
          have hm : u ∈ X₁.dependants.elems.filter (· ∉ [d]) := List.mem_filter.2 ⟨hu, by simpa using hud⟩
          rw [husers] at hm
          cases hm
        subst hud
        refine .inr ⟨?_, X'.unflagged, by rw [bare?, hX', Option.map_some], ?_⟩
        · rw [hdeps]
          exact h.coherent.graph.symm.2 (mem_dependantsOf.2 ⟨X₁, hX₁, hu⟩)
        · rw [OrdSet.isEmpty, List.isEmpty_iff]
          exact hu'

end Sweeping

end Program

namespace Engine
variable {e e' : Engine} {d x : DeclId} {D : Decl}

def Turn (e e' : Engine) : Prop :=
  ∃ d rest, e.program.deletionSet.Perm (d :: rest) ∧ e' = (e.popped rest).drainStep d

abbrev Turns : Engine → Engine → Prop := Relation.ReflTransGen Turn

lemma turns_drainWith (fuel : Nat) (e : Engine) : Turns e (drainWith fuel e) := by
  induction fuel generalizing e with
  | zero => exact .refl
  | succ fuel ih =>
    unfold drainWith
    split
    · exact .refl
    · next d rest hs => exact .head ⟨d, rest, .of_eq hs, rfl⟩ (ih _)

lemma turns_drain (e : Engine) : Turns e e.drain := turns_drainWith _ e

lemma Turns.queue (h : Turns e e') : e'.queue = e.queue := by
  induction h with
  | refl => rfl
  | tail _ ht ih =>
    obtain ⟨d, rest, -, rfl⟩ := ht
    rw [drainStep_queue]
    exact ih

lemma drain_queue (e : Engine) : e.drain.queue = e.queue := (turns_drain e).queue

lemma Turn.deletes (h : Turn e e') (hD : e.program.decl? x = some D) (hn : e'.program.decl? x = none) :
    D.isRoot = false ∧ D.dependants.elems = [] := by
  obtain ⟨d, rest, -, rfl⟩ := h
  obtain ⟨-, he⟩ | ⟨X, -, -, he⟩ | ⟨X, hX, hr, hu, he⟩ :=
    (e.popped rest).drainStep_turns d <;> rw [he] at hn
  · cases hD.symm.trans hn
  · have hn : (({ e.program with deletionSet := rest } : Program).spare d).decl? x = none := hn
    have hb := Program.bare?_spare e.program d rest x
    rw [Program.bare?, hn, Program.bare?, hD] at hb
    cases hb
  · by_cases hx : d = x
    · subst hx
      cases hD.symm.trans hX
      exact ⟨hr, hu⟩
    · -- Of the others each one keeps its place.
      rw [deleteDecl_of_spared hX hu] at hn
      generalize hp : (e.popped rest).program.spare d = p₁
      have hD₁ : p₁.decl? x = some D := by
        rw [← hp, Program.decl?_modifyDecl_of_ne hx]
        exact hD
      have hD₂ : (p₁.detach d { X with isDoomed := false }).decl? x = some D := by
        rwa [Program.decl?, Program.detach_decls]
      obtain ⟨D', hD', -⟩ := ((p₁.detach d { X with isDoomed := false }).release_rewired d).exists_decl? hD₂
      have hn : (((p₁.detach d { X with isDoomed := false }).release d).forget d
          { X with isDoomed := false }).decl? x = none := hp ▸ hn
      rw [Program.decl?_forget, if_neg hx] at hn
      cases hD'.symm.trans hn

end Engine

/-! Rounds of work and of collection. -/

namespace EngineM

def rounds : (bound : Nat) → EngineM Unit
  | 0 => throw .exhausted
  | bound + 1 => do
    performWork
    modify Engine.drain
    if (← get).queue.isEmpty then return () else rounds bound

lemma performWith_queue {bound : Nat} {e e' : Engine} (h : performWith bound e = .ok () e') : e'.queue.items = [] := by
  induction bound generalizing e with
  | zero =>
    rw [performWith, get_bind] at h
    cases hq : e.queue.items with
    | nil =>
      rw [if_neg (by simp [WorkQueue.isEmpty, hq])] at h
      cases h
      exact hq
    | cons item rest =>
      rw [if_pos (by simp [WorkQueue.isEmpty, hq])] at h
      cases h
  | succ bound ih =>
    cases hq : e.queue.items with
    | nil =>
      rw [performWith_succ_of_nil hq] at h
      cases h
      exact hq
    | cons item rest =>
      rw [performWith_succ_of_cons hq] at h
      change EStateM.bind _ _ _ = _ at h
      unfold EStateM.bind at h
      split at h
      · exact ih h
      · cases h

end EngineM

/-- One round is enough: nothing that is collected has users left to be analyzed anew. -/
theorem Program.update_eq_rounds (p : Program) (bound : Nat) :
    p.update = match EngineM.rounds (bound + 1) p.begin with
      | .error i e => (.error i, e.program)
      | .ok _ e => (.ok e.program.report, e.program.closed) := by
  have hround : EngineM.rounds (bound + 1) p.begin = EStateM.bind EngineM.performWork (fun _ => do
      modify Engine.drain
      if (← get).queue.isEmpty then return () else EngineM.rounds bound) p.begin := rfl
  rw [hround, update, EStateM.bind]
  cases hw : EngineM.performWork p.begin with
  | error i e => rfl
  | ok _ e =>
    have hq : e.drain.queue.isEmpty = true := by
      rw [Engine.drain_queue, WorkQueue.isEmpty, EngineM.performWith_queue hw]
      rfl
    have hrest : (do
        modify Engine.drain
        if (← get).queue.isEmpty then return () else EngineM.rounds bound : EngineM Unit) e = .ok () e.drain := by
      change (if e.drain.queue.isEmpty = true then pure () else EngineM.rounds bound : EngineM Unit) e.drain = _
      rw [if_pos hq]
      rfl
    dsimp only
    rw [hrest]

namespace Program.Sweeping
variable {p₀ : Program} {gone : List DeclId} {e e' : Engine}

lemma turn (h : Sweeping p₀ gone e.program) (ht : e.Turn e') : ∃ gone', Sweeping p₀ gone' e'.program := by
  obtain ⟨d, rest, hs, rfl⟩ := ht
  have hc := h.coherent.drainStep hs
  obtain ⟨hn, he⟩ | ⟨D, hD, hkept, he⟩ | ⟨D, hD, hr, hu, he⟩ :=
    (e.popped rest).drainStep_turns d <;> rw [he] at hc ⊢
  · refine ⟨gone, h.spare hs hc rfl (fun _ => rfl) fun D hD => ?_⟩
    cases hn.symm.trans hD
  · refine ⟨gone, h.spare hs hc rfl (bare?_spare e.program d rest) fun D' hD' => ?_⟩
    cases hD.symm.trans hD'
    exact hkept
  · rw [Engine.deleteDecl_of_spared hD hu] at hc ⊢
    refine ⟨gone ++ [d], h.delete hs hc hD hr hu (.forget ?_ ?_)⟩
    · exact h.coherent.spare hs
    · exact (decl?_modifyDecl_self ..).trans (congrArg _ hD)

lemma turns (h : Sweeping p₀ gone e.program) (ht : e.Turns e') : ∃ gone', Sweeping p₀ gone' e'.program := by
  induction ht with
  | refl => exact ⟨gone, h⟩
  | tail _ ht ih =>
    obtain ⟨gone', h'⟩ := ih
    exact h'.turn ht

lemma closed {p : Program} (h : Sweeping p₀ gone p) (hs : p.deletionSet = []) : p₀.Closed gone := by
  intro d D₀ hD₀ hr hu hc
  by_contra hgone
  have hb := h.swept.bare d
  rw [if_neg hgone, hD₀, Option.map_some] at hb
  obtain ⟨D, hD, he⟩ := Option.map_eq_some_iff.1 hb
  have hroot : D.isRoot = D₀.isRoot := congrArg (·.isRoot) he
  have husers : D.dependants.elems = D₀.dependants.elems.filter (· ∉ gone) := congrArg (·.dependants.elems) he
  have hnil : D.dependants.elems = [] := by
    rw [husers, List.filter_eq_nil_iff]
    intro u hm
    simpa using hu u hm
  have hmem := h.due hD (hroot.trans hr) hnil hc
  rw [hs] at hmem
  cases hmem

end Program.Sweeping

namespace Program
variable {p p' : Program}

structure Agrees (p p' : Program) : Prop where
  decl (d : DeclId) : p.decl? d = p'.decl? d
  declTable (hash : NameHash) : p.declTable.get? hash = p'.declTable.get? hash
  units (file : FileId) : p.units.get? file = p'.units.get? file
  exports (x : ExportId) : p.exports.get? x = p'.exports.get? x
  exportOwners (d : DeclId) : p.exportOwners.get? d = p'.exportOwners.get? d
  declExports (d : DeclId) : p.declExports.get? d = p'.declExports.get? d
  symbolExports (s : String) : p.symbolExports.get? s = p'.symbolExports.get? s
  failedDecls : p.failedDecls = p'.failedDecls
  failedFiles : p.failedFiles = p'.failedFiles
  failedExports : p.failedExports = p'.failedExports
  deleted : p.report.deleted.Perm p'.report.deleted

lemma Agrees.diagnostics (h : p.Agrees p') : p.diagnostics = p'.diagnostics := by
  unfold Program.diagnostics
  rw [h.failedDecls, h.failedFiles, h.failedExports]

lemma bare?_of_drained (h : p.Doomed) (hs : p.deletionSet = []) (x : DeclId) : p.bare? x = p.decl? x := by
  unfold bare?
  cases hD : p.decl? x with
  | none => rfl
  | some D =>
    have hflag : D.isDoomed = false := by
      rw [Bool.eq_false_iff, Ne, h.flagged hD, hs]
      exact List.not_mem_nil
    rw [Option.map_some, Decl.unflagged, ← hflag]

lemma Swept.agrees {p₀ : Program} {gone gone' : List DeclId} (h : Swept p₀ gone p) (h' : Swept p₀ gone' p')
    (hg : gone.Perm gone') (hb : ∀ x, p.bare? x = p.decl? x) (hb' : ∀ x, p'.bare? x = p'.decl? x) : p.Agrees p' := by
  have hkept : (fun x => decide (x ∉ gone)) = fun x => decide (x ∉ gone') := by
    funext x
    simp only [hg.mem_iff]
  have hlost : p₀.isLost gone' = p₀.isLost gone := by
    unfold isLost
    simp only [hg.mem_iff]
  have hx := h'.exports
  rw [hlost] at hx
  refine ⟨fun d => ?_, fun hash => ?_, fun file => ?_, fun x => ?_, ?_, ?_, fun s => ?_, ?_, ?_, ?_, ?_⟩
  · rw [← hb, ← hb', h.bare, h'.bare]
    unfold Decl.withoutUsers
    simp only [hg.mem_iff]
  · rw [h.table, h'.table, hkept]
  · rw [h.unit, h'.unit, hkept]
  · rw [h.exports.exports, hx.exports]
  · exact hx.owners.unique h.exports.owners
  · exact hx.targets.unique h.exports.targets
  · rw [h.exports.symbols, hx.symbols]
  · have he : p.failedDecls.entries = p'.failedDecls.entries := by
      rw [h.failedDecls, h'.failedDecls]
      simp only [hg.mem_iff]
    exact congrArg Dict.mk he
  · rw [h.failedFiles, h'.failedFiles]
  · have he : p.failedExports.entries = p'.failedExports.entries := by rw [h.exports.failed, hx.failed]
    exact congrArg Dict.mk he
  · rw [h.deleted, h'.deleted]
    exact hg.append_left _

lemma Sweeping.agrees {p₀ : Program} {gone gone' : List DeclId} (h : Sweeping p₀ gone p) (h' : Sweeping p₀ gone' p')
    (hs : p.deletionSet = []) (hs' : p'.deletionSet = []) : p.Agrees p' :=
  h.swept.agrees h'.swept (h.cascade.perm h'.cascade (h.closed hs) (h'.closed hs'))
    (bare?_of_drained h.coherent.doomed hs) (bare?_of_drained h'.coherent.doomed hs')

end Program

namespace Engine

lemma drainWith_succ (fuel : Nat) (e : Engine) :
    drainWith (fuel + 1) e = drainWith fuel e ∨ Turn (drainWith fuel e) (drainWith (fuel + 1) e) := by
  induction fuel generalizing e with
  | zero =>
    unfold drainWith
    split
    · exact .inl rfl
    · next d rest hs => exact .inr ⟨d, rest, .of_eq hs, rfl⟩
  | succ fuel ih =>
    rw [drainWith, drainWith]
    split
    · exact .inl rfl
    · exact ih _

end Engine

namespace Program

/-- However a program is reached, what is flagged is what is in the deletion set, and nothing is there twice. In
whatever order the set is worked off, it gets empty and the same is left of the program; only declarations go that are
no roots and that nothing uses by then; and no work is made. -/
theorem drain_order_independent {options : Options} {backend : Backend} {p : Program}
    (h : Reaches (fun _ => True) { options, backend } p) :
    (∀ d D, p.decl? d = some D → (D.isDoomed = true ↔ d ∈ p.deletionSet)) ∧ p.deletionSet.Nodup ∧
    (∀ queue order order', order.Perm p.deletionSet → order'.Perm p.deletionSet →
      let e : Engine := ⟨{ p with deletionSet := order }, queue⟩
      let e' : Engine := ⟨{ p with deletionSet := order' }, queue⟩
      e.drain.program.deletionSet = [] ∧ e.drain.queue = queue ∧ e.drain.program.Agrees e'.drain.program ∧
        e.drain.program.diagnostics = e'.drain.program.diagnostics ∧
        ∀ turns d D, (e.drainWith turns).program.decl? d = some D → (e.drainWith (turns + 1)).program.decl? d = none →
          D.isRoot = false ∧ D.dependants.elems = []) ∧
    ∀ queue e, Engine.Turns ⟨p, queue⟩ e → e.program.deletionSet = [] →
      (Engine.drain ⟨p, queue⟩).program.Agrees e.program := by
  have hc : p.Coherent := .reaches h
  have hdrained {order : List DeclId} (ho : order.Perm p.deletionSet) (queue : WorkQueue) :
      ∃ gone, Sweeping p gone (Engine.drain ⟨{ p with deletionSet := order }, queue⟩).program :=
    (Sweeping.start hc ho).turns (Engine.turns_drain ⟨{ p with deletionSet := order }, queue⟩)
  refine ⟨fun d D => hc.doomed.flagged, hc.doomed.nodup, fun queue order order' ho ho' => ?_, fun queue e ht hs => ?_⟩
  · intro e e'
    obtain ⟨gone, hg⟩ := hdrained ho queue
    obtain ⟨gone', hg'⟩ := hdrained ho' queue
    have hagree := hg.agrees hg' e.drain_deletionSet e'.drain_deletionSet
    refine ⟨e.drain_deletionSet, e.turns_drain.queue, hagree, hagree.diagnostics, fun turns d D hD hn => ?_⟩
    obtain he | ht := Engine.drainWith_succ turns e
    · rw [he, hD] at hn
      cases hn
    · exact ht.deletes hD hn
  · obtain ⟨gone, hg⟩ := hdrained (.refl _) queue
    obtain ⟨gone', hg'⟩ := (Sweeping.start hc (.refl _)).turns ht
    exact hg.agrees hg' (Engine.drain_deletionSet _) hs

/-- One of two declarations in the set has come to be used by the other one. Taken first it is passed over, and goes in
the end all the same. -/
theorem drain_order_independent_used_again :
    let p₁ := (Program.act {} (.edit (.addSource "m"
      "const a = 1;\nconst b = 2;\ncomptime \x7b _ = a; _ = b; \x7d\n"))).act .update
    let p₂ := ((p₁.act (.edit (.setSource 0 "const a = 1;\nconst b = 2;\ncomptime \x7b _ = 1; \x7d\n"))).act
      (.reconcile {} 0)).act (.ensure {} 2)
    let p := p₂.act (.addEdge 1 0)
    let e : Engine := ⟨{ p with deletionSet := [0, 1] }, {}⟩
    p.deletionSet = [1, 0] ∧ (e.drainWith 1).program.deletionSet = [1] ∧ e.drain.program.decls.keys = [2] ∧
      e.drain.program.Agrees (Engine.drain ⟨{ p with deletionSet := [1, 0] }, {}⟩).program := by
  intro p₁ p₂ p e
  have h : Reaches (fun _ => True) {} p :=
    (((((Reaches.refl.act trivial).act trivial).act trivial).act trivial).act trivial).act trivial
  have hd : p.deletionSet = [1, 0] ∧ (e.drainWith 1).program.deletionSet = [1] ∧ e.drain.program.decls.keys = [2] := by
    decide +kernel
  obtain ⟨hset, hpassed, hleft⟩ := hd
  obtain ⟨-, -, hdrain, -⟩ := drain_order_independent h
  have hswap : ([0, 1] : List DeclId).Perm p.deletionSet := by
    rw [hset]
    exact .swap ..
  obtain ⟨-, -, hagree, -⟩ := hdrain {} [0, 1] [1, 0] hswap (.of_eq hset.symm)
  exact ⟨hset, hpassed, hleft, hagree⟩

end Program

end Frontend
