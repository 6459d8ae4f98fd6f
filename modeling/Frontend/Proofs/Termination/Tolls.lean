import Mathlib.Algebra.Order.BigOperators.Group.Finset
import Frontend.Proofs.Quiescence.Attention

/-! What is left to be done while pending work is done. Each declaration that was not dealt with so far has a toll: the
items of work to which it may still lead. Tolls are paid when an analysis is begun, and no declaration has to pay twice;
a name that is not registered yet may come to be one declaration more. -/

attribute [local instance (high)] Zero.ofOfNat0

namespace Frontend

/-- How many items of work the declaration may still add to the queue. One that is to be analyzed may be granted
storage, which takes code and a header; one that is settled may be marked before. -/
def Decl.toll (generation : Nat) (D : Decl) : Nat :=
  if D.state.Due then 2 else if D.generation = generation then 0 else 3

namespace Decl
variable {g : Nat} {D D' : Decl}

lemma toll_le (g : Nat) (D : Decl) : D.toll g ≤ 3 := by
  unfold toll
  split
  · decide
  · split <;> decide

lemma toll_congr (hs : D'.state = D.state) (hg : D'.generation = D.generation) : D'.toll g = D.toll g := by
  rw [toll, toll, hs, hg]

lemma toll_eq_two (h : D.state.Due) : D.toll g = 2 := if_pos h

lemma Attended.toll (h : D.Attended g) : D.toll g = 0 := by
  have hs : ¬ D.state.Due := not_or.2 ⟨h.outdated, h.unreferenced⟩
  rw [Decl.toll, if_neg hs, if_pos h.generation]

lemma toll_le_of_ne (hs : D.state ≠ .outdated ∧ D.state ≠ .unreferenced)
    (hs' : D'.state ≠ .outdated ∧ D'.state ≠ .unreferenced)
    (hg : D'.generation = D.generation) : D'.toll g ≤ D.toll g := by
  rw [toll, toll, if_neg (not_or.2 hs), if_neg (not_or.2 hs'), hg]

end Decl

namespace Program
variable {p p' p'' : Program} {d : DeclId} {D : Decl} {f : Decl → Decl} {w w' : Decl → Nat} {k : Nat}

def total (p : Program) (w : Decl → Nat) : Nat := ∑ d ∈ Finset.range p.nextDecl, (p.decl? d).elim 0 w

lemma total_le_total (hn : p'.nextDecl = p.nextDecl)
    (h : ∀ d, Option.Rel (fun D D' => w' D' ≤ w D) (p.decl? d) (p'.decl? d)) : p'.total w' ≤ p.total w := by
  rw [total, total, hn]
  exact Finset.sum_le_sum fun d _ => (h d).elim le_rfl fun _ _ hd => hd

lemma total_modifyDecl (hg : p.Graph) (hD : p.decl? d = some D) (w : Decl → Nat) :
    (p.modifyDecl d f).total w + w D = p.total w + w (f D) := by
  have hd : d ∈ Finset.range p.nextDecl := Finset.mem_range.2 (hg.bound hD)
  have hrest : ∑ x ∈ (Finset.range p.nextDecl).erase d, ((p.modifyDecl d f).decl? x).elim 0 w =
      ∑ x ∈ (Finset.range p.nextDecl).erase d, (p.decl? x).elim 0 w := by
    refine Finset.sum_congr rfl fun x hx => ?_
    rw [decl?_modifyDecl_of_ne (Finset.ne_of_mem_erase hx).symm]
  have hself : ((p.modifyDecl d f).decl? d).elim 0 w = w (f D) := by rw [decl?_modifyDecl_self, hD]; rfl
  have hself' : (p.decl? d).elim 0 w = w D := by rw [hD]; rfl
  have h : w D + ∑ x ∈ (Finset.range p.nextDecl).erase d, (p.decl? x).elim 0 w = p.total w := by
    rw [← hself']
    exact Finset.add_sum_erase _ (fun x => (p.decl? x).elim 0 w) hd
  have h' : w (f D) + ∑ x ∈ (Finset.range p.nextDecl).erase d, (p.decl? x).elim 0 w = (p.modifyDecl d f).total w := by
    rw [← hself, ← hrest]
    exact Finset.add_sum_erase _ (fun x => ((p.modifyDecl d f).decl? x).elim 0 w) hd
  omega

lemma total_register (p : Program) (file : FileId) (ns : NameHash) (item : ItemSummary) :
    ∃ D : Decl, D.state = .unreferenced ∧ ∀ w, (p.register file ns item).total w = p.total w + w D := by
  have hnew : ∃ D : Decl, (p.register file ns item).decl? p.nextDecl = some D ∧ D.state = .unreferenced := by
    refine ⟨_, (Dict.get?_insert ..).trans (if_pos rfl), ?_⟩
    rfl
  have hold {d : DeclId} (hd : d < p.nextDecl) : (p.register file ns item).decl? d = p.decl? d :=
    (Dict.get?_insert ..).trans (if_neg hd.ne')
  obtain ⟨D, hD, hs⟩ := hnew
  refine ⟨D, hs, fun w => ?_⟩
  show ∑ d ∈ Finset.range (p.nextDecl + 1), ((p.register file ns item).decl? d).elim 0 w = p.total w + w D
  rw [Finset.sum_range_succ, hD]
  refine congrArg (· + w D) (Finset.sum_congr rfl fun d hd => ?_)
  rw [hold (Finset.mem_range.1 hd)]

lemma total_le_size (hw : ∀ D, w D ≤ k) : p.total w ≤ k * p.decls.size := by
  have had : ∀ d ∈ Finset.range p.nextDecl, (p.decl? d).elim 0 w ≤ if d ∈ p.decls.keys then k else 0 := by
    intro d _
    cases hD : p.decl? d with
    | none => exact Nat.zero_le _
    | some D =>
      have hk : d ∈ p.decls.keys := List.mem_map.2 ⟨_, Dict.mem_of_get? hD, rfl⟩
      rw [if_pos hk]
      exact hw D
  calc p.total w ≤ ∑ d ∈ Finset.range p.nextDecl, if d ∈ p.decls.keys then k else 0 := Finset.sum_le_sum had
    _ = k * ((Finset.range p.nextDecl).filter (· ∈ p.decls.keys)).card := by
      rw [← Finset.sum_filter, Finset.sum_const_nat fun _ _ => rfl, mul_comm]
    _ ≤ k * p.decls.keys.toFinset.card := by
      refine Nat.mul_le_mul_left k (Finset.card_le_card fun d hd => ?_)
      exact List.mem_toFinset.2 (Finset.mem_filter.1 hd).2
    _ ≤ k * p.decls.size := by
      refine Nat.mul_le_mul_left k ((List.toFinset_card_le _).trans ?_)
      rw [Dict.keys, List.length_map, Dict.size]

/-! Names that are offered and not registered. -/

def offered (p : Program) : List NameHash :=
  p.units.entries.flatMap fun (_, u) => (u.items?.getD []).map fun item => u.namespaceHash.child item.name

def unregistered (p : Program) : Nat := (p.offered.toFinset.filter fun name => p.declTable.get? name = none).card

variable {file : FileId} {ns : NameHash} {item : ItemSummary}

lemma Declares.offered (h : p.Declares file ns item) : ns.child item.name ∈ p.offered := by
  obtain ⟨u, hu, rfl, hi⟩ := h
  exact List.mem_flatMap.2 ⟨(file, u), Dict.mem_of_get? hu, List.mem_map.2 ⟨item, hi, rfl⟩⟩

lemma unregistered_congr (hu : p'.units = p.units) (ht : p'.declTable = p.declTable) :
    p'.unregistered = p.unregistered := by
  rw [unregistered, unregistered, Program.offered, Program.offered, hu, ht]

lemma offered_register (file : FileId) (ns : NameHash) (item : ItemSummary) :
    (p.register file ns item).offered = p.offered := by
  have hentry (e : FileId × SourceUnit) :
      (fun x : FileId × SourceUnit => (x.2.items?.getD []).map fun i => x.2.namespaceHash.child i.name)
        (if e.1 = file then (e.1, { e.2 with decls := e.2.decls.insert p.nextDecl }) else e) =
      (e.2.items?.getD []).map fun i => e.2.namespaceHash.child i.name := by
    split <;> rfl
  show (p.units.modify file _).entries.flatMap _ = p.units.entries.flatMap _
  rw [Dict.modify, List.flatMap_map]
  exact congrArg (p.units.entries.flatMap ·) (funext hentry)

lemma unregistered_register (hi : p.Declares file ns item) (ht : p.declTable.get? (ns.child item.name) = none) :
    (p.register file ns item).unregistered + 1 = p.unregistered := by
  have hmem : ns.child item.name ∈ p.offered.toFinset.filter fun name => p.declTable.get? name = none :=
    Finset.mem_filter.2 ⟨List.mem_toFinset.2 hi.offered, ht⟩
  have herase : ((p.register file ns item).offered.toFinset.filter
      fun name => (p.register file ns item).declTable.get? name = none) =
      (p.offered.toFinset.filter fun name => p.declTable.get? name = none).erase (ns.child item.name) := by
    rw [offered_register]
    ext name
    simp only [Finset.mem_filter, Finset.mem_erase, register, Dict.get?_insert]
    by_cases hn : ns.child item.name = name
    · simp [hn]
    · simp [hn, Ne.symm hn]
  rw [unregistered, herase]
  exact Finset.card_erase_add_one hmem

end Program

lemma declared_length_le (i n : Nat) (items : List Item) : (declared i n items).length ≤ items.length := by
  induction items generalizing i n with
  | nil => exact le_rfl
  | cons item rest ih =>
    have hs {j m : Nat} : (declared j m rest).length + 1 ≤ rest.length + 1 := Nat.succ_le_succ (ih j m)
    unfold declared
    split
    · exact hs
    · exact hs
    · exact hs
    · exact (ih _ _).trans (Nat.le_succ _)

lemma SourceUnit.items_length_le (u : SourceUnit) : (u.items?.getD []).length ≤ u.itemCount := by
  unfold items?
  split
  · exact Nat.zero_le _
  · unfold itemCount
    cases u.content with
    | source origin loaded =>
      cases loaded with
      | none => exact le_rfl
      | some l =>
        show (List.map _ _).length ≤ _
        rw [List.length_map]
        exact declared_length_le 0 0 l.items
    | lowered ds r =>
      show (List.map _ _).length ≤ _
      rw [List.length_map, List.length_zipIdx]

namespace Program
variable {p p' p'' : Program} {d : DeclId} {f : Decl → Decl}

lemma unregistered_le (p : Program) : p.unregistered ≤ (p.units.values.map SourceUnit.itemCount).sum := by
  calc p.unregistered ≤ p.offered.toFinset.card := Finset.card_le_card (Finset.filter_subset _ _)
    _ ≤ p.offered.length := List.toFinset_card_le _
    _ = (p.units.entries.map fun e => (e.2.items?.getD []).length).sum := by simp [Program.offered, List.length_flatMap]
    _ ≤ (p.units.entries.map fun e => e.2.itemCount).sum :=
      List.sum_le_sum fun e _ => e.2.items_length_le
    _ = (p.units.values.map SourceUnit.itemCount).sum := by rw [Dict.values, List.map_map]; rfl

/-! The three counts. -/

def live (p : Program) : Nat := p.total fun _ => 1

def unattended (p : Program) : Nat := p.total fun D => min 1 (D.toll p.generation)

def tolls (p : Program) : Nat := p.total (·.toll p.generation)

lemma live_add_unregistered_le (p : Program) : p.live + p.unregistered ≤ p.potentialDecls := by
  have hl : p.live ≤ 1 * p.decls.size := total_le_size fun _ => le_rfl
  have hu := p.unregistered_le
  rw [potentialDecls]
  omega

lemma tolls_add_unregistered_le (p : Program) : p.tolls + 2 * p.unregistered ≤ 3 * p.potentialDecls := by
  have ht : p.tolls ≤ 3 * p.decls.size := total_le_size (Decl.toll_le _)
  have hu := p.unregistered_le
  rw [potentialDecls]
  omega

lemma unattended_le_live (p : Program) : p.unattended ≤ p.live := by
  refine total_le_total rfl fun d => ?_
  cases p.decl? d with
  | none => exact .none
  | some D => exact .some (Nat.min_le_left ..)

section
variable {D : Decl} (hg : p.Graph) (hD : p.decl? d = some D)
include hg hD

lemma live_modifyDecl : (p.modifyDecl d f).live = p.live := Nat.add_right_cancel (total_modifyDecl hg hD fun _ => 1)

lemma unattended_modifyDecl : (p.modifyDecl d f).unattended + min 1 (D.toll p.generation) =
    p.unattended + min 1 ((f D).toll p.generation) := total_modifyDecl hg hD fun D => min 1 (D.toll p.generation)

lemma tolls_modifyDecl : (p.modifyDecl d f).tolls + D.toll p.generation = p.tolls + (f D).toll p.generation :=
  total_modifyDecl hg hD (·.toll p.generation)

end

structure Eases (p p' : Program) : Prop where
  decl : ∀ d, Option.Rel (fun D D' => D'.toll p.generation ≤ D.toll p.generation) (p.decl? d) (p'.decl? d)
  nextDecl : p'.nextDecl = p.nextDecl
  generation : p'.generation = p.generation
  units : p'.units = p.units
  declTable : p'.declTable = p.declTable

namespace Eases

lemma live_le (h : p.Eases p') : p.live ≤ p'.live := by
  exact total_le_total h.nextDecl.symm fun d => (h.decl d).elim .none fun _ _ _ => .some le_rfl

lemma unattended_le (h : p.Eases p') : p'.unattended ≤ p.unattended := by
  rw [unattended, unattended, h.generation]
  exact total_le_total h.nextDecl fun d => (h.decl d).elim .none fun _ _ hd => .some (min_le_min_left 1 hd)

lemma tolls_le (h : p.Eases p') : p'.tolls ≤ p.tolls := by
  rw [tolls, tolls, h.generation]
  exact total_le_total h.nextDecl h.decl

lemma unregistered (h : p.Eases p') : p'.unregistered = p.unregistered := unregistered_congr h.units h.declTable

lemma ofDecls (hd : p'.decls = p.decls) (hn : p'.nextDecl = p.nextDecl) (hg : p'.generation = p.generation)
    (hu : p'.units = p.units) (ht : p'.declTable = p.declTable) : p.Eases p' := by
  refine ⟨fun d => ?_, hn, hg, hu, ht⟩
  rw [decl?, decl?, hd]
  cases p.decls.get? d with
  | none => exact .none
  | some D => exact .some le_rfl

lemma refl (p : Program) : p.Eases p := ofDecls rfl rfl rfl rfl rfl

lemma ofQuiet (h : p.Quiet p') : p.Eases p' := ofDecls h.decls h.nextDecl h.generation h.units h.declTable

lemma ofRewired (h : p.Rewired p') : p.Eases p' := by
  refine ⟨fun d => ?_, h.nextDecl, h.generation, h.units, by rw [h.rest]⟩
  refine (h.decl d).elim .none fun _ _ hd => ?_
  cases hd
  exact .some (Decl.toll_congr rfl rfl).le

lemma modifyDecl (hf : ∀ D, p.decl? d = some D → (f D).toll p.generation ≤ D.toll p.generation) :
    p.Eases (p.modifyDecl d f) := by
  refine ⟨fun x => ?_, rfl, rfl, rfl, rfl⟩
  rw [decl?_modifyDecl]
  cases hx : p.decl? x with
  | none => split <;> exact .none
  | some D =>
    split
    · next hd => exact .some (hf D (hd ▸ hx))
    · exact .some le_rfl

lemma modifySame (hf : ∀ D, (f D).state = D.state ∧ (f D).generation = D.generation) : p.Eases (p.modifyDecl d f) :=
  modifyDecl fun D _ => (Decl.toll_congr (hf D).1 (hf D).2).le

variable {state : DeclState}

lemma settleRunning (hs : state ≠ .outdated ∧ state ≠ .unreferenced) :
    p.Eases (p.modifyDecl d fun D => if D.isInProgress then { D with state } else D) := by
  refine modifyDecl fun D _ => ?_
  split
  · next hp =>
    have hp : D.state = .inProgress := beq_iff_eq.1 hp
    exact Decl.toll_le_of_ne (by simp [hp]) hs rfl
  · exact le_rfl

lemma trans (h : p.Eases p') (h' : p'.Eases p'') : p.Eases p'' := by
  refine ⟨fun d => (h.decl d).comp (h'.decl d) fun hd hd' => ?_, h'.nextDecl.trans h.nextDecl,
    h'.generation.trans h.generation, h'.units.trans h.units, h'.declTable.trans h.declTable⟩
  exact (h.generation ▸ hd').trans hd

lemma fail (p : Program) (scope : Scope) (span : Span) (cause : Cause) : p.Eases (p.fail scope span cause) := by
  have recorded {p p' : Program} (h : p.Eases p') (x : DeclId) (diagnostic : Diagnostic) :
      p.Eases (p'.record x diagnostic) :=
    h.trans (ofDecls rfl rfl rfl rfl rfl)
  unfold Program.fail
  dsimp only
  split
  · refine recorded ?_ _ _
    exact modifySame fun _ => ⟨rfl, rfl⟩
  · refine recorded (modifyDecl fun D _ => ?_) _ _
    have ha : ({ D with state := .failed, generation := p.generation } : Decl).Attended p.generation :=
      ⟨rfl, nofun, nofun⟩
    rw [ha.toll]
    exact Nat.zero_le _
  · exact ofDecls rfl rfl rfl rfl rfl

lemma dependencyFailed (p : Program) (site : Analysis.Site) : p.Eases (p.dependencyFailed site) := by
  unfold Program.dependencyFailed
  split
  · exact modifySame fun _ => ⟨rfl, rfl⟩
  · exact settleRunning ⟨nofun, nofun⟩

lemma finishAnalysis (p : Program) (d : DeclId) : p.Eases (p.finishAnalysis d) := by
  have h : p.Eases (p.modifyDecl d fun D => if D.isInProgress then { D with state := .complete } else D) :=
    settleRunning ⟨nofun, nofun⟩
  exact h.trans (ofDecls rfl rfl rfl rfl rfl)

lemma abandonAnalysis (p : Program) (d : DeclId) : p.Eases (p.abandonAnalysis d) := settleRunning ⟨nofun, nofun⟩

lemma refuse {D : Decl} (hd : p.decl? d = some D) (hD : D.state ≠ .outdated ∧ D.state ≠ .unreferenced)
    (hs : state = .codegenFailed ∨ state = .codegenFailedRetryable) (cause : Cause) :
    p.Eases (p.refuse d D state cause) := by
  have hs : state ≠ .outdated ∧ state ≠ .unreferenced := by
    obtain rfl | rfl := hs <;> exact ⟨nofun, nofun⟩
  have h : p.Eases (p.modifyDecl d ({ · with state })) := by
    refine modifyDecl fun D' hD' => ?_
    cases hd.symm.trans hD'
    exact Decl.toll_le_of_ne hD hs rfl
  exact h.trans (ofDecls rfl rfl rfl rfl rfl)

end Eases

end Program

end Frontend
