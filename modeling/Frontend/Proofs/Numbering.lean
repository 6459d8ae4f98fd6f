import Frontend.Proofs.Reports

/-! Numbers of declarations. A number is given out once: what stands under it later is the declaration that stood under
it before, and once that is gone nothing does. -/

namespace Frontend.Program
variable {p p' : Program}

structure Continues (p p' : Program) : Prop where
  next : p.nextDecl ≤ p'.nextDecl
  numbered {d : DeclId} {D : Decl} : p'.decl? d = some D → D.id = d ∧ d < p'.nextDecl
  same {d : DeclId} {D' : Decl} : p'.decl? d = some D' → d < p.nextDecl → ∃ D, p.decl? d = some D ∧ D.Is D'

namespace Continues

lemma follow {p'' : Program} (h : p.Continues p') (hf : p'.Follows p'') (hn : p'.nextDecl ≤ p''.nextDecl) :
    p.Continues p'' where
  next := Nat.le_trans h.next hn
  numbered {d D''} hD'' := by
    obtain ⟨D', hD', his⟩ := hf d D'' hD''
    obtain ⟨hid, hlt⟩ := h.numbered hD'
    exact ⟨his.id.trans hid, Nat.lt_of_lt_of_le hlt hn⟩
  same {d D''} hD'' hd := by
    obtain ⟨D', hD', his'⟩ := hf d D'' hD''
    obtain ⟨D, hD, his⟩ := h.same hD' hd
    exact ⟨D, hD, his.trans his'⟩

lemma register (h : p.Continues p') (file : FileId) (ns : NameHash) (item : ItemSummary) :
    p.Continues (p'.register file ns item) where
  next := Nat.le_succ_of_le h.next
  numbered {d D} hD := by
    obtain ⟨hD, -⟩ | ⟨rfl, rfl⟩ := decl?_register_cases hD
    · exact ⟨(h.numbered hD).1, Nat.lt_succ_of_lt (h.numbered hD).2⟩
    · exact ⟨rfl, Nat.lt_succ_self _⟩
  same {d D} hD hd := by
    obtain ⟨hD, -⟩ | ⟨rfl, -⟩ := decl?_register_cases hD
    · exact h.same hD hd
    · exact absurd h.next (Nat.not_le.2 hd)

lemma move {c c' : Config} (hm : Move c c') (h : p.Continues c.program) : p.Continues c'.program := by
  obtain hf | ⟨file, ns, item, -, -, hp⟩ := hm.follows_or_registers
  · exact h.follow hf hm.nextDecl_le
  · rw [show c'.program = _ from hp]
    exact h.register file ns item

lemma ofSame {p'' : Program} (h : p.Continues p') (hd : p''.decls = p'.decls) (hn : p''.nextDecl = p'.nextDecl) :
    p.Continues p'' := h.follow (.ofDecls (fun _ => .refl) hd) (Nat.le_of_eq hn.symm)

lemma lasting (p : Program) : Lasting p.Continues fun _ => True := by
  have upheld : Upheld (fun _ c => p.Continues c.program) fun _ => True := .ofMoves fun _ _ => move
  refine .ofRewire upheld (update_of_upheld upheld (fun h => h.ofSame rfl rfl) fun h => h.ofSame rfl rfl) fun hw h => ?_
  refine h.follow (.ofRewired hw fun d D D' hw => ?_) (Nat.le_of_eq hw.nextDecl.symm)
  cases hw
  exact ⟨rfl, rfl, rfl, rfl⟩

lemma edit (h : p.Continues p') (change : Edit) : p.Continues (p'.edit change) := by
  cases change <;> exact h.ofSame rfl rfl

lemma reaches {allowed : Action → Prop} (hr : Reaches allowed p p') (h : p.Continues p) : p.Continues p' :=
  (lasting p).reaches (fun _ h => h.edit _) (fun _ h => h.ofSame rfl rfl) hr h

end Continues

lemma update_deleted {options : Options} {backend : Backend} {report : Report}
    (h : Reaches (fun _ => True) { options, backend } p) (hu : p.update = (.ok report, p')) {d : DeclId}
    (hd : d ∈ report.deleted) : d < p'.nextDecl ∧ p'.decl? d = none := by
  have hbegin := reporting_begins ((Graph.empty options backend).reaches h) (.reaches h)
  have hN (hs : p.Unambiguous ∧ p.Unrepeated) x y (hx : x ∈ p.names) (hy : y ∈ p.names) := hs.1.hashes x hx y hy
  obtain ⟨e, he, -, rfl, rfl⟩ := update_intact (fun c c' hm hb hE ht hc => hc.move hN hm hb hE ht) hbegin hu
  exact he.deletions.gone hd

/-- However a program is reached: a name leads to a declaration just if it is the name of one that is there; each
declaration is of a unit that is there and named after it; a unit lists its own declarations; and no number is given out
again, so that what was deleted stays away. -/
theorem names_units_numbers_agree {options : Options} {backend : Backend} {p : Program}
    (h : Reaches (fun _ => True) { options, backend } p) :
    (∀ hash d, p.declTable.get? hash = some d ↔ ∃ D, p.decl? d = some D ∧ D.nameHash = hash) ∧
    (∀ d D, p.decl? d = some D →
      ∃ u, p.units.get? D.file = some u ∧ D.nameHash = u.namespaceHash.child D.name) ∧
    (∀ file u, p.units.get? file = some u → ∀ d, d ∈ u.decls ↔ ∃ D, p.decl? d = some D ∧ D.file = file) ∧
    (∀ report p', p.update = (.ok report, p') → ∀ d ∈ report.deleted, d < p'.nextDecl ∧ p'.decl? d = none) ∧
    ∀ p', Reaches (fun _ => True) p p' → p.Continues p' := by
  have hr : p.Registry := .reaches h
  refine ⟨fun hash d => ⟨hr.named, ?_⟩, fun d D hD => ?_, fun file u hu d => ⟨hr.listed (Dict.mem_of_get? hu), ?_⟩,
    fun report p' hu d hd => update_deleted h hu hd, fun p' hp' => .reaches hp' ?_⟩
  · rintro ⟨D, hD, rfl⟩
    exact hr.found hD
  · obtain ⟨u, hu, -, hn⟩ := hr.placed hD
    exact ⟨u, hu, hn⟩
  · rintro ⟨D, hD, rfl⟩
    obtain ⟨u', hu', hm, -⟩ := hr.placed hD
    cases hu.symm.trans hu'
    exact hm
  · have hc : ({ options, backend } : Program).Continues p := .reaches h ⟨Nat.le_refl _, nofun, nofun⟩
    exact ⟨Nat.le_refl _, hc.numbered, fun hD _ => ⟨_, hD, .refl _⟩⟩

/-- Memory is spent while a unit is removed, and a unit of the same path is added later: its declarations are new
ones. -/
theorem names_units_numbers_agree_torn_removal :
    let text := "const x = 1;\ncomptime \x7b _ = x; \x7d\n"
    let p₁ := (Program.act { options := { arenaLimit := some 4 } } (.edit (.addSource "b" text))).act .update
    let p₂ :=
      (p₁.act (.edit (.addSource "a" "comptime \x7b _ = 1 + 2 + 3 + 4 + 5; \x7d\n"))).act (.edit (.removeUnit 0))
    let p₃ :=
      ((p₂.act .update).act (.edit (.addSource "b" text))).act (.edit (.setSource 1 "comptime \x7b _ = 1; \x7d\n"))
    p₁.lookup? 0 "x" = some 0 ∧ p₂.update.1 = .error .outOfMemory ∧ (p₂.update.2.units.get? 0).any (·.removed) = true ∧
      (p₃.act .update).lookup? 2 "x" = some 3 ∧ (p₃.act .update).decl? 0 = none ∧
      ∀ hash d, (p₃.act .update).declTable.get? hash = some d ↔
        ∃ D, (p₃.act .update).decl? d = some D ∧ D.nameHash = hash := by
  intro text p₁ p₂ p₃
  have h₂ : Reaches (fun _ => True) { options := { arenaLimit := some 4 } } (p₂.act .update) :=
    ((((Reaches.refl.act trivial).act trivial).act trivial).act trivial).act trivial
  have h₃ : Reaches (fun _ => True) (p₂.act .update) (p₃.act .update) :=
    ((Reaches.refl.act trivial).act trivial).act trivial
  have hd : p₁.lookup? 0 "x" = some 0 ∧ p₂.update.1 = .error .outOfMemory ∧
      (p₂.update.2.units.get? 0).any (·.removed) = true ∧ (p₃.act .update).lookup? 2 "x" = some 3 ∧
      (p₂.act .update).nextDecl = 3 ∧ ((p₂.act .update).decl? 0).isNone = true := by decide +kernel
  obtain ⟨hx, hu, hremoved, hx', hnext, hgone⟩ := hd
  obtain ⟨-, -, -, -, hcontinues⟩ := names_units_numbers_agree h₂
  have hall : Reaches (fun _ => True) { options := { arenaLimit := some 4 } } (p₃.act .update) :=
    ((h₂.act trivial).act trivial).act trivial
  refine ⟨hx, hu, hremoved, hx', ?_, (names_units_numbers_agree hall).1⟩
  cases hD : (p₃.act .update).decl? 0 with
  | none => rfl
  | some D' =>
    obtain ⟨D, hD, -⟩ := (hcontinues _ h₃).same hD (hnext ▸ Nat.zero_lt_succ 2)
    rw [hD] at hgone
    cases hgone

end Frontend.Program
