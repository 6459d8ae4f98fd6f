import Frontend.Proofs.Emitted
import Frontend.Proofs.Moves.First

/-! The first update of a program that comes of texts: what had a value when an analysis was begun still has it where
the analysis is over. -/

namespace Frontend

namespace Program

structure Unstarted (p : Program) : Prop where
  generation : p.generation = 0
  deletionSet : p.deletionSet = []
  decls : ∀ d, p.decl? d = none

lemma Unstarted.edit {p : Program} (h : p.Unstarted) (change : Edit) : (p.edit change).Unstarted := by
  cases change <;> exact ⟨h.generation, h.deletionSet, h.decls⟩

lemma Unstarted.first {p : Program} (h : p.Unstarted) : Config.First p.starting := by
  have none {d : DeclId} {D : Decl} (hD : p.nextGeneration.decl? d = some D) : False :=
    nomatch (h.decls d).symm.trans hD
  exact ⟨congrArg Nat.succ h.generation, fun _ hD => (none hD).elim, fun _ hD => (none hD).elim, nofun,
    fun _ => h.deletionSet⟩

lemma Drafts.unstarted {options : Options} {backend : Backend} {p : Program} (h : Drafts { options, backend } p) :
    p.Unstarted ∧ p.Emitted := by
  induction h with
  | refl => exact ⟨⟨rfl, rfl, fun _ => rfl⟩, .empty options backend⟩
  | edit _ ht ih => exact ⟨ih.1.edit _, ih.2.edit ht⟩

end Program

structure Config.Initial (o : Engine) (c : Config) : Prop where
  emits : c.Emits o
  first : c.First
  carries : o.program.Carries c.engine.program

namespace Config.Initial
variable {o : Engine} {c c' : Config}

lemma rebase (h : c.Initial o) : c.Initial c.engine := ⟨h.emits.rebase, h.first, .refl _⟩

lemma carried (hm : Move c c') (h : c.Initial o) : c.program.Carries c'.program :=
  hm.carries h.emits.emitted.graph h.first

lemma move (hm : Move c c') (hp : c.stage = .resting → c.stage.publishes c'.stage = false) (he : c'.Emits o)
    (h : c.Initial o) : c'.Initial o :=
  ⟨he, first_move c c' hm hp h.emits.emitted.graph h.emits.attentive h.first, h.carries.trans (h.carried hm)⟩

lemma opens (hm : Move c c') (hb : ¬ (c'.body = none ∨ c'.body = c.body)) (h : c.Initial o) : c'.Initial c'.engine := by
  refine ⟨h.emits.opens hm hb, first_move c c' hm ?_ h.emits.emitted.graph h.emits.attentive h.first, .refl _⟩
  cases hm with
  | openBody => exact nofun
  | _ => first | exact absurd (.inl rfl) hb | exact absurd (.inr rfl) hb

lemma begin {p : Program} (h : p.Unstarted) (he : p.Emitted) : Initial ⟨p, {}⟩ p.starting :=
  ⟨he.begin, h.first, .ofDecls rfl⟩

end Config.Initial

end Frontend
