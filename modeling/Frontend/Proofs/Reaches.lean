import Frontend.Proofs.Moves.Update
import Frontend.Proofs.Session

/-! What holds of every program that is reached. A property that updates uphold, and that edges made by hand do not
spoil, is kept by every action, since each of them is made of moves. -/

namespace Frontend.Program

/-- A property outlasts whatever is done to a program but for edits. In the course of it configurations have the
property `K`, which comes down to `P` where nothing is under analysis. Of the items that are lowered, `L` is known. -/
structure Outlasts (K : Config → Prop) (P : Program → Prop) (L : Untyped.Decl → Prop) : Prop where
  upheld : Upheld (fun _ => K) L
  idle {st e} : P e.program → K ⟨st, [], none, e⟩ := by exact id
  holds {c} : K c → P c.engine.program := by exact id
  update {p} : P p → P p.update.2
  addEdge {p} (a b : DeclId) : P p → P (p.addEdge a b)
  removeEdge {p} (a b : DeclId) : P p → P (p.removeEdge a b)
  clearEdges {p} (a : DeclId) : P p → P (p.clearEdges a)

abbrev Lasting (P : Program → Prop) (L : Untyped.Decl → Prop) : Prop := Outlasts (fun c => P c.engine.program) P L

variable {P : Program → Prop} {L : Untyped.Decl → Prop} {p : Program}

lemma update_of_kept {K : Engine → Config → Prop} (upheld : Upheld K L)
    (begins : P p → K ⟨p, {}⟩ p.starting) (holds : ∀ {o c}, K o c → P c.program)
    (ends : ∀ {p : Program}, P p → P p.closed) (hp : P p) : P p.update.2 := by
  have hu := update_upheld upheld (p := p) ⟨⟨p, {}⟩, begins hp⟩
  generalize p.update = outcome at hu
  obtain ⟨report | i, p'⟩ := outcome
  · obtain ⟨queue, o, hp'⟩ := hu
    exact holds hp'
  · obtain ⟨e, ⟨o, he⟩, -, -, rfl⟩ := hu
    exact ends (holds he)

lemma update_of_upheld (upheld : Upheld (fun _ c => P c.program) L) (begins : P p → P p.nextGeneration)
    (ends : ∀ {p : Program}, P p → P p.closed) (hp : P p) :
    P p.update.2 := update_of_kept upheld begins id ends hp

namespace Outlasts
variable {K : Config → Prop} {P : Program → Prop} {L : Untyped.Decl → Prop} {p p' : Program}

lemma ofRewire (upheld : Upheld (fun _ => K) L) (update : ∀ {p}, P p → P p.update.2)
    (rewire : ∀ {p p'}, p.Rewired p' → P p → P p') (idle : ∀ {st e}, P e.program → K ⟨st, [], none, e⟩ := by exact id)
    (holds : ∀ {c}, K c → P c.program := by exact id) : Outlasts K P L where
  upheld
  idle
  holds
  update
  addEdge a b h := rewire (addEdge_rewired _ a b) h
  removeEdge a b h := rewire (removeEdge_rewired _ a b) h
  clearEdges a h := rewire (clearEdges_rewired _ a) h

variable (h : Outlasts K P L)
include h

lemma step {st : Stage} {S : List DeclId} {e : Engine} {c' : Config} (hm : Move ⟨st, S, none, e⟩ c')
    (hp : st.concludes c'.stage = false) (hc : K ⟨st, S, none, e⟩) : K c' := by
  obtain ⟨-, h⟩ := h.upheld.keep hm hp ⟨e, hc⟩
  exact h

lemma ensure (queue : WorkQueue) (d : DeclId) (hp : P p) : P (p.act (.ensure queue d)) := by
  have he : Settles (EngineM.ensure d) ⟨p, queue⟩ (fun _ e' => K ⟨.working, [], none, e'⟩)
      (Halts True K .working [] none) :=
    EngineM.ensure_upheld (o := ⟨p, queue⟩) (S := []) (B := none) h.upheld (.free _ L) (h.idle hp)
  unfold Settles at he
  dsimp only [act]
  generalize EngineM.ensure d ⟨p, queue⟩ = result at he ⊢
  cases result with
  | ok _ e => exact h.holds he
  | error i e =>
    have he : Halts True K .working [] none i e := he
    exact h.holds (he.torn (h.step .tear rfl))

lemma drain (queue : WorkQueue) (hp : P p) : P (p.act (.drain queue)) := by
  have turns (fuel : Nat) : ∀ {e : Engine}, K ⟨.draining, [], none, e⟩ →
      K ⟨.draining, [], none, Engine.drainWith fuel e⟩ := by
    induction fuel with
    | zero => exact fun hp => hp
    | succ fuel ih =>
      intro e hp
      unfold Engine.drainWith
      split
      · exact hp
      · next d rest hs => exact ih (h.step (.drain hs) rfl hp)
  exact h.holds (turns _ (h.idle (e := ⟨p, queue⟩) hp))

lemma act (action : Action) (he : ∀ change, action = .edit change → P (p.edit change)) (hp : P p) :
    P (p.act action) := by
  cases action with
  | edit change => exact he change rfl
  | update => exact h.update hp
  | reconcile queue file =>
    have hc : Kept (fun _ => K) ⟨.opening [file], [], none, ⟨p, queue⟩⟩ := ⟨⟨p, queue⟩, h.idle hp⟩
    obtain ⟨-, hr⟩ := Engine.reconcile_upheld h.upheld hc
    exact h.holds hr
  | ensure queue d => exact h.ensure queue d hp
  | addEdge a b => exact h.addEdge a b hp
  | removeEdge a b => exact h.removeEdge a b hp
  | clearEdges a => exact h.clearEdges a hp
  | deleteDecl queue d =>
    have hm : Move ⟨.reconciling 0 [d] (some []) [], [], none, ⟨p, queue⟩⟩
        ⟨.reconciling 0 [] (some []) [], [], none, Engine.deleteDecl ⟨p, queue⟩ d⟩ := .drop
    exact h.holds (h.step hm rfl (h.idle hp))
  | drain queue => exact h.drain queue hp

lemma reaches {allowed : Action → Prop} (he : ∀ {p change}, allowed (.edit change) → P p → P (p.edit change))
    (hb : ∀ {p} backend, P p → P { p with backend }) (hr : Reaches allowed p p') (hp : P p) : P p' := by
  induction hr with
  | refl => exact hp
  | @act p' _ action ha ih =>
    refine h.act action (fun change hc => ?_) ih
    subst hc
    exact he ha ih
  | backend _ backend ih => exact hb backend ih

end Outlasts

end Frontend.Program
