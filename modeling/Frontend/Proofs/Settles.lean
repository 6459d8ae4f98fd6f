import Frontend.Engine

/-! What holds of the outcome of a step that may be interrupted. -/

namespace Frontend

/-- A step from `s` ends with a result for which `Q` holds, or with an interrupt for which `E` does. -/
def Settles {ε σ α : Type} (m : EStateM ε σ α) (s : σ) (Q : α → σ → Prop) (E : ε → σ → Prop) : Prop :=
  match m s with
  | .ok a s => Q a s
  | .error i s => E i s

namespace Settles
variable {ε σ α β : Type} {m : EStateM ε σ α} {s : σ} {Q Q' : α → σ → Prop} {E E' : ε → σ → Prop}

theorem ofOk {a : α} {s' : σ} (hm : m s = .ok a s') (h : Q a s') : Settles m s Q E := by
  unfold Settles
  rw [hm]
  exact h

theorem ofEq {m' : EStateM ε σ α} {s' : σ} (hm : m s = m' s') (h : Settles m' s' Q E) : Settles m s Q E := by
  unfold Settles at *
  rw [hm]
  exact h

theorem exists_ok (h : Settles m s Q E) (hE : ∀ i s', ¬ E i s') : ∃ a s', m s = .ok a s' ∧ Q a s' := by
  unfold Settles at h
  cases hm : m s with
  | ok a s' => exact ⟨a, s', rfl, by rwa [hm] at h⟩
  | error i s' =>
    rw [hm] at h
    exact absurd h (hE i s')

theorem exists_error (h : Settles m s Q E) (hQ : ∀ a s', ¬ Q a s') : ∃ i s', m s = .error i s' ∧ E i s' := by
  unfold Settles at h
  cases hm : m s with
  | error i s' => exact ⟨i, s', rfl, by rwa [hm] at h⟩
  | ok a s' =>
    rw [hm] at h
    exact absurd h (hQ a s')

theorem mono (h : Settles m s Q E) (hQ : ∀ a s, Q a s → Q' a s) (hE : ∀ i s, E i s → E' i s) :
    Settles m s Q' E' := by
  unfold Settles at *
  split
  · next hm => rw [hm] at h; exact hQ _ _ h
  · next hm => rw [hm] at h; exact hE _ _ h

theorem and (h : Settles m s Q E) (h' : Settles m s Q' E') :
    Settles m s (fun a s => Q a s ∧ Q' a s) fun i s => E i s ∧ E' i s := by
  unfold Settles at *
  split
  · next hm => rw [hm] at h h'; exact ⟨h, h'⟩
  · next hm => rw [hm] at h h'; exact ⟨h, h'⟩

theorem also (h : Settles m s Q E) (h' : Settles m s Q' E') : Settles m s (fun a s => Q' a s ∧ Q a s) E :=
  (h'.and h).mono (fun _ _ h => h) fun _ _ h => h.2

theorem bind {f : α → EStateM ε σ β} {R : β → σ → Prop} (h : Settles m s Q E)
    (hf : ∀ a s, Q a s → Settles (f a) s R E) : Settles (m >>= f) s R E := by
  unfold Settles at h
  show match EStateM.bind m f s with | .ok b s => R b s | .error i s => E i s
  unfold EStateM.bind
  split at h
  · next hm => rw [hm]; exact hf _ _ h
  · next hm => rw [hm]; exact h

theorem ite {c : Prop} [Decidable c] {n : EStateM ε σ α} (ht : c → Settles m s Q E)
    (hf : ¬ c → Settles n s Q E) : Settles (if c then m else n) s Q E := by
  split
  · exact ht ‹c›
  · exact hf ‹¬ c›

/-! Steps of the engine. -/

variable {α : Type} {e : Engine} {Q : α → Engine → Prop} {E : Interrupt → Engine → Prop}

theorem program {f : Program → EngineM α} (h : Settles (f e.program) e Q E) :
    Settles (EngineM.program >>= f) e Q E := h

variable {f : Unit → EngineM α} {scope : Scope} {span : Span} {cause : Cause}

theorem modify {g : Program → Program} (h : Settles (f ()) (e.modifyProgram g) Q E) :
    Settles (EngineM.modifyProgram g >>= f) e Q E := h

theorem push {item : WorkItem} (h : Settles (f ()) (e.push item) Q E) : Settles (EngineM.push item >>= f) e Q E := h

theorem throw {i : Interrupt} (h : E i e) : Settles (MonadExcept.throw i : EngineM α) e Q E := h

theorem fail (h : E .analysisFail (e.modifyProgram (·.fail scope span cause))) :
    Settles (EngineM.fail scope span cause) e Q E := h

theorem failThen (h : E .analysisFail (e.modifyProgram (·.fail scope span cause))) :
    Settles (EngineM.fail scope span cause >>= f) e Q E := h

end Settles

end Frontend
