import Frontend.Proofs.Moves.Identity

/-! Values before and after a move. But for the moves that hand out what an evaluation came to, a value stays what it
is: its function may fail or be put off, but a body that was analyzed is not touched. -/

namespace Frontend

structure DeclValue.Stays (v v' : DeclValue) : Prop where
  ty : v'.ty = v.ty
  val : v'.val = v.val
  func {f'} : v'.func = some f' → ∃ f, v.func = some f ∧ f'.source = f.source ∧ f'.revision = f.revision
  analyzed {f'} : v'.func = some f' → f'.state = .success → v' = v

def Decl.Stays (D D' : Decl) : Prop := ∀ v', D'.value = some v' → ∃ v, D.value = some v ∧ v.Stays v'

def Config.Unfinished (c : Config) : Prop :=
  ∀ d r D v f, c.body = some (d, r) → c.engine.program.decl? d = some D → D.value = some v → v.func = some f →
    f.revision = r → f.state ≠ .success

lemma DeclValue.Stays.refl (v : DeclValue) : v.Stays v := ⟨rfl, rfl, fun h => ⟨_, h, rfl, rfl⟩, fun _ _ => rfl⟩

namespace Decl.Stays
variable {D D' D'' : Decl}

lemma same (h : D'.value = D.value) : D.Stays D' := fun v hv => ⟨v, h ▸ hv, .refl v⟩

lemma ofFunc {v v' : DeclValue} {f f' : Function} (hv : D.value = some v) (hv' : D'.value = some v')
    (hf : v.func = some f) (hf' : v'.func = some f') (ht : v'.ty = v.ty) (hw : v'.val = v.val)
    (hs : f'.source = f.source) (hr : f'.revision = f.revision) (hn : f'.state ≠ .success) : D.Stays D' := by
  intro w hw'
  cases hv'.symm.trans hw'
  refine ⟨v, hv, ht, hw, fun hg => ?_, fun hg h => ?_⟩
  · cases hf'.symm.trans hg
    exact ⟨f, hf, hs, hr⟩
  · cases hf'.symm.trans hg
    exact absurd h hn

lemma modifyFunc {g : Function → Function}
    (hg : ∀ f, g f = f ∨ (g f).source = f.source ∧ (g f).revision = f.revision ∧ (g f).state ≠ .success) :
    D.Stays (D.modifyFunc g) := by
  cases hv : D.value with
  | none =>
    intro v' hv'
    simp [Decl.modifyFunc, hv] at hv'
  | some v =>
    have hv' : (D.modifyFunc g).value = some { v with func := v.func.map g } := by simp [Decl.modifyFunc, hv]
    cases hf : v.func with
    | none =>
      refine same (hv'.trans ?_)
      rw [hv, hf, Option.map_none, ← hf]
    | some f =>
      obtain h | ⟨hs, hr, hn⟩ := hg f
      · refine same (hv'.trans ?_)
        rw [hv, hf, Option.map_some, h, ← hf]
      · exact ofFunc hv hv' hf (by simp [hf]) rfl rfl hs hr hn

lemma finishBody {r : Nat} {arena : Typed.Arena} {g : Function → Function}
    (hg : ∀ v f, D.value = some v → v.func = some f → f.revision = r →
      (g f).source = f.source ∧ (g f).revision = f.revision ∧ (g f).state ≠ .success) :
    D.Stays { D with
      value := D.value.map fun v =>
        if (v.func).any (·.revision == r) then { v with arena, func := v.func.map g } else v } := by
  cases hv : D.value with
  | none =>
    intro v' hv'
    cases hv'
  | some v =>
    by_cases hr : (v.func).any (·.revision == r) = true
    · obtain ⟨f, hf, hrev⟩ := (Option.any_eq_true _ _).1 hr
      obtain ⟨hs, hrev', hn⟩ := hg v f hv hf (by simpa using hrev)
      exact ofFunc hv (congrArg some (if_pos hr)) hf (by simp [hf]) rfl rfl hs hrev' hn
    · refine same ?_
      simp [hv, hr]

end Decl.Stays

lemma Program.exists_of_finishBody {p : Program} {d x : DeclId} {r : Nat} {arena : Typed.Arena}
    {g : Function → Function}
    {D : Decl} {v : DeclValue} (hD : (p.finishBody d r arena g).decl? x = some D) (hv : D.value = some v) :
    ∃ D₀ v₀, p.decl? x = some D₀ ∧ D₀.value = some v₀ ∧
      (v = v₀ ∧ (x = d → ∀ f, v.func = some f → f.revision ≠ r) ∨
        x = d ∧ ∃ f, v₀.func = some f ∧ f.revision = r ∧ v = { v₀ with arena, func := some (g f) }) := by
  obtain ⟨rfl, D₀, hD₀, rfl⟩ | ⟨hx, hD₀⟩ := decl?_modifyDecl_cases hD
  · obtain ⟨v₀, hv₀, rfl⟩ := Option.map_eq_some_iff.1 hv
    refine ⟨D₀, v₀, hD₀, hv₀, ?_⟩
    split
    · next hr =>
      obtain ⟨f, hf, hrev⟩ := (Option.any_eq_true _ _).1 hr
      exact .inr ⟨rfl, f, hf, by simpa using hrev, by rw [hf, Option.map_some]⟩
    · next hr =>
      refine .inl ⟨rfl, fun _ f hf hrev => hr ?_⟩
      rw [hf]
      exact beq_iff_eq.2 hrev
  · exact ⟨D, v, hD₀, hv, .inl ⟨rfl, fun h => absurd h hx⟩⟩

lemma Move.stays {c c' : Config} (hm : Move c c') (hp : c.stage.publishes c'.stage = false) (hb : c.Unfinished)
    {x : DeclId} {D' : Decl} (hD' : c'.program.decl? x = some D') :
    D'.value = none ∨ ∃ D, c.program.decl? x = some D ∧ D.Stays D' := by
  obtain ⟨D, r', hD, -, h⟩ | ⟨file, ns, item, -, -, -, -, -, rfl⟩ := hm.was hD'
  · refine .inr ⟨D, hD, ?_⟩
    cases h with
    | failedBody => exact .modifyFunc fun _ => .inr ⟨rfl, rfl, nofun⟩
    | dependedBody =>
      refine .modifyFunc fun f => ?_
      split
      · exact .inr ⟨rfl, rfl, nofun⟩
      · exact .inl rfl
    | installed hst hst' =>
      rw [hst, hst'] at hp
      cases hp
    | opened _ _ _ _ _ hv hf => exact .ofFunc hv rfl hf rfl rfl rfl rfl rfl nofun
    | ended _ _ hd _ _ hg =>
      refine .finishBody fun v f hv hf hr => ?_
      obtain ⟨-, rfl⟩ | ⟨hst, hst', _, rfl⟩ | ⟨-, -, rfl⟩ := hg
      · exact ⟨rfl, rfl, nofun⟩
      · rw [hst, hst'] at hp
        cases hp
      · refine ⟨rfl, rfl, ?_⟩
        dsimp only
        split
        · nofun
        · exact hb _ _ D v f hd hD hv hf hr
    | _ => exact .same rfl
  · exact .inl rfl

end Frontend
