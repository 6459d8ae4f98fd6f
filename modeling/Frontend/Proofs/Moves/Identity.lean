import Frontend.Proofs.Moves.Turns

/-! Declarations before and after a move. A declaration keeps its name and its unit as long as it is there; but for an
analysis of its own it keeps its function; and most operations leave nothing more to be done with it than there was. -/

namespace Frontend

structure Decl.Is (D D' : Decl) : Prop where
  id : D'.id = D.id
  name : D'.name = D.name
  nameHash : D'.nameHash = D.nameHash
  file : D'.file = D.file

structure Function.Leads (f f' : Function) : Prop where
  source : f'.source = f.source
  revision : f'.revision = f.revision
  state : f'.state = f.state ∨ f'.state ≠ .queued ∧ f'.state ≠ .inProgress

structure Decl.Keeps (D D' : Decl) : Prop extends D.Is D' where
  func {v' f'} : D'.value = some v' → v'.func = some f' →
    ∃ v f, D.value = some v ∧ v.func = some f ∧ v'.ty = v.ty ∧ f.Leads f'

structure Decl.Traces (D D' : Decl) : Prop extends D.Is D' where
  source {f'} : D'.func? = some f' → ∃ f, D.func? = some f ∧ f'.source = f.source

lemma Function.Leads.refl (f : Function) : f.Leads f := ⟨rfl, rfl, .inl rfl⟩

lemma Function.Leads.state_eq {f f' : Function} (h : f.Leads f') (hs : f'.state = .queued ∨ f'.state = .inProgress) :
    f.state = f'.state := by
  obtain hl | ⟨hq, hp⟩ := h.state
  · exact hl.symm
  · exact absurd hs (not_or.2 ⟨hq, hp⟩)

namespace Decl
variable {D D' D'' : Decl}

lemma Is.refl (D : Decl) : D.Is D := ⟨rfl, rfl, rfl, rfl⟩

lemma Is.trans (h : D.Is D') (h' : D'.Is D'') : D.Is D'' :=
  ⟨h'.id.trans h.id, h'.name.trans h.name, h'.nameHash.trans h.nameHash, h'.file.trans h.file⟩

lemma Keeps.same (h : D.Is D') (hv : D'.value = D.value) : D.Keeps D' where
  toIs := h
  func {v f} hv' hf := ⟨v, f, hv ▸ hv', hf, rfl, .refl f⟩

lemma Keeps.refl (D : Decl) : D.Keeps D := same (.refl D) rfl

variable {g : Function → Function} {arena : Typed.Arena}

lemma Keeps.modifyFunc (hg : ∀ f : Function, f.Leads (g f)) : D.Keeps (D.modifyFunc g) where
  toIs := ⟨rfl, rfl, rfl, rfl⟩
  func hv hf := by
    obtain ⟨v, hv₀, rfl⟩ := Option.map_eq_some_iff.1 hv
    obtain ⟨f, hf₀, rfl⟩ := Option.map_eq_some_iff.1 hf
    exact ⟨v, f, hv₀, hf₀, rfl, hg f⟩

lemma Keeps.failBody : D.Keeps (D.modifyFunc ({ · with state := .failed })) :=
  .modifyFunc fun _ => ⟨rfl, rfl, .inr ⟨nofun, nofun⟩⟩

lemma Keeps.dependBody :
    D.Keeps (D.modifyFunc fun f => if f.state = .inProgress then { f with state := .dependencyFailed } else f) := by
  refine .modifyFunc fun f => ?_
  split
  · exact ⟨rfl, rfl, .inr ⟨nofun, nofun⟩⟩
  · exact .refl f

lemma Keeps.finishBody {r : Nat} (hg : ∀ f : Function, f.Leads (g f)) :
    D.Keeps { D with
      value := D.value.map fun v =>
        if (v.func).any (·.revision == r) then { v with arena, func := v.func.map g } else v } where
  toIs := ⟨rfl, rfl, rfl, rfl⟩
  func hv hf := by
    obtain ⟨v, hv₀, rfl⟩ := Option.map_eq_some_iff.1 hv
    split at hf
    · obtain ⟨f, hf₀, rfl⟩ := Option.map_eq_some_iff.1 hf
      exact ⟨v, f, hv₀, hf₀, by split <;> rfl, hg f⟩
    · next f' _ => exact ⟨v, f', hv₀, hf, by split <;> rfl, .refl f'⟩

lemma Keeps.traces (h : D.Keeps D') : D.Traces D' where
  toIs := h.toIs
  source hf := by
    obtain ⟨v', hv', hf'⟩ := Option.bind_eq_some_iff.1 hf
    obtain ⟨v, f, hv, hf, -, hl⟩ := h.func hv' hf'
    exact ⟨f, by rw [func?, hv, Option.bind_some, hf], hl.source⟩

lemma Traces.finishBody {r : Nat} (hg : ∀ f, (g f).source = f.source) :
    D.Traces { D with
      value := D.value.map fun v =>
        if (v.func).any (·.revision == r) then { v with arena, func := v.func.map g } else v } where
  toIs := ⟨rfl, rfl, rfl, rfl⟩
  source hf := by
    obtain ⟨v', hv', hf'⟩ := Option.bind_eq_some_iff.1 hf
    obtain ⟨v, hv, rfl⟩ := Option.map_eq_some_iff.1 hv'
    have had (f : Function) (hf : v.func = some f) : D.func? = some f := by rw [func?, hv, Option.bind_some, hf]
    split at hf'
    · obtain ⟨f, hf₀, rfl⟩ := Option.map_eq_some_iff.1 hf'
      exact ⟨f, had f hf₀, hg f⟩
    · exact ⟨_, had _ hf', rfl⟩

end Decl

namespace Program
variable {p p' p'' : Program} {d : DeclId} {f : Decl → Decl}

namespace Tracks
variable {R R' : DeclId → Decl → Decl → Prop}

lemma ofRewired (h : p.Rewired p') (hR : ∀ d D D', D.Rewired D' → R d D D') : Tracks R p p' := by
  intro d D' hD'
  obtain ⟨D, hD, hw⟩ := h.exists_of_decl? hD'
  exact ⟨D, hD, hR d D D' hw⟩

end Tracks

abbrev Follows : Program → Program → Prop := Tracks fun _ => Decl.Is

abbrev Keeps : Program → Program → Prop := Tracks fun _ => Decl.Keeps

abbrev Traces : Program → Program → Prop := Tracks fun _ => Decl.Traces

end Program

namespace Decl.Turn
variable {c c' : Config} {x : DeclId} {D D' : Decl} {r r' : Option Diagnostic} (h : D.Turn c c' x r D' r')
include h

lemma is : D.Is D' := by cases h <;> exact ⟨rfl, rfl, rfl, rfl⟩

lemma deps {y : DeclId} (hy : y ∈ D'.deps) : y ∈ D.deps ∨ c.stage = .due y ∧ c.Innermost x := by
  cases h with
  | wired _ _ _ hd | marked _ _ _ hd => exact hd y hy
  | _ => exact .inl hy

lemma bare (hv : D.value = none) :
    D'.value = none ∨ c.stage.Installs c'.stage ∧ c.stack.head? = some x ∧ c'.stack = c.stack ∧
      D'.state = .complete := by
  cases h with
  | failedBody | dependedBody => exact .inl (by simp [modifyFunc, hv])
  | installed hst hst' hS hS' => exact .inr ⟨⟨hst, _, _, hst'⟩, hS, hS', rfl⟩
  | opened _ _ _ _ _ hv' => cases hv.symm.trans hv'
  | ended => exact .inl (by simp [hv])
  | _ => exact .inl hv

lemma keeps_or : D.Keeps D' ∨ c.stage.Installs c'.stage ∨ c'.body ≠ c.body ∧ D.Traces D' := by
  cases h with
  | failedBody => exact .inl .failBody
  | dependedBody => exact .inl .dependBody
  | installed hst hst' => exact .inr (.inl ⟨hst, _, _, hst'⟩)
  | @opened v f _ _ hb hb' _ hv hf =>
    refine .inr (.inr ⟨by rw [hb, hb']; nofun, ⟨rfl, rfl, rfl, rfl⟩, fun hf' => ?_⟩)
    cases hf'
    exact ⟨f, by rw [func?, hv, Option.bind_some, hf], rfl⟩
  | ended _ _ hb hb' _ hg =>
    refine .inr (.inr ⟨by rw [hb, hb']; nofun, .finishBody fun f => ?_⟩)
    obtain ⟨-, rfl⟩ | ⟨-, -, _, rfl⟩ | ⟨-, -, rfl⟩ := hg <;> rfl
  | _ => exact .inl (.same ⟨rfl, rfl, rfl, rfl⟩ rfl)

lemma keeps (hn : ¬ c.stage.Installs c'.stage) (hb : c'.body = c.body) : D.Keeps D' := by
  obtain h | h | ⟨h, -⟩ := h.keeps_or
  · exact h
  · exact absurd h hn
  · exact absurd hb h

lemma traces (hn : ¬ c.stage.Installs c'.stage) : D.Traces D' := by
  obtain h | h | ⟨-, h⟩ := h.keeps_or
  · exact h.traces
  · exact absurd h hn
  · exact h

end Decl.Turn

lemma Move.keeps_or_registers {c c' : Config} (hm : Move c c') (hn : ¬ c.stage.Installs c'.stage)
    (hb : c'.body = c.body) : c.program.Keeps c'.program ∨ c.program.Registers c'.program :=
  hm.tracks_or_registers fun _ h => h.keeps hn hb

lemma Move.traces_or_registers {c c' : Config} (hm : Move c c') (hn : ¬ c.stage.Installs c'.stage) :
    c.program.Traces c'.program ∨ c.program.Registers c'.program := hm.tracks_or_registers fun _ h => h.traces hn

lemma Move.follows_or_registers {c c' : Config} (hm : Move c c') :
    c.program.Follows c'.program ∨ c.program.Registers c'.program := hm.tracks_or_registers fun _ h => h.is

lemma Move.follows {c c' : Config} (hm : Move c c') (hn : c'.program.nextDecl = c.program.nextDecl) :
    c.program.Follows c'.program := by
  obtain h | ⟨file, ns, item, -, -, h⟩ := hm.follows_or_registers
  · exact h
  · rw [h] at hn
    exact absurd hn (Nat.succ_ne_self _)

/-! What a move does beside. -/

structure Program.Goes (p p' : Program) : Prop extends p.Alike p' where
  generation : p'.generation = p.generation
  nextDecl : p.nextDecl ≤ p'.nextDecl
  outdated {d : DeclId} : d ∈ p.report.outdated → d ∈ p'.report.outdated
  deleted {d : DeclId} : d ∈ p.report.deleted → d ∈ p'.report.deleted

namespace Program.Goes
variable {p p' p'' : Program} {e : Engine} {d : DeclId}

lemma same (ha : p.Alike p') (hg : p'.generation = p.generation) (hn : p'.nextDecl = p.nextDecl)
    (hr : p'.report = p.report) : p.Goes p' := by
  refine ⟨ha, hg, Nat.le_of_eq hn.symm, ?_, ?_⟩ <;> rw [hr] <;> exact id

lemma refl (p : Program) : p.Goes p := same (.refl p) rfl rfl rfl

lemma trans (h : p.Goes p') (h' : p'.Goes p'') : p.Goes p'' :=
  ⟨h.toAlike.trans h'.toAlike, h'.generation.trans h.generation, Nat.le_trans h.nextDecl h'.nextDecl,
    h'.outdated ∘ h.outdated, h'.deleted ∘ h.deleted⟩

lemma rewire (h : p.Rewired p') : p.Goes p' := same h.alike h.generation h.nextDecl h.report

lemma ofBeside (h : p.Beside p') : p.Goes p' := same h.toAlike h.generation h.nextDecl h.report

lemma detach (p : Program) (d : DeclId) (D : Decl) : p.Goes (p.detach d D) := by
  unfold Program.detach
  dsimp only
  split <;> exact same ⟨rfl, rfl, rfl⟩ rfl rfl rfl

lemma forget (p : Program) (d : DeclId) (D : Decl) : p.Goes (p.forget d D) := by
  have hq := p.forget_quiet d D
  refine ⟨⟨hq.alike.options, hq.alike.rules, hq.alike.nextFile⟩, hq.generation,
    Nat.le_of_eq hq.nextDecl.symm, fun h => ?_, fun h => ?_⟩
  · rwa [hq.report]
  · rw [hq.report]
    exact List.mem_append_left _ h

lemma markOutdated (e : Engine) (d : DeclId) : e.program.Goes (e.markOutdated d).program :=
  Engine.markOutdated_rule (refl _) ⟨⟨rfl, rfl, rfl⟩, rfl, Nat.le_refl _, List.mem_append_left _, id⟩

lemma deleteDecl (e : Engine) (d : DeclId) : e.program.Goes (e.deleteDecl d).program :=
  Engine.deleteDecl_rule (refl _) (fun D _ => detach _ d D) (fun hw h => h.trans (rewire hw))
    (fun e x h => h.trans (markOutdated e x)) fun p D h => h.trans (forget p d D)

lemma drainStep (e : Engine) (d : DeclId) : e.program.Goes (e.drainStep d).program :=
  Engine.drainStep_rule (refl _) (same ⟨rfl, rfl, rfl⟩ rfl rfl rfl) fun e h => h.trans (deleteDecl e d)

lemma refresh (e : Engine) (d : DeclId) (D : Decl) (item : ItemSummary) : e.program.Goes (e.refresh d D item).program :=
  Engine.refresh_rule (same ⟨rfl, rfl, rfl⟩ rfl rfl rfl) fun e h => h.trans (markOutdated e d)

end Program.Goes

lemma Move.goes_or {c c' : Config} (hm : Move c c') : c.program.Goes c'.program ∨
    c.program.Alike c'.program ∧ c'.program.nextDecl = c.program.nextDecl ∧
      (c.stage.Begins c'.stage ∨ c.stage.Ends c'.stage ∧ c'.program.generation = c.program.generation) := by
  cases hm with
  | quiet hq => exact .inl (.same hq.alike hq.generation hq.nextDecl hq.report)
  | fail | failLate => exact .inl (.ofBeside (Program.fail_beside ..))
  | depend => exact .inl (.ofBeside (Program.dependencyFailed_beside ..))
  | register => exact .inl ⟨⟨rfl, rfl, rfl⟩, rfl, Nat.le_succ _, id, id⟩
  | edge => exact .inl (.rewire (Program.addEdge_rewired ..))
  | release => exact .inl (.rewire (Program.release_rewired ..))
  | grant link header => cases header <;> exact .inl (.same ⟨rfl, rfl, rfl⟩ rfl rfl rfl)
  | finish => exact .inl ⟨⟨rfl, rfl, rfl⟩, rfl, Nat.le_refl _, id, id⟩
  | outdate | retry => exact .inl (.markOutdated _ _)
  | start => exact .inr ⟨⟨rfl, rfl, rfl⟩, rfl, .inl ⟨rfl, _, rfl⟩⟩
  | enroll =>
    dsimp only
    split <;> exact .inl ⟨⟨rfl, rfl, rfl⟩, rfl, Nat.le_succ _, id, id⟩
  | refresh => exact .inl (.refresh _ _ _ _)
  | drop => exact .inl (.deleteDecl _ _)
  | drain =>
    refine .inl (.trans ?_ (.drainStep _ _))
    exact .same ⟨rfl, rfl, rfl⟩ rfl rfl rfl
  | drained => exact .inr ⟨⟨rfl, rfl, rfl⟩, rfl, .inr ⟨⟨rfl, rfl⟩, rfl⟩⟩
  | _ => exact .inl (.same ⟨rfl, rfl, rfl⟩ rfl rfl rfl)

lemma Move.alike {c c' : Config} (hm : Move c c') : c.program.Alike c'.program :=
  hm.goes_or.elim (·.toAlike) And.left

lemma Move.generation {c c' : Config} (hm : Move c c') (hb : ¬ c.stage.Begins c'.stage) :
    c'.program.generation = c.program.generation := by
  obtain h | ⟨-, -, h | ⟨-, h⟩⟩ := hm.goes_or
  · exact h.generation
  · exact absurd h hb
  · exact h

lemma Move.nextDecl_le {c c' : Config} (hm : Move c c') : c.program.nextDecl ≤ c'.program.nextDecl :=
  hm.goes_or.elim (·.nextDecl) fun h => Nat.le_of_eq h.2.1.symm

lemma Move.goes {c c' : Config} (hm : Move c c') (hb : ¬ c.stage.Begins c'.stage) (he : ¬ c.stage.Ends c'.stage) :
    c.program.Goes c'.program :=
  hm.goes_or.resolve_right fun h => h.2.2.elim hb fun h => he h.1

def Stage.deletes : Stage → Bool
  | .reconciling _ _ (some []) _ | .draining => true
  | _ => false

lemma Move.outlives {c c' : Config} (hm : Move c c') (hs : c.stage.deletes = false) (x : DeclId)
    (hx : (c.program.decl? x).isSome = true) : (c'.program.decl? x).isSome = true := by
  have ht := hm.turns x
  generalize c.program.decl? x = o, c.program.record? x = r, c'.program.decl? x = o',
    c'.program.record? x = r' at ht hx ⊢
  cases ht with
  | kept | fresh => rfl
  | absent => exact hx
  | gone _ _ _ h => obtain ⟨_, _, _, h⟩ | ⟨h, -⟩ := h <;> rw [h] at hs <;> cases hs

lemma Move.rel_decl {R : Decl → Decl → Prop} {c c' : Config} (hm : Move c c')
    (hn : c'.program.nextDecl = c.program.nextDecl) (hs : c.stage.deletes = false) {x : DeclId}
    (hR : ∀ {D D' r r'}, D.Turn c c' x r D' r' → R D D') : Option.Rel R (c.program.decl? x) (c'.program.decl? x) := by
  have ho := hm.outlives hs x
  have ht := hm.turns x
  generalize c.program.decl? x = o, c.program.record? x = r, c'.program.decl? x = o',
    c'.program.record? x = r' at ho ht ⊢
  cases ht with
  | kept h => exact .some (hR h)
  | absent => exact .none
  | gone => cases ho rfl
  | fresh _ _ _ hp =>
    rw [hp] at hn
    exact absurd hn (Nat.succ_ne_self _)

end Frontend
