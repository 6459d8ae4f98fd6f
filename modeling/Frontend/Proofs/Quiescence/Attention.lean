import Frontend.Proofs.Quiescence.Units

/-! Declarations that an update is busy with: those under analysis, and those that wait for the backend. They were
dealt with in the current generation, and so are not marked again before the update ends. -/

namespace Frontend

lemma Move.torn {c c' : Config} (hm : Move c c') (h : c.stage = .torn) : c'.stage = .torn := by
  cases hm <;> first | exact h | rfl | cases h

variable {P : Config → Prop} {e : Engine}

lemma Moves.keepIntact (hP : ∀ c c', Move c c' → c'.stage ≠ .torn → P c → P c') {c c' : Config} (h : Moves c c')
    (hc : P c) (ht : c'.stage ≠ .torn) : P c' := by
  induction h with
  | refl => exact hc
  | tail _ hm ih => exact hP _ _ hm ht (ih fun h => ht (hm.torn h))

lemma Program.update_intact
    (hP : ∀ c c', Move c c' → ¬ c.stage.Begins c'.stage → ¬ c.stage.Ends c'.stage → c'.stage ≠ .torn → P c → P c')
    {p p' : Program} {report : Report} (hc : P p.starting) (hu : p.update = (.ok report, p')) :
    ∃ e, P ⟨.draining, [], none, e⟩ ∧ e.program.deletionSet = [] ∧ report = e.program.report ∧
      p' = e.program.closed := by
  have hK : Upheld (fun _ c => c.stage ≠ .torn → P c) fun _ => True := by
    refine .ofSteps (fun c c' hm hb he _ h ht => ?_) (fun _ _ _ => trivial) fun hv _ h ht => ?_
    · exact hP c c' hm hb he ht (h fun hs => ht (hm.torn hs))
    · exact hP _ _ (.install hv) (fun ⟨hs, _⟩ => nomatch hs) (fun ⟨hs, _⟩ => nomatch hs) ht (h nofun)
  have h := update_upheld hK (p := p) ⟨⟨p, {}⟩, fun _ => hc⟩
  rw [hu] at h
  obtain ⟨e, ⟨-, he⟩, hs, hr, hp⟩ := h
  exact ⟨e, he nofun, hs, hr, hp⟩

def Stage.isClosing : Stage → Bool
  | .settled | .failing => true
  | _ => false

lemma Stage.isOpening_of_isBusy {st : Stage} (h : st.isBusy = true) : st.isOpening = false ∧ st.isIdle = false := by
  cases st <;> first | exact ⟨rfl, rfl⟩ | cases h

structure Decl.Attended (generation : Nat) (D : Decl) : Prop where
  generation : D.generation = generation
  outdated : D.state ≠ .outdated
  unreferenced : D.state ≠ .unreferenced

def Program.Attends (p : Program) (d : DeclId) : Prop := ∃ D, p.decl? d = some D ∧ D.Attended p.generation

def Engine.Owes (e : Engine) (d : DeclId) : Prop := .codegen d ∈ e.queue.items ∨ .emitHeader d ∈ e.queue.items

namespace Config

def Engaged (c : Config) (d : DeclId) : Prop :=
  d ∈ c.stack ∨ c.engine.Owes d ∨ c.stage = .coding d ∨ ∃ r, c.body = some (d, r)

structure Attentive (c : Config) : Prop where
  attends {d} : c.Engaged d → c.engine.program.Attends d
  waiting {d} : d ∈ c.stack → c.engine.Owes d → c.stack.head? = some d ∧ c.stage.isClosing = true
  nodup : c.stack.Nodup
  apart {d r} : c.body = some (d, r) → d ∉ c.stack
  idle {d} : c.stage.isBusy = false → ¬ c.engine.Owes d

lemma Innermost.engaged {c : Config} {d : DeclId} (h : c.Innermost d) : c.Engaged d :=
  h.elim (fun h => .inl (List.mem_of_head? h)) fun h => .inr (.inr (.inr h.2))

end Config

namespace Program
variable {p p' : Program} {d x : DeclId} {f : Decl → Decl}

namespace Attends

variable (h : p.Attends d)
include h

lemma ofDecls (hd : p'.decls = p.decls) (hg : p'.generation = p.generation) : p'.Attends d := by
  obtain ⟨D, hD, ha⟩ := h
  exact ⟨D, by rwa [decl?, hd], hg ▸ ha⟩

end Attends

end Program

namespace Config.Attentive
variable {c c' : Config}

lemma ofIdle (hS : c'.stack = []) (hB : c'.body = none) (hc : ∀ d, c'.stage ≠ .coding d)
    (hq : ∀ d, ¬ c'.engine.Owes d) : c'.Attentive where
  attends {d} h := by
    obtain h | h | h | ⟨r, h⟩ := h
    · rw [hS] at h
      cases h
    · exact absurd h (hq d)
    · exact absurd h (hc d)
    · rw [hB] at h
      cases h
  waiting {d} _ h := absurd h (hq d)
  nodup := hS ▸ .nil
  apart h := by
    rw [hB] at h
    cases h
  idle {d} _ := hq d

lemma keep (h : c.Attentive) (hS : c'.stack = c.stack) (hB : c'.body = c.body)
    (hq : ∀ d, c'.engine.Owes d → c.engine.Owes d) (hc : ∀ d, c'.stage = .coding d → c.stage = .coding d)
    (hp : ∀ d, c.program.Attends d → c'.program.Attends d)
    (hcl : c.stage.isClosing = true → c'.stage.isClosing = true)
    (hb : c'.stage.isBusy = false → c.stage.isBusy = false) : c'.Attentive where
  attends {d} hd := by
    refine hp d (h.attends ?_)
    unfold Engaged at hd ⊢
    rw [hS, hB] at hd
    exact hd.imp_right (Or.imp (hq d) (Or.imp_left (hc d)))
  waiting {d} hd hw := by
    rw [hS] at hd ⊢
    exact (h.waiting hd (hq d hw)).imp_right hcl
  nodup := hS ▸ h.nodup
  apart hd := hS ▸ h.apart (hB ▸ hd)
  idle {d} hb' hd := h.idle (hb hb') (hq d hd)

variable {st : Stage} {S : List DeclId} {B : Option (DeclId × Nat)} {e : Engine} {g : Program → Program}

lemma pop {d : DeclId} (h : Attentive ⟨st, d :: S, B, e⟩) (hp : ∀ d, e.program.Attends d → (g e.program).Attends d) :
    Attentive ⟨.working, S, B, e.modifyProgram g⟩ where
  attends {x} hx := by
    obtain hx | hx | hx | hx := hx
    · exact hp x (h.attends (.inl (List.mem_cons_of_mem _ hx)))
    · exact hp x (h.attends (.inr (.inl hx)))
    · cases hx
    · exact hp x (h.attends (.inr (.inr (.inr hx))))
  waiting {x} hx hw := by
    obtain ⟨hd, -⟩ := h.waiting (List.mem_cons_of_mem d hx) hw
    cases hd
    exact absurd hx (List.nodup_cons.1 h.nodup).1
  nodup := (List.nodup_cons.1 h.nodup).2
  apart hx hS := h.apart hx (List.mem_cons_of_mem d hS)
  idle := nofun

lemma between (h : c.Attentive) (hb : st.isBusy = true) (he : ∀ d, Engaged ⟨st, [], B, e⟩ d → c.Engaged d)
    (hp : ∀ d, c.program.Attends d → e.program.Attends d) : Attentive ⟨st, [], B, e⟩ where
  attends {d} hd := hp d (h.attends (he d hd))
  waiting := nofun
  nodup := .nil
  apart _ := nofun
  idle h := by
    rw [show st.isBusy = false from h] at hb
    cases hb

end Config.Attentive

namespace Engine
variable {e e' : Engine} {d x : DeclId}

lemma Marks.owes (h : e.Marks e') (ho : e'.Owes d) : e.Owes d := by
  obtain ⟨more, hq, hm⟩ := h.queue
  have old {item : WorkItem} (hi : item ∈ e'.queue.items) (hn : ∀ x, item ≠ .analyze x) : item ∈ e.queue.items := by
    rw [hq] at hi
    refine (List.mem_append.1 hi).resolve_right fun hi => ?_
    obtain ⟨x, hx⟩ := hm item hi
    exact hn x hx
  exact ho.imp (old · nofun) (old · nofun)

lemma Owes.of_push {item : WorkItem} (h : (e.push item).Owes x) (hi : item ≠ .codegen x ∧ item ≠ .emitHeader x) :
    e.Owes x := by
  refine h.imp (fun h => ?_) fun h => ?_
  · exact (List.mem_append.1 h).resolve_right fun h => hi.1 (List.mem_singleton.1 h).symm
  · exact (List.mem_append.1 h).resolve_right fun h => hi.2 (List.mem_singleton.1 h).symm

lemma Owes.of_deleteDecl (h : (e.deleteDecl d).Owes x) : e.Owes x := by
  cases hD : e.program.decl? d with
  | none => rwa [deleteDecl_of_none hD] at h
  | some D =>
    obtain ⟨e₁, hm, he⟩ := deleteDecl_of hD
    rw [he] at h
    exact hm.owes h

lemma Owes.of_refresh {D : Decl} {item : ItemSummary} (h : (e.refresh d D item).Owes x) : e.Owes x := by
  unfold refresh at h
  dsimp only at h
  split at h
  · split at h
    · split at h
      · exact h.of_push ⟨nofun, nofun⟩
      · exact h
    · have h := (Marks.markOutdated ..).owes h
      exact h
  · split at h
    · exact h.of_push ⟨nofun, nofun⟩
    · exact h

end Engine

namespace Move
variable {c c' : Config} (hm : Move c c') {d : DeclId}
include hm

lemma attends (ht : c'.stage ≠ .torn) (ho : c'.stage.isOpening = false) (hg : c.program.Graph)
    (h : c.program.Attends d) : c'.program.Attends d ∨ c'.program.decl? d = none ∧ c'.stage.isIdle = true := by
  obtain ⟨D, hD, ha⟩ := h
  obtain ⟨D', r', hD', -, h⟩ | ⟨hD', -, -, hst', -⟩ := hm.becomes hD (hg.bound hD)
  · have hgen := hm.generation fun ⟨_, todo, hst'⟩ => by rw [hst'] at ho; cases ho
    refine .inl ⟨D', hD', ?_⟩
    rw [hgen]
    cases h with
    | marked _ _ _ _ _ hst =>
      obtain ⟨-, hst', -⟩ | ⟨-, -, hn⟩ := hst
      · cases ho.symm.trans hst'
      · exact absurd ha.generation hn
    | reread _ hst' | rereadMarked _ hst' | repeated _ hst' => cases ho.symm.trans hst'
    | rewound hst' => exact absurd hst' ht
    | withheld _ _ _ _ hs => obtain rfl | rfl := hs <;> exact ⟨ha.generation, nofun, nofun⟩
    | refused _ _ hs => obtain rfl | ⟨rfl, -⟩ := hs <;> exact ⟨ha.generation, nofun, nofun⟩
    | entered | failed => exact ⟨rfl, nofun, nofun⟩
    | depended | installed | completed => exact ⟨ha.generation, nofun, nofun⟩
    | _ => exact ⟨ha.generation, ha.outdated, ha.unreferenced⟩
  · exact .inr ⟨hD', hst'⟩

lemma isOpening (hb : ¬ c.stage.Begins c'.stage) (ho : c'.stage.isOpening = true) :
    c.stage.isOpening = true := by
  cases hm with
  | quiet | collide | claim => exact ho
  | start => exact absurd ⟨rfl, _, rfl⟩ hb
  | @take e item => cases item <;> cases ho
  | _ => first | rfl | cases ho

lemma isBusy (h : c'.stage.isBusy = true) (ho : c.stage.isOpening = false) : c.stage.isBusy = true := by
  cases hm <;> first | rfl | exact h | (cases h; done) | cases ho

lemma coding (h : c'.stage = .coding d) : c.stage = .coding d ∨ c.engine.Owes d := by
  cases hm with
  | quiet | collide | claim => exact .inl h
  | @take e item rest hq =>
    cases item <;> cases h
    exact .inr (.inl (hq ▸ List.mem_cons_self ..))
  | _ => cases h

lemma asks {about : Inquiry} (h : c'.stage = .asking d about) (ha : about ≠ .line) :
    c.stage = .asking d about ∧ c'.program.decls = c.program.decls ∨
      c.stage ≠ .torn ∧ (c.engine.Owes d ∨ c.stage = .coding d ∨ ∃ r, c.body = some (d, r)) := by
  cases hm with
  | quiet hq => exact .inl ⟨h, hq.decls⟩
  | collide | claim => exact .inl ⟨h, rfl⟩
  | @take _ item _ hq =>
    cases item <;> cases h
    · exact .inr ⟨nofun, .inl (.inr (hq ▸ List.mem_cons_self ..))⟩
    · exact absurd rfl ha
  | handOver | bodiless =>
    cases h
    exact .inr ⟨nofun, .inr (.inl rfl)⟩
  | closeBody =>
    cases h
    exact .inr ⟨nofun, .inr (.inr ⟨_, rfl⟩)⟩
  | _ => cases h

lemma body {r : Nat} (h : c'.body = some (d, r)) : c.body = some (d, r) ∨
    c.stage = .coding d ∧ ∃ D D' v f, c.program.decl? d = some D ∧ D.AwaitsBody ∧ c'.program.decl? d = some D' ∧
      D'.state = D.state ∧ D'.value = some v ∧ v.func = some f ∧ f.state = .inProgress ∧ f.revision = r := by
  cases hm with
  | openBody hd ha =>
    cases h
    exact .inr ⟨rfl, _, _, _, _, hd, ha, Program.decl?_modifyDecl_of hd, rfl, rfl, rfl, rfl, rfl⟩
  | requeue | closeBody | dropBody => cases h
  | _ => exact .inl h

lemma owes (h : c'.engine.Owes d) :
    c.engine.Owes d ∨ c.stack.head? = some d ∧ (∃ needsCode frees, c.stage = .installed needsCode frees) ∧
      c'.program.backend = c.program.backend ∧ ∀ D, c.program.decl? d = some D →
        c.program.backend = .silent ∨ (c.program.backend.link? D.id).isSome = true := by
  cases hm with
  | @grant _ _ x S B e link header hl =>
    refine or_iff_not_imp_right.2 fun hd => ?_
    have hx : x ≠ d := by
      rintro rfl
      refine hd ⟨rfl, ⟨_, _, rfl⟩, ?_, fun D hD => (hl D hD).imp_right fun hl => ?_⟩
      · cases header <;> rfl
      · rw [hl]
        rfl
    have hcode : WorkItem.codegen x ≠ .codegen d ∧ WorkItem.codegen x ≠ .emitHeader d :=
      ⟨fun h => hx (WorkItem.codegen.inj h), nofun⟩
    have hheader : WorkItem.emitHeader x ≠ .codegen d ∧ WorkItem.emitHeader x ≠ .emitHeader d :=
      ⟨nofun, fun h => hx (WorkItem.emitHeader.inj h)⟩
    cases header with
    | true => exact (h.of_push hheader).of_push hcode
    | false => exact h.of_push hcode
  | outdate | retry => exact .inl ((Engine.Marks.markOutdated ..).owes h)
  | take hq => exact .inl (h.imp (hq ▸ List.mem_cons_of_mem _ ·) (hq ▸ List.mem_cons_of_mem _ ·))
  | start | drained => exact absurd h (fun h => h.elim nofun nofun)
  | enroll =>
    dsimp only at h
    split at h
    · exact .inl (h.of_push ⟨nofun, nofun⟩)
    · exact .inl h
  | refresh => exact .inl h.of_refresh
  | drop => exact .inl h.of_deleteDecl
  | drain =>
    unfold Engine.Owes at h
    rw [Engine.drainStep_queue] at h
    exact .inl h
  | _ => exact .inl h

end Move

namespace Config.Attentive
variable {S : List DeclId} {B : Option (DeclId × Nat)} {e : Engine} {d : DeclId}

lemma enter {D : Decl} (h : Attentive ⟨.due d, S, B, e⟩) (hd : e.program.decl? d = some D) (hs : D.state.Due)
    (keeps : ∀ x, e.program.Attends x → (e.program.startAnalysis d).Attends x) :
    Attentive ⟨.working, d :: S, B, e.modifyProgram (·.startAnalysis d)⟩ := by
  have free : ¬ Engaged ⟨.due d, S, B, e⟩ d := by
    intro hx
    obtain ⟨D', hD', ha⟩ := h.attends hx
    cases hd.symm.trans hD'
    exact hs.elim ha.outdated ha.unreferenced
  refine ⟨fun {x} hx => ?_, fun {x} hx hw => ?_, ?_, fun {x r} hx hS => ?_, nofun⟩
  · obtain hx | hx | hx | hx := hx
    · obtain rfl | hx := List.mem_cons.1 hx
      · exact ⟨_, Program.decl?_modifyDecl_of hd, rfl, nofun, nofun⟩
      · exact keeps x (h.attends (.inl hx))
    · exact keeps x (h.attends (.inr (.inl hx)))
    · cases hx
    · exact keeps x (h.attends (.inr (.inr (.inr hx))))
  · obtain rfl | hx := List.mem_cons.1 hx
    · exact absurd (.inr (.inl hw)) free
    · cases (h.waiting hx hw).2
  · exact List.nodup_cons.2 ⟨fun hx => free (.inl hx), h.nodup⟩
  · obtain rfl | hS := List.mem_cons.1 hS
    · exact free (.inr (.inr (.inr ⟨r, hx⟩)))
    · exact h.apart hx hS

lemma grant {needsCode frees : Bool} {e' : Engine} (h : Attentive ⟨.installed needsCode frees, d :: S, B, e⟩)
    (hp : ∀ x, e.program.Attends x → e'.program.Attends x) (hq : ∀ x, e'.Owes x → x = d ∨ e.Owes x) :
    Attentive ⟨.settled, d :: S, B, e'⟩ where
  attends {x} hx := by
    refine hp x (h.attends ?_)
    obtain hx | hx | hx | hx := hx
    · exact .inl hx
    · obtain rfl | hx := hq x hx
      · exact .inl List.mem_cons_self
      · exact .inr (.inl hx)
    · cases hx
    · exact .inr (.inr (.inr hx))
  waiting {x} hx hw := by
    obtain rfl | hw := hq x hw
    · exact ⟨rfl, rfl⟩
    · cases (h.waiting hx hw).2
  nodup := h.nodup
  apart := h.apart
  idle := nofun

end Config.Attentive

lemma Config.Engaged.owes {st : Stage} {d : DeclId} (h : Engaged ⟨st, [], none, e⟩ d) (hc : st ≠ .coding d) :
    e.Owes d := by
  obtain h | h | h | ⟨r, h⟩ := h
  · cases h
  · exact h
  · exact absurd h hc
  · cases h

lemma attentive_move (c c' : Config) (hm : Move c c') (ht : c'.stage ≠ .torn) (hg : c.program.Graph)
    (h : c.Attentive) : c'.Attentive := by
  have owed {d} (ho : c'.engine.Owes d) := hm.owes ho
  have hp (hb : c'.stage.isBusy = true) (d : DeclId) (ha : c.program.Attends d) : c'.program.Attends d := by
    obtain ⟨ho, hi⟩ := Stage.isOpening_of_isBusy hb
    exact (hm.attends ht ho hg ha).resolve_right fun h => nomatch hi.symm.trans h.2
  cases hm with
  | quiet hq => exact h.keep rfl rfl (fun _ h => h) (fun _ h => h) (fun _ ha => ha.ofDecls hq.decls hq.generation) id id
  | collide | claim => exact h.keep rfl rfl (fun _ h => h) (fun _ h => h) (fun _ ha => ha.ofDecls rfl rfl) id id
  | tear | rewind | requeue => exact absurd rfl ht
  | enter hd hs => exact h.enter hd hs (hp rfl)
  | grant => exact h.grant (hp rfl) fun x ho => (owed ho).symm.imp_left fun h => (Option.some.inj h.1).symm
  | finish | abandon => exact h.pop (hp rfl)
  | failLate => exact h.keep rfl rfl (fun _ h => h) nofun (hp rfl) id nofun
  | @take e item rest hq =>
    refine h.between (by cases item <;> rfl) (fun x hx => ?_) fun _ ha => ha
    obtain hx | hx | hx | ⟨r, hx⟩ := hx
    · cases hx
    · exact .inr (.inl ((owed hx).resolve_right fun h => nomatch h.1))
    · cases item <;> cases hx
      exact .inr (.inl (.inl (hq ▸ List.mem_cons_self ..)))
    · cases hx
  | openBody =>
    refine h.between rfl (fun x hx => ?_) (hp rfl)
    obtain hx | hx | hx | ⟨r, hx⟩ := hx
    · cases hx
    · exact .inr (.inl hx)
    · cases hx
    · cases hx
      exact .inr (.inr (.inl rfl))
  | passOver | handOver | bodiless | asked | closeBody | dropBody | refuse =>
    exact h.between rfl (fun _ hx => .inr (.inl (hx.owes nofun))) (hp rfl)
  | outdate =>
    exact h.keep rfl rfl (fun _ ho => (owed ho).resolve_right fun ⟨_, ⟨_, _, hst⟩, _⟩ => nomatch hst) nofun (hp rfl)
      nofun nofun
  | fail | depend | giveUp | notice | register | edge | dismiss | release | install | spare | withhold | ran =>
    exact h.keep rfl rfl (fun _ h => h) nofun (hp rfl) nofun nofun
  | worked hq =>
    refine .ofIdle rfl rfl nofun fun x ho => ?_
    unfold Engine.Owes at ho
    rw [hq] at ho
    exact ho.elim nofun nofun
  | start | drained => exact .ofIdle rfl rfl nofun nofun
  | _ => exact .ofIdle rfl rfl nofun fun x ho => (owed ho).elim (h.idle rfl) fun h => nomatch h.1

end Frontend
