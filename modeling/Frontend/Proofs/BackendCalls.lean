import Frontend.Proofs.ExportTables
import Frontend.Proofs.Numbering

/-! The backend is called in order. A declaration is handed over, or its header asked for, only while it is there and
holds storage that was granted to it; what is handed over has no body that is still to be analyzed; and a declaration
that is deleted is freed by the same step. -/

namespace Frontend

def BackendCall.freed? : BackendCall → Option DeclId
  | .free D => some D.id
  | _ => none

def Granted (calls : List CallRecord) (d : DeclId) : Prop :=
  ∃ earlier D later, calls = earlier ++ ⟨.allocate D, none⟩ :: later ∧ D.id = d ∧
    ∀ record ∈ later, record.call.freed? ≠ some d

lemma Granted.allocate (calls : List CallRecord) (D : Decl) : Granted (calls ++ [⟨.allocate D, none⟩]) D.id :=
  ⟨calls, D, [], rfl, rfl, fun _ h => absurd h List.not_mem_nil⟩

lemma Granted.append {calls : List CallRecord} {d : DeclId} {record : CallRecord} (h : Granted calls d)
    (hr : record.call.freed? ≠ some d) : Granted (calls ++ [record]) d := by
  obtain ⟨earlier, D, later, rfl, hd, hl⟩ := h
  refine ⟨earlier, D, later ++ [record], by simp, hd, fun r hm => ?_⟩
  rcases List.mem_append.1 hm with hm | hm
  · exact hl r hm
  · rw [List.mem_singleton.1 hm]
    exact hr

def BackendCall.handed? : BackendCall → Option Decl
  | .updateDecl D | .emitHeader D => some D
  | _ => none

/-- The call may come after the others: what is handed over has storage, and no body that is still to be analyzed. -/
def BackendCall.InOrder (earlier : List CallRecord) : BackendCall → Prop
  | .updateDecl D => Granted earlier D.id ∧ ∀ f, D.func? = some f → f.state = .success
  | .emitHeader D => Granted earlier D.id
  | _ => True

def Orderly (calls : List CallRecord) : Prop :=
  ∀ earlier record, earlier ++ [record] <+: calls → record.call.InOrder earlier

lemma Orderly.append {calls : List CallRecord} {record : CallRecord} (h : Orderly calls)
    (hr : record.call.InOrder calls) : Orderly (calls ++ [record]) := by
  intro earlier last hl
  rcases List.prefix_concat_iff.1 hl with he | hl
  · obtain ⟨rfl, hlast⟩ := List.append_inj' he rfl
    cases hlast
    exact hr
  · exact h earlier last hl

namespace Backend

def calls : Backend → List CallRecord
  | silent => []
  | recording r => r.calls

def isRecording : Backend → Bool
  | silent => false
  | recording _ => true

structure Same (b b' : Backend) : Prop where
  recording : b'.isRecording = b.isRecording
  calls : b'.calls = b.calls
  links : b'.link? = b.link?

lemma Same.refl (b : Backend) : b.Same b := ⟨rfl, rfl, rfl⟩

structure Takes (b : Backend) (record : CallRecord) (b' : Backend) : Prop where
  recording : b'.isRecording = b.isRecording
  calls : b.isRecording = true → b'.calls = b.calls ++ [record]
  held {x : DeclId} : (b'.link? x).isSome = true →
    (b.link? x).isSome = true ∧ record.call.freed? ≠ some x ∨ ∃ D, record = ⟨.allocate D, none⟩ ∧ D.id = x
  holds {x : DeclId} : (b.link? x).isSome = true → record.call.freed? ≠ some x → (b'.link? x).isSome = true

lemma takes_call (b : Backend) (hook : BackendHook) {entry : BackendCall} (D : Decl) (he : entry.freed? = none) :
    ∃ refusal, b.Takes ⟨entry, refusal⟩ (b.call hook entry D).2 := by
  have hx (x : DeclId) : entry.freed? ≠ some x := by simp [he]
  cases b with
  | silent => exact ⟨none, rfl, nofun, nofun, nofun⟩
  | recording r => exact ⟨_, rfl, fun _ => rfl, fun h => .inl ⟨h, hx _⟩, fun h _ => h⟩

lemma takes_free (b : Backend) (D : Decl) : b.Takes ⟨.free D, none⟩ (b.free D) where
  recording := by cases b <;> rfl
  calls h := by
    cases b with
    | silent => cases h
    | recording r => rfl
  held {x} h := by
    rw [link?_free] at h
    split at h
    · cases h
    · next hx => exact .inl ⟨h, fun he => hx (Option.some.inj he)⟩
  holds {x} h hx := by
    rw [link?_free, if_neg fun he => hx (congrArg some he)]
    exact h

lemma takes_allocate (b : Backend) (D : Decl) : ∃ refusal, b.Takes ⟨.allocate D, refusal⟩ (b.allocate D).2 := by
  have hx (x : DeclId) : (BackendCall.allocate D).freed? ≠ some x := by simp [BackendCall.freed?]
  cases b with
  | silent => exact ⟨none, rfl, nofun, nofun, nofun⟩
  | recording r =>
    refine ⟨r.refusal? .allocate D, ?_⟩
    unfold allocate
    dsimp only
    split
    · exact ⟨rfl, fun _ => rfl, fun h => .inl ⟨h, hx _⟩, fun h _ => h⟩
    · next hr =>
      split
      · exact ⟨rfl, fun _ => rfl, fun h => .inl ⟨h, hx _⟩, fun h _ => h⟩
      · have hlinks (x : DeclId) : (r.links.insert D.id (r.nextLink + 1)).get? x =
            if D.id = x then some (r.nextLink + 1) else r.links.get? x := Dict.get?_insert ..
        refine ⟨rfl, fun _ => rfl, fun {x} h => ?_, fun {x} h _ => ?_⟩
        · change ((r.links.insert D.id (r.nextLink + 1)).get? x).isSome = true at h
          rw [hlinks] at h
          split at h
          · next hd => exact .inr ⟨D, by rw [hr], hd⟩
          · exact .inl ⟨h, hx x⟩
        · change ((r.links.insert D.id (r.nextLink + 1)).get? x).isSome = true
          rw [hlinks]
          split
          · rfl
          · exact h

end Backend

def Inquiry.call : Inquiry → Decl → BackendCall
  | .code => .updateDecl
  | .header => .emitHeader
  | .line => .updateLine

lemma Inquiry.takes_ask (about : Inquiry) (b : Backend) (D : Decl) :
    ∃ refusal, b.Takes ⟨about.call D, refusal⟩ (about.ask b D).2 := by
  cases about with
  | code | header | line => exact b.takes_call _ D rfl

namespace Program

structure Allows (p : Program) (call : BackendCall) : Prop where
  order : call.InOrder p.backend.calls
  live {D : Decl} : call.handed? = some D → p.decl? D.id = some D

/-- One step makes one call at most, and one that is allowed. If a declaration is deleted, this is the call that frees
it. No link is held for what is not there. -/
structure Deals (p p' : Program) : Prop where
  calls : p'.backend.calls = p.backend.calls ∨
    ∃ record, p'.backend.calls = p.backend.calls ++ [record] ∧ p.Allows record.call
  deletes {d : DeclId} : (p.decl? d).isSome = true → p'.decl? d = none →
    ∃ D, D.id = d ∧ p'.backend.calls = p.backend.calls ++ [⟨.free D, none⟩]
  links {d : DeclId} : (p'.backend.link? d).isSome = true → (p'.decl? d).isSome = true

end Program

lemma Engine.deleteDecl_frees {e : Engine} {d : DeclId} {D : Decl} (hD : e.program.decl? d = some D) :
    (e.deleteDecl d).program.backend = e.program.backend.free D ∧
      ∀ x, x ≠ d → (e.program.decl? x).isSome = true → ((e.deleteDecl d).program.decl? x).isSome = true := by
  obtain ⟨e₁, hb, he⟩ := deleteDecl_through (P := fun e' => e'.program.backend = e.program.backend)
    (fun hw _ h => hw.untold.backend.trans h) (fun x _ h => (untold_markOutdated _ x).backend.trans h) hD (by
      show (e.program.detach d D).backend = _
      unfold Program.detach
      dsimp only
      split <;> rfl)
  refine ⟨?_, fun x hx hlive => ?_⟩
  · rw [he]
    show (Program.removeExportsOf _ d).backend.free D = _
    rw [Program.removeExportsOf, Program.foldl_removeExport_backend, Program.removeOwnedExports_backend, hb]
  · obtain ⟨X, hX⟩ := Option.isSome_iff_exists.1 hlive
    obtain ⟨X', hX', -⟩ := (e.deleteDecl_rel (R := fun _ _ => True) (fun _ _ _ _ _ => trivial) hx).exists_right hX
    exact congrArg Option.isSome hX'

namespace Config

def Pledged (c : Config) (d : DeclId) : Prop :=
  c.engine.Owes d ∨ c.stage = .coding d ∨ (∃ r, c.body = some (d, r)) ∨
    ∃ about, c.stage = .asking d about ∧ about ≠ .line

structure Linked (c : Config) : Prop where
  recording : c.engine.program.backend.isRecording = true
  granted {d} : (c.engine.program.backend.link? d).isSome = true → Granted c.engine.program.backend.calls d
  live {d} : (c.engine.program.backend.link? d).isSome = true → (c.engine.program.decl? d).isSome = true
  pledged {d} : c.Pledged d → (c.engine.program.backend.link? d).isSome = true

structure Prepares (c : Config) (d : DeclId) (v : DeclValue) (f : Function) : Prop where
  ty : v.ty.isFunction = true
  source : f.source.body.isSome = true
  running : f.state = .inProgress → c.body = some (d, f.revision)
  opened {r} : c.body = some (d, r) → f.revision = r
  asked : c.stage = .asking d .code → f.state = .success

def Ready (c : Config) : Prop :=
  ∀ d D v f, c.engine.program.decl? d = some D → D.value = some v → v.func = some f → c.Prepares d v f

end Config

lemma Move.pledged {c c' : Config} (hm : Move c c') {d : DeclId} (h : c'.Pledged d) :
    c.Pledged d ∨ c.stage ≠ .torn ∧ d ∈ c.stack ∧ c'.program.backend = c.program.backend ∧
      ∀ D, c.program.decl? d = some D → c.program.backend = .silent ∨
        (c.program.backend.link? D.id).isSome = true := by
  rcases h with h | h | ⟨r, h⟩ | ⟨about, h, hl⟩
  · obtain h | ⟨hd, ⟨_, _, hst⟩, hb, hl⟩ := hm.owes h
    · exact .inl (.inl h)
    · exact .inr ⟨hst ▸ nofun, List.mem_of_head? hd, hb, hl⟩
  · exact .inl ((hm.coding h).elim (fun h => .inr (.inl h)) .inl)
  · obtain h | ⟨h, -⟩ := hm.body h
    · exact .inl (.inr (.inr (.inl ⟨r, h⟩)))
    · exact .inl (.inr (.inl h))
  · obtain ⟨h, -⟩ | ⟨-, h | h | h⟩ := hm.asks h hl
    · exact .inl (.inr (.inr (.inr ⟨about, h, hl⟩)))
    · exact .inl (.inl h)
    · exact .inl (.inr (.inl h))
    · exact .inl (.inr (.inr (.inl h)))

namespace Config.Ready
variable {c c' : Config} {d : DeclId} {r : Nat} {e : Engine}

lemma keep (h : c.Ready) (hk : c.program.Keeps c'.program) (hB : c'.body = c.body)
    (hask : ∀ d, c'.stage = .asking d .code → c.stage = .asking d .code ∧ c'.program.decls = c.program.decls) :
    c'.Ready := by
  intro d D' v' f' hD' hv' hf'
  obtain ⟨D, hD, hkeep⟩ := hk d D' hD'
  obtain ⟨v, f, hv, hf, hty, hl⟩ := hkeep.func hv' hf'
  have hp := h d D v f hD hv hf
  refine ⟨hty ▸ hp.ty, hl.source ▸ hp.source, fun hs => ?_, fun hb => ?_, fun hs => ?_⟩
  · rw [hB, hl.revision]
    exact hp.running ((hl.state_eq (.inr hs)).trans hs)
  · rw [hl.revision]
    exact hp.opened (hB ▸ hb)
  · obtain ⟨hs, hd⟩ := hask d hs
    rw [Program.decl?, hd] at hD'
    exact (h d D' v' f' hD' hv' hf').asked hs

lemma finishBody {st st' : Stage} {arena : Typed.Arena} {g : Function → Function} (h : Ready ⟨st, [], some (d, r), e⟩)
    (hg : ∀ f, (g f).source = f.source ∧ (g f).state ≠ .inProgress)
    (hask : ∀ x, st' = .asking x .code → x = d ∧ ∀ f, (g f).state = .success) :
    Ready ⟨st', [], none, e.modifyProgram (·.finishBody d r arena g)⟩ := by
  intro x D' v' f' hD' hv' hf'
  obtain ⟨rfl, D, hD, rfl⟩ | ⟨hx, hD⟩ := Program.decl?_modifyDecl_cases hD'
  · obtain ⟨v, hv, rfl⟩ := Option.map_eq_some_iff.1 hv'
    by_cases hr : (v.func).any (·.revision == r) = true
    · rw [if_pos hr] at hf' ⊢
      obtain ⟨f, hf, rfl⟩ := Option.map_eq_some_iff.1 hf'
      have hp := h x D v f hD hv hf
      exact ⟨hp.ty, (hg f).1 ▸ hp.source, fun hs => absurd hs (hg f).2, nofun, fun hs => (hask x hs).2 f⟩
    · rw [if_neg hr] at hf'
      rw [hf'] at hr
      exact absurd (beq_iff_eq.2 ((h x D v f' hD hv hf').opened rfl)) hr
  · have hp := h x D' v' f' hD hv' hf'
    refine ⟨hp.ty, hp.source, fun hs => ?_, nofun, fun hs => absurd (hask x hs).1 hx⟩
    cases hp.running hs
    exact absurd rfl hx

lemma openBody {D : Decl} {v : DeclValue} {f : Function} (h : Ready ⟨.coding d, [], none, e⟩)
    (hd : e.program.decl? d = some D) (hv : D.value = some v) (hf : v.func = some f) :
    Ready ⟨.working, [], some (d, f.revision), e.modifyProgram (·.modifyDecl d (·.opened v f))⟩ := by
  intro x D' v' f' hD' hv' hf'
  obtain ⟨rfl, _, -, rfl⟩ | ⟨hx, hD₀⟩ := Program.decl?_modifyDecl_cases hD'
  · cases hv'
    cases hf'
    have hp := h x D v f hd hv hf
    refine ⟨hp.ty, hp.source, fun _ => rfl, fun hb => ?_, nofun⟩
    cases hb
    rfl
  · have hp := h x D' v' f' hD₀ hv' hf'
    refine ⟨hp.ty, hp.source, fun hs => (nomatch hp.running hs), fun hb => ?_, nofun⟩
    cases hb
    exact absurd rfl hx

lemma install {S : List DeclId} {B : Option (DeclId × Nat)} {v : DeclValue} {needsCode frees : Bool}
    (h : Ready ⟨.working, d :: S, B, e⟩) (ha : Attentive ⟨.working, d :: S, B, e⟩) (hv : v.Fresh needsCode) :
    Ready ⟨.installed needsCode frees, d :: S, B,
      e.modifyProgram (·.modifyDecl d ({ · with value := some v, state := .complete }))⟩ := by
  intro x D' v' f' hD' hv' hf'
  obtain ⟨rfl, _, -, rfl⟩ | ⟨hx, hD₀⟩ := Program.decl?_modifyDecl_cases hD'
  · cases hv'
    refine ⟨hv.ty hf', hv.body hf', fun hs => ?_, fun hb => ?_, nofun⟩
    · obtain hi | ⟨hq, -⟩ := hv.state hf'
      · cases hs.symm.trans hi
      · cases hs.symm.trans hq
    · exact absurd List.mem_cons_self (ha.apart hb)
  · have hp := h x D' v' f' hD₀ hv' hf'
    exact ⟨hp.ty, hp.source, hp.running, hp.opened, nofun⟩

lemma handOver (h : Ready ⟨.coding d, [], none, e⟩)
    (hs : ∀ D, e.program.decl? d = some D → ∀ f, D.func? = some f → f.state = .inProgress ∨ f.state = .success) :
    Ready ⟨.asking d .code, [], none, e⟩ := by
  intro x D v f hD hv hf
  have hp := h x D v f hD hv hf
  refine ⟨hp.ty, hp.source, hp.running, hp.opened, fun hx => ?_⟩
  cases hx
  obtain hr | hs := hs D hD f (by rw [Decl.func?, hv, Option.bind_some, hf])
  · cases hp.running hr
  · exact hs

lemma move (hm : Move c c') (hr : c.program.Registry) (ha : c.stage ≠ .torn → c.Attentive) (h : c.Ready) :
    c'.Ready := by
  have other (hn : ¬ c.stage.Installs c'.stage) (hB : c'.body = c.body) (hask : ∀ d, c'.stage ≠ .asking d .code) :
      c'.Ready := by
    obtain hk | ⟨file, ns, item, -, -, hp⟩ := hm.keeps_or_registers hn hB
    · exact h.keep hk hB fun d hd => absurd hd (hask d)
    · intro d D v f hD hv hf
      rw [← Config.program, hp] at hD
      obtain ⟨hD, -⟩ | ⟨-, rfl⟩ := Program.decl?_register_cases hD
      · have hp := h d D v f hD hv hf
        exact ⟨hp.ty, hp.source, hB ▸ hp.running, hB ▸ hp.opened, fun hs => absurd hs (hask d)⟩
      · cases hv
  cases hm with
  | quiet hq => exact h.keep (.ofDecls (fun _ => .refl) hq.decls) rfl fun _ hs => ⟨hs, hq.decls⟩
  | collide | claim => exact h.keep (.ofDecls (fun _ => .refl) rfl) rfl fun _ hs => ⟨hs, rfl⟩
  | handOver hs => exact h.handOver hs
  | @bodiless d e D f hd hf hn =>
    -- Such a function is of no unit, or has no source; there is none.
    obtain ⟨v, hv, hf⟩ := Option.bind_eq_some_iff.1 hf
    have hp := h d D v f hd hv hf
    obtain ⟨u, hu, -⟩ := hr.placed hd
    obtain hn | hn | hn := hn
    · cases hn.symm.trans hu
    · cases (hn v hv).symm.trans hp.ty
    · cases hn ▸ hp.source
  | openBody hd _ hv hf => exact h.openBody hd hv hf
  | closeBody =>
    refine h.finishBody (fun _ => ⟨rfl, by rintro ⟨⟩⟩) fun x hx => ?_
    cases hx
    exact ⟨rfl, fun _ => rfl⟩
  | dropBody =>
    refine h.finishBody (fun f => ⟨rfl, ?_⟩) (by rintro _ ⟨⟩)
    show (if f.state = .inProgress then FnState.dependencyFailed else f.state) ≠ .inProgress
    split
    · rintro ⟨⟩
    · assumption
  | requeue => exact h.finishBody (fun _ => ⟨rfl, by rintro ⟨⟩⟩) (by rintro _ ⟨⟩)
  | install hv => exact h.install (ha (by rintro ⟨⟩)) hv
  | @take e item =>
    refine other ?_ rfl fun d hs => by cases item <;> cases hs
    rintro ⟨_, _, _, hs⟩
    cases item <;> cases hs
  | _ => exact other (by rintro ⟨_, _, _, ⟨⟩⟩) rfl (by rintro _ ⟨⟩)

end Config.Ready

structure Config.Dealing (p : Program) (c : Config) : Prop where
  graph : c.engine.program.Graph
  registry : c.engine.program.Registry
  continues : p.Continues c.engine.program
  attentive : c.stage ≠ .torn → c.Attentive
  ready : c.Ready
  linked : c.Linked

structure Config.Calls (c c' : Config) (record : CallRecord) : Prop where
  takes : c.engine.program.backend.Takes record c'.engine.program.backend
  allowed : c.engine.program.Allows record.call
  spares {x} : record.call.freed? = some x → ¬ c.Pledged x
  allocated {D} : record.call = .allocate D → (c'.engine.program.decl? D.id).isSome = true
  lives {x} : (c.engine.program.decl? x).isSome = true →
    (c'.engine.program.decl? x).isSome = true ∨ ∃ D, record = ⟨.free D, none⟩ ∧ D.id = x
  exports {D Xs} : record.call = .updateExports D Xs →
    c.engine.program.decl? D.id = some D ∧ Xs = c.engine.program.exportsOf D.id

namespace Config.Dealing
variable {p : Program} {c c' : Config} {d : DeclId} {D : Decl}

lemma granted (h : c.Dealing p) (hd : c.Pledged d) : Granted c.program.backend.calls d :=
  h.linked.granted (h.linked.pledged hd)

lemma allows {about : Inquiry} (h : c.Dealing p) (hs : c.stage = .asking d about)
    (hD : c.program.decl? d = some D) : c.program.Allows (about.call D) := by
  have hid : D.id = d := (h.continues.numbered hD).1
  have hlive : c.program.decl? D.id = some D := hid ▸ hD
  have hgranted (ha : about ≠ .line) : Granted c.program.backend.calls D.id :=
    hid ▸ h.granted (.inr (.inr (.inr ⟨about, hs, ha⟩)))
  cases about with
  | code =>
    refine ⟨⟨hgranted nofun, fun f hf => ?_⟩, fun hD' => Option.some.inj hD' ▸ hlive⟩
    obtain ⟨v, hv, hf⟩ := Option.bind_eq_some_iff.1 hf
    exact (h.ready d D v f hD hv hf).asked hs
  | header => exact ⟨hgranted nofun, fun hD' => Option.some.inj hD' ▸ hlive⟩
  | line => exact ⟨trivial, nofun⟩

lemma not_pledged {S : List DeclId} {needsCode frees : Bool} (h : c.Dealing p)
    (hs : c.stage = .installed needsCode frees) (hS : c.stack = d :: S) : ¬ c.Pledged d := by
  have ha := h.attentive (by rw [hs]; nofun)
  have hd : d ∈ c.stack := hS ▸ List.mem_cons_self
  rintro (ho | hc | ⟨r, hb⟩ | ⟨about, hq, -⟩)
  · have hcl := (ha.waiting hd ho).2
    rw [hs] at hcl
    cases hcl
  · cases hs.symm.trans hc
  · exact ha.apart hb hd
  · cases hs.symm.trans hq

lemma not_pledged_idle (h : c.Dealing p) (hs : c.stage.isIdle = true) (hb : c.body = none) : ¬ c.Pledged d := by
  have ha := h.attentive fun ht => by cases ht ▸ hs
  rintro (ho | hc | ⟨r, hb'⟩ | ⟨about, hq, -⟩)
  · refine ha.idle ?_ ho
    cases hst : c.stage <;> rw [hst] at hs <;> first | rfl | cases hs
  · cases hc ▸ hs
  · cases hb.symm.trans hb'
  · cases hq ▸ hs

lemma calls_tells (h : c.Dealing p) (hl : c.program.Outlives c'.program)
    (ht : c.program.Tells c.stage c.stack c'.program.backend) :
    c'.program.backend = c.program.backend ∨ ∃ record, c.Calls c' record := by
  generalize hs : c.stage = st at ht
  generalize hS : c.stack = S at ht
  generalize hb : c'.program.backend = b at ht
  have lives {record : CallRecord} {x : DeclId} (hx : (c.program.decl? x).isSome = true) :
      (c'.program.decl? x).isSome = true ∨ ∃ D, record = ⟨.free D, none⟩ ∧ D.id = x := .inl (hl x hx)
  cases ht with
  | nothing => exact .inl rfl
  | @allocate frees d S D hD =>
    obtain ⟨refusal, htakes⟩ := c.program.backend.takes_allocate D
    refine .inr ⟨⟨.allocate D, refusal⟩, hb ▸ htakes, ⟨trivial, nofun⟩, nofun, fun {D'} hD' => ?_, lives, nofun⟩
    cases hD'
    rw [(h.continues.numbered hD).1]
    exact hl d (congrArg Option.isSome hD)
  | @free d S D hD =>
    refine .inr ⟨⟨.free D, none⟩, hb ▸ c.program.backend.takes_free D, ⟨trivial, nofun⟩, fun {x} hx => ?_, nofun, lives,
      nofun⟩
    cases hx
    rw [(h.continues.numbered hD).1]
    exact h.not_pledged hs hS
  | @exports st S id X D _ hX _ hD =>
    let call : BackendCall := .updateExports D (c.program.exportsOf X.exported)
    have hcall : ∃ refusal, c.program.backend.Takes ⟨call, refusal⟩ _ := Backend.takes_call _ .updateExports D rfl
    obtain ⟨refusal, htakes⟩ := hcall
    refine .inr ⟨⟨call, refusal⟩, hb ▸ htakes, ⟨trivial, nofun⟩, nofun, nofun, lives, fun hcall => ?_⟩
    cases hcall
    rw [(h.continues.numbered hD).1]
    exact ⟨hD, rfl⟩
  | @ask d about S D hD =>
    obtain ⟨refusal, htakes⟩ := about.takes_ask c.program.backend D
    refine .inr ⟨⟨about.call D, refusal⟩, hb ▸ htakes, h.allows hs hD, ?_, ?_, lives, ?_⟩ <;> cases about <;>
      exact nofun

lemma calls (hm : Move c c') (h : c.Dealing p) :
    c'.program.backend = c.program.backend ∧ c.program.Outlives c'.program ∨
      ∃ record, c.Calls c' record := by
  obtain ⟨-, hl, ht⟩ | ⟨site, symbol, src, exported, -, -, he⟩ | ⟨e, d, hs, -, hb, -, hu, hr, he⟩ := hm.exports_or
  · exact (h.calls_tells hl ht).imp_left fun hb => ⟨hb, hl⟩
  · refine .inl ⟨he.backend, fun x hx => ?_⟩
    rwa [Program.decl?, he.quiet.decls]
  · cases hD : e.program.decl? d with
    | none =>
      rw [Config.program, Config.program, he, Engine.deleteDecl_of_none hD]
      exact .inl ⟨hu.backend, hr.outlives⟩
    | some D =>
      obtain ⟨hbackend, hothers⟩ := Engine.deleteDecl_frees hD
      rw [hu.backend, ← he] at hbackend
      rw [← he] at hothers
      refine .inr ⟨⟨.free D, none⟩, hbackend ▸ c.program.backend.takes_free D, ⟨trivial, by rintro _ ⟨⟩⟩,
        fun _ => h.not_pledged_idle hs hb, by rintro _ ⟨⟩, fun {x} hx => ?_, by rintro _ _ ⟨⟩⟩
      by_cases hxd : x = d
      · obtain ⟨D₀, hD₀, his⟩ := hr.decl?_of hD
        rw [hxd]
        exact .inr ⟨D, rfl, his.id.trans (h.continues.numbered hD₀).1⟩
      · exact .inl (hothers x hxd (hr.outlives x hx))

lemma linked_move (hm : Move c c') (h : c.Dealing p) : c'.Linked := by
  -- A pledge is as old as this move, or storage was granted just before it.
  have held {d : DeclId} (hd : c'.Pledged d) : c.Pledged d ∨ c'.program.backend = c.program.backend ∧
      (c.program.backend.link? d).isSome = true := by
    obtain hp | ⟨ht, hS, hb, hlink⟩ := hm.pledged hd
    · exact .inl hp
    · obtain ⟨D, hD, -⟩ := (h.attentive ht).attends (.inl hS)
      rw [← (h.continues.numbered hD).1]
      refine .inr ⟨hb, (hlink D hD).resolve_left fun hsilent => ?_⟩
      cases hsilent ▸ h.linked.recording
  obtain ⟨hb, hl⟩ | ⟨record, hc⟩ := h.calls hm
  · refine ⟨?_, fun hx => ?_, fun hx => hl _ ?_, fun hd => ?_⟩
    · rw [hb]
      exact h.linked.recording
    · rw [hb] at hx ⊢
      exact h.linked.granted hx
    · rw [hb] at hx
      exact h.linked.live hx
    · rw [hb]
      exact (held hd).elim h.linked.pledged fun hlink => hlink.2
  · have hcalls := hc.takes.calls h.linked.recording
    refine ⟨hc.takes.recording.trans h.linked.recording, fun hx => ?_, fun hx => ?_, fun hd => ?_⟩
    · rw [hcalls]
      obtain ⟨hx, hf⟩ | ⟨D, rfl, rfl⟩ := hc.takes.held hx
      · exact (h.linked.granted hx).append hf
      · exact .allocate ..
    · obtain ⟨hx, hf⟩ | ⟨D, rfl, rfl⟩ := hc.takes.held hx
      · obtain hlive | ⟨D, rfl, rfl⟩ := hc.lives (h.linked.live hx)
        · exact hlive
        · exact absurd rfl hf
      · exact hc.allocated rfl
    · obtain hp | ⟨hb, hlink⟩ := held hd
      · exact hc.takes.holds (h.linked.pledged hp) fun hf => hc.spares hf hp
      · rwa [hb]

lemma move (hm : Move c c') (he : ¬ c.stage.Ends c'.stage) (h : c.Dealing p) : c'.Dealing p where
  graph := graph_move c c' hm h.graph
  registry := h.registry.move hm he
  continues := h.continues.move hm
  attentive ht := attentive_move c c' hm ht h.graph (h.attentive fun hc => ht (hm.torn hc))
  ready := h.ready.move hm h.registry h.attentive
  linked := h.linked_move hm

lemma deals (hm : Move c c') (h : c.Dealing p) : c.program.Deals c'.program where
  calls := by
    obtain ⟨hb, -⟩ | ⟨record, hc⟩ := h.calls hm
    · exact .inl (congrArg Backend.calls hb)
    · exact .inr ⟨record, hc.takes.calls h.linked.recording, hc.allowed⟩
  deletes {d} hd hn := by
    obtain ⟨-, hl⟩ | ⟨record, hc⟩ := h.calls hm
    · cases hn ▸ hl d hd
    · obtain hlive | ⟨D, rfl, hid⟩ := hc.lives hd
      · cases hn ▸ hlive
      · exact ⟨D, hid, hc.takes.calls h.linked.recording⟩
  links := (h.linked_move hm).live

end Config.Dealing

namespace Program
variable {p p' : Program}

abbrev Dealings : Config → Config → Prop :=
  Relation.ReflTransGen fun c c' => Move c c' ∧ c.engine.program.Deals c'.engine.program

lemma Dealings.orderly {c c' : Config} (h : Dealings c c') (ho : Orderly c.program.backend.calls) :
    Orderly c'.program.backend.calls := by
  induction h with
  | refl => exact ho
  | tail _ hm ih =>
    obtain hc | ⟨record, hc, ha⟩ := hm.2.calls
    · rwa [hc]
    · rw [hc]
      exact ih.append ha.order

lemma not_pledged_resting (p : Program) {d : DeclId} : ¬ p.resting.Pledged d := by
  rintro (ho | hc | ⟨r, hb⟩ | ⟨about, hs, -⟩)
  · obtain ho | ho := ho <;> cases ho
  · cases hc
  · cases hb
  · cases hs

lemma rests {c : Config} (hr : c.Ready) (hl : c.Linked) (hB : c.body = none) (hd : p.decls = c.program.decls)
    (hb : c.program.backend.Same p.backend) : p.resting.Ready ∧ p.resting.Linked := by
  have hdecl (d : DeclId) : p.decl? d = c.program.decl? d := congrArg (·.get? d) hd
  refine ⟨hr.keep (.ofDecls (fun _ => .refl) hd) hB.symm nofun, hb.recording.trans hl.recording, fun {d} hx => ?_,
    fun {d} hx => ?_,
    fun hp => absurd hp p.not_pledged_resting⟩
  · show Granted p.backend.calls d
    rw [hb.calls]
    exact hl.granted (congrFun hb.links d ▸ hx)
  · show (p.decl? d).isSome = true
    rw [hdecl]
    exact hl.live (congrFun hb.links d ▸ hx)

lemma update_deals {p₀ : Program} (h : p.resting.Dealing p₀) :
    (∃ st queue, Dealings p.resting ⟨st, [], none, ⟨p.update.2, queue⟩⟩) ∧
      p.update.2.resting.Ready ∧ p.update.2.resting.Linked := by
  obtain ⟨st, queue, hpath, _, e, units, report, hc, he⟩ :=
    update_steps (P := Config.Dealing p₀) (fun hm he hc => hc.move hm he) (fun hm hc => hc.deals hm) h
  have hdecls : p.update.2.decls = e.program.decls := by rw [he]
  have hbackend : p.update.2.backend = e.program.backend := by rw [he]
  exact ⟨⟨st, queue, hpath⟩, rests hc.ready hc.linked rfl hdecls (hbackend ▸ .refl _)⟩

/-- Programs that come of edits and updates, whether those succeed or not, while the backend is told what to refuse. -/
inductive Operates (p : Program) : Program → Prop
  | refl : Operates p p
  | edit {q} (h : Operates p q) (change : Edit) : Operates p (q.edit change)
  | update {q} (h : Operates p q) : Operates p q.update.2
  | refuse {q} (h : Operates p q) (hook : BackendHook) (name : String) (error : BackendError) :
      Operates p { q with backend := q.backend.refuse hook name error }
  | clearRules {q} (h : Operates p q) : Operates p { q with backend := q.backend.clearRules }

lemma Operates.reaches (h : Operates p p') : Reaches (fun _ => True) p p' := by
  induction h with
  | refl => exact .refl
  | @edit q _ change ih =>
    have h : Reaches _ p (q.act (.edit change)) := ih.act trivial
    exact h
  | @update q _ ih =>
    have h : Reaches _ p (q.act .update) := ih.act trivial
    exact h
  | refuse _ _ _ _ ih | clearRules _ ih => exact ih.backend _

section
variable {options : Options} {rules : List ((BackendHook × String) × BackendError)}

lemma Operates.dealing (h : Operates { options, backend := .recording { rules } } p) (hr : p.resting.Ready)
    (hl : p.resting.Linked) : p.resting.Dealing { options, backend := .recording { rules } } where
  graph := (Graph.empty ..).reaches h.reaches
  registry := .reaches h.reaches
  continues := .reaches h.reaches ⟨Nat.le_refl _, nofun, nofun⟩
  attentive _ := .ofIdle rfl rfl nofun nofun
  ready := hr
  linked := hl

lemma Operates.rests (h : Operates { options, backend := .recording { rules } } p) :
    p.resting.Ready ∧ p.resting.Linked ∧ Orderly p.backend.calls := by
  induction h with
  | refl =>
    refine ⟨fun _ _ _ _ hD => ?_, ⟨rfl, fun hx => ?_, fun hx => ?_, fun hp => absurd hp (not_pledged_resting _)⟩,
      fun earlier record hp => ?_⟩
    · cases hD
    · cases hx
    · cases hx
    · cases (List.append_eq_nil_iff.1 (List.prefix_nil.1 hp)).2
  | edit _ change ih =>
    obtain ⟨hr, hl, ho⟩ := ih
    cases change <;> exact and_assoc.1 ⟨Program.rests hr hl rfl rfl (.refl _), ho⟩
  | update h ih =>
    obtain ⟨hr, hl, ho⟩ := ih
    obtain ⟨⟨st, queue, hpath⟩, hr', hl'⟩ := update_deals (h.dealing hr hl)
    exact ⟨hr', hl', hpath.orderly ho⟩
  | @refuse q _ hook name error ih =>
    obtain ⟨hr, hl, ho⟩ := ih
    have hsame : q.backend.Same (q.backend.refuse hook name error) := by cases q.backend <;> exact ⟨rfl, rfl, rfl⟩
    exact and_assoc.1 ⟨Program.rests hr hl rfl rfl hsame, hsame.calls ▸ ho⟩
  | @clearRules q _ ih =>
    obtain ⟨hr, hl, ho⟩ := ih
    have hsame : q.backend.Same q.backend.clearRules := by cases q.backend <;> exact ⟨rfl, rfl, rfl⟩
    exact and_assoc.1 ⟨Program.rests hr hl rfl rfl hsame, hsame.calls ▸ ho⟩

end

/-- In every run with a backend that records its calls, whatever it is told to refuse: calls come in order; links are
held for what is there; and an update takes steps each of which makes one call at most, hands over only what is there
and has its storage, and frees what it deletes by one call. -/
theorem backend_called_in_order {options : Options} {rules : List ((BackendHook × String) × BackendError)}
    (h : Operates { options, backend := .recording { rules } } p) :
    Orderly p.backend.calls ∧ (∀ d, (p.backend.link? d).isSome = true → (p.decl? d).isSome = true) ∧
      ∃ st queue, Dealings p.resting ⟨st, [], none, ⟨p.update.2, queue⟩⟩ := by
  obtain ⟨hr, hl, ho⟩ := h.rests
  exact ⟨ho, fun d => hl.live, (update_deals (h.dealing hr hl)).1⟩

/-- Storage is refused once for a constant, is granted after the next edit, and is given up with the unit. -/
theorem backend_called_in_order_refused_once :
    let first := "export fn f() u8 \x7b return y; \x7d\nconst y: u8 = 3;\n"
    let second := "export fn f() u8 \x7b return y; \x7d\nconst y: u8 = 4;\n"
    let backend := Backend.recording { rules := [((.allocate, "y"), .retryable "busy")] }
    let p₁ := (Program.edit { options := { emitHeaders := true }, backend } (.addSource "a" first)).update.2
    let p₂ := (Program.edit { p₁ with backend := p₁.backend.clearRules } (.setSource 0 second)).update.2
    let p₃ := (p₂.edit (.removeUnit 0)).update.2
    p₁.backend.calls.filterMap (·.call.handed?.map Decl.name) = ["f", "f"] ∧
      p₂.backend.calls.filterMap (·.call.handed?.map Decl.name) = ["f", "f", "y", "f"] ∧
      p₃.backend.calls.filterMap (·.call.freed?) = [0, 1] ∧ Orderly p₃.backend.calls := by
  intro first second backend p₁ p₂ p₃
  have h : Operates { options := { emitHeaders := true }, backend } p₃ :=
    ((((Operates.refl.edit _).update.clearRules).edit _).update.edit _).update
  have hd : p₁.backend.calls.filterMap (·.call.handed?.map Decl.name) = ["f", "f"] ∧
      p₂.backend.calls.filterMap (·.call.handed?.map Decl.name) = ["f", "f", "y", "f"] ∧
      p₃.backend.calls.filterMap (·.call.freed?) = [0, 1] := by decide +kernel
  obtain ⟨hfirst, hsecond, hfreed⟩ := hd
  exact ⟨hfirst, hsecond, hfreed, (backend_called_in_order h).1⟩

end Program

end Frontend
