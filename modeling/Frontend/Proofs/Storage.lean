import Frontend.Proofs.BackendCalls
import Frontend.Proofs.Mirroring
import Frontend.Proofs.Moves.First

/-! Storage. A link is held for what needs storage, and for constants that no longer do: storage is given up by what the
old value was, and of a constant that is kept as it is, that is taken to have had none. -/

namespace Frontend

def Decl.stored (D : Decl) : Option (Ty × Value × Option Bool) :=
  D.value.map fun v => (v.ty, v.val, v.func.map (·.state == .inlineOnly))

def Decl.needsStorage (D : Decl) : Bool := D.value.any (·.needsStorage)

def Decl.Functional (D : Decl) : Prop := ∀ v f, D.value = some v → v.func = some f → v.val.isFunction = true

namespace Decl
variable {D D' : Decl}

lemma stored_of_value (h : D'.value = D.value) : D'.stored = D.stored := by rw [stored, stored, h]

section

variable (h : D'.stored = D.stored)
include h

lemma stored_cases :
    D.value = none ∧ D'.value = none ∨ ∃ v v', D.value = some v ∧ D'.value = some v' ∧ v'.ty = v.ty ∧ v'.val = v.val ∧
      v'.func.map (·.state == .inlineOnly) = v.func.map (·.state == .inlineOnly) := by
  unfold stored at h
  cases hv : D.value with
  | none =>
    rw [hv] at h
    exact .inl ⟨rfl, Option.map_eq_none_iff.1 h⟩
  | some v =>
    rw [hv, Option.map_some] at h
    obtain ⟨v', hv', he⟩ := Option.map_eq_some_iff.1 h
    obtain ⟨hty, hval, hf⟩ : v'.ty = v.ty ∧ v'.val = v.val ∧ _ := by simpa using he
    exact .inr ⟨v, v', rfl, hv', hty, hval, hf⟩

lemma isInlineFn_of_stored : D'.isInlineFn = D.isInlineFn := by
  obtain ⟨hv, hv'⟩ | ⟨v, v', hv, hv', -, -, hf⟩ := stored_cases h
  · simp [isInlineFn, func?, hv, hv']
  · unfold isInlineFn func?
    rw [hv, hv', Option.bind_some, Option.bind_some]
    cases hg : v.func <;> cases hg' : v'.func <;> simp_all

lemma hasBits_of_stored : D'.hasBits = D.hasBits := by
  have hi := isInlineFn_of_stored h
  obtain ⟨hv, hv'⟩ | ⟨v, v', hv, hv', hty, hval, -⟩ := stored_cases h
  · simp [hasBits, hv, hv']
  · simp [hasBits, hv, hv', hty, hval, hi]

lemma needsStorage_of_stored : D'.needsStorage = D.needsStorage := by
  obtain ⟨hv, hv'⟩ | ⟨v, v', hv, hv', hty, hval, hf⟩ := stored_cases h
  · simp [needsStorage, hv, hv']
  · have hn : v'.func.any (·.state != .inlineOnly) = v.func.any (·.state != .inlineOnly) := by
      cases hg : v.func <;> cases hg' : v'.func <;> simp_all [bne]
    simp [needsStorage, hv, hv', DeclValue.needsStorage, hty, hval, hn]

lemma Functional.of_stored (hD : D.Functional) : D'.Functional := by
  intro v' f' hw' hf'
  obtain ⟨hv, hv'⟩ | ⟨v, v'', hv, hv', -, hval, hf⟩ := stored_cases h
  · cases hv'.symm.trans hw'
  · cases hv'.symm.trans hw'
    rw [hf', Option.map_some] at hf
    obtain ⟨f, hf, -⟩ := Option.map_eq_some_iff.1 hf.symm
    rw [hval]
    exact hD v f hv hf

end

lemma Functional.hasBits_of_isInlineFn (h : D.Functional) (hi : D.isInlineFn = true) : D.hasBits = false := by
  obtain ⟨f, hf, -⟩ := (Option.any_eq_true _ _).1 hi
  obtain ⟨v, hv, hf⟩ := Option.bind_eq_some_iff.1 hf
  have hfn := h v f hv hf
  unfold hasBits
  rw [hv]
  dsimp only
  cases hval : v.val <;> rw [hval] at hfn <;> first | rfl | cases hfn
  rw [hi]
  rfl

variable {g : Function → Function}

lemma stored_modifyFunc (hg : ∀ f, D.func? = some f → ((g f).state == .inlineOnly) = (f.state == .inlineOnly)) :
    (D.modifyFunc g).stored = D.stored := by
  unfold stored modifyFunc
  cases hv : D.value with
  | none => rfl
  | some v =>
    cases hf : v.func with
    | none => simp [hf]
    | some f => simp [hf, hg f (by rw [func?, hv, Option.bind_some, hf])]

lemma stored_finishBody {r : Nat} {arena : Typed.Arena}
    (hg : ∀ f, D.func? = some f → ((g f).state == .inlineOnly) = (f.state == .inlineOnly)) :
    Decl.stored { D with
      value := D.value.map fun v =>
        if (v.func).any (·.revision == r) then { v with arena, func := v.func.map g } else v } = D.stored := by
  unfold stored
  cases hv : D.value with
  | none => rfl
  | some v =>
    dsimp only [Option.map_some]
    split
    · cases hf : v.func with
      | none => rfl
      | some f => simp [hg f (by rw [func?, hv, Option.bind_some, hf])]
    · rfl

structure Steady (D D' : Decl) : Prop where
  stored : D'.stored = D.stored
  unreferenced : D'.state = .unreferenced → D.state = .unreferenced

lemma Steady.refl (D : Decl) : D.Steady D := ⟨rfl, fun h => h⟩

lemma Steady.same (hv : D'.value = D.value) (hs : D'.state = D.state ∨ D'.state ≠ .unreferenced) : D.Steady D' := by
  refine ⟨stored_of_value hv, fun hu => ?_⟩
  obtain hs | hs := hs
  · exact hs ▸ hu
  · exact absurd hu hs

end Decl

namespace Config

def Waits (c : Config) (d : DeclId) (D : Decl) : Prop :=
  c.stage.isOpening = true ∨ c.stage.isBusy = true ∧
    (D.generation ≠ c.engine.program.generation ∨ D.state = .outdated ∨ D.state = .unreferenced ∨ d ∈ c.pending)

def Outline (c : Config) : Prop :=
  ∀ d r D, c.body = some (d, r) → c.engine.program.decl? d = some D → D.isInlineFn = false

end Config

namespace Program

abbrev Steadies : Program → Program → Prop := Tracks fun _ => Decl.Steady

end Program

lemma Move.steadies_or_registers {c c' : Config} (hm : Move c c') (ht : c'.stage ≠ .torn)
    (hn : ¬ c.stage.Installs c'.stage) (ho : c.Outline) :
    c.program.Steadies c'.program ∨ c.program.Registers c'.program := by
  have plain {s s' : FnState} (h : s ≠ .inlineOnly) (h' : s' ≠ .inlineOnly) :
      (s' == .inlineOnly) = (s == .inlineOnly) := by
    rw [beq_eq_false_iff_ne.2 h, beq_eq_false_iff_ne.2 h']
  have out {d : DeclId} {r : Nat} {D : Decl} {f : Function} (hb : c.body = some (d, r))
      (hD : c.program.decl? d = some D) (hf : D.func? = some f) : f.state ≠ .inlineOnly := by
    have h := ho d r D hb hD
    rw [Decl.isInlineFn, hf, Option.any_some] at h
    exact beq_eq_false_iff_ne.1 h
  refine hm.tracks_or_registers fun {x D r D' r'} hD h => ?_
  cases h with
  | rewound hst' => exact absurd hst' ht
  | failedBody _ _ _ _ hb => exact ⟨Decl.stored_modifyFunc fun f hf => plain (out hb hD hf) (by rintro ⟨⟩), id⟩
  | dependedBody _ _ _ hb =>
    refine ⟨Decl.stored_modifyFunc fun f hf => plain (out hb hD hf) ?_, id⟩
    split
    · rintro ⟨⟩
    · exact out hb hD hf
  | installed hst hst' => exact absurd ⟨hst, _, _, hst'⟩ hn
  | withheld _ _ _ _ hs => obtain rfl | rfl := hs <;> exact .same rfl (.inr (by rintro ⟨⟩))
  | refused _ _ hs => obtain rfl | ⟨rfl, -⟩ := hs <;> exact .same rfl (.inr (by rintro ⟨⟩))
  | opened _ _ _ _ ha hv hf =>
    obtain ⟨-, f', hf', hq⟩ := ha
    rw [Decl.func?, hv, Option.bind_some, hf] at hf'
    cases hf'
    exact ⟨by simp [Decl.stored, hv, hf, hq], id⟩
  | ended _ _ hb _ _ hg =>
    refine ⟨Decl.stored_finishBody fun f hf => plain (out hb hD hf) ?_, id⟩
    obtain ⟨hst', -⟩ | ⟨-, -, _, rfl⟩ | ⟨-, -, rfl⟩ := hg
    · exact absurd hst' ht
    · rintro ⟨⟩
    · dsimp only
      split
      · rintro ⟨⟩
      · exact out hb hD hf
  | marked | entered | failed | depended | completed | rereadMarked | repeated => exact .same rfl (.inr (by rintro ⟨⟩))
  | wired | granted | reread => exact .same rfl (.inl rfl)

variable {x : DeclId} {record : CallRecord}

lemma Move.waits {c c' : Config} (hm : Move c c') (hgraph : c.program.Graph) (hb : ¬ c.stage.Begins c'.stage)
    {D D' : Decl} (hD : c.program.decl? x = some D) (hD' : c'.program.decl? x = some D') (hw : c'.Waits x D') :
    c.Waits x D := by
  by_cases ho : c.stage.isOpening = true
  · exact .inl ho
  obtain hs | ⟨hs, hw⟩ := hw
  · exact absurd (hm.isOpening hb hs) ho
  refine .inr ⟨hm.isBusy hs (Bool.not_eq_true _ ▸ ho), ?_⟩
  obtain ⟨D₀, r', hD₀, -, hturn⟩ | ⟨-, -, -, rfl, -⟩ := hm.was hD'
  · cases hD.symm.trans hD₀
    have unsettled (hw : D'.state.Due) :
        D.generation ≠ c.program.generation ∨ D'.state = D.state := by
      cases hturn with
      | marked _ _ _ _ _ hst =>
        obtain ⟨hx, -⟩ | ⟨-, -, hn⟩ := hst
        · exact absurd hx ho
        · exact .inl hn
      | rereadMarked hst => exact absurd (hst ▸ rfl) ho
      | rewound hst' =>
        rw [hst'] at hs
        cases hs
      | withheld _ _ _ _ hx => obtain rfl | rfl := hx <;> exact hw.elim nofun nofun
      | refused _ _ hx => obtain rfl | ⟨rfl, -⟩ := hx <;> exact hw.elim nofun nofun
      | entered | failed | depended | installed | completed | repeated => exact hw.elim nofun nofun
      | _ => exact .inr rfl
    obtain hw | hw | hw | hw := hw
    · refine .inl fun h => hw ?_
      rw [hm.generation hb]
      cases hturn <;> first | rfl | exact h
    · exact (unsettled (.inl hw)).imp_right fun h => .inl (h.symm.trans hw)
    · exact (unsettled (.inr hw)).imp_right fun h => .inr (.inl (h.symm.trans hw))
    · have hu : c'.stage.isUnderWay = true := by
        cases hst : c'.stage <;> rw [hst] at hs <;> first | rfl | cases hs
      obtain h | ⟨-, D₁, hD₁, hx⟩ := hm.pending hu hw
      · exact .inr (.inr (.inr h))
      · cases hD.symm.trans hD₁
        exact .inr (hx.imp_right .inl)
  · exact absurd (hgraph.bound hD) (Nat.lt_irrefl _)

/-! Links. -/

def BackendCall.granted? : BackendCall → Option DeclId
  | .allocate D => some D.id
  | _ => none

lemma Backend.Takes.link_eq {b b' : Backend} (h : b.Takes record b') (hf : record.call.freed? ≠ some x)
    (ha : record.call.granted? ≠ some x) : (b'.link? x).isSome = (b.link? x).isSome := by
  refine Bool.eq_iff_iff.2 ⟨fun hx => ?_, fun hx => h.holds hx hf⟩
  obtain ⟨hx, -⟩ | ⟨D, rfl, hD⟩ := h.held hx
  · exact hx
  · exact absurd (congrArg some hD) ha

lemma Backend.Takes.link_eq_of_none {b b' : Backend} (h : b.Takes record b') (x : DeclId)
    (hf : record.call.freed? = none) (ha : record.call.granted? = none) : (b'.link? x).isSome = (b.link? x).isSome :=
  h.link_eq (by rw [hf]; nofun) (by rw [ha]; nofun)

def Config.Settling (c : Config) (x : DeclId) : Prop :=
  ∃ needsCode frees, c.stage = .installed needsCode frees ∧ c.stack.head? = some x

lemma Move.link_eq {p : Program} {c c' : Config} (hm : Move c c') (h : c.Dealing p)
    (hx : (c'.program.decl? x).isSome = true) (hn : ¬ c.Settling x) :
    (c'.program.backend.link? x).isSome = (c.program.backend.link? x).isSome := by
  obtain ⟨-, -, ht⟩ | ⟨site, symbol, src, exported, -, -, he⟩ | ⟨e, d, -, -, -, -, hu, hr, he⟩ := hm.exports_or
  · generalize hs : c.stage = st at ht
    generalize hS : c.stack = S at ht
    generalize hb : c'.program.backend = b at ht
    have other {d : DeclId} {S : List DeclId} {D : Decl} {needsCode frees : Bool} (hD : c.program.decl? d = some D)
        (hs : c.stage = .installed needsCode frees) (hS : c.stack = d :: S) : D.id ≠ x := by
      rintro rfl
      exact hn ⟨needsCode, frees, hs, by rw [hS, (h.continues.numbered hD).1]; rfl⟩
    cases ht with
    | nothing => rfl
    | @allocate _ _ _ D hD =>
      obtain ⟨refusal, ht⟩ := c.program.backend.takes_allocate D
      refine ht.link_eq (fun hf => ?_) fun ha => other hD hs hS (Option.some.inj ha)
      cases hf
    | @free _ _ D hD =>
      refine (c.program.backend.takes_free D).link_eq (fun hf => other hD hs hS (Option.some.inj hf)) fun ha => ?_
      cases ha
    | @exports _ _ _ X D _ _ _ hD =>
      have hcall : ∃ refusal, c.program.backend.Takes
          ⟨.updateExports D (c.program.exportsOf X.exported), refusal⟩ _ := Backend.takes_call _ .updateExports D rfl
      obtain ⟨refusal, ht⟩ := hcall
      exact ht.link_eq_of_none x rfl rfl
    | @ask _ about _ D hD =>
      obtain ⟨refusal, ht⟩ := about.takes_ask c.program.backend D
      exact ht.link_eq_of_none x (by cases about <;> rfl) (by cases about <;> rfl)
  · rw [he.backend]
  · rw [Config.program, he] at hx ⊢
    cases hD : e.program.decl? d with
    | none => rw [Engine.deleteDecl_of_none hD, hu.backend]
    | some D =>
      rw [(Engine.deleteDecl_frees hD).1, hu.backend]
      refine (Backend.takes_free _ D).link_eq (fun hf => ?_) fun ha => ?_
      · -- What is deleted is not there any more.
        obtain ⟨D₀, hD₀, his⟩ := hr.decl?_of hD
        have hd : D.id = d := his.id.trans (h.continues.numbered hD₀).1
        have hdx : d = x := hd.symm.trans (Option.some.inj hf)
        rw [← hdx, e.deleteDecl_gone d] at hx
        cases hx
      · cases ha

/-! What is held, in the course of an update. -/

namespace Program

def needsStorage (p : Program) (d : DeclId) : Bool := (p.decl? d).any Decl.needsStorage

def hasBits (p : Program) (d : DeclId) : Bool := (p.decl? d).any Decl.hasBits

lemma needsStorage_of_bound {p : Program} (hg : p.Graph) {d : DeclId} (hd : p.nextDecl ≤ d) :
    p.needsStorage d = false ∧ p.hasBits d = false := by
  have hn : p.decl? d = none := by
    cases hD : p.decl? d with
    | none => rfl
    | some D => exact absurd (hg.bound hD) (Nat.not_lt.2 hd)
  unfold needsStorage hasBits
  rw [hn]
  exact ⟨rfl, rfl⟩

end Program

lemma Config.Outline.move {c c' : Config} (hm : Move c c') (ht : c'.stage ≠ .torn) (ha : c.Attentive) (h : c.Outline) :
    c'.Outline := by
  intro d r D' hb hD'
  by_cases hi : c.stage.Installs c'.stage
  · obtain ⟨hw, needsCode, frees, hs⟩ := hi
    cases hm with
    | @install x S B e v =>
      obtain ⟨D, hD, rfl⟩ := Program.exists_of_decl?_modifyDecl hD'
      rw [if_neg]
      · exact h d r D hb hD
      · rintro rfl
        exact ha.apart hb List.mem_cons_self
    | quiet | collide | claim => cases hw.symm.trans hs
    | @take _ item => cases item <;> cases hs
    | _ => cases hs
  by_cases hB : c'.body = c.body
  · obtain hs | ⟨file, ns, item, -, -, hp⟩ := hm.steadies_or_registers ht hi h
    · obtain ⟨D, hD, hr⟩ := hs d D' hD'
      exact (Decl.isInlineFn_of_stored hr.stored).trans (h d r D (hB ▸ hb) hD)
    · rw [← Config.program, hp] at hD'
      obtain ⟨hD, -⟩ | ⟨-, rfl⟩ := Program.decl?_register_cases hD'
      · exact h d r D' (hB ▸ hb) hD
      · rfl
  · cases hm with
    | openBody =>
      cases hb
      obtain ⟨D, hD, rfl⟩ := Program.exists_of_decl?_modifyDecl hD'
      rw [if_pos rfl]
      rfl
    | closeBody | dropBody | requeue => cases hb
    | _ => exact absurd rfl hB

/-- What holds in the course of an update that began with the given program. What was not dealt with yet is as it was
then; and links are held for what needs storage, and for what did when the update began, if it was not to be given
up. -/
structure Config.Stored (p : Program) (c : Config) : Prop where
  outline : c.Outline
  functional {d D} : c.engine.program.decl? d = some D → D.Functional
  unreferenced {d D} : c.engine.program.decl? d = some D → D.state = .unreferenced → D.value = none
  waiting {d D} : c.engine.program.decl? d = some D → c.Waits d D →
    D.needsStorage = p.needsStorage d ∧ D.hasBits = p.hasBits d
  linked {d D} : c.engine.program.decl? d = some D → ¬ c.Settling d →
    ((c.engine.program.backend.link? d).isSome = true ↔
      D.needsStorage = true ∨ p.needsStorage d = true ∧ p.hasBits d = false)
  settling {needsCode frees d D} : c.stage = .installed needsCode frees → c.stack.head? = some d →
    c.engine.program.decl? d = some D → D.needsStorage = needsCode ∧ p.hasBits d = frees ∧
      (needsCode = false → frees = false → (c.engine.program.backend.link? d).isSome = p.needsStorage d)

namespace Config.Stored
variable {p : Program} {c c' : Config} {d : DeclId} {D : Decl}

lemma settle (hm : Move c c') (ht : c'.stage ≠ .torn) (hl : c.program.backend.isRecording = true)
    (hnum : ∀ {d D}, c.program.decl? d = some D → D.id = d)
    (hr : c.program.backend.rules = []) (hs : c.Settling d) (hn : ¬ c'.Settling d)
    (hD : c.program.decl? d = some D) (h : c.Stored p) :
    ((c'.program.backend.link? d).isSome = true ↔
      D.needsStorage = true ∨ p.needsStorage d = true ∧ p.hasBits d = false) := by
  obtain ⟨needsCode, frees, hst, hS⟩ := hs
  cases hm with
  | quiet | collide | claim => exact absurd ⟨needsCode, frees, hst, hS⟩ hn
  | tear => exact absurd rfl ht
  | spare hneeds hf =>
    cases hst
    cases hS
    obtain ⟨hneed, hbits, hlink⟩ := h.settling rfl rfl hD
    obtain rfl : needsCode = false := hneeds.resolve_right fun hn => nomatch hn.symm.trans hD
    rw [hneed, hbits]
    cases frees with
    | true =>
      have hnone := hf rfl D hD
      rw [hnum hD] at hnone
      simp [hnone]
    | false => simp [hlink rfl rfl]
  | grant link header hlink hneeds =>
    cases hst
    cases hS
    obtain ⟨hneed, -, -⟩ := h.settling rfl rfl hD
    have hheld := (hlink D hD).resolve_left fun hsilent => by cases hsilent ▸ hl
    rw [hnum hD] at hheld
    have hb (x : Engine) (y : WorkItem) (b : Bool) :
        (if b then x.push y else x).program.backend = x.program.backend := by
      cases b <;> rfl
    dsimp only
    rw [hb]
    simp [Engine.push, Engine.modifyProgram, Program.modifyDecl, hheld, hneed, hneeds]
  | withhold _ hlookup =>
    rw [hr] at hlookup
    cases hlookup
  | _ => cases hst

lemma settling_move (hm : Move c c') (hi : ¬ c.stage.Installs c'.stage) (h : c.Stored p) {needsCode frees : Bool}
    (hst : c'.stage = .installed needsCode frees) (hS : c'.stack.head? = some d) (hD : c'.program.decl? d = some D) :
    D.needsStorage = needsCode ∧ p.hasBits d = frees ∧
      (needsCode = false → frees = false → (c'.program.backend.link? d).isSome = p.needsStorage d) := by
  cases hm with
  | @quiet _ _ _ e g hq _ hb =>
    change (g e.program).decls.get? d = some D at hD
    rw [hq.decls] at hD
    obtain ⟨hneeds, hbits, hlink⟩ := h.settling hst hS hD
    refine ⟨hneeds, hbits, fun hn hf => ?_⟩
    cases hst
    cases hn
    cases hf
    show (Backend.link? (g e.program).backend d).isSome = _
    generalize (g e.program).backend = b at hb
    cases hb with
    | nothing => exact hlink rfl rfl
    | exports hst => exact hst.elim nofun nofun
  | collide | claim => exact h.settling hst hS hD
  | install => exact absurd ⟨rfl, _, _, rfl⟩ hi
  | @take _ item => cases item <;> cases hst
  | _ => cases hst

lemma move (hm : Move c c') (ht : c'.stage ≠ .torn) (hb : ¬ c.stage.Begins c'.stage) (hi : ¬ c.stage.Installs c'.stage)
    (hp : p.Graph) (hd : c.Dealing p) (hr : c.program.backend.rules = []) (h : c.Stored p) : c'.Stored p := by
  have ha : c.Attentive := hd.attentive fun hc => ht (hm.torn hc)
  have houtline := h.outline.move hm ht ha
  have same {x : DeclId} {D D' : Decl} (hD : c.program.decl? x = some D) (hD' : c'.program.decl? x = some D')
      (hst : D.Steady D') : D'.Functional ∧ (D'.state = .unreferenced → D'.value = none) ∧
        (c'.Waits x D' → D'.needsStorage = p.needsStorage x ∧ D'.hasBits = p.hasBits x) ∧
        (¬ c'.Settling x → ((c'.program.backend.link? x).isSome = true ↔
          D'.needsStorage = true ∨ p.needsStorage x = true ∧ p.hasBits x = false)) := by
    have hneeds := Decl.needsStorage_of_stored hst.stored
    refine ⟨(h.functional hD).of_stored hst.stored, fun hu => ?_, fun hw => ?_, fun hn => ?_⟩
    · have hnone := h.unreferenced hD (hst.unreferenced hu)
      obtain ⟨-, hv⟩ | ⟨v, v', hv, -⟩ := Decl.stored_cases hst.stored
      · exact hv
      · cases hnone.symm.trans hv
    · rw [hneeds, Decl.hasBits_of_stored hst.stored]
      exact h.waiting hD (hm.waits hd.graph hb hD hD' hw)
    · rw [hneeds]
      by_cases hs : c.Settling x
      · exact h.settle hm ht hd.linked.recording (fun hD => (hd.continues.numbered hD).1) hr hs hn hD
      · rw [hm.link_eq hd (by rw [hD']; rfl) hs]
        exact h.linked hD hs
  obtain hs | ⟨file, ns, item, -, -, (hreg : c'.program = _)⟩ := hm.steadies_or_registers ht hi h.outline
  · refine ⟨houtline, fun {x D'} hD' => ?_, fun {x D'} hD' => ?_, fun {x D'} hD' => ?_, fun {x D'} hD' => ?_,
      fun hst hS hD => h.settling_move hm hi hst hS hD⟩
    all_goals obtain ⟨D, hD, hst⟩ := hs x D' hD'
    · exact (same hD hD' hst).1
    · exact (same hD hD' hst).2.1
    · exact (same hD hD' hst).2.2.1
    · exact (same hD hD' hst).2.2.2
  · have new {x : DeclId} {D' : Decl} (hD' : c'.program.decl? x = some D') :
        c.program.decl? x = some D' ∨ D'.value = none ∧ p.needsStorage x = false ∧ p.hasBits x = false ∧
          (c'.program.backend.link? x).isSome = false := by
      rw [hreg] at hD'
      obtain ⟨hD, -⟩ | ⟨rfl, rfl⟩ := Program.decl?_register_cases hD'
      · exact .inl hD
      · obtain ⟨hn, hbits⟩ := Program.needsStorage_of_bound hp hd.continues.next
        refine .inr ⟨rfl, hn, hbits, Bool.eq_false_iff.2 fun hlink => ?_⟩
        rw [hreg] at hlink
        obtain ⟨D, hD⟩ := Option.isSome_iff_exists.1 (hd.linked.live hlink)
        exact absurd (hd.graph.bound hD) (Nat.lt_irrefl _)
    refine ⟨houtline, fun {x D'} hD' => ?_, fun {x D'} hD' hu => ?_, fun {x D'} hD' hw => ?_, fun {x D'} hD' hn => ?_,
      fun hst hS hD => h.settling_move hm hi hst hS hD⟩
    all_goals obtain hD | ⟨hv, hneeds, hbits, hlink⟩ := new hD'
    · exact (same hD hD' (.refl D')).1
    · intro v f hv'
      cases hv.symm.trans hv'
    · exact (same hD hD' (.refl D')).2.1 hu
    · exact hv
    · exact (same hD hD' (.refl D')).2.2.1 hw
    · simp [Decl.needsStorage, Decl.hasBits, hv, hneeds, hbits]
    · exact (same hD hD' (.refl D')).2.2.2 hn
    · simp [Decl.needsStorage, hv, hneeds, hlink]

lemma install {S : List DeclId} {B : Option (DeclId × Nat)} {e : Engine} {v : DeclValue} {needsCode frees : Bool}
    (hv : v.Fresh needsCode) (hf : p.hasBits d = frees) (ha : Attentive ⟨.working, d :: S, B, e⟩)
    (h : Stored p ⟨.working, d :: S, B, e⟩) : Stored p ⟨.installed needsCode frees, d :: S, B, e.installed d v⟩ := by
  have hm : Move ⟨.working, d :: S, B, e⟩ ⟨.installed needsCode frees, d :: S, B, e.installed d v⟩ := .install hv
  have free (x : DeclId) : ¬ Settling ⟨.working, d :: S, B, e⟩ x := fun ⟨_, _, hs, _⟩ => nomatch hs
  refine ⟨h.outline.move hm nofun ha, fun {x D'} hD' => ?_, fun {x D'} hD' hu => ?_, fun {x D'} hD' hw => ?_,
    fun {x D'} hD' hn => ?_, fun {_ _ x D'} hst hS hD' => ?_⟩
  all_goals obtain ⟨rfl, D, hD, rfl⟩ | ⟨hx, hD⟩ := Program.decl?_modifyDecl_cases hD'
  · intro w f hw
    cases hw
    exact hv.isFunction
  · exact h.functional hD
  · cases hu
  · exact h.unreferenced hD hu
  · -- What was dealt with in this update does not wait.
    obtain ⟨D₀, hD₀, hat⟩ := ha.attends (.inl List.mem_cons_self)
    cases hD.symm.trans hD₀
    obtain hw | ⟨-, hw | hw | hw | hw⟩ := hw
    · cases hw
    · exact absurd hat.generation hw
    · cases hw
    · cases hw
    · exact absurd hw (List.nodup_cons.1 ha.nodup).1
  · refine h.waiting hD (.inr ⟨rfl, ?_⟩)
    obtain hw | ⟨-, hw⟩ := hw
    · cases hw
    · exact hw.imp_right (Or.imp_right (Or.imp_right (List.mem_cons_of_mem _)))
  · exact absurd ⟨needsCode, frees, rfl, rfl⟩ hn
  · exact h.linked hD (free x)
  · cases hst
    refine ⟨hv.needs, hf, fun _ _ => ?_⟩
    obtain ⟨hneeds, -⟩ := h.waiting hD (.inr ⟨rfl, .inr (.inr (.inr List.mem_cons_self))⟩)
    have hlink := h.linked hD (free x)
    rw [hneeds] at hlink
    exact Bool.eq_iff_iff.2 (hlink.trans ⟨fun h => h.elim id And.left, .inl⟩)
  · cases hS
    exact absurd rfl hx

end Config.Stored

namespace Program
variable {p p' : Program}

structure Stores (p : Program) : Prop where
  functional {d D} : p.decl? d = some D → D.Functional
  unreferenced {d D} : p.decl? d = some D → D.state = .unreferenced → D.value = none
  linked {d D} : p.decl? d = some D → (p.backend.link? d).isSome = D.needsStorage

lemma Stores.begin (h : p.Stores) : Config.Stored p p.starting where
  outline _ _ _ hb := by cases hb
  functional hD := h.functional hD
  unreferenced hD := h.unreferenced hD
  waiting {d D} hD _ := by
    have hD : p.decl? d = some D := hD
    rw [needsStorage, hasBits, hD]
    exact ⟨rfl, rfl⟩
  linked {d D} hD _ := by
    have hD : p.decl? d = some D := hD
    have hn : p.needsStorage d = D.needsStorage := by rw [needsStorage, hD, Option.any_some]
    change (p.backend.link? d).isSome = true ↔ _
    rw [h.linked hD, hn]
    exact ⟨.inl, fun h => h.elim id And.left⟩
  settling hs := by cases hs

lemma stored_upheld (hp : p.Graph) : Upheld (fun _ c => c.Dealing p ∧ c.program.backend.rules = [] ∧
    (c.stage ≠ .torn → c.Stored p)) fun _ => True := by
  have step {c c' : Config} (hm : Move c c') (hb : ¬ c.stage.Begins c'.stage) (he : ¬ c.stage.Ends c'.stage)
      (hs : c.Dealing p → c.program.backend.rules = [] → c'.stage ≠ .torn → c.Stored p → c'.Stored p)
      (h : c.Dealing p ∧ c.program.backend.rules = [] ∧ (c.stage ≠ .torn → c.Stored p)) :
      c'.Dealing p ∧ c'.program.backend.rules = [] ∧ (c'.stage ≠ .torn → c'.Stored p) := by
    obtain ⟨hd, hr, h⟩ := h
    exact ⟨hd.move hm he, hm.alike.rules.trans hr, fun ht => hs hd hr ht (h fun hc => ht (hm.torn hc))⟩
  refine .ofLooks id (fun _ c c' hm hb he hi _ h => ?_) (fun _ _ _ => trivial)
    (fun {_ s d S B e D v needsCode frees} hv _ hD hf begun _ h => ?_) fun _ _ _ _ _ _ h => ?_
  · exact step hm hb he (fun hd hr ht hs => hs.move hm ht hb hi hp hd hr) h
  · refine step (.install hv) (fun hs => nomatch hs.1) (fun hs => nomatch hs.1) (fun hd _ _ hs => ?_) h
    refine hs.install hv ?_ (hd.attentive nofun)
    have hbegun := begun.2.2 nofun
    have hbits := (hbegun.waiting hD (.inr ⟨rfl, .inr (.inr (.inr List.mem_cons_self))⟩)).2
    rw [← hbits]
    obtain rfl | rfl := hf
    · rfl
    · cases hi : D.isInlineFn with
      | false => rfl
      | true => exact (hbegun.functional hD).hasBits_of_isInlineFn hi
  · refine step .ran (fun hs => nomatch hs.1) (fun hs => nomatch hs.1) (fun hd hr ht hs => ?_) h
    exact hs.move .ran ht (fun hs => nomatch hs.1) (fun ⟨_, _, _, hs⟩ => nomatch hs) hp hd hr

lemma Stores.update {report : Report} (h : p.Stores) (hd : p.resting.Dealing p) (hr : p.backend.rules = [])
    (hu : p.update = (.ok report, p'))
    (hk : ∀ d, p.needsStorage d = true → p.hasBits d = false → (p'.decl? d).isSome = true → p'.needsStorage d = true) :
    p'.Stores ∧ p'.backend.rules = [] := by
  have hstart : Move p.resting p.starting := .start
  have hbegin := update_upheld (stored_upheld hd.graph) (p := p)
    ⟨⟨p, {}⟩, hd.move hstart (fun hs => nomatch hs.1), hr, fun _ => h.begin⟩
  rw [hu] at hbegin
  obtain ⟨e, ⟨-, -, hrules, he⟩, -, -, rfl⟩ := hbegin
  have hs := he nofun
  refine ⟨⟨fun hD => hs.functional hD, fun hD => hs.unreferenced hD, fun {d D} hD => ?_⟩, hrules⟩
  have hD : e.program.decl? d = some D := hD
  refine Bool.eq_iff_iff.2 ((hs.linked hD fun ⟨_, _, hs, _⟩ => nomatch hs).trans ⟨fun h => ?_, .inl⟩)
  obtain h | ⟨hneeds, hbits⟩ := h
  · exact h
  · have hneeds := hk d hneeds hbits (congrArg Option.isSome hD)
    have hany : (e.program.decl? d).any Decl.needsStorage = true := hneeds
    rwa [hD] at hany

/-- Programs that come of edits and updates. Each update succeeds, and leaves what is there complete, or not referred
to. What was a constant that is kept as it is, is not made into something that needs no storage. -/
inductive Accounted (p : Program) : Program → Prop
  | refl : Accounted p p
  | edit {q} (h : Accounted p q) (change : Edit) : Accounted p (q.edit change)
  | update {q q' report} (h : Accounted p q) (hu : q.update = (.ok report, q'))
      (hs : ∀ d D, q'.decl? d = some D → D.state = .complete ∨ D.state = .unreferenced)
      (hk : ∀ d, q.needsStorage d = true → q.hasBits d = false →
        (q'.decl? d).isSome = true → q'.needsStorage d = true) :
      Accounted p q'

lemma Accounted.operates (h : Accounted p p') : Operates p p' := by
  induction h with
  | refl => exact .refl
  | edit _ change ih => exact ih.edit change
  | update _ hu _ _ ih =>
    have h := ih.update
    rwa [hu] at h

lemma Accounted.rests {options : Options} (h : Accounted { options, backend := .recording {} } p) :
    p.Stores ∧ p.backend.rules = [] ∧ ∀ d D, p.decl? d = some D → D.state = .complete ∨ D.state = .unreferenced := by
  induction h with
  | refl =>
    have none {d : DeclId} {D : Decl} (hD : ({ options, backend := .recording {} } : Program).decl? d = some D) :
        False := by
      cases hD
    exact ⟨⟨fun hD => (none hD).elim, fun hD => (none hD).elim, fun hD => (none hD).elim⟩, rfl,
      fun _ _ hD => (none hD).elim⟩
  | edit _ change ih =>
    obtain ⟨⟨hf, hu, hl⟩, hr, hs⟩ := ih
    cases change <;> exact ⟨⟨hf, hu, hl⟩, hr, hs⟩
  | @update q q' report h hu hs hk ih =>
    obtain ⟨hst, hr, -⟩ := ih
    obtain ⟨hready, hlinked, -⟩ := h.operates.rests
    have hd := h.operates.dealing hready hlinked
    have hself : q.Continues q := ⟨Nat.le_refl _, fun hD => hd.continues.numbered hD, fun hD _ => ⟨_, hD, .refl _⟩⟩
    have hd' : q.resting.Dealing q := { hd with continues := hself }
    obtain ⟨hst', hr'⟩ := hst.update hd' hr hu hk
    exact ⟨hst', hr', hs⟩

def accounts (q : Program) : Bool :=
  q.update.1.isOk && q.update.2.decls.values.all (fun D => D.state == .complete || D.state == .unreferenced) &&
    q.decls.keys.all fun d => !q.needsStorage d || q.hasBits d || (q.update.2.decl? d).all Decl.needsStorage

lemma Accounted.ofAccounts {q : Program} (h : Accounted p q) (hq : q.accounts = true) : Accounted p q.update.2 := by
  unfold accounts at hq
  rw [Bool.and_eq_true, Bool.and_eq_true] at hq
  obtain ⟨⟨hu, hs⟩, hk⟩ := hq
  obtain ⟨report, hr⟩ : ∃ report, q.update.1 = .ok report := by
    cases hr : q.update.1 with
    | error _ =>
      rw [hr] at hu
      cases hu
    | ok report => exact ⟨report, rfl⟩
  refine h.update (Prod.ext hr rfl) (fun d D hD => ?_) fun d hneeds hbits hlive => ?_
  · have hmem : D ∈ q.update.2.decls.values := List.mem_map_of_mem (Dict.mem_of_get? hD)
    simpa using List.all_eq_true.1 hs D hmem
  · obtain ⟨D, hD, -⟩ := (Option.any_eq_true _ _).1 hneeds
    have hmem : d ∈ q.decls.keys := List.mem_map_of_mem (Dict.mem_of_get? hD)
    obtain ⟨D', hD'⟩ := Option.isSome_iff_exists.1 hlive
    have hcheck := List.all_eq_true.1 hk d hmem
    rw [hneeds, hbits, hD'] at hcheck
    rw [needsStorage, hD']
    simpa using hcheck

/-- Links are held exactly for complete declarations whose value needs storage. -/
theorem links_accounted {options : Options} (h : Accounted { options, backend := .recording {} } p) (d : DeclId) :
    (p.backend.link? d).isSome = true ↔ ∃ D, p.decl? d = some D ∧ D.state = .complete ∧ D.needsStorage = true := by
  obtain ⟨hst, -, hs⟩ := h.rests
  obtain ⟨-, hlinked, -⟩ := h.operates.rests
  constructor
  · intro hlink
    obtain ⟨D, hD⟩ := Option.isSome_iff_exists.1 (hlinked.live hlink)
    have hneeds := (hst.linked hD).symm.trans hlink
    refine ⟨D, hD, (hs d D hD).resolve_right fun hu => ?_, hneeds⟩
    rw [Decl.needsStorage, hst.unreferenced hD hu] at hneeds
    cases hneeds
  · rintro ⟨D, hD, -, hneeds⟩
    exact (hst.linked hD).trans hneeds

/-- A variable becomes a constant that needs no storage. -/
theorem links_accounted_variable_freed :
    let first := "export fn f() u8 \x7b return x; \x7d\nvar x: u8 = 1;\n"
    let second := "export fn f() u8 \x7b return x; \x7d\nconst x = 2;\n"
    let p₁ := (Program.edit { backend := .recording {} } (.addSource "a" first)).update.2
    let p₂ := (p₁.edit (.setSource 0 second)).update.2
    (p₁.decls.values.filter Decl.needsStorage).map (·.name) = ["f", "x"] ∧
      (p₂.decls.values.filter Decl.needsStorage).map (·.name) = ["f"] ∧
      ∀ d, (p₂.backend.link? d).isSome = true ↔
        ∃ D, p₂.decl? d = some D ∧ D.state = .complete ∧ D.needsStorage = true := by
  intro first second p₁ p₂
  have hd : (Program.edit { backend := .recording {} } (.addSource "a" first)).accounts = true ∧
      (p₁.edit (.setSource 0 second)).accounts = true ∧
      (p₁.decls.values.filter Decl.needsStorage).map (·.name) = ["f", "x"] ∧
      (p₂.decls.values.filter Decl.needsStorage).map (·.name) = ["f"] := by decide +kernel
  obtain ⟨hfirst, hsecond, hbefore, hafter⟩ := hd
  have h : Accounted { backend := .recording {} } p₂ :=
    ((Accounted.refl.edit _).ofAccounts hfirst |>.edit _).ofAccounts hsecond
  exact ⟨hbefore, hafter, links_accounted h⟩

/-- A constant that comes to need no storage keeps its link: nothing is freed. -/
theorem constant_keeps_link :
    let first := "const x: u32 = 1;\ncomptime \x7b _ = x; \x7d\n"
    let second := "const x = 1;\ncomptime \x7b _ = x; \x7d\n"
    let p₁ := (Program.edit { backend := .recording {} } (.addSource "a" first)).update.2
    let p₂ := (p₁.edit (.setSource 0 second)).update
    p₂.1.isOk = true ∧ (p₂.2.decls.values.all (·.state == .complete)) = true ∧
      p₂.2.decls.values.map (fun D => (D.name, D.needsStorage, (p₂.2.backend.link? D.id).isSome)) =
        [("x", false, true), ("comptime#0", false, false)] ∧
      p₂.2.backend.calls.filterMap (·.call.freed?) = [] := by decide +kernel

end Program

end Frontend
