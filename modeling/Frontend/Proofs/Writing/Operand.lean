import Frontend.Proofs.Settles
import Frontend.Proofs.Writing

/-! What single operations write. Each yields an operand that code after it can use, and conversion yields one of the
type asked for. -/

namespace Frontend

lemma Ty.fits_of_intContains {d s : IntInfo} (h : Ty.intContains d s = true) {v : Int} (hv : s.fits v = true) :
    d.fits v = true := by
  have pow_le {m n : Nat} (hmn : m ≤ n) : (2 : Int) ^ m ≤ 2 ^ n := by
    have := Nat.pow_le_pow_right (n := 2) (by decide) hmn
    exact_mod_cast this
  have pos (n : Nat) : (0 : Int) < 2 ^ n := Int.pow_pos (by decide)
  obtain ⟨ds, db⟩ := d
  obtain ⟨ss, sb⟩ := s
  simp only [Ty.intContains, Bool.or_eq_true, Bool.and_eq_true, decide_eq_true_eq, Bool.not_eq_true'] at h
  obtain ⟨rfl, hb⟩ | ⟨⟨rfl, rfl⟩, hb⟩ := h
  · cases ds with
    | false =>
      have := pow_le hb
      simp only [IntInfo.fits, Bool.false_eq_true, if_false, Bool.and_eq_true, decide_eq_true_eq] at hv ⊢
      omega
    | true =>
      have hp := pow_le (Nat.sub_le_sub_right hb 1)
      have hd := pos (db - 1)
      simp only [IntInfo.fits, if_true] at hv ⊢
      split at hv
      · have hv : v = 0 := by simpa using hv
        subst hv
        split
        · rfl
        · simp only [Bool.and_eq_true, decide_eq_true_eq]
          omega
      · next hs =>
        rw [if_neg (by omega)]
        simp only [Bool.and_eq_true, decide_eq_true_eq] at hv ⊢
        omega
  · have hp := pow_le (Nat.le_sub_one_of_lt hb)
    have hd := pos (db - 1)
    simp only [IntInfo.fits, Bool.false_eq_true, if_false, if_true, Bool.and_eq_true, decide_eq_true_eq] at hv ⊢
    rw [if_neg (by omega)]
    simp only [Bool.and_eq_true, decide_eq_true_eq]
    omega

namespace Analysis

open Typed (Arena InstKind UnOp)

def Does {α : Type} (site : Site) (m : Analysis α) (s : State) (Q : α → State → Prop) : Prop :=
  Settles (m site) s Q fun _ _ => True

namespace Does
variable {site : Site} {s : State} {α β : Type} {m : Analysis α} {Q Q' : α → State → Prop}

lemma pure {a : α} (h : Q a s) : Does site (Pure.pure a) s Q := h

lemma mono (h : Does site m s Q) (hQ : ∀ a s', Q a s' → Q' a s') : Does site m s Q' :=
  Settles.mono h hQ fun _ _ _ => trivial

variable {f : α → Analysis β} {R : β → State → Prop} {cause : Cause}

lemma bind (h : Does site m s Q) (hf : ∀ a s', Q a s' → Does site (f a) s' R) : Does site (m >>= f) s R :=
  Settles.bind (f := fun a => f a site) h hf

lemma fail {span : Span} : Does site (Analysis.fail span cause) s Q := trivial

lemma failThen {span : Span} : Does site (Analysis.fail span cause >>= f) s R := trivial

/-! Reading the state, and what comes of it. -/

lemma get {g : State → Analysis β} (h : Does site (g s) s R) : Does site (MonadState.get >>= g) s R := h

lemma getThen {g : State → Analysis α} (h : Does site (g s >>= f) s R) :
    Does site ((MonadState.get >>= g) >>= f) s R := h

lemma programThen {g : Program → Analysis α} (h : Does site (g s.engine.program >>= f) s R) :
    Does site ((Analysis.program >>= g) >>= f) s R := h

lemma valueOf? {r : Ref} {g : Option Value → Analysis β} (h : Does site (g (s.block.arena.value? r)) s R) :
    Does site (Analysis.valueOf? r >>= g) s R := h

lemma valueThen {r : Ref} {g : Option Value → Analysis α} (h : Does site (g (s.block.arena.value? r) >>= f) s R) :
    Does site ((Analysis.valueOf? r >>= g) >>= f) s R := h

lemma tyOf {r : Ref} {g : Ty → Analysis β} (h : Does site (g (s.block.arena.ty r)) s R) :
    Does site (Analysis.tyOf r >>= g) s R := h

lemma guard {c : Prop} [Decidable c] {span : Span} {f : Unit → Analysis β} (h : ¬ c → Does site (f ()) s R) :
    Does site (if c then Analysis.fail span cause >>= f else f ()) s R := by
  split
  · exact failThen
  · next hc => exact h hc

lemma ite {c : Prop} [Decidable c] {n : Analysis α} (ht : c → Does site m s Q) (hf : ¬ c → Does site n s Q) :
    Does site (if c then m else n) s Q := by
  split
  · exact ht ‹c›
  · exact hf ‹¬ c›

lemma runtime {span : Span} {f : Unit → Analysis β} (h : s.block.isComptime = false → Does site (f ()) s R) :
    Does site (requireRuntime span >>= f) s R := by
  change Does site ((if s.block.isComptime then Analysis.fail span .notConstant else Pure.pure ()) >>= f) s R
  split
  · exact failThen
  · next hc => exact h (by simpa using hc)

lemma comptime {r : Ref} {span : Span} {f : Value → Analysis β}
    (h : ∀ v, s.block.arena.value? r = some v → Does site (f v) s R) :
    Does site (requireComptime r span >>= f) s R := by
  unfold requireComptime
  refine valueThen ?_
  split
  · next v hv => exact h v hv
  · exact failThen

lemma ofExcept {span : Span} {x : Except Cause α} (h : ∀ a, x = .ok a → Does site (f a) s R) :
    Does site (Analysis.ofExcept span x >>= f) s R := by
  cases x with
  | ok a => exact h a rfl
  | error cause => exact failThen

lemma isComptime {f : Bool → Analysis β} (h : Does site (f s.block.isComptime) s R) :
    Does site (Analysis.isComptime >>= f) s R := h

lemma inChild {comptime : Bool} {f : α × List Ref → Analysis β}
    (h : Does site m (s.enter comptime) fun a s₁ => Does site (f (a, s₁.block.insts)) (s₁.leave s) R) :
    Does site (Analysis.inChild comptime m >>= f) s R := by
  have hc : Does site (Analysis.inChild comptime m) s fun x s' => Does site (f x) s' R := by
    unfold Analysis.inChild
    exact Does.bind (m := m) (s := s.enter comptime) h fun _ _ h => h
  exact hc.bind fun _ _ h => h

lemma inCall (h : Does site m { s with results := {} } fun a s₁ => Q a { s₁ with results := s.results }) :
    Does site (Analysis.inCall m) s Q := by
  unfold Analysis.inCall
  exact Does.bind (m := m) (s := { s with results := {} }) h fun _ _ h => h

lemma addWith {add : Typed.Block → Typed.Block} {Q : Ref → State → Prop}
    (h : Q s.block.arena.size { s with block := add s.block }) : Does site (Analysis.addWith add) s Q := by
  unfold Does Settles Analysis.addWith
  by_cases hr : s.block.arena.hasRoom = true
  · rw [if_pos hr]
    exact h
  · rw [if_neg hr]
    trivial

lemma emitThen {kind : InstKind} {ty : Ty} {span : Span} {f : Ref → Analysis β}
    (h : Does site (f s.block.arena.size) (s.add kind ty span) R) : Does site (Analysis.emit kind ty span >>= f) s R :=
  bind (addWith (Q := fun r s' => Does site (f r) s' R) h) fun _ _ h => h

end Does

structure Passes (G : Engine → Engine → Prop) (C : Context) (s s' : State) : Prop where
  writes : Writes G C s s'
  isOpen : s'.Open
  results : s'.results = s.results

def Emits {α : Type} (G : Engine → Engine → Prop) (C : Context) (site : Site) (m : Analysis α) (s : State)
    (Q : α → State → Prop) : Prop := s.Open → Does site m s fun a s' => Passes G C s s' ∧ Q a s'

variable {G : Engine → Engine → Prop} {C : Context} {site : Site} {s s' s'' : State} {α β : Type}

lemma Passes.refl (h : s.Open) : Passes G C s s := ⟨.refl, h, rfl⟩

lemma Passes.trans (h : Passes G C s s') (h' : Passes G C s' s'') : Passes G C s s'' :=
  ⟨h.writes.trans h'.writes, h'.isOpen, h'.results.trans h.results⟩

lemma Passes.sees {r : Ref} (h : Passes G C s s') (hr : C.Sees s r) : C.Sees s' r := h.writes.sees hr

lemma Passes.has {r : Ref} {ty : Ty} (h : Passes G C s s') (hr : C.Has s ty r) : C.Has s' ty r := h.writes.has hr

lemma Passes.isComptime_eq (h : Passes G C s s') : s'.block.isComptime = s.block.isComptime := h.writes.isComptime_eq

variable {kind : InstKind} {v : Value} {R : β → State → Prop} {op : CmpOp} {isConst : Bool}

lemma State.Open.add {ty : Ty} {src : Span} (h : s.Open) (hs : Typed.Inst.stops ⟨kind, ty, src⟩ = false) :
    (s.add kind ty src).Open := by
  intro r hr
  rcases List.mem_append.1 hr with hr | hr
  · obtain ⟨i, hi, hs⟩ := h r hr
    exact ⟨i, Arena.extends_push _ _ r i hi, hs⟩
  · rw [List.mem_singleton.1 hr]
    exact ⟨_, Arena.insts_push_size _ _, hs⟩

lemma State.Open.extend (h : s.Open) (ha : s.block.arena.Extends s'.block.arena) (hi : s'.block.insts = s.block.insts) :
    s'.Open := by
  intro r hr
  obtain ⟨i, hi, hs⟩ := h r (hi ▸ hr)
  exact ⟨i, ha r i hi, hs⟩

lemma Context.sees_add {ty : Ty} {src : Span} : C.Has (s.add kind ty src) ty s.block.arena.size := by
  refine ⟨⟨?_, .inr ?_⟩, ?_⟩
  · change _ < (s.block.arena.push ⟨kind, ty, src⟩).size
    simp
  · change _ ∈ C.above ++ (s.block.insts ++ [s.block.arena.size])
    simp
  · exact congrArg Typed.Inst.ty (Arena.inst_push_size _ _)

lemma State.holds_addConst {ty : Ty} {src : Span} :
    (s.addConst ty v src).block.arena.Holds s.block.arena.size ty v := ⟨src, Arena.insts_push_size _ _⟩

lemma Context.Sees.holds {r : Ref} (h : C.Sees s r) (hv : s.block.arena.value? r = some v) :
    s.block.arena.Holds r (s.block.arena.ty r) v := Arena.holds_of_value h.1 hv

lemma Context.has_of_holds {r : Ref} {ty : Ty} (h : s.block.arena.Holds r ty v) : C.Has s ty r := by
  obtain ⟨src, hi⟩ := h
  have hi' := Arena.inst_of_insts hi
  refine ⟨⟨Arena.lt_size_of_insts hi, .inl ?_⟩, ?_⟩
  · simp [Arena.value?, hi', Typed.Inst.value?]
  · exact congrArg Typed.Inst.ty hi'

namespace Emits
variable {m : Analysis α} {f : α → Analysis β} {Q Q' : α → State → Prop} {R : β → State → Prop} {r : Ref} {span : Span}

lemma pure {a : α} (h : Q a s) : Emits G C site (Pure.pure a) s Q := fun ho => ⟨.refl ho, h⟩

variable {cause : Cause} {kind : InstKind} {v : Value}

lemma fail : Emits G C site (Analysis.fail span cause) s Q := fun _ => trivial

lemma mono (h : Emits G C site m s Q) (hQ : ∀ a s', Passes G C s s' → Q a s' → Q' a s') : Emits G C site m s Q' :=
  fun ho => (h ho).mono fun a s' ⟨hp, hq⟩ => ⟨hp, hQ a s' hp hq⟩

lemma bind (h : Emits G C site m s Q) (hf : ∀ a s', Passes G C s s' → Q a s' → Emits G C site (f a) s' R) :
    Emits G C site (m >>= f) s R :=
  fun ho => (h ho).bind fun a s' ⟨hp, hq⟩ => (hf a s' hp hq hp.isOpen).mono fun _ _ ⟨hp', hr⟩ => ⟨hp.trans hp', hr⟩

lemma ite {c : Prop} [Decidable c] {n : Analysis α} (ht : c → Emits G C site m s Q)
    (hf : ¬ c → Emits G C site n s Q) : Emits G C site (if c then m else n) s Q := by
  split
  · exact ht ‹c›
  · exact hf ‹¬ c›

lemma guard {c : Prop} [Decidable c] {f : Unit → Analysis β} (h : ¬ c → Emits G C site (f ()) s R) :
    Emits G C site (if c then Analysis.fail span cause >>= f else f ()) s R :=
  fun ho => Does.guard fun hc => h hc ho

/-! What is only looked at. -/

lemma tyOf {f : Ty → Analysis β} (h : Emits G C site (f (s.block.arena.ty r)) s R) :
    Emits G C site (Analysis.tyOf r >>= f) s R := h

lemma valueOf? {f : Option Value → Analysis β} (h : Emits G C site (f (s.block.arena.value? r)) s R) :
    Emits G C site (Analysis.valueOf? r >>= f) s R := h

lemma isComptime {f : Bool → Analysis β} (h : Emits G C site (f s.block.isComptime) s R) :
    Emits G C site (Analysis.isComptime >>= f) s R := h

lemma get {f : State → Analysis β} (h : Emits G C site (f s) s R) :
    Emits G C site (MonadState.get >>= f) s R := h

lemma program {f : Program → Analysis β} (h : Emits G C site (f s.engine.program) s R) :
    Emits G C site (Analysis.program >>= f) s R := h

lemma options {f : Options → Analysis β} (h : Emits G C site (f s.engine.program.options) s R) :
    Emits G C site (Analysis.options >>= f) s R := h

lemma runtime {f : Unit → Analysis β} (h : s.block.isComptime = false → Emits G C site (f ()) s R) :
    Emits G C site (requireRuntime span >>= f) s R := fun ho => Does.runtime fun hc => h hc ho

lemma comptime {f : Value → Analysis β} (h : ∀ v, s.block.arena.value? r = some v → Emits G C site (f v) s R) :
    Emits G C site (requireComptime r span >>= f) s R := fun ho => Does.comptime fun v hv => h v hv ho

lemma ofExcept {x : Except Cause α} (h : ∀ a, x = .ok a → Emits G C site (f a) s R) :
    Emits G C site (Analysis.ofExcept span x >>= f) s R := fun ho => Does.ofExcept fun a ha => h a ha ho

/-! What is written. -/

section

variable {ty : Ty} {next : Ref → Analysis β} (hc : s.block.isComptime = false) (hp : kind.isPlain = true)
  (hs : ∀ x ∈ kind.operands, C.Sees s x) (hb : ∀ b r, kind = .br b r → b ∈ C.blocks)
  (ht : Typed.Inst.WellTyped s.block.arena C.ret ⟨kind, ty, span⟩) (hn : Typed.Inst.stops ⟨kind, ty, span⟩ = false)
include hc hp hs hb ht hn

lemma emit : Emits G C site (Analysis.emit kind ty span) s fun r s' => C.Has s' ty r :=
  fun ho => .addWith ⟨⟨.inst hc ho hp hs hb ht, ho.add hn, rfl⟩, Context.sees_add⟩

lemma emitted : Emits G C site (Analysis.emit kind ty span) s fun r s' => C.Sees s' r :=
  (emit hc hp hs hb ht hn).mono fun _ _ _ h => h.1

lemma emitThen (hf : ∀ r s', Passes G C s s' → C.Has s' ty r → Emits G C site (next r) s' R) :
    Emits G C site (Analysis.emit kind ty span >>= next) s R := (emit hc hp hs hb ht hn).bind hf

end

lemma constant {ty : Ty} (h : Origin s ty v) :
    Emits G C site (Analysis.constant ty v span) s fun r s' => s'.block.arena.Holds r ty v :=
  fun ho => .addWith ⟨⟨.const h span, ho.extend (Arena.extends_push _ _) rfl, rfl⟩, State.holds_addConst⟩

lemma known {ty : Ty} (h : Origin s ty v) :
    Emits G C site (Analysis.constant ty v span) s fun r s' => C.Has s' ty r :=
  (constant h).mono fun _ _ _ h => Context.has_of_holds h

lemma knownSeen {ty : Ty} (h : Origin s ty v) :
    Emits G C site (Analysis.constant ty v span) s fun r s' => C.Sees s' r := (known h).mono fun _ _ _ h => h.1

end Emits

/-! Conversion. -/

variable {r lhs rhs : Ref} {dest src ty : Ty} {span : Span}

lemma retype_emits {op : UnOp} (hr : C.Sees s r) (hk : ∀ v, s.block.arena.value? r = some v → Origin s dest v)
    (ht : Typed.Inst.WellTyped s.block.arena C.ret ⟨.unary op r, dest, span⟩) (hn : dest ≠ .noReturn) :
    Emits G C site (retype op dest r span) s fun i s' => C.Has s' dest i := by
  refine .valueOf? ?_
  split
  · next v hv => exact Emits.known (hk v hv)
  · refine .runtime fun hc => Emits.emit hc rfl (by simpa [InstKind.operands] using hr) (by nofun) ht ?_
    simp [Typed.Inst.stops, Typed.Inst.isNoReturn, hn]

lemma Ty.ne_noReturn_of_reinterprets (h : Ty.reinterprets dest src = true) : dest ≠ .noReturn := by
  rintro rfl
  cases src <;> simp [Ty.reinterprets] at h

lemma Ty.ne_noReturn_of_arrayPointer? {x : PtrSize × Nat} (h : Ty.arrayPointer? dest src = some x) :
    dest ≠ .noReturn := by
  rintro rfl
  cases src <;> simp [Ty.arrayPointer?] at h

lemma pointToElements_emits {size : PtrSize} {len : Nat} (hr : C.Sees s r)
    (h : Ty.arrayPointer? dest (s.block.arena.ty r) = some (size, len)) :
    Emits G C site (pointToElements size len dest r span) s fun i s' => C.Has s' dest i := by
  refine .valueOf? ?_
  split
  · next v hv =>
    exact Emits.known (.elements (hr.holds hv) h)
  · have hn := Ty.ne_noReturn_of_arrayPointer? h
    refine .runtime fun hc => Emits.emit hc rfl (by simpa [InstKind.operands] using hr) (by nofun) ?_ ?_
    · cases size <;> trivial
    · simp [Typed.Inst.stops, Typed.Inst.isNoReturn, hn]

lemma widen_emits (hr : C.Sees s r) (hs : s.block.arena.ty r = src) :
    Emits G C site (widen dest src r span) s fun i s' => C.Has s' dest i := by
  unfold widen
  split
  · next d src =>
    refine .ite (fun h => .runtime fun hc => ?_) fun _ => .fail
    refine Emits.emit hc rfl (by simpa [InstKind.operands] using hr) (by nofun) ?_ rfl
    exact ⟨src, d, hs, rfl, fun v hv => Ty.fits_of_intContains h hv⟩
  · next d src =>
    refine .ite (fun h => .runtime fun hc => ?_) fun _ => .fail
    refine Emits.emit hc rfl (by simpa [InstKind.operands] using hr) (by nofun) ?_ rfl
    exact ⟨src, d, hs, rfl, h⟩
  · exact .fail

lemma coerceFlat_emits (hr : C.Sees s r) (hs : s.block.arena.ty r = src) :
    Emits G C site (coerceFlat dest src r span) s fun i s' => C.Has s' dest i := by
  subst hs
  unfold coerceFlat
  split
  · next size len h => exact pointToElements_emits hr h
  · refine .valueOf? ?_
    split
    · next v hc hv =>
      refine .ofExcept fun w hw => ?_
      exact Emits.known (.convert (hr.holds hv) hc hw)
    · exact widen_emits hr rfl

lemma coerceOr_emits {other : Ty → Analysis Ref} (hr : C.Sees s r)
    (ho : Emits G C site (other (s.block.arena.ty r)) s fun i s' => C.Has s' dest i) :
    Emits G C site (coerceOr dest r span other) s fun i s' => C.Has s' dest i := by
  refine .tyOf (.ite (fun h => .pure ⟨hr, h⟩) fun _ => .ite (fun h => ?_) fun _ => .ite (fun _ => ?_) fun _ => ho)
  · exact retype_emits hr (fun v hv => .reinterpret (hr.holds hv) h) trivial (Ty.ne_noReturn_of_reinterprets h)
  · exact Emits.known (.undefined dest)

lemma coerce_emits (dest : Ty) (hr : C.Sees s r) :
    Emits G C site (coerce dest r span) s fun i s' => C.Has s' dest i := by
  cases dest with
  | optional child =>
    unfold coerce
    refine coerceOr_emits hr (.ite (fun _ => ?_) fun _ => .ite (fun _ => ?_) fun _ => coerceFlat_emits hr rfl)
    · exact Emits.known (.nullOf child)
    · refine (coerce_emits child hr).bind fun payload s' _ hp => ?_
      refine retype_emits hp.1 (fun v hv => ?_) ?_ nofun
      · have hw := hp.1.holds hv
        rw [hp.2] at hw
        exact .wrap hw
      · exact congrArg Ty.optional hp.2.symm
  | _ => exact coerceOr_emits hr (coerceFlat_emits hr rfl)

/-! Arithmetic. -/

lemma Ty.eq_of_peer? {l r : Ty} (h : Ty.peer? l r = some ty) : ty = l ∨ ty = r := by
  unfold Ty.peer? at h
  repeat' split at h
  all_goals simp_all

lemma Ty.ne_noReturn_of_isArithOperand (h : ty.isArithOperand = true) : ty ≠ .noReturn := by
  rintro rfl
  cases h

lemma Emits.peerType {l r : Ty} {f : Ty → Analysis β} (h : ∀ ty, Ty.peer? l r = some ty → Emits G C site (f ty) s R) :
    Emits G C site (Analysis.peerType l r span >>= f) s R := by
  unfold Analysis.peerType
  split
  · next ty hp => exact h ty hp
  · exact fun _ => trivial

lemma arith_emits {op : ArithOp} (hl : C.Sees s lhs) (hr : C.Sees s rhs) :
    Emits G C site (arith op lhs rhs span) s fun i s' => C.Sees s' i := by
  refine .tyOf (.tyOf (.guard fun ha => .peerType fun ty hp => ?_))
  have ht : ty.isArithOperand = true := by
    simp only [Bool.or_eq_true, Bool.not_eq_true', not_or, Bool.not_eq_false] at ha
    rcases Ty.eq_of_peer? hp with rfl | rfl
    · exact ha.1
    · exact ha.2
  have hn := Ty.ne_noReturn_of_isArithOperand ht
  refine (coerce_emits ty hl).bind fun lhs s₁ h₁ hl => (coerce_emits ty (h₁.sees hr)).bind fun rhs s₂ h₂ hr => ?_
  have hl := h₂.has hl
  refine .valueOf? (.valueOf? (.guard fun _ => ?_))
  split
  · next a b ha hb =>
    refine .ofExcept fun v hv => Emits.knownSeen ?_
    exact .arith ht (hl.2 ▸ hl.1.holds ha) (hr.2 ▸ hr.1.holds hb) hv
  · refine .runtime fun hc => Emits.emitted hc rfl ?_ (by nofun) ⟨hl.2, hr.2⟩ ?_
    · simpa [InstKind.operands] using ⟨hl.1, hr.1⟩
    · simp [Typed.Inst.stops, Typed.Inst.isNoReturn, hn]

lemma negate_emits (hr : C.Sees s r) : Emits G C site (negate r span) s fun i s' => C.Sees s' i := by
  refine .tyOf (.guard fun ha => .valueOf? ?_)
  simp only [Bool.or_eq_true, Bool.not_eq_true', decide_eq_true_eq, not_or, Bool.not_eq_false] at ha
  have hn := Ty.ne_noReturn_of_isArithOperand ha.1
  split
  · next v hv =>
    refine .ofExcept fun w hw => Emits.knownSeen ?_
    exact .negate ha.1 (hr.holds hv) hw
  · refine .runtime fun hc => .guard fun _ => Emits.emitted hc rfl ?_ (by nofun) rfl ?_
    · simpa [InstKind.operands] using hr
    · simp [Typed.Inst.stops, Typed.Inst.isNoReturn, hn]

lemma not_emits (hr : C.Sees s r) : Emits G C site (Analysis.not r span) s fun i s' => C.Sees s' i := by
  refine (coerce_emits .bool hr).bind fun r s₁ h₁ hr => .valueOf? ?_
  split
  · split
    · exact Emits.knownSeen (.bool _)
    · exact .fail
  · refine .runtime fun hc => Emits.emitted hc rfl ?_ (by nofun) hr.2 rfl
    simpa [InstKind.operands] using hr.1

lemma boolOp_emits {isAnd : Bool} (hl : C.Sees s lhs) (hr : C.Sees s rhs) :
    Emits G C site (boolOp isAnd lhs rhs span) s fun i s' => C.Sees s' i := by
  refine (coerce_emits .bool hl).bind fun lhs s₁ h₁ hl => (coerce_emits .bool (h₁.sees hr)).bind fun rhs s₂ h₂ hr => ?_
  have hl := h₂.has hl
  refine .valueOf? (.valueOf? ?_)
  dsimp only
  split
  · exact Emits.knownSeen (.bool _)
  · refine .runtime fun hc => Emits.emitted hc ?_ ?_ ?_ ?_ ?_
    · cases isAnd <;> rfl
    · cases isAnd <;> simpa [InstKind.operands] using ⟨hl.1, hr.1⟩
    · cases isAnd <;> nofun
    · cases isAnd <;> exact ⟨hl.2, hr.2⟩
    · cases isAnd <;> rfl

/-! Comparison. -/

lemma Emits.bitNeed {f : BitNeed → Analysis β} (h : ∀ n, Emits G C site (f n) s R) :
    Emits G C site (Analysis.bitNeed r >>= f) s R := by
  refine Emits.bind (Q := fun _ s' => s' = s) ?_ fun n s' _ hs => hs ▸ h n
  refine .valueOf? ?_
  split
  · exact .pure rfl
  · refine .tyOf ?_
    split
    · exact .pure rfl
    · exact .pure rfl

lemma compareAs_emits (ty : Ty) (hl : C.Sees s lhs) (hr : C.Sees s rhs) :
    Emits G C site (compareAs op ty lhs rhs span) s fun i s' => C.Sees s' i := by
  refine (coerce_emits ty hl).bind fun lhs s₁ h₁ hl => (coerce_emits ty (h₁.sees hr)).bind fun rhs s₂ h₂ hr => ?_
  have hl := h₂.has hl
  refine .runtime fun hc => Emits.emitted hc rfl ?_ (by nofun) (hl.2.trans hr.2.symm) rfl
  simpa [InstKind.operands] using ⟨hl.1, hr.1⟩

lemma compareInts_emits (hl : C.Sees s lhs) (hr : C.Sees s rhs) :
    Emits G C site (compareInts op lhs rhs span) s fun i s' => C.Sees s' i :=
  .bitNeed fun _ => .bitNeed fun _ => .guard fun _ => compareAs_emits _ hl hr

lemma compareFraction_emits {f : Binary64} {onRight : Bool} (hl : C.Sees s lhs) (hr : C.Sees s rhs) :
    Emits G C site (compareFraction op f onRight lhs rhs span) s fun i s' => C.Sees s' i := by
  unfold compareFraction
  split
  · exact Emits.knownSeen (.bool _)
  · next v _ =>
    refine .ite (fun _ => Emits.knownSeen (.bool _)) fun _ => ?_
    refine (Emits.constant (.int _)).bind fun i s₁ h₁ hi => ?_
    have hi := (Context.has_of_holds (C := C) hi).1
    exact .ite (fun _ => compareInts_emits (h₁.sees hl) hi) fun _ => compareInts_emits hi (h₁.sees hr)

lemma compareKnown_emits {a b : Value} : Emits G C site (compareKnown op ty a b span) s fun i s' => C.Sees s' i := by
  unfold compareKnown
  split
  · exact Emits.knownSeen (.bool _)
  · exact .fail

lemma compareScalars_emits {l r : Ty} {a b : Option Value} (hl : C.Sees s lhs) (hr : C.Sees s rhs) :
    Emits G C site (compareScalars op l r a b lhs rhs span) s fun i s' => C.Sees s' i := by
  unfold compareScalars
  split
  · exact compareAs_emits _ hl hr
  · exact compareAs_emits _ hl hr
  · exact compareAs_emits _ hl hr
  · split
    · exact compareFraction_emits hl hr
    · exact compareFraction_emits hl hr
    · exact compareInts_emits hl hr

lemma compareVectors_emits {n m : Nat} {t : Ty} (hl : C.Has s (.vector n t) lhs) (hr : C.Sees s rhs) :
    Emits G C site (compareVectors op lhs rhs n m span) s fun i s' => C.Sees s' i := by
  unfold compareVectors
  refine .guard fun hn => ?_
  refine .tyOf (.tyOf (.guard fun ht => .valueOf? (.valueOf? ?_)))
  have ht : s.block.arena.ty lhs = s.block.arena.ty rhs := by simpa using ht
  dsimp only
  split
  · next vs hv =>
    split at hv
    · next xs ys hx hy =>
      have hx := hl.2 ▸ hl.1.holds hx
      have hy := (ht.symm.trans hl.2) ▸ hr.holds hy
      exact .knownSeen (.compared hx hy hv)
    · cases hv
  · refine .runtime fun hc => Emits.emitted hc rfl ?_ (by nofun) ht rfl
    simpa [InstKind.operands] using ⟨hl.1, hr⟩

lemma compareNumeric_emits (hl : C.Sees s lhs) (hr : C.Sees s rhs) :
    Emits G C site (compareNumeric op lhs rhs span) s fun i s' => C.Sees s' i := by
  refine .tyOf (.tyOf ?_)
  split
  · next n t m u hlt hrt => exact compareVectors_emits ⟨hl, hlt⟩ hr
  · exact .fail
  · exact .fail
  · refine .valueOf? (.valueOf? ?_)
    split
    · refine .ite (fun _ => ?_) fun _ => compareKnown_emits
      exact Emits.knownSeen (.undefined _)
    · exact compareScalars_emits hl hr

lemma compareNull_emits (hr : C.Sees s r) : Emits G C site (compareNull op r span) s fun i s' => C.Sees s' i := by
  unfold compareNull
  refine .ite (fun _ _ => trivial) fun _ => .valueOf? ?_
  split
  · exact Emits.knownSeen (.bool _)
  · refine .runtime fun hc => Emits.emitted hc rfl ?_ (by nofun) ?_ rfl
    · simpa [InstKind.operands] using hr
    · by_cases h : op = .eq
      · simp only [if_pos h]
        trivial
      · simp only [if_neg h]
        trivial

lemma compareSame_emits (hl : C.Sees s lhs) (hr : C.Sees s rhs) (h : s.block.arena.ty lhs = s.block.arena.ty rhs) :
    Emits G C site (compareSame op ty lhs rhs span) s fun i s' => C.Sees s' i := by
  refine .valueOf? (.valueOf? ?_)
  split
  · exact compareKnown_emits
  · refine .guard fun _ => .runtime fun hc => Emits.emitted hc rfl ?_ (by nofun) h rfl
    simpa [InstKind.operands] using ⟨hl, hr⟩

lemma compare_emits (hl : C.Sees s lhs) (hr : C.Sees s rhs) :
    Emits G C site (Analysis.compare op lhs rhs span) s fun i s' => C.Sees s' i := by
  refine .tyOf (.tyOf (.ite (fun _ => compareNumeric_emits hl hr) fun _ => ?_))
  split
  · exact compareNull_emits hr
  · exact compareNull_emits hl
  · exact .ite (fun _ => .fail) fun h => compareSame_emits hl hr (by simpa using h)

/-! Slots and addresses. -/

lemma newSlot_emits (hr : s.block.arena.Holds r ty v) :
    Emits G C site (newSlot (.singlePtr ty isConst) ty v span) s fun i s' => C.Sees s' i := by
  refine .get ?_
  refine Emits.bind (Q := fun _ s' => s' = { s with slots := s.slots.push ⟨ty, v⟩ }) ?_ fun _ s' _ hs => ?_
  · exact fun ho => ⟨⟨.slot hr, ho, rfl⟩, rfl⟩
  · subst hs
    have hn : (s.slots.push ⟨ty, v⟩)[s.slots.size]? = some ⟨ty, v⟩ := by simp
    exact .knownSeen (.slot isConst hn)

lemma alloc_emits (hr : C.Sees s r) : Emits G C site (alloc ty r span) s fun i s' => C.Sees s' i := by
  refine (coerce_emits ty hr).bind fun init s₁ h₁ hi => .isComptime (.ite (fun _ => ?_) fun hc => ?_)
  · exact .comptime fun v hv => newSlot_emits (hi.2 ▸ hi.1.holds hv)
  · have hc : s₁.block.isComptime = false := by simpa using hc
    refine .guard fun _ => ?_
    refine .emitThen hc rfl (by simp [InstKind.operands]) (by nofun) trivial rfl fun ptr s₂ h₂ hp => ?_
    have hi := h₂.has hi
    have hc := h₂.isComptime_eq.trans hc
    refine .emitThen hc rfl ?_ (by nofun) ⟨none, ?_⟩ rfl fun _ s₃ h₃ _ => .pure (h₃.sees hp.1)
    · simpa [InstKind.operands] using ⟨hp.1, hi.1⟩
    · rw [hp.2, hi.2]
      rfl

lemma Emits.pointee {f : Ty × Bool → Analysis β}
    (h : ∀ isConst z elem, s.block.arena.ty r = .pointer .one isConst z elem → Emits G C site (f (elem, isConst)) s R) :
    Emits G C site (Analysis.pointee r span >>= f) s R := by
  refine Emits.bind (Q := fun x s' => s' = s ∧ ∃ z, s.block.arena.ty r = .pointer .one x.2 z x.1) ?_ ?_
  · refine .tyOf ?_
    split
    · next isConst z elem ht => exact .pure ⟨rfl, z, ht⟩
    · exact .fail
  · rintro ⟨elem, isConst⟩ s' - ⟨rfl, z, ht⟩
    exact h isConst z elem ht

lemma store_emits {ptr value : Ref} (hp : C.Sees s ptr) (hv : C.Sees s value) :
    Emits G C site (store ptr value span) s fun _ _ => True := by
  refine .pointee fun isConst z elem ht => .guard fun hc => ?_
  have hc : isConst = false := by simpa using hc
  subst hc
  refine (coerce_emits elem hv).bind fun value s₁ h₁ hv => .valueOf? ?_
  have hp := h₁.has ⟨hp, ht⟩
  split
  · next n hn =>
    refine .comptime fun v hw => fun ho => ?_
    exact ⟨⟨.store (hp.2 ▸ hp.1.holds hn) (hv.2 ▸ hv.1.holds hw), ho, rfl⟩, trivial⟩
  · refine .runtime fun hr => ?_
    refine .emitThen hr rfl ?_ (by nofun) ⟨z, ?_⟩ rfl fun _ _ _ _ => .pure trivial
    · simpa [InstKind.operands] using ⟨hp.1, hv.1⟩
    · rw [hp.2, hv.2]

lemma Emits.declValue {d : DeclId} {f : TypedValue → Analysis β}
    (h : ∀ D v, s.engine.program.decl? d = some D → D.value = some v → Emits G C site (f ⟨v.ty, v.val⟩) s R) :
    Emits G C site (Analysis.declValue d span >>= f) s R := by
  refine Emits.bind (Q := fun x s' => s' = s ∧ ∃ D v, s.engine.program.decl? d = some D ∧ D.value = some v ∧
    x = ⟨v.ty, v.val⟩) ?_ ?_
  · refine .program ?_
    split
    · next v hv =>
      obtain ⟨D, hD, hv⟩ := Option.bind_eq_some_iff.1 hv
      exact .pure ⟨rfl, D, v, hD, hv, rfl⟩
    · exact .fail
  · rintro x s' - ⟨rfl, D, v, hD, hv, rfl⟩
    exact h D v hD hv

lemma Emits.loadKnown? {z : Option Int} {elem : Ty} {f : Option Value → Analysis β}
    (hr : C.Has s (.pointer .one isConst z elem) r) (hk : ∀ v, Origin s elem v → Emits G C site (f (some v)) s R)
    (hn : Emits G C site (f none) s R) : Emits G C site (Analysis.loadKnown? r span >>= f) s R := by
  refine Emits.bind (Q := fun x s' => s' = s ∧ ∀ v, x = some v → Origin s elem v) ?_ ?_
  · refine .valueOf? ?_
    split
    · next n hv =>
      refine .get (.pure ⟨rfl, fun v hw => ?_⟩)
      obtain ⟨tv, ht, rfl⟩ := Option.map_eq_some_iff.1 hw
      exact .loadSlot (hr.2 ▸ hr.1.holds hv) ht
    · next d hv =>
      refine .declValue fun D v hD hw => .pure ⟨rfl, fun x hx => ?_⟩
      dsimp only at hx
      split at hx
      · cases hx
      · next hg =>
        cases hx
        exact .loadDecl (hr.2 ▸ hr.1.holds hv) hD hw (by simpa using hg)
    · exact .pure ⟨rfl, nofun⟩
  · rintro x s' - ⟨rfl, hx⟩
    cases x with
    | none => exact hn
    | some v => exact hk v (hx v rfl)

lemma load_emits (hr : C.Sees s r) : Emits G C site (load r span) s fun i s' => C.Sees s' i := by
  refine .pointee fun isConst z elem ht => .loadKnown? ⟨hr, ht⟩ (fun v hv => .knownSeen hv) ?_
  refine .runtime fun hc => Emits.emitted hc rfl ?_ (by nofun) ⟨isConst, z, ht⟩ ?_
  · simpa [InstKind.operands] using hr
  · simp [Typed.Inst.stops, InstKind.isRead]

lemma addressOf_emits (hr : C.Sees s r) : Emits G C site (addressOf r span) s fun i s' => C.Sees s' i := by
  refine .tyOf (.valueOf? ?_)
  split
  · next v hv => exact newSlot_emits (hr.holds hv)
  · refine .runtime fun hc => Emits.emitted hc rfl ?_ (by nofun) trivial rfl
    simpa [InstKind.operands] using hr

/-! Mentions and exports. -/

structure Grounds (site : Site) (ensure : DeclId → EngineM Unit) (G : Engine → Engine → Prop) : Prop where
  mention {name span e d e'} : EngineM.mention ensure site name span e = .ok d e' → G e e'
  exports {span symbol d e e'} : EngineM.exportSymbol ensure site.scope span symbol d e = .ok () e' → G e e'

lemma engine_emits {m : EngineM α} (h : ∀ {e a e'}, m e = .ok a e' → G e e') :
    Emits G C site (engine m) s fun _ _ => True := by
  intro ho
  unfold Does Settles engine
  cases hm : m s.engine with
  | ok a e' => exact ⟨⟨.engine (h hm), ho, rfl⟩, trivial⟩
  | error i e' => trivial

section
variable {ensure : DeclId → EngineM Unit} (hG : Grounds site ensure G)
include hG

variable {name : String}

lemma mention_emits : Emits G C site (mention ensure name span) s fun _ _ => True := by
  have h : Emits G C site (engine (EngineM.mention ensure site name span)) s fun _ _ => True := engine_emits hG.mention
  exact h

lemma declVal_emits : Emits G C site (declVal ensure name span) s fun i s' => C.Sees s' i := by
  refine (mention_emits hG).bind fun d s₁ _ _ => .declValue fun D v hD hv => ?_
  dsimp only
  split
  · next isMutable _ _ hg =>
    refine .runtime fun hc => (Emits.known (.declRef _ hD hv)).bind fun ptr s₂ h₂ hp => ?_
    refine Emits.emitted (h₂.isComptime_eq.trans hc) rfl ?_ (by nofun) ⟨_, _, hp.2⟩ ?_
    · simpa [InstKind.operands] using hp.1
    · simp [Typed.Inst.stops, InstKind.isRead]
  · next hg =>
    refine .knownSeen (.decl hD hv ?_)
    cases hw : v.val with
    | global => exact absurd hw (hg _ _ _ _ _)
    | _ => rfl

lemma declRef_emits : Emits G C site (declRef ensure name span) s fun i s' => C.Sees s' i :=
  (mention_emits hG).bind fun _ _ _ _ => .declValue fun _ _ hD hv => .knownSeen (.declRef _ hD hv)

lemma exportNamed_emits {target symbol : String} :
    Emits G C site (exportNamed ensure target symbol span) s fun _ _ => True := by
  refine (mention_emits hG).bind fun d s' _ _ => ?_
  have h : Emits G C site (engine (EngineM.exportSymbol ensure site.scope span symbol d)) s' fun _ _ => True :=
    engine_emits hG.exports
  exact h

end

end Analysis

end Frontend
