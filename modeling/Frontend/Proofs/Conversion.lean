import Mathlib
import Frontend.Proofs.Inhabits
import Frontend.Proofs.Program
import Frontend.Proofs.Writing.Operand

/-! Conversion to an integer type, or to an optional of one. An operand is accepted just if the type holds whatever it
can be, which the widths decide, and its value stays the same. An optional keeps no trace of how deep it is, so that one
that holds a null is taken for null. -/

namespace Frontend

namespace IntInfo

def range (info : IntInfo) : Set Int :=
  if info.signed then Set.Ico (-(2 ^ (info.bits - 1))) (2 ^ (info.bits - 1)) else Set.Ico 0 (2 ^ info.bits)

lemma fits_iff_mem_range {info : IntInfo} {v : Int} (h : 1 ≤ info.bits) : info.fits v = true ↔ v ∈ info.range := by
  unfold fits range
  split
  · simp [Nat.ne_of_gt h]
  · simp

lemma intContains_iff {d s : IntInfo} (hd : 1 ≤ d.bits) (hs : 1 ≤ s.bits) :
    Ty.intContains d s = true ↔ s.range ⊆ d.range := by
  obtain ⟨_ | _, n⟩ := d <;> obtain ⟨_ | _, m⟩ := s <;>
    simp only [range, Ty.intContains, Bool.false_eq_true, if_true, if_false] at hd hs ⊢
  · rw [Set.Ico_subset_Ico_iff (by positivity), pow_le_pow_iff_right₀ (by decide)]
    simp
  · rw [Set.Ico_subset_Ico_iff (neg_lt_self (by positivity))]
    simp
  · rw [Set.Ico_subset_Ico_iff (by positivity), pow_le_pow_iff_right₀ (by decide)]
    simp
    omega
  · rw [Set.Ico_subset_Ico_iff (neg_lt_self (by positivity)), neg_le_neg_iff, pow_le_pow_iff_right₀ (by decide)]
    simp
    omega

end IntInfo

def Ty.integer (optional : Bool) (info : IntInfo) : Ty := if optional then .optional (.int info) else .int info

namespace Analysis

open Typed (Arena InstKind UnOp)

/-- A failure at the site: of the function whose body it is in, or else of its declaration, if the scope has one. -/
def Site.Fails (site : Site) (p p' : Program) : Prop :=
  site.scope.owner? = some site.owner →
    match site.scope.func? with
    | some f => (p'.func? f).map (·.state) = (p.func? f).map fun _ => .failed
    | none => (p'.decl? site.owner).map (·.state) = (p.decl? site.owner).map fun _ => .failed

variable {site : Site} {s s' : State} {r x : Ref} {dest src child : Ty} {S D : IntInfo} {v : Int} {span : Span}
  {α β : Type}

lemma Site.fails_fail (p : Program) (span : Span) (cause : Cause) :
    site.Fails p (p.fail site.scope span cause) := by
  intro ho
  unfold Program.fail
  rw [ho]
  cases site.scope.func? with
  | none => simp [Program.record, Program.decl?, Program.modifyDecl, Function.comp_def]
  | some f =>
    change Option.map _ (((p.modifyDecl f _).decl? f).bind Decl.func?) = _
    rw [Program.decl?_modifyDecl_self, Program.func?]
    cases p.decl? f with
    | none => rfl
    | some D => cases hv : D.value <;> simp [Decl.func?, Decl.modifyFunc, hv, Function.comp_def]

/-! Steps that are known to come to an end. -/

lemma bind_ok {m : Analysis α} {f : α → Analysis β} {a : α} (h : m site s = .ok a s') :
    (m >>= f) site s = f a site s' := by
  change EStateM.bind (m site) (fun a => f a site) s = _
  rw [EStateM.bind, h]

lemma bind_error {m : Analysis α} {f : α → Analysis β} {i : Interrupt} (h : m site s = .error i s') :
    (m >>= f) site s = .error i s' := by
  change EStateM.bind (m site) (fun a => f a site) s = _
  rw [EStateM.bind, h]

lemma tyOf_bind (f : Ty → Analysis β) : (tyOf r >>= f) site s = f (s.block.arena.ty r) site s := rfl

lemma valueOf?_bind (f : Option Value → Analysis β) :
    (valueOf? r >>= f) site s = f (s.block.arena.value? r) site s := rfl

lemma runtime_bind {f : Unit → Analysis β} (hc : s.block.isComptime = false) :
    (requireRuntime span >>= f) site s = f () site s := by
  refine bind_ok ?_
  change (if s.block.isComptime = true then fail span .notConstant else pure () : Analysis Unit) site s = _
  rw [hc]
  rfl

lemma addWith_ok (hl : s.block.arena.limit = none) (add : Typed.Block → Typed.Block) :
    addWith add site s = .ok s.block.arena.size { s with block := add s.block } := by
  unfold addWith Arena.hasRoom
  rw [hl]
  rfl

def Spent (s : State) (i : Interrupt) (s' : State) : Prop :=
  i = .outOfMemory ∧ ∃ n, s.block.arena.limit = some n ∧ n ≤ s'.block.arena.size

lemma addWith_spent {add : Typed.Block → Typed.Block} {Q : Ref → State → Prop}
    (h : Q s.block.arena.size { s with block := add s.block }) : Settles (addWith add site) s Q (Spent s) := by
  unfold Settles addWith
  by_cases hroom : s.block.arena.hasRoom = true
  · rw [if_pos hroom]
    exact h
  · rw [if_neg hroom]
    refine ⟨rfl, ?_⟩
    unfold Arena.hasRoom at hroom
    split at hroom
    · exact absurd rfl hroom
    · next n hn => exact ⟨n, hn, by simpa using hroom⟩

lemma retype_known {v : Value} (hv : s.block.arena.value? r = some v) (op : UnOp) :
    retype op dest r span site s = constant dest v span site s := by
  rw [retype, valueOf?_bind, hv]

lemma retype_unknown (hn : s.block.arena.value? r = none) (hc : s.block.isComptime = false) (op : UnOp) :
    retype op dest r span site s = emit (.unary op r) dest span site s := by
  rw [retype, valueOf?_bind, hn]
  exact runtime_bind hc

lemma coerceOr_eq (other : Ty → Analysis Ref) :
    coerceOr dest r span other site s =
      (if s.block.arena.ty r = dest then pure r
      else if Ty.reinterprets dest (s.block.arena.ty r) then retype .bitcast dest r span
      else if s.block.arena.ty r = .undefined then constant dest .undefined span
      else other (s.block.arena.ty r) : Analysis Ref) site s := rfl

lemma coerce_numeric (hd : dest.isNumeric = true) (hs : (s.block.arena.ty r).isNumeric = true) :
    coerce dest r span site s =
      (if s.block.arena.ty r = dest then pure r else coerceFlat dest (s.block.arena.ty r) r span : Analysis Ref)
        site s := by
  rw [coerce, coerceOr_eq]
  · cases dest <;> cases ht : s.block.arena.ty r <;> simp_all [Ty.isNumeric, Ty.reinterprets]
  · rintro child rfl
    cases hd

lemma isNumeric_of_integer (hs : src.isInt = true ∨ src = .comptimeInt) : src.isNumeric = true := by
  cases src <;> simp_all [Ty.isInt, Ty.isNumeric]

lemma coerce_int (hs : (s.block.arena.ty r).isInt = true ∨ s.block.arena.ty r = .comptimeInt) :
    coerce (.int D) r span site s =
      (if s.block.arena.ty r = .int D then pure r else coerceFlat (.int D) (s.block.arena.ty r) r span : Analysis Ref)
        site s := coerce_numeric rfl (isNumeric_of_integer hs)

lemma coerce_optional (hw : Ty.wraps child (s.block.arena.ty r) = true)
    (hd : s.block.arena.ty r ≠ .optional child) (hr : Ty.reinterprets (.optional child) (s.block.arena.ty r) = false)
    (hu : s.block.arena.ty r ≠ .undefined) (hn : s.block.arena.ty r ≠ .null) :
    coerce (.optional child) r span site s =
      (coerce child r span >>= fun x => retype .wrapOptional (.optional child) x span) site s := by
  rw [coerce, coerceOr_eq, if_neg hd, if_neg (by simp [hr]), if_neg hu, if_neg hn, if_pos hw]

lemma coerceFlat_converts {v : Value} (hd : dest.isNumeric = true) (hc : Ty.convertsNumber dest src = true)
    (hv : s.block.arena.value? r = some v) :
    coerceFlat dest src r span site s =
      (ofExcept span (convertNumber dest v) >>= fun w => constant dest w span : Analysis Ref) site s := by
  have hnone : Ty.arrayPointer? dest src = none := by cases dest <;> first | rfl | cases hd
  rw [coerceFlat, hnone]
  dsimp only
  rw [valueOf?_bind, hc, hv]

lemma coerceFlat_known (hs : src.isInt = true ∨ src = .comptimeInt) (hv : s.block.arena.value? r = some (.int v)) :
    coerceFlat (.int D) src r span site s =
      (if D.fits v then constant (.int D) (.int v) span
      else fail span (.unrepresentable (.int D) (.int v)) : Analysis Ref) site s := by
  have hconverts : Ty.convertsNumber (.int D) src = true := by
    cases src <;> simp_all [Ty.convertsNumber, Ty.isInt, Ty.isNumeric]
  rw [coerceFlat_converts rfl hconverts hv]
  simp only [convertNumber, convertNumber.fit, Value.isUndefined, Bool.false_eq_true, if_false]
  split_ifs <;> rfl

lemma coerceFlat_unknown (hn : s.block.arena.value? r = none) (hc : s.block.isComptime = false) :
    coerceFlat (.int D) (.int S) r span site s =
      (if Ty.intContains D S then emit (.unary .intCast r) (.int D) span
      else fail span (.mismatch (.int D) (.int S)) : Analysis Ref) site s := by
  rw [coerceFlat, show Ty.arrayPointer? (.int D) (.int S) = none from rfl]
  dsimp only
  rw [valueOf?_bind, hn]
  simp only [widen]
  split_ifs
  · exact runtime_bind hc
  · rfl

/-- The step succeeds just if `P` holds; where it does not, the analysis fails with nothing written. -/
def Decides (m : Analysis Ref) (site : Site) (s : State) (P : Prop) (Q : Ref → State → Prop) : Prop :=
  (P → ∃ x s', m site s = .ok x s' ∧ Q x s') ∧
    (¬ P → ∃ s', m site s = .error .analysisFail s' ∧ s'.block = s.block ∧
      site.Fails s.engine.program s'.engine.program)

variable {P : Prop} {Q Q' : Ref → State → Prop}

lemma decides_ite {m : Analysis Ref} {c : Bool} {add : Typed.Block → Typed.Block} {cause : Cause}
    (hm : m site s = (if c then addWith add else fail span cause : Analysis Ref) site s)
    (hl : s.block.arena.limit = none) (hP : c = true ↔ P)
    (hQ : Q s.block.arena.size { s with block := add s.block }) : Decides m site s P Q := by
  constructor
  · intro h
    rw [hm, if_pos (hP.2 h), addWith_ok hl]
    exact ⟨_, _, rfl, hQ⟩
  · intro h
    rw [hm, if_neg fun hc => h (hP.1 hc)]
    exact ⟨_, rfl, rfl, Site.fails_fail _ _ _⟩

lemma decides_same {m : Analysis Ref} (hm : m site s = .ok x s) (hP : P) (hQ : Q x s) : Decides m site s P Q :=
  ⟨fun _ => ⟨x, s, hm, hQ⟩, absurd hP⟩

lemma Decides.optional (h : Decides (coerce child r span) site s P Q) (hd : child.isNumeric = true)
    (hs : (s.block.arena.ty r).isNumeric = true)
    (hQ : ∀ x s', Q x s' → ∃ y t, retype .wrapOptional (.optional child) x span site s' = .ok y t ∧ Q' y t) :
    Decides (coerce (.optional child) r span) site s P Q' := by
  have hopen : coerce (.optional child) r span site s =
      (coerce child r span >>= fun x => retype .wrapOptional (.optional child) x span) site s := by
    apply coerce_optional <;> cases ht : s.block.arena.ty r <;>
      simp_all [Ty.isNumeric, Ty.wraps, Ty.reinterprets]
  constructor
  · intro hP
    obtain ⟨x, s', hx, hq⟩ := h.1 hP
    rw [hopen, bind_ok hx]
    exact hQ x s' hq
  · intro hP
    obtain ⟨s', hx, hblock⟩ := h.2 hP
    rw [hopen, bind_error hx]
    exact ⟨s', rfl, hblock⟩

def State.cast (s : State) (S D : IntInfo) (r : Ref) (span : Span) : Ref × State :=
  if S = D then (r, s) else (s.block.arena.size, s.add (.unary .intCast r) (.int D) span)

def State.ofInsts (insts : Array Typed.Inst) : State where
  engine := ⟨{}, {}⟩
  block := { arena := { insts } }

def State.wrap (s : State) (optional : Bool) (D : IntInfo) (r : Ref) (span : Span) : Ref × State :=
  if optional then (s.block.arena.size, s.add (.unary .wrapOptional r) (.optional (.int D)) span) else (r, s)

/-- No code was written and nothing reported, and the place holds the value, as one of the type. -/
def Known (s : State) (dest : Ty) (v : Value) (x : Ref) (s' : State) : Prop :=
  s'.engine = s.engine ∧ s'.block.insts = s.block.insts ∧ s'.block.arena.limit = s.block.arena.limit ∧
    s'.block.arena.ty x = dest ∧ s'.block.arena.value? x = some v

lemma known_addConst (s : State) (dest : Ty) (v : Value) (span : Span) :
    Known s dest v s.block.arena.size (s.addConst dest v span) := by
  have hi := Arena.inst_push_size s.block.arena ⟨.const v, dest, span⟩
  exact ⟨rfl, rfl, rfl, congrArg Typed.Inst.ty hi, congrArg Typed.Inst.value? hi⟩

lemma Known.trans {t : State} {v w : Value} {y : Ref} (h : Known s child v x s') (h' : Known s' dest w y t) :
    Known s dest w y t :=
  ⟨h'.1.trans h.1, h'.2.1.trans h.2.1, h'.2.2.1.trans h.2.2.1, h'.2.2.2⟩

lemma Known.optional {v : Value} (h : Known s child v x s') (hl : s.block.arena.limit = none) (op : UnOp) :
    ∃ y t, retype op (.optional child) x span site s' = .ok y t ∧ Known s (.optional child) v y t := by
  rw [retype_known h.2.2.2.2, constant, addWith_ok (h.2.2.1.trans hl)]
  exact ⟨_, _, rfl, h.trans (known_addConst ..)⟩

lemma coerce_int_unknown (hD : 1 ≤ D.bits) (hS : 1 ≤ S.bits) (hl : s.block.arena.limit = none)
    (ht : s.block.arena.ty r = .int S) (hn : s.block.arena.value? r = none) (hc : s.block.isComptime = false) :
    Decides (coerce (.int D) r span) site s (S.range ⊆ D.range) fun x s' => (x, s') = s.cast S D r span := by
  have hopen : coerce (.int D) r span site s = _ := coerce_int (.inl (ht ▸ rfl))
  rw [ht] at hopen
  by_cases h : S = D
  · rw [if_pos (congrArg Ty.int h)] at hopen
    exact decides_same hopen (h ▸ le_rfl) (if_pos h).symm
  · rw [if_neg fun e => h (Ty.int.inj e), coerceFlat_unknown hn hc] at hopen
    exact decides_ite hopen hl (IntInfo.intContains_iff hD hS) (if_neg h).symm

lemma coerce_int_known (hD : 1 ≤ D.bits) (hl : s.block.arena.limit = none)
    (hv : s.block.arena.value? r = some (.int v))
    (ht : s.block.arena.ty r = .comptimeInt ∨ ∃ S : IntInfo, 1 ≤ S.bits ∧ s.block.arena.ty r = .int S ∧ v ∈ S.range) :
    Decides (coerce (.int D) r span) site s (v ∈ D.range) (Known s (.int D) (.int v)) := by
  have hs : (s.block.arena.ty r).isInt = true ∨ s.block.arena.ty r = .comptimeInt := by
    obtain ht | ⟨S, -, ht, -⟩ := ht
    · exact .inr ht
    · exact .inl (ht ▸ rfl)
  have hopen : coerce (.int D) r span site s = _ := coerce_int hs
  by_cases h : s.block.arena.ty r = .int D
  · rw [if_pos h] at hopen
    have hmem : v ∈ D.range := by
      obtain ht | ⟨S, -, ht, hm⟩ := ht
      · cases ht.symm.trans h
      · exact Ty.int.inj (ht.symm.trans h) ▸ hm
    exact decides_same hopen hmem ⟨rfl, rfl, rfl, h, hv⟩
  · rw [if_neg h, coerceFlat_known hs hv] at hopen
    exact decides_ite hopen hl (IntInfo.fits_iff_mem_range hD) (known_addConst ..)

/-- An operand of an integer type is converted just if the type asked for holds all of its own, and a constant just if
it holds the constant. The one takes a cast at most, and what puts it into an optional; the other takes no code. -/
theorem coerce_integer_iff (optional : Bool) (span : Span) (hD : 1 ≤ D.bits) (hl : s.block.arena.limit = none) :
    (∀ S : IntInfo, 1 ≤ S.bits → s.block.arena.ty r = .int S → s.block.arena.value? r = none →
      s.block.isComptime = false →
      Decides (coerce (.integer optional D) r span) site s (S.range ⊆ D.range) fun x s' =>
        (x, s') = (s.cast S D r span).2.wrap optional D (s.cast S D r span).1 span) ∧
    ∀ v : Int, s.block.arena.value? r = some (.int v) →
      (s.block.arena.ty r = .comptimeInt ∨ ∃ S : IntInfo, 1 ≤ S.bits ∧ s.block.arena.ty r = .int S ∧ v ∈ S.range) →
      Decides (coerce (.integer optional D) r span) site s (v ∈ D.range) (Known s (.integer optional D) (.int v)) := by
  constructor
  · intro S hS ht hn hc
    have h : Decides (coerce (.int D) r span) site _ _ _ := coerce_int_unknown hD hS hl ht hn hc
    cases optional with
    | false => exact h
    | true =>
      refine h.optional rfl (ht ▸ rfl) fun x s' hx => ?_
      have hx₁ : x = (s.cast S D r span).1 := congrArg Prod.fst hx
      have hx₂ : s' = (s.cast S D r span).2 := congrArg Prod.snd hx
      have hn' : s'.block.arena.value? x = none := by
        rw [hx₁, hx₂, State.cast]
        split_ifs
        · exact hn
        · exact congrArg Typed.Inst.value? (Arena.inst_push_size _ _)
      have hs' : s'.block.isComptime = false ∧ s'.block.arena.limit = none := by
        rw [hx₂, State.cast]
        split_ifs <;> exact ⟨hc, hl⟩
      rw [retype_unknown hn' hs'.1, emit, addWith_ok hs'.2, hx₁, hx₂]
      exact ⟨_, _, rfl, rfl⟩
  · intro v hv ht
    have h : Decides (coerce (.int D) r span) site _ _ _ := coerce_int_known hD hl hv ht
    cases optional with
    | false => exact h
    | true =>
      have hs := isNumeric_of_integer (ht.elim .inr fun ⟨_, _, ht, _⟩ => .inl (ht ▸ rfl))
      exact h.optional rfl hs fun x s' hx => hx.optional hl _

/-- A byte becomes an optional signed number of nine bits by a cast and a wrap, and not one of eight; the constant -1
becomes the one and not a byte. -/
theorem coerce_integer_iff_byte_signed :
    let s : State := {
      engine := ⟨{}, {}⟩
      block := {
        arena := {
          insts := #[⟨.arg 0, .unsigned 8, {}⟩, ⟨.const (.int (-1)), .comptimeInt, {}⟩] } } }
    let site : Site := ⟨.declaration (.file 0) 0, 0⟩
    coerce (.optional (.signed 9)) 0 {} site s = .ok 3
        ((s.add (.unary .intCast 0) (.signed 9) {}).add (.unary .wrapOptional 2) (.optional (.signed 9)) {}) ∧
      (∃ s', coerce (.signed 8) 0 {} site s = .error .analysisFail s' ∧ s'.block = s.block) ∧
      (∃ x s', coerce (.optional (.signed 9)) 1 {} site s = .ok x s' ∧
        Known s (.optional (.signed 9)) (.int (-1)) x s') ∧
      ∃ s', coerce (.unsigned 8) 1 {} site s = .error .analysisFail s' ∧ s'.block = s.block := by
  intro s site
  have contains {D S : IntInfo} : 1 ≤ D.bits → 1 ≤ S.bits → (Ty.intContains D S = true ↔ S.range ⊆ D.range) :=
    IntInfo.intContains_iff
  have signed (optional : Bool) (n : Nat) (hn : 1 ≤ n) (r : Ref) :=
    @coerce_integer_iff site s r ⟨true, n⟩ optional {} hn rfl
  have byte := @coerce_integer_iff site s 1 ⟨false, 8⟩ false {} (by decide) rfl
  refine ⟨?_, ?_, ?_, ?_⟩
  · obtain ⟨x, s', hx, hcode⟩ := ((signed true 9 (by decide) 0).1 ⟨false, 8⟩ (by decide) rfl rfl rfl).1
      ((contains (by decide) (by decide)).1 rfl)
    obtain ⟨rfl, rfl⟩ := Prod.mk.inj hcode
    exact hx
  · obtain ⟨s', hs', hblock, -⟩ := ((signed false 8 (by decide) 0).1 ⟨false, 8⟩ (by decide) rfl rfl rfl).2
      (mt (contains (by decide) (by decide)).2 nofun)
    exact ⟨s', hs', hblock⟩
  · exact ((signed true 9 (by decide) 1).2 (-1) rfl (.inl rfl)).1 (by simp [IntInfo.range])
  · obtain ⟨s', hs', hblock, -⟩ := (byte.2 (-1) rfl (.inl rfl)).2 (by simp [IntInfo.range])
    exact ⟨s', hs', hblock⟩

/-! An operand put into an optional of its own type, against null. -/

variable {T : Ty} {n : Ref} {op : CmpOp}

lemma coerce_self (ht : s.block.arena.ty r = T) : coerce T r span site s = .ok r s := by
  unfold coerce
  split <;> rw [coerceOr_eq, if_pos ht] <;> rfl

lemma coerce_wraps (ht : s.block.arena.ty r = T) (hn : T ≠ .null) (hu : T ≠ .undefined) :
    coerce (.optional T) r span site s = retype .wrapOptional (.optional T) r span site s := by
  have hr : Ty.reinterprets (.optional T) T = false := by cases T <;> rfl
  subst ht
  rw [coerce_optional (by simp [Ty.wraps]) (fun h => by simpa using congrArg sizeOf h) hr hu hn,
    bind_ok (coerce_self rfl)]

def compareWithNull (op : CmpOp) (nullFirst : Bool) (x n : Ref) (span : Span) : Analysis Ref :=
  if nullFirst then compare op n x span else compare op x n span

lemma compareWithNull_eq (hx : s.block.arena.ty x = .optional T) (hn : s.block.arena.ty n = .null)
    (nullFirst : Bool) : compareWithNull op nullFirst x n span site s = compareNull op x span site s := by
  cases nullFirst <;> simp only [compareWithNull, Bool.false_eq_true, if_true, if_false] <;>
    rw [compare, tyOf_bind, tyOf_bind, hx, hn] <;> rfl

lemma compareNull_known {v : Value} (hop : op.isEquality = true) (hv : s.block.arena.value? x = some v) :
    compareNull op x span site s = constant .bool (.bool (v.isNull == (op == .eq))) span site s := by
  rw [compareNull, hop]
  change (valueOf? x >>= _ : Analysis Ref) site s = _
  rw [valueOf?_bind, hv]

lemma compareNull_unknown (hop : op.isEquality = true) (hv : s.block.arena.value? x = none)
    (hc : s.block.isComptime = false) :
    compareNull op x span site s =
      emit (.unary (if op = .eq then .isNull else .isNonNull) x) .bool span site s := by
  rw [compareNull, hop]
  change (valueOf? x >>= _ : Analysis Ref) site s = _
  rw [valueOf?_bind, hv]
  exact runtime_bind hc

lemma ty_push_null {a : Arena} (i : Typed.Inst) (hn : a.ty n = .null) : (a.push i).ty n = .null := by
  have hne : n ≠ a.size := by
    rintro rfl
    simp [Arena.ty, Arena.inst, Arena.size] at hn
  rw [Arena.ty, Arena.inst_push, if_neg hne]
  exact hn

/-- What is put into an optional is taken for null just if it is null itself where its value is known; where it is not,
it is put into the optional and asked about as it runs. -/
theorem compare_wrapped_null (op : CmpOp) (nullFirst : Bool) (span : Span) (site : Site)
    (hop : op.isEquality = true) (hl : s.block.arena.limit = none) (ht : s.block.arena.ty r = T) (hT : T ≠ .null)
    (hU : T ≠ .undefined) (hn : s.block.arena.ty n = .null) :
    (∀ v, s.block.arena.value? r = some v →
      ∃ x s', (coerce (.optional T) r span >>= (compareWithNull op nullFirst · n span)) site s = .ok x s' ∧
        Known s .bool (.bool (v.isNull == (op == .eq))) x s') ∧
    (s.block.arena.value? r = none → s.block.isComptime = false →
      (coerce (.optional T) r span >>= (compareWithNull op nullFirst · n span)) site s =
        .ok (s.block.arena.size + 1) ((s.add (.unary .wrapOptional r) (.optional T) span).add
          (.unary (if op = .eq then .isNull else .isNonNull) s.block.arena.size) .bool span)) := by
  constructor
  · intro v hv
    obtain ⟨-, -, hlimit, htype, hvalue⟩ := known_addConst s (.optional T) v span
    have hwrap : coerce (.optional T) r span site s = .ok s.block.arena.size (s.addConst (.optional T) v span) := by
      rw [coerce_wraps ht hT hU, retype_known hv, constant, addWith_ok hl]
      rfl
    rw [bind_ok hwrap, compareWithNull_eq htype (ty_push_null _ hn), compareNull_known hop hvalue, constant,
      addWith_ok (hlimit.trans hl)]
    exact ⟨_, _, rfl, known_addConst ..⟩
  · intro hv hc
    have hi := Arena.inst_push_size s.block.arena ⟨.unary .wrapOptional r, .optional T, span⟩
    have hwrap : coerce (.optional T) r span site s =
        .ok s.block.arena.size (s.add (.unary .wrapOptional r) (.optional T) span) := by
      rw [coerce_wraps ht hT hU, retype_unknown hv hc, emit, addWith_ok hl]
      rfl
    have htype : (s.add _ _ _).block.arena.ty s.block.arena.size = .optional T := congrArg Typed.Inst.ty hi
    have hvalue : (s.add _ _ _).block.arena.value? s.block.arena.size = none := congrArg Typed.Inst.value? hi
    rw [bind_ok hwrap, compareWithNull_eq htype (ty_push_null _ hn), compareNull_unknown hop hvalue hc, emit,
      addWith_ok (s := s.add _ _ _) hl]
    exact congrArg (EStateM.Result.ok · _) (Array.size_push _)

/-- A byte in an optional is no null in an optional of that, and an operand of the type is asked as it runs. -/
theorem compare_wrapped_null_byte :
    let s : State := {
      engine := ⟨{}, {}⟩
      block := {
        arena := {
          insts := #[⟨.const .null, .null, {}⟩, ⟨.const (.int 7), .optional (.unsigned 8), {}⟩,
            ⟨.arg 0, .optional (.unsigned 8), {}⟩] } } }
    let site : Site := ⟨.file 0, 0⟩
    let nested : Ty := .optional (.optional (.unsigned 8))
    (∃ x s', (coerce nested 1 {} >>= (compareWithNull .eq false · 0 {})) site s = .ok x s' ∧
        Known s .bool (.bool false) x s') ∧
      (coerce nested 2 {} >>= (compareWithNull .neq true · 0 {})) site s =
        .ok 4 ((s.add (.unary .wrapOptional 2) nested {}).add (.unary .isNonNull 3) .bool {}) := by
  intro s site nested
  have known := compare_wrapped_null (s := s) (r := 1) (n := 0) .eq false {} site rfl rfl rfl nofun nofun rfl
  have unknown := compare_wrapped_null (s := s) (r := 2) (n := 0) .neq true {} site rfl rfl rfl nofun nofun rfl
  exact ⟨known.1 (.int 7) rfl, unknown.2 rfl rfl⟩

/-- The optional that holds a null is taken for null. -/
theorem wrapped_null_compares_as_null :
    let s : State := {
      engine := ⟨{}, {}⟩
      block := {
        arena := {
          insts := #[⟨.const .null, .null, {}⟩, ⟨.const .null, .optional (.unsigned 8), {}⟩] } } }
    ∃ x s', (coerce (.optional (.optional (.unsigned 8))) 1 {} >>= (compareWithNull .eq false · 0 {})) ⟨.file 0, 0⟩ s =
      .ok x s' ∧ s'.block.arena.value? x = some (.bool true) := by
  exact ⟨_, _, rfl, rfl⟩

end Analysis

end Frontend
