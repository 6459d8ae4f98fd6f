import Mathlib
import Frontend.Proofs.Conversion

/-! Integers are compared exactly. Two operands of which one is not known are brought to one integer type that holds
whatever either of them can be, so that the words that code compares are the numbers themselves. A comparison fails only
where no such type is narrow enough. -/

namespace Frontend

namespace IntInfo

/-- The word that a number leaves in the type: its lowest bits, read with a sign if the type has one. -/
def wrap (info : IntInfo) (v : Int) : Int :=
  if info.signed then v.bmod (2 ^ info.bits) else v % 2 ^ info.bits

variable {v : Int} {n : Nat}

lemma wrap_of_fits {info : IntInfo} (h : info.fits v = true) : info.wrap v = v := by
  obtain ⟨signed, bits⟩ := info
  cases signed with
  | false =>
    simp only [fits, Bool.false_eq_true, if_false, Bool.and_eq_true, decide_eq_true_eq] at h
    exact Int.emod_eq_of_lt h.1 h.2
  | true =>
    simp only [fits, if_true] at h
    simp only [wrap, if_true]
    cases bits with
    | zero =>
      have hv : v = 0 := by simpa using h
      simp [hv]
    | succ n =>
      rw [if_neg n.succ_ne_zero] at h
      simp only [Nat.add_sub_cancel, Bool.and_eq_true, decide_eq_true_eq] at h
      have hp : ((2 ^ (n + 1) : Nat) : Int) = 2 * 2 ^ n := by push_cast; ring
      apply Int.bmod_eq_of_le <;> omega

lemma fits_unsigned : (⟨false, n⟩ : IntInfo).fits v = true ↔ 0 ≤ v ∧ v < 2 ^ n := by
  simp [fits]

lemma fits_signed :
    (⟨true, n⟩ : IntInfo).fits v = true ↔ (n = 0 ∧ v = 0) ∨ (0 < n ∧ -(2 ^ (n - 1)) ≤ v ∧ v < 2 ^ (n - 1)) := by
  by_cases hn : n = 0
  · simp [fits, hn]
  · simp [fits, hn, Nat.pos_of_ne_zero hn]

lemma fits_iff_bitCount_le : (⟨decide (v < 0), n⟩ : IntInfo).fits v = true ↔ bitCount v ≤ n := by
  have cast_lt (a k : Nat) : (a : Int) < 2 ^ k ↔ a < 2 ^ k := by exact_mod_cast Iff.rfl
  match v with
  | .ofNat 0 => simp [fits, bitCount]
  | .ofNat (a + 1) =>
    have hlt : ¬ Int.ofNat (a + 1) < 0 := by simp; omega
    rw [decide_eq_false hlt, fits_unsigned, Int.ofNat_eq_natCast, cast_lt, ← Nat.log2_lt (by omega)]
    simp only [bitCount]
    constructor
    · exact fun h => h.2
    · exact fun h => ⟨Int.natCast_nonneg _, h⟩
  | .negSucc a =>
    have hlt : Int.negSucc a < 0 := Int.negSucc_lt_zero a
    have hpos (k : Nat) : (0 : Int) < 2 ^ k := Int.pow_pos (by decide)
    rw [decide_eq_true hlt, fits_signed]
    have hrange : (-(2 ^ (n - 1)) ≤ Int.negSucc a ∧ Int.negSucc a < 2 ^ (n - 1)) ↔ a < 2 ^ (n - 1) := by
      have := hpos (n - 1)
      rw [← cast_lt]
      omega
    rw [hrange]
    unfold bitCount
    dsimp only
    split
    · subst a
      have : 0 < 2 ^ (n - 1) := Nat.pow_pos (by decide)
      simp only [this, and_true, hlt.ne, and_false, false_or]
      omega
    · next ha =>
      rw [← Nat.log2_lt ha]
      omega

end IntInfo

lemma bitCount_eq_of_fits {n : Nat} {v : Int}
    (h : ∀ k, (⟨decide (v < 0), k⟩ : IntInfo).fits v = true ↔ n ≤ k) : bitCount v = n :=
  Nat.le_antisymm (IntInfo.fits_iff_bitCount_le.1 ((h n).2 le_rfl))
    ((h _).1 (IntInfo.fits_iff_bitCount_le.2 le_rfl))

lemma bitCount_greatest (n : Nat) : bitCount (2 ^ n - 1) = n := by
  have hpos (k : Nat) : (0 : Int) < 2 ^ k := Int.pow_pos (by decide)
  have hlt : ¬ ((2 : Int) ^ n - 1 < 0) := by have := hpos n; omega
  refine bitCount_eq_of_fits fun k => ?_
  rw [decide_eq_false hlt, IntInfo.fits_unsigned]
  have hmono : (2 : Int) ^ n ≤ 2 ^ k ↔ n ≤ k := by
    have := Nat.pow_le_pow_iff_right (a := 2) (n := n) (m := k) (by decide)
    exact_mod_cast this
  rw [← hmono]
  omega

lemma bitCount_least (n : Nat) : bitCount (-(2 ^ n)) = n + 1 := by
  have hpos (k : Nat) : (0 : Int) < 2 ^ k := Int.pow_pos (by decide)
  have hlt : -(2 : Int) ^ n < 0 := by have := hpos n; omega
  refine bitCount_eq_of_fits fun k => ?_
  rw [decide_eq_true hlt, IntInfo.fits_signed]
  have hmono : (2 : Int) ^ n ≤ 2 ^ (k - 1) ↔ n ≤ k - 1 := by
    have := Nat.pow_le_pow_iff_right (a := 2) (n := n) (m := k - 1) (by decide)
    exact_mod_cast this
  have := hpos (k - 1)
  constructor
  · rintro (⟨-, h⟩ | ⟨hk, h, -⟩)
    · omega
    · have := hmono.1 (by omega)
      omega
  · intro h
    have := hmono.2 (by omega)
    exact .inr (by omega)

namespace BitNeed

lemma intContains_join_left (a b : BitNeed) : Ty.intContains (a.join b) ⟨a.signed, a.bits⟩ = true := by
  obtain ⟨n, s⟩ := a
  obtain ⟨m, t⟩ := b
  cases s <;> cases t <;> simp [join, Ty.intContains]

lemma join_comm (a b : BitNeed) : a.join b = b.join a := by
  simp only [join, Bool.or_comm a.signed, max_comm (ite _ (a.bits + 1) _)]

lemma bits_join_le {a b : BitNeed} {n : Nat} (hn : 1 ≤ n)
    (ha : (if (a.signed || b.signed) && !a.signed then a.bits + 1 else a.bits) ≤ n)
    (hb : (if (a.signed || b.signed) && !b.signed then b.bits + 1 else b.bits) ≤ n) : (a.join b).bits ≤ n := by
  simp only [join]
  omega

end BitNeed

namespace Typed.Arena

variable {a a' : Arena} {r lhs rhs : Ref} {v : Int}

/-- The integers that a place can hold: a constant its own, an instruction all of its type. -/
def Takes (a : Arena) (r : Ref) (v : Int) : Prop :=
  match a.value? r with
  | some c => c = .int v
  | none => ∃ info, a.ty r = .int info ∧ info.fits v = true

def IsInteger (a : Arena) (r : Ref) : Prop :=
  match a.value? r with
  | some c => ∃ v, c = .int v ∧ ((∃ info, a.ty r = .int info ∧ info.fits v = true) ∨
      (a.ty r = .comptimeInt ∧ inWord v = true))
  | none => ∃ info, a.ty r = .int info

def isSigned (a : Arena) (r : Ref) : Bool :=
  match a.value? r with
  | some c => c.asInt?.any (· < 0)
  | none => (a.ty r).isSignedInt

def Suits (a : Arena) (lhs rhs : Ref) (info : IntInfo) : Prop :=
  info.signed = (a.isSigned lhs || a.isSigned rhs) ∧ ∀ v, a.Takes lhs v ∨ a.Takes rhs v → info.fits v = true

def need (a : Arena) (r : Ref) : BitNeed :=
  match (a.value? r).bind Value.asInt? with
  | some v => ⟨bitCount v, v < 0⟩
  | none =>
    match (a.ty r).intInfo? with
    | some info => ⟨info.bits, info.signed⟩
    | none => ⟨0, false⟩

lemma IsInteger.cases (h : a.IsInteger r) :
    (∃ info, a.value? r = none ∧ a.ty r = .int info) ∨
      ∃ v, a.value? r = some (.int v) ∧ ((∃ info, a.ty r = .int info ∧ info.fits v = true) ∨
        (a.ty r = .comptimeInt ∧ inWord v = true)) := by
  unfold IsInteger at h
  split at h
  · next c hc =>
    obtain ⟨v, rfl, hv⟩ := h
    exact .inr ⟨v, hc, hv⟩
  · next hn =>
    obtain ⟨info, hi⟩ := h
    exact .inl ⟨info, hn, hi⟩

lemma IsInteger.ty_cases (h : a.IsInteger r) : (a.ty r).isInt = true ∨ a.ty r = .comptimeInt := by
  obtain ⟨info, -, ht⟩ | ⟨v, -, ⟨info, ht, -⟩ | ⟨ht, -⟩⟩ := h.cases <;> simp [ht, Ty.isInt]

lemma IsInteger.lt (h : a.IsInteger r) : r < a.size := by
  by_contra hr
  have hi : a.inst r = ⟨.const .void, .void, {}⟩ := by simp [inst, size] at hr ⊢; simp [hr]
  obtain ⟨info, hn, -⟩ | ⟨v, hv, -⟩ := h.cases
  · simp [value?, hi, Inst.value?] at hn
  · simp [value?, hi, Inst.value?] at hv

lemma IsInteger.isSigned_eq (h : a.IsInteger r) : a.isSigned r = (a.need r).signed := by
  obtain ⟨info, hn, ht⟩ | ⟨v, hv, -⟩ := h.cases
  · simp [isSigned, need, hn, ht, Ty.isSignedInt, Ty.intInfo?]
  · simp [isSigned, need, hv, Value.asInt?]

lemma IsInteger.fits_need (h : a.IsInteger r) (ht : a.Takes r v) :
    (⟨(a.need r).signed, (a.need r).bits⟩ : IntInfo).fits v = true := by
  obtain ⟨info, hn, hi⟩ | ⟨w, hw, -⟩ := h.cases
  · simp only [Takes, hn, hi] at ht
    obtain ⟨_, hinfo, hf⟩ := ht
    cases hinfo
    simpa [need, hn, hi, Ty.intInfo?] using hf
  · simp only [Takes, hw, Value.int.injEq] at ht
    subst ht
    simpa [need, hw, Value.asInt?] using IntInfo.fits_iff_bitCount_le.2 (le_refl (bitCount w))

lemma IsInteger.exists_bitCount_eq (h : a.IsInteger r) (h0 : (a.need r).bits ≠ 0) :
    ∃ v, a.Takes r v ∧ decide (v < 0) = (a.need r).signed ∧ bitCount v = (a.need r).bits := by
  have hpos (k : Nat) : (0 : Int) < 2 ^ k := Int.pow_pos (by decide)
  obtain ⟨⟨signed, n⟩, hn, hi⟩ | ⟨v, hv, -⟩ := h.cases
  · have hneed : a.need r = ⟨n, signed⟩ := by simp [need, hn, hi, Ty.intInfo?]
    rw [hneed] at h0 ⊢
    change n ≠ 0 at h0
    simp only [Takes, hn, hi, Ty.int.injEq, exists_eq_left']
    cases signed with
    | false =>
      have := hpos n
      exact ⟨2 ^ n - 1, IntInfo.fits_unsigned.2 (by omega), by simp; omega, bitCount_greatest n⟩
    | true =>
      have := hpos (n - 1)
      refine ⟨-(2 ^ (n - 1)), IntInfo.fits_signed.2 (.inr ⟨by omega, by omega, by omega⟩), by simp [this], ?_⟩
      rw [bitCount_least]
      exact Nat.sub_add_cancel (Nat.pos_of_ne_zero h0)
  · exact ⟨v, by simp [Takes, hv], by simp [need, hv, Value.asInt?], by simp [need, hv, Value.asInt?]⟩

lemma suits_join (hl : a.IsInteger lhs) (hr : a.IsInteger rhs) : a.Suits lhs rhs ((a.need lhs).join (a.need rhs)) := by
  refine ⟨by rw [hl.isSigned_eq, hr.isSigned_eq]; rfl, fun v hv => ?_⟩
  obtain hv | hv := hv
  · exact Ty.fits_of_intContains (BitNeed.intContains_join_left ..) (hl.fits_need hv)
  · rw [BitNeed.join_comm]
    exact Ty.fits_of_intContains (BitNeed.intContains_join_left ..) (hr.fits_need hv)

variable {info : IntInfo}

lemma IsInteger.width_le (h : a.IsInteger r) (hs : (a.need r).signed = true → info.signed = true)
    (hf : ∀ v, a.Takes r v → info.fits v = true) :
    (if info.signed && !(a.need r).signed then (a.need r).bits + 1 else (a.need r).bits) ≤ max info.bits 1 := by
  by_cases h0 : (a.need r).bits = 0
  · split <;> omega
  obtain ⟨v, hv, hneg, hbits⟩ := h.exists_bitCount_eq h0
  have hfv := hf v hv
  obtain ⟨signed, n⟩ := info
  rw [← hbits]
  by_cases hsame : signed = (a.need r).signed
  · subst hsame
    rw [← hneg] at hfv
    have := IntInfo.fits_iff_bitCount_le.1 hfv
    simp only [Bool.and_not_self, Bool.false_eq_true, if_false]
    omega
  · -- An unsigned operand of a signed type has a bit less than the type.
    have hu : (a.need r).signed = false := by
      cases hns : (a.need r).signed with
      | false => rfl
      | true => exact absurd ((hs hns).trans hns.symm) hsame
    have hsig : signed = true := by simpa [hu] using hsame
    subst hsig
    rw [hu] at hneg
    have hb : bitCount v ≤ n - 1 := by
      rw [← IntInfo.fits_iff_bitCount_le, hneg, IntInfo.fits_unsigned]
      have hnn : ¬ v < 0 := by simpa using hneg
      obtain ⟨-, rfl⟩ | ⟨-, -, hlt⟩ := IntInfo.fits_signed.1 hfv
      · exact ⟨Int.le_refl 0, Int.pow_pos (by decide)⟩
      · omega
    simp only [hu, Bool.not_false, Bool.and_true, if_true]
    omega

lemma join_bits_le (hl : a.IsInteger lhs) (hr : a.IsInteger rhs) (h : a.Suits lhs rhs info) :
    ((a.need lhs).join (a.need rhs)).bits ≤ max info.bits 1 := by
  have hs := h.1
  rw [hl.isSigned_eq, hr.isSigned_eq] at hs
  apply BitNeed.bits_join_le (le_max_right ..) <;> rw [← hs]
  · exact hl.width_le (fun hx => by rw [hs, hx]; rfl) fun v hv => h.2 v (.inl hv)
  · exact hr.width_le (fun hx => by rw [hs, hx, Bool.or_true]) fun v hv => h.2 v (.inr hv)

/-! Running the code of a comparison. -/

inductive Held where
  | int (v : Int)
  | bool (b : Bool)

def read (a : Arena) (run : Ref → Option Held) (r : Ref) : Option Held :=
  match a.value? r with
  | some (.int v) => some (.int v)
  | some (.bool b) => some (.bool b)
  | some _ => none
  | none => run r

/-- The result of a cast, which keeps the bits that its type has, or of a comparison of two words of one type. -/
def result? (a : Arena) (run : Ref → Option Held) (i : Inst) : Option Held :=
  match i.kind with
  | .unary .intCast x =>
    match a.read run x, i.ty with
    | some (.int v), .int info => some (.int (info.wrap v))
    | _, _ => none
  | .binary (.cmp op) x y =>
    match a.read run x, a.read run y, a.ty x with
    | some (.int v), some (.int w), .int info =>
      if a.ty y = .int info then some (.bool (op.holds (compare (info.wrap v) (info.wrap w)))) else none
    | _, _, _ => none
  | _ => none

def exec (a : Arena) : List Ref → (Ref → Option Held) → Option (Ref → Option Held)
  | [], run => some run
  | r :: code, run => (a.result? run (a.inst r)).bind fun h => a.exec code fun x => if x = r then some h else run x

lemma exec_append {run : Ref → Option Held} (code code' : List Ref) :
    a.exec (code ++ code') run = (a.exec code run).bind (a.exec code') := by
  induction code generalizing run with
  | nil => rfl
  | cons r code ih =>
    simp only [List.cons_append, exec, Option.bind_assoc]
    exact congrArg _ (funext fun h => ih)

def Carries (a : Arena) (run : Ref → Option Held) (r : Ref) (v : Int) : Prop :=
  a.Takes r v ∧ a.read run r = some (.int v)

variable {run run' : Ref → Option Held}

lemma Extends.takes_iff (h : a.Extends a') (hr : r < a.size) : a'.Takes r v ↔ a.Takes r v := by
  unfold Takes
  rw [h.value?_eq hr, h.ty_eq hr]

lemma Extends.isInteger_iff (h : a.Extends a') (hr : r < a.size) : a'.IsInteger r ↔ a.IsInteger r := by
  unfold IsInteger
  rw [h.value?_eq hr, h.ty_eq hr]

lemma Extends.read_eq (h : a.Extends a') (hr : r < a.size) (hrun : run' r = run r) : a'.read run' r = a.read run r := by
  unfold read
  rw [h.value?_eq hr, hrun]

end Typed.Arena

namespace Analysis

open Typed (Arena InstKind)

variable {site : Site} {s s' : State} {r x lhs rhs : Ref} {T : IntInfo} {span : Span} {op : CmpOp}

inductive Casts (s : State) (T : IntInfo) (r : Ref) (span : Span) : Ref → State → Prop where
  | same (ht : s.block.arena.ty r = .int T) : Casts s T r span r s
  | known (v : Int) (hv : s.block.arena.value? r = some (.int v)) :
    Casts s T r span s.block.arena.size (s.addConst (.int T) (.int v) span)
  | cast (hn : s.block.arena.value? r = none) :
    Casts s T r span s.block.arena.size (s.add (.unary .intCast r) (.int T) span)

lemma coerce_casts (hi : s.block.arena.IsInteger r) (hf : ∀ v, s.block.arena.Takes r v → T.fits v = true)
    (hw : ∀ info, s.block.arena.value? r = none → s.block.arena.ty r = .int info → Ty.intContains T info = true)
    (hc : s.block.isComptime = false) :
    Settles (coerce (.int T) r span site) s (fun x s' => Casts s T r span x s') (Spent s) := by
  unfold Settles
  rw [coerce_int hi.ty_cases]
  split_ifs with heq
  · exact .same heq
  · obtain ⟨info, hn, ht⟩ | ⟨v, hv, -⟩ := hi.cases
    · rw [ht, coerceFlat_unknown hn hc, if_pos (hw info hn ht)]
      exact addWith_spent (.cast hn)
    · rw [coerceFlat_known hi.ty_cases hv, if_pos (hf v (by simp [Arena.Takes, hv]))]
      exact addWith_spent (.known v hv)

namespace Casts

variable (h : Casts s T r span x s')
include h

lemma arena_extends : s.block.arena.Extends s'.block.arena := by
  cases h with
  | same => exact .refl _
  | known | cast => exact Arena.extends_push _ _

lemma limit_eq : s'.block.arena.limit = s.block.arena.limit := by
  cases h <;> rfl

lemma isComptime_eq : s'.block.isComptime = s.block.isComptime := by
  cases h <;> rfl

lemma ty_eq : s'.block.arena.ty x = .int T := by
  cases h with
  | same ht => exact ht
  | known | cast => exact congrArg Typed.Inst.ty (Arena.inst_push_size _ _)

lemma lt (hr : r < s.block.arena.size) : x < s'.block.arena.size := by
  cases h with
  | same => exact hr
  | known | cast => exact (Arena.size_push ..).symm ▸ Nat.lt_succ_self _

lemma run (hr : r < s.block.arena.size) (hf : ∀ v, s.block.arena.Takes r v → T.fits v = true) :
    ∃ code, s'.block.insts = s.block.insts ++ code ∧ ∀ a, s'.block.arena.Extends a → ∀ run v,
      s.block.arena.Carries run r v → ∃ run', a.exec code run = some run' ∧ a.read run' x = some (.int v) ∧
        ∀ y < s.block.arena.size, run' y = run y := by
  have hext := h.arena_extends
  have hlt := h.lt hr
  cases h with
  | same ht =>
    refine ⟨[], (List.append_nil _).symm, fun a ha run v hv => ⟨run, rfl, ?_, fun _ _ => rfl⟩⟩
    rw [ha.read_eq hr rfl]
    exact hv.2
  | known w hw =>
    refine ⟨[], (List.append_nil _).symm, fun a ha run v hv => ⟨run, rfl, ?_, fun _ _ => rfl⟩⟩
    have hvw : w = v := by simpa [Arena.Takes, hw] using hv.1
    have hinst : a.inst s.block.arena.size = ⟨.const (.int w), .int T, span⟩ :=
      (ha.inst_eq hlt).trans (Arena.inst_push_size _ _)
    simp [Arena.read, Arena.value?, hinst, Typed.Inst.value?, hvw]
  | cast hn =>
    refine ⟨[s.block.arena.size], rfl, fun a ha run v hv => ?_⟩
    have hinst : a.inst s.block.arena.size = ⟨.unary .intCast r, .int T, span⟩ :=
      (ha.inst_eq hlt).trans (Arena.inst_push_size _ _)
    have hread : a.read run r = some (.int v) := ((hext.trans ha).read_eq hr rfl).trans hv.2
    refine ⟨fun y => if y = s.block.arena.size then some (.int v) else run y, ?_, ?_, fun y hy => if_neg hy.ne⟩
    · simp [Arena.exec, Arena.result?, hinst, hread, IntInfo.wrap_of_fits (hf v hv.1)]
    · simp [Arena.read, Arena.value?, hinst, Typed.Inst.value?]

end Casts

/-- The comparison was written in a suitable type, and code that runs finds the numbers themselves there. -/
def Compared (s : State) (op : CmpOp) (lhs rhs c : Ref) (s' : State) : Prop :=
  ∃ (T : IntInfo) (l r : Ref) (code : List Ref), s.block.arena.Suits lhs rhs T ∧ T.bits ≤ maxIntBits ∧
    (s'.block.arena.inst c).kind = .binary (.cmp op) l r ∧
    s'.block.arena.ty l = .int T ∧ s'.block.arena.ty r = .int T ∧ s'.block.insts = s.block.insts ++ code ∧
    ∀ run v w, s.block.arena.Carries run lhs v → s.block.arena.Carries run rhs w →
      ∃ run', s'.block.arena.exec code run = some run' ∧ s'.block.arena.read run' l = some (.int v) ∧
        s'.block.arena.read run' r = some (.int w) ∧ run' c = some (.bool (op.holds (Ord.compare v w)))

lemma compared_of_casts {s₁ s₂ : State} {l : Ref} (hl : s.block.arena.IsInteger lhs)
    (hr : s.block.arena.IsInteger rhs) (hT : s.block.arena.Suits lhs rhs T) (hbits : T.bits ≤ maxIntBits)
    (h₁ : Casts s T lhs span l s₁) (h₂ : Casts s₁ T rhs span r s₂) :
    Compared s op lhs rhs s₂.block.arena.size (s₂.add (.binary (.cmp op) l r) .bool span) := by
  have hext₁ := h₁.arena_extends
  have hext₂ := h₂.arena_extends
  have hext := Arena.extends_push s₂.block.arena ⟨.binary (.cmp op) l r, .bool, span⟩
  have hl₁ := h₁.lt hl.lt
  have hr₁ : rhs < s₁.block.arena.size := hr.lt.trans_le hext₁.size_le
  have hr₂ := h₂.lt hr₁
  have hl₂ : l < s₂.block.arena.size := hl₁.trans_le hext₂.size_le
  have hty : (s₂.block.arena.push ⟨.binary (.cmp op) l r, .bool, span⟩).ty l = .int T :=
    (hext.ty_eq hl₂).trans ((hext₂.ty_eq hl₁).trans h₁.ty_eq)
  have htyr : (s₂.block.arena.push ⟨.binary (.cmp op) l r, .bool, span⟩).ty r = .int T :=
    (hext.ty_eq hr₂).trans h₂.ty_eq
  obtain ⟨code₁, hcode₁, hrun₁⟩ := h₁.run hl.lt fun v hv => hT.2 v (.inl hv)
  obtain ⟨code₂, hcode₂, hrun₂⟩ := h₂.run hr₁ fun v hv => hT.2 v (.inr ((hext₁.takes_iff hr.lt).1 hv))
  refine ⟨T, l, r, code₁ ++ code₂ ++ [s₂.block.arena.size], hT, hbits,
    congrArg Typed.Inst.kind (Arena.inst_push_size _ _), hty, htyr, ?_, fun run v w hv hw => ?_⟩
  · change s₂.block.insts ++ [s₂.block.arena.size] = _
    rw [hcode₂, hcode₁]
    simp only [List.append_assoc]
  · -- The right operand is cast after the left one, and finds what it was given; the left result stays.
    obtain ⟨run₁, hx₁, hread₁, hkeep₁⟩ := hrun₁ _ (hext₂.trans hext) run v hv
    have hw₁ : s₁.block.arena.Carries run₁ rhs w :=
      ⟨(hext₁.takes_iff hr.lt).2 hw.1, (hext₁.read_eq hr.lt (hkeep₁ rhs hr.lt)).trans hw.2⟩
    obtain ⟨run₂, hx₂, hread₂, hkeep₂⟩ := hrun₂ _ hext run₁ w hw₁
    have hreadl := (Arena.Extends.read_eq (.refl _) (hl₂.trans_le hext.size_le) (hkeep₂ l hl₁)).trans hread₁
    have hwrapv := IntInfo.wrap_of_fits (hT.2 v (.inl hv.1))
    have hwrapw := IntInfo.wrap_of_fits (hT.2 w (.inr hw.1))
    have hkeep (y : Ref) (hy : y < s₂.block.arena.size) (b : Bool) : (fun x => if x = s₂.block.arena.size then
        some (Arena.Held.bool b) else run₂ x) y = run₂ y := if_neg hy.ne
    refine ⟨fun x => if x = s₂.block.arena.size then some (.bool (op.holds (Ord.compare v w))) else run₂ x, ?_, ?_, ?_,
      if_pos rfl⟩
    · change Arena.exec (s₂.block.arena.push _) _ run = _
      rw [Arena.exec_append, Arena.exec_append, hx₁, Option.bind_some, hx₂, Option.bind_some]
      simp [Arena.exec, Arena.result?, hreadl, hread₂, hty, htyr, hwrapv, hwrapw]
    · exact (Arena.Extends.read_eq (.refl _) (hl₂.trans_le hext.size_le) (hkeep l hl₂ _)).trans hreadl
    · exact (Arena.Extends.read_eq (.refl _) (hr₂.trans_le hext.size_le) (hkeep r hr₂ _)).trans hread₂

lemma compareAs_settles (hl : s.block.arena.IsInteger lhs) (hr : s.block.arena.IsInteger rhs)
    (hc : s.block.isComptime = false)
    (hbits : ((s.block.arena.need lhs).join (s.block.arena.need rhs)).bits ≤ maxIntBits) :
    Settles (compareAs op (.int ((s.block.arena.need lhs).join (s.block.arena.need rhs))) lhs rhs span site) s
      (Compared s op lhs rhs) (Spent s) := by
  have hT := Arena.suits_join hl hr
  have need_eq {r : Ref} {info : IntInfo} (hn : s.block.arena.value? r = none) (ht : s.block.arena.ty r = .int info) :
      s.block.arena.need r = ⟨info.bits, info.signed⟩ := by simp [Arena.need, hn, ht, Ty.intInfo?]
  refine Settles.bind (coerce_casts hl (fun v hv => hT.2 v (.inl hv)) (fun info hn ht => ?_) hc) fun l s₁ h₁ => ?_
  · have := BitNeed.intContains_join_left (s.block.arena.need lhs) (s.block.arena.need rhs)
    rwa [need_eq hn ht] at this ⊢
  have hext := h₁.arena_extends
  have hc₁ : s₁.block.isComptime = false := h₁.isComptime_eq.trans hc
  refine Settles.bind (Settles.mono (coerce_casts ((hext.isInteger_iff hr.lt).2 hr)
    (fun v hv => hT.2 v (.inr ((hext.takes_iff hr.lt).1 hv))) (fun info hn ht => ?_) hc₁) (fun _ _ h => h)
    fun i s' hspent => ?_) fun r s₂ h₂ => ?_
  · rw [hext.value?_eq hr.lt] at hn
    rw [hext.ty_eq hr.lt] at ht
    have := BitNeed.intContains_join_left (s.block.arena.need rhs) (s.block.arena.need lhs)
    rw [BitNeed.join_comm] at this
    rwa [need_eq hn ht] at this ⊢
  · rwa [Spent, h₁.limit_eq] at hspent
  · change Settles ((requireRuntime span >>= fun _ => emit (.binary (.cmp op) l r) .bool span) site) s₂ _ _
    rw [Settles, runtime_bind (h₂.isComptime_eq.trans hc₁)]
    refine Settles.mono (addWith_spent (compared_of_casts hl hr hT hbits h₁ h₂)) (fun _ _ h => h) fun i s' hspent => ?_
    rwa [Spent, h₂.limit_eq, h₁.limit_eq] at hspent

lemma bitNeed_eq (r : Ref) : bitNeed r site s = .ok (s.block.arena.need r) s := by
  unfold bitNeed Arena.need
  rw [valueOf?_bind]
  cases (s.block.arena.value? r).bind Value.asInt? with
  | some v => rfl
  | none =>
    dsimp only
    rw [tyOf_bind]
    cases (s.block.arena.ty r).intInfo? <;> rfl

lemma compareNumeric_eq (hl : s.block.arena.IsInteger lhs) (hr : s.block.arena.IsInteger rhs)
    (hk : s.block.arena.value? lhs = none ∨ s.block.arena.value? rhs = none) :
    compareNumeric op lhs rhs span site s =
      (if maxIntBits < ((s.block.arena.need lhs).join (s.block.arena.need rhs)).bits then
        fail span (.tooManyBits ((s.block.arena.need lhs).join (s.block.arena.need rhs)).bits)
      else compareAs op (.int ((s.block.arena.need lhs).join (s.block.arena.need rhs))) lhs rhs span : Analysis Ref)
        site s := by
  have hints : compareNumeric op lhs rhs span site s = compareInts op lhs rhs span site s := by
    obtain ⟨_, hnl, htl⟩ | ⟨v, hvl, ⟨_, htl, -⟩ | ⟨htl, -⟩⟩ := hl.cases <;>
    obtain ⟨_, hnr, htr⟩ | ⟨w, hvr, ⟨_, htr, -⟩ | ⟨htr, -⟩⟩ := hr.cases <;>
    simp_all [compareNumeric, compareScalars, tyOf_bind, valueOf?_bind, Ty.floatWidth?]
  rw [hints]
  exact (bind_ok (bitNeed_eq lhs)).trans ((bind_ok (bitNeed_eq rhs)).trans (by split_ifs <;> rfl))

/-- Integers are compared exactly. Where the operands are brought to no common type, there is none that is narrow
enough; and a limit on the arena is the only other thing that ends a comparison early. -/
theorem compareNumeric_exact (op : CmpOp) (span : Span) (site : Site) (hl : s.block.arena.IsInteger lhs)
    (hr : s.block.arena.IsInteger rhs) (hk : s.block.arena.value? lhs = none ∨ s.block.arena.value? rhs = none)
    (hc : s.block.isComptime = false) :
    ((∃ s', compareNumeric op lhs rhs span site s = .error .analysisFail s') ↔
      ¬ ∃ T, s.block.arena.Suits lhs rhs T ∧ T.bits ≤ maxIntBits) ∧
    Settles (compareNumeric op lhs rhs span site) s (Compared s op lhs rhs) fun i s' =>
      i = .analysisFail ∨ Spent s i s' := by
  rw [Settles, compareNumeric_eq hl hr hk]
  split_ifs with hwide
  · refine ⟨⟨?_, fun _ => ⟨_, rfl⟩⟩, .inl rfl⟩
    rintro - ⟨T, hT, hbits⟩
    have hle := Arena.join_bits_le hl hr hT
    have : 1 ≤ maxIntBits := by decide
    omega
  · have hsettles : Settles (compareAs op _ lhs rhs span site) s _ _ :=
      compareAs_settles hl hr hc (Nat.le_of_not_lt hwide)
    refine ⟨⟨?_, fun hno => ?_⟩, Settles.mono hsettles (fun _ _ h => h) fun _ _ => .inr⟩
    · rintro ⟨s', hs'⟩
      rw [Settles, hs'] at hsettles
      cases hsettles.1
    · exact absurd ⟨_, Arena.suits_join hl hr, Nat.le_of_not_lt hwide⟩ hno

/-- A byte against a negative constant, which are compared as signed words of nine bits; and a word of the greatest
width against one with a sign, for which there is no type. -/
theorem compareNumeric_exact_byte_negative :
    let s : State := {
      engine := ⟨{}, {}⟩
      block := {
        arena := {
          insts := #[⟨.arg 0, .unsigned 8, {}⟩, ⟨.const (.int (-1)), .comptimeInt, {}⟩,
            ⟨.arg 1, .unsigned 65535, {}⟩, ⟨.arg 2, .signed 8, {}⟩] } } }
    let site : Site := ⟨.file 0, 0⟩
    s.block.arena.IsInteger 0 ∧ s.block.arena.IsInteger 1 ∧ s.block.arena.value? 0 = none ∧
      s.block.isComptime = false ∧ (s.block.arena.need 0).join (s.block.arena.need 1) = ⟨true, 9⟩ ∧
      Settles (compareNumeric .lt 0 1 {} site) s (Compared s .lt 0 1) (fun i s' => i = .analysisFail ∨ Spent s i s') ∧
      ¬ ∃ T, s.block.arena.Suits 2 3 T ∧ T.bits ≤ maxIntBits := by
  intro s site
  have h0 : s.block.arena.IsInteger 0 := ⟨_, rfl⟩
  have h1 : s.block.arena.IsInteger 1 := ⟨_, rfl, .inr ⟨rfl, by decide⟩⟩
  have h2 : s.block.arena.IsInteger 2 := ⟨_, rfl⟩
  have h3 : s.block.arena.IsInteger 3 := ⟨_, rfl⟩
  refine ⟨h0, h1, rfl, rfl, by decide, (compareNumeric_exact .lt {} site h0 h1 (.inl rfl) rfl).2, ?_⟩
  refine (compareNumeric_exact .lt {} site h2 h3 (.inl rfl) rfl).1.1 ?_
  rw [compareNumeric_eq h2 h3 (.inl rfl), if_pos (by decide)]
  exact ⟨_, rfl⟩

end Analysis

end Frontend
