import Frontend.Proofs.Comparison

/-! Widths of integers, found with words of 128 bits. Each step on words that may overflow is one that can fail; none of
those taken here does, and what they come to is what is said of integers without bound. -/

namespace Frontend

abbrev Word128 := BitVec 128

namespace Word128

def shiftLeft? (x : Word128) (k : Nat) : Option Word128 := if k < 128 then some (x <<< k) else none

def shiftRight? (x : Word128) (k : Nat) : Option Word128 := if k < 128 then some (x >>> k) else none

def negate? (x : Word128) : Option Word128 := if x.negOverflow then none else some (-x)

def sub? (x y : Word128) : Option Word128 := if x.ssubOverflow y then none else some (x - y)

def fits? (v : Word128) (info : IntInfo) : Option Bool :=
  if info.signed then
    if info.bits = 0 then some (v == 0#128)
    else if 128 ≤ info.bits then some true
    else do
      let least ← negate? (← shiftLeft? 1#128 (info.bits - 1))
      let greatest ← sub? (← shiftLeft? 1#128 (info.bits - 1)) 1#128
      return least.sle v && v.sle greatest
  else if v.slt 0#128 then some false
  else if 127 ≤ info.bits then some true
  else do return (← shiftRight? v info.bits) == 0#128

def bitCount (v : Word128) : Nat :=
  if v.slt 0#128 then
    if (-v).toNat.isPowerOfTwo then 128 - (-v).clz.toNat else 128 - (-v).clz.toNat + 1
  else 128 - v.clz.toNat

variable {v : Word128}

lemma slt_zero_iff : v.slt 0#128 = true ↔ v.toInt < 0 := by simp [BitVec.slt_iff_toInt_lt]

lemma toNat_of_nonneg (h : ¬ v.toInt < 0) : (v.toNat : Int) = v.toInt := by
  have := v.isLt
  rw [BitVec.toInt_eq_toNat_cond] at h ⊢
  split at h
  · next hv => rw [if_pos hv]
  · omega

lemma toNat_neg_of_neg (h : v.toInt < 0) : ((-v).toNat : Int) = -v.toInt := by
  have hv := v.isLt
  rw [BitVec.toInt_eq_toNat_cond] at h ⊢
  rw [BitVec.toNat_neg]
  split at h
  · omega
  · next hn =>
    rw [if_neg hn]
    omega

lemma fits_unsigned_iff {n : Nat} (h : ¬ v.toInt < 0) :
    (⟨false, n⟩ : IntInfo).fits v.toInt = true ↔ v.toNat < 2 ^ n := by
  rw [IntInfo.fits_unsigned, ← toNat_of_nonneg h]
  norm_cast
  simp

lemma lt_two_pow_iff (x : Word128) (k : Nat) : x.toNat < 2 ^ k ↔ 128 - x.clz.toNat ≤ k := by
  constructor
  · intro h
    by_cases hx : x = 0
    · have hz : x.clz = ((128 : Nat) : Word128) := BitVec.clz_eq_iff_eq_zero.2 hx
      simp [hz]
    · have hle := BitVec.two_pow_sub_clz_le_toNat_of_ne_zero (by decide : 0 < 128) hx
      have := (Nat.pow_lt_pow_iff_right (by decide : 1 < 2)).1 (hle.trans_lt h)
      omega
  · exact fun h => BitVec.toNat_lt_two_pow_sub_clz.trans_le (Nat.pow_le_pow_right (by decide) h)

lemma bitCount_eq (v : Word128) : v.bitCount = Frontend.bitCount v.toInt := by
  refine (bitCount_eq_of_fits fun k => ?_).symm
  unfold bitCount
  by_cases hv : v.toInt < 0
  · rw [if_pos (slt_zero_iff.2 hv), decide_eq_true hv, IntInfo.fits_signed]
    have hmag := toNat_neg_of_neg hv
    generalize -v = x at hmag ⊢
    have hpos : (0 : Int) < 2 ^ (k - 1) := Int.pow_pos (by decide)
    have hle : -(2 ^ (k - 1)) ≤ v.toInt ↔ x.toNat ≤ 2 ^ (k - 1) := by
      rw [← Int.ofNat_le, hmag]
      push_cast
      omega
    have hbits := lt_two_pow_iff x
    have hrange : ((k = 0 ∧ v.toInt = 0) ∨ (0 < k ∧ -(2 ^ (k - 1)) ≤ v.toInt ∧ v.toInt < 2 ^ (k - 1))) ↔
        0 < k ∧ x.toNat ≤ 2 ^ (k - 1) := by
      rw [hle]
      omega
    rw [hrange]
    split
    · next hp =>
      obtain ⟨j, hj⟩ := hp
      have hlt (n : Nat) : j < n ↔ 128 - x.clz.toNat ≤ n := by
        rw [← hbits, hj, Nat.pow_lt_pow_iff_right (by decide)]
      rw [hj, Nat.pow_le_pow_iff_right (by decide), ← hlt]
      omega
    · next hp =>
      have hne : x.toNat ≠ 2 ^ (k - 1) := fun h => hp ⟨_, h⟩
      have h0 := hbits 0
      rw [hne.le_iff_lt, hbits]
      omega
  · rw [if_neg (by rwa [slt_zero_iff]), decide_eq_false hv, fits_unsigned_iff hv, lt_two_pow_iff]

lemma signedBounds {k : Nat} (hk : k < 127) :
    ∃ x, shiftLeft? 1#128 k = some x ∧ negate? x = some (-x) ∧ sub? x 1#128 = some (x - 1#128) ∧
      (-x).toInt = -(2 ^ k) ∧ (x - 1#128).toInt = 2 ^ k - 1 := by
  have hx : (1#128 <<< k).toInt = 2 ^ k := by
    rw [BitVec.shiftLeft_eq_mul_twoPow, BitVec.one_mul, BitVec.toInt_twoPow, if_neg (by omega), if_neg (by omega)]
  have hpos : (0 : Int) < 2 ^ k := Int.pow_pos (by decide)
  have hneg : ¬ (1#128 <<< k).negOverflow := by
    simp only [BitVec.negOverflow, hx, beq_iff_eq]
    omega
  have hsub : ¬ (1#128 <<< k).ssubOverflow 1#128 := by
    have := BitVec.toInt_lt (x := (1#128 <<< k))
    simp only [BitVec.ssubOverflow, hx, show (1#128).toInt = 1 from by decide] at this ⊢
    simp
    omega
  refine ⟨_, if_pos (by omega), if_neg hneg, if_neg hsub, ?_, ?_⟩
  · rw [BitVec.toInt_neg_of_not_negOverflow hneg, hx]
  · rw [BitVec.toInt_sub_of_not_ssubOverflow hsub, hx]
    rfl

lemma fits?_signed (v : Word128) (n : Nat) : v.fits? ⟨true, n⟩ = some ((⟨true, n⟩ : IntInfo).fits v.toInt) := by
  by_cases h0 : n = 0
  · simp [fits?, IntInfo.fits, h0, BitVec.toInt_inj.symm, beq_eq_decide]
  by_cases h128 : 128 ≤ n
  · have hlo := BitVec.le_toInt v
    have hhi := BitVec.toInt_lt (x := v)
    have hmono : (2 : Int) ^ 127 ≤ 2 ^ (n - 1) := by
      exact_mod_cast Nat.pow_le_pow_right (by decide) (by omega)
    have hfits : (⟨true, n⟩ : IntInfo).fits v.toInt = true := by
      rw [IntInfo.fits_signed]
      simp only [show 128 - 1 = 127 from rfl] at hlo hhi
      omega
    simp [fits?, h0, h128, hfits]
  · obtain ⟨x, hshift, hneg, hsub, hlo, hhi⟩ := signedBounds (k := n - 1) (by omega)
    have hle : (v.toInt ≤ 2 ^ (n - 1) - 1) ↔ v.toInt < 2 ^ (n - 1) := by omega
    simp [fits?, IntInfo.fits, h0, h128, hshift, hneg, hsub, BitVec.sle, hlo, hhi, hle]

lemma fits?_unsigned (v : Word128) (n : Nat) : v.fits? ⟨false, n⟩ = some ((⟨false, n⟩ : IntInfo).fits v.toInt) := by
  by_cases hv : v.toInt < 0
  · have hnot : ¬ 0 ≤ v.toInt := by omega
    simp [fits?, IntInfo.fits, slt_zero_iff.2 hv, hnot]
  have hslt : v.slt 0#128 = false := by simpa [← slt_zero_iff] using hv
  have hrange : (⟨false, n⟩ : IntInfo).fits v.toInt = decide (v.toNat < 2 ^ n) := by
    rw [Bool.eq_iff_iff, fits_unsigned_iff hv, decide_eq_true_iff]
  by_cases h127 : 127 ≤ n
  · have hlt : v.toNat < 2 ^ n := by
      have hhi := BitVec.toInt_lt (x := v)
      rw [← toNat_of_nonneg hv] at hhi
      exact lt_of_lt_of_le (by exact_mod_cast hhi) (Nat.pow_le_pow_right (by decide) h127)
    simp [fits?, hslt, h127, hrange, hlt]
  · have hshift : (v >>> n = 0#128) ↔ v.toNat < 2 ^ n := by
      rw [← BitVec.toNat_inj, BitVec.toNat_ushiftRight, Nat.shiftRight_eq_div_pow]
      simp [Nat.div_eq_zero_iff]
    simp [fits?, shiftRight?, hslt, h127, hrange, show n < 128 by omega, beq_eq_decide, hshift]

/-- Widths are exact and least: words of 128 bits tell what a width holds without a step that overflows, what it holds
is its range, and the width counted for a number is the least that holds it. -/
theorem width_exact_and_least (v : Word128) (n : Nat) :
    (∀ signed, v.fits? ⟨signed, n⟩ = some ((⟨signed, n⟩ : IntInfo).fits v.toInt)) ∧
      ((⟨true, n⟩ : IntInfo).fits v.toInt = true ↔
        if n = 0 then v.toInt = 0 else -(2 ^ (n - 1)) ≤ v.toInt ∧ v.toInt < 2 ^ (n - 1)) ∧
      ((⟨false, n⟩ : IntInfo).fits v.toInt = true ↔ 0 ≤ v.toInt ∧ v.toInt < 2 ^ n) ∧
      v.bitCount = Frontend.bitCount v.toInt ∧
      IsLeast { k | (⟨decide (v.toInt < 0), k⟩ : IntInfo).fits v.toInt = true } (Frontend.bitCount v.toInt) := by
  refine ⟨fun signed => ?_, ?_, IntInfo.fits_unsigned, bitCount_eq v, ?_, ?_⟩
  · cases signed with
    | false => exact fits?_unsigned v n
    | true => exact fits?_signed v n
  · rw [IntInfo.fits_signed]
    split <;> simp [*, Nat.pos_iff_ne_zero]
  · exact IntInfo.fits_iff_bitCount_le.2 le_rfl
  · exact fun k hk => IntInfo.fits_iff_bitCount_le.1 hk

end Word128
end Frontend
