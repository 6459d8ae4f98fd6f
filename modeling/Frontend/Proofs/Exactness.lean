import Mathlib
import Frontend.Proofs.Conversion

/-! Numbers whose values are known. A float becomes an integer just if it is one, and integers are computed with
exactly, in the common type of the operands. -/

namespace Frontend

/-- Some word of the type, read with its sign if it has one, is the integer. -/
def IntInfo.Holds (info : IntInfo) (v : Int) : Prop :=
  ∃ w : BitVec info.bits, (if info.signed then w.toInt else w.toNat) = v

lemma IntInfo.fits_iff_holds {info : IntInfo} {v : Int} : info.fits v = true ↔ info.Holds v := by
  obtain ⟨signed, n⟩ := info
  cases signed with
  | false =>
    simp only [fits, Holds, Bool.false_eq_true, if_false, Bool.and_eq_true, decide_eq_true_eq]
    constructor
    · rintro ⟨h0, hn⟩
      obtain ⟨k, rfl⟩ := Int.eq_ofNat_of_zero_le h0
      have hk : k < 2 ^ n := by exact_mod_cast hn
      exact ⟨BitVec.ofNat n k, by simp [Nat.mod_eq_of_lt hk]⟩
    · rintro ⟨w, rfl⟩
      exact ⟨Int.natCast_nonneg _, by exact_mod_cast w.isLt⟩
  | true =>
    simp only [fits, Holds, if_true]
    cases n with
    | zero =>
      rw [if_pos rfl, beq_iff_eq]
      refine ⟨fun h => ⟨0#0, h.symm⟩, ?_⟩
      rintro ⟨w, hw⟩
      exact hw ▸ BitVec.toInt_zero_length w
    | succ n =>
      simp only [Nat.succ_ne_zero, if_false, Nat.add_sub_cancel, Bool.and_eq_true, decide_eq_true_eq]
      constructor
      · rintro ⟨hlo, hhi⟩
        refine ⟨BitVec.ofInt (n + 1) v, ?_⟩
        have hp : ((2 ^ (n + 1) : Nat) : Int) = 2 * 2 ^ n := by push_cast; ring
        rw [BitVec.toInt_ofInt]
        apply Int.bmod_eq_of_le <;> omega
      · rintro ⟨w, rfl⟩
        exact ⟨w.le_toInt, w.toInt_lt⟩

def Binary64.toRat? : Binary64 → Option ℚ
  | finite negative m u => some (signed negative m u / one)
  | _ => none

namespace Binary64

variable {f : Binary64} {n : Int}

lemma one_pos : 0 < one := by unfold one; positivity

lemma natAbs_signed (negative : Bool) (m u : Nat) : (signed negative m u).natAbs = m * 2 ^ u := by
  cases negative with
  | false => exact Int.natAbs_natCast _
  | true => exact (Int.natAbs_neg _).trans (Int.natAbs_natCast _)

lemma toRat?_eq_some_intCast : f.toRat? = some (n : ℚ) ↔ f.hasFraction = false ∧ f.trunc? = some n := by
  cases f with
  | nan | infinity => simp [toRat?, trunc?]
  | finite negative m u =>
    have hone : (one : ℚ) ≠ 0 := by exact_mod_cast one_pos.ne'
    have hdvd : m * 2 ^ u % one = 0 ↔ (one : Int) ∣ signed negative m u := by
      rw [← Nat.dvd_iff_mod_eq_zero, ← natAbs_signed negative, Int.natCast_dvd]
    simp only [toRat?, hasFraction, trunc?, Option.some.injEq, bne_eq_false_iff_eq, hdvd, div_eq_iff hone]
    constructor
    · intro h
      have hn : signed negative m u = n * one := by exact_mod_cast h
      rw [hn]
      exact ⟨Dvd.intro_left n rfl, Int.mul_tdiv_cancel n (by exact_mod_cast one_pos.ne')⟩
    · rintro ⟨hd, rfl⟩
      exact_mod_cast (Int.tdiv_mul_cancel hd).symm

lemma hasFraction_eq_false_iff : f.hasFraction = false ↔ ∀ q ∈ f.toRat?, ∃ n : Int, q = n := by
  cases f with
  | nan | infinity => exact ⟨nofun, fun _ => rfl⟩
  | finite negative m u =>
    constructor
    · intro h q hq
      exact ⟨_, Option.some.inj (hq.symm.trans (toRat?_eq_some_intCast.2 ⟨h, rfl⟩))⟩
    · intro h
      obtain ⟨n, hn⟩ := h _ rfl
      have hf : (finite negative m u).toRat? = some (n : ℚ) := congrArg some hn
      exact (toRat?_eq_some_intCast.1 hf).1

end Binary64

def Ty.Holds : Ty → Int → Prop
  | .int info, v => info.Holds v
  | .comptimeInt, v => inWord v = true
  | _, _ => False

def Ty.optionalIf (optional : Bool) (t : Ty) : Ty := if optional then .optional t else t

/-- The result on integers without bound; a quotient goes toward zero, and a remainder has the dividend's sign. -/
def ArithOp.exact : ArithOp → Int → Int → Int
  | add => (· + ·)
  | sub => (· - ·)
  | mul => (· * ·)
  | div => Int.tdiv
  | rem => Int.tmod

/-- The type holds both operands and the result, which is defined and a word, as the quotient is that it is read off. -/
structure ArithOp.Folds (op : ArithOp) (ty : Ty) (a b : Int) : Prop where
  lhs : ty.Holds a
  rhs : ty.Holds b
  divisor : op = .div ∨ op = .rem → b ≠ 0
  result : ty.Holds (op.exact a b)
  word : inWord (op.exact a b) = true
  quotient : op = .rem → inWord (a.tdiv b) = true

lemma ArithOp.onInts_eq_some {op : ArithOp} {a b v : Int} :
    op.onInts a b = some v ↔ v = op.exact a b ∧ (op = .div ∨ op = .rem → b ≠ 0) ∧ inWord v = true ∧
      (op = .rem → inWord (a.tdiv b) = true) := by
  have within (x : Int) : onInts.within x = some v ↔ v = x ∧ inWord v = true := by
    unfold onInts.within
    split_ifs with h
    · rw [Option.some.injEq, eq_comm]
      exact ⟨fun hx => ⟨hx, hx ▸ h⟩, And.left⟩
    · simp only [false_iff]
      rintro ⟨rfl, hv⟩
      exact h hv
  cases op with
  | add | sub | mul => simp [onInts, within, exact]
  | div =>
    by_cases hb : b = 0 <;> simp [onInts, within, exact, hb]
  | rem =>
    by_cases hb : b = 0
    · simp [onInts, hb]
    · by_cases hq : inWord (a.tdiv b) = true <;> simp [onInts, within, exact, hb, hq]

lemma Ty.peer?_comm (t u : Ty) : Ty.peer? t u = Ty.peer? u t := by
  by_cases h : t = u
  · rw [h]
  · have h' : u ≠ t := Ne.symm h
    cases t <;> cases u <;> simp only [Ty.peer?, h, h', if_false] <;> try rfl
    · next a b =>
      obtain ⟨s, n⟩ := a
      obtain ⟨z, m⟩ := b
      have hne : ¬ (s = z ∧ n = m) := by simpa using h
      cases s <;> cases z <;> simp at hne ⊢ <;> split_ifs <;> first | rfl | omega
    · next a b => cases a <;> cases b <;> rfl

lemma Binary64.wholeBelowLimit?_eq_some {f : Binary64} {n : Int} :
    f.wholeBelowLimit? = some n ↔ f.trunc? = some n ∧ |n| < 2 ^ 127 := by
  have habs (v : Int) : v.natAbs < 2 ^ 127 ↔ |v| < 2 ^ 127 := by
    rw [← Int.natCast_natAbs]
    omega
  unfold Binary64.wholeBelowLimit?
  cases f.trunc? with
  | none => simp
  | some v =>
    simp only [habs, Option.ite_none_right_eq_some, Option.some.injEq]
    exact ⟨fun ⟨hv, he⟩ => ⟨he, he ▸ hv⟩, fun ⟨he, hv⟩ => ⟨he ▸ hv, he⟩⟩

lemma convertNumber_float {D : IntInfo} {f : Binary64} {w : Value} :
    convertNumber (.int D) (.float f) = .ok w ↔
      ∃ n : Int, f.toRat? = some (n : ℚ) ∧ |n| < 2 ^ 127 ∧ D.Holds n ∧ w = .int n := by
  simp only [Binary64.toRat?_eq_some_intCast, convertNumber, Value.isUndefined, Bool.false_eq_true, if_false]
  by_cases hf : f.hasFraction = true
  · simp [hf]
  rw [if_neg hf]
  simp only [Bool.not_eq_true] at hf
  constructor
  · intro h
    split at h
    · next n hn =>
      obtain ⟨ht, hlt⟩ := Binary64.wholeBelowLimit?_eq_some.1 hn
      unfold convertNumber.fit at h
      split_ifs at h with hfit
      exact ⟨n, ⟨hf, ht⟩, hlt, IntInfo.fits_iff_holds.1 hfit, (Except.ok.inj h).symm⟩
    · cases h
  · rintro ⟨n, ⟨-, ht⟩, hlt, hn, rfl⟩
    rw [Binary64.wholeBelowLimit?_eq_some.2 ⟨ht, hlt⟩]
    exact if_pos (IntInfo.fits_iff_holds.2 hn)

lemma hasFraction_of_convertNumber {f : Binary64} {w : Value} (h : convertNumber .comptimeInt (.float f) = .ok w) :
    f.hasFraction = false := by
  by_contra hf
  rw [Bool.not_eq_false] at hf
  simp [convertNumber, Value.isUndefined, hf] at h

lemma convertNumber_float_comptime {f : Binary64} (hf : f.hasFraction = false) :
    ∃ n, convertNumber .comptimeInt (.float f) = .ok (.int n) ∧ inWord n = true ∧
      ∀ m : Int, f.toRat? = some (m : ℚ) → n = max (-(2 ^ 127)) (min (2 ^ 127 - 1) m) := by
  simp only [convertNumber, Value.isUndefined, hf, Bool.false_eq_true, if_false]
  cases f with
  | nan => exact ⟨0, rfl, rfl, fun m hm => by cases hm⟩
  | infinity negative => exact ⟨_, rfl, by cases negative <;> rfl, fun m hm => by cases hm⟩
  | finite negative m u =>
    refine ⟨_, rfl, by simp [inWord, Binary64.saturate], fun v hv => ?_⟩
    rw [(Binary64.toRat?_eq_some_intCast.1 hv).2, Option.getD_some, Binary64.saturate]

namespace Analysis

variable {site : Site} {s : State} {r : Ref} {P P' : Prop} {Q Q' : Ref → State → Prop}

lemma Decides.imp {m : Analysis Ref} (h : Decides m site s P Q) (hP : P ↔ P') (hQ : ∀ x s', Q x s' → Q' x s') :
    Decides m site s P' Q' := by
  refine ⟨fun hp => ?_, fun hp => h.2 (mt hP.1 hp)⟩
  obtain ⟨x, s', hx, hq⟩ := h.1 (hP.2 hp)
  exact ⟨x, s', hx, hQ x s' hq⟩

lemma coerce_converts {v : Value} (dest : Ty) (span : Span) (hd : dest.isNumeric = true)
    (hs : (s.block.arena.ty r).isNumeric = true) (hc : Ty.convertsNumber dest (s.block.arena.ty r) = true)
    (hne : s.block.arena.ty r ≠ dest) (hv : s.block.arena.value? r = some v) (hl : s.block.arena.limit = none)
    (optional : Bool) :
    Decides (coerce (.optionalIf optional dest) r span) site s (∃ w, convertNumber dest v = .ok w) fun x s' =>
      ∃ w, convertNumber dest v = .ok w ∧ Known s (.optionalIf optional dest) w x s' := by
  have hopen : coerce dest r span site s =
      (ofExcept span (convertNumber dest v) >>= fun w => constant dest w span : Analysis Ref) site s := by
    rw [coerce_numeric hd hs, if_neg hne, coerceFlat_converts hd hc hv]
  have flat : Decides (coerce dest r span) site s (∃ w, convertNumber dest v = .ok w) fun x s' =>
      ∃ w, convertNumber dest v = .ok w ∧ Known s dest w x s' := by
    cases hw : convertNumber dest v with
    | ok w =>
      have hok : coerce dest r span site s = .ok s.block.arena.size (s.addConst dest w span) := by
        rw [hopen, hw]
        change constant dest w span site s = _
        exact addWith_ok hl _
      exact ⟨fun _ => ⟨_, _, hok, w, rfl, known_addConst ..⟩, fun h => absurd ⟨w, rfl⟩ h⟩
    | error cause =>
      rw [hw] at hopen
      exact ⟨nofun, fun _ => ⟨_, hopen.trans rfl, rfl, Site.fails_fail _ _ _⟩⟩
  cases optional with
  | false => exact flat
  | true =>
    refine flat.optional hd hs fun x s' ⟨w, hw, hx⟩ => ?_
    obtain ⟨y, t, hy, hk⟩ := hx.optional hl _
    exact ⟨y, t, hy, w, hw, hk⟩

/-- A compile-time float becomes a number of an integer type, or of the optional of one, just if it is such a number and
smaller than `2 ^ 127`, and it stays the same. It becomes a compile-time integer just if it has no fraction, and then
the nearest one of 128 bits. -/
theorem coerce_float_iff {f : Binary64} (optional : Bool) (span : Span) (hl : s.block.arena.limit = none)
    (ht : s.block.arena.ty r = .comptimeFloat)
    (hv : s.block.arena.value? r = some (.float f)) :
    (∀ D : IntInfo, Decides (coerce (.optionalIf optional (.int D)) r span) site s
      (∃ n : Int, f.toRat? = some (n : ℚ) ∧ |n| < 2 ^ 127 ∧ D.Holds n) fun x s' =>
        ∃ n : Int, f.toRat? = some (n : ℚ) ∧ Known s (.optionalIf optional (.int D)) (.int n) x s') ∧
    Decides (coerce (.optionalIf optional .comptimeInt) r span) site s
      (∀ q ∈ f.toRat?, ∃ n : Int, q = n) fun x s' =>
        ∃ n : Int, Known s (.optionalIf optional .comptimeInt) (.int n) x s' ∧ inWord n = true ∧
          ∀ m : Int, f.toRat? = some (m : ℚ) → n = max (-(2 ^ 127)) (min (2 ^ 127 - 1) m) := by
  have hs : (s.block.arena.ty r).isNumeric = true := ht ▸ rfl
  constructor
  · intro D
    refine (coerce_converts _ span rfl hs (ht ▸ rfl) (ht ▸ nofun) hv hl optional).imp ?_ ?_
    · simp only [convertNumber_float]
      exact ⟨fun ⟨_, n, hn, hlt, hD, _⟩ => ⟨n, hn, hlt, hD⟩, fun ⟨n, hn, hlt, hD⟩ => ⟨_, n, hn, hlt, hD, rfl⟩⟩
    · rintro x s' ⟨w, hw, hx⟩
      obtain ⟨n, hn, -, -, rfl⟩ := convertNumber_float.1 hw
      exact ⟨n, hn, hx⟩
  · refine (coerce_converts _ span rfl hs (ht ▸ rfl) (ht ▸ nofun) hv hl optional).imp ?_ ?_
    · rw [← Binary64.hasFraction_eq_false_iff]
      constructor
      · exact fun ⟨w, hw⟩ => hasFraction_of_convertNumber hw
      · intro hf
        obtain ⟨n, hn, -⟩ := convertNumber_float_comptime hf
        exact ⟨_, hn⟩
    · rintro x s' ⟨w, hw, hx⟩
      obtain ⟨n, hn, hword, hexact⟩ := convertNumber_float_comptime (hasFraction_of_convertNumber hw)
      cases hw.symm.trans hn
      exact ⟨n, hx, hword, hexact⟩

/-- The float 255 becomes an optional byte, and 256 does not; a half is no compile-time integer. -/
theorem coerce_float_iff_byte :
    let s : State := .ofInsts #[⟨.const (.float (.ofInt 255)), .comptimeFloat, {}⟩,
      ⟨.const (.float (.ofInt 256)), .comptimeFloat, {}⟩,
      ⟨.const (.float (.finite false 1 1073)), .comptimeFloat, {}⟩]
    let site : Site := ⟨.declaration (.file 0) 0, 0⟩
    (∃ x s', coerce (.optional (.unsigned 8)) 0 {} site s = .ok x s' ∧
        Known s (.optional (.unsigned 8)) (.int 255) x s') ∧
      (∃ s', coerce (.optional (.unsigned 8)) 1 {} site s = .error .analysisFail s' ∧ s'.block = s.block) ∧
      (∃ x s', coerce .comptimeInt 1 {} site s = .ok x s' ∧ Known s .comptimeInt (.int 256) x s') ∧
      ∃ s', coerce .comptimeInt 2 {} site s = .error .analysisFail s' ∧ s'.block = s.block := by
  intro s site
  have h255 : (Binary64.ofInt 255).toRat? = some ((255 : Int) : ℚ) :=
    Binary64.toRat?_eq_some_intCast.2 ⟨by decide +kernel, by decide +kernel⟩
  have h256 : (Binary64.ofInt 256).toRat? = some ((256 : Int) : ℚ) :=
    Binary64.toRat?_eq_some_intCast.2 ⟨by decide +kernel, by decide +kernel⟩
  refine ⟨?_, ?_, ?_, ?_⟩
  · obtain ⟨x, s', hx, n, hn, hknown⟩ :=
      ((@coerce_float_iff site s 0 _ true {} rfl rfl rfl).1 ⟨false, 8⟩).1
      ⟨255, h255, by decide, IntInfo.fits_iff_holds.1 rfl⟩
    obtain rfl : n = 255 := by exact_mod_cast Option.some.inj (hn.symm.trans h255)
    exact ⟨x, s', hx, hknown⟩
  · obtain ⟨s', hs', hblock, -⟩ :=
      ((@coerce_float_iff site s 1 _ true {} rfl rfl rfl).1 ⟨false, 8⟩).2 (by
        rintro ⟨n, hn, -, hfits⟩
        obtain rfl : n = 256 := by exact_mod_cast Option.some.inj (hn.symm.trans h256)
        exact absurd (IntInfo.fits_iff_holds.2 hfits) (by decide))
    exact ⟨s', hs', hblock⟩
  · obtain ⟨x, s', hx, n, hknown, -, hn⟩ := (@coerce_float_iff site s 1 _ false {} rfl rfl rfl).2.1
      fun q hq => ⟨256, Option.some.inj (hq.symm.trans h256)⟩
    obtain rfl : n = 256 := hn 256 h256
    exact ⟨x, s', hx, hknown⟩
  · obtain ⟨s', hs', hblock, -⟩ := (@coerce_float_iff site s 2 _ false {} rfl rfl rfl).2.2
      (mt Binary64.hasFraction_eq_false_iff.2 (by decide +kernel))
    exact ⟨s', hs', hblock⟩

/-- An infinite number becomes the greatest compile-time integer, and the least number of a signed type of 128 bits is
not taken for one of it. -/
theorem coerce_infinity_saturates :
    let least : Int := -(2 ^ 127)
    let s : State := .ofInsts #[⟨.const (.float (.infinity false)), .comptimeFloat, {}⟩,
      ⟨.const (.float (.ofInt least)), .comptimeFloat, {}⟩]
    let site : Site := ⟨.declaration (.file 0) 0, 0⟩
    (∃ x s', coerce .comptimeInt 0 {} site s = .ok x s' ∧ s'.block.arena.value? x = some (.int (2 ^ 127 - 1))) ∧
      (Binary64.ofInt least).toRat? = some (least : ℚ) ∧ (IntInfo.mk true 128).Holds least ∧
      ∃ s', coerce (.signed 128) 1 {} site s = .error .analysisFail s' := by
  intro least s site
  have hleast : (Binary64.ofInt least).toRat? = some (least : ℚ) :=
    Binary64.toRat?_eq_some_intCast.2 ⟨by decide +kernel, by decide +kernel⟩
  have decides := @coerce_converts site s 1 _ (.signed 128) {} rfl rfl rfl nofun rfl rfl false
  obtain ⟨s', hs', -⟩ := decides.2 (by
    rintro ⟨w, hw⟩
    obtain ⟨n, hn, hlt, -⟩ := convertNumber_float.1 hw
    obtain rfl : n = least := by exact_mod_cast Option.some.inj (hn.symm.trans hleast)
    exact absurd hlt (by decide))
  exact ⟨⟨_, _, rfl, rfl⟩, hleast, IntInfo.fits_iff_holds.1 (by decide), s', hs'⟩

end Analysis

lemma Ty.Holds.isNumeric {T : Ty} {v : Int} (h : T.Holds v) : T.isNumeric = true := by
  cases T <;> first | rfl | exact h.elim

lemma Ty.Holds.peer?_cases {A B T : Ty} {a b : Int} (ha : A.Holds a) (hb : B.Holds b) (h : Ty.peer? A B = some T) :
    (T = A ∨ T.isInt = true) ∧ (T = B ∨ T.isInt = true) := by
  cases A <;> cases B <;> simp_all [Ty.Holds, Ty.peer?, Ty.takesComptimeInt, Ty.isInt] <;> grind [Ty.isInt]

namespace Analysis
open Typed (Arena)

variable {site : Site} {s : State} {r l : Ref} {span : Span} {a b v : Int} {op : ArithOp} {T : Ty}

def FailsBare (site : Site) (s : State) (i : Interrupt) (s' : State) : Prop :=
  i = .analysisFail ∧ s'.block.insts = s.block.insts ∧ site.Fails s.engine.program s'.engine.program

lemma fail_bare {α : Type} {Q : α → State → Prop} (span : Span) (cause : Cause) :
    Settles ((fail span cause : Analysis α) site) s Q (FailsBare site s) := ⟨rfl, rfl, Site.fails_fail _ _ _⟩

lemma lt_size_of_value? {a : Arena} (h : a.value? r = some (.int v)) : r < a.size := by
  by_contra hr
  have hi : a.inst r = ⟨.const .void, .void, {}⟩ := by simp [Arena.inst, Arena.size] at hr ⊢; simp [hr]
  simp [Arena.value?, hi, Typed.Inst.value?] at h

lemma coerce_holds (span : Span) (hv : s.block.arena.value? r = some (.int v)) (hs : (s.block.arena.ty r).Holds v)
    (hT : T = s.block.arena.ty r ∨ T.isInt = true) :
    Settles (coerce T r span site) s
      (fun x s' => T.Holds v ∧ Known s T (.int v) x s' ∧ s.block.arena.Extends s'.block.arena ∧ x < s'.block.arena.size)
      fun i s' => ¬ T.Holds v ∧ FailsBare site s i s' ∨ Spent s i s' := by
  by_cases h : s.block.arena.ty r = T
  · exact .ofOk (coerce_self h) ⟨h ▸ hs, ⟨rfl, rfl, rfl, h, hv⟩, .refl _, lt_size_of_value? hv⟩
  · obtain ⟨D, rfl⟩ : ∃ D, T = .int D := by
      obtain rfl | hT := hT
      · exact absurd rfl h
      · cases T <;> first | exact ⟨_, rfl⟩ | cases hT
    have hsrc : (s.block.arena.ty r).isInt = true ∨ s.block.arena.ty r = .comptimeInt := by
      cases ht : s.block.arena.ty r <;> simp_all [Ty.Holds, Ty.isInt]
    have hopen : coerce (.int D) r span site s = _ := coerce_int hsrc
    rw [if_neg h, coerceFlat_known hsrc hv] at hopen
    rw [Settles, hopen]
    split_ifs with hfits
    · refine Settles.mono (addWith_spent ?_) (fun _ _ h => h) fun _ _ => .inr
      refine ⟨IntInfo.fits_iff_holds.1 hfits, known_addConst .., Arena.extends_push _ _, ?_⟩
      exact (Arena.size_push ..).symm ▸ Nat.lt_succ_self _
    · exact .inl ⟨mt IntInfo.fits_iff_holds.2 hfits, rfl, rfl, Site.fails_fail _ _ _⟩

lemma intFits_iff_holds (hs : T.Holds a) (hv : inWord v = true) : T.intFits v = true ↔ T.Holds v := by
  cases T with
  | int info => exact IntInfo.fits_iff_holds
  | comptimeInt => exact ⟨fun _ => hv, fun _ => rfl⟩
  | _ => exact hs.elim

lemma foldArith_eq_ok {w : Value} (ha : T.Holds a) (hb : T.Holds b) :
    foldArith op T (.int a) (.int b) = .ok w ↔ op.Folds T a b ∧ w = .int (op.exact a b) := by
  simp only [foldArith, Value.isUndefined, Bool.or_self, Bool.false_eq_true, if_false]
  constructor
  · intro h
    split at h
    · next v hv =>
      split_ifs at h with hfit
      obtain ⟨rfl, hdiv, hword, hquot⟩ := ArithOp.onInts_eq_some.1 hv
      exact ⟨⟨ha, hb, hdiv, (intFits_iff_holds ha hword).1 hfit, hword, hquot⟩, (Except.ok.inj h).symm⟩
    · cases h
  · rintro ⟨h, rfl⟩
    rw [ArithOp.onInts_eq_some.2 ⟨rfl, h.divisor, h.word, h.quotient⟩]
    exact if_pos ((intFits_iff_holds ha h.word).2 h.result)

lemma arith_opens (op : ArithOp) (span : Span) (site : Site) (hl : (s.block.arena.ty l).isNumeric = true)
    (hr : (s.block.arena.ty r).isNumeric = true) : ∃ k : Ty → Ref → Ref → Analysis Ref,
      arith op l r span site s = (do
        let ty ← peerType (s.block.arena.ty l) (s.block.arena.ty r) span
        let x ← coerce ty l span
        let y ← coerce ty r span
        k ty x y) site s ∧
      ∀ {ty x y t a b}, t.block.arena.value? x = some (.int a) → t.block.arena.value? y = some (.int b) →
        k ty x y site t =
          (if (op = .div ∨ op = .rem) ∧ b = 0 then fail span .divisionByZero
          else do constant ty (← ofExcept span (foldArith op ty (.int a) (.int b))) span : Analysis Ref) site t := by
  have operand {t : Ty} (h : t.isNumeric = true) : t.isArithOperand = true := by
    cases t <;> first | rfl | cases h
  unfold arith
  rw [tyOf_bind, tyOf_bind]
  dsimp only
  rw [if_neg (by simp [operand hl, operand hr])]
  refine ⟨_, rfl, fun {ty x y t a b} hx hy => ?_⟩
  have hzero : (Value.int b).order? = some .eq ↔ b = 0 := by simp [Value.order?]
  rw [valueOf?_bind, valueOf?_bind, hx, hy]
  dsimp only
  rw [Option.bind_some]
  by_cases h : (op = .div ∨ op = .rem) ∧ b = 0
  · rw [if_pos h, if_pos (by simpa [hzero] using h)]
    rfl
  · rw [if_neg h, if_neg (by simpa [hzero] using h)]

lemma FailsBare.of_known {t u : State} {w : Value} {i : Interrupt} (h : FailsBare site t i u) (hk : Known s T w r t) :
    FailsBare site s i u := by
  obtain ⟨he, hi, -⟩ := hk
  rwa [FailsBare, he, hi] at h

lemma Spent.of_known {t u : State} {w : Value} {i : Interrupt} (h : Spent t i u) (hk : Known s T w r t) :
    Spent s i u := by
  rwa [Spent, hk.2.2.1] at h

lemma arith_in_peer (op : ArithOp) (span : Span) (ha : s.block.arena.value? l = some (.int a))
    (hA : (s.block.arena.ty l).Holds a) (hb : s.block.arena.value? r = some (.int b))
    (hB : (s.block.arena.ty r).Holds b) (hT : Ty.peer? (s.block.arena.ty l) (s.block.arena.ty r) = some T) :
    Settles (arith op l r span site) s (fun x s' => op.Folds T a b ∧ Known s T (.int (op.exact a b)) x s')
      fun i s' => ¬ op.Folds T a b ∧ FailsBare site s i s' ∨ Spent s i s' := by
  obtain ⟨k, hopen, hk⟩ := arith_opens op span site hA.isNumeric hB.isNumeric
  rw [peerType, hT] at hopen
  obtain ⟨hTA, hTB⟩ := hA.peer?_cases hB hT
  change _ = (coerce T l span >>= _ : Analysis Ref) site s at hopen
  refine .ofEq hopen (.bind ((coerce_holds span ha hA hTA).mono
    (fun _ _ h => h) fun _ _ h => h.imp_left fun h => ⟨fun hf => h.1 hf.lhs, h.2⟩) ?_)
  rintro x s₁ ⟨hTa, hx, hext, hlt⟩
  have hr := lt_size_of_value? hb
  rw [← hext.value?_eq hr] at hb
  rw [← hext.ty_eq hr] at hB hTB
  refine .bind ((coerce_holds span hb hB hTB).mono (fun _ _ h => h) fun _ _ h => h.imp
    (fun h => ⟨fun hf => h.1 hf.rhs, h.2.of_known hx⟩) (·.of_known hx)) ?_
  rintro y s₂ ⟨hTb, hy, hext', -⟩
  have hxv : s₂.block.arena.value? x = some (.int a) := (hext'.value?_eq hlt).trans hx.2.2.2.2
  have hknown := hx.trans hy
  refine .ofEq (hk hxv hy.2.2.2.2) ?_
  have fails (cause : Cause) (hf : ¬ op.Folds T a b) : Settles ((fail span cause : Analysis Ref) site) s₂
      (fun x s' => op.Folds T a b ∧ Known s T (.int (op.exact a b)) x s')
      fun i s' => ¬ op.Folds T a b ∧ FailsBare site s i s' ∨ Spent s i s' :=
    (fail_bare (Q := fun _ _ => False) span cause).mono (fun _ _ h => h.elim) fun _ _ h => .inl ⟨hf, h.of_known hknown⟩
  split_ifs with hzero
  · exact fails _ fun hf => hf.divisor hzero.1 hzero.2
  · cases hw : foldArith op T (.int a) (.int b) with
    | error cause => exact fails cause fun hf => by cases hw.symm.trans ((foldArith_eq_ok hTa hTb).2 ⟨hf, rfl⟩)
    | ok w =>
      obtain ⟨hf, rfl⟩ := (foldArith_eq_ok hTa hTb).1 hw
      exact Settles.mono (m := constant T _ span site) (addWith_spent ⟨hf, hknown.trans (known_addConst ..)⟩)
        (fun _ _ h => h) fun _ _ h => .inr (h.of_known hknown)

/-- Known integers are computed with exactly. Unless there is no more room for it, there is a result just if the
operands have a common type that holds them and the result of integers without bound; it is a constant, and no code is
written. Which operand comes first makes no difference to the common type. -/
theorem arith_integers_iff (op : ArithOp) (span : Span) (ha : s.block.arena.value? l = some (.int a))
    (hA : (s.block.arena.ty l).Holds a) (hb : s.block.arena.value? r = some (.int b))
    (hB : (s.block.arena.ty r).Holds b) :
    Settles (arith op l r span site) s
      (fun x s' => ∃ T, Ty.peer? (s.block.arena.ty l) (s.block.arena.ty r) = some T ∧ op.Folds T a b ∧
        Known s T (.int (op.exact a b)) x s')
      (fun i s' => (¬ ∃ T, Ty.peer? (s.block.arena.ty l) (s.block.arena.ty r) = some T ∧ op.Folds T a b) ∧
        FailsBare site s i s' ∨ Spent s i s') ∧
    Ty.peer? (s.block.arena.ty l) (s.block.arena.ty r) = Ty.peer? (s.block.arena.ty r) (s.block.arena.ty l) := by
  refine ⟨?_, Ty.peer?_comm _ _⟩
  cases hT : Ty.peer? (s.block.arena.ty l) (s.block.arena.ty r) with
  | some T =>
    refine (arith_in_peer op span ha hA hb hB hT).mono (fun x s' h => ⟨T, rfl, h⟩) fun i s' h => h.imp_left fun h =>
      ⟨?_, h.2⟩
    rintro ⟨_, ⟨⟩, hf⟩
    exact h.1 hf
  | none =>
    obtain ⟨k, hopen, -⟩ := arith_opens op span site hA.isNumeric hB.isNumeric
    rw [peerType, hT] at hopen
    rw [Settles, hopen]
    refine .inl ⟨?_, rfl, rfl, Site.fails_fail _ _ _⟩
    rintro ⟨_, ⟨⟩, -⟩

/-- Bytes are added up to 255, a quotient goes toward zero, and the remainder of the least word by -1 is refused. -/
theorem arith_integers_iff_byte :
    let s : State := .ofInsts #[⟨.const (.int 200), .unsigned 8, {}⟩, ⟨.const (.int 55), .comptimeInt, {}⟩,
      ⟨.const (.int 56), .comptimeInt, {}⟩, ⟨.const (.int (-7)), .signed 8, {}⟩, ⟨.const (.int 2), .unsigned 4, {}⟩,
      ⟨.const (.int (-(2 ^ 127))), .comptimeInt, {}⟩, ⟨.const (.int (-1)), .comptimeInt, {}⟩]
    let site : Site := ⟨.declaration (.file 0) 0, 0⟩
    (∃ x s', arith .add 0 1 {} site s = .ok x s' ∧ Known s (.unsigned 8) (.int 255) x s') ∧
      (∃ i s', arith .add 0 2 {} site s = .error i s' ∧ FailsBare site s i s') ∧
      (∃ x s', arith .div 3 4 {} site s = .ok x s' ∧ Known s (.signed 8) (.int (-3)) x s') ∧
      ∃ i s', arith .rem 5 6 {} site s = .error i s' ∧ FailsBare site s i s' := by
  intro s site
  have fits {info : IntInfo} {v : Int} : info.fits v = true → info.Holds v := IntInfo.fits_iff_holds.1
  have byte : Ty.Holds (.unsigned 8) 200 := fits rfl
  have roomy {i : Interrupt} {s' : State} : ¬ Spent s i s' := fun ⟨_, _, h, _⟩ => nomatch h
  refine ⟨?_, ?_, ?_, ?_⟩
  · obtain ⟨x, s', hx, T, hT, -, hk⟩ :=
      (@arith_integers_iff site s 1 0 _ _ .add {} rfl byte rfl
      (rfl : inWord 55 = true)).1.exists_ok fun i s' h =>
        h.elim (fun h => h.1 ⟨.unsigned 8, rfl, byte, fits rfl, nofun, fits rfl, rfl, nofun⟩) roomy
    cases hT
    exact ⟨x, s', hx, hk⟩
  · obtain ⟨i, s', hi, h⟩ := (@arith_integers_iff site s 2 0 _ _ .add {} rfl byte rfl
      (rfl : inWord 56 = true)).1.exists_error fun x s' ⟨T, hT, hfolds, _⟩ => by
        cases hT
        exact absurd (IntInfo.fits_iff_holds.2 hfolds.result) (by decide)
    exact ⟨i, s', hi, (h.resolve_right roomy).2⟩
  · obtain ⟨x, s', hx, T, hT, -, hk⟩ :=
      (@arith_integers_iff site s 4 3 _ _ .div {} rfl (fits rfl)
      rfl (fits rfl)).1.exists_ok fun i s' h =>
        h.elim (fun h => h.1 ⟨.signed 8, rfl, fits rfl, fits rfl, fun _ => by decide, fits rfl, rfl, nofun⟩) roomy
    cases hT
    exact ⟨x, s', hx, hk⟩
  · obtain ⟨i, s', hi, h⟩ := (@arith_integers_iff site s 6 5 _ _ .rem {} rfl
      (rfl : inWord _ = true) rfl (rfl : inWord _ = true)).1.exists_error fun x s' ⟨T, _, hfolds, _⟩ =>
        absurd (hfolds.quotient rfl) (by decide)
    exact ⟨i, s', hi, (h.resolve_right roomy).2⟩

end Analysis

end Frontend
