import Mathlib
import Frontend.Proofs.Conversion

/-! Pointers that are converted one time after another. However long the chain, constness stays once it is there, and a
sentinel that is asked for was there from the start: on the pointer, or on the array whose elements it came to point
at. -/

namespace Frontend

structure Pointer where
  size : PtrSize
  isConst : Bool
  sentinel : Option Int
  child : Ty

namespace Pointer

variable {p q w : Pointer} {k m n : Nat} {dest : Ty}

def ty (p : Pointer) : Ty := .pointer p.size p.isConst p.sentinel p.child

def within (p : Pointer) : Nat → Ty
  | 0 => p.ty
  | n + 1 => .optional (p.within n)

structure Reads (p q : Pointer) : Prop where
  size : q.size = p.size
  child : q.child = p.child
  const : p.isConst = true → q.isConst = true
  sentinel : ∀ z, q.sentinel = some z → p.sentinel = some z

structure Decays (p q : Pointer) : Prop where
  single : p.size = .one
  several : q.size ≠ .one
  const : p.isConst = true → q.isConst = true
  elements : ∃ len found, p.child = .array len found q.child ∧ ∀ z, q.sentinel = some z → found = some z

/-- What a pointer inside `m` optionals can become. None of them is taken off again, below two the pointer is the same,
and an array is left only by a pointer that is in none. -/
def Becomes (p : Pointer) (m : Nat) (q : Pointer) (n : Nat) : Prop :=
  m ≤ n ∧ (p = q ∨ m ≤ 1 ∧ p.Reads q ∨ m = 0 ∧ p.Decays q)

lemma within_inj (h : p.within m = q.within n) : p = q ∧ m = n := by
  induction m generalizing n with
  | zero =>
    cases n with
    | zero =>
      obtain ⟨⟩ := p
      obtain ⟨⟩ := q
      exact ⟨by simpa [within, ty] using h, rfl⟩
    | succ n => cases h
  | succ m ih =>
    cases n with
    | zero => cases h
    | succ n =>
      obtain ⟨hp, hm⟩ := ih (Ty.optional.inj h)
      exact ⟨hp, congrArg _ hm⟩

lemma Reads.trans (h : p.Reads q) (h' : q.Reads w) : p.Reads w where
  size := h'.size.trans h.size
  child := h'.child.trans h.child
  const := h'.const ∘ h.const
  sentinel z hz := h.sentinel z (h'.sentinel z hz)

lemma Reads.trans_decays (h : p.Reads q) (h' : q.Decays w) : p.Decays w where
  single := h.size.symm.trans h'.single
  several := h'.several
  const := h'.const ∘ h.const
  elements := h.child ▸ h'.elements

lemma Decays.trans_reads (h : p.Decays q) (h' : q.Reads w) : p.Decays w where
  single := h.single
  several := h'.size ▸ h.several
  const := h'.const ∘ h.const
  elements := by
    obtain ⟨len, found, hchild, hfound⟩ := h.elements
    exact ⟨len, found, h'.child ▸ hchild, fun z hz => hfound z (h'.sentinel z hz)⟩

lemma Becomes.trans (h : p.Becomes m q k) (h' : q.Becomes k w n) : p.Becomes m w n := by
  obtain ⟨hk, h⟩ := h
  obtain ⟨hn, h'⟩ := h'
  refine ⟨hk.trans hn, ?_⟩
  rcases h with rfl | ⟨hm, hread⟩ | ⟨rfl, hdecay⟩
  · rcases h' with rfl | ⟨hm, hread⟩ | ⟨rfl, hdecay⟩
    · exact .inl rfl
    · exact .inr (.inl ⟨hk.trans hm, hread⟩)
    · exact .inr (.inr ⟨Nat.le_zero.1 hk, hdecay⟩)
  · rcases h' with rfl | ⟨-, hread'⟩ | ⟨rfl, hdecay⟩
    · exact .inr (.inl ⟨hm, hread⟩)
    · exact .inr (.inl ⟨hm, hread.trans hread'⟩)
    · exact .inr (.inr ⟨Nat.le_zero.1 hk, hread.trans_decays hdecay⟩)
  · rcases h' with rfl | ⟨-, hread⟩ | ⟨-, hdecay'⟩
    · exact .inr (.inr ⟨rfl, hdecay⟩)
    · exact .inr (.inr ⟨rfl, hdecay.trans_reads hread⟩)
    · exact absurd hdecay'.single hdecay.several

/-! What the tests on two types say of pointers. -/

lemma sentinelMet_iff {wanted found : Option Int} :
    Ty.sentinelMet wanted found = true ↔ ∀ z, wanted = some z → found = some z := by
  cases wanted <;> simp [Ty.sentinelMet]

lemma constMet_iff {wanted found : Bool} : (wanted || !found) = true ↔ (found = true → wanted = true) := by
  revert wanted found
  decide

lemma reinterprets_ty_iff : Ty.reinterprets q.ty p.ty = true ↔ p.Reads q := by
  simp only [ty, Ty.reinterprets, Bool.and_eq_true, decide_eq_true_eq, sentinelMet_iff, constMet_iff]
  constructor
  · rintro ⟨⟨⟨hsize, hchild⟩, hconst⟩, hz⟩
    exact ⟨hsize, hchild, hconst, hz⟩
  · rintro ⟨hsize, hchild, hconst, hz⟩
    exact ⟨⟨⟨hsize, hchild⟩, hconst⟩, hz⟩

lemma reinterprets_within (hm : m ≤ 1) : Ty.reinterprets (q.within m) (p.within m) = Ty.reinterprets q.ty p.ty := by
  obtain rfl | rfl : m = 0 ∨ m = 1 := by omega
  · rfl
  · rfl

lemma reads_of_reinterprets (h : Ty.reinterprets dest (p.within m) = true) :
    m ≤ 1 ∧ ∃ q : Pointer, dest = q.within m ∧ p.Reads q := by
  have hdest : m ≤ 1 ∧ ∃ q : Pointer, dest = q.within m := by
    unfold Ty.reinterprets at h
    split at h
    · next size isConst sentinel child _ _ _ _ hp =>
      cases m with
      | zero => exact ⟨Nat.zero_le 1, ⟨size, isConst, sentinel, child⟩, rfl⟩
      | succ m => cases hp
    · next size isConst sentinel child _ _ _ _ hp =>
      match m with
      | 0 => cases hp
      | 1 => exact ⟨le_rfl, ⟨size, isConst, sentinel, child⟩, rfl⟩
      | m + 2 => cases hp
    · cases h
  obtain ⟨hm, q, rfl⟩ := hdest
  exact ⟨hm, q, rfl, reinterprets_ty_iff.1 (reinterprets_within hm ▸ h)⟩

lemma arrayPointer?_ty_iff : (Ty.arrayPointer? q.ty p.ty).isSome = true ↔ p.Decays q := by
  obtain ⟨size, isConst, sentinel, child⟩ := p
  cases size with
  | one =>
    cases child with
    | array len found child =>
      simp only [ty, Ty.arrayPointer?, Option.isSome_ite, Bool.and_eq_true, decide_eq_true_eq, sentinelMet_iff,
        constMet_iff]
      constructor
      · rintro ⟨⟨⟨hsize, hchild⟩, hconst⟩, hz⟩
        exact ⟨rfl, hsize, hconst, len, found, by rw [hchild], hz⟩
      · rintro ⟨-, hsize, hconst, _, _, hchild, hz⟩
        cases hchild
        exact ⟨⟨⟨hsize, rfl⟩, hconst⟩, hz⟩
    | _ =>
      refine ⟨fun h => (by cases h), ?_⟩
      rintro ⟨-, -, -, _, _, hchild, -⟩
      cases hchild
  | _ => exact ⟨fun h => (by cases h), fun h => (by cases h.single)⟩

lemma decays_of_arrayPointer? (h : (Ty.arrayPointer? dest (p.within m)).isSome = true) :
    m = 0 ∧ ∃ q : Pointer, dest = q.ty ∧ p.Decays q := by
  cases m with
  | zero =>
    cases dest with
    | pointer size isConst sentinel child =>
      exact ⟨rfl, ⟨size, isConst, sentinel, child⟩, rfl, arrayPointer?_ty_iff.1 h⟩
    | _ => cases h
  | succ m => cases dest <;> cases h

end Pointer

namespace Analysis

open Pointer

variable {p q : Pointer} {m n : Nat} {dest : Ty} {site : Site} {s s' : State} {r x : Ref} {span : Span}

def Coerces (src dest : Ty) : Prop :=
  ∃ (site : Site) (s : State) (r : Ref) (span : Span) (x : Ref) (s' : State),
    s.block.arena.ty r = src ∧ coerce dest r span site s = .ok x s'

lemma arrayPointer?_of_coerceFlat (h : coerceFlat dest (p.within m) r span site s = .ok x s') :
    (Ty.arrayPointer? dest (p.within m)).isSome = true := by
  cases ha : Ty.arrayPointer? dest (p.within m) with
  | some => rfl
  | none =>
    -- A pointer is no number, so that nothing else is left to try.
    have hnumber : Ty.convertsNumber dest (p.within m) = false := by
      cases m <;> simp [within, ty, Ty.convertsNumber, Ty.isInt, Ty.isFloat]
    have hwiden : widen dest (p.within m) r span = fail span (.mismatch dest (p.within m)) := by
      cases m <;> cases dest <;> rfl
    rw [coerceFlat, ha] at h
    dsimp only at h
    rw [valueOf?_bind, hnumber, hwiden] at h
    cases h

lemma Coerces.becomes (h : Coerces (p.within m) dest) : ∃ q n, dest = Pointer.within q n ∧ p.Becomes m q n := by
  obtain ⟨site, s, r, span, x, s', ht, hx⟩ := h
  have hundefined : p.within m ≠ .undefined := by cases m <;> nofun
  have hnull : p.within m ≠ .null := by cases m <;> nofun
  have reads {dest : Ty} (h : Ty.reinterprets dest (p.within m) = true) :
      ∃ q, dest = Pointer.within q m ∧ p.Becomes m q m := by
    obtain ⟨hm, q, rfl, hq⟩ := reads_of_reinterprets h
    exact ⟨q, rfl, le_rfl, .inr (.inl ⟨hm, hq⟩)⟩
  have decays {dest : Ty} (h : (Ty.arrayPointer? dest (p.within m)).isSome = true) :
      ∃ q, dest = Pointer.within q m ∧ p.Becomes m q m := by
    obtain ⟨rfl, q, rfl, hq⟩ := decays_of_arrayPointer? h
    exact ⟨q, rfl, le_rfl, .inr (.inr ⟨rfl, hq⟩)⟩
  unfold coerce at hx
  split at hx
  · next child =>
    rw [coerceOr_eq, ht] at hx
    split_ifs at hx with hsame hreads hwraps
    · exact ⟨p, m, hsame.symm, le_rfl, .inl rfl⟩
    · obtain ⟨q, hq⟩ := reads hreads
      exact ⟨q, m, hq⟩
    · have hnumeric : (p.within m).isNumeric = false := by cases m <;> rfl
      simp only [Ty.wraps, hnumeric, Bool.false_and, Bool.or_false, Bool.or_eq_true, decide_eq_true_eq] at hwraps
      obtain ⟨q, rfl, hle, hq⟩ : ∃ q, child = Pointer.within q m ∧ p.Becomes m q m := by
        rcases hwraps with (hsame | hreads) | hdecays
        · exact ⟨p, hsame.symm, le_rfl, .inl rfl⟩
        · exact reads hreads
        · exact decays hdecays
      exact ⟨q, m + 1, rfl, Nat.le_succ m, hq⟩
    · obtain ⟨q, hq⟩ := decays (arrayPointer?_of_coerceFlat hx)
      exact ⟨q, m, hq⟩
  · rw [coerceOr_eq, ht] at hx
    split_ifs at hx with hsame hreads
    · exact ⟨p, m, hsame.symm, le_rfl, .inl rfl⟩
    · obtain ⟨q, hq⟩ := reads hreads
      exact ⟨q, m, hq⟩
    · obtain ⟨q, hq⟩ := decays (arrayPointer?_of_coerceFlat hx)
      exact ⟨q, m, hq⟩

def State.ofParam (t : Ty) : State := .ofInsts #[⟨.arg 0, t, {}⟩]

lemma State.ty_ofParam (t : Ty) : (State.ofParam t).block.arena.ty 0 = t := rfl

lemma coerces_of_emit {src : Ty} (op : Typed.UnOp)
    (h : ∀ site, coerce dest 0 {} site (.ofParam src) = emit (.unary op 0) dest {} site (.ofParam src)) :
    Coerces src dest :=
  ⟨⟨.file 0, 0⟩, .ofParam src, 0, {}, _, _, rfl, (h _).trans (addWith_ok rfl _)⟩

lemma coerces_of_reads (hm : m ≤ 1) (h : p.Reads q) : Coerces (p.within m) (q.within m) := by
  by_cases hsame : p.within m = q.within m
  · exact ⟨⟨.file 0, 0⟩, .ofParam _, 0, {}, _, _, rfl, coerce_self hsame⟩
  · have hreads : Ty.reinterprets (q.within m) (p.within m) = true := by
      rw [reinterprets_within hm]
      exact reinterprets_ty_iff.2 h
    have hopen (other : Ty → Analysis Ref) (site : Site) :
        coerceOr (q.within m) 0 {} other site (.ofParam (p.within m)) =
          emit (.unary .bitcast 0) (q.within m) {} site (.ofParam (p.within m)) := by
      rw [coerceOr_eq, State.ty_ofParam, if_neg hsame, if_pos hreads]
      exact retype_unknown rfl rfl _
    cases m with
    | zero => exact coerces_of_emit .bitcast (hopen _)
    | succ m => exact coerces_of_emit .bitcast (hopen _)

lemma coerces_of_decays (h : p.Decays q) : Coerces p.ty q.ty := by
  have hsize : p.size ≠ q.size := h.single ▸ h.several.symm
  have hsame : p.ty ≠ q.ty := fun heq => hsize (Ty.pointer.inj heq).1
  have hreads : ¬ Ty.reinterprets q.ty p.ty = true := fun hr => hsize (reinterprets_ty_iff.1 hr).size.symm
  obtain ⟨⟨size, len⟩, ha⟩ := Option.isSome_iff_exists.1 (arrayPointer?_ty_iff.2 h)
  have hopen (site : Site) : coerce q.ty 0 {} site (.ofParam p.ty) =
      pointToElements size len q.ty 0 {} site (.ofParam p.ty) := by
    change coerceOr q.ty 0 {} _ site (.ofParam p.ty) = _
    rw [coerceOr_eq, State.ty_ofParam, if_neg hsame, if_neg hreads, if_neg nofun, coerceFlat, ha]
  cases size with
  | slice => exact coerces_of_emit .arrayToSlice hopen
  | many => exact coerces_of_emit .arrayToMany hopen
  | one | c => exact coerces_of_emit .arrayToC hopen

lemma coerces_wrap (p : Pointer) (m : Nat) : Coerces (p.within m) (p.within (m + 1)) := by
  have hundefined : p.within m ≠ .undefined := by cases m <;> nofun
  have hnull : p.within m ≠ .null := by cases m <;> nofun
  exact coerces_of_emit .wrapOptional fun site =>
    (coerce_wraps (State.ty_ofParam _) hnull hundefined).trans (retype_unknown rfl rfl _)

/-- Conversions one after another lead from a pointer in optionals to just those that it can become. -/
theorem coercion_chain_iff (p q : Pointer) (m n : Nat) :
    Relation.ReflTransGen Coerces (p.within m) (q.within n) ↔ p.Becomes m q n := by
  constructor
  · intro h
    have reached {t : Ty} (h : Relation.ReflTransGen Coerces (p.within m) t) :
        ∃ q n, t = Pointer.within q n ∧ p.Becomes m q n := by
      induction h with
      | refl => exact ⟨p, m, rfl, le_rfl, .inl rfl⟩
      | tail _ hstep ih =>
        obtain ⟨w, k, rfl, hw⟩ := ih
        obtain ⟨q, n, hq, hbecomes⟩ := hstep.becomes
        exact ⟨q, n, hq, hw.trans hbecomes⟩
    obtain ⟨q', n', heq, hbecomes⟩ := reached h
    obtain ⟨rfl, rfl⟩ := within_inj heq
    exact hbecomes
  · rintro ⟨hle, h⟩
    have hfirst : Relation.ReflTransGen Coerces (p.within m) (q.within m) := by
      rcases h with rfl | ⟨hm, hreads⟩ | ⟨rfl, hdecays⟩
      · exact .refl
      · exact .single (coerces_of_reads hm hreads)
      · exact .single (coerces_of_decays hdecays)
    refine hfirst.trans ?_
    induction n, hle using Nat.le_induction with
    | base => exact .refl
    | succ k _ ih => exact ih.tail (coerces_wrap q k)

end Analysis

end Frontend
