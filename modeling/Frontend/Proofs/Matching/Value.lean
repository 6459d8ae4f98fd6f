import Mathlib.Data.List.Forall2
import Mathlib.Data.Option.Basic
import Mathlib.Logic.Relator
import Frontend.Analysis.Arith
import Frontend.Analysis.Compare

/-! Values that differ only in the numbers of the declarations they refer to. Two programs may give one declaration
different numbers; what evaluation reads off a value is blind to them, apart from whether two are equal. -/

namespace Frontend

inductive Value.Matches (ρ : DeclId → DeclId → Prop) : Value → Value → Prop
  | void : Matches ρ .void .void
  | undefined : Matches ρ .undefined .undefined
  | null : Matches ρ .null .null
  | bool (b : Bool) : Matches ρ (.bool b) (.bool b)
  | int (v : Int) : Matches ρ (.int v) (.int v)
  | float (f : Binary64) : Matches ρ (.float f) (.float f)
  | type (t : Ty) : Matches ρ (.type t) (.type t)
  | function {d d' : DeclId} (h : ρ d d') : Matches ρ (.function d) (.function d')
  | externalFn {d d' : DeclId} (h : ρ d d') : Matches ρ (.externalFn d) (.externalFn d')
  | global {d d' : DeclId} {i i' : Option Value} (m e t : Bool) (h : ρ d d') (hi : Option.Rel (Matches ρ) i i') :
      Matches ρ (.global d i m e t) (.global d' i' m e t)
  | declRef {d d' : DeclId} (h : ρ d d') : Matches ρ (.declRef d) (.declRef d')
  | array {xs ys : List Value} (h : List.Forall₂ (Matches ρ) xs ys) : Matches ρ (.array xs) (.array ys)
  | slice {p q : Value} (n : Nat) (h : Matches ρ p q) : Matches ρ (.slice p n) (.slice q n)
  | comptimeSlot (n : Nat) : Matches ρ (.comptimeSlot n) (.comptimeSlot n)

namespace Value.Matches
variable {ρ τ : DeclId → DeclId → Prop}

mutual

theorem mono (hρ : ∀ d d', ρ d d' → τ d d') : ∀ {v w : Value}, v.Matches ρ w → v.Matches τ w
  | _, _, void => void
  | _, _, undefined => undefined
  | _, _, null => null
  | _, _, bool b => bool b
  | _, _, int v => int v
  | _, _, float f => float f
  | _, _, type t => type t
  | _, _, function h => function (hρ _ _ h)
  | _, _, externalFn h => externalFn (hρ _ _ h)
  | _, _, global m e t h hi => global m e t (hρ _ _ h) (monoOption hρ hi)
  | _, _, declRef h => declRef (hρ _ _ h)
  | _, _, array h => array (monoAll hρ h)
  | _, _, slice n h => slice n (mono hρ h)
  | _, _, comptimeSlot n => comptimeSlot n

theorem monoOption (hρ : ∀ d d', ρ d d' → τ d d') :
    ∀ {i j : Option Value}, Option.Rel (Value.Matches ρ) i j → Option.Rel (Value.Matches τ) i j
  | _, _, .none => .none
  | _, _, .some h => .some (mono hρ h)

theorem monoAll (hρ : ∀ d d', ρ d d' → τ d d') :
    ∀ {xs ys : List Value}, List.Forall₂ (Value.Matches ρ) xs ys → List.Forall₂ (Value.Matches τ) xs ys
  | _, _, .nil => .nil
  | _, _, .cons h hs => .cons (mono hρ h) (monoAll hρ hs)

end

mutual

theorem refl (hρ : ∀ d, ρ d d) : ∀ v : Value, v.Matches ρ v
  | .void => void
  | .undefined => undefined
  | .null => null
  | .bool b => bool b
  | .int v => int v
  | .float f => float f
  | .type t => type t
  | .function d => function (hρ d)
  | .externalFn d => externalFn (hρ d)
  | .global d i m e t => global m e t (hρ d) (reflOption hρ i)
  | .declRef d => declRef (hρ d)
  | .array xs => array (reflAll hρ xs)
  | .slice p n => slice n (refl hρ p)
  | .comptimeSlot n => comptimeSlot n

theorem reflOption (hρ : ∀ d, ρ d d) : ∀ i : Option Value, Option.Rel (Value.Matches ρ) i i
  | none => .none
  | some v => .some (refl hρ v)

theorem reflAll (hρ : ∀ d, ρ d d) : ∀ xs : List Value, List.Forall₂ (Value.Matches ρ) xs xs
  | [] => .nil
  | v :: vs => .cons (refl hρ v) (reflAll hρ vs)

end

mutual

theorem eq_of_eq : ∀ {v w : Value}, v.Matches Eq w → w = v
  | _, _, void | _, _, undefined | _, _, null | _, _, bool _ | _, _, int _ | _, _, float _ | _, _, type _
  | _, _, comptimeSlot _ => rfl
  | _, _, function h | _, _, externalFn h | _, _, declRef h => by rw [h]
  | _, _, global m e t h hi => by rw [h, eq_of_eqOption hi]
  | _, _, array h => by rw [eq_of_eqAll h]
  | _, _, slice n h => by rw [eq_of_eq h]

theorem eq_of_eqOption : ∀ {i j : Option Value}, Option.Rel (Value.Matches Eq) i j → j = i
  | _, _, .none => rfl
  | _, _, .some h => by rw [eq_of_eq h]

theorem eq_of_eqAll : ∀ {xs ys : List Value}, List.Forall₂ (Value.Matches Eq) xs ys → ys = xs
  | _, _, .nil => rfl
  | _, _, .cons h hs => by rw [eq_of_eq h, eq_of_eqAll hs]

end

/-! What is read off matching values. -/

variable {v w : Value}

section

variable (h : v.Matches ρ w)
include h

lemma isUndefined_eq : w.isUndefined = v.isUndefined := by cases h <;> rfl

lemma isNull_eq : w.isNull = v.isNull := by cases h <;> rfl

lemma isGlobal_eq : w.isGlobal = v.isGlobal := by cases h <;> rfl

lemma asInt?_eq : w.asInt? = v.asInt? := by cases h <;> rfl

lemma asFloat?_eq : w.asFloat? = v.asFloat? := by cases h <;> rfl

lemma asBool?_eq : w.asBool? = v.asBool? := by cases h <;> rfl

lemma asType?_eq : w.asType? = v.asType? := by cases h <;> rfl

lemma order?_eq : w.order? = v.order? := by cases h <;> rfl

lemma eq_of_plain (hv : v.asInt?.isSome ∨ v.asFloat?.isSome) : w = v := by
  cases h <;> simp_all [Value.asInt?, Value.asFloat?]

end

lemma equal?_eq (hρ : Relator.BiUnique ρ) {v' w' : Value} (h : v.Matches ρ w) (h' : v'.Matches ρ w') :
    Value.equal? w w' = Value.equal? v v' := by
  cases h <;> cases h' <;> try rfl
  rename_i d e hd d' e' hd'
  have key : e = e' ↔ d = d' :=
    ⟨fun he => hρ.1 hd (he ▸ hd'), fun he => hρ.2 hd (he ▸ hd')⟩
  simp only [Value.equal?, Option.some.injEq]
  by_cases he : d = d'
  · simp [he, key.2 he]
  · have hne : ¬ e = e' := fun hee => he (key.1 hee)
    simp [he, hne]

lemma compare?_of_not_ints (op : CmpOp) {a b : Value} (h : ¬ (a.asInt?.isSome ∧ b.asInt?.isSome)) :
    Value.compare? op a b =
      match a.asFloat?, b.asFloat? with
      | some x, some y =>
        some (match x.compare y with
          | some o => op.holds o
          | none => op == .neq)
      | _, _ => if op.isEquality then (Value.equal? a b).map (fun e => if op == .eq then e else !e) else none := by
  unfold Value.compare?
  split
  · exact absurd ⟨rfl, rfl⟩ h
  · rfl

lemma compare?_eq (hρ : Relator.BiUnique ρ) (op : CmpOp) {v' w' : Value} (h : v.Matches ρ w)
    (h' : v'.Matches ρ w') : Value.compare? op w w' = Value.compare? op v v' := by
  by_cases hi : v.asInt?.isSome ∧ v'.asInt?.isSome
  · rw [h.eq_of_plain (.inl hi.1), h'.eq_of_plain (.inl hi.2)]
  · have hi' : ¬ (w.asInt?.isSome ∧ w'.asInt?.isSome) := by rwa [h.asInt?_eq, h'.asInt?_eq]
    rw [compare?_of_not_ints op hi, compare?_of_not_ints op hi', h.asFloat?_eq, h'.asFloat?_eq, equal?_eq hρ h h']

end Value.Matches

structure Value.Twin (apart : Prop) (ρ : DeclId → DeclId → Prop) (v w : Value) : Prop where
  same : v.Matches ρ w
  known : apart → v.isGlobal = false

namespace Value.Twin
variable {apart : Prop} {ρ τ : DeclId → DeclId → Prop} {v w : Value}

lemma mono (h : v.Twin apart ρ w) (hρ : ∀ d d', ρ d d' → τ d d') : v.Twin apart τ w := ⟨h.same.mono hρ, h.known⟩

lemma eq_of_eqOption {i j : Option Value} (h : Option.Rel (Value.Twin apart Eq) i j) : j = i := by
  cases h with
  | none => rfl
  | some h => rw [h.same.eq_of_eq]

lemma void : Value.void.Twin apart ρ .void := ⟨.void, fun _ => rfl⟩

lemma undefined : Value.undefined.Twin apart ρ .undefined := ⟨.undefined, fun _ => rfl⟩

lemma null : Value.null.Twin apart ρ .null := ⟨.null, fun _ => rfl⟩

lemma bool (b : Bool) : (Value.bool b).Twin apart ρ (.bool b) := ⟨.bool b, fun _ => rfl⟩

lemma int (n : Int) : (Value.int n).Twin apart ρ (.int n) := ⟨.int n, fun _ => rfl⟩

lemma float (f : Binary64) : (Value.float f).Twin apart ρ (.float f) := ⟨.float f, fun _ => rfl⟩

lemma type (t : Ty) : (Value.type t).Twin apart ρ (.type t) := ⟨.type t, fun _ => rfl⟩

lemma declRef {d d' : DeclId} (h : ρ d d') : (Value.declRef d).Twin apart ρ (.declRef d') := ⟨.declRef h, fun _ => rfl⟩

lemma array {xs ys : List Value} (h : List.Forall₂ (Value.Matches ρ) xs ys) :
    (Value.array xs).Twin apart ρ (.array ys) := ⟨.array h, fun _ => rfl⟩

lemma slice {p q : Value} (n : Nat) (h : p.Matches ρ q) : (Value.slice p n).Twin apart ρ (.slice q n) :=
  ⟨.slice n h, fun _ => rfl⟩

lemma comptimeSlot (n : Nat) : (Value.comptimeSlot n).Twin apart ρ (.comptimeSlot n) := ⟨.comptimeSlot n, fun _ => rfl⟩

end Value.Twin

inductive Cause.Matches (ρ : DeclId → DeclId → Prop) : Cause → Cause → Prop
  | same (c : Cause) : Matches ρ c c
  | expectedInteger {v w : Value} (h : v.Matches ρ w) : Matches ρ (.expectedInteger v) (.expectedInteger w)
  | unrepresentable (t : Ty) {v w : Value} (h : v.Matches ρ w) :
      Matches ρ (.unrepresentable t v) (.unrepresentable t w)
  | losesInformation {v w : Value} (h : v.Matches ρ w) (t : Ty) :
      Matches ρ (.losesInformation v t) (.losesInformation w t)

lemma Cause.Matches.mono {ρ τ : DeclId → DeclId → Prop} {c c' : Cause} (h : c.Matches ρ c')
    (hρ : ∀ d d', ρ d d' → τ d d') : c.Matches τ c' := by
  cases h with
  | same => exact .same c
  | expectedInteger hv => exact .expectedInteger (hv.mono hρ)
  | unrepresentable t hv => exact .unrepresentable t (hv.mono hρ)
  | losesInformation hv t => exact .losesInformation (hv.mono hρ) t

lemma Cause.Matches.eq_of_eq {c c' : Cause} (h : c.Matches Eq c') : c' = c := by
  cases h with
  | same => rfl
  | expectedInteger hv => rw [hv.eq_of_eq]
  | unrepresentable t hv => rw [hv.eq_of_eq]
  | losesInformation hv t => rw [hv.eq_of_eq]

inductive Value.ResultsMatch (apart : Prop) (ρ : DeclId → DeclId → Prop) :
    Except Cause Value → Except Cause Value → Prop
  | ok {v w : Value} (h : v.Twin apart ρ w) : ResultsMatch apart ρ (.ok v) (.ok w)
  | error {c c' : Cause} (h : c.Matches ρ c') : ResultsMatch apart ρ (.error c) (.error c')

namespace Value.ResultsMatch
variable {apart : Prop} {ρ : DeclId → DeclId → Prop} {v w : Value}

lemma fit (dest : Ty) (info : IntInfo) (n : Int) :
    ResultsMatch apart ρ (Frontend.convertNumber.fit dest info n) (Frontend.convertNumber.fit dest info n) := by
  unfold Frontend.convertNumber.fit
  split
  · exact ok (.int n)
  · exact error (.unrepresentable dest (.int n))

lemma convertNumber (dest : Ty) (ht : v.Twin apart ρ w) :
    ResultsMatch apart ρ (Frontend.convertNumber dest v) (Frontend.convertNumber dest w) := by
  have h := ht.same
  unfold Frontend.convertNumber
  rw [h.isUndefined_eq]
  split
  · exact ok ht
  · cases dest with
    | int info =>
      cases h with
      | int n => exact fit _ info n
      | float f =>
        dsimp only
        split
        · exact error (.same _)
        · split
          · exact fit _ info _
          · exact error (.unrepresentable _ (.float f))
      | _ => exact error (.unrepresentable _ (by constructor <;> assumption))
    | comptimeInt =>
      cases h with
      | float f =>
        dsimp only
        split
        · exact error (.same _)
        · split <;> exact ok (.int _)
      | _ => exact ok ht
    | float width =>
      dsimp only
      rw [h.asFloat?_eq]
      split
      · exact error (.same _)
      · split
        · exact error (.losesInformation h _)
        · exact ok (.float _)
    | comptimeFloat =>
      dsimp only
      rw [h.asFloat?_eq]
      split
      · exact ok (.float _)
      · exact ok ht
    | _ => exact ok ht

lemma foldArith (op : ArithOp) (ty : Ty) {v' w' : Value} (h : v.Matches ρ w) (h' : v'.Matches ρ w') :
    ResultsMatch apart ρ (Frontend.foldArith op ty v v') (Frontend.foldArith op ty w w') := by
  have floats : ResultsMatch apart ρ
      (match v.asFloat?, v'.asFloat? with
        | some a, some b => .ok (.float (op.onFloats a b))
        | _, _ => .error .notConstant)
      (match w.asFloat?, w'.asFloat? with
        | some a, some b => .ok (.float (op.onFloats a b))
        | _, _ => .error .notConstant) := by
    rw [h.asFloat?_eq, h'.asFloat?_eq]
    split
    · exact ok (.float _)
    · exact error (.same _)
  unfold Frontend.foldArith
  rw [h.isUndefined_eq, h'.isUndefined_eq]
  split
  · exact error (.same _)
  · cases h <;> cases h' <;> try exact floats
    dsimp only
    split
    · split
      · exact ok (.int _)
      · exact error (.same _)
    · exact error (.same _)

lemma foldNegate (ty : Ty) (h : v.Matches ρ w) :
    ResultsMatch apart ρ (Frontend.foldNegate ty v) (Frontend.foldNegate ty w) := by
  cases h with
  | int n =>
    dsimp only [Frontend.foldNegate]
    split
    · exact ok (.int _)
    · exact error (.same _)
  | float f => exact ok (.float _)
  | _ => exact error (.same _)

end Value.ResultsMatch

end Frontend
