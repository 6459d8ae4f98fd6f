import Frontend.Proofs.Matching.State

/-! Conversions, arithmetic, comparison and memory keep two analyses in step. -/

namespace Frontend.Analysis

variable {M : Pairing} {ρ : Pairs} {span span' : Span}

/-! What is known of operands. -/

lemma valueOf?_bind_inStep {α : Type} {f : Value → Option α} (hf : ∀ {ρ v w}, Value.Matches ρ v w → f w = f v)
    (r : Ref) : InStep M ρ (fun _ v w => w.bind f = v.bind f) (valueOf? r) (valueOf? r) := by
  refine .read fun _ _ s t hst => ?_
  have hv := hst.value? r
  generalize s.block.arena.value? r = x at hv
  generalize t.block.arena.value? r = y at hv
  cases hv with
  | none => rfl
  | some hv => exact hf hv.same

lemma bitNeed_inStep (r : Ref) : InStep M ρ Same (bitNeed r) (bitNeed r) := by
  refine .bind (valueOf?_bind_inStep Value.Matches.asInt?_eq r) fun _ _ v w hv => ?_
  rw [hv]
  split
  · exact .pure fun _ _ => rfl
  · refine .bindSame (tyOf_inStep r) fun ty => ?_
    split <;> exact .pure fun _ _ => rfl

lemma compareAll_eq (hρ : Relator.BiUnique ρ) (op : CmpOp) {xs xs' ys ys' : List Value}
    (hx : List.Forall₂ (Value.Matches ρ) xs xs') (hy : List.Forall₂ (Value.Matches ρ) ys ys') :
    ((xs'.zip ys').mapM fun (x, y) => (Value.compare? op x y).map Value.bool) =
      (xs.zip ys).mapM fun (x, y) => (Value.compare? op x y).map Value.bool := by
  induction hx generalizing ys ys' with
  | nil => rfl
  | cons hx _ ih =>
    cases hy with
    | nil => rfl
    | cons hy hys => simp only [List.zip_cons_cons, List.mapM_cons, hx.compare?_eq hρ op hy, ih hys]

lemma matches_bools {vs : List Value} {zs : List (Value × Value)} {f : Value × Value → Option Bool}
    (h : (zs.mapM fun z => (f z).map Value.bool) = some vs) : List.Forall₂ (Value.Matches ρ) vs vs := by
  induction zs generalizing vs with
  | nil => cases h; exact .nil
  | cons z zs ih =>
    rw [List.mapM_cons] at h
    obtain ⟨v, hv, h⟩ := Option.bind_eq_some_iff.1 h
    obtain ⟨ws, hws, h⟩ := Option.bind_eq_some_iff.1 h
    obtain ⟨b, -, rfl⟩ := Option.map_eq_some_iff.1 hv
    cases h
    exact .cons (.bool b) (ih hws)

variable (hM : M.Lawful) (hs : M.spans span span')
include hM hs

/-! Conversions. -/

lemma retype_inStep (op : Typed.UnOp) (dest : Ty) (r : Ref) :
    InStep M ρ Same (retype op dest r span) (retype op dest r span') :=
  .bindTwins? (valueOf?_inStep r) (fun _ _ _ _ hv => constant_inStep hM hs dest hv)
    (emitRuntime_inStep hM hs (by simp) dest)

lemma pointToElements_inStep (size : PtrSize) (len : Nat) (dest : Ty) (r : Ref) :
    InStep M ρ Same (pointToElements size len dest r span) (pointToElements size len dest r span') := by
  refine .bindTwins? (valueOf?_inStep r) (fun ρ₁ _ v w hv => constant_inStep hM hs dest ?_) ?_
  · split
    · exact .slice len hv.same
    · exact hv
  · exact emitRuntime_inStep hM hs (by simp) dest

lemma widen_inStep (dest src : Ty) (r : Ref) : InStep M ρ Same (widen dest src r span) (widen dest src r span') := by
  unfold widen
  split
  · exact .ite (fun _ => emitRuntime_inStep hM hs (by simp) _) fun _ => stop_inStep hM hs _
  · exact .ite (fun _ => emitRuntime_inStep hM hs (by simp) _) fun _ => stop_inStep hM hs _
  · exact stop_inStep hM hs _

lemma coerceFlat_inStep (dest src : Ty) (r : Ref) :
    InStep M ρ Same (coerceFlat dest src r span) (coerceFlat dest src r span') := by
  unfold coerceFlat
  split
  · exact pointToElements_inStep hM hs _ _ dest r
  · refine .bindTwins? (valueOf?_inStep r) (fun ρ₁ _ v w hv => ?_) ?_
    · cases Ty.convertsNumber dest src with
      | true =>
        exact .bindTwins (ofExcept_inStep hM hs (.convertNumber dest hv)) fun _ _ _ _ hn =>
          constant_inStep hM hs dest hn
      | false => exact widen_inStep hM hs dest src r
    · cases Ty.convertsNumber dest src <;> exact widen_inStep hM hs dest src r

lemma coerceOr_inStep (dest : Ty) (r : Ref) {other other' : Ty → Analysis Ref}
    (h : ∀ src, InStep M ρ Same (other src) (other' src)) :
    InStep M ρ Same (coerceOr dest r span other) (coerceOr dest r span' other') := by
  refine .bindSame (tyOf_inStep r) fun src => .ite (fun _ => .pure fun _ _ => rfl) fun _ => ?_
  refine .ite (fun _ => retype_inStep hM hs _ dest r) fun _ => ?_
  exact .ite (fun _ => constant_inStep hM hs dest .undefined) fun _ => h src

lemma coerce_inStep (dest : Ty) (r : Ref) : InStep M ρ Same (coerce dest r span) (coerce dest r span') := by
  fun_induction coerce dest r span with
  | case1 child r span ih =>
    rw [coerce]
    refine coerceOr_inStep hM hs _ r fun src => .ite (fun _ => constant_inStep hM hs _ .null) fun _ => ?_
    refine .ite (fun _ => ?_) fun _ => coerceFlat_inStep hM hs _ src r
    exact .bindSame (ih hs) fun payload => retype_inStep hM hs _ _ payload
  | case2 dest r span hdest =>
    rw [coerce]
    · exact coerceOr_inStep hM hs dest r fun src => coerceFlat_inStep hM hs dest src r
    · exact hdest

/-! Arithmetic. -/

lemma peerType_inStep (lhs rhs : Ty) : InStep M ρ Same (peerType lhs rhs span) (peerType lhs rhs span') := by
  unfold peerType
  split
  · exact .pure fun _ _ => rfl
  · exact stop_inStep hM hs _

lemma arith_inStep (op : ArithOp) (lhs rhs : Ref) :
    InStep M ρ Same (arith op lhs rhs span) (arith op lhs rhs span') := by
  have written (ty : Ty) (l r : Ref) {τ : Pairs} : InStep M τ Same
      (do requireRuntime span; emit (.binary (.arith op) l r) ty span)
      (do requireRuntime span'; emit (.binary (.arith op) l r) ty span') :=
    emitRuntime_inStep hM hs (by simp) ty
  refine .bindSame (tyOf_inStep lhs) fun lhsTy => .bindSame (tyOf_inStep rhs) fun rhsTy => ?_
  refine .guard hM hs _ ?_
  refine .bindSame (peerType_inStep hM hs lhsTy rhsTy) fun ty => ?_
  refine .bindSame (coerce_inStep hM hs ty lhs) fun l => .bindSame (coerce_inStep hM hs ty rhs) fun r => ?_
  refine .bindTwins? (valueOf?_inStep l) (fun ρ₁ _ v w hv => ?_) ?_
  · refine .bindTwins? (valueOf?_inStep r) (fun ρ₂ h₂ v' w' hv' => ?_) (.guard hM hs _ (written ty l r))
    refine .guardIff hM hs _ (by simp [hv'.same.order?_eq]) ?_
    exact .bindTwins (ofExcept_inStep hM hs (.foldArith op ty (hv.same.mono h₂) hv'.same)) fun _ _ _ _ hn =>
      constant_inStep hM hs ty hn
  · refine .bindTwins? (valueOf?_inStep r) (fun ρ₂ h₂ v' w' hv' => ?_) (.guard hM hs _ (written ty l r))
    exact .guardIff hM hs _ (by simp [hv'.same.order?_eq]) (written ty l r)

lemma negate_inStep (operand : Ref) : InStep M ρ Same (negate operand span) (negate operand span') := by
  refine .bindSame (tyOf_inStep operand) fun ty => .guard hM hs _ ?_
  refine .bindTwins? (valueOf?_inStep operand) (fun ρ₁ _ v w hv => ?_) ?_
  · exact .bindTwins (ofExcept_inStep hM hs (.foldNegate ty hv.same)) fun _ _ _ _ hn => constant_inStep hM hs ty hn
  · refine .bindSame (requireRuntime_inStep hM hs) fun _ => .guard hM hs _ ?_
    exact emit_inStep hM hs (by simp) ty

lemma not_inStep (operand : Ref) : InStep M ρ Same (not operand span) (not operand span') := by
  refine .bindSame (coerce_inStep hM hs .bool operand) fun r => ?_
  refine .bindTwins? (valueOf?_inStep r) (fun ρ₁ _ v w hv => ?_) (emitRuntime_inStep hM hs (by simp) _)
  dsimp only
  rw [hv.same.asBool?_eq]
  split
  · exact constant_inStep hM hs .bool (.bool _)
  · exact stop_inStep hM hs _

lemma boolOp_inStep (isAnd : Bool) (lhs rhs : Ref) :
    InStep M ρ Same (boolOp isAnd lhs rhs span) (boolOp isAnd lhs rhs span') := by
  refine .bindSame (coerce_inStep hM hs .bool lhs) fun l => .bindSame (coerce_inStep hM hs .bool rhs) fun r => ?_
  refine .bind (valueOf?_bind_inStep Value.Matches.asBool?_eq l) fun _ _ v w hv => ?_
  refine .bind (valueOf?_bind_inStep Value.Matches.asBool?_eq r) fun _ _ v' w' hv' => ?_
  dsimp only
  rw [hv, hv']
  split
  · exact constant_inStep hM hs .bool (.bool _)
  · exact emitRuntime_inStep hM hs (by simp) .bool

/-! Comparison. -/

lemma compareVectors_inStep (op : CmpOp) (lhs rhs : Ref) (n m : Nat) :
    InStep M ρ Same (compareVectors op lhs rhs n m span) (compareVectors op lhs rhs n m span') := by
  unfold compareVectors
  refine .guard hM hs _ ?_
  refine .bindSame (tyOf_inStep lhs) fun lhsTy => .bindSame (tyOf_inStep rhs) fun rhsTy => .guard hM hs _ ?_
  have written {τ : Pairs} : InStep M τ Same
      (do requireRuntime span; emit (.binary (.cmp op) lhs rhs) (.vector n .bool) span)
      (do requireRuntime span'; emit (.binary (.cmp op) lhs rhs) (.vector n .bool) span') :=
    emitRuntime_inStep hM hs (by simp) _
  refine .bindTwins? (valueOf?_inStep lhs) (fun ρ₁ _ v w hv => ?_) ?_
  · refine .bindTwins? (valueOf?_inStep rhs) (fun ρ₂ h₂ v' w' hv' => ?_) ?_
    · refine .ofBiUnique hM fun ρ₃ h₃ hρ => ?_
      obtain ⟨hv, -⟩ := hv
      obtain ⟨hv', -⟩ := hv'
      cases hv with
      | array hx =>
        cases hv' with
        | array hy =>
          dsimp only
          rw [compareAll_eq hρ op (Value.Matches.monoAll (h₂.trans h₃) hx) (Value.Matches.monoAll h₃ hy)]
          generalize hz : (List.mapM _ _ : Option (List Value)) = folded
          cases folded with
          | some elems => exact constant_inStep hM hs _ (.array (matches_bools hz))
          | none => exact written
        | _ => exact written
      | _ => exact written
    · cases hv.same <;> exact written
  · exact .bindTwins? (valueOf?_inStep rhs) (fun _ _ _ _ _ => written) written

lemma compareAs_inStep (op : CmpOp) (ty : Ty) (lhs rhs : Ref) :
    InStep M ρ Same (compareAs op ty lhs rhs span) (compareAs op ty lhs rhs span') :=
  .bindSame (coerce_inStep hM hs ty lhs) fun _ => .bindSame (coerce_inStep hM hs ty rhs) fun _ =>
    emitRuntime_inStep hM hs (by simp) .bool

lemma compareInts_inStep (op : CmpOp) (lhs rhs : Ref) :
    InStep M ρ Same (compareInts op lhs rhs span) (compareInts op lhs rhs span') :=
  .bindSame (bitNeed_inStep lhs) fun _ => .bindSame (bitNeed_inStep rhs) fun _ =>
    .guard hM hs _ (compareAs_inStep hM hs op _ lhs rhs)

lemma compareFraction_inStep (op : CmpOp) (f : Binary64) (constantOnRight : Bool) (lhs rhs : Ref) :
    InStep M ρ Same (compareFraction op f constantOnRight lhs rhs span)
      (compareFraction op f constantOnRight lhs rhs span') := by
  unfold compareFraction
  split
  · exact constant_inStep hM hs .bool (.bool _)
  · refine .ite (fun _ => constant_inStep hM hs .bool (.bool _)) fun _ => ?_
    refine .bindSame (constant_inStep hM hs _ (.int _)) fun floored => ?_
    exact .ite (fun _ => compareInts_inStep hM hs _ lhs floored) fun _ => compareInts_inStep hM hs _ floored rhs

lemma compareKnown_inStep (op : CmpOp) (ty : Ty) {v w v' w' : Value} (hv : v.Matches ρ w) (hv' : v'.Matches ρ w') :
    InStep M ρ Same (compareKnown op ty v v' span) (compareKnown op ty w w' span') := by
  refine .ofBiUnique hM fun ρ₁ h₁ hρ => ?_
  unfold compareKnown
  rw [(hv.mono h₁).compare?_eq hρ op (hv'.mono h₁)]
  split
  · exact constant_inStep hM hs .bool (.bool _)
  · exact stop_inStep hM hs _

lemma compareScalars_inStep (op : CmpOp) (lhsTy rhsTy : Ty) (lhs rhs : Ref) {x x' y y' : Option Value}
    (hx : Twins? M.apart ρ x x') (hy : Twins? M.apart ρ y y') :
    InStep M ρ Same (compareScalars op lhsTy rhsTy x y lhs rhs span)
      (compareScalars op lhsTy rhsTy x' y' lhs rhs span') := by
  unfold compareScalars
  have ints := compareInts_inStep (ρ := ρ) hM hs op lhs rhs
  have right (f : Binary64) := compareFraction_inStep (ρ := ρ) hM hs op f true lhs rhs
  cases lhsTy.floatWidth? with
  | some a => cases rhsTy.floatWidth? <;> exact compareAs_inStep hM hs op _ lhs rhs
  | none =>
    cases rhsTy.floatWidth? with
    | some b => exact compareAs_inStep hM hs op _ lhs rhs
    | none =>
      cases hx with
      | none =>
        cases hy with
        | none => exact ints
        | some hw => cases hw.same <;> first | exact right _ | exact ints
      | some hv =>
        cases hv.same with
        | float f => exact compareFraction_inStep hM hs op f false lhs rhs
        | _ =>
          cases hy with
          | none => exact ints
          | some hw => cases hw.same <;> first | exact right _ | exact ints

lemma compareNumeric_inStep (op : CmpOp) (lhs rhs : Ref) :
    InStep M ρ Same (compareNumeric op lhs rhs span) (compareNumeric op lhs rhs span') := by
  refine .bindSame (tyOf_inStep lhs) fun lhsTy => .bindSame (tyOf_inStep rhs) fun rhsTy => ?_
  split
  · exact compareVectors_inStep hM hs op lhs rhs _ _
  · exact stop_inStep hM hs _
  · exact stop_inStep hM hs _
  · refine .bindTwins? (valueOf?_inStep lhs) (fun ρ₁ _ v w hv => ?_) ?_
    · refine .bindTwins? (valueOf?_inStep rhs) (fun ρ₂ h₂ v' w' hv' => ?_) ?_
      · dsimp only
        rw [hv.same.isUndefined_eq, hv'.same.isUndefined_eq]
        exact .ite (fun _ => constant_inStep hM hs .bool .undefined) fun _ =>
          compareKnown_inStep hM hs op _ (hv.same.mono h₂) hv'.same
      · exact compareScalars_inStep hM hs op lhsTy rhsTy lhs rhs (.some hv) .none
    · refine .bindTwins? (valueOf?_inStep rhs) (fun ρ₂ _ v' w' hv' => ?_) ?_
      · exact compareScalars_inStep hM hs op lhsTy rhsTy lhs rhs .none (.some hv')
      · exact compareScalars_inStep hM hs op lhsTy rhsTy lhs rhs .none .none

lemma compareNull_inStep (op : CmpOp) (operand : Ref) :
    InStep M ρ Same (compareNull op operand span) (compareNull op operand span') := by
  unfold compareNull
  -- A comparison that is not allowed stops before the operand is looked at.
  refine (fun rest : InStep M ρ Same _ _ => .ite (fun _ => .bindSame (tyOf_inStep operand) fun ty =>
    .bindSame (stop_inStep hM hs _) fun _ => rest) fun _ => rest) ?_
  refine .bindTwins? (valueOf?_inStep operand) (fun ρ₁ _ v w hv => ?_) (emitRuntime_inStep hM hs (by simp) .bool)
  dsimp only
  rw [hv.same.isNull_eq]
  exact constant_inStep hM hs .bool (.bool _)

lemma compareSame_inStep (op : CmpOp) (ty : Ty) (lhs rhs : Ref) :
    InStep M ρ Same (compareSame op ty lhs rhs span) (compareSame op ty lhs rhs span') := by
  have written {τ : Pairs} : InStep M τ Same
      (do if !op.isEquality || !ty.hasEquality then fail span (.operatorNotAllowed op ty)
          requireRuntime span; emit (.binary (.cmp op) lhs rhs) .bool span)
      (do if !op.isEquality || !ty.hasEquality then fail span' (.operatorNotAllowed op ty)
          requireRuntime span'; emit (.binary (.cmp op) lhs rhs) .bool span') :=
    .guard hM hs _ (emitRuntime_inStep hM hs (by simp) .bool)
  refine .bindTwins? (valueOf?_inStep lhs) (fun ρ₁ _ v w hv => ?_) ?_
  · refine .bindTwins? (valueOf?_inStep rhs) (fun ρ₂ h₂ v' w' hv' => ?_) written
    exact compareKnown_inStep hM hs op ty (hv.same.mono h₂) hv'.same
  · exact .bindTwins? (valueOf?_inStep rhs) (fun _ _ _ _ _ => written) written

lemma compare_inStep (op : CmpOp) (lhs rhs : Ref) :
    InStep M ρ Same (compare op lhs rhs span) (compare op lhs rhs span') := by
  refine .bindSame (tyOf_inStep lhs) fun lhsTy => .bindSame (tyOf_inStep rhs) fun rhsTy => ?_
  refine .ite (fun _ => compareNumeric_inStep hM hs op lhs rhs) fun _ => ?_
  split
  · exact compareNull_inStep hM hs op rhs
  · exact compareNull_inStep hM hs op lhs
  · exact .ite (fun _ => stop_inStep hM hs _) fun _ => compareSame_inStep hM hs op _ lhs rhs

/-! Memory. -/

lemma newSlot_inStep (ptrTy ty : Ty) {v w : Value} (hv : v.Twin M.apart ρ w) :
    InStep M ρ Same (newSlot ptrTy ty v span) (newSlot ptrTy ty w span') := by
  refine .bind (A := fun _ s t => t.slots.size = s.slots.size) (.read fun _ _ _ _ h => h.slots.size_eq)
    fun ρ₁ h₁ s t hst => ?_
  refine .bindSame (.modify fun ρ₂ h₂ _ _ h => { h with slots := h.slots.push ⟨rfl, hv.mono (h₁.trans h₂)⟩ })
    fun _ => ?_
  rw [hst]
  exact constant_inStep hM hs ptrTy (.comptimeSlot _)

lemma alloc_inStep (ty : Ty) (init : Ref) : InStep M ρ Same (alloc ty init span) (alloc ty init span') := by
  refine .bindSame (coerce_inStep hM hs ty init) fun i => .bindSame isComptime_inStep fun c => ?_
  refine .ite (fun _ => ?_) fun _ => .guard hM hs _ ?_
  · exact .bindTwins (requireComptime_inStep hM i hs) fun _ _ _ _ hv => newSlot_inStep hM hs _ ty hv
  · refine .bindSame (emit_inStep hM hs (by simp) _) fun ptr => ?_
    exact .bindSame (emit_inStep hM hs (by simp) _) fun _ => .pure fun _ _ => rfl

lemma pointee_inStep (ptr : Ref) : InStep M ρ Same (pointee ptr span) (pointee ptr span') := by
  refine .bindSame (tyOf_inStep ptr) fun ty => ?_
  split
  · exact .pure fun _ _ => rfl
  · exact stop_inStep hM hs _

lemma store_inStep (ptr value : Ref) : InStep M ρ Same (store ptr value span) (store ptr value span') := by
  have written (r : Ref) {τ : Pairs} : InStep M τ Same
      (do requireRuntime span; let _ ← emit (.binary .store ptr r) .void span)
      (do requireRuntime span'; let _ ← emit (.binary .store ptr r) .void span') := by
    refine .bindSame (requireRuntime_inStep hM hs) fun _ => ?_
    exact .bindSame (emit_inStep hM hs (by simp) _) fun _ => .pure fun _ _ => rfl
  refine .bindSame (pointee_inStep hM hs ptr) fun (elem, isConst) => .guard hM hs _ ?_
  refine .bindSame (coerce_inStep hM hs elem value) fun r => ?_
  refine .bindTwins? (valueOf?_inStep ptr) (fun ρ₁ _ v w hv => ?_) (written r)
  cases hv.same with
  | comptimeSlot slot =>
    refine .bindTwins (requireComptime_inStep hM r hs) fun ρ₂ _ x y hx => ?_
    exact .modify fun ρ₃ h₃ s t hst =>
      { hst with slots := hst.slots.modify slot fun _ _ h => ⟨h.ty, hx.mono h₃⟩ }
  | _ => exact written r

lemma declValue_inStep {d d' : DeclId} (hd : ρ d d') :
    InStep M ρ TypedValue.Matches (declValue d span) (declValue d' span') := by
  refine .bind (A := fun ρ p p' => Option.Rel (fun v w => w.ty = v.ty ∧ v.val.Matches ρ w.val)
    ((p.decl? d).bind (·.value)) ((p'.decl? d').bind (·.value)))
    (.read fun ρ₁ h₁ s t hst => hM.value hst.engine (h₁ _ _ hd)) fun ρ₁ h₁ p p' hp => ?_
  generalize (p.decl? d).bind (·.value) = x at hp
  generalize (p'.decl? d').bind (·.value) = y at hp
  cases hp with
  | none => exact stop_inStep hM hs _
  | some h => exact .pure fun _ h₂ => ⟨h.1, h.2.mono h₂⟩

lemma loadKnown?_inStep (ptr : Ref) : InStep M ρ (Twins? M.apart) (loadKnown? ptr span) (loadKnown? ptr span') := by
  refine .bindTwins? (valueOf?_inStep ptr) (fun ρ₁ _ v w hv => ?_) (.pure fun _ _ => .none)
  cases hv.same with
  | comptimeSlot slot => exact .read fun _ _ _ _ hst => Pointwise.mapRel (fun _ _ h => h.val) (hst.slots slot)
  | declRef hd =>
    refine .bind (declValue_inStep hM hs hd) fun ρ₂ _ x y hxy => ?_
    dsimp only
    rw [hxy.val.isGlobal_eq]
    refine .pure fun ρ₃ h₃ => ?_
    split
    · exact .none
    · next hg => exact .some ⟨hxy.val.mono h₃, fun _ => Bool.not_eq_true _ ▸ hg⟩
  | _ => exact .pure fun _ _ => .none

lemma load_inStep (ptr : Ref) : InStep M ρ Same (load ptr span) (load ptr span') := by
  refine .bindSame (pointee_inStep hM hs ptr) fun (elem, isConst) => ?_
  exact .bindTwins? (loadKnown?_inStep hM hs ptr) (fun _ _ _ _ hv => constant_inStep hM hs elem hv)
    (emitRuntime_inStep hM hs (by simp) elem)

lemma addressOf_inStep (operand : Ref) : InStep M ρ Same (addressOf operand span) (addressOf operand span') := by
  refine .bindSame (tyOf_inStep operand) fun ty => ?_
  exact .bindTwins? (valueOf?_inStep operand) (fun _ _ _ _ hv => newSlot_inStep hM hs _ ty hv)
    (emitRuntime_inStep hM hs (by simp) _)

end Frontend.Analysis
