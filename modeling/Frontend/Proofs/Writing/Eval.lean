import Frontend.Proofs.Scoping
import Frontend.Proofs.Writing.Operand

/-! What the walk through well-scoped code writes. -/

namespace Frontend.Analysis

open Typed (Arena InstKind)
open Untyped (Code)

variable {G : Engine → Engine → Prop} {C : Context} {site : Site} {s s' s'' : State} {α β : Type}

/-! The results of a call. -/

def Context.Resolves (C : Context) (s : State) (x : Ref) : Prop := ∀ i, s.results.get? x = some i → C.Sees s i

/-- The results of `dom` can be operands. From `lo` on there are results at compile time only, where code may be run
again, and they can be operands, too. -/
structure Settled (C : Context) (s : State) (lo : Nat) (dom : List Ref) : Prop where
  dom {x} : x ∈ dom → C.Resolves s x
  comptime {x i} : lo ≤ x → s.results.get? x = some i → s.block.isComptime = true
  rest {x} : lo ≤ x → C.Resolves s x

def Spares (lo hi : Nat) (s s' : State) : Prop := ∀ x, x < lo ∨ hi ≤ x → s'.results.get? x = s.results.get? x

structure Fits (C : Context) (s : State) (frame : Frame) : Prop where
  args {r} : r ∈ frame.args → C.Sees s r
  runtime : frame.kind = .runtime → frame.ret = C.ret
  inlined {target} : frame.kind = .inlined target →
    target ∈ C.blocks ∧ target < s.block.arena.size ∧ s.block.arena.ty target = frame.ret
  loop {leave again} : frame.loop = .emitted leave again →
    ∀ x ∈ [leave, again], x ∈ C.blocks ∧ x < s.block.arena.size ∧ s.block.arena.ty x = .void

structure Deeper (C C' : Context) (s s' : State) : Prop where
  sees {r} : C.Sees s r → C'.Sees s' r
  blocks {r} : r ∈ C.blocks → r ∈ C'.blocks
  ret : C'.ret = C.ret
  arena : s.block.arena.Extends s'.block.arena

variable {lo mid hi : Nat} {dom body : List Ref} {frame : Frame} {r x : Nat} {span : Span}

lemma Context.Resolves.mono (h : C.Resolves s x) (hw : Writes G C s s')
    (hr : s'.results.get? x = s.results.get? x) : C.Resolves s' x :=
  fun i hi => hw.sees (h i (hr ▸ hi))

lemma Context.Resolves.pass (h : C.Resolves s x) (hp : Passes G C s s') : C.Resolves s' x :=
  h.mono hp.writes (by rw [hp.results])

lemma Spares.refl (lo hi : Nat) (s : State) : Spares lo hi s s := fun _ _ => rfl

lemma Spares.trans (h : Spares lo hi s s') (h' : Spares lo hi s' s'') : Spares lo hi s s'' :=
  fun x hx => (h' x hx).trans (h x hx)

lemma Spares.widen {lo' hi' : Nat} (h : Spares lo hi s s') (hl : lo' ≤ lo) (hh : hi ≤ hi') : Spares lo' hi' s s' :=
  fun x hx => h x (by omega)

lemma Spares.ofEq (h : s'.results = s.results) : Spares lo hi s s' := fun _ _ => by rw [h]

namespace Settled

lemma mono (h : Settled C s lo dom) (hw : Writes G C s s') (hr : s'.results = s.results) : Settled C s' lo dom where
  dom hx := (h.dom hx).mono hw (by rw [hr])
  comptime hx hi := hw.isComptime_eq.trans (h.comptime hx (hr ▸ hi))
  rest hx := (h.rest hx).mono hw (by rw [hr])

lemma after (h : Settled C s lo dom) (hw : Writes G C s s') (hs : Spares lo hi s s') (hle : lo ≤ hi)
    (hd : ∀ x ∈ dom, x < lo) : Settled C s' hi dom where
  dom hx := (h.dom hx).mono hw (hs _ (.inl (hd _ hx)))
  comptime hx hi := by
    rw [hs _ (.inr hx)] at hi
    exact hw.isComptime_eq.trans (h.comptime (hle.trans hx) hi)
  rest hx := (h.rest (hle.trans hx)).mono hw (hs _ (.inr hx))

lemma get?_eq_none (h : Settled C s lo dom) (hc : s.block.isComptime = false) (hx : lo ≤ x) :
    s.results.get? x = none := by
  cases hi : s.results.get? x with
  | none => rfl
  | some i => cases (h.comptime hx hi).symm.trans hc

lemma start (hr : s.results = {}) : Settled C s lo [] where
  dom := nofun
  comptime _ hi := by
    rw [hr] at hi
    cases hi
  rest _ i hi := by
    rw [hr] at hi
    cases hi

end Settled

namespace Fits

lemma mono (h : Fits C s frame) (hw : Writes G C s s') : Fits C s' frame where
  args hr := hw.sees (h.args hr)
  runtime := h.runtime
  inlined hk := by
    obtain ⟨hb, hl, ht⟩ := h.inlined hk
    exact ⟨hb, hl.trans_le hw.size_le, (hw.arena_extends.ty_eq hl).trans ht⟩
  loop hk x hx := by
    obtain ⟨hb, hl, ht⟩ := h.loop hk x hx
    exact ⟨hb, hl.trans_le hw.size_le, (hw.arena_extends.ty_eq hl).trans ht⟩

end Fits

/-! Bodies inside others. -/

namespace Deeper
variable {C' : Context}

lemma under (h : s.block.arena.Extends s'.block.arena) (comptime : Bool) :
    Deeper C (C.under s) s ((s'.leave s).enter comptime) where
  sees hr := by
    refine ⟨hr.1.trans_le h.size_le, hr.2.imp (fun hv => ?_) fun hm => ?_⟩
    · rwa [← h.value?_eq hr.1] at hv
    · change _ ∈ C.above ++ s.block.insts ++ []
      rwa [List.append_nil]
  blocks hr := hr
  ret := rfl
  arena := h

lemma enter (C : Context) (s : State) (comptime : Bool) : Deeper C (C.under s) s (s.enter comptime) :=
  under (.refl s.block.arena) comptime

lemma add (ha : C'.above = C.above ++ s.block.insts) (hb : ∀ {r}, r ∈ C.blocks → r ∈ C'.blocks)
    (hr : C'.ret = C.ret) (kind : InstKind) (ty : Ty) (src : Span) :
    Deeper C C' s ((s.add kind ty src).enter false) where
  sees {r} hs := by
    have he := Arena.extends_push s.block.arena ⟨kind, ty, src⟩
    refine ⟨hs.1.trans_le he.size_le, hs.2.imp (fun h => ?_) fun h => ?_⟩
    · rwa [← he.value?_eq hs.1] at h
    · change _ ∈ C'.above ++ []
      rwa [List.append_nil, ha]
  blocks := hb
  ret := hr
  arena := Arena.extends_push _ _

lemma fits (h : Deeper C C' s s') (hf : Fits C s frame) : Fits C' s' frame where
  args hr := h.sees (hf.args hr)
  runtime hk := (hf.runtime hk).trans h.ret.symm
  inlined hk := by
    obtain ⟨hb, hl, ht⟩ := hf.inlined hk
    exact ⟨h.blocks hb, hl.trans_le h.arena.size_le, (h.arena.ty_eq hl).trans ht⟩
  loop hk x hx := by
    obtain ⟨hb, hl, ht⟩ := hf.loop hk x hx
    exact ⟨h.blocks hb, hl.trans_le h.arena.size_le, (h.arena.ty_eq hl).trans ht⟩

lemma settled (h : Deeper C C' s s') (hs : Settled C s lo dom) (hc : s.block.isComptime = false)
    (hsp : Spares lo mid s s') (hle : lo ≤ mid) (hd : ∀ x ∈ dom, x < lo) : Settled C' s' mid dom := by
  have ahead {x : Nat} (hx : mid ≤ x) : s'.results.get? x = none := by
    rw [hsp x (.inr hx)]
    exact hs.get?_eq_none hc (hle.trans hx)
  refine ⟨fun {x} hx i hi => ?_, fun {x i} hx hi => ?_, fun {x} hx i hi => ?_⟩
  · rw [hsp x (.inl (hd x hx))] at hi
    exact h.sees (hs.dom hx i hi)
  · cases (ahead hx).symm.trans hi
  · cases (ahead hx).symm.trans hi

end Deeper

lemma Context.Sees.leave (h : (C.under s).Sees s' r) (hw : Writes G (C.under s) (s.enter true) s') :
    C.Sees (s'.leave s) r := by
  have hi := hw.insts_eq rfl
  refine ⟨h.1, h.2.imp_right fun hm => ?_⟩
  rw [hi] at hm
  change r ∈ C.above ++ s.block.insts ++ [] at hm
  rwa [List.append_nil] at hm

/-! Walks. -/

structure Ran (G : Engine → Engine → Prop) (C : Context) (ret : Ty) (lo : Nat) (dom body : List Ref) (hi : Nat)
    (s : State) (flow : Flow) (s' : State) : Prop where
  writes : Writes G C s s'
  spares : Spares lo hi s s'
  isOpen : flow ≠ .noReturn → s'.Open
  closed : flow = .noReturn → s.block.isComptime = false ∧ s'.Closed
  value {i} : flow = .ret i → C.Has s' ret i
  settled : flow = .next → Settled C s' hi (dom ++ body)
  comptime : s.block.isComptime = true → Settled C s' lo dom
  last : flow ≠ .next → s.block.isComptime = false → ∀ x ∈ body.getLast?, s'.results.get? x = none
  empty : body = [] → flow = .next

structure Stepped (G : Engine → Engine → Prop) (C : Context) (ret : Ty) (lo : Nat) (dom : List Ref) (r : Ref)
    (s : State) (step : Step) (s' : State) : Prop where
  writes : Writes G C s s'
  spares : Spares lo r s s'
  isOpen : step ≠ .flow .noReturn → s'.Open
  closed : step = .flow .noReturn → s.block.isComptime = false ∧ s'.Closed
  result {i} : step = .value i → C.Sees s' i
  value {i} : step = .flow (.ret i) → C.Has s' ret i
  next : step ≠ .flow .next
  comptime : s.block.isComptime = true → Settled C s' lo dom

def Runs (G : Engine → Engine → Prop) (J : Engine → Prop) (site : Site) (run : BodyRunner) : Prop :=
  ∀ {C frame lo dom body hi s}, frame.code.Scoped lo dom body hi → (∀ x ∈ dom, x < lo) → Fits C s frame →
    Settled C s lo dom → s.Open → J s.engine →
    Does site (run frame body) s (Ran G C frame.ret lo dom body hi s)

def Steps (G : Engine → Engine → Prop) (J : Engine → Prop) (site : Site) (step : Frame → Ref → Analysis Step) : Prop :=
  ∀ {C frame lo dom r s}, frame.code.Scoped lo dom [r] (r + 1) → (∀ x ∈ dom, x < lo) → Fits C s frame →
    Settled C s lo dom → s.Open → J s.engine → Does site (step frame r) s (Stepped G C frame.ret lo dom r s)

section
variable {J : Engine → Prop} (hJ : ∀ e e', J e → G e e' → J e') {results : Dict Ref Ref} {rest : List Ref} {flow : Flow}

lemma Stepped.settled {step : Step} (h : Stepped G C frame.ret lo dom r s step s') (hs : Settled C s lo dom)
    (hd : ∀ x ∈ dom, x < lo) (hr : lo ≤ r) (hres : ∀ x, x ≠ r → results.get? x = s'.results.get? x)
    (hlast : C.Resolves { s' with results } r) : Settled C { s' with results } (r + 1) (dom ++ [r]) where
  dom {x} hx := by
    rcases List.mem_append.1 hx with hx | hx
    · have hlt := hd x hx
      have hget : results.get? x = s.results.get? x := by
        rw [hres x (hlt.trans_le hr).ne, h.spares x (.inl hlt)]
      exact fun i hi => h.writes.sees (hs.dom hx i (hget ▸ hi))
    · rwa [List.mem_singleton.1 hx]
  comptime {x i} hx hi := by
    have hget : results.get? x = s.results.get? x := by
      rw [hres x (Nat.lt_of_succ_le hx).ne', h.spares x (.inr (by omega))]
    exact h.writes.isComptime_eq.trans (hs.comptime (by omega) (hget ▸ hi))
  rest {x} hx i hi := by
    have hget : results.get? x = s.results.get? x := by
      rw [hres x (Nat.lt_of_succ_le hx).ne', h.spares x (.inr (by omega))]
    exact h.writes.sees (hs.rest (by omega) i (hget ▸ hi))

lemma Stepped.cons {step : Step} {t : State} (h : Stepped G C frame.ret lo dom r s step s') (hr : lo ≤ r)
    (hle : r + 1 ≤ hi) (hres : ∀ x, x ≠ r → results.get? x = s'.results.get? x)
    (hlast : C.Resolves { s' with results } r)
    (hran : Ran G C frame.ret (r + 1) (dom ++ [r]) rest hi { s' with results } flow t) :
    Ran G C frame.ret lo dom (r :: rest) hi s flow t where
  writes := h.writes.trans ((Writes.results results).trans hran.writes)
  spares x hx := by
    have hne : x ≠ r := by
      rintro rfl
      omega
    rw [hran.spares x (by omega)]
    change results.get? x = _
    rw [hres x hne, h.spares x (by omega)]
  isOpen := hran.isOpen
  closed hf := ⟨h.writes.isComptime_eq ▸ (hran.closed hf).1, (hran.closed hf).2⟩
  value := hran.value
  settled hf := by simpa using hran.settled hf
  comptime hc := by
    have hc' := hran.comptime (h.writes.isComptime_eq.trans hc)
    have hs := h.comptime hc
    have hw : Writes G C s' t := (Writes.results results).trans hran.writes
    refine ⟨fun {x} hx => hc'.dom (List.mem_append_left _ hx),
      fun _ _ => hw.isComptime_eq.trans (h.writes.isComptime_eq.trans hc), fun {x} hx => ?_⟩
    rcases Nat.lt_trichotomy x r with hlt | rfl | hlt
    · refine (hs.rest hx).mono hw ?_
      rw [hran.spares x (by omega)]
      exact hres x hlt.ne
    · exact hc'.dom (by simp)
    · exact hc'.rest hlt
  last hf hc x hx := by
    cases rest with
    | nil => exact absurd (hran.empty rfl) hf
    | cons y ys => exact hran.last hf (h.writes.isComptime_eq.trans hc) x (by simpa using hx)
  empty h := by cases h

lemma Stepped.leave (h : Stepped G C frame.ret lo dom r s (.flow flow) s') (hs : Settled C s lo dom)
    (hb : ∀ x ∈ r :: rest, lo ≤ x) (hr : ∀ x ∈ r :: rest, r ≤ x) (hle : r ≤ hi) :
    Ran G C frame.ret lo dom (r :: rest) hi s flow s' where
  writes := h.writes
  spares := h.spares.widen le_rfl hle
  isOpen hf := h.isOpen (by simpa using hf)
  closed hf := h.closed (by simpa using hf)
  value hf := h.value (by simpa using hf)
  settled hf := absurd (by rw [hf]) h.next
  comptime := h.comptime
  last _ hc x hx := by
    have hm := List.mem_of_getLast? hx
    rw [h.spares x (.inr (hr x hm))]
    exact hs.get?_eq_none hc (hb x hm)
  empty h := by cases h

include hJ in
lemma walk_runs {step : Frame → Ref → Analysis Step} (hstep : Steps G J site step) :
    Runs G J site fun frame body => walk (step frame) body := by
  intro C frame lo dom body hi s hsc hd hf hs ho hj
  induction body generalizing lo dom s with
  | nil =>
    refine .pure ⟨.refl, .refl lo hi s, fun _ => ho, nofun, nofun, fun _ => ?_, fun _ => hs, nofun, fun _ => rfl⟩
    simpa using hs.after (.refl (G := G)) (.refl lo hi s) hsc.le hd
  | cons r rest ih =>
    obtain ⟨hone, hrest⟩ := hsc.uncons
    have hle := hsc.le_of_mem List.mem_cons_self
    have hd' : ∀ x ∈ dom ++ [r], x < r + 1 := by
      intro x hx
      rcases List.mem_append.1 hx with hx | hx
      · exact (hd x hx).trans_le (hle.trans (Nat.le_succ r))
      · exact List.mem_singleton.1 hx ▸ Nat.lt_succ_self r
    refine (hstep hone hd hf hs ho hj).bind fun st s₁ h₁ => ?_
    have hj₁ := h₁.writes.keep hJ hj
    cases st with
    | value i =>
      have hres (x : Ref) (hx : x ≠ r) : (s₁.results.insert r i).get? x = s₁.results.get? x := by
        rw [Dict.get?_insert, if_neg hx.symm]
      have hlast : C.Resolves { s₁ with results := s₁.results.insert r i } r := by
        intro j hj
        change (s₁.results.insert r i).get? r = some j at hj
        rw [Dict.get?_insert, if_pos rfl] at hj
        exact Option.some.inj hj ▸ h₁.result rfl
      have hset := h₁.settled hs hd hle hres hlast
      have hw : Writes G C s { s₁ with results := s₁.results.insert r i } := h₁.writes.trans (.results _)
      exact (ih hrest hd' (hf.mono hw) hset (h₁.isOpen nofun) hj₁).mono fun _ _ h => h₁.cons hle hrest.le hres hlast h
    | done =>
      have hlast : C.Resolves s₁ r := (hs.rest hle).mono h₁.writes (h₁.spares r (.inr le_rfl))
      have hset := h₁.settled hs hd hle (fun _ _ => rfl) hlast
      exact (ih hrest hd' (hf.mono h₁.writes) hset (h₁.isOpen nofun) hj₁).mono fun _ _ h =>
        h₁.cons hle hrest.le (fun _ _ => rfl) hlast h
    | flow f =>
      refine .pure (h₁.leave hs (fun x hx => hsc.le_of_mem hx) (fun x hx => ?_) ((Nat.le_succ r).trans hrest.le))
      rcases List.mem_cons.1 hx with rfl | hx
      · exact le_rfl
      · exact (Nat.le_succ r).trans (hrest.le_of_mem hx)

end

/-! Instructions without bodies. -/

variable {Q : α → State → Prop} {R : β → State → Prop} {ty : Ty} {ensure : DeclId → EngineM Unit} {f : Ref → Analysis β}
  {o operand : Option Ref} {inst : Untyped.Inst} {flow : Flow}

lemma Does.resolve (h : ∀ i, s.results.get? x = some i → Does site (f i) s R) :
    Does site (Analysis.resolve frame x >>= f) s R := by
  unfold Analysis.resolve
  refine .getThen ?_
  split
  · next i hi => exact h i hi
  · exact .failThen

lemma Emits.resolve (hr : C.Resolves s x) (h : ∀ i, C.Sees s i → Emits G C site (f i) s R) :
    Emits G C site (Analysis.resolve frame x >>= f) s R :=
  fun ho => Does.resolve fun i hi => h i (hr i hi) ho

lemma asType_emits {i : Ref} : Emits G C site (asType i span) s fun _ s' => s' = s := by
  refine .valueOf? ?_
  split
  · exact .pure rfl
  · exact .tyOf .fail

lemma Emits.resolveType {f : Ty → Analysis β} (hr : C.Resolves s x) (h : ∀ t, Emits G C site (f t) s R) :
    Emits G C site (Analysis.resolveType frame x >>= f) s R := by
  refine Emits.bind (Q := fun _ s' => s' = s) ?_ fun t s' _ hs => hs ▸ h t
  exact .resolve hr fun i hi => asType_emits

lemma resolveInt_emits (hr : C.Resolves s x) :
    Emits G C site (resolveInt frame ty x) s fun _ _ => True := by
  refine .resolve hr fun i hi => (coerce_emits ty hi).bind fun i s₁ _ _ => .comptime fun v _ => ?_
  split
  · exact .pure trivial
  · exact .fail

lemma resolveInt?_emits (hr : ∀ x ∈ o, C.Resolves s x) :
    Emits G C site (resolveInt? frame ty o) s fun _ _ => True := by
  cases o with
  | none => exact .pure trivial
  | some x => exact (resolveInt_emits (hr x rfl)).bind fun _ _ _ _ => .pure trivial

lemma elements_emits {child : Ty} (xs : List Ref) (hr : ∀ x ∈ xs, C.Resolves s x) :
    Emits G C site (elements frame child xs) s fun vs s' =>
      vs.length = xs.length ∧ ∀ v ∈ vs, ∃ r, s'.block.arena.Holds r child v := by
  induction xs generalizing s with
  | nil => exact .pure ⟨rfl, nofun⟩
  | cons x xs ih =>
    refine .resolve (hr x (by simp)) fun i hi => (coerce_emits child hi).bind fun i s₁ h₁ hi => .comptime fun v hv => ?_
    refine (ih fun y hy => (hr y (by simp [hy])).pass h₁).bind fun vs s₂ h₂ ⟨hl, hv'⟩ => .pure ⟨by simp [hl], ?_⟩
    intro w hw
    rcases List.mem_cons.1 hw with rfl | hw
    · exact ⟨i, h₂.writes.holds (hi.2 ▸ hi.1.holds hv)⟩
    · exact hv' w hw

lemma arrayInit_emits {elems : List Ref} (ht : C.Resolves s x) (hr : ∀ x ∈ elems, C.Resolves s x) :
    Emits G C site (arrayInit frame x elems span) s fun i s' => C.Sees s' i := by
  refine .resolveType ht fun t => ?_
  split
  · next len z child =>
    refine .guard fun hl => ?_
    refine (elements_emits elems hr).bind fun vs s₁ _ ⟨hn, hv⟩ => .knownSeen (.array ?_ hv)
    exact hn.trans (by simpa using hl)
  · exact .fail

lemma resolveTypes_emits (xs : List Ref) (hr : ∀ x ∈ xs, C.Resolves s x) :
    Emits G C site (resolveTypes frame xs) s fun _ s' => s' = s := by
  induction xs with
  | nil => exact .pure rfl
  | cons x xs ih =>
    refine .resolveType (hr x (by simp)) fun t => ?_
    exact (ih fun y hy => hr y (by simp [hy])).bind fun _ _ _ hs => .pure hs

attribute [local simp] Untyped.Inst.operands

lemma valueInst_emits (hG : Grounds site ensure G) (ha : ∀ r ∈ frame.args, C.Sees s r)
    (hr : ∀ x ∈ inst.operands, C.Resolves s x) :
    Emits G C site (valueInst ensure frame span inst) s fun i s' => C.Sees s' i := by
  cases inst with
  | int v => exact .knownSeen (.int v)
  | float f => exact .knownSeen (.float f)
  | str t => exact .knownSeen (.text t)
  | bool b => exact .knownSeen (.bool b)
  | null => exact .knownSeen .null
  | undefined => exact .knownSeen (.undefined _)
  | primitive t => exact .knownSeen (.type t)
  | declVal name => exact declVal_emits hG
  | declRef name => exact declRef_emits hG
  | arg i =>
    unfold valueInst
    dsimp only
    split
    · next r hi => exact .pure (ha r (List.mem_of_getElem? hi))
    · exact .fail
  | alloc t init =>
    refine .resolve (hr init (by simp)) fun i hi => ?_
    cases t with
    | none => exact .tyOf (alloc_emits hi)
    | some t => exact .resolveType (hr t (by simp)) fun _ => alloc_emits hi
  | load ptr => exact .resolve (hr ptr (by simp)) fun i hi => load_emits hi
  | addressOf x => exact .resolve (hr x (by simp)) fun i hi => addressOf_emits hi
  | arith op l r =>
    refine .resolve (hr l (by simp)) fun i hi => ?_
    exact .resolve (hr r (by simp)) fun j hj => arith_emits hi hj
  | cmp op l r =>
    refine .resolve (hr l (by simp)) fun i hi => ?_
    exact .resolve (hr r (by simp)) fun j hj => compare_emits hi hj
  | boolOp isAnd l r =>
    refine .resolve (hr l (by simp)) fun i hi => ?_
    exact .resolve (hr r (by simp)) fun j hj => boolOp_emits hi hj
  | not x => exact .resolve (hr x (by simp)) fun i hi => not_emits hi
  | negate x => exact .resolve (hr x (by simp)) fun i hi => negate_emits hi
  | coerce t x =>
    refine .resolveType (hr t (by simp)) fun t => ?_
    refine .resolve (hr x (by simp)) fun i hi => ?_
    exact (coerce_emits t hi).mono fun _ _ _ h => h.1
  | ptrType size isConst sentinel child =>
    refine .resolveType (hr child (by simp)) fun t => ?_
    refine (resolveInt?_emits fun x hx => hr x ?_).bind fun _ _ _ _ => .knownSeen (.type _)
    exact List.mem_append_left _ (Option.mem_toList.2 hx)
  | arrayType len sentinel child =>
    refine (resolveInt_emits (hr len (by simp))).bind fun n s₁ h₁ _ => ?_
    refine .resolveType ((hr child (by simp)).pass h₁) fun t => ?_
    refine (resolveInt?_emits fun x hx => (hr x ?_).pass h₁).bind fun _ _ _ _ => .knownSeen (.type _)
    exact List.mem_cons_of_mem _ (List.mem_append_left _ (Option.mem_toList.2 hx))
  | optionalType child => exact .resolveType (hr child (by simp)) fun t => .knownSeen (.type _)
  | vectorType len child =>
    refine (resolveInt_emits (hr len (by simp))).bind fun n s₁ h₁ _ => ?_
    refine .resolveType ((hr child (by simp)).pass h₁) fun t => .guard fun _ => ?_
    exact .knownSeen (.type _)
  | fnType params result cc =>
    refine (resolveTypes_emits params fun x hx => hr x (by simp [hx])).bind fun ps s₁ h₁ hs => ?_
    subst hs
    exact .resolveType (hr result (by simp)) fun t => .knownSeen (.type _)
  | arrayInit t elems =>
    refine arrayInit_emits (hr t (by simp)) fun x hx => hr x ?_
    simp [hx]
  | _ => exact .knownSeen .void

/-! Leaving calls and loops. -/

structure Left (G : Engine → Engine → Prop) (C : Context) (ret : Ty) (s : State) (flow : Flow) (s' : State) : Prop where
  writes : Writes G C s s'
  results : s'.results = s.results
  isOpen : flow ≠ .noReturn → s'.Open
  closed : flow = .noReturn → s.block.isComptime = false ∧ s'.Closed
  value {i} : flow = .ret i → C.Has s' ret i
  next : flow ≠ .next

lemma Left.after {ret : Ty} (h : Left G C ret s' flow s'') (hp : Passes G C s s') : Left G C ret s flow s'' where
  writes := hp.writes.trans h.writes
  results := h.results.trans hp.results
  isOpen := h.isOpen
  closed hf := ⟨hp.isComptime_eq ▸ (h.closed hf).1, (h.closed hf).2⟩
  value := h.value
  next := h.next

lemma Left.stepped {ret : Ty} (h : Left G C ret s flow s') (hs : Settled C s lo dom) :
    Stepped G C ret lo dom r s (.flow flow) s' where
  writes := h.writes
  spares := .ofEq h.results
  isOpen hf := h.isOpen (by simpa using hf)
  closed hf := h.closed (by simpa using hf)
  result := nofun
  value hf := h.value (by simpa using hf)
  next hf := h.next (by simpa using hf)
  comptime _ := hs.mono h.writes h.results

lemma Passes.stepped {ret : Ty} {step : Step} (h : Passes G C s s') (hs : Settled C s lo dom)
    (hr : ∀ i, step = .value i → C.Sees s' i) (hf : ∀ f, step ≠ .flow f) : Stepped G C ret lo dom r s step s' where
  writes := h.writes
  spares := .ofEq h.results
  isOpen _ := h.isOpen
  closed h := absurd h (hf _)
  result hv := hr _ hv
  value h := absurd h (hf _)
  next := hf _
  comptime _ := hs.mono h.writes h.results

lemma emit_left {ret : Ty} {kind : InstKind} (hc : s.block.isComptime = false) (ho : s.Open)
    (hp : kind.isPlain = true) (hs : ∀ x ∈ kind.operands, C.Sees s x) (hb : ∀ b r, kind = .br b r → b ∈ C.blocks)
    (ht : Typed.Inst.WellTyped s.block.arena C.ret ⟨kind, .noReturn, span⟩)
    (hf : ∀ r s', Left G C ret s .noReturn s' → Does site (f r) s' R) :
    Does site (emit kind .noReturn span >>= f) s R := by
  refine Does.bind (Does.addWith (Q := fun _ s' => s' = s.add kind .noReturn span) rfl) fun r s' hs' => hf r s' ?_
  subst hs'
  refine ⟨.inst hc ho hp hs hb ht, rfl, fun h => absurd rfl h, fun _ => ⟨hc, s.block.arena.size, ?_, ?_⟩, nofun, nofun⟩
  · exact List.getLast?_concat ..
  · exact (Context.sees_add (C := C)).2

lemma retValue_emits (hr : ∀ x ∈ operand, C.Resolves s x) :
    Emits G C site (retValue frame operand span) s fun o s' =>
      (∀ i, o = some i → C.Has s' frame.ret i) ∧ (o = none → frame.ret = .void) := by
  cases operand with
  | none =>
    refine .ite (fun h => .pure ⟨nofun, fun _ => h⟩) fun _ => .fail
  | some x =>
    refine .resolve (hr x rfl) fun i hi => (coerce_emits frame.ret hi).bind fun i s₁ _ hi => .pure ⟨?_, nofun⟩
    intro j hj
    exact Option.some.inj hj ▸ hi

lemma leaveCall_left (hf : Fits C s frame) (ho : s.Open) (hv : ∀ i, o = some i → C.Has s frame.ret i)
    (hn : o = none → frame.ret = .void) : Does site (leaveCall frame.kind o span) s (Left G C frame.ret s) := by
  unfold leaveCall
  split
  · cases o with
    | some i =>
      refine .pure ⟨.refl, rfl, fun _ => ho, fun h => (by cases h), fun h => ?_, fun h => (by cases h)⟩
      cases h
      exact hv i rfl
    | none =>
      refine Does.bind (Emits.known (G := G) (C := C) .void ho) fun i s₁ h₁ => ?_
      obtain ⟨hp, hi⟩ := h₁
      refine .pure ⟨hp.writes, hp.results, fun _ => hp.isOpen, fun h => (by cases h), fun h => ?_,
        fun h => (by cases h)⟩
      cases h
      exact (hn rfl).symm ▸ hi
  · next target hk =>
    obtain ⟨hb, hl, ht⟩ := hf.inlined hk
    refine .isComptime (.guard fun hc => emit_left (by simpa using hc) ho rfl ?_ ?_ ?_ fun _ _ h => .pure h)
    · intro x hx
      exact (hv x (Option.mem_toList.1 hx)).1
    · intro b r hbr
      cases hbr
      exact hb
    · cases o with
      | some i => exact (hv i rfl).2.trans ht.symm
      | none => exact ht.trans (hn rfl)
  · next hk =>
    refine .isComptime (.guard fun hc => emit_left (by simpa using hc) ho ?_ ?_ ?_ ?_ fun _ _ h => .pure h)
    · cases o <;> rfl
    · cases o with
      | none => simp [InstKind.operands]
      | some i => simpa [InstKind.operands] using (hv i rfl).1
    · intro b r hbr
      cases o <;> cases hbr
    · cases o with
      | none => exact (hf.runtime hk).symm.trans (hn rfl)
      | some i => exact (hv i rfl).2.trans (hf.runtime hk)

lemma ret_left (hf : Fits C s frame) (ho : s.Open) (hr : ∀ x ∈ operand, C.Resolves s x) :
    Does site (ret frame operand span) s (Left G C frame.ret s) :=
  (retValue_emits hr ho).bind fun _ _ ⟨hp, hv, hn⟩ =>
    (leaveCall_left (hf.mono hp.writes) hp.isOpen hv hn).mono fun _ _ h => h.after hp

lemma exitLoop_left {isLeave : Bool} (hf : Fits C s frame) (ho : s.Open) :
    Does site (exitLoop frame isLeave span) s (Left G C frame.ret s) := by
  unfold exitLoop
  split
  · refine .pure ⟨.refl, rfl, fun _ => ho, ?_, ?_, ?_⟩ <;> cases isLeave <;> nofun
  · next leave again hk =>
    have hx (x : Ref) (hx : x = if isLeave then leave else again) := hf.loop hk x (by cases isLeave <;> simp [hx])
    refine .isComptime (.guard fun hc => emit_left (by simpa using hc) ho rfl nofun ?_ (hx _ rfl).2.2 fun _ _ h =>
      .pure h)
    intro b r hb
    cases hb
    exact (hx _ rfl).1
  · exact .fail

lemma plainInst_steps (hG : Grounds site ensure G) (hf : Fits C s frame) (hr : ∀ x ∈ inst.operands, C.Resolves s x)
    (hs : Settled C s lo dom) (ho : s.Open) :
    Does site (plainInst ensure frame span inst) s (Stepped G C frame.ret lo dom r s) := by
  have value {inst : Untyped.Inst} (hr : ∀ x ∈ inst.operands, C.Resolves s x) :
      Does site (do return Step.value (← valueInst ensure frame span inst)) s (Stepped G C frame.ret lo dom r s) := by
    refine (valueInst_emits hG (fun _ => hf.args) hr ho).bind fun i s₁ ⟨hp, hi⟩ => .pure (hp.stepped hs ?_ nofun)
    intro j hj
    cases hj
    exact hi
  unfold plainInst
  split
  · next ptr v =>
    have hst : Emits G C site (do
        let p ← resolve frame ptr
        store p (← resolve frame v) span
        return Step.done) s fun st _ => st = .done := by
      refine .resolve (hr ptr (by simp)) fun p hp => ?_
      refine .resolve (hr v (by simp)) fun v hv => ?_
      exact (store_emits hp hv).bind fun _ _ _ _ => .pure rfl
    refine (hst ho).mono fun st s₁ ⟨hp, hst⟩ => ?_
    subst hst
    exact hp.stepped hs nofun nofun
  · next operand =>
    refine (ret_left hf ho fun x hx => hr x ?_).bind fun _ _ h => .pure (h.stepped hs)
    exact Option.mem_toList.2 hx
  · exact (exitLoop_left hf ho).bind fun _ _ h => .pure (h.stepped hs)
  · exact (exitLoop_left hf ho).bind fun _ _ h => .pure (h.stepped hs)
  · refine .isComptime (.guard fun hc => ?_)
    exact emit_left (by simpa using hc) ho rfl (by nofun) (by nofun) trivial fun _ _ h => .pure (h.stepped hs)
  · exact .fail
  · refine (exportNamed_emits hG ho).bind fun _ s₁ ⟨hp, _⟩ => .pure (hp.stepped hs nofun nofun)
  · refine .isComptime (.guard fun hc => ?_)
    have he : Emits G C site (emit (.nullary .breakpoint) .void span) s fun i s' => C.Sees s' i :=
      .emitted (by simpa using hc) rfl nofun nofun trivial rfl
    exact (he ho).bind fun _ s₁ ⟨hp, _⟩ => .pure (hp.stepped hs nofun nofun)
  · exact value hr

end Frontend.Analysis
