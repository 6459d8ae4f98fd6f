import Frontend.Proofs.Writing

/-! Values and their types. What evaluation makes of values that are of their types is of its own type again: the
constants that it writes as well as the contents of its slots. -/

namespace Frontend

structure Places where
  decl : DeclId → Option Ty
  slot : Nat → Option Ty := fun _ => none

namespace Places

def at? (L : Places) : Value → Option Ty
  | .declRef d => L.decl d
  | .comptimeSlot n => L.slot n
  | _ => none

structure Grows (L L' : Places) : Prop where
  decl {d ty} : L.decl d = some ty → L'.decl d = some ty
  slot {n ty} : L.slot n = some ty → L'.slot n = some ty

end Places

/-- The value is one of the type; an undefined one is of every type. -/
inductive Value.Inhabits (L : Places) : Value → Ty → Prop
  | undefined {ty} : Inhabits L .undefined ty
  | void : Inhabits L .void .void
  | null : Inhabits L .null .null
  | bool (b : Bool) : Inhabits L (.bool b) .bool
  | type (t : Ty) : Inhabits L (.type t) .type
  | int {info v} (h : info.fits v = true) : Inhabits L (.int v) (.int info)
  | comptimeInt (v : Int) : Inhabits L (.int v) .comptimeInt
  | float (width : FloatWidth) (f : Binary64) : Inhabits L (.float f) (.float width)
  | comptimeFloat (f : Binary64) : Inhabits L (.float f) .comptimeFloat
  | nullOf (child : Ty) : Inhabits L .null (.optional child)
  | payload {v child} (h : Inhabits L v child) : Inhabits L v (.optional child)
  | array {len z child vs} (hl : vs.length = len) (h : ∀ v ∈ vs, Inhabits L v child) :
      Inhabits L (.array vs) (.array len z child)
  | vector {len child vs} (hl : vs.length = len) (h : ∀ v ∈ vs, Inhabits L v child) :
      Inhabits L (.array vs) (.vector len child)
  | function {d params result cc} (h : L.decl d = some (.function params result cc)) :
      Inhabits L (.function d) (.function params result cc)
  | externalFn {d params result cc} (h : L.decl d = some (.function params result cc)) :
      Inhabits L (.externalFn d) (.function params result cc)
  | address {v isConst z child} (h : L.at? v = some child) : Inhabits L v (.pointer .one isConst z child)
  | first {v size isConst z len z' child} (hs : size = .many ∨ size = .c) (h : L.at? v = some (.array len z' child)) :
      Inhabits L v (.pointer size isConst z child)
  | slice {v isConst z len z' child} (h : L.at? v = some (.array len z' child)) :
      Inhabits L (.slice v len) (.pointer .slice isConst z child)
  | undefinedSlice {isConst z len child} : Inhabits L (.slice .undefined len) (.pointer .slice isConst z child)
  | literalSlice {vs isConst z len child} (hl : vs.length = len) (h : ∀ v ∈ vs, Inhabits L v child) :
      Inhabits L (.slice (.array vs) len) (.pointer .slice isConst z child)

mutual

def Value.hasSlot : Value → Bool
  | .comptimeSlot _ => true
  | .array vs => Value.anyHasSlot vs
  | .slice v _ => v.hasSlot
  | _ => false

def Value.anyHasSlot : List Value → Bool
  | [] => false
  | v :: vs => v.hasSlot || Value.anyHasSlot vs

end

lemma Value.hasSlot_of_mem {v : Value} : ∀ {vs : List Value}, v ∈ vs → Value.anyHasSlot vs = false → v.hasSlot = false
  | _ :: _, .head _, h => (Bool.or_eq_false_iff.1 h).1
  | _ :: _, .tail _ hv, h => hasSlot_of_mem hv (Bool.or_eq_false_iff.1 h).2

namespace Value.Inhabits
variable {L L' : Places} {v w : Value} {ty src dest : Ty}

lemma transport (h : Inhabits L v ty) (hd : ∀ {d ty}, L.decl d = some ty → L'.decl d = some ty)
    (hs : v.hasSlot = false ∨ ∀ {n ty}, L.slot n = some ty → L'.slot n = some ty) : Inhabits L' v ty := by
  have at? {v : Value} {t : Ty} (hs : v.hasSlot = false ∨ ∀ {n ty}, L.slot n = some ty → L'.slot n = some ty)
      (h : L.at? v = some t) : L'.at? v = some t := by
    cases v with
    | declRef d => exact hd h
    | comptimeSlot n =>
      obtain hs | hs := hs
      · cases hs
      · exact hs h
    | _ => cases h
  induction h with
  | undefined => exact .undefined
  | void => exact .void
  | null => exact .null
  | bool b => exact .bool b
  | type t => exact .type t
  | int h => exact .int h
  | comptimeInt v => exact .comptimeInt v
  | float width f => exact .float width f
  | comptimeFloat f => exact .comptimeFloat f
  | nullOf child => exact .nullOf child
  | payload _ ih => exact .payload (ih hs)
  | array hl _ ih => exact .array hl fun v hm => ih v hm (hs.imp_left (hasSlot_of_mem hm))
  | vector hl _ ih => exact .vector hl fun v hm => ih v hm (hs.imp_left (hasSlot_of_mem hm))
  | function h => exact .function (hd h)
  | externalFn h => exact .externalFn (hd h)
  | address h => exact .address (at? hs h)
  | first hp h => exact .first hp (at? hs h)
  | slice h => exact .slice (at? hs h)
  | undefinedSlice => exact .undefinedSlice
  | literalSlice hl _ ih => exact .literalSlice hl fun v hm => ih v hm (hs.imp_left (hasSlot_of_mem hm))

lemma mono (h : Inhabits L v ty) (hL : L.Grows L') : Inhabits L' v ty := h.transport hL.decl (.inr hL.slot)

/-! What conversion and folding make of values. -/

lemma reinterpret (h : Inhabits L v src) (hr : Ty.reinterprets dest src = true) : Inhabits L v dest := by
  have pointer {n n' : PtrSize} {c c' : Bool} {z z' : Option Int} {t t' : Ty} (hn : n = n') (ht : t = t')
      (h : Inhabits L v (.pointer n' c' z' t')) : Inhabits L v (.pointer n c z t) := by
    subst hn ht
    cases h with
    | undefined => exact .undefined
    | address h => exact .address h
    | first hs h => exact .first hs h
    | slice h => exact .slice h
    | undefinedSlice => exact .undefinedSlice
    | literalSlice hl h => exact .literalSlice hl h
  unfold Ty.reinterprets at hr
  split at hr
  · simp only [Bool.and_eq_true, decide_eq_true_eq] at hr
    exact pointer hr.1.1.1 hr.1.1.2 h
  · simp only [Bool.and_eq_true, decide_eq_true_eq] at hr
    cases h with
    | undefined => exact .undefined
    | nullOf => exact .nullOf _
    | payload h => exact .payload (pointer hr.1.1.1 hr.1.1.2 h)
  · cases hr

lemma elements {size : PtrSize} {len : Nat} (h : Inhabits L v src)
    (ha : Ty.arrayPointer? dest src = some (size, len)) :
    Inhabits L (if size = .slice then .slice v len else v) dest := by
  unfold Ty.arrayPointer? at ha
  split at ha
  · next n c z t c' z'' n' z' t' =>
    split at ha
    · next hc =>
      simp only [Bool.and_eq_true, decide_eq_true_eq] at hc
      obtain ⟨⟨⟨hn, rfl⟩, -⟩, -⟩ := hc
      cases ha
      have undefined : Inhabits L (if size = .slice then .slice .undefined len else .undefined)
          (.pointer size c z t') := by
        split
        · next hs =>
          subst hs
          exact .undefinedSlice
        · exact .undefined
      cases h with
      | undefined => exact undefined
      | first hs h => cases hs <;> contradiction
      | address h =>
        cases size with
        | one => exact absurd rfl hn
        | many => exact .first (.inl rfl) h
        | c => exact .first (.inr rfl) h
        | slice => exact .slice h
    · cases ha
  · cases ha

lemma fit {info : IntInfo} {n : Int} (h : convertNumber.fit dest info n = .ok w) : Inhabits L w (.int info) := by
  unfold convertNumber.fit at h
  split at h
  · next hf =>
    cases h
    exact .int hf
  · cases h

lemma convert (h : Inhabits L v src) (hc : Ty.convertsNumber dest src = true) (hw : convertNumber dest v = .ok w) :
    Inhabits L w dest := by
  unfold convertNumber at hw
  split at hw
  · next hu =>
    cases hw
    cases v <;> first | exact .undefined | cases hu
  · next hu =>
    split at hw
    · next info =>
      split at hw
      · exact fit hw
      · split at hw
        · cases hw
        · split at hw
          · exact fit hw
          · cases hw
      · cases hw
    · split at hw
      · split at hw
        · cases hw
        · split at hw <;> cases hw <;> exact .comptimeInt _
      · next hn =>
        cases hw
        have hs : src = .comptimeInt ∨ src = .comptimeFloat := by
          simpa [Ty.convertsNumber, Ty.isNumeric, Ty.isInt, Ty.isFloat] using hc
        rcases hs with rfl | rfl
        · exact h
        · cases h with
          | undefined => exact .undefined
          | comptimeFloat f => exact absurd rfl (hn f)
    · split at hw
      · cases hw
      · split at hw
        · cases hw
        · cases hw
          exact .float _ _
    · split at hw
      · cases hw
        exact .comptimeFloat _
      · next hn =>
        cases hw
        have hs : src = .comptimeInt ∨ src = .comptimeFloat := by
          simpa [Ty.convertsNumber, Ty.isNumeric, Ty.isInt, Ty.isFloat] using hc
        rcases hs with rfl | rfl
        · cases h with
          | undefined => exact .undefined
          | comptimeInt n => cases hn
        · exact h
    · next h₁ h₂ h₃ h₄ =>
      exfalso
      cases dest <;> simp_all [Ty.convertsNumber, Ty.isNumeric, Ty.isInt, Ty.isFloat]

lemma arith {op : ArithOp} {a b : Value} (ha : Inhabits L a ty) (hb : Inhabits L b ty) (ht : ty.isArithOperand = true)
    (hv : foldArith op ty a b = .ok v) : Inhabits L v ty := by
  unfold foldArith at hv
  split at hv
  · cases hv
  · next hu =>
    simp only [Bool.or_eq_true, not_or, Bool.not_eq_true] at hu
    split at hv
    · next m n =>
      split at hv
      · next k _ =>
        split at hv
        · next hf =>
          cases hv
          cases ha with
          | int _ => exact .int hf
          | comptimeInt => exact .comptimeInt k
          | payload => cases ht
          | address h | first _ h => cases h
        · cases hv
      · cases hv
    · next hn =>
      split at hv
      · cases hv
        cases ha with
        | undefined => cases hu.1
        | float => exact .float _ _
        | comptimeFloat => exact .comptimeFloat _
        | int _ =>
          cases hb with
          | undefined => cases hu.2
          | int => exact absurd rfl (hn _ _ rfl)
        | comptimeInt =>
          cases hb with
          | undefined => cases hu.2
          | comptimeInt => exact absurd rfl (hn _ _ rfl)
        | payload => cases ht
        | _ => contradiction
      · cases hv

lemma negate (h : Inhabits L v ty) (ht : ty.isArithOperand = true) (hw : foldNegate ty v = .ok w) :
    Inhabits L w ty := by
  unfold foldNegate at hw
  split at hw
  · split at hw
    · next hf =>
      cases hw
      have hf := (Bool.and_eq_true_iff.1 hf).2
      cases h with
      | int _ => exact .int hf
      | comptimeInt => exact .comptimeInt _
      | payload => cases ht
      | address h | first _ h => cases h
    · cases hw
  · cases hw
    cases h with
    | float => exact .float _ _
    | comptimeFloat => exact .comptimeFloat _
    | payload => cases ht
    | address h | first _ h => cases h
  · cases hw
  · cases hw

lemma text (t : String) : Inhabits L (Analysis.textValue t) (.sliceOf (.unsigned 8) true) := by
  refine .literalSlice (by simp) fun v hv => ?_
  obtain ⟨b, -, rfl⟩ := List.mem_map.1 hv
  refine .int ?_
  have hb := b.toNat_lt
  simp only [IntInfo.fits, Bool.false_eq_true, if_false, Bool.and_eq_true, decide_eq_true_eq]
  omega

lemma compared_elements {op : CmpOp} {pairs : List (Value × Value)} {vs : List Value}
    (hv : (pairs.mapM fun (x, y) => (Value.compare? op x y).map Value.bool) = some vs) :
    vs.length = pairs.length ∧ ∀ v ∈ vs, Inhabits L v .bool := by
  induction pairs generalizing vs with
  | nil =>
    cases hv
    exact ⟨rfl, nofun⟩
  | cons pair pairs ih =>
    rw [List.mapM_cons] at hv
    obtain ⟨b, hb, hv⟩ := Option.bind_eq_some_iff.1 hv
    obtain ⟨bs, hbs, hv⟩ := Option.bind_eq_some_iff.1 hv
    cases hv
    obtain ⟨hl, hall⟩ := ih hbs
    obtain ⟨x, -, rfl⟩ := Option.map_eq_some_iff.1 hb
    refine ⟨by simp [hl], fun v hv => ?_⟩
    rcases List.mem_cons.1 hv with rfl | hv
    · exact .bool x
    · exact hall v hv

lemma compared {op : CmpOp} {n : Nat} {xs ys vs : List Value} (hx : Inhabits L (.array xs) (.vector n ty))
    (hy : Inhabits L (.array ys) (.vector n ty))
    (hv : ((xs.zip ys).mapM fun (x, y) => (Value.compare? op x y).map Value.bool) = some vs) :
    Inhabits L (.array vs) (.vector n .bool) := by
  cases hx with
  | vector hx =>
    cases hy with
    | vector hy =>
      obtain ⟨hl, hall⟩ := compared_elements (L := L) hv
      refine .vector ?_ hall
      rw [hl, List.length_zip, hx, hy, Nat.min_self]

end Value.Inhabits

/-! Programs. -/

namespace Program

def places (p : Program) : Places := { decl := fun d => ((p.decl? d).bind (·.value)).map (·.ty) }

def Constant (p : Program) (d : DeclId) (v : DeclValue) : Prop :=
  ∃ D, p.decl? d = some D ∧ D.value = some v ∧ v.val.isGlobal = false

/-- A constant holds the address of a slot, which only the evaluation that made it has. -/
def Escapes (p : Program) : Prop := ∃ d v, p.Constant d v ∧ v.val.hasSlot = true

def Proper (p : Program) : Prop := ∀ d v, p.Constant d v → v.val.Inhabits p.places v.ty

lemma places_decl {p : Program} {d : DeclId} {D : Decl} {v : DeclValue} (hD : p.decl? d = some D)
    (hv : D.value = some v) : p.places.decl d = some v.ty := by simp [places, hD, hv]

end Program

/-! Evaluation. -/

namespace Typed.Arena
variable {a : Arena} {r : Ref}

lemma Holds.value?_eq {ty : Ty} {v : Value} (h : a.Holds r ty v) : a.value? r = some v := by
  obtain ⟨src, h⟩ := h
  rw [value?, inst_of_insts h]
  rfl

lemma Holds.ty_eq {ty : Ty} {v : Value} (h : a.Holds r ty v) : a.ty r = ty := by
  obtain ⟨src, h⟩ := h
  rw [Arena.ty, inst_of_insts h]

lemma inst_push (a : Arena) (i : Inst) (r : Ref) : (a.push i).inst r = if r = a.size then i else a.inst r := by
  by_cases hr : r = a.size
  · rw [if_pos hr, hr, inst_push_size]
  · have hr' : r ≠ a.insts.size := hr
    rw [if_neg hr, inst, inst, push, Array.getElem?_push, if_neg hr']

end Typed.Arena

namespace Analysis

open Typed (Arena InstKind)

def State.places (s : State) : Places :=
  { s.engine.program.places with slot := fun n => (s.slots[n]?).map (·.ty) }

structure State.Proper (s : State) : Prop where
  consts {r v} : s.block.arena.value? r = some v → v.Inhabits s.places (s.block.arena.ty r)
  slots {n : Nat} {tv : TypedValue} : s.slots[n]? = some tv → tv.val.Inhabits s.places tv.ty

namespace State.Proper
variable {s : State} {r : Ref} {ty : Ty} {v : Value}

variable (h : s.Proper)
include h

lemma holds (hr : s.block.arena.Holds r ty v) : v.Inhabits s.places ty :=
  hr.ty_eq ▸ h.consts hr.value?_eq

lemma push {i : Typed.Inst} {block : Typed.Block} (hb : block.arena = s.block.arena.push i)
    (hi : ∀ v, i.value? = some v → v.Inhabits s.places i.ty) : State.Proper { s with block } := by
  refine ⟨fun {r w} hr => ?_, h.slots⟩
  change (block.arena.inst r).value? = some w at hr
  change w.Inhabits s.places (block.arena.inst r).ty
  rw [hb, Arena.inst_push] at hr ⊢
  by_cases hs : r = s.block.arena.size
  · rw [if_pos hs] at hr ⊢
    exact hi w hr
  · rw [if_neg hs] at hr ⊢
    exact h.consts hr

lemma addConst (hv : v.Inhabits s.places ty) (src : Span) : (s.addConst ty v src).Proper := by
  refine h.push rfl fun w hw => ?_
  cases hw
  exact hv

lemma add {kind : InstKind} (hk : ∀ v, kind ≠ .const v) (ty : Ty) (src : Span) : (s.add kind ty src).Proper := by
  refine h.push rfl fun w hw => ?_
  cases kind with
  | const v => exact absurd rfl (hk v)
  | _ => cases hw

lemma enter (comptime : Bool) : (s.enter comptime).Proper := ⟨h.consts, h.slots⟩

lemma leave (outer : State) : (s.leave outer).Proper := ⟨h.consts, h.slots⟩

lemma fill (r : Ref) (body : List Ref) : (s.fill r body).Proper := by
  refine ⟨fun {x w} hx => ?_, h.slots⟩
  change (s.block.arena.setBody r body).value? x = some w at hx
  change w.Inhabits s.places ((s.block.arena.setBody r body).ty x)
  rw [Arena.value?_setBody] at hx
  rw [Arena.ty_setBody]
  exact h.consts hx

lemma grow {s' : State} (hb : s'.block.arena = s.block.arena) (hs : s'.slots = s.slots)
    (hp : s.engine.program.places.Grows s'.engine.program.places) : s'.Proper := by
  have hL : s.places.Grows s'.places := ⟨hp.decl, fun hn => by rwa [State.places, hs]⟩
  refine ⟨fun {r v} hr => ?_, fun {n tv} hn => ?_⟩
  · rw [hb] at hr ⊢
    exact (h.consts hr).mono hL
  · rw [hs] at hn
    exact (h.slots hn).mono hL

lemma pushSlot (hv : v.Inhabits s.places ty) : State.Proper { s with slots := s.slots.push ⟨ty, v⟩ } := by
  have hL : s.places.Grows (State.places { s with slots := s.slots.push ⟨ty, v⟩ }) := by
    refine ⟨fun hd => hd, fun {n t} hn => ?_⟩
    obtain ⟨tv, htv, rfl⟩ := Option.map_eq_some_iff.1 hn
    have hlt := (Array.getElem?_eq_some_iff.1 htv).1
    change ((s.slots.push ⟨ty, v⟩)[n]?).map (·.ty) = some tv.ty
    rw [Array.getElem?_push, if_neg hlt.ne, htv]
    rfl
  refine ⟨fun hr => (h.consts hr).mono hL, fun {n tv} hn => ?_⟩
  change (s.slots.push ⟨ty, v⟩)[n]? = some tv at hn
  rw [Array.getElem?_push] at hn
  split at hn
  · cases hn
    exact hv.mono hL
  · exact (h.slots hn).mono hL

lemma storeSlot {n : Nat} (hn : s.places.slot n = some ty) (hv : v.Inhabits s.places ty) :
    State.Proper { s with slots := s.slots.modify n ({ · with val := v }) } := by
  have hL : s.places.Grows (State.places { s with slots := s.slots.modify n ({ · with val := v }) }) := by
    refine ⟨fun hd => hd, fun {m t} hm => ?_⟩
    obtain ⟨tv, htv, rfl⟩ := Option.map_eq_some_iff.1 hm
    change ((s.slots.modify n ({ · with val := v }))[m]?).map (·.ty) = some tv.ty
    rw [Array.getElem?_modify, htv]
    split <;> rfl
  refine ⟨fun hr => (h.consts hr).mono hL, fun {m tv} hm => ?_⟩
  change (s.slots.modify n ({ · with val := v }))[m]? = some tv at hm
  rw [Array.getElem?_modify] at hm
  split at hm
  · next hmn =>
    subst hmn
    obtain ⟨tv, htv, rfl⟩ := Option.map_eq_some_iff.1 hm
    change (s.slots[n]?).map (·.ty) = some ty at hn
    rw [htv] at hn
    cases hn
    exact hv.mono hL
  · exact (h.slots hm).mono hL

end State.Proper

lemma Origin.inhabits {s : State} {ty : Ty} {v : Value} (h : Origin s ty v) (hs : s.Proper)
    (hp : s.engine.program.Proper) : v.Inhabits s.places ty := by
  -- Constants of the program hold no slots, so that they are of their types here, too.
  have constant {d : DeclId} {D : Decl} {v : DeclValue} (hD : s.engine.program.decl? d = some D)
      (hv : D.value = some v) (hg : v.val.isGlobal = false) : v.val.Inhabits s.places v.ty :=
    (hp d v ⟨D, hD, hv, hg⟩).mono ⟨fun h => h, nofun⟩
  cases h with
  | int v => exact .comptimeInt v
  | float f => exact .comptimeFloat f
  | text t => exact .text t
  | bool b => exact .bool b
  | null => exact .null
  | void => exact .void
  | type t => exact .type t
  | undefined => exact .undefined
  | nullOf child => exact .nullOf child
  | reinterpret hr h => exact (hs.holds hr).reinterpret h
  | wrap hr => exact .payload (hs.holds hr)
  | elements hr h => exact (hs.holds hr).elements h
  | convert hr hc hw => exact (hs.holds hr).convert hc hw
  | arith ht hl hr hv => exact (hs.holds hl).arith (hs.holds hr) ht hv
  | negate ht hr hw => exact (hs.holds hr).negate ht hw
  | compared hl hr hv => exact (hs.holds hl).compared (hs.holds hr) hv
  | decl hD hv hg => exact constant hD hv hg
  | declRef isConst hD hv => exact .address (Program.places_decl hD hv)
  | @slot n t w isConst h =>
    refine .address ?_
    change (s.slots[n]?).map (·.ty) = some t
    rw [h]
    rfl
  | @loadSlot r isConst z elem n tv hr h =>
    cases hs.holds hr with
    | address ha =>
      change (s.slots[n]?).map (·.ty) = some ty at ha
      rw [h] at ha
      cases ha
      exact hs.slots h
    | first hsize => cases hsize <;> contradiction
  | loadDecl hr hD hv hg =>
    cases hs.holds hr with
    | address ha =>
      cases (Program.places_decl hD hv).symm.trans ha
      exact constant hD hv hg
    | first hsize => cases hsize <;> contradiction
  | array hl hv =>
    refine .array hl fun w hw => ?_
    obtain ⟨r, hr⟩ := hv w hw
    exact hs.holds hr

lemma Writes.proper {G : Engine → Engine → Prop} {J : Engine → Prop} (hJ : ∀ e e', J e → G e e' → J e')
    (hgrows : ∀ e e', J e → G e e' → e.program.places.Grows e'.program.places)
    (hescapes : ∀ e e', J e → G e e' → e.program.Escapes → e'.program.Escapes)
    (hproper : ∀ e, J e → ¬ e.program.Escapes → e.program.Proper) {C : Context} {s s' : State} (h : Writes G C s s')
    (hj : J s.engine) (hn : ¬ s'.engine.program.Escapes) (hs : s.Proper) : s'.Proper := by
  have before {C : Context} {s s' : State} (h : Writes G C s s') (hj : J s.engine)
      (hn : ¬ s'.engine.program.Escapes) : ¬ s.engine.program.Escapes := by
    intro he
    have keep : ∀ e e', J e ∧ e.program.Escapes → G e e' → J e' ∧ e'.program.Escapes :=
      fun e e' ⟨hj, he⟩ hg => ⟨hJ e e' hj hg, hescapes e e' hj hg he⟩
    exact hn (h.keep keep ⟨hj, he⟩).2
  induction h with
  | refl => exact hs
  | trans h h' ih ih' => exact ih' (h.keep hJ hj) hn (ih hj (before h' (h.keep hJ hj) hn) hs)
  | engine h => exact hs.grow rfl rfl (hgrows _ _ hj h)
  | results | branches => exact ⟨hs.consts, hs.slots⟩
  | const h src => exact hs.addConst (h.inhabits hs (hproper _ hj hn)) src
  | slot h => exact hs.pushSlot (hs.holds h)
  | @store C s ptr z ty n r v hp hv =>
    cases hs.holds hp with
    | address ha => exact hs.storeSlot ha (hs.holds hv)
    | first hsize => cases hsize <;> contradiction
  | inst _ _ hp =>
    refine hs.add (fun v hk => ?_) _ _
    rw [hk] at hp
    cases hp
  | cond ty src _ _ _ h₁ h₂ ih₁ ih₂ =>
    have hj₁ := h₁.keep hJ hj
    have hn₁ := before h₂ hj₁ hn
    have hs₁ := ih₁ hj hn₁ (hs.enter false)
    have hs₂ := ih₂ hj₁ hn ((hs₁.leave _).enter false)
    exact (hs₂.leave _).add (by nofun) ty src
  | @block C s s₁ ty src _ _ h ih =>
    have hs₁ := ih hj hn ((hs.add (by nofun) ty src).enter false)
    exact (hs₁.leave _).fill _ _
  | @loop C s s₁ src _ _ h ih =>
    have hs₁ := ih hj hn ((hs.add (by nofun) .noReturn src).enter false)
    exact (hs₁.leave _).fill _ _
  | child h ih => exact (ih hj hn (hs.enter true)).leave _

end Analysis

end Frontend
