import Mathlib.Order.Nat
import Frontend.Analysis.Body

/-! What evaluation writes. The relation has one constructor for each thing that a step of evaluation can do to its
state, with all that is known where it is done; growth of the arena, typing and layout of the code are read off it. -/

namespace Frontend

namespace Typed

def InstKind.operands : InstKind → List Ref
  | .unary _ r | .cond r _ _ | .switch r _ _ => [r]
  | .binary _ l r => [l, r]
  | .br _ operand => operand.toList
  | .call f args => f :: args
  | _ => []

def InstKind.isPlain : InstKind → Bool
  | .const _ | .cond .. | .block _ | .loop _ | .switch .. => false
  | _ => true

def InstKind.isRead : InstKind → Bool
  | .arg _ | .unary .load _ => true
  | _ => false

/-- Whether control does not go past the instruction. That a parameter or a cell is of a type without values does not
stop it. -/
def Inst.stops (i : Inst) : Bool := i.isNoReturn && !i.kind.isRead

def Inst.WellTyped (a : Arena) (ret : Ty) (i : Inst) : Prop :=
  match i.kind with
  | .binary (.arith _) l r => a.ty l = i.ty ∧ a.ty r = i.ty
  | .binary (.cmp _) l r => a.ty l = a.ty r
  | .binary .boolAnd l r | .binary .boolOr l r => a.ty l = .bool ∧ a.ty r = .bool
  | .binary .store ptr v => ∃ z, a.ty ptr = .pointer .one false z (a.ty v)
  | .unary .load ptr => ∃ isConst z, a.ty ptr = .pointer .one isConst z i.ty
  | .unary .negate r => a.ty r = i.ty
  | .unary .not r => a.ty r = .bool
  | .unary .intCast r => ∃ src dest, a.ty r = .int src ∧ i.ty = .int dest ∧ ∀ v, src.fits v = true → dest.fits v = true
  | .unary .floatCast r => ∃ src dest, a.ty r = .float src ∧ i.ty = .float dest ∧ src.bits ≤ dest.bits
  | .unary .wrapOptional r => i.ty = .optional (a.ty r)
  | .unary .ret r => a.ty r = ret
  | .nullary .retVoid => ret = .void
  | .cond test _ _ => a.ty test = .bool
  | .call f args => ∃ params result cc, a.ty f = .function params result cc ∧ args.map a.ty = params ∧ i.ty = result
  | .br block (some r) => a.ty r = a.ty block
  | .br block none => a.ty block = .void
  | _ => True

namespace Arena
variable {a a' a'' : Arena} {r x : Ref} {i : Inst} {body : List Ref}

def Holds (a : Arena) (r : Ref) (ty : Ty) (v : Value) : Prop := ∃ src, a.insts[r]? = some ⟨.const v, ty, src⟩

def Extends (a a' : Arena) : Prop := ∀ (r : Ref) i, a.insts[r]? = some i → a'.insts[r]? = some i

lemma inst_of_insts (h : a.insts[r]? = some i) : a.inst r = i := by simp [inst, h]

lemma exists_insts (h : r < a.size) : a.insts[r]? = some (a.inst r) := by
  have h : r < a.insts.size := h
  simp [inst, Array.getElem?_eq_getElem h]

lemma lt_size_of_insts (h : a.insts[r]? = some i) : r < a.size := (Array.getElem?_eq_some_iff.1 h).1

variable {ty : Ty} {v : Value} {b : List Ref} {src : Span}

lemma holds_of_value (hr : r < a.size) (hv : a.value? r = some v) : a.Holds r (a.ty r) v := by
  have hi := exists_insts hr
  refine ⟨(a.inst r).src, ?_⟩
  rw [hi]
  have hk : (a.inst r).kind = .const v := by
    unfold value? Inst.value? at hv
    split at hv
    · next w hw => rw [hw, Option.some.inj hv]
    · cases hv
  rw [← hk]
  rfl

lemma Extends.refl (a : Arena) : a.Extends a := fun _ _ h => h

section

variable (h : a.Extends a')
include h

lemma Extends.trans (h' : a'.Extends a'') : a.Extends a'' := fun r i hi => h' r i (h r i hi)

lemma Extends.size_le : a.size ≤ a'.size := by
  by_contra hlt
  have hlt : a'.size < a.size := by omega
  exact absurd (lt_size_of_insts (h _ _ (exists_insts hlt))) (Nat.lt_irrefl _)

lemma Extends.inst_eq (hr : r < a.size) : a'.inst r = a.inst r :=
  inst_of_insts (h r _ (exists_insts hr))

lemma Extends.ty_eq (hr : r < a.size) : a'.ty r = a.ty r := congrArg Inst.ty (h.inst_eq hr)

lemma Extends.value?_eq (hr : r < a.size) : a'.value? r = a.value? r :=
  congrArg Inst.value? (h.inst_eq hr)

lemma Extends.holds (hv : a.Holds r ty v) : a'.Holds r ty v := by
  obtain ⟨src, hv⟩ := hv
  exact ⟨src, h r _ hv⟩

end

lemma extends_push (a : Arena) (i : Inst) : a.Extends (a.push i) := by
  intro r j hj
  have hr : r < a.insts.size := lt_size_of_insts hj
  simp only [push, Array.getElem?_push, if_neg hr.ne]
  exact hj

@[simp] lemma size_push (a : Arena) (i : Inst) : (a.push i).size = a.size + 1 := by simp [push, size]

lemma insts_push_size (a : Arena) (i : Inst) : (a.push i).insts[a.size]? = some i := by simp [push, size]

@[simp] lemma inst_push_size (a : Arena) (i : Inst) : (a.push i).inst a.size = i := inst_of_insts (a.insts_push_size i)

/-! Filling a body. -/

@[simp] lemma size_setBody : (a.setBody r body).size = a.size := by simp [setBody, modify, size]

lemma insts_setBody_of_ne (h : x ≠ r) : (a.setBody r body).insts[x]? = a.insts[x]? := by
  simp only [setBody, modify, Array.getElem?_modify]
  rw [if_neg h.symm]

lemma insts_setBody_block (h : a.insts[r]? = some ⟨.block b, ty, src⟩) :
    (a.setBody r body).insts[r]? = some ⟨.block body, ty, src⟩ := by
  simp [setBody, modify, Array.getElem?_modify, h]

lemma insts_setBody_loop (h : a.insts[r]? = some ⟨.loop b, ty, src⟩) :
    (a.setBody r body).insts[r]? = some ⟨.loop body, ty, src⟩ := by
  simp [setBody, modify, Array.getElem?_modify, h]

@[simp] lemma ty_setBody : (a.setBody r body).ty x = a.ty x := by
  simp only [ty, inst, setBody, modify, Array.getElem?_modify]
  split
  · cases a.insts[x]? with
    | none => rfl
    | some i =>
      simp only [Option.map_some, Option.getD_some]
      split <;> rfl
  · rfl

@[simp] lemma value?_setBody : (a.setBody r body).value? x = a.value? x := by
  simp only [value?, inst, setBody, modify, Array.getElem?_modify]
  split
  · cases a.insts[x]? with
    | none => rfl
    | some i =>
      obtain ⟨kind, ty, src⟩ := i
      cases kind <;> rfl
  · rfl

end Arena

end Typed

namespace Analysis

open Typed (Arena InstKind)

namespace State

def add (s : State) (kind : InstKind) (ty : Ty) (src : Span) : State := { s with block := s.block.add kind ty src }

def addConst (s : State) (ty : Ty) (v : Value) (src : Span) : State := { s with block := s.block.addConst ty v src }

def enter (s : State) (comptime : Bool) : State := { s with block.insts := [], block.isComptime := comptime }

def leave (s outer : State) : State :=
  { s with block.insts := outer.block.insts, block.isComptime := outer.block.isComptime }

def fill (s : State) (r : Ref) (body : List Ref) : State := { s with block.arena := s.block.arena.setBody r body }

def Open (s : State) : Prop := ∀ r ∈ s.block.insts, ∃ i, s.block.arena.insts[r]? = some i ∧ i.stops = false

def Closed (s : State) : Prop := ∃ r ∈ s.block.insts.getLast?, s.block.arena.ty r = .noReturn

end State

/-- Where code is written: the instructions before it in the bodies around, the blocks around, and what the function
returns. -/
structure Context where
  above : List Ref := []
  blocks : List Ref := []
  ret : Ty

namespace Context

def under (C : Context) (s : State) : Context := { C with above := C.above ++ s.block.insts }

def inside (C : Context) (s : State) : Context :=
  { C with above := C.above ++ s.block.insts, blocks := s.block.arena.size :: C.blocks }

/-- The instruction can be an operand: it is a constant, or comes before in the body or in one around. -/
def Sees (C : Context) (s : State) (r : Ref) : Prop :=
  r < s.block.arena.size ∧ ((s.block.arena.value? r).isSome = true ∨ r ∈ C.above ++ s.block.insts)

def Has (C : Context) (s : State) (ty : Ty) (r : Ref) : Prop := C.Sees s r ∧ s.block.arena.ty r = ty

end Context

inductive Origin (s : State) : Ty → Value → Prop
  | int (v : Int) : Origin s .comptimeInt (.int v)
  | float (f : Binary64) : Origin s .comptimeFloat (.float f)
  | text (t : String) : Origin s (.sliceOf (.unsigned 8) true) (textValue t)
  | bool (b : Bool) : Origin s .bool (.bool b)
  | null : Origin s .null .null
  | void : Origin s .void .void
  | type (t : Ty) : Origin s .type (.type t)
  | undefined (ty : Ty) : Origin s ty .undefined
  | nullOf (child : Ty) : Origin s (.optional child) .null
  | reinterpret {r src dest v} (hr : s.block.arena.Holds r src v) (h : Ty.reinterprets dest src = true) :
      Origin s dest v
  | wrap {r child v} (hr : s.block.arena.Holds r child v) : Origin s (.optional child) v
  | elements {r src dest v size len} (hr : s.block.arena.Holds r src v)
      (h : Ty.arrayPointer? dest src = some (size, len)) : Origin s dest (if size = .slice then .slice v len else v)
  | convert {r src dest v w} (hr : s.block.arena.Holds r src v) (h : Ty.convertsNumber dest src = true)
      (hw : convertNumber dest v = .ok w) : Origin s dest w
  | arith {op l r ty a b v} (ht : ty.isArithOperand = true) (hl : s.block.arena.Holds l ty a)
      (hr : s.block.arena.Holds r ty b) (hv : foldArith op ty a b = .ok v) : Origin s ty v
  | negate {r ty v w} (ht : ty.isArithOperand = true) (hr : s.block.arena.Holds r ty v)
      (hw : foldNegate ty v = .ok w) : Origin s ty w
  | compared {op n ty l r xs ys vs} (hl : s.block.arena.Holds l (.vector n ty) (.array xs))
      (hr : s.block.arena.Holds r (.vector n ty) (.array ys))
      (hv : ((xs.zip ys).mapM fun (x, y) => (Value.compare? op x y).map Value.bool) = some vs) :
      Origin s (.vector n .bool) (.array vs)
  | decl {d D v} (hD : s.engine.program.decl? d = some D) (hv : D.value = some v) (hg : v.val.isGlobal = false) :
      Origin s v.ty v.val
  | declRef {d D v} (isConst : Bool) (hD : s.engine.program.decl? d = some D) (hv : D.value = some v) :
      Origin s (.singlePtr v.ty isConst) (.declRef d)
  | slot {n ty v} (isConst : Bool) (h : s.slots[n]? = some ⟨ty, v⟩) : Origin s (.singlePtr ty isConst) (.comptimeSlot n)
  | loadSlot {r isConst z elem n tv} (hr : s.block.arena.Holds r (.pointer .one isConst z elem) (.comptimeSlot n))
      (h : s.slots[n]? = some tv) : Origin s elem tv.val
  | loadDecl {r isConst z elem d D v} (hr : s.block.arena.Holds r (.pointer .one isConst z elem) (.declRef d))
      (hD : s.engine.program.decl? d = some D) (hv : D.value = some v) (hg : v.val.isGlobal = false) :
      Origin s elem v.val
  | array {len z child vs} (hl : vs.length = len) (hv : ∀ v ∈ vs, ∃ r, s.block.arena.Holds r child v) :
      Origin s (.array len z child) (.array vs)

/-- What evaluation in the context makes of its state, where steps of the engine are in `G`. -/
inductive Writes (G : Engine → Engine → Prop) : Context → State → State → Prop
  | refl {C s} : Writes G C s s
  | trans {C s s' s''} (h : Writes G C s s') (h' : Writes G C s' s'') : Writes G C s s''
  | engine {C s e} (h : G s.engine e) : Writes G C s { s with engine := e }
  | results {C s} (results : Dict Ref Ref) : Writes G C s { s with results }
  | branches {C s} (branches : Nat) : Writes G C s { s with branches }
  | const {C s ty v} (h : Origin s ty v) (src : Span) : Writes G C s (s.addConst ty v src)
  | slot {C s r ty v} (h : s.block.arena.Holds r ty v) : Writes G C s { s with slots := s.slots.push ⟨ty, v⟩ }
  | store {C s ptr z ty n r v} (hp : s.block.arena.Holds ptr (.pointer .one false z ty) (.comptimeSlot n))
      (hv : s.block.arena.Holds r ty v) :
      Writes G C s { s with slots := s.slots.modify n ({ · with val := v }) }
  -- Code, which is written at run time only and where control can get.
  | inst {C s kind ty src} (hc : s.block.isComptime = false) (ho : s.Open) (hp : kind.isPlain = true)
      (hs : ∀ x ∈ kind.operands, C.Sees s x) (hb : ∀ b r, kind = .br b r → b ∈ C.blocks)
      (ht : Typed.Inst.WellTyped s.block.arena C.ret ⟨kind, ty, src⟩) : Writes G C s (s.add kind ty src)
  | cond {C s s₁ s₂ test} (ty : Ty) (src : Span) (hc : s.block.isComptime = false) (ho : s.Open)
      (hs : C.Has s .bool test) (h₁ : Writes G (C.under s) (s.enter false) s₁)
      (h₂ : Writes G (C.under s) ((s₁.leave s).enter false) s₂) :
      Writes G C s ((s₂.leave s).add (.cond test s₁.block.insts s₂.block.insts) ty src)
  | block {C s s₁ ty src} (hc : s.block.isComptime = false) (ho : s.Open)
      (h : Writes G (C.inside s) ((s.add (.block []) ty src).enter false) s₁) :
      Writes G C s ((s₁.leave (s.add (.block []) ty src)).fill s.block.arena.size s₁.block.insts)
  | loop {C s s₁ src} (hc : s.block.isComptime = false) (ho : s.Open)
      (h : Writes G (C.under s) ((s.add (.loop []) .noReturn src).enter false) s₁) :
      Writes G C s ((s₁.leave (s.add (.loop []) .noReturn src)).fill s.block.arena.size s₁.block.insts)
  -- What is run at compile time leaves no code.
  | child {C s s₁} (h : Writes G (C.under s) (s.enter true) s₁) : Writes G C s (s₁.leave s)

namespace Writes
variable {G : Engine → Engine → Prop} {C : Context} {s s' : State} {r : Ref} {ty : Ty} {v : Value}

lemma arena_extends (h : Writes G C s s') : s.block.arena.Extends s'.block.arena := by
  induction h with
  | refl | engine | results | branches | slot | store => exact .refl _
  | trans _ _ ih ih' => exact ih.trans ih'
  | const | inst => exact Arena.extends_push _ _
  | cond _ _ _ _ _ _ _ ih₁ ih₂ => exact (ih₁.trans ih₂).trans (Arena.extends_push _ _)
  | @block C s s₁ _ _ _ _ _ ih | @loop C s s₁ _ _ _ _ ih =>
    intro r i hi
    have hr : r ≠ s.block.arena.size := (Arena.lt_size_of_insts hi).ne
    exact (Arena.insts_setBody_of_ne hr).trans (ih r i (Arena.extends_push _ _ r i hi))
  | child _ ih => exact ih

lemma isComptime_eq (h : Writes G C s s') : s'.block.isComptime = s.block.isComptime := by
  induction h with
  | trans _ _ ih ih' => exact ih'.trans ih
  | _ => rfl

lemma insts_prefix (h : Writes G C s s') : ∃ new, s'.block.insts = s.block.insts ++ new := by
  induction h with
  | trans _ _ ih ih' =>
    obtain ⟨new, h⟩ := ih
    obtain ⟨new', h'⟩ := ih'
    exact ⟨new ++ new', by rw [h', h, List.append_assoc]⟩
  | inst | cond | block | loop => exact ⟨[_], rfl⟩
  | _ => exact ⟨[], (List.append_nil _).symm⟩

lemma insts_eq (h : Writes G C s s') (hc : s.block.isComptime = true) : s'.block.insts = s.block.insts := by
  induction h with
  | trans h _ ih ih' => exact (ih' (h.isComptime_eq.trans hc)).trans (ih hc)
  | inst hr | cond _ _ hr | block hr | loop hr => cases hr.symm.trans hc
  | _ => rfl

lemma keep {J : Engine → Prop} (hJ : ∀ e e', J e → G e e' → J e') (h : Writes G C s s') (hs : J s.engine) :
    J s'.engine := by
  induction h with
  | trans _ _ ih ih' => exact ih' (ih hs)
  | engine h => exact hJ _ _ hs h
  | cond _ _ _ _ _ _ _ ih₁ ih₂ => exact ih₂ (ih₁ hs)
  | block _ _ _ ih | loop _ _ _ ih | child _ ih => exact ih hs
  | _ => exact hs

lemma size_le (h : Writes G C s s') : s.block.arena.size ≤ s'.block.arena.size := h.arena_extends.size_le

lemma sees (h : Writes G C s s') (hr : C.Sees s r) : C.Sees s' r := by
  obtain ⟨new, hn⟩ := h.insts_prefix
  refine ⟨hr.1.trans_le h.size_le, hr.2.imp (fun hv => ?_) fun hm => ?_⟩
  · rwa [h.arena_extends.value?_eq hr.1]
  · rw [hn, ← List.append_assoc]
    exact List.mem_append_left _ hm

lemma has (h : Writes G C s s') (hr : C.Has s ty r) : C.Has s' ty r :=
  ⟨h.sees hr.1, (h.arena_extends.ty_eq hr.1.1).trans hr.2⟩

lemma holds (h : Writes G C s s') (hr : s.block.arena.Holds r ty v) : s'.block.arena.Holds r ty v :=
  h.arena_extends.holds hr

end Writes

end Analysis

end Frontend
