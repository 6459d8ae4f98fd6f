import Mathlib.Data.List.Nodup
import Frontend.Proofs.Writing

/-! What is written is valid code: every instruction is well typed, and bodies are laid out so that operands stand
before their uses, branches leave blocks around them, and nothing stands in two places. -/

namespace Frontend

namespace Typed

def InstKind.bodies : InstKind → List (List Ref)
  | .cond _ t e => [t, e]
  | .block b | .loop b => [b]
  | .switch _ cases e => cases.map Prod.snd ++ [e]
  | _ => []

inductive Arena.Nests (a : Arena) : (body : List Ref) → Ref → Prop
  | here {body r} (h : r ∈ body) : Nests a body r
  | inside {body r inner x} (hr : r ∈ body) (hi : inner ∈ (a.inst r).kind.bodies) (h : Nests a inner x) : Nests a body x

def Arena.Reaches (a : Arena) (above : List Ref) (x : Ref) : Prop := (∃ ty v, a.Holds x ty v) ∨ x ∈ above

/-- A body is laid out: inside `blocks`, with the instructions of `above` before it here and in the bodies around. All
the places that are taken are `listed`, those of the bodies inside too. -/
inductive Arena.Lays (a : Arena) : (blocks above body listed : List Ref) → Prop
  | nil {blocks above} : Lays a blocks above [] []
  | plain {blocks above r i rest listed} (hr : a.insts[r]? = some i) (hp : i.kind.isPlain = true)
      (ho : ∀ x ∈ i.kind.operands, a.Reaches above x) (hb : ∀ b x, i.kind = .br b x → b ∈ blocks)
      (hs : i.stops = true → rest = []) (h : Lays a blocks (above ++ [r]) rest listed) :
      Lays a blocks above (r :: rest) (r :: listed)
  | cond {blocks above r test t e ty src rest inner inner' listed} (hr : a.insts[r]? = some ⟨.cond test t e, ty, src⟩)
      (ho : a.Reaches above test) (ht : Lays a blocks above t inner) (he : Lays a blocks above e inner')
      (hs : ty = .noReturn → rest = []) (h : Lays a blocks (above ++ [r]) rest listed) :
      Lays a blocks above (r :: rest) (r :: (inner ++ inner' ++ listed))
  | block {blocks above r body ty src rest inner listed} (hr : a.insts[r]? = some ⟨.block body, ty, src⟩)
      (hi : Lays a (r :: blocks) above body inner) (hs : ty = .noReturn → rest = [])
      (h : Lays a blocks (above ++ [r]) rest listed) : Lays a blocks above (r :: rest) (r :: (inner ++ listed))
  | loop {blocks above r body src inner} (hr : a.insts[r]? = some ⟨.loop body, .noReturn, src⟩)
      (hi : Lays a blocks above body inner) : Lays a blocks above [r] (r :: inner)

structure Inst.Within (a : Arena) (i : Inst) : Prop where
  operands {x} : x ∈ i.kind.operands → x < a.size
  target {b x} : i.kind = .br b x → b < a.size

def Arena.TypedFrom (a : Arena) (lo : Nat) (ret : Ty) : Prop :=
  ∀ r i, lo ≤ r → a.insts[r]? = some i → i.Within a ∧ i.WellTyped a ret

section
variable {a a' : Arena} {i : Inst} {lo : Nat} {ret : Ty} {r : Ref} {body : List Ref}

lemma Inst.WellTyped.mono (h : i.WellTyped a ret) (hw : i.Within a) (he : ∀ x, x < a.size → a'.ty x = a.ty x) :
    i.WellTyped a' ret := by
  have hx {x : Ref} (hx : x ∈ i.kind.operands) : a'.ty x = a.ty x := he x (hw.operands hx)
  obtain ⟨kind, ty, src⟩ := i
  unfold WellTyped at h ⊢
  cases kind with
  | unary op x =>
    have hl : a'.ty x = a.ty x := hx (List.mem_singleton_self x)
    cases op <;> first | trivial | simpa only [hl] using h
  | binary op x y =>
    have hl : a'.ty x = a.ty x := hx List.mem_cons_self
    have hr : a'.ty y = a.ty y := hx (List.mem_cons_of_mem _ (List.mem_singleton_self y))
    cases op <;> simpa only [hl, hr] using h
  | br b x =>
    have hb : a'.ty b = a.ty b := he b (hw.target rfl)
    cases x with
    | none => exact hb.trans h
    | some x =>
      have hx : a'.ty x = a.ty x := hx (List.mem_singleton_self x)
      exact hx.trans (h.trans hb.symm)
  | cond test _ _ =>
    have hx : a'.ty test = a.ty test := hx (List.mem_singleton_self test)
    exact hx.trans h
  | call f args =>
    have hf : a'.ty f = a.ty f := hx List.mem_cons_self
    have hargs : args.map a'.ty = args.map a.ty := by
      apply List.map_congr_left
      intro x hm
      exact hx (List.mem_cons_of_mem _ hm)
    dsimp only at h ⊢
    rwa [hf, hargs]
  | nullary op => cases op <;> exact h
  | _ => trivial

lemma Inst.Within.mono (h : i.Within a) (hs : a.size ≤ a'.size) : i.Within a' :=
  ⟨fun hx => (h.operands hx).trans_le hs, fun hb => (h.target hb).trans_le hs⟩

lemma Arena.TypedFrom.push (h : a.TypedFrom lo ret) (hw : i.Within a) (ht : i.WellTyped a ret) :
    (a.push i).TypedFrom lo ret := by
  have he := a.extends_push i
  have later {j : Inst} (hw : j.Within a) (ht : j.WellTyped a ret) :
      j.Within (a.push i) ∧ j.WellTyped (a.push i) ret :=
    ⟨hw.mono he.size_le, ht.mono hw fun _ hx => he.ty_eq hx⟩
  intro r j hr hj
  by_cases hlt : r < a.size
  · have hj' : a.insts[r]? = some j := by
      have := he r _ (exists_insts hlt)
      rw [hj] at this
      rw [Option.some.inj this]
      exact exists_insts hlt
    obtain ⟨hw, ht⟩ := h r j hr hj'
    exact later hw ht
  · have hr : r = a.size := by
      have hsize : r < (a.push i).size := lt_size_of_insts hj
      rw [size_push] at hsize
      exact Nat.le_antisymm (Nat.lt_succ_iff.1 hsize) (Nat.not_lt.1 hlt)
    subst hr
    rw [insts_push_size] at hj
    exact Option.some.inj hj ▸ later hw ht

lemma Arena.TypedFrom.setBody (h : a.TypedFrom lo ret) : (a.setBody r body).TypedFrom lo ret := by
  intro x j hx hj
  have same {j : Inst} (hj : a.insts[x]? = some j) :
      j.Within (a.setBody r body) ∧ j.WellTyped (a.setBody r body) ret := by
    obtain ⟨hw, ht⟩ := h x j hx hj
    exact ⟨hw.mono size_setBody.ge, ht.mono hw fun _ _ => ty_setBody⟩
  by_cases hne : x = r
  · subst hne
    simp only [Arena.setBody, Arena.modify, Array.getElem?_modify, if_true] at hj
    obtain ⟨i, hi, rfl⟩ := Option.map_eq_some_iff.1 hj
    split
    · exact ⟨⟨by rintro _ ⟨⟩, by rintro _ _ ⟨⟩⟩, trivial⟩
    · exact ⟨⟨by rintro _ ⟨⟩, by rintro _ _ ⟨⟩⟩, trivial⟩
    · exact same hi
  · rw [insts_setBody_of_ne hne] at hj
    exact same hj

end

namespace Arena
variable {a a' : Arena} {blocks above body listed : List Ref}

lemma Reaches.mono {x : Ref} (h : a.Reaches above x) (hh : ∀ x ty v, a.Holds x ty v → a'.Holds x ty v) :
    a'.Reaches above x := by
  refine h.imp_left ?_
  rintro ⟨ty, v, hv⟩
  exact ⟨ty, v, hh x ty v hv⟩

namespace Lays

variable (h : a.Lays blocks above body listed)
include h

lemma congr (hl : ∀ x ∈ listed, a'.insts[x]? = a.insts[x]?) (hh : ∀ x ty v, a.Holds x ty v → a'.Holds x ty v) :
    a'.Lays blocks above body listed := by
  induction h with
  | nil => exact .nil
  | plain hr hp ho hb hs _ ih =>
    have hr' := (hl _ List.mem_cons_self).trans hr
    refine .plain hr' hp (fun x hx => (ho x hx).mono hh) hb hs (ih fun x hx => hl x ?_)
    exact List.mem_cons_of_mem _ hx
  | cond hr ho _ _ hs _ iht ihe ih =>
    have hr' := (hl _ List.mem_cons_self).trans hr
    refine .cond hr' (ho.mono hh) (iht fun x hx => hl x ?_) (ihe fun x hx => hl x ?_) hs (ih fun x hx => hl x ?_)
    · simp [hx]
    · simp [hx]
    · simp [hx]
  | block hr _ hs _ ihi ih =>
    have hr' := (hl _ List.mem_cons_self).trans hr
    refine .block hr' (ihi fun x hx => hl x ?_) hs (ih fun x hx => hl x ?_)
    · simp [hx]
    · simp [hx]
  | loop hr _ ih =>
    have hr' := (hl _ List.mem_cons_self).trans hr
    exact .loop hr' (ih fun x hx => hl x (List.mem_cons_of_mem _ hx))

lemma insts {x : Ref} (hx : x ∈ listed) : ∃ i, a.insts[x]? = some i ∧ i.value? = none := by
  induction h with
  | nil => cases hx
  | @plain _ _ r i rest listed hr hp _ _ _ _ ih =>
    rcases List.mem_cons.1 hx with rfl | hx
    · refine ⟨i, hr, ?_⟩
      unfold Inst.value?
      split
      · next hk =>
        rw [hk] at hp
        cases hp
      · rfl
    · exact ih hx
  | cond hr _ _ _ _ _ iht ihe ih =>
    rcases List.mem_cons.1 hx with rfl | hx
    · exact ⟨_, hr, rfl⟩
    · rcases List.mem_append.1 hx with hx | hx
      · exact (List.mem_append.1 hx).elim iht ihe
      · exact ih hx
  | block hr _ _ _ ihi ih =>
    rcases List.mem_cons.1 hx with rfl | hx
    · exact ⟨_, hr, rfl⟩
    · exact (List.mem_append.1 hx).elim ihi ih
  | loop hr _ ih =>
    rcases List.mem_cons.1 hx with rfl | hx
    · exact ⟨_, hr, rfl⟩
    · exact ih hx

lemma mono (he : a.Extends a') : a'.Lays blocks above body listed := by
  refine h.congr (fun x hx => ?_) fun _ _ _ hv => he.holds hv
  obtain ⟨i, hi, -⟩ := h.insts hx
  rw [hi]
  exact he x i hi

lemma setBody {r : Ref} {filled : List Ref} (hr : r ∉ listed) (hk : a.value? r = none) :
    (a.setBody r filled).Lays blocks above body listed := by
  refine h.congr (fun x hx => insts_setBody_of_ne (ne_of_mem_of_not_mem hx hr)) fun x ty v hv => ?_
  obtain ⟨src, hv⟩ := hv
  refine ⟨src, (insts_setBody_of_ne ?_).trans hv⟩
  rintro rfl
  rw [value?, inst_of_insts hv] at hk
  cases hk

lemma append {body' listed' : List Ref} (h' : a.Lays blocks (above ++ body) body' listed')
    (hs : body' ≠ [] → ∀ r ∈ body, ∃ i, a.insts[r]? = some i ∧ i.stops = false) :
    a.Lays blocks above (body ++ body') (listed ++ listed') := by
  -- An instruction that stops is followed by nothing more.
  have goesOn {r : Ref} {i : Inst} {rest : List Ref} (hr : a.insts[r]? = some i) (hm : i.stops = true → rest = [])
      (hs : body' ≠ [] → ∀ x ∈ r :: rest, ∃ i, a.insts[x]? = some i ∧ i.stops = false) :
      i.stops = true → rest ++ body' = [] := by
    intro hi
    rw [hm hi, List.nil_append]
    by_contra hne
    obtain ⟨j, hj, hn⟩ := hs hne r List.mem_cons_self
    cases hr.symm.trans hj
    cases hi.symm.trans hn
  have stops {kind : InstKind} {ty : Ty} {src : Span} (hk : kind.isRead = false) :
      Inst.stops ⟨kind, ty, src⟩ = true ↔ ty = .noReturn := by
    simp [Inst.stops, Inst.isNoReturn, hk]
  induction h with
  | nil => simpa using h'
  | plain hr hp ho hb hm _ ih =>
    refine .plain hr hp ho hb (goesOn hr hm hs) (ih (by simpa using h') fun hne x hx => hs hne x ?_)
    exact List.mem_cons_of_mem _ hx
  | cond hr ho ht he hm _ _ _ ih =>
    have hm' := goesOn hr (fun h => hm ((stops rfl).1 h)) hs
    have hrest := ih (by simpa using h') fun hne x hx => hs hne x (List.mem_cons_of_mem _ hx)
    simpa using Lays.cond hr ho ht he (fun h => hm' ((stops rfl).2 h)) hrest
  | block hr hi hm _ _ ih =>
    have hm' := goesOn hr (fun h => hm ((stops rfl).1 h)) hs
    have hrest := ih (by simpa using h') fun hne x hx => hs hne x (List.mem_cons_of_mem _ hx)
    simpa using Lays.block hr hi (fun h => hm' ((stops rfl).2 h)) hrest
  | loop hr hi _ =>
    have hm' := goesOn hr (fun _ => rfl) hs rfl
    have hn : body' = [] := by simpa using hm'
    subst hn
    cases h'
    simpa using Lays.loop hr hi

lemma mem_listed {r : Ref} (hr : a.Nests body r) : r ∈ listed := by
  induction hr generalizing blocks above listed with
  | @here body r hm =>
    induction h with
    | nil => cases hm
    | plain _ _ _ _ _ _ ih => grind
    | cond _ _ _ _ _ _ _ _ ih => grind
    | block _ _ _ _ _ ih => grind
    | loop => grind
  | @inside body r inner x hm hi hn ih =>
    induction h with
    | nil => cases hm
    | @plain _ _ y i _ _ hy hp _ _ _ _ ih' =>
      rcases List.mem_cons.1 hm with rfl | hm
      · rw [inst_of_insts hy] at hi
        have none : i.kind.bodies = [] := by
          generalize i.kind = kind at hp
          cases kind <;> first | rfl | cases hp
        rw [none] at hi
        cases hi
      · exact List.mem_cons_of_mem _ (ih' hm)
    | cond hy _ ht he _ _ _ _ ih' =>
      rcases List.mem_cons.1 hm with rfl | hm
      · rw [inst_of_insts hy] at hi
        rcases List.mem_cons.1 hi with rfl | hi
        · simp [ih ht]
        · rw [List.mem_singleton.1 hi] at ih
          simp [ih he]
      · simp [ih' hm]
    | block hy hb _ _ _ ih' =>
      rcases List.mem_cons.1 hm with rfl | hm
      · rw [inst_of_insts hy] at hi
        rw [List.mem_singleton.1 hi] at ih
        simp [ih hb]
      · simp [ih' hm]
    | loop hy hb _ =>
      cases List.mem_singleton.1 hm
      rw [inst_of_insts hy] at hi
      rw [List.mem_singleton.1 hi] at ih
      simp [ih hb]

end Lays

end Arena

end Typed

namespace Analysis

open Typed (Arena InstKind)

variable {G : Engine → Engine → Prop} {C : Context} {s s' : State} {lo : Nat}

lemma Writes.typedFrom (h : Writes G C s s') (hb : ∀ b ∈ C.blocks, b < s.block.arena.size)
    (ht : s.block.arena.TypedFrom lo C.ret) : s'.block.arena.TypedFrom lo C.ret := by
  induction h with
  | refl | engine | results | branches | slot | store => exact ht
  | trans h _ ih ih' => exact ih' (fun b hm => (hb b hm).trans_le h.size_le) (ih hb ht)
  | const => exact ht.push ⟨nofun, nofun⟩ trivial
  | inst _ _ _ hs hbr hw => exact ht.push ⟨fun hx => (hs _ hx).1, fun hk => hb _ (hbr _ _ hk)⟩ hw
  | @cond C s s₁ s₂ test ty src _ _ hs h₁ h₂ ih₁ ih₂ =>
    have he := h₁.arena_extends.trans h₂.arena_extends
    have hx : test < s₂.block.arena.size := hs.1.1.trans_le he.size_le
    refine (ih₂ (fun b hm => (hb b hm).trans_le h₁.size_le) (ih₁ hb ht)).push ⟨fun hm => ?_, nofun⟩ ?_
    · exact List.mem_singleton.1 hm ▸ hx
    · exact (he.ty_eq hs.1.1).trans hs.2
  | @block C s s₁ ty src _ _ h ih =>
    have hp := s.block.arena.size_push ⟨.block [], ty, src⟩
    refine (ih (fun b hm => ?_) (ht.push ⟨nofun, nofun⟩ trivial)).setBody
    change b < (s.block.arena.push _).size
    rcases List.mem_cons.1 hm with rfl | hm
    · exact hp ▸ Nat.lt_succ_self _
    · exact hp ▸ Nat.lt_succ_of_lt (hb b hm)
  | @loop C s s₁ src _ _ h ih =>
    have hp := s.block.arena.size_push ⟨.loop [], .noReturn, src⟩
    refine (ih (fun b hm => ?_) (ht.push ⟨nofun, nofun⟩ trivial)).setBody
    change b < (s.block.arena.push _).size
    exact hp ▸ Nat.lt_succ_of_lt (hb b hm)
  | child _ ih => exact ih hb ht

structure Laid (C : Context) (s s' : State) (added listed : List Ref) : Prop where
  insts : s'.block.insts = s.block.insts ++ added
  lays : s'.block.arena.Lays C.blocks (C.above ++ s.block.insts) added listed
  range {x} : x ∈ listed → s.block.arena.size ≤ x ∧ x < s'.block.arena.size
  nodup : listed.Nodup
  isOpen {r} : added ≠ [] → r ∈ s.block.insts → ∃ i, s'.block.arena.insts[r]? = some i ∧ i.stops = false

lemma Context.Sees.reaches {x : Ref} (h : C.Sees s x) : s.block.arena.Reaches (C.above ++ s.block.insts) x := by
  refine h.2.imp_left fun hv => ?_
  obtain ⟨v, hv⟩ := Option.isSome_iff_exists.1 hv
  exact ⟨_, v, Arena.holds_of_value h.1 hv⟩

namespace Laid
variable {s'' : State} {added added' listed listed' : List Ref} {kind : InstKind} {ty : Ty} {src : Span}

lemma none (h : s'.block.insts = s.block.insts) : Laid C s s' [] [] :=
  ⟨by rw [h, List.append_nil], .nil, nofun, .nil, fun h => absurd rfl h⟩

lemma trans (h : Laid C s s' added listed) (h' : Laid C s' s'' added' listed')
    (he : s'.block.arena.Extends s''.block.arena) (hle : s.block.arena.size ≤ s'.block.arena.size) :
    Laid C s s'' (added ++ added') (listed ++ listed') where
  insts := by rw [h'.insts, h.insts, List.append_assoc]
  lays := by
    refine (h.lays.mono he).append ?_ fun hne r hr => h'.isOpen hne (by simp [h.insts, hr])
    have hl := h'.lays
    rwa [h.insts, ← List.append_assoc] at hl
  range {x} hx := by
    rcases List.mem_append.1 hx with hx | hx
    · exact ⟨(h.range hx).1, (h.range hx).2.trans_le he.size_le⟩
    · exact ⟨hle.trans (h'.range hx).1, (h'.range hx).2⟩
  nodup := by
    refine h.nodup.append h'.nodup fun x hx hx' => ?_
    exact absurd (h.range hx).2 (Nat.not_lt.2 (h'.range hx').1)
  isOpen {r} hne hr := by
    by_cases hn : added = []
    · refine h'.isOpen (fun hn' => hne (by rw [hn, hn', List.append_nil])) ?_
      rw [h.insts]
      exact List.mem_append_left _ hr
    · obtain ⟨i, hi, hs⟩ := h.isOpen hn hr
      exact ⟨i, he r i hi, hs⟩

lemma one {r : Ref} {inner : List Ref} (ho : s.Open) (he : s.block.arena.Extends s'.block.arena)
    (hi : s'.block.insts = s.block.insts ++ [r])
    (hl : s'.block.arena.Lays C.blocks (C.above ++ s.block.insts) [r] (r :: inner))
    (hr : ∀ x ∈ r :: inner, s.block.arena.size ≤ x ∧ x < s'.block.arena.size) (hn : (r :: inner).Nodup) :
    Laid C s s' [r] (r :: inner) where
  insts := hi
  lays := hl
  range hx := hr _ hx
  nodup := hn
  isOpen {x} _ hx := by
    obtain ⟨i, hi, hs⟩ := ho x hx
    exact ⟨i, he x i hi, hs⟩

lemma cond {s₁ s₂ : State} {test : Ref} (ho : s.Open) (hs : C.Sees s test)
    (h₁ : Laid (C.under s) (s.enter false) s₁ added listed)
    (h₂ : Laid (C.under s) ((s₁.leave s).enter false) s₂ added' listed')
    (he₁ : s.block.arena.Extends s₁.block.arena) (he₂ : s₁.block.arena.Extends s₂.block.arena) :
    Laid C s ((s₂.leave s).add (.cond test s₁.block.insts s₂.block.insts) ty src) [s₂.block.arena.size]
      (s₂.block.arena.size :: (listed ++ listed' ++ [])) := by
  have hp := s₂.block.arena.extends_push ⟨.cond test s₁.block.insts s₂.block.insts, ty, src⟩
  have he := (he₁.trans he₂).trans hp
  have hlt {x : Ref} (hx : x ∈ listed ++ listed') : s.block.arena.size ≤ x ∧ x < s₂.block.arena.size := by
    rcases List.mem_append.1 hx with hx | hx
    · exact ⟨(h₁.range hx).1, (h₁.range hx).2.trans_le he₂.size_le⟩
    · exact ⟨he₁.size_le.trans (h₂.range hx).1, (h₂.range hx).2⟩
  have hdis : (listed ++ listed').Nodup := by
    refine h₁.nodup.append h₂.nodup fun x hx hx' => ?_
    exact absurd (h₁.range hx).2 (Nat.not_lt.2 (h₂.range hx').1)
  have above : (C.under s).above ++ [] = C.above ++ s.block.insts := List.append_nil _
  have hl₁ := (h₁.lays.mono he₂).mono hp
  have hl₂ := h₂.lays.mono hp
  rw [← show s₁.block.insts = added from h₁.insts] at hl₁
  rw [← show s₂.block.insts = added' from h₂.insts] at hl₂
  refine one ho he rfl ?_ (fun x hx => ?_) ?_
  · refine .cond (Arena.insts_push_size _ _) ?_ (above ▸ hl₁) (above ▸ hl₂) (fun _ => rfl) .nil
    exact hs.reaches.mono fun _ _ _ hv => he.holds hv
  · rw [List.append_nil] at hx
    change _ ∧ x < (s₂.block.arena.push _).size
    rw [Arena.size_push]
    rcases List.mem_cons.1 hx with rfl | hx
    · exact ⟨he₁.size_le.trans he₂.size_le, Nat.lt_succ_self _⟩
    · exact ⟨(hlt hx).1, Nat.lt_succ_of_lt (hlt hx).2⟩
  · rw [List.append_nil, List.nodup_cons]
    exact ⟨fun hm => absurd (hlt hm).2 (Nat.lt_irrefl _), hdis⟩

lemma filled {C' : Context} (ho : s.Open) (h : Laid C' ((s.add kind ty src).enter false) s' added listed)
    (he : (s.add kind ty src).block.arena.Extends s'.block.arena)
    (hc : Typed.Inst.value? ⟨kind, ty, src⟩ = Option.none)
    (hl : (s'.block.arena.setBody s.block.arena.size s'.block.insts).Lays C'.blocks C'.above s'.block.insts listed →
      (s'.block.arena.setBody s.block.arena.size s'.block.insts).Lays C.blocks (C.above ++ s.block.insts)
        [s.block.arena.size] (s.block.arena.size :: listed)) :
    Laid C s ((s'.leave (s.add kind ty src)).fill s.block.arena.size s'.block.insts) [s.block.arena.size]
      (s.block.arena.size :: listed) := by
  have hsize : (s.add kind ty src).block.arena.size = s.block.arena.size + 1 := Arena.size_push _ _
  have hlt {x : Ref} (hx : x ∈ listed) : s.block.arena.size < x ∧ x < s'.block.arena.size := by
    have hr : (s.add kind ty src).block.arena.size ≤ x ∧ _ := h.range hx
    rw [hsize] at hr
    exact hr
  have hnot : s.block.arena.size ∉ listed := fun hm => absurd (hlt hm).1 (Nat.lt_irrefl _)
  have hi := he _ _ (s.block.arena.insts_push_size ⟨kind, ty, src⟩)
  have hext : s.block.arena.Extends (s'.block.arena.setBody s.block.arena.size s'.block.insts) := by
    intro x i hx
    have hne : x ≠ s.block.arena.size := (Arena.lt_size_of_insts hx).ne
    exact (Arena.insts_setBody_of_ne hne).trans (he x i (Arena.extends_push _ _ x i hx))
  have hlays : s'.block.arena.Lays C'.blocks (C'.above ++ []) s'.block.insts listed := by
    have hadded : s'.block.insts = added := h.insts
    exact hadded ▸ h.lays
  rw [List.append_nil] at hlays
  refine one ho hext rfl (hl (hlays.setBody hnot ?_)) (fun x hx => ?_) (List.nodup_cons.2 ⟨hnot, h.nodup⟩)
  · rw [Arena.value?, Arena.inst_of_insts hi]
    exact hc
  · change _ ∧ x < (s'.block.arena.setBody _ _).size
    rw [Arena.size_setBody]
    rcases List.mem_cons.1 hx with rfl | hx
    · exact ⟨le_rfl, Arena.lt_size_of_insts hi⟩
    · exact ⟨(hlt hx).1.le, (hlt hx).2⟩

end Laid

lemma Writes.laid (h : Writes G C s s') : ∃ added listed, Laid C s s' added listed := by
  induction h with
  | refl | engine | results | branches | slot | store | const | child => exact ⟨[], [], .none rfl⟩
  | trans h h' ih ih' =>
    obtain ⟨added, listed, hl⟩ := ih
    obtain ⟨added', listed', hl'⟩ := ih'
    exact ⟨_, _, hl.trans hl' h'.arena_extends h.size_le⟩
  | @inst C s kind ty src _ ho hp hs hb _ =>
    have he := s.block.arena.extends_push ⟨kind, ty, src⟩
    refine ⟨[s.block.arena.size], [s.block.arena.size], .one ho he rfl ?_ (fun x hx => ?_) (List.nodup_singleton _)⟩
    · refine .plain (Arena.insts_push_size _ _) hp (fun x hx => ?_) hb (fun _ => rfl) .nil
      exact (hs x hx).reaches.mono fun _ _ _ hv => he.holds hv
    · rw [List.mem_singleton.1 hx]
      exact ⟨le_rfl, by simp [State.add, Typed.Block.add]⟩
  | cond ty src _ ho hs h₁ h₂ ih₁ ih₂ =>
    obtain ⟨added, listed, hl₁⟩ := ih₁
    obtain ⟨added', listed', hl₂⟩ := ih₂
    exact ⟨_, _, .cond ho hs.1 hl₁ hl₂ h₁.arena_extends h₂.arena_extends⟩
  | @block C s s₁ ty src _ ho h ih =>
    obtain ⟨added, listed, hl⟩ := ih
    have hi := h.arena_extends _ _ (s.block.arena.insts_push_size ⟨.block [], ty, src⟩)
    refine ⟨_, _, hl.filled ho h.arena_extends rfl fun hbody => ?_⟩
    have hb := Arena.Lays.block (Arena.insts_setBody_block hi) hbody (fun _ => rfl) .nil
    rwa [List.append_nil] at hb
  | @loop C s s₁ src _ ho h ih =>
    obtain ⟨added, listed, hl⟩ := ih
    have hi := h.arena_extends _ _ (s.block.arena.insts_push_size ⟨.loop [], .noReturn, src⟩)
    exact ⟨_, _, hl.filled ho h.arena_extends rfl fun hbody => .loop (Arena.insts_setBody_loop hi) hbody⟩

end Analysis

end Frontend
