import Mathlib.Logic.Relation
import Frontend.Proofs.Matching.State
import Frontend.Proofs.Scoping

/-! Where things stand in code that is lowered from text. Every instruction has one place in one body, what it mentions
comes before it, and what leaves a loop or a function is inside one. Bodies therefore nest no deeper than the code is
long, so that a recursion over them never reaches the bound that is set for it. -/

namespace Frontend.Untyped

namespace Code

variable {c : Code} {k : Enclosure} {lo hi : Nat} {dom body : List Ref} {bodies : List (Enclosure × List Ref)}
  {q r x : Nat} {inst i : Inst}

def Contains (c : Code) (q r : Ref) : Prop := ∃ inst, c.insts[q]? = some inst ∧ ∃ b ∈ inst.bodies, r ∈ b

def Encloses (c : Code) : Ref → Ref → Prop := Relation.ReflTransGen c.Contains

def Precedes (c : Code) (body : List Ref) (x r : Ref) : Prop :=
  ∃ before q after, body = before ++ q :: after ∧ x ∈ before ∧ c.Encloses q r

def InLoop (c : Code) (r : Ref) : Prop :=
  ∃ (q : Ref) (testBody : List Ref) (test : Ref) (b : List Ref),
    c.insts[q]? = some (.loop testBody test b) ∧ ∃ x ∈ b, c.Encloses x r

lemma flatten_bodies (inst : Inst) : inst.bodies.flatten = inst.first ++ inst.second := by
  cases inst <;> simp [Inst.bodies, Inst.first, Inst.second]

lemma Contains.of_mem (hq : c.insts[q]? = some inst) (hx : x ∈ inst.first ++ inst.second) : c.Contains q x := by
  rw [← flatten_bodies] at hx
  exact ⟨inst, hq, List.mem_flatten.1 hx⟩

inductive Stands (c : Code) (r : Nat) (i : Inst) : Enclosure → (dom body : List Ref) → Prop
  | here {k : Enclosure} {dom rest : List Ref} (ha : k.admits i = true) (ho : ∀ x ∈ i.operands, x ∈ dom)
      (ht : ∀ x ∈ i.test?, x ∈ dom ++ i.first) : Stands c r i k dom (r :: rest)
  | first {k : Enclosure} {dom rest : List Ref} {q : Nat} {inst : Inst} (hq : c.insts[q]? = some inst)
      (h : Stands c r i k dom inst.first) : Stands c r i k dom (q :: rest)
  | second {k : Enclosure} {dom rest : List Ref} {q : Nat} {inst : Inst} (hq : c.insts[q]? = some inst)
      (h : Stands c r i (k.around inst) dom inst.second) : Stands c r i k dom (q :: rest)
  | later {k : Enclosure} {dom rest : List Ref} {q : Nat} (h : Stands c r i k (dom ++ [q]) rest) :
      Stands c r i k dom (q :: rest)

lemma Laid.stands (h : c.Laid k lo dom body hi) (hr : c.insts[r]? = some i) (hlo : lo ≤ r) (hhi : r < hi) :
    c.Stands r i k dom body := by
  induction h with
  | nil => omega
  | @cons k lo dom q rest hi m inst hq ha ho ht h₁ h₂ h ih₁ ih₂ ih =>
    rcases Nat.lt_trichotomy r q with hlt | rfl | hgt
    · by_cases hm : r < m
      · exact .first hq (ih₁ hlo hm)
      · exact .second hq (ih₂ (Nat.le_of_not_lt hm) hlt)
    · cases hq.symm.trans hr
      exact .here ha ho fun x hx => (ht x hx).1
    · exact .later (ih hgt hhi)

lemma Stands.enclosed (h : c.Stands r i k dom body) : ∃ q ∈ body, c.Encloses q r := by
  induction h with
  | here => exact ⟨r, List.mem_cons_self .., .refl⟩
  | first hq _ ih =>
    obtain ⟨x, hx, hr⟩ := ih
    exact ⟨_, List.mem_cons_self .., .head (.of_mem hq (List.mem_append_left _ hx)) hr⟩
  | second hq _ ih =>
    obtain ⟨x, hx, hr⟩ := ih
    exact ⟨_, List.mem_cons_self .., .head (.of_mem hq (List.mem_append_right _ hx)) hr⟩
  | later _ ih =>
    obtain ⟨x, hx, hr⟩ := ih
    exact ⟨x, List.mem_cons_of_mem _ hx, hr⟩

lemma Precedes.cons (h : c.Precedes body x r) (q : Ref) : c.Precedes (q :: body) x r := by
  obtain ⟨before, p, after, rfl, hx, hr⟩ := h
  exact ⟨q :: before, p, after, rfl, List.mem_cons_of_mem _ hx, hr⟩

lemma mem_bodies {b : List Ref} (hb : b = inst.first ∨ b = inst.second) (hx : x ∈ b) : b ∈ inst.bodies := by
  have hne : b ≠ [] := List.ne_nil_of_mem hx
  cases inst <;> simp_all [Inst.bodies, Inst.first, Inst.second]

lemma Precedes.exists_mem {b : List Ref} (h : c.Precedes b x r) : ∃ y, y ∈ b := by
  obtain ⟨before, p, after, rfl, -⟩ := h
  exact ⟨p, by simp⟩

lemma Stands.precedes (h : c.Stands r i k dom body) (hx : x ∈ i.operands ∨ x ∈ i.test?) :
    x ∈ dom ∨ (∃ b, (b = body ∨ b ∈ c.insts.toList.flatMap Inst.bodies) ∧ c.Precedes b x r) ∨
      x ∈ i.test? ∧ x ∈ i.first := by
  have inner {q : Ref} {inst : Inst} {b b' : List Ref} (hq : c.insts[q]? = some inst)
      (hb' : b' = inst.first ∨ b' = inst.second) (hp : c.Precedes b x r)
      (hb : b = b' ∨ b ∈ c.insts.toList.flatMap Inst.bodies) : b ∈ c.insts.toList.flatMap Inst.bodies := by
    obtain rfl | hb := hb
    · obtain ⟨y, hy⟩ := hp.exists_mem
      exact List.mem_flatMap.2 ⟨inst, Array.mem_toList_iff.2 (Array.mem_of_getElem? hq), mem_bodies hb' hy⟩
    · exact hb
  induction h with
  | here _ ho ht =>
    rcases hx with hx | hx
    · exact .inl (ho x hx)
    · exact (List.mem_append.1 (ht x hx)).imp_right fun hf => .inr ⟨hx, hf⟩
  | first hq _ ih =>
    exact ih.imp_right (Or.imp_left fun ⟨b, hb, hp⟩ => ⟨b, .inr (inner hq (.inl rfl) hp hb), hp⟩)
  | second hq _ ih =>
    exact ih.imp_right (Or.imp_left fun ⟨b, hb, hp⟩ => ⟨b, .inr (inner hq (.inr rfl) hp hb), hp⟩)
  | @later k dom rest q h ih =>
    rcases ih with hdom | ⟨b, rfl | hb, hp⟩ | ht
    · rcases List.mem_append.1 hdom with hdom | hq
      · exact .inl hdom
      · obtain ⟨y, hy, hr⟩ := h.enclosed
        obtain ⟨before, after, rfl⟩ := List.append_of_mem hy
        exact .inr (.inl ⟨_, .inl rfl, q :: before, y, after, rfl, by simp [List.mem_singleton.1 hq], hr⟩)
    · exact .inr (.inl ⟨_, .inl rfl, hp.cons q⟩)
    · exact .inr (.inl ⟨b, .inr hb, hp⟩)
    · exact .inr (.inr ht)

lemma Stands.admits (h : c.Stands r i k dom body) :
    ∃ k' : Enclosure, k'.admits i = true ∧ k'.params = k.params ∧
      (k'.inLoop = true → k.inLoop = true ∨ c.InLoop r) := by
  induction h with
  | here ha => exact ⟨_, ha, rfl, .inl⟩
  | first _ _ ih | later _ ih => exact ih
  | @second k dom rest q inst hq h ih =>
    cases inst with
    | loop testBody test b =>
      obtain ⟨k', ha, hp, -⟩ := ih
      exact ⟨k', ha, hp, fun _ => .inr ⟨q, testBody, test, b, hq, h.enclosed⟩⟩
    | _ => exact ih

lemma Laid.mem (h : c.Laid k lo dom body hi) : lo ≤ hi ∧ ∀ x : Nat, x ∈ body → lo ≤ x ∧ x < hi := by
  induction h with
  | nil => exact ⟨le_rfl, nofun⟩
  | cons _ _ _ _ _ _ _ ih₁ ih₂ ih =>
    refine ⟨by omega, fun x hx => ?_⟩
    rcases List.mem_cons.1 hx with rfl | hx
    · omega
    · have := ih.2 x hx
      omega

lemma Laid.lt (h : c.Laid k lo dom body hi) (hd : ∀ x : Nat, x ∈ dom → x < lo) (hr : c.insts[r]? = some i)
    (hlo : lo ≤ r) (hhi : r < hi) : ∀ x ∈ i.operands ++ i.test?.toList ++ i.bodies.flatten, x < r := by
  induction h with
  | nil => omega
  | @cons k lo dom q rest hi m inst hq ha ho ht h₁ h₂ h ih₁ ih₂ ih =>
    obtain ⟨hm, hfirst⟩ := h₁.mem
    obtain ⟨hq', hsecond⟩ := h₂.mem
    rcases Nat.lt_trichotomy r q with hlt | rfl | hgt
    · by_cases hrm : r < m
      · exact ih₁ hd hlo hrm
      · exact ih₂ (fun x hx => (hd x hx).trans_le hm) (Nat.le_of_not_lt hrm) hlt
    · cases hq.symm.trans hr
      have hdom : ∀ x : Nat, x ∈ dom ++ i.first → x < r := by
        intro x hx
        rcases List.mem_append.1 hx with hx | hx
        · exact (hd x hx).trans_le hlo
        · exact (hfirst x hx).2.trans_le hq'
      intro x hx
      simp only [flatten_bodies, List.mem_append, Option.mem_toList] at hx
      rcases hx with (hx | hx) | hx | hx
      · exact hdom x (List.mem_append_left _ (ho x hx))
      · exact hdom x (ht x hx).1
      · exact hdom x (List.mem_append_right _ hx)
      · exact (hsecond x hx).2
    · refine ih (fun x hx => ?_) hgt hhi
      rcases List.mem_append.1 hx with hx | hx
      · have := hd x hx
        omega
      · exact List.mem_singleton.1 hx ▸ Nat.lt_succ_self _

def nested (c : Code) (n : Nat) : List Ref := ((c.insts.toList.take n).flatMap Inst.bodies).flatten

lemma nested_succ (hr : c.insts[r]? = some inst) : c.nested (r + 1) = c.nested r ++ (inst.first ++ inst.second) := by
  have htake : c.insts.toList.take (r + 1) = c.insts.toList.take r ++ [inst] := by
    rw [List.take_add_one, Array.getElem?_toList, hr, Option.toList_some]
  simp [nested, htake, flatten_bodies]

lemma Laid.count (h : c.Laid k lo dom body hi) (x : Ref) :
    (List.range lo).count x + body.count x + (c.nested hi).count x =
      (List.range hi).count x + (c.nested lo).count x := by
  induction h with
  | nil => simp
  | @cons k lo dom q rest hi m inst hq ha ho ht h₁ h₂ h ih₁ ih₂ ih =>
    rw [List.range_succ, nested_succ hq] at ih
    simp only [List.count_append, List.count_cons, List.count_nil] at ih ih₁ ih₂ ⊢
    omega

lemma LaidOut.count (h : c.LaidOut lo bodies) (x : Ref) :
    (List.range lo).count x + ((bodies.map (·.2)).flatten).count x + (c.nested c.size).count x =
      (List.range c.size).count x + (c.nested lo).count x := by
  induction bodies generalizing lo with
  | nil =>
    cases h
    simp
  | cons b bodies ih =>
    obtain ⟨m, hb, h⟩ := h
    have hone := hb.count x
    have hrest := ih h
    simp only [List.map_cons, List.flatten_cons, List.count_append]
    omega

lemma LaidOut.exists_laid (h : c.LaidOut lo bodies) (hlo : lo ≤ r) (hr : r < c.size) :
    ∃ k body lo hi, (k, body) ∈ bodies ∧ c.Laid k lo [] body hi ∧ lo ≤ r ∧ r < hi := by
  induction bodies generalizing lo with
  | nil =>
    cases h
    omega
  | cons b bodies ih =>
    obtain ⟨m, hb, h⟩ := h
    by_cases hm : r < m
    · exact ⟨b.1, b.2, lo, m, List.mem_cons_self .., hb, hlo, hm⟩
    · obtain ⟨k, body, lo, hi, hmem, hrest⟩ := ih h (Nat.le_of_not_lt hm)
      exact ⟨k, body, lo, hi, List.mem_cons_of_mem _ hmem, hrest⟩

lemma LaidOut.lt (h : c.LaidOut 0 bodies) (hr : c.insts[r]? = some i) :
    ∀ x ∈ i.operands ++ i.test?.toList ++ i.bodies.flatten, x < r := by
  obtain ⟨k, body, lo, hi, -, hbody, hlo, hhi⟩ := h.exists_laid (Nat.zero_le r) (Array.getElem?_eq_some_iff.1 hr).1
  exact hbody.lt nofun hr hlo hhi

lemma LaidOut.lt_size (h : c.LaidOut lo bodies) (hb : (k, body) ∈ bodies) :
    ∀ x ∈ body, x < c.size := by
  have hle {lo : Nat} {bodies : List (Enclosure × List Ref)} (h : c.LaidOut lo bodies) : lo ≤ c.size := by
    induction bodies generalizing lo with
    | nil => exact le_of_eq h
    | cons b bodies ih =>
      obtain ⟨m, hb, h⟩ := h
      exact hb.mem.1.trans (ih h)
  induction bodies generalizing lo with
  | nil => cases hb
  | cons b bodies ih =>
    obtain ⟨m, hlaid, h⟩ := h
    rcases List.mem_cons.1 hb with rfl | hb
    · exact fun x hx => (hlaid.mem.2 x hx).2.trans_le (hle h)
    · exact ih h hb

lemma LaidOut.nestsWithin (h : c.LaidOut 0 bodies) (n : Nat) (hn : ∀ x ∈ body, x < n) : c.NestsWithin n body := by
  induction n generalizing body with
  | zero => exact List.eq_nil_iff_forall_not_mem.2 fun x hx => Nat.not_lt_zero x (hn x hx)
  | succ n ih =>
    intro r hr b hb
    cases hi : c.insts[r]? with
    | none =>
      rw [hi] at hb
      cases hb
    | some inst =>
      rw [hi] at hb
      refine ih fun x hx => Nat.lt_of_lt_of_le (h.lt hi x ?_) (Nat.le_of_lt_succ (hn r hr))
      exact List.mem_append_right _ (List.mem_flatten.2 ⟨b, hb, hx⟩)

end Code

lemma nests_of_ofItem {it : Item} {name : String} {parent : Scope} {item : Decl}
    (h : ofItem it name parent = .ok item) : item.kind.Nests := by
  have hlaid : item.kind.code.LaidOut 0 item.kind.bodies := (made_of_ofItem h).2
  have nests {k : Enclosure} {body : List Ref} (hb : (k, body) ∈ item.kind.bodies) : item.kind.code.Nests body :=
    hlaid.nestsWithin _ fun x hx => Nat.lt_succ_of_lt (hlaid.lt_size hb x hx)
  cases hk : item.kind with
  | fn f =>
    rw [hk] at nests
    refine ⟨nests List.mem_cons_self, fun hb => ?_⟩
    exact nests (k := { params := some f.params.length }) (by simp [DeclKind.bodies, hb])
  | var v =>
    rw [hk] at nests
    constructor <;> exact fun hc => nests (k := {}) (by simp [DeclKind.bodies, hc])
  | comptime b =>
    rw [hk] at nests
    exact nests (List.mem_singleton_self _)

def DeclKind.allBodies (kind : DeclKind) : List (List Ref) :=
  kind.bodies.map (·.2) ++ kind.code.insts.toList.flatMap Inst.bodies

/-- Each instruction stands once in one body. What it mentions comes before it in the code, and what it takes comes
before it in its body or in one around that; a loop may take what it computes first as its test. A loop is left inside
its body only, and a function's arguments are taken, and it is left, inside its own. -/
structure DeclKind.WellPlaced (kind : DeclKind) : Prop where
  once : kind.allBodies.flatten.Perm (List.range kind.code.size)
  after {r : Nat} {inst : Inst} : kind.code.insts[r]? = some inst →
    ∀ x ∈ inst.operands ++ inst.test?.toList ++ inst.bodies.flatten, x < r
  sees {r x : Nat} {inst : Inst} : kind.code.insts[r]? = some inst → x ∈ inst.operands ∨ x ∈ inst.test? →
    (∃ b ∈ kind.allBodies, kind.code.Precedes b x r) ∨ x ∈ inst.test? ∧ x ∈ inst.first
  leaves {r : Nat} {inst : Inst} : kind.code.insts[r]? = some inst → inst = .leave ∨ inst = .next → kind.code.InLoop r
  returns {r : Nat} {inst : Inst} : kind.code.insts[r]? = some inst →
    (∃ n, inst = .arg n) ∨ (∃ operand, inst = .ret operand) → ∃ f b, kind = .fn f ∧ f.body = some b ∧
      (∃ x ∈ b, kind.code.Encloses x r) ∧ ∀ n, inst = .arg n → n < f.params.length

lemma DeclKind.bodies_enclosure {kind : DeclKind} {k : Enclosure} {body : List Ref} (h : (k, body) ∈ kind.bodies) :
    k.inLoop = false ∧ ∀ n, k.params = some n → ∃ f, kind = .fn f ∧ f.body = some body ∧ n = f.params.length := by
  cases kind with
  | fn f =>
    rcases List.mem_cons.1 h with h | h
    · cases h
      exact ⟨rfl, nofun⟩
    · obtain ⟨b, hb, h⟩ := List.mem_map.1 h
      cases h
      exact ⟨rfl, fun n hn => ⟨f, rfl, Option.mem_toList.1 hb, (Option.some.inj hn).symm⟩⟩
  | var v =>
    obtain ⟨c, -, h⟩ := List.mem_map.1 h
    cases h
    exact ⟨rfl, nofun⟩
  | comptime b =>
    cases List.mem_singleton.1 h
    exact ⟨rfl, nofun⟩

/-- Lowering puts everything in its place. -/
theorem wellPlaced_of_ofItem {it : Item} {name : String} {parent : Scope} {item : Decl}
    (h : ofItem it name parent = .ok item) : item.kind.WellPlaced := by
  have hlaid : item.kind.code.LaidOut 0 item.kind.bodies := (made_of_ofItem h).2
  have stands {r : Nat} {inst : Inst} (hr : item.kind.code.insts[r]? = some inst) :
      ∃ k body, (k, body) ∈ item.kind.bodies ∧ item.kind.code.Stands r inst k [] body := by
    obtain ⟨k, body, lo, hi, hmem, hbody, hlo, hhi⟩ :=
      hlaid.exists_laid (Nat.zero_le r) (Array.getElem?_eq_some_iff.1 hr).1
    exact ⟨k, body, hmem, hbody.stands hr hlo hhi⟩
  constructor
  · refine List.perm_iff_count.2 fun x => ?_
    have hcount := hlaid.count x
    have hall : item.kind.code.nested item.kind.code.size =
        (item.kind.code.insts.toList.flatMap Inst.bodies).flatten := by
      rw [Code.nested, Code.size, ← Array.length_toList, List.take_length]
    have hnone : item.kind.code.nested 0 = [] := rfl
    rw [hall, hnone] at hcount
    simpa [DeclKind.allBodies] using hcount
  · exact hlaid.lt
  · intro r x inst hr hx
    obtain ⟨k, body, hmem, hstands⟩ := stands hr
    rcases hstands.precedes hx with hdom | ⟨b, hb, hp⟩ | ht
    · cases hdom
    · refine .inl ⟨b, List.mem_append.2 (hb.imp_left fun h => ?_), hp⟩
      exact List.mem_map.2 ⟨_, hmem, h.symm⟩
    · exact .inr ht
  · intro r inst hr hi
    obtain ⟨k, body, hmem, hstands⟩ := stands hr
    obtain ⟨k', ha, -, hl⟩ := hstands.admits
    have hin : k'.inLoop = true := by
      obtain rfl | rfl := hi
      · exact ha
      · exact ha
    exact (hl hin).resolve_left (by simp [(DeclKind.bodies_enclosure hmem).1])
  · intro r inst hr hi
    obtain ⟨k, body, hmem, hstands⟩ := stands hr
    obtain ⟨k', ha, hp, -⟩ := hstands.admits
    obtain ⟨n, hn⟩ : ∃ n, k'.params = some n := by
      rcases hi with ⟨m, rfl⟩ | ⟨operand, rfl⟩
      · obtain ⟨n, hn, -⟩ := (Option.any_eq_true ..).1 ha
        exact ⟨n, hn⟩
      · exact Option.isSome_iff_exists.1 ha
    obtain ⟨f, hf, hb, rfl⟩ := (DeclKind.bodies_enclosure hmem).2 n (hp.symm.trans hn)
    refine ⟨f, body, hf, hb, hstands.enclosed, ?_⟩
    rintro m rfl
    simpa [Enclosure.admits, hn] using ha

/-- A function with a loop, which takes its argument there and leaves the loop or itself. -/
theorem wellPlaced_of_ofItem_loop :
    let x : Expr := .ident {} "x"
    let turn : Block := .mk {} [.cond {} x (.mk {} [.leave {}]) (some (.ret {} (some x)))]
    let it : Item := {
      kind := .fn {
        name := ⟨"f", {}⟩, modifiers := {}, params := [⟨⟨"x", {}⟩, .ident {} "bool"⟩], ret := .ident {} "bool",
        callConv := none, align := none, linkSection := none, body := some (.mk {} [.loop {} x turn]), keyword := {} }
      isPublic := false
      span := {} }
    ∃ item, ofItem it "f" (.file 0) = .ok item ∧ item.kind.allBodies = [[0, 1, 2], [3, 7], [4], [5], [], [6]] ∧
      item.kind.WellPlaced := by
  intro x turn it
  obtain ⟨item, hitem, hbodies⟩ : ∃ item, ofItem it "f" (.file 0) = .ok item ∧
      item.kind.allBodies = [[0, 1, 2], [3, 7], [4], [5], [], [6]] := ⟨_, rfl, rfl⟩
  exact ⟨item, hitem, hbodies, wellPlaced_of_ofItem hitem⟩

end Frontend.Untyped
