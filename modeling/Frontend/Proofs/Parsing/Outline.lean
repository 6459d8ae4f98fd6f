import Mathlib
import Frontend.Proofs.Parsing.Coverage

/-! Where the parts of a syntax tree stand. Seen as an outline of ranges, a tree has each part inside the part that
holds it, and the parts of one node one after the other.

A parser is followed by the row of parts that it has read so far: what it reads next stands after them, and a node that
is closed takes the whole row in. -/

namespace Frontend

/-- The ranges of a tree; the parts of a node are listed as they are written. -/
inductive Outline where
  | node (span : Span) (parts : List Outline)

namespace Outline

def span : Outline → Span
  | node s _ => s

def leaf (s : Span) : Outline := node s []

end Outline

mutual

def Expr.outline : Expr → Outline
  | .int s _ | .float s _ | .str s _ | .bool s _ | .null s | .undefined s | .unreachable s | .ident s _ => .leaf s
  | .builtin s _ args => .node s (outlines args)
  | .unary s _ e | .deref s e | .optionalType s e => .node s [e.outline]
  | .binary s _ a b => .node s [a.outline, b.outline]
  | .call s f args => .node s ([f.outline] ++ outlines args)
  | .ptrType s _ _ z e => .node s (outline? z ++ [e.outline])
  | .arrayType s n z e => .node s ([n.outline] ++ outline? z ++ [e.outline])
  | .arrayInit s ty elems => .node s ([ty.outline] ++ outlines elems)

def Expr.outlines : List Expr → List Outline
  | [] => []
  | e :: es => e.outline :: outlines es

def Expr.outline? : Option Expr → List Outline
  | none => []
  | some e => [e.outline]

end

mutual

def Stmt.outline : Stmt → Outline
  | .define s x _ ty e => .node s ([.leaf x.span] ++ Expr.outline? ty ++ [e.outline])
  | .assign s a b => .node s [a.outline, b.outline]
  | .expr s e => .node s [e.outline]
  | .ret s e => .node s (Expr.outline? e)
  | .cond s e b none => .node s [e.outline, b.outline]
  | .cond s e b (some x) => .node s [e.outline, b.outline, x.outline]
  | .loop s e b => .node s [e.outline, b.outline]
  | .block s b | .comptime s b => .node s [b.outline]
  | .leave s | .next s => .leaf s

def Block.outline : Block → Outline
  | .mk s stmts => .node s (Stmt.outlines stmts)

def Stmt.outlines : List Stmt → List Outline
  | [] => []
  | x :: xs => x.outline :: Stmt.outlines xs

end

def Param.outlines (x : Param) : List Outline := [.leaf x.name.span, x.ty.outline]

def Modifiers.outlines (m : Modifiers) : List Outline := m.marks.map fun x => .leaf x.2

def ItemKind.outlines : ItemKind → List Outline
  | .fn f => [.leaf f.keyword, .leaf f.name.span] ++ f.params.flatMap Param.outlines ++ Expr.outline? f.align ++
      Expr.outline? f.linkSection ++ Expr.outline? f.callConv ++ [f.ret.outline] ++ f.body.toList.map Block.outline
  | .var v => [.leaf v.keyword, .leaf v.name.span] ++ Expr.outline? v.ty ++ Expr.outline? v.align ++
      Expr.outline? v.linkSection ++ Expr.outline? v.init
  | .comptime b | .test _ b => [b.outline]
  | .usingNamespace e => [e.outline]
  | .field x ty e => [.leaf x.span, ty.outline] ++ Expr.outline? e

def ItemKind.modifiers : ItemKind → Modifiers
  | .fn f => f.modifiers
  | .var v => v.modifiers
  | _ => {}

def Span.Fits (B : Nat → Prop) (s : Span) : Prop := s.start ≤ s.stop ∧ B s.start ∧ B s.stop

namespace Outline
variable {B : Nat → Prop}

structure InOrder (lo hi : Nat) (parts : List Outline) : Prop where
  within : ∀ o ∈ parts, lo ≤ o.span.start ∧ o.span.stop ≤ hi
  ordered : parts.Pairwise fun o o' => o.span.stop ≤ o'.span.start

/-- Every part of every node stands inside it and after the parts before it, and each range fits. -/
inductive Nested (B : Nat → Prop) : Outline → Prop
  | node {s : Span} {parts : List Outline} (hs : s.Fits B) (hparts : InOrder s.start s.stop parts)
      (hnested : ∀ o ∈ parts, Nested B o) : Nested B (node s parts)

lemma Nested.fits {o : Outline} (h : o.Nested B) : o.span.Fits B := by
  cases h
  assumption

structure Row (B : Nat → Prop) (lo hi : Nat) (parts : List Outline) : Prop extends InOrder lo hi parts where
  nested : ∀ o ∈ parts, o.Nested B

namespace Row
variable {lo hi hi' mid : Nat} {xs ys : List Outline} {s : Span}

lemma nil : Row B lo hi [] := ⟨⟨by simp, .nil⟩, by simp⟩

lemma mono (h : Row B lo hi xs) (hh : hi ≤ hi') : Row B lo hi' xs :=
  ⟨⟨fun o ho => ⟨(h.within o ho).1, (h.within o ho).2.trans hh⟩, h.ordered⟩, h.nested⟩

lemma append (hx : Row B lo hi xs) (hy : Row B mid hi' ys) (hlo : lo ≤ mid) (hm : hi ≤ mid) (hhi : hi ≤ hi') :
    Row B lo hi' (xs ++ ys) where
  within o ho := by
    obtain ho | ho := List.mem_append.1 ho
    · exact ⟨(hx.within o ho).1, (hx.within o ho).2.trans hhi⟩
    · exact ⟨hlo.trans (hy.within o ho).1, (hy.within o ho).2⟩
  ordered := List.pairwise_append.2 ⟨hx.ordered, hy.ordered, fun x hx' y hy' =>
    ((hx.within x hx').2.trans hm).trans (hy.within y hy').1⟩
  nested o ho := (List.mem_append.1 ho).elim (hx.nested o) (hy.nested o)

lemma gather (h : Row B lo hi (xs ++ ys)) (hs : s.Fits B) (hlo : lo ≤ s.start) (hhi : s.stop ≤ hi)
    (hx : ∀ x ∈ xs, x.span.stop ≤ s.start) (hy : ∀ y ∈ ys, s.start ≤ y.span.start ∧ y.span.stop ≤ s.stop) :
    Row B lo hi (xs ++ [.node s ys]) := by
  obtain ⟨hxs, hys, -⟩ := List.pairwise_append.1 h.ordered
  have hnode : Nested B (.node s ys) := .node hs ⟨hy, hys⟩ fun o ho => h.nested o (List.mem_append_right _ ho)
  refine ⟨⟨fun o ho => ?_, List.pairwise_append.2 ⟨hxs, List.pairwise_singleton .., fun x hx' y hy => ?_⟩⟩,
    fun o ho => ?_⟩
  · obtain ho | ho := List.mem_append.1 ho
    · exact h.within o (List.mem_append_left _ ho)
    · cases List.mem_singleton.1 ho
      exact ⟨hlo, hhi⟩
  · cases List.mem_singleton.1 hy
    exact hx x hx'
  · obtain ho | ho := List.mem_append.1 ho
    · exact h.nested o (List.mem_append_left _ ho)
    · cases List.mem_singleton.1 ho
      exact hnode

lemma leaf (hs : s.Fits B) : Row B s.start s.stop [.leaf s] :=
  gather (show Row B _ _ ([] ++ []) from nil) hs le_rfl le_rfl nofun nofun

lemma wrap {a : Outline} (h : Row B lo hi (xs ++ [a])) : Row B lo hi (xs ++ [.node a.span [a]]) := by
  have ha : a ∈ xs ++ [a] := by simp
  obtain ⟨-, -, hx⟩ := List.pairwise_append.1 h.ordered
  exact h.gather (h.nested a ha).fits (h.within a ha).1 (h.within a ha).2 (by simpa using hx) (by simp)

lemma merge {a b : Outline} (h : Row B lo hi (xs ++ [a, b])) :
    Row B lo hi (xs ++ [.node (a.span.merge b.span) [a, b]]) := by
  have ha : a ∈ xs ++ [a, b] := by simp
  have hb : b ∈ xs ++ [a, b] := by simp
  obtain ⟨-, hab, hx⟩ := List.pairwise_append.1 h.ordered
  have hle : a.span.stop ≤ b.span.start := by simpa using hab
  obtain ⟨hla, hBa, -⟩ := (h.nested a ha).fits
  obtain ⟨hlb, -, hBb⟩ := (h.nested b hb).fits
  have hs : a.span.merge b.span = ⟨a.span.start, b.span.stop⟩ := by
    simp only [Span.merge, Span.mk.injEq]
    omega
  rw [hs]
  refine h.gather ⟨by dsimp only; omega, hBa, hBb⟩ (h.within a ha).1 (h.within b hb).2
    (fun x hx' => hx x hx' a (by simp)) ?_
  simp only [List.mem_cons, List.not_mem_nil, or_false, forall_eq_or_imp, forall_eq]
  omega

end Row

end Outline

lemma Expr.span_outline (e : Expr) : e.outline.span = e.span := by
  cases e <;> rfl

lemma Stmt.span_outline (x : Stmt) : x.outline.span = x.span := by
  cases x <;> try rfl
  next e => cases e <;> rfl

lemma Block.span_outline (b : Block) : b.outline.span = b.span := by
  cases b
  rfl

lemma Expr.outlines_eq (es : List Expr) : outlines es = es.flatMap fun e => [e.outline] := by
  induction es with
  | nil => rfl
  | cons e es ih => exact congrArg (e.outline :: ·) ih

structure Modifiers.ListedIn (m : Modifiers) (row : List Outline) : Prop where
  marks : m.outlines.Sublist row
  library : ∀ x ∈ m.library, .leaf x.2 ∈ row

namespace Modifiers.ListedIn
variable {m : Modifiers} {row : List Outline} (h : m.ListedIn row)
include h

lemma mark (k : Modifier) (s : Span) : ListedIn { m with marks := m.marks ++ [(k, s)] } (row ++ [.leaf s]) where
  marks := by simpa [outlines] using h.marks
  library x hx := List.mem_append_left _ (h.library x hx)

lemma name (text : String) (s : Span) : ListedIn { m with library := some (text, s) } (row ++ [.leaf s]) where
  marks := h.marks.trans (List.sublist_append_left ..)
  library x hx := by
    cases hx
    simp

end Modifiers.ListedIn

def Item.Nested (B : Nat → Prop) (it : Item) : Prop :=
  ∃ mods, it.kind.modifiers.ListedIn mods ∧ (Outline.node it.span (mods ++ it.kind.outlines)).Nested B

namespace Parse
open Outline (Row)

variable {α β : Type} {B : Nat → Prop} {lo : Nat} {pre : List Outline} {p p' : Parser α} {q : α → Parser β}
  {outs : α → List Outline} {Q : β → List Outline → Prop} {c c' d : Cursor}

/-! Tokens in order. -/

structure Cursor.Tidy (B : Nat → Prop) (c : Cursor) : Prop where
  eof : c.eof.kind = .eof
  place : B c.prevEnd
  fits : ∀ t ∈ c.rest ++ [c.eof], t.span.Fits B ∧ c.prevEnd ≤ t.span.start
  ordered : (c.rest ++ [c.eof]).Pairwise fun t u => t.span.stop ≤ u.span.start

namespace Cursor.Tidy

lemma peek_mem (c : Cursor) : c.peek ∈ c.rest ++ [c.eof] := by
  cases hr : c.rest with
  | nil => simp [peek_nil hr]
  | cons t rest => simp [peek_cons hr]

lemma peek_le (h : c.Tidy B) {t : Token} (ht : t ∈ c.rest ++ [c.eof]) : c.peek.span.start ≤ t.span.start := by
  cases hr : c.rest with
  | nil =>
    simp only [hr, List.nil_append, List.mem_singleton] at ht
    rw [peek_nil hr, ht]
  | cons u rest =>
    have ho := h.ordered
    have hu := (h.fits u (by simp [hr])).1.1
    rw [hr, List.cons_append] at ho ht
    rw [peek_cons hr]
    obtain rfl | ht := List.mem_cons.1 ht
    · exact le_rfl
    · exact hu.trans (List.rel_of_pairwise_cons ho ht)

lemma reach (h : c.Tidy B) (hr : c.Reaches d) (he : d.eof = c.eof) :
    d.Tidy B ∧ c.prevEnd ≤ d.prevEnd ∧ c.peek.span.start ≤ d.peek.span.start ∧
      (d.rest.length < c.rest.length → c.peek.span.start ≤ d.prevEnd) := by
  obtain ⟨read, hread, hlast⟩ := hr
  have hall : c.rest ++ [c.eof] = read ++ (d.rest ++ [d.eof]) := by rw [hread, he, List.append_assoc]
  have hmem {t : Token} (ht : t ∈ d.rest ++ [d.eof]) : t ∈ c.rest ++ [c.eof] := hall ▸ List.mem_append_right _ ht
  obtain ⟨-, hd, hx⟩ := List.pairwise_append.1 (hall ▸ h.ordered)
  have hpeek := h.peek_le (hmem (peek_mem d))
  cases hl : read.getLast? with
  | none =>
    obtain rfl := List.getLast?_eq_none_iff.1 hl
    have hp : d.prevEnd = c.prevEnd := hlast
    refine ⟨⟨he ▸ h.eof, hp ▸ h.place, fun t ht => hp ▸ h.fits t (hmem ht), hd⟩, hp.ge, hpeek, fun hlt => ?_⟩
    simp [hread] at hlt
  | some t =>
    rw [hl] at hlast
    have hp : d.prevEnd = t.span.stop := hlast
    have ht : t ∈ read := List.mem_of_getLast? hl
    have htc : t ∈ c.rest ++ [c.eof] := hall ▸ List.mem_append_left _ ht
    obtain ⟨⟨hle, -, hB⟩, hprev⟩ := h.fits t htc
    have hstart := h.peek_le htc
    refine ⟨⟨he ▸ h.eof, hp ▸ hB, fun u hu => ⟨(h.fits u (hmem hu)).1, hp ▸ hx t ht u hu⟩, hd⟩, ?_, hpeek, fun _ => ?_⟩
    · omega
    · omega

lemma run (h : c.Tidy B) [hs : Steady p] {a : α} (hp : p c = .ok a c') :
    c'.Tidy B ∧ c.prevEnd ≤ c'.prevEnd ∧ c.peek.span.start ≤ c'.peek.span.start := by
  obtain ⟨he, hr, -⟩ := hs.eats.ok c a c' h.eof hp
  obtain ⟨ht, hprev, hpeek, -⟩ := h.reach hr he
  exact ⟨ht, hprev, hpeek⟩

lemma next (h : c.Tidy B) {t : Token} {rest : List Token} (hr : c.rest = t :: rest) (hlo : lo ≤ c.peek.span.start)
    (hrow : Row B lo (max c.prevEnd lo) pre) :
    ({ c with rest, prevEnd := t.span.stop } : Cursor).Tidy B ∧
      lo ≤ ({ c with rest, prevEnd := t.span.stop } : Cursor).peek.span.start ∧
      Row B lo (max t.span.stop lo) (pre ++ [.leaf t.span]) := by
  obtain ⟨ht, hprev, hpeek, -⟩ := h.reach (.step hr) rfl
  obtain ⟨hfits, hle⟩ := h.fits t (by simp [hr])
  have hprev : c.prevEnd ≤ t.span.stop := hprev
  rw [peek_cons hr] at hlo hpeek
  exact ⟨ht, hlo.trans hpeek, hrow.append ((Row.leaf hfits).mono (le_max_left ..)) hlo (by omega) (by omega)⟩

end Cursor.Tidy

/-! Rows of parts. -/

def Rows (B : Nat → Prop) (lo : Nat) (pre : List Outline) (p : Parser α) (Q : α → List Outline → Prop) : Prop :=
  ∀ c a c', c.Tidy B → B lo → lo ≤ c.peek.span.start → Row B lo (max c.prevEnd lo) pre → p c = .ok a c' →
    ∃ row, Q a row ∧ Row B lo (max c'.prevEnd lo) row

def Adds (B : Nat → Prop) (p : Parser α) (outs : α → List Outline) : Prop :=
  ∀ lo pre, Rows B lo pre p fun a row => row = pre ++ outs a

abbrev AddsExpr (B : Nat → Prop) (p : Parser Expr) : Prop := Adds B p fun e => [e.outline]

namespace Rows

lemma same {a : β} (h : Q a pre) : Rows B lo pre (Pure.pure a) Q := by
  intro c b c' _ _ _ hrow hp
  obtain ⟨rfl, rfl⟩ := pure_ok hp
  exact ⟨pre, h, hrow⟩

lemma ite {b : Prop} [Decidable b] {p q : Parser β} (hp : Rows B lo pre p Q) (hq : Rows B lo pre q Q) :
    Rows B lo pre (if b then p else q) Q := by
  split
  · exact hp
  · exact hq

lemma fail (what : String) : Rows B lo pre (failExpected what) Q := fun _ _ _ _ _ _ _ h => by cases h

lemma bind [Steady p] {P : α → List Outline → Prop} (hp : Rows B lo pre p P)
    (hq : ∀ a row, P a row → Rows B lo row (q a) Q) : Rows B lo pre (p >>= q) Q := by
  intro c b c' ht hB hlo hrow h
  obtain ⟨a, c₁, h₁, h₂⟩ := bind_ok h
  obtain ⟨ht₁, -, hpeek⟩ := ht.run h₁
  obtain ⟨row, ha, hrow₁⟩ := hp c a c₁ ht hB hlo hrow h₁
  exact hq a row ha c₁ b c' ht₁ hB (hlo.trans hpeek) hrow₁ h₂

lemma read [Steady p] (hp : Adds B p outs) (hq : ∀ a, Rows B lo (pre ++ outs a) (q a) Q) : Rows B lo pre (p >>= q) Q :=
  bind (hp lo pre) fun a _ hrow => hrow ▸ hq a

lemma skip [Steady p] (hq : ∀ a, Rows B lo pre (q a) Q) : Rows B lo pre (p >>= q) Q := by
  refine bind (P := fun _ row => row = pre) (fun c a c' ht hB hlo hrow h => ?_) fun a _ hrow => hrow ▸ hq a
  obtain ⟨-, hprev, -⟩ := ht.run h
  exact ⟨pre, rfl, hrow.mono (by omega)⟩

lemma map {f : α → β} (hp : Rows B lo pre p fun a => Q (f a)) : Rows B lo pre (f <$> p) Q := by
  intro c b c' ht hB hlo hrow h
  change EStateM.map f p c = _ at h
  unfold EStateM.map at h
  split at h
  · next h₁ =>
    cases h
    exact hp c _ _ ht hB hlo hrow h₁
  · cases h

lemma token {q : Token → Parser β} [hq : ∀ t, Eager (q t)] (h : ∀ t, Rows B lo (pre ++ [.leaf t.span]) (q t) Q) :
    Rows B lo pre (advance >>= q) Q := by
  intro c b c' ht hB hlo hrow hp
  cases hr : c.rest with
  | nil =>
    rw [bind_eq (advance_nil hr)] at hp
    have hlen := ((hq _).eats.ok c b c' ht.eof hp).2.2
    simp [hr] at hlen
  | cons t rest =>
    rw [bind_eq (advance_cons hr)] at hp
    obtain ⟨ht₁, hlo₁, hrow₁⟩ := ht.next hr hlo hrow
    exact h t _ b c' ht₁ hB hlo₁ hrow₁ hp

lemma regroup {pre' : List Outline} {p : Parser β} (h : ∀ hi, Row B lo hi pre → Row B lo hi pre')
    (hp : Rows B lo pre' p Q) : Rows B lo pre p Q :=
  fun c a c' ht hB hlo hrow => hp c a c' ht hB hlo (h _ hrow)

lemma close {q : Span → Parser β} (hq : ∀ s, Rows B lo [.node s pre] (q s) Q) :
    Rows B lo pre (spanFrom lo >>= q) Q := by
  intro c b c' ht hB hlo hrow h
  have hrun : spanFrom lo c = .ok ⟨lo, max c.prevEnd lo⟩ c := rfl
  rw [bind_eq hrun] at h
  have hmax : B (max c.prevEnd lo) := by
    rcases max_choice c.prevEnd lo with h | h <;> rw [h]
    · exact ht.place
    · exact hB
  refine hq _ c b c' ht hB hlo ?_ h
  exact (show Row B _ _ ([] ++ pre) from hrow).gather ⟨le_max_right .., hB, hmax⟩ le_rfl le_rfl (by simp) hrow.within

end Rows

namespace Adds
variable {outs : β → List Outline}

lemma of {p : Parser β} [Steady p]
    (h : ∀ {c a c'}, c.Tidy B → p c = .ok a c' → Row B c.peek.span.start c'.prevEnd (outs a)) : Adds B p outs := by
  intro lo pre c a c' ht hB hlo hrow hp
  obtain ⟨-, hprev, -⟩ := ht.run hp
  have hpeek := (ht.fits _ (Cursor.Tidy.peek_mem c)).2
  exact ⟨_, rfl, hrow.append ((h ht hp).mono (le_max_left ..)) hlo (by omega) (by omega)⟩

lemma ofStart {p : Parser β} [hp : Eager p] (h : ∀ {c a c'}, c.Tidy B → c.rest ≠ [] → p c = .ok a c' →
    ∃ row, row = outs a ∧ Row B c.peek.span.start (max c'.prevEnd c.peek.span.start) row) : Adds B p outs :=
  of fun {c a c'} ht hrun => by
    obtain ⟨he, hr, hlen⟩ := hp.eats.ok c a c' ht.eof hrun
    obtain ⟨-, -, -, hread⟩ := ht.reach hr he
    obtain ⟨_, rfl, hrow⟩ := h ht (fun hn => by simp [hn] at hlen) hrun
    rwa [max_eq_left (hread (by omega))] at hrow

lemma start {p : Parser β} [Eager p] {q : Nat → Parser β} (hp : p = startHere >>= q)
    (h : ∀ start, Rows B start [] (q start) fun b row => row = outs b) : Adds B p outs :=
  ofStart fun {c _ _} ht _ hrun => by
    have hstart : startHere c = .ok c.peek.span.start c := rfl
    rw [hp, bind_eq hstart] at hrun
    exact h _ c _ _ ht (ht.fits _ (Cursor.Tidy.peek_mem c)).1.2.1 le_rfl .nil hrun

lemma expect {kind : TokenKind} (hk : kind ≠ .eof) : Adds B (expect kind) fun t => [.leaf t.span] :=
  of fun {c t c'} ht hp => by
    obtain ⟨rest, hr, -, rfl⟩ := expect_ok hk ht.eof hp
    rw [peek_cons hr]
    exact .leaf (ht.fits t (by simp [hr])).1

lemma ident : Adds B ident fun x => [.leaf x.span] := fun _ _ => .read (expect (by decide)) fun _ => .same rfl

lemma opening {kind : TokenKind} (hk : kind ≠ .eof) {q : Token → Parser β} [∀ t, Steady (q t)]
    (h : ∀ t, Rows B t.span.start [] (q t) fun b row => row = outs b) : Adds B (Parse.expect kind >>= q) outs := by
  have : Eager (Parse.expect kind >>= q) := ⟨.first (eats_expect hk)⟩
  refine ofStart fun {c _ _} ht _ hp => ?_
  obtain ⟨t, c₁, h₁, h₂⟩ := bind_ok hp
  obtain ⟨ht₁, -, hpeek⟩ := ht.run h₁
  obtain ⟨rest, hr, -, rfl⟩ := expect_ok hk ht.eof h₁
  rw [peek_cons hr] at hpeek ⊢
  exact h t _ _ _ ht₁ (ht.fits t (by simp [hr])).1.2.1 hpeek .nil h₂

lemma after {p : Parser β} {mark : TokenKind} [Steady p] (hp : Adds B p outs) :
    Adds B (after mark p) fun x => x.elim [] outs := fun _ _ =>
  .skip fun _ => .ite (.read hp fun _ => .same rfl) (.same (by simp))

lemma commaList {p : Parser β} {close : Punct} [Steady p] (hp : Adds B p outs) (fuel : Nat) :
    Adds B (commaList close p fuel) fun xs => xs.flatMap outs := by
  induction fuel with
  | zero => exact fun _ _ => .same (by simp)
  | succ fuel ih =>
    intro lo pre
    exact .skip fun _ => .ite (.same (by simp)) <| .read hp fun _ => .skip fun _ =>
      .ite (.read ih fun _ => .same (by simp)) (.same (by simp))

/-! Expressions. -/

lemma rows_binary {op : BinaryOp} {a b : Expr} {hi : Nat} (h : Row B lo hi (pre ++ [a.outline] ++ [b.outline])) :
    Row B lo hi (pre ++ [(binary op a b).outline]) := by
  rw [List.append_assoc] at h
  have hm := h.merge
  rwa [Expr.span_outline, Expr.span_outline] at hm

section
variable {expr : Parser Expr} (he : AddsExpr B expr)
include he

lemma exprs? {mark : TokenKind} [Steady expr] : Adds B (Parse.after mark expr) Expr.outline? := fun _ _ =>
  .skip fun _ => .ite (.read he fun _ => .same rfl) (.same (by simp [Expr.outline?]))

lemma exprs {close : Punct} [Steady expr] (fuel : Nat) :
    Adds B (Parse.commaList close expr fuel) Expr.outlines := fun _ _ =>
  by simpa only [Expr.outlines_eq] using commaList he fuel _ _

lemma arguments [Steady expr] : Adds B (arguments expr) Expr.outlines := fun _ _ =>
  .skip fun _ => .read (exprs he _) fun _ => .skip fun _ => .same rfl

lemma rows_joined [Steady expr] {op? : TokenKind → Option BinaryOp} (fuel : Nat) (e : Expr) :
    Rows B lo (pre ++ [e.outline]) (joined expr op? fuel e) fun e row => row = pre ++ [e.outline] := by
  induction fuel generalizing e with
  | zero => exact .same rfl
  | succ fuel ih =>
    refine .skip fun t => ?_
    split
    · exact .same rfl
    · exact .skip fun _ => .read he fun b => .regroup (fun _ => rows_binary) (ih _)

lemma leftLevel [Steady expr] {op? : TokenKind → Option BinaryOp} : AddsExpr B (leftLevel expr op?) := fun _ _ =>
  .read he fun _ => .skip fun _ => rows_joined he _ _

lemma single [Steady expr] {op? : TokenKind → Option BinaryOp} : AddsExpr B (single expr op?) := fun _ _ => by
  refine .read he fun _ => .skip fun t => ?_
  split
  · exact .same rfl
  · exact .skip fun _ => .read he fun _ => .regroup (fun _ => rows_binary) (.same rfl)

lemma levels [Eager expr] : AddsExpr B (levels expr) :=
  leftLevel (leftLevel (single (leftLevel (leftLevel he))))

lemma primary [Steady expr] : AddsExpr B (primary expr) := by
  refine ofStart fun {c a c'} ht hne hp => ?_
  obtain ⟨t, rest, hr⟩ := List.exists_cons_of_ne_nil hne
  have hfits := (ht.fits t (by simp [hr])).1
  rw [Parse.primary, bind_eq (peek_run c), peek_cons hr] at hp
  rw [peek_cons hr]
  have leaf {node : Span → Expr} (hnode : ∀ s, (node s).outline = .leaf s) (h : Parse.leaf node c = .ok a c') :
      ∃ row, row = [a.outline] ∧ Row B t.span.start (max c'.prevEnd t.span.start) row := by
    rw [Parse.leaf, bind_eq (advance_cons hr)] at h
    cases h
    exact ⟨_, by rw [hnode], (Row.leaf hfits).mono (le_max_left ..)⟩
  have number {γ : Type} {value : Except NumberFault γ} {node : Span → γ → Expr}
      (hnode : ∀ s v, (node s v).outline = .leaf s)
      (h : number t value node c = .ok a c') :
      ∃ row, row = [a.outline] ∧ Row B t.span.start (max c'.prevEnd t.span.start) row := by
    unfold Parse.number at h
    split at h
    · rw [bind_eq (advance_cons hr)] at h
      cases h
      exact ⟨_, by rw [hnode], (Row.leaf hfits).mono (le_max_left ..)⟩
    · cases h
  have rows {p : Parser Expr} (h : Rows B t.span.start [] p fun e row => row = [e.outline]) (hp : p c = .ok a c') :
      ∃ row, row = [a.outline] ∧ Row B t.span.start (max c'.prevEnd t.span.start) row :=
    h c a c' ht hfits.2.1 (by rw [peek_cons hr]) .nil hp
  generalize t.kind = kind at hp
  cases kind with
  | int | float => exact number (fun _ _ => rfl) hp
  | str | ident => exact leaf (fun _ => rfl) hp
  | builtin => exact rows (.skip fun _ => .skip fun _ => .read (arguments he) fun _ => .close fun _ => .same rfl) hp
  | keyword k =>
    cases k with
    | litTrue | litFalse | null | undefined | unreachable => exact leaf (fun _ => rfl) hp
    | _ => cases hp
  | punct k =>
    cases k with
    | lParen => exact rows (.skip fun _ => .read he fun _ => .skip fun _ => .same rfl) hp
    | _ => cases hp
  | eof => cases hp

lemma rows_suffixes [Steady expr] (fuel : Nat) (e : Expr) :
    Rows B lo [e.outline] (suffixes expr lo fuel e) fun e row => row = [e.outline] := by
  induction fuel generalizing e with
  | zero => exact .same rfl
  | succ fuel ih =>
    exact .skip fun _ => .ite (.read (arguments he) fun args => .close fun s => ih (.call s e args)) <|
      .skip fun _ => .ite (.close fun s => ih (.deref s e)) (.same rfl)

lemma suffixed [Steady expr] : AddsExpr B (suffixed expr) :=
  .start rfl fun _ => .read (primary he) fun _ => .skip fun _ => rows_suffixes he _ _

lemma rows_pointerTo [Steady expr] {size : PtrSize} {z : Option Expr} :
    Rows B lo (Expr.outline? z) (pointerTo expr lo size z) fun e row => row = [e.outline] :=
  .skip fun _ => .read he fun _ => .close fun _ => .same rfl

lemma rows_bracketed [Steady expr] {operand : Bool → Parser Expr} [∀ b, Steady (operand b)]
    (ho : ∀ b, AddsExpr B (operand b)) {allowInit : Bool} :
    Rows B lo [] (bracketed operand expr lo allowInit) fun e row => row = [e.outline] := by
  have pointer {size : PtrSize} :
      Rows B lo [] (pointerTo (operand allowInit) lo size none) fun e row => row = [e.outline] :=
    rows_pointerTo (z := none) (ho allowInit)
  unfold bracketed
  refine .skip fun _ => .skip fun _ => .ite ?_ <| .skip fun _ => .ite pointer <| .skip fun _ => .ite ?_ ?_
  · refine .skip fun _ => .ite (.skip fun _ => .skip fun _ => pointer) ?_
    exact .read (exprs? he) fun z => .skip fun _ => rows_pointerTo (ho allowInit)
  · exact .read he fun z => .skip fun _ => rows_pointerTo (z := some z) (ho allowInit)
  · refine .read he fun _ => .read (exprs? he) fun _ => .skip fun _ => .read (ho false) fun _ => .close fun _ => ?_
    refine .skip fun _ => .ite ?_ (.same rfl)
    exact .skip fun _ => .skip fun _ => .read (exprs he _) fun _ => .skip fun _ => .close fun _ => .same rfl

end

lemma operandAt (depth : Nat) (allowInit : Bool) : AddsExpr B (operandAt depth allowInit) := by
  induction depth generalizing allowInit with
  | zero => exact fun _ _ => .fail _
  | succ depth ih =>
    refine .start rfl fun start => .skip fun t => ?_
    dsimp only
    split
    · exact .skip fun _ => .read (ih _) fun _ => .close fun _ => .same rfl
    · exact .skip fun _ => .read (ih _) fun _ => .close fun _ => .same rfl
    · exact .skip fun _ => .read (ih _) fun _ => .close fun _ => .same rfl
    · exact .skip fun _ => .read (ih _) fun _ => .close fun _ => .same rfl
    · exact .skip fun _ => rows_pointerTo (z := none) (ih _)
    · exact rows_bracketed (levels (ih true)) ih
    · exact suffixed (levels (ih true)) _ []

lemma expr : AddsExpr B expr := fun _ _ => .skip fun _ => levels (operandAt _ _) _ _

lemma typeExpr : AddsExpr B typeExpr := fun _ _ => .skip fun _ => operandAt _ _ _ _

lemma parenthesised : AddsExpr B parenthesised := fun _ _ => .skip fun _ => .read expr fun _ => .skip fun _ => .same rfl

/-! Statements. -/

section
variable {stmt : Parser Stmt} [Steady stmt] (hs : Adds B stmt fun x => [x.outline])
include hs

lemma stmtsUntilBrace (fuel : Nat) : Adds B (stmtsUntilBrace stmt fuel) Stmt.outlines := by
  induction fuel with
  | zero => exact fun _ _ => .same (by simp [Stmt.outlines])
  | succ fuel ih =>
    exact fun _ _ => .skip fun _ => .skip fun _ => .ite (.same (by simp [Stmt.outlines])) <|
      .read hs fun _ => .read ih fun _ => .same (by simp [Stmt.outlines])

lemma block : Adds B (block stmt) fun b => [b.outline] :=
  opening (show TokenKind.punct .lBrace ≠ .eof from nofun) fun _ => .skip fun _ => .read (stmtsUntilBrace hs _) fun _ =>
    .skip fun _ => .close fun _ => .same rfl

lemma body : Adds B (body stmt) fun b => [b.outline] := fun _ _ =>
  .skip fun _ => .ite (block hs _ _) <| .read hs fun x =>
    .regroup (fun _ h => h.wrap) (.same (by rw [Stmt.span_outline]; rfl))

end

lemma stmtAt (depth : Nat) : Adds B (stmtAt depth) fun x => [x.outline] := by
  induction depth with
  | zero => exact fun _ _ => .fail _
  | succ depth ih =>
    have other : Adds B (do
        if ← atKind (.keyword .ifCond) then Parse.stmtAt depth
        else
          let b ← Parse.body (Parse.stmtAt depth)
          return Stmt.block b.span b) fun x => [x.outline] := fun _ _ =>
      .skip fun _ => .ite (ih _ _) <| .read (body ih) fun b =>
        .regroup (fun _ h => h.wrap) (.same (by rw [Block.span_outline]; rfl))
    refine .start rfl fun start => .skip fun t => ?_
    dsimp only
    split
    · exact .skip fun _ => .read ident fun _ => .read (exprs? typeExpr) fun _ => .skip fun _ => .read expr fun _ =>
        .skip fun _ => .close fun _ => .same rfl
    · exact .skip fun _ => .read ident fun _ => .read (exprs? typeExpr) fun _ => .skip fun _ => .read expr fun _ =>
        .skip fun _ => .close fun _ => .same rfl
    · have none : Adds B (pure none) Expr.outline? := fun _ _ => .same (by simp [Expr.outline?])
      have some : Adds B (some <$> Parse.expr) Expr.outline? := fun _ _ => .map (expr _ _)
      exact .skip fun _ => .skip fun _ => .ite (.read none fun _ => .skip fun _ => .close fun _ => .same rfl)
        (.read some fun _ => .skip fun _ => .close fun _ => .same rfl)
    · exact .skip fun _ => .read parenthesised fun _ => .read (body ih) fun _ => .read (after other) fun x =>
        .close fun _ => .same (by cases x <;> rfl)
    · exact .skip fun _ => .read parenthesised fun _ => .read (body ih) fun _ => .close fun _ => .same rfl
    · exact .read (block ih) fun _ => .close fun _ => .same rfl
    · exact .skip fun _ => .read (block ih) fun _ => .close fun _ => .same rfl
    · exact .skip fun _ => .skip fun _ => .close fun _ => .same rfl
    · exact .skip fun _ => .skip fun _ => .close fun _ => .same rfl
    · refine .read expr fun _ => .read (exprs? expr) fun x => ?_
      cases x with
      | none => exact .skip fun _ => .close fun _ => .same rfl
      | some => exact .skip fun _ => .close fun _ => .same rfl

lemma itemBlock : Adds B itemBlock fun b => [b.outline] := fun _ _ => .skip fun _ => block (stmtAt _) _ _

/-! Items. -/

lemma clause {k : Keyword} : Adds B (clause k) Expr.outline? := exprs? parenthesised

lemma param : Adds B param Param.outlines := fun _ _ =>
  .read ident fun _ => .skip fun _ => .read typeExpr fun _ => .same (by simp [Param.outlines])

def KindRow (m : Modifiers) (pre : List Outline) (k : ItemKind) (row : List Outline) : Prop :=
  (k.modifiers = m ∨ k.modifiers = {}) ∧ row = pre ++ k.outlines

lemma fnItem {m : Modifiers} : Rows B lo pre (fnItem m) fun f => KindRow m pre (.fn f) := by
  refine .read (expect nofun) fun _ => .read ident fun _ => .skip fun _ => .skip fun _ =>
    .read (commaList param _) fun _ =>
    .skip fun _ => .read clause fun _ => .read clause fun _ => .read clause fun _ => .read typeExpr fun _ => ?_
  have none : Adds B (pure none) fun b => (b : Option Block).toList.map Block.outline := fun _ _ => .same (by simp)
  have some : Adds B (some <$> Parse.itemBlock) fun b => b.toList.map Block.outline := fun _ _ => .map (itemBlock _ _)
  exact .skip fun _ => .ite (.read some fun _ => .same ⟨.inl rfl, by simp [ItemKind.outlines]⟩) <|
    .skip fun _ => .read none fun _ => .same ⟨.inl rfl, by simp [ItemKind.outlines]⟩

lemma varItem {m : Modifiers} : Rows B lo pre (varItem m) fun v => KindRow m pre (.var v) :=
  .token fun _ => .read ident fun _ => .read (exprs? typeExpr) fun _ => .read clause fun _ => .read clause fun _ =>
    .read (exprs? expr) fun _ => .skip fun _ => .same ⟨.inl rfl, by simp [ItemKind.outlines]⟩

lemma fieldItem {m : Modifiers} : Rows B lo pre fieldItem (KindRow m pre) :=
  .read ident fun _ => .skip fun _ => .read expr fun _ => .read (exprs? expr) fun _ => .skip fun _ =>
    .ite (.skip fun _ => .same ⟨.inr rfl, by simp [ItemKind.outlines]⟩) (.same ⟨.inr rfl, by simp [ItemKind.outlines]⟩)

lemma plainItem {m : Modifiers} : Rows B lo pre plainItem (KindRow m pre) := by
  refine .skip fun t => ?_
  split
  · exact .skip fun _ => .read itemBlock fun _ => .same ⟨.inr rfl, rfl⟩
  · exact .skip fun _ => .skip fun _ => .read itemBlock fun _ => .same ⟨.inr rfl, rfl⟩
  · exact .skip fun _ => .read expr fun _ => .skip fun _ => .same ⟨.inr rfl, rfl⟩
  · exact .skip fun _ => .ite fieldItem (.fail _)

end Adds

lemma rows_modifiersFrom {fuel : Nat} {m : Modifiers} {row : List Outline} (hm : m.ListedIn row) :
    Rows B lo row (modifiersFrom m fuel) Modifiers.ListedIn := by
  induction fuel generalizing m row with
  | zero => exact .same hm
  | succ fuel ih =>
    intro c m' c' ht hB hlo hrow h
    rw [modifiersFrom, bind_eq (peek_run c)] at h
    cases hr : c.rest with
    | nil =>
      rw [peek_nil hr, ht.eof] at h
      obtain ⟨rfl, rfl⟩ := pure_ok h
      exact ⟨row, hm, hrow⟩
    | cons t rest =>
      rw [peek_cons hr] at h
      cases hk : modifier? t.kind with
      | none =>
        rw [hk] at h
        obtain ⟨rfl, rfl⟩ := pure_ok h
        exact ⟨row, hm, hrow⟩
      | some k =>
        obtain ⟨ht₁, hlo₁, hrow₁⟩ := ht.next hr hlo hrow
        have hm₁ := hm.mark k t.span
        simp only [hk, bind_eq (advance_cons hr), bind_eq (peek_run _)] at h
        split at h
        · next hlib =>
          simp only [Bool.and_eq_true, beq_iff_eq] at hlib
          cases hr₁ : rest with
          | nil =>
            rw [peek_nil hr₁, ht.eof] at hlib
            cases hlib.2
          | cons u rest₁ =>
            obtain ⟨ht₂, hlo₂, hrow₂⟩ := ht₁.next hr₁ hlo₁ hrow₁
            rw [bind_eq (advance_cons hr₁), peek_cons (c := { c with rest, prevEnd := t.span.stop }) hr₁] at h
            exact ih (hm₁.name _ u.span) _ _ _ ht₂ hB hlo₂ hrow₂ h
        · exact ih hm₁ _ _ _ ht₁ hB hlo₁ hrow₁ h

def ItemRow (it : Item) (row : List Outline) : Prop :=
  ∃ mods, it.kind.modifiers.ListedIn mods ∧ row = [.node it.span (mods ++ it.kind.outlines)]

lemma item_row {it : Item} (ht : c.Tidy B) (h : item c = .ok it c') :
    ∃ row, ItemRow it row ∧ Row B c.peek.span.start (max c'.prevEnd c.peek.span.start) row := by
  have hstart : startHere c = .ok c.peek.span.start c := rfl
  rw [item, bind_eq hstart] at h
  refine Rows.skip (Q := ItemRow) (fun isPublic => .skip fun n => ?_) c it c' ht
    (ht.fits _ (Cursor.Tidy.peek_mem c)).1.2.1 le_rfl .nil h
  refine .bind (rows_modifiersFrom ⟨List.nil_sublist _, nofun⟩) fun m mods hm => .skip fun t => ?_
  have close (k : ItemKind) (row : List Outline) (hk : Adds.KindRow m mods k row) :
      Rows B c.peek.span.start row (do return ⟨k, isPublic, ← spanFrom c.peek.span.start⟩) ItemRow := by
    obtain ⟨hk, rfl⟩ := hk
    refine .close fun s => .same ⟨mods, ?_, rfl⟩
    obtain hk | hk := hk <;> dsimp only <;> rw [hk]
    · exact hm
    · exact ⟨List.nil_sublist _, nofun⟩
  dsimp only
  split
  · exact .bind (.map Adds.fnItem) close
  · exact .bind (.map Adds.varItem) close
  · exact .bind (.map Adds.varItem) close
  · exact .ite (.bind Adds.plainItem close) (.bind (.fail _) close)

lemma items_nested {fuel : Nat} {its : List Item} (ht : c.Tidy B) (h : items fuel c = (its, [])) :
    (∀ it ∈ its, c.peek.span.start ≤ it.span.start ∧ it.Nested B) ∧
      its.Pairwise fun a b => a.span.stop ≤ b.span.start := by
  induction fuel generalizing c its with
  | zero =>
    cases h
    exact ⟨by simp, .nil⟩
  | succ fuel ih =>
    unfold items at h
    split at h
    · cases h
      exact ⟨by simp, .nil⟩
    · split at h
      · next it c₁ hrun =>
        obtain ⟨he, hreach, hlen⟩ := eats_item.ok c it c₁ ht.eof hrun
        obtain ⟨ht₁, -, hpeek, hread⟩ := ht.reach hreach he
        obtain ⟨_, ⟨mods, hm, rfl⟩, hrow⟩ := item_row ht hrun
        obtain ⟨hstart, hstop⟩ := hrow.within _ List.mem_cons_self
        cases hrest : items fuel c₁ with
        | mk its₁ errs =>
          rw [hrest] at h
          cases h
          obtain ⟨hall, hord⟩ := ih ht₁ hrest
          have hle := (ht₁.fits _ (Cursor.Tidy.peek_mem c₁)).2
          rw [max_eq_left (hread (by omega))] at hstop
          refine ⟨List.forall_mem_cons.2 ⟨⟨hstart, mods, hm, hrow.nested _ List.mem_cons_self⟩, fun x hx => ?_⟩,
            .cons (fun x hx => ?_) hord⟩
          · exact ⟨hpeek.trans (hall x hx).1, (hall x hx).2⟩
          · exact (hstop.trans hle).trans (hall x hx).1
      · cases h

end Parse

def AtCharacter (source : String) (n : Nat) : Prop :=
  n ≤ (utf8 source).length ∧ ∃ a b, source.toList = a ++ b ∧ n = Scan.byteSize a

lemma Scan.Holds.fits {source : String} {s : Span} {text : List Char} (h : Holds 0 source.toList s text) :
    s.Fits (AtCharacter source) := by
  obtain ⟨-, a, b, hs, rfl⟩ := h
  have hlen : (utf8 source).length = byteSize a + (byteSize text + byteSize b) := by
    rw [← String.ofList_toList (s := source), length_utf8_ofList, hs, byteSize_append, byteSize_append]
  refine ⟨by dsimp only; omega, ⟨by dsimp only; omega, a, text ++ b, hs, by simp⟩, by dsimp only; omega, a ++ text,
    b, ?_, ?_⟩
  · rw [hs, List.append_assoc]
  · rw [byteSize_append, Nat.zero_add]

lemma Scan.scan_tidy (source : String) :
    (⟨(scan source).tokens, (scan source).eof, 0⟩ : Parse.Cursor).Tidy (AtCharacter source) := by
  obtain ⟨found, hf, hscan⟩ := scan_covers source
  have hend : byteSize source.toList = (utf8 source).length := by rw [← length_utf8_ofList, String.ofList_toList]
  have htok {t : Token} (ht : t ∈ (scan source).tokens) : t.span.Fits (AtCharacter source) := by
    rw [hscan] at ht
    obtain ⟨x, hx, hxt⟩ := List.mem_filterMap.1 ht
    cases Sum.getLeft?_eq_some_iff.1 hxt
    obtain ⟨text, hh, -⟩ := hf.holds hx
    exact hh.fits
  have heof : (scan source).eof.span = ⟨(utf8 source).length, (utf8 source).length⟩ := by
    rw [hscan, Result.eof, Nat.zero_add, hend]
    rfl
  refine ⟨rfl, ⟨Nat.zero_le _, [], _, rfl, rfl⟩, fun t ht => ⟨?_, Nat.zero_le _⟩,
    List.pairwise_append.2 ⟨?_, List.pairwise_singleton .., ?_⟩⟩
  · obtain ht | ht := List.mem_append.1 ht
    · exact htok ht
    · rw [List.mem_singleton.1 ht, heof]
      have hplace : AtCharacter source (utf8 source).length := ⟨le_rfl, source.toList, [], by simp, hend.symm⟩
      exact ⟨le_rfl, hplace, hplace⟩
  · have ho := List.pairwise_map.1 hf.ordered
    rw [hscan]
    refine List.pairwise_filterMap.2 (ho.imp fun hab t ht u hu => ?_)
    cases Sum.getLeft?_eq_some_iff.1 ht
    cases Sum.getLeft?_eq_some_iff.1 hu
    exact hab
  · intro t ht u hu
    rw [List.mem_singleton.1 hu, heof]
    exact (htok ht).2.2.1

/-- The items of a text stand one after the other, and every part of their trees inside the part that holds it. The
parts of one node, such as the statements of a block or the arguments of a call, stand in order and apart, and every
range is one of whole characters. -/
theorem Parse.file_nested {source : String} {its : List Item} (h : Parse.file source = .ok its) :
    its.Pairwise (fun a b => a.span.stop ≤ b.span.start) ∧ ∀ it ∈ its, it.Nested (AtCharacter source) := by
  obtain ⟨-, h⟩ := errors_of_file h
  obtain ⟨hall, hord⟩ := items_nested (Scan.scan_tidy source) h
  exact ⟨hord, fun it hit => (hall it hit).2⟩

-- A body without braces takes the range of its one statement.
theorem Parse.file_nested_choice :
    let source := "fn f() u8 \x7b if (a) return (a); else g(1, \"é\"); \x7d\nvar b = 1; // é"
    ∃ its, Parse.file source = .ok its ∧ its.length = 2 ∧ its.Pairwise (fun a b => a.span.stop ≤ b.span.start) ∧
      ∀ it ∈ its, it.Nested (AtCharacter source) := by
  intro source
  have hd : (Parse.file source).toOption.map List.length = some 2 := by decide +kernel
  cases h : Parse.file source with
  | error failure => simp [h, Except.toOption] at hd
  | ok its =>
    simp only [h, Except.toOption, Option.map_some, Option.some.injEq] at hd
    exact ⟨its, rfl, hd, Parse.file_nested h⟩

end Frontend
