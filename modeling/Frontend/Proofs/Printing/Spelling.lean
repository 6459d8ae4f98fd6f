import Mathlib
import Frontend.Proofs.Printing.Reading

/-! Scanning printed expressions: every word that is printed is scanned as itself before a blank or the end of the
text. -/

namespace Frontend

namespace Scan

def Lexical (w : Word) : Prop :=
  ∃ c t, w.2.toList = c :: t ∧ ∀ rest, (rest = [] ∨ ∃ r, rest = ' ' :: r) →
    lexeme c (t ++ rest) = ⟨.token w.1, c :: t, rest⟩ ∧ ∀ o, skip false o (c :: (t ++ rest)) = (o, c :: (t ++ rest))

lemma lexical_punct (p : Punct) : Lexical p.word := by
  cases p
  all_goals
    refine ⟨_, _, rfl, ?_⟩
    rintro _ (rfl | ⟨r, rfl⟩) <;> exact ⟨rfl, fun o => rfl⟩

lemma takeWhile_before {p : Char → Bool} (hp : p ' ' = false) {t : List Char} (ht : ∀ c ∈ t, p c) {rest : List Char}
    (hr : rest = [] ∨ ∃ r, rest = ' ' :: r) : (t ++ rest).takeWhile p = t ∧ (t ++ rest).dropWhile p = rest := by
  obtain rfl | ⟨r, rfl⟩ := hr
  · simpa using ht
  · rw [List.takeWhile_append_of_pos ht, List.dropWhile_append_of_pos ht]
    simp [hp]

lemma not_isBlank {c : Char} {p : Char → Bool} (hc : p c)
    (hp : p ' ' = false ∧ p '\t' = false ∧ p '\n' = false ∧ p '\r' = false ∧ p '\x0c' = false) : ¬ isBlank c := by
  intro hb
  simp only [isBlank, Bool.or_eq_true, decide_eq_true_eq] at hb
  obtain (((rfl | rfl) | rfl) | rfl) | rfl := hb <;> simp_all

lemma wordText_of {text : String} (h : (match text.toList with
    | c :: cs => isWordStart c && cs.all isWord
    | [] => false) = true) : ∃ c cs, text.toList = c :: cs ∧ isWordStart c ∧ ∀ d ∈ cs, isWord d := by
  split at h
  · next c cs htext =>
    simp only [Bool.and_eq_true, List.all_eq_true] at h
    exact ⟨c, cs, htext, h⟩
  · cases h

lemma lexical_word {text : String} (h : ∃ c cs, text.toList = c :: cs ∧ isWordStart c ∧ ∀ d ∈ cs, isWord d) :
    Lexical ((Keyword.ofText? text).elim .ident .keyword, text) := by
  obtain ⟨c, t, htext, hc, ht⟩ := h
  refine ⟨c, t, htext, fun rest hr => ?_⟩
  have hword : ∀ d ∈ c :: t, isWord d := by
    simpa using ⟨isWord_of_start hc, ht⟩
  obtain ⟨htake, hdrop⟩ := takeWhile_before (by decide) hword hr
  have hquote : c ≠ '"' := by rintro rfl; exact absurd hc (by decide)
  have hat : c ≠ '@' := by rintro rfl; exact absurd hc (by decide)
  have hslash : c ≠ '/' := by rintro rfl; exact absurd hc (by decide)
  have hdigit : c.isDigit = false := by
    simp only [isWordStart, Char.isAlpha, Char.isUpper, Char.isLower, Char.isDigit, Bool.or_eq_true, Bool.and_eq_true,
      decide_eq_true_eq, Bool.and_eq_false_iff, decide_eq_false_iff_not, ge_iff_le, UInt32.le_iff_toNat_le] at hc ⊢
    obtain (hc | hc) | rfl := hc
    · exact .inr (by simp at hc ⊢; omega)
    · exact .inr (by simp at hc ⊢; omega)
    · exact .inr (by decide)
  refine ⟨?_, fun o => skip_stays (not_isBlank hc (by decide)) (fun _ h => absurd h hslash) o⟩
  rw [List.cons_append] at htake hdrop
  simp only [lexeme, hquote, hdigit, hat, hc, word, htake, hdrop, if_false, if_true, Bool.false_eq_true]
  rw [← htext, String.ofList_toList]
  cases Keyword.ofText? text <;> rfl

lemma lexical_keyword (k : Keyword) : Lexical k.word := by
  have hk : Keyword.ofText? k.spelling.1 = some k := by cases k <;> decide
  have h : Lexical (_, k.spelling.1) := lexical_word (wordText_of (by cases k <;> decide))
  rwa [hk] at h

lemma lexical_builtin {name : String} (h : ∀ c ∈ name.toList, isWord c) : Lexical (.builtin, "@" ++ name) := by
  refine ⟨'@', name.toList, by simp, fun rest hr => ?_⟩
  obtain ⟨htake, hdrop⟩ := takeWhile_before (by decide) h hr
  refine ⟨?_, fun o => skip_stays (by decide) (fun _ h => absurd h (by decide)) o⟩
  simp [lexeme, htake, hdrop]

lemma lexical_int (n : Nat) : Lexical (.int, toString n) := by
  have hd (c : Char) (hc : c ∈ Nat.toDigits 10 n) : c.isDigit := Nat.isDigit_of_mem_toDigits (by decide) (by decide) hc
  have hne : Nat.toDigits 10 n ≠ [] := Nat.toDigits_ne_nil
  rw [Nat.toString_eq_ofList_toDigits]
  generalize Nat.toDigits 10 n = ds at hd hne
  cases ds with
  | nil => exact absurd rfl hne
  | cons c t =>
    have hc := hd c List.mem_cons_self
    have hquote : c ≠ '"' := by rintro rfl; exact absurd hc (by decide)
    have hslash : c ≠ '/' := by rintro rfl; exact absurd hc (by decide)
    refine ⟨c, t, String.toList_ofList, fun rest hr =>
      ⟨?_, fun o => skip_stays (not_isBlank hc (by decide)) (fun _ h => absurd h hslash) o⟩⟩
    have hgap : ∀ d ∈ c :: t, isDigitOrGap d := fun d hd' => by simp [isDigitOrGap, hd d hd']
    obtain ⟨htake, hdrop⟩ := takeWhile_before (by decide) hgap hr
    have hfrac : fraction rest = ([], rest) := fraction_of_not (by
      rintro ⟨d, r, rfl, -⟩
      obtain h | ⟨r, h⟩ := hr <;> cases h)
    have hexp : exponent rest = ([], rest) := exponent_of_not (by
      rintro ⟨e, s, d, r, rfl, he, -⟩
      obtain h | ⟨r, h⟩ := hr
      · cases h
      · cases h
        obtain he | he := he <;> cases he)
    have hbase : ¬ AtBase (c :: (t ++ rest)) := by
      rintro ⟨b, r, hr', hb⟩
      cases t with
      | nil =>
        obtain rfl | ⟨r, rfl⟩ := hr <;> cases hr'
        obtain hb | hb | hb := hb <;> cases hb
      | cons d t =>
        cases hr'
        have := hd b (by simp)
        obtain rfl | rfl | rfl := hb <;> exact absurd this (by decide)
    rw [List.cons_append] at htake hdrop
    simp only [lexeme, hquote, hc, if_false, if_true, number_of_not hbase, decimal, htake, hdrop, hfrac, hexp]
    simp

lemma lexical_string (s : String) : Lexical (.str, quotedString s) := by
  refine ⟨'"', s.toList.flatMap quotedChar ++ ['"'], String.toList_ofList, fun rest _ => ⟨?_, fun o => ?_⟩⟩
  · rw [List.append_assoc]
    exact lexeme_spelled Literal.spells_quotedChar s.toList rest
  · exact skip_stays (by decide) (fun _ h => absurd h (by decide)) o

namespace Lexes
variable {off stop : Nat} {cs : List Char} {toks : List Token}

lemma blank (h : Lexes (off + 1) cs toks stop) : Lexes off (' ' :: cs) toks stop := by
  have hskip : skip false off (' ' :: cs) = skip false (off + 1) cs := rfl
  cases h with
  | done h => exact .done (hskip.trans h)
  | token h hl hs => exact .token (hskip.trans h) hl hs

lemma of_words {ws : List Word} (h : ∀ w ∈ ws, Lexical w) (off : Nat) :
    ∃ toks stop, Lexes off ([' '].intercalate (ws.map (·.2.toList))) toks stop ∧ toks.map Token.word = ws := by
  induction ws generalizing off with
  | nil => exact ⟨[], off, .done rfl, rfl⟩
  | cons w ws ih =>
    obtain ⟨c, t, htext, hlex⟩ := h w List.mem_cons_self
    have hword : (⟨w.1, String.ofList (c :: t), ⟨off, off + byteSize (c :: t)⟩⟩ : Token).word = w := by
      rw [← htext, String.ofList_toList]
      rfl
    cases ws with
    | nil =>
      have hw : [' '].intercalate ([w].map (·.2.toList)) = c :: (t ++ []) := by simp [List.intercalate, htext]
      obtain ⟨hl, hskip⟩ := hlex [] (.inl rfl)
      rw [hw]
      exact ⟨_, _, .token (hskip off) hl (.done rfl), by rw [List.map_singleton, hword]⟩
    | cons w' ws =>
      have hw : [' '].intercalate ((w :: w' :: ws).map (·.2.toList)) =
          c :: (t ++ ' ' :: [' '].intercalate ((w' :: ws).map (·.2.toList))) := by simp [List.intercalate, htext]
      obtain ⟨hl, hskip⟩ := hlex (' ' :: [' '].intercalate ((w' :: ws).map (·.2.toList))) (.inr ⟨_, rfl⟩)
      obtain ⟨toks, stop, hs, htoks⟩ := ih (fun v hv => h v (List.mem_cons_of_mem _ hv)) (off + byteSize (c :: t) + 1)
      rw [hw]
      exact ⟨_, stop, .token (hskip off) hl hs.blank, by rw [List.map_cons, hword, htoks]⟩

end Lexes

end Scan

namespace Scan

abbrev Lexicals (ws : List Word) : Prop := ∀ w ∈ ws, Lexical w

variable {w : Word} {ws ws' : List Word}

lemma Lexical.one (h : Lexical w) : Lexicals [w] := List.forall_mem_singleton.2 h

lemma Lexicals.before (h : Lexicals ws) (hw : Lexical w) : Lexicals (w :: ws) := List.forall_mem_cons.2 ⟨hw, h⟩

lemma Lexicals.after (h : Lexicals ws) (p : Punct) : Lexicals (p.word :: ws) := h.before (lexical_punct p)

lemma Lexicals.append (h : Lexicals ws) (h' : Lexicals ws') : Lexicals (ws ++ ws') := List.forall_mem_append.2 ⟨h, h'⟩

end Scan

namespace Expr
open Scan

lemma lexical_within {e : Expr} (h : ∀ init, Lexicals (e.bare init)) (init : Bool) (level : Nat) :
    Lexicals (e.within init level e.bare) := by
  unfold within
  split
  · exact ((h true).append (lexical_punct _).one).after _
  · exact h init

lemma lexical_elements {es : List Expr} (h : ∀ e ∈ es, ∀ init, Lexicals (e.bare init)) {close : Punct} :
    Lexicals ([Punct.comma.word].intercalate (bareAll es) ++ [close.word]) := by
  refine Lexicals.append ?_ (lexical_punct close).one
  induction es with
  | nil => simp [bareAll, List.intercalate]
  | cons e es ih =>
    have he := lexical_within (h e List.mem_cons_self) true 0
    have ih := ih fun x hx => h x (List.mem_cons_of_mem _ hx)
    rw [bareAll]
    cases hes : bareAll es with
    | nil => simpa [List.intercalate] using he
    | cons x xs =>
      rw [hes] at ih
      have hw : [Punct.comma.word].intercalate (e.within true 0 e.bare :: x :: xs) =
          e.within true 0 e.bare ++ Punct.comma.word :: [Punct.comma.word].intercalate (x :: xs) := by
        simp [List.intercalate]
      rw [hw]
      exact he.append (Lexicals.after ih _)

lemma lexical_sentinel {z : Option Expr} (h : ∀ e ∈ z, ∀ init, Lexicals (e.bare init)) : Lexicals (bareSentinel z) := by
  cases z with
  | none => exact List.forall_mem_nil _
  | some e => exact (lexical_within (h e rfl) true 0).after _

lemma lexical_constWord (isConst : Bool) : Lexicals (constWord isConst) := by
  cases isConst with
  | false => exact List.forall_mem_nil _
  | true => exact (lexical_keyword _).one

lemma lexical_asLength {ws : List Word} (h : Lexicals ws) : Lexicals (asLength ws) := by
  unfold asLength
  split
  · exact (h.append (lexical_punct _).one).after _
  · exact h

lemma lexical_bare {e : Expr} (he : e.Printable) : ∀ init, Lexicals (e.bare init) := by
  induction he with
  | int => exact fun _ => (lexical_int _).one
  | str => exact fun _ => (lexical_string _).one
  | @bool s b => cases b <;> exact fun _ => (lexical_keyword _).one
  | null | undefined | unreachable => exact fun _ => (lexical_keyword _).one
  | ident h hk =>
    have hw := lexical_word h
    rw [hk] at hw
    exact fun _ => hw.one
  | builtin h ha ih => exact fun _ => ((lexical_elements ih).after _).before (lexical_builtin h)
  | @unary s op e h ih =>
    refine fun init => (lexical_within ih init 5).before ?_
    cases op <;> exact lexical_punct _
  | @binary s op l r hl hr ihl ihr =>
    refine fun _ => (lexical_within ihl true _).append ((lexical_within ihr true _).before ?_)
    match op with
    | .or | .and => exact lexical_keyword _
    | .cmp .eq | .cmp .neq | .cmp .lt | .cmp .lte | .cmp .gt | .cmp .gte => exact lexical_punct _
    | .arith .add | .arith .sub | .arith .mul | .arith .div | .arith .rem => exact lexical_punct _
  | call h ha ih iha => exact fun _ => (lexical_within ih true 6).append ((lexical_elements iha).after _)
  | deref h ih => exact fun _ => (lexical_within ih true 6).append (lexical_punct _).one
  | @ptrType s size isConst z c hz hp hc ihz ih =>
    intro init
    have target := (lexical_constWord isConst).append (lexical_within ih init 5)
    have closed := (lexical_sentinel ihz).append (target.after .rBracket)
    have hc : Lexical (.ident, "c") :=
      lexical_word (show ∃ c cs, "c".toList = c :: cs ∧ _ from ⟨'c', [], rfl, rfl, List.forall_mem_nil _⟩)
    cases size with
    | one => exact target.after _
    | many => exact (closed.after _).after _
    | slice => exact closed.after _
    | c => exact (((target.after _).before hc).after _).after _
  | arrayType hn hz hc ihn ihz ihc =>
    exact fun _ => ((lexical_asLength (lexical_within ihn true 0)).append
      ((lexical_sentinel ihz).append ((lexical_within ihc false 5).after _))).after _
  | optionalType h ih => exact fun init => (lexical_within ih init 5).after _
  | arrayInit h hx ih ihx => exact fun _ => (ih true).append ((lexical_elements ihx).after _)

end Expr

/-- Printing is undone by reading. The words of an expression are scanned from its text without errors, and read with
nothing left as the same expression but for its places. -/
theorem Parse.expr_print {e : Expr} (he : e.Printable) :
    (Scan.scan e.print).errors = [] ∧
      ∃ e' c, Parse.expr ⟨(Scan.scan e.print).tokens, (Scan.scan e.print).eof, 0⟩ = .ok e' c ∧
      c.rest = [] ∧ e.Same e' := by
  obtain ⟨toks, stop, hlex, hwords⟩ := Scan.Lexes.of_words (Expr.lexical_within (Expr.lexical_bare he) true 0) 0
  have hscan : Scan.scan e.print = ⟨toks, [], stop⟩ := by
    rw [Scan.scan, Expr.print, String.toList_intercalate, List.map_map]
    exact hlex.scan_eq (Nat.le_refl _)
  rw [hscan]
  obtain ⟨e', c, hrun, hsame, hrest, -⟩ :=
    Parse.reads_expr (toks.length + 1) e he ⟨toks, Scan.Result.eof ⟨toks, [], stop⟩, 0⟩
    [] ⟨toks, by simp, hwords⟩ (Parse.stops_close (by simp [Scan.Result.eof]) true 0) (Nat.lt_succ_self _)
  exact ⟨rfl, e', c, hrun, hrest, hsame⟩

/-- A comparison of sums, where a product is called, a length starts with a star and an element type holds elements. -/
theorem Parse.expr_print_nested :
    let x (name : String) := Expr.ident {} name
    let pointer := Expr.ptrType {} .one true none (x "T")
    let elements := Expr.arrayInit {} (.arrayType {} (.int {} 2) none (x "u8")) [.str {} "a\n\"", .int {} 1]
    let array := Expr.arrayType {} pointer (some (.int {} 0)) (.unary {} .addressOf elements)
    let product := Expr.binary {} (.arith .mul) (x "a") (.binary {} (.arith .add) (x "b") array)
    let e :=
      Expr.binary {} (.cmp .lt) (.call {} product [.binary {} .or (x "a") (x "b")])
      (.binary {} (.cmp .eq) (x "a") (x "b"))
    e.print =
      "( a * ( b + [ ( * const T ) : 0 ] & ( [ 2 ] u8 \x7b \"a\\n\\\"\" , 1 \x7d ) ) ) ( a or b ) < ( a == b )" ∧
      e.Printable ∧ (Scan.scan e.print).errors = [] ∧
      ∃ e' c, Parse.expr ⟨(Scan.scan e.print).tokens, (Scan.scan e.print).eof, 0⟩ = .ok e' c ∧ c.rest = [] ∧
        e.Same e' := by
  intro x pointer elements array product e
  have hT : (x "T").Printable := .ident (Scan.wordText_of (by decide)) (by decide)
  have hu : (x "u8").Printable := .ident (Scan.wordText_of (by decide)) (by decide)
  have ha : (x "a").Printable := .ident (Scan.wordText_of (by decide)) (by decide)
  have hb : (x "b").Printable := .ident (Scan.wordText_of (by decide)) (by decide)
  have hint (n : Nat) (h : n < 3) : (Expr.int {} n).Printable := .int (by omega) (by omega)
  have helements : elements.Printable := .arrayInit (.arrayType (hint 2 (by decide)) (by simp) hu)
    (by simpa using ⟨.str, hint 1 (by decide)⟩)
  have harray : array.Printable := .arrayType (.ptrType (by simp) (by simp) hT) (by simpa using hint 0 (by decide))
    (.unary helements)
  have he : e.Printable :=
    .binary (.call (.binary ha (.binary hb harray)) (by simpa using .binary ha hb)) (.binary ha hb)
  exact ⟨by decide +kernel, he, Parse.expr_print he⟩

end Frontend
