import Mathlib
import Frontend.Proofs.Parsing.Bytes

/-! The scanner leaves nothing out. A text is blanks, comments and lexemes laid end to end; each lexeme is a token or an
error whose range is just its characters, and a token is found again in its own text. -/

namespace Frontend.Scan

variable {cs rest text : List Char} {c : Char} {off : Nat}

/-! Text laid out piece by piece. -/

def spanOf : Token ⊕ ParseError → Span := Sum.elim (·.span) (·.span)

/-- The text of a token holds that token and nothing else. -/
def StandsAlone (t : Token) : Prop := scan t.text = ⟨[{ t with span := ⟨0, t.span.length⟩ }], [], t.span.length⟩

structure Spelled (t : Token) (text : List Char) : Prop where
  text : t.text = String.ofList text
  kind : t.kind ≠ .eof
  alone : StandsAlone t

/-- The characters from an offset on: blanks, comments that run to the end of their line, and what is found. -/
inductive Covers : Nat → List Char → List (Token ⊕ ParseError) → Prop
  | done {off : Nat} : Covers off [] []
  | blank {off : Nat} {c cs found} (hc : isBlank c) (h : Covers (off + byteSize [c]) cs found) :
      Covers off ([c] ++ cs) found
  | comment {off : Nat} {text cs found} (ht : '\n' ∉ text) (hcs : ∀ c ∈ cs.head?, c = '\n')
      (h : Covers (off + byteSize ('/' :: '/' :: text)) cs found) : Covers off ('/' :: '/' :: text ++ cs) found
  | piece {off : Nat} {text cs found x} (hne : text ≠ []) (hx : spanOf x = ⟨off, off + byteSize text⟩)
      (ht : ∀ t, x = .inl t → Spelled t text) (h : Covers (off + byteSize text) cs found) :
      Covers off (text ++ cs) (x :: found)

def Holds (off : Nat) (cs : List Char) (s : Span) (text : List Char) : Prop :=
  text ≠ [] ∧ ∃ a b, cs = a ++ (text ++ b) ∧ s = ⟨off + byteSize a, off + byteSize a + byteSize text⟩

namespace Holds
variable {s : Span}

lemma later {w : List Char} (h : Holds (off + byteSize w) cs s text) : Holds off (w ++ cs) s text := by
  obtain ⟨hne, a, b, rfl, rfl⟩ := h
  exact ⟨hne, w ++ a, b, by simp, by simp [byteSize_append, Nat.add_assoc]⟩

lemma le_start (h : Holds off cs s text) : off ≤ s.start := by
  obtain ⟨-, a, b, -, rfl⟩ := h
  exact Nat.le_add_right ..

lemma slice? {source : String} (h : Holds 0 source.toList s text) :
    slice? source s.start s.stop = some (String.ofList text) := by
  obtain ⟨-, a, b, hs, rfl⟩ := h
  have hat : Stands (utf8 source) (byteSize a) (text ++ b) := ⟨a, by rw [← hs, utf8_eq_encode], rfl⟩
  rw [Nat.zero_add]
  exact hat.slice?

end Holds

namespace Covers
variable {found : List (Token ⊕ ParseError)} {x : Token ⊕ ParseError}

lemma holds (h : Covers off cs found) (hx : x ∈ found) :
    ∃ text, Holds off cs (spanOf x) text ∧ ∀ t, x = .inl t → Spelled t text := by
  induction h with
  | done => cases hx
  | blank _ _ ih | comment _ _ _ ih =>
    obtain ⟨text, hs, ht⟩ := ih hx
    exact ⟨text, hs.later, ht⟩
  | @piece _ text cs _ _ hne he ht _ ih =>
    obtain rfl | hx := List.mem_cons.1 hx
    · exact ⟨text, ⟨hne, [], cs, rfl, by rw [he]; rfl⟩, ht⟩
    · obtain ⟨text, hs, ht⟩ := ih hx
      exact ⟨text, hs.later, ht⟩

lemma ordered (h : Covers off cs found) : (found.map spanOf).Pairwise fun s s' => s.stop ≤ s'.start := by
  induction h with
  | done => exact .nil
  | blank _ _ ih | comment _ _ _ ih => exact ih
  | piece _ he _ h ih =>
    refine .cons (fun s hs => ?_) ih
    obtain ⟨y, hy, rfl⟩ := List.mem_map.1 hs
    obtain ⟨text, hs, -⟩ := h.holds hy
    rw [he]
    exact hs.le_start

lemma skipped {inComment : Bool} {o : Nat} (hs : skip inComment off cs = (o, rest)) (h : Covers o rest found) :
    if inComment then ∃ text after, cs = text ++ after ∧ '\n' ∉ text ∧ (∀ c ∈ after.head?, c = '\n') ∧
      Covers (off + byteSize text) after found
    else Covers off cs found := by
  fun_induction skip inComment off cs with
  | case1 inComment off =>
    cases hs
    cases inComment
    · exact h
    · exact ⟨[], [], rfl, by simp, by simp, h⟩
  | case2 off c cs ih =>
    replace ih := ih hs
    by_cases hc : c = '\n'
    · subst hc
      refine ⟨[], _, rfl, by simp, by simp, .blank rfl ?_⟩
      simpa [byteSize] using ih
    · obtain ⟨text, after, rfl, hn, ha, h⟩ := by
        simpa only [ne_eq, hc, not_false_eq_true, decide_true, if_true] using ih
      refine ⟨c :: text, after, rfl, by simp [hn, Ne.symm hc], ha, ?_⟩
      simpa [byteSize, Nat.add_assoc] using h
  | case3 off cs ih =>
    obtain ⟨text, after, rfl, hn, ha, h⟩ := by simpa only [if_true] using ih hs
    refine .comment hn ha ?_
    have hslash : byteSize ('/' :: '/' :: text) = 2 + byteSize text := by
      have hsize : Char.utf8Size '/' = 1 := by decide
      simp [byteSize, hsize]
      omega
    rwa [hslash, ← Nat.add_assoc]
  | case4 off c cs _ hc ih =>
    refine .blank hc ?_
    simpa [byteSize] using ih hs
  | case5 off c cs _ hc =>
    cases hs
    exact h

end Covers

lemma spelled_of_lexeme {kind : TokenKind} (hc : ∀ x y, rest = x ++ y → ∀ o, skip false o (c :: x) = (o, c :: x))
    (hl : (lexeme c rest).found = .token kind) :
    Spelled ⟨kind, String.ofList (lexeme c rest).text, ⟨off, off + byteSize (lexeme c rest).text⟩⟩
      (lexeme c rest).text := by
  refine ⟨rfl, lexeme_kind_ne hl, ?_⟩
  obtain ⟨t, hr, ht, hcut⟩ := lexeme_cut hl (x := []) rfl
  rw [List.append_nil] at hcut
  have hlexes : Lexes 0 (c :: t) [⟨kind, String.ofList (c :: t), ⟨0, 0 + byteSize (c :: t)⟩⟩] (0 + byteSize (c :: t)) :=
    .token (hc t _ hr 0) hcut (.done rfl)
  simp only [StandsAlone, scan, ht, String.toList_ofList, hlexes.scan_eq le_rfl, Span.length, Nat.zero_add,
    Nat.add_sub_cancel_left]

lemma scanFrom_covers {fuel : Nat} (hfuel : cs.length ≤ fuel) :
    ∃ found, Covers off cs found ∧ scanFrom fuel off cs =
      ⟨found.filterMap Sum.getLeft?, found.filterMap Sum.getRight?, off + byteSize cs⟩ := by
  induction fuel generalizing off cs with
  | zero =>
    obtain rfl : cs = [] := List.eq_nil_of_length_eq_zero (by omega)
    exact ⟨[], .done, rfl⟩
  | succ fuel ih =>
    have hsize := skip_size false off cs
    cases hs : skip false off cs with
    | mk o cs' =>
      rw [hs] at hsize
      cases cs' with
      | nil =>
        refine ⟨[], Covers.skipped hs .done, ?_⟩
        simp only [scanFrom, hs, ← hsize]
        rfl
      | cons c rest =>
        obtain ⟨w, rfl, -, hskip⟩ := skip_spec hs
        obtain ⟨t, ht, hr⟩ := lexeme_split c rest
        have hspelled {kind : TokenKind} (hl : (lexeme c rest).found = .token kind) :
            Spelled ⟨kind, _, ⟨o, o + byteSize (lexeme c rest).text⟩⟩ (lexeme c rest).text :=
          spelled_of_lexeme (fun x y hx => (hskip x y hx).2) hl
        simp only [scanFrom, hs]
        generalize lexeme c rest = l at *
        obtain ⟨l, text, rest'⟩ := l
        dsimp only at ht hr hspelled
        subst ht hr
        obtain ⟨found, hf, hscan⟩ := @ih rest' (o + byteSize (c :: t)) (by simp at hfuel; omega)
        have hstop : o + byteSize (c :: t) + byteSize rest' = off + byteSize (w ++ c :: (t ++ rest')) := by
          rw [← hsize, ← List.cons_append, byteSize_append, Nat.add_assoc]
        have piece {x : Token ⊕ ParseError} (hx : spanOf x = ⟨o, o + byteSize (c :: t)⟩)
            (ht : ∀ t', x = .inl t' → Spelled t' (c :: t)) : Covers off (w ++ c :: (t ++ rest')) (x :: found) :=
          Covers.skipped hs (.piece (List.cons_ne_nil c t) hx ht hf)
        rw [hscan, hstop]
        cases l with
        | token kind => exact ⟨_, piece (x := .inl _) rfl fun _ h => by cases h; exact hspelled rfl, rfl⟩
        | unexpected d => exact ⟨_, piece (x := .inr _) rfl fun _ h => (by cases h), rfl⟩
        | unterminated => exact ⟨_, piece (x := .inr _) rfl fun _ h => (by cases h), rfl⟩

lemma scan_covers (source : String) : ∃ found, Covers 0 source.toList found ∧ scan source =
    ⟨found.filterMap Sum.getLeft?, found.filterMap Sum.getRight?, 0 + byteSize source.toList⟩ :=
  scanFrom_covers le_rfl

/-- Every byte of a text is a blank's, a comment's or that of one token or error. Tokens and errors stand in order and
apart, each at the bytes of whole characters, and the token that closes the list stands at the end. The bytes of a text
below 4 GiB, gone through by offset, are cut between characters only and say the same. -/
theorem scan_accounts_for_every_byte (source : String) :
    ∃ found, Covers 0 source.toList found ∧ (scan source).tokens = found.filterMap Sum.getLeft? ∧
      (scan source).errors = found.filterMap Sum.getRight? ∧
      (scan source).eof = ⟨.eof, "", .point (utf8 source).length⟩ ∧
      (found.map spanOf).Pairwise (fun s s' => s.stop ≤ s'.start) ∧
      (∀ x ∈ found, ∃ text, Holds 0 source.toList (spanOf x) text ∧
        slice? source (spanOf x).start (spanOf x).stop = some (String.ofList text)) ∧
      ((utf8 source).length < 2 ^ 32 → ∀ fuel, source.toList.length < fuel →
        scanBytes? source fuel 0 = some (scan source)) ∧
      ∀ t ∈ (scan source).tokens, t.kind ≠ .eof ∧ utf8 t.text = t.span.bytes source ∧
        scan t.text = ⟨[{ t with span := ⟨0, t.span.length⟩ }], [], t.span.length⟩ := by
  obtain ⟨found, hf, hscan⟩ := scan_covers source
  refine ⟨found, hf, by rw [hscan], by rw [hscan], ?_, hf.ordered, fun x hx => ?_,
    fun hsmall _ => scanBytes_eq source hsmall, fun t ht => ?_⟩
  · rw [hscan, Result.eof, Nat.zero_add, ← length_utf8_ofList, String.ofList_toList]
  · obtain ⟨text, hh, -⟩ := hf.holds hx
    exact ⟨text, hh, hh.slice?⟩
  · rw [hscan] at ht
    obtain ⟨x, hx, hxt⟩ := List.mem_filterMap.1 ht
    cases Sum.getLeft?_eq_some_iff.1 hxt
    obtain ⟨text, ⟨-, a, b, hs, he⟩, hspelled⟩ := hf.holds hx
    obtain ⟨htext, hkind, halone⟩ := hspelled t rfl
    refine ⟨hkind, ?_, halone⟩
    rw [Nat.zero_add] at he
    rw [htext, show t.span = _ from he, Span.bytes_eq hs]

end Frontend.Scan
