import Mathlib
import Frontend.Proofs.Parsing.Slice

/-! Scanning a part of a text by itself. A lexeme is as long as its characters and the one or two after it allow, and
text that is cut off where a lexeme ends takes no lexeme away and makes none longer. -/

namespace Frontend.Scan

lemma byteSize_append (a b : List Char) : byteSize (a ++ b) = byteSize a + byteSize b := by simp [byteSize]

/-! Taking characters off the front. -/

/-- Takes some characters off the front, and the same ones where less text follows. -/
structure Local (f : List Char → List Char × List Char) : Prop where
  split : ∀ cs, (f cs).1 ++ (f cs).2 = cs
  cut : ∀ a x y, f (a ++ (x ++ y)) = (a, x ++ y) → f (a ++ x) = (a, x)

lemma local_run (p : Char → Bool) : Local fun cs => (cs.takeWhile p, cs.dropWhile p) where
  split cs := List.takeWhile_append_dropWhile
  cut a x y h := by
    induction a with
    | nil => cases x <;> simp_all
    | cons c a ih =>
      by_cases hc : p c <;> simp_all

def AtFraction (cs : List Char) : Prop := ∃ d r, cs = '.' :: d :: r ∧ d.isDigit

variable {cs rest x : List Char} {c : Char} {kind : TokenKind}

lemma fraction_of_not (h : ¬ AtFraction cs) : fraction cs = ([], cs) := by
  unfold fraction
  split
  · next d r => exact if_neg fun hd => h ⟨d, r, rfl, hd⟩
  · rfl

lemma local_fraction : Local fraction where
  split cs := by
    unfold fraction
    split
    · split <;> simp
    · rfl
  cut a x y h := by
    by_cases hf : AtFraction (a ++ (x ++ y))
    · obtain ⟨d, r, hr, hd⟩ := hf
      rw [hr, fraction, if_pos hd, Prod.mk.injEq] at h
      obtain ⟨rfl, hx⟩ := h
      have hcut := (local_run isDigitOrGap).cut (r.takeWhile isDigitOrGap) x y (by
        simp only [List.cons_append, List.cons.injEq, true_and] at hr
        rw [hr, hx])
      simp only [Prod.mk.injEq] at hcut
      simp only [List.cons_append, fraction, if_pos hd, hcut]
    · rw [fraction_of_not hf, Prod.mk.injEq] at h
      obtain ⟨rfl, -⟩ := h
      refine fraction_of_not fun ⟨d, r, hr, hd⟩ => hf ⟨d, r ++ y, ?_, hd⟩
      simp_all

def AtExponent (cs : List Char) : Prop :=
  ∃ e s d r, cs = e :: (s ++ d :: r) ∧ (e = 'e' ∨ e = 'E') ∧ (s = [] ∨ s = ['+'] ∨ s = ['-']) ∧ d.isDigit

lemma exponent_of_not (h : ¬ AtExponent cs) : exponent cs = ([], cs) := by
  cases cs with
  | nil => rfl
  | cons e cs =>
    by_cases he : e = 'e' ∨ e = 'E'
    · have he' : (decide (e = 'e') || decide (e = 'E')) = true := by simpa using he
      have hnot {s r : List Char} {d : Char} (hs : s = [] ∨ s = ['+'] ∨ s = ['-']) (hr : cs = s ++ d :: r) :
          ¬ d.isDigit :=
        fun hd => h ⟨e, s, d, r, by rw [hr], he, hs, hd⟩
      simp only [exponent, he', if_true]
      rcases cs with _ | ⟨c, r⟩
      · rfl
      by_cases hp : c = '+'
      · subst hp
        rcases r with _ | ⟨d, r⟩
        · rfl
        · simp [hnot (s := ['+']) (.inr (.inl rfl)) rfl]
      by_cases hm : c = '-'
      · subst hm
        rcases r with _ | ⟨d, r⟩
        · rfl
        · simp [hnot (s := ['-']) (.inr (.inr rfl)) rfl]
      · simp [hp, hm, hnot (s := []) (.inl rfl) rfl]
    · have he' : (decide (e = 'e') || decide (e = 'E')) = false := by simpa using he
      simp [exponent, he']

lemma exponent_of_at {e d : Char} {s r : List Char} (he : e = 'e' ∨ e = 'E') (hs : s = [] ∨ s = ['+'] ∨ s = ['-'])
    (hd : d.isDigit) :
    exponent (e :: (s ++ d :: r)) = (e :: (s ++ d :: r.takeWhile isDigitOrGap), r.dropWhile isDigitOrGap) := by
  have he' : (decide (e = 'e') || decide (e = 'E')) = true := by simpa using he
  have hplus : d ≠ '+' := by rintro rfl; exact absurd hd (by decide)
  have hminus : d ≠ '-' := by rintro rfl; exact absurd hd (by decide)
  simp only [exponent, he', if_true]
  obtain rfl | rfl | rfl := hs
  · simp [hplus, hminus, hd]
  · simp [hd]
  · simp [hd]

lemma local_exponent : Local exponent where
  split cs := by
    by_cases h : AtExponent cs
    · obtain ⟨e, s, d, r, rfl, he, hs, hd⟩ := h
      simp [exponent_of_at he hs hd]
    · simp [exponent_of_not h]
  cut a x y h := by
    by_cases hf : AtExponent (a ++ (x ++ y))
    · obtain ⟨e, s, d, r, hr, he, hs, hd⟩ := hf
      rw [hr, exponent_of_at he hs hd, Prod.mk.injEq] at h
      obtain ⟨rfl, hx⟩ := h
      have hcut := (local_run isDigitOrGap).cut (r.takeWhile isDigitOrGap) x y (by
        simp only [List.cons_append, List.append_assoc, List.cons.injEq, true_and, List.append_cancel_left_eq] at hr
        rw [hr, hx])
      simp only [Prod.mk.injEq] at hcut
      simp only [List.cons_append, List.append_assoc, exponent_of_at he hs hd, hcut]
    · rw [exponent_of_not hf, Prod.mk.injEq] at h
      obtain ⟨rfl, -⟩ := h
      refine exponent_of_not fun ⟨e, s, d, r, hr, he⟩ => hf ⟨e, s, d, r ++ y, ?_, he⟩
      simp_all

/-! Lexemes. -/

def Lexeme.IsLocal (f : List Char → Lexeme) (cs : List Char) : Prop :=
  (f cs).text ++ (f cs).rest = cs ∧ ∀ x y, (f cs).rest = x ++ y → f ((f cs).text ++ x) = { f cs with rest := x }

lemma decimal_isLocal (cs : List Char) : Lexeme.IsLocal decimal cs := by
  have hw := (local_run isDigitOrGap).split cs
  dsimp only at hw
  generalize hwhole : cs.takeWhile isDigitOrGap = whole at hw
  generalize hr₀ : cs.dropWhile isDigitOrGap = r₀ at hw
  have hf := local_fraction.split r₀
  generalize hfrac : fraction r₀ = fr at hf
  obtain ⟨frac, r₁⟩ := fr
  have he := local_exponent.split r₁
  generalize hexp : exponent r₁ = ex at he
  obtain ⟨exp, r₂⟩ := ex
  have hrun : decimal cs =
      ⟨.token (if frac.isEmpty && exp.isEmpty then .int else .float), whole ++ frac ++ exp, r₂⟩ := by
    simp only [decimal, hwhole, hr₀, hfrac, hexp]
  dsimp only at hf he
  subst hw hf he
  rw [Lexeme.IsLocal, hrun]
  refine ⟨by simp, fun x y hx => ?_⟩
  dsimp only at hx
  subst hx
  have hcut := (local_run isDigitOrGap).cut whole (frac ++ (exp ++ x)) y (by simp_all)
  simp only [Prod.mk.injEq] at hcut
  have hcut₁ := local_fraction.cut frac (exp ++ x) y (by simp_all)
  have hcut₂ := local_exponent.cut exp x y hexp
  simp only [decimal, List.append_assoc, hcut, hcut₁, hcut₂]

lemma run_isLocal (p : Char → Bool) (found : List Char → Found) (cs : List Char) :
    Lexeme.IsLocal (fun cs => ⟨found (cs.takeWhile p), cs.takeWhile p, cs.dropWhile p⟩) cs := by
  refine ⟨(local_run p).split cs, fun x y hx => ?_⟩
  dsimp only at hx
  have hsplit := (local_run p).split cs
  have hcut := (local_run p).cut (cs.takeWhile p) x y (by simp_all)
  simp only [Prod.mk.injEq] at hcut
  simp [hcut]

def wordKind (text : List Char) : TokenKind :=
  match Keyword.ofText? (String.ofList text) with
  | some k => .keyword k
  | none => .ident

lemma word_isLocal (cs : List Char) : Lexeme.IsLocal word cs :=
  run_isLocal isWord (fun text => .token (wordKind text)) cs

def AtBase (cs : List Char) : Prop := ∃ x r, cs = '0' :: x :: r ∧ (x = 'x' ∨ x = 'b' ∨ x = 'o')

lemma number_of_not (h : ¬ AtBase cs) : number cs = decimal cs := by
  unfold number
  split
  · next x r => exact if_neg fun hx => h ⟨x, r, rfl, by simpa [or_assoc] using hx⟩
  · rfl

lemma number_isLocal (cs : List Char) : Lexeme.IsLocal number cs := by
  by_cases hb : AtBase cs
  · obtain ⟨b, r, rfl, hb⟩ := hb
    have hb : (decide (b = 'x') || decide (b = 'b') || decide (b = 'o')) = true := by simpa [or_assoc] using hb
    have hrun (r : List Char) : number ('0' :: b :: r) =
        ⟨.token .int, '0' :: b :: r.takeWhile isWord, r.dropWhile isWord⟩ := by
      simp [number, hb]
    rw [Lexeme.IsLocal, hrun]
    refine ⟨by simp, fun x y hx => ?_⟩
    have hcut := ((run_isLocal isWord (fun _ => .token .int) r).2 x y hx)
    simp only [Lexeme.mk.injEq, true_and] at hcut
    simp [hrun, hcut]
  · obtain ⟨hsplit, hcut⟩ := decimal_isLocal cs
    rw [Lexeme.IsLocal, number_of_not hb]
    refine ⟨hsplit, fun x y hx => ?_⟩
    rw [number_of_not, hcut x y hx]
    -- The base would be there with the rest of the text as well.
    rintro ⟨b, r, hr, hbase⟩
    refine hb ⟨b, r ++ y, ?_, hbase⟩
    rw [← hsplit, hx, ← List.append_assoc, hr]
    rfl

lemma stringTail_cut (cs : List Char) {taken after : List Char} (h : stringTail cs = (taken, after, true)) :
    cs = taken ++ after ∧ ∀ x, stringTail (taken ++ x) = (taken, x, true) := by
  fun_induction stringTail cs generalizing taken after with
  | case1 => cases h
  | case2 rest =>
    cases h
    exact ⟨rfl, fun x => rfl⟩
  | case3 => cases h
  | case4 c rest taken' after' closed hrest ih =>
    cases h
    obtain ⟨rfl, hx⟩ := ih hrest
    exact ⟨rfl, fun x => by simp [stringTail, hx]⟩
  | case5 rest => cases h
  | case6 c rest h₁ h₂ h₃ h₄ taken' after' closed hrest ih =>
    cases h
    obtain ⟨rfl, hx⟩ := ih hrest
    refine ⟨rfl, fun x => ?_⟩
    have hc : c ≠ '\\' := fun hc => by
      cases hr : taken' ++ after' with
      | nil => exact h₂ hc hr
      | cons d r => exact h₃ d r hc hr
    simp [stringTail, hx, hc]

lemma punct_cut (h : (punct c rest).found = .token kind) {y : List Char} (hr : (punct c rest).rest = x ++ y) :
    ∃ t, rest = t ++ (x ++ y) ∧ (punct c rest).text = c :: t ∧ punct c (t ++ x) = ⟨.token kind, c :: t, x⟩ := by
  unfold punct at h hr ⊢
  split at h
  · next d after =>
    split at h
    · next p hp =>
      simp only [hp] at hr
      subst hr
      exact ⟨[d], rfl, by simp, by simp_all⟩
    · next hp =>
      simp only [hp, punct.ofSingle] at hr h
      refine ⟨[], hr, by simp [punct.ofSingle], ?_⟩
      cases x with
      | nil => simpa [punct.ofSingle] using h
      | cons d' x =>
        cases hr
        simpa [hp, punct.ofSingle] using h
  · simp only [punct.ofSingle] at hr h
    obtain ⟨rfl, rfl⟩ : x = [] ∧ y = [] := by simpa using hr.symm
    exact ⟨[], rfl, rfl, by simpa [punct.ofSingle] using h⟩

lemma Lexeme.IsLocal.cut {f : List Char → Lexeme} (hl : IsLocal f (c :: rest)) (hne : (f (c :: rest)).text ≠ [])
    (h : (f (c :: rest)).found = .token kind) {y : List Char} (hr : (f (c :: rest)).rest = x ++ y) :
    ∃ t, rest = t ++ (x ++ y) ∧ (f (c :: rest)).text = c :: t ∧ f (c :: (t ++ x)) = ⟨.token kind, c :: t, x⟩ := by
  obtain ⟨hsplit, hcut⟩ := hl
  replace hcut := hcut x y hr
  generalize f (c :: rest) = l at *
  obtain ⟨found, text, after⟩ := l
  dsimp only at hne h hr hsplit hcut
  subst h hr
  cases text with
  | nil => exact absurd rfl hne
  | cons d t =>
    obtain ⟨rfl, rfl⟩ : d = c ∧ t ++ (x ++ y) = rest := by simpa using hsplit
    exact ⟨t, rfl, rfl, hcut⟩

lemma number_text_ne (hc : c.isDigit) (rest : List Char) : (number (c :: rest)).text ≠ [] := by
  by_cases hb : AtBase (c :: rest)
  · obtain ⟨b, r, hr, hb⟩ := hb
    cases hr
    have hb : (decide (b = 'x') || decide (b = 'b') || decide (b = 'o')) = true := by simpa [or_assoc] using hb
    simp [number, hb]
  · rw [number_of_not hb]
    simp [decimal, isDigitOrGap, hc]

lemma isWord_of_start (hc : isWordStart c) : isWord c := by
  unfold isWordStart at hc
  unfold isWord Char.isAlphanum
  grind

lemma lexeme_cut (h : (lexeme c rest).found = .token kind) {y : List Char} (hr : (lexeme c rest).rest = x ++ y) :
    ∃ t, rest = t ++ (x ++ y) ∧ (lexeme c rest).text = c :: t ∧ lexeme c (t ++ x) = ⟨.token kind, c :: t, x⟩ := by
  unfold lexeme at h hr ⊢
  split at h
  · next hc =>
    subst hc
    simp only [if_true, string] at h hr ⊢
    generalize htail : stringTail rest = tail at *
    obtain ⟨taken, after, closed⟩ := tail
    cases closed with
    | false => cases h
    | true =>
      dsimp only at hr
      subst hr
      obtain ⟨rfl, hcut⟩ := stringTail_cut rest htail
      cases h
      exact ⟨taken, rfl, rfl, by simp [hcut]⟩
  split at h
  · next hq hd =>
    simp only [if_neg hq, if_pos hd] at hr ⊢
    exact (number_isLocal _).cut (number_text_ne hd rest) h hr
  split at h
  · next hq hd hb =>
    simp only [if_neg hq, if_neg hd, if_pos hb] at hr ⊢
    cases h
    obtain ⟨hsplit, hcut⟩ := run_isLocal isWord (fun _ => .token .builtin) rest
    have hcut := hcut x y hr
    simp only [Lexeme.mk.injEq, true_and] at hcut
    exact ⟨rest.takeWhile isWord, hr ▸ hsplit.symm, rfl, by simp [hcut]⟩
  split at h
  · next hq hd hb hw =>
    simp only [if_neg hq, if_neg hd, if_neg hb, if_pos hw] at hr ⊢
    exact (word_isLocal _).cut (by simp [word, isWord_of_start hw]) h hr
  · next hq hd hb hw =>
    simp only [if_neg hq, if_neg hd, if_neg hb, if_neg hw] at hr ⊢
    exact punct_cut h hr

lemma stringTail_split (cs : List Char) : (stringTail cs).1 ++ (stringTail cs).2.1 = cs := by
  fun_induction stringTail cs <;> simp_all

lemma punct_split (c : Char) (rest : List Char) :
    ∃ t, (punct c rest).text = c :: t ∧ rest = t ++ (punct c rest).rest := by
  unfold punct
  split
  · split
    · exact ⟨[_], rfl, rfl⟩
    · exact ⟨[], rfl, rfl⟩
  · exact ⟨[], rfl, rfl⟩

lemma Lexeme.IsLocal.text_eq {f : List Char → Lexeme} (hl : IsLocal f (c :: rest)) (hne : (f (c :: rest)).text ≠ []) :
    ∃ t, (f (c :: rest)).text = c :: t ∧ rest = t ++ (f (c :: rest)).rest := by
  obtain ⟨d, t, ht⟩ := List.exists_cons_of_ne_nil hne
  have hsplit := hl.1
  rw [ht, List.cons_append, List.cons.injEq] at hsplit
  exact ⟨t, by rw [ht, hsplit.1], hsplit.2.symm⟩

lemma lexeme_split (c : Char) (rest : List Char) :
    ∃ t, (lexeme c rest).text = c :: t ∧ rest = t ++ (lexeme c rest).rest := by
  unfold lexeme
  split_ifs with hq hd hb hw
  · subst hq
    exact ⟨_, rfl, (stringTail_split rest).symm⟩
  · exact (number_isLocal _).text_eq (number_text_ne hd rest)
  · exact ⟨_, rfl, ((local_run isWord).split rest).symm⟩
  · exact (word_isLocal _).text_eq (by simp [word, isWord_of_start hw])
  · exact punct_split c rest

/-! Blanks. -/

lemma skip_stays (hb : ¬ isBlank c) (hc : ∀ r, c = '/' → x ≠ '/' :: r) (o : Nat) :
    skip false o (c :: x) = (o, c :: x) := by
  unfold skip
  split
  · contradiction
  · contradiction
  · next h =>
    cases h
    exact absurd rfl (hc _ rfl)
  · next h =>
    cases h
    exact if_neg hb

lemma skip_spec {inComment : Bool} {off o : Nat} (h : skip inComment off cs = (o, c :: rest)) :
    ∃ w, cs = w ++ c :: rest ∧ o = off + byteSize w ∧ ∀ x y, rest = x ++ y →
      skip inComment off (w ++ c :: x) = (o, c :: x) ∧ ∀ o', skip false o' (c :: x) = (o', c :: x) := by
  fun_induction skip inComment off cs with
  | case1 => cases h
  | case2 off d rest' ih =>
    obtain ⟨w, rfl, rfl, hx⟩ := ih h
    refine ⟨d :: w, rfl, by simp [byteSize]; omega, fun x y hr => ⟨?_, (hx x y hr).2⟩⟩
    rw [List.cons_append, skip]
    exact (hx x y hr).1
  | case3 off rest' ih =>
    obtain ⟨w, rfl, rfl, hx⟩ := ih h
    refine ⟨'/' :: '/' :: w, rfl, ?_, fun x y hr => ⟨?_, (hx x y hr).2⟩⟩
    · have : Char.utf8Size '/' = 1 := by decide
      simp [byteSize, this]
      omega
    · rw [List.cons_append, List.cons_append, skip]
      exact (hx x y hr).1
  | case4 off d rest' hne hb ih =>
    obtain ⟨w, rfl, rfl, hx⟩ := ih h
    refine ⟨d :: w, rfl, by simp [byteSize]; omega, fun x y hr => ⟨?_, (hx x y hr).2⟩⟩
    have hd : d ≠ '/' := by rintro rfl; exact absurd hb (by decide)
    rw [← (hx x y hr).1, List.cons_append, skip, if_pos hb]
    exact fun _ h => absurd h hd
  | case5 off d rest' hne hb =>
    cases h
    refine ⟨[], rfl, rfl, fun x y hr => ?_⟩
    have hx := skip_stays (x := x) hb fun r hc hx => hne (r ++ y) hc (by rw [hr, hx]; rfl)
    exact ⟨hx _, hx⟩

lemma skip_size (inComment : Bool) (off : Nat) (cs : List Char) :
    (skip inComment off cs).1 + byteSize (skip inComment off cs).2 = off + byteSize cs := by
  have hsize : Char.utf8Size '/' = 1 := by decide
  fun_induction skip inComment off cs <;> simp_all [byteSize] <;> omega

/-- Fuel for each character is enough: more of it changes nothing. -/
theorem scanFrom_fuel {m n off : Nat} (hm : cs.length ≤ m) (hn : cs.length ≤ n) :
    scanFrom m off cs = scanFrom n off cs := by
  induction m generalizing n off cs with
  | zero =>
    obtain rfl : cs = [] := List.eq_nil_of_length_eq_zero (Nat.le_zero.1 hm)
    cases n <;> rfl
  | succ m ih =>
    cases n with
    | zero =>
      obtain rfl : cs = [] := List.eq_nil_of_length_eq_zero (Nat.le_zero.1 hn)
      rfl
    | succ n =>
      cases hs : skip false off cs with
      | mk o cs' =>
        cases cs' with
        | nil => simp only [scanFrom, hs]
        | cons c rest =>
          obtain ⟨w, rfl, -⟩ := skip_spec hs
          obtain ⟨t, -, hr⟩ := lexeme_split c rest
          have hlen := congrArg List.length hr
          simp only [List.length_append, List.length_cons] at hm hn hlen
          simp only [scanFrom, hs]
          rw [ih (n := n) (by omega) (by omega)]

lemma skip_add (k : Nat) (inComment : Bool) (off : Nat) (cs : List Char) :
    skip inComment (off + k) cs = ((skip inComment off cs).1 + k, (skip inComment off cs).2) := by
  fun_induction skip inComment off cs with
  | case1 => simp [skip]
  | case2 off d rest ih => rw [skip, ← ih, Nat.add_right_comm]
  | case3 off rest ih => rw [skip, ← ih, Nat.add_right_comm]
  | case4 off d rest hne hb ih =>
    rw [skip, if_pos hb, ← ih, Nat.add_right_comm]
    exact hne
  | case5 off d rest hne hb => exact skip_stays hb (fun r hc hx => hne r hc hx) _

/-! Scanning without errors. -/

inductive Lexes : Nat → List Char → List Token → Nat → Prop
  | done {off stop cs} (h : skip false off cs = (stop, [])) : Lexes off cs [] stop
  | token {off o stop cs c rest kind text after toks} (h : skip false off cs = (o, c :: rest))
      (hl : lexeme c rest = ⟨.token kind, text, after⟩) (hs : Lexes (o + byteSize text) after toks stop) :
      Lexes off cs (⟨kind, String.ofList text, ⟨o, o + byteSize text⟩⟩ :: toks) stop

namespace Lexes
variable {off stop k fuel : Nat} {cs : List Char} {toks : List Token}

lemma length_lt {o : Nat} {c : Char} {rest text after : List Char} {kind : TokenKind}
    (h : skip false off cs = (o, c :: rest)) (hl : lexeme c rest = ⟨.token kind, text, after⟩) :
    after.length < cs.length := by
  obtain ⟨w, rfl, -⟩ := skip_spec h
  obtain ⟨t, rfl, -⟩ := lexeme_cut (x := after) (y := []) (show (lexeme c rest).found = .token kind by rw [hl])
    (by rw [hl]; simp)
  simp
  omega

lemma of_scan (hfuel : cs.length ≤ fuel) (h : (scanFrom fuel off cs).errors = []) :
    Lexes off cs (scanFrom fuel off cs).tokens (scanFrom fuel off cs).stop := by
  induction fuel generalizing off cs with
  | zero =>
    obtain rfl : cs = [] := List.eq_nil_of_length_eq_zero (by omega)
    exact .done rfl
  | succ fuel ih =>
    cases hs : skip false off cs with
    | mk o cs' =>
      cases cs' with
      | nil =>
        simp only [scanFrom, hs]
        exact .done hs
      | cons c rest =>
        simp only [scanFrom, hs] at h ⊢
        cases hl : lexeme c rest with
        | mk found text after =>
          cases found with
          | token kind =>
            simp only [hl] at h ⊢
            have := length_lt hs hl
            exact .token hs hl (ih (by omega) h)
          | unexpected => simp [hl] at h
          | unterminated => simp [hl] at h

lemma scan_eq (h : Lexes off cs toks stop) (hfuel : cs.length ≤ fuel) : scanFrom fuel off cs = ⟨toks, [], stop⟩ := by
  induction h generalizing fuel with
  | done h =>
    cases fuel <;> simp [scanFrom, h]
  | token h hl hs ih =>
    have := length_lt h hl
    cases fuel with
    | zero => omega
    | succ fuel => simp [scanFrom, h, hl, @ih fuel (by omega)]

lemma moved_back (h : Lexes (off + k) cs toks stop) :
    ∃ toks₀ stop₀, toks = toks₀.map (Token.shift k) ∧ Lexes off cs toks₀ stop₀ := by
  generalize hoff : off + k = off' at h
  induction h generalizing off with
  | done h =>
    rw [← hoff, skip_add, Prod.mk.injEq] at h
    exact ⟨[], _, rfl, .done (Prod.ext rfl h.2)⟩
  | token h hl hs ih =>
    rw [← hoff, skip_add, Prod.mk.injEq] at h
    obtain ⟨rfl, h⟩ := h
    obtain ⟨toks₀, stop₀, rfl, hs₀⟩ := @ih _ (Nat.add_right_comm _ _ _)
    refine ⟨_, stop₀, ?_, .token (Prod.ext rfl h) hl hs₀⟩
    simp [Token.shift, Span.shift, Nat.add_right_comm]

lemma cut {first later : List Token} (h : Lexes off cs (first ++ later) stop) :
    ∃ w y, cs = w ++ y ∧ Lexes off w first (off + byteSize w) ∧ Lexes (off + byteSize w) y later stop ∧
      (first.getLast?.map (·.span.stop)).getD off = off + byteSize w := by
  induction first generalizing off cs with
  | nil => exact ⟨[], cs, rfl, .done rfl, h, rfl⟩
  | cons t first ih =>
    cases h with
    | @token _ o _ _ c rest kind text after _ hskip hl hs =>
      obtain ⟨w, y, rfl, hw, hy, hlast⟩ := ih hs
      obtain ⟨t, rfl, htext, hcut⟩ := lexeme_cut (show (lexeme c rest).found = .token kind by rw [hl]) (by rw [hl])
      obtain rfl : text = c :: t := by rw [← htext, hl]
      obtain ⟨b, rfl, rfl, hskip⟩ := skip_spec hskip
      have hsize : byteSize (b ++ c :: (t ++ w)) = byteSize b + byteSize (c :: t) + byteSize w := by
        rw [byteSize_append, ← List.cons_append, byteSize_append, Nat.add_assoc]
      refine ⟨b ++ c :: (t ++ w), y, by simp, ?_, ?_, ?_⟩
      · refine .token (hskip (t ++ w) y (by simp)).1 hcut ?_
        rwa [hsize, ← Nat.add_assoc, ← Nat.add_assoc]
      · rwa [hsize, ← Nat.add_assoc, ← Nat.add_assoc]
      · rw [hsize, ← Nat.add_assoc, ← Nat.add_assoc, ← hlast]
        rw [List.getLast?_cons]
        cases first.getLast? <;> rfl

lemma trim {t : Token} (h : Lexes off cs (t :: toks) stop) :
    ∃ w y, cs = w ++ y ∧ t.span.start = off + byteSize w ∧ Lexes t.span.start y (t :: toks) stop := by
  cases h with
  | @token _ o _ _ c rest kind text after _ hskip hl hs =>
    obtain ⟨b, rfl, rfl, hskip⟩ := skip_spec hskip
    exact ⟨b, c :: rest, rfl, rfl, .token ((hskip rest [] (by simp)).2 _) hl hs⟩

end Lexes

end Frontend.Scan
