import Mathlib
import Frontend.Proofs.Parsing.Strings

/-! Scanning by bytes. An offset steps through the bytes that encode a text, and parts of the text are cut out between
offsets, which is possible only between characters. The offset comes to stand inside a character after an escape in a
string and within a comment, but never where a part is cut out: what is found is what the characters say. -/

namespace Frontend.Scan

def isBoundary (bs : List UInt8) (i : Nat) : Bool :=
  i == 0 || match bs[i]? with
    | none => i == bs.length
    | some b => b < 128 || 192 ≤ b

/-- The text between two offsets, if both are between characters. -/
def slice? (source : String) (i j : Nat) : Option String :=
  if i ≤ j ∧ isBoundary (utf8 source) i ∧ isBoundary (utf8 source) j then
    String.fromUTF8? (((utf8 source).take j).drop i).toByteArray
  else none

def ofByte (b : UInt8) : Char := Char.ofNat b.toNat

def sees (bs : List UInt8) (i : Nat) (p : Char → Bool) : Bool := (bs[i]?).any fun b => p (ofByte b)

def run (p : Char → Bool) (bs : List UInt8) (i : Nat) : Nat := i + ((bs.drop i).takeWhile fun b => p (ofByte b)).length

def trivia : (inComment : Bool) → List UInt8 → Nat
  | _, [] => 0
  | true, b :: rest => trivia (ofByte b ≠ '\n') rest + 1
  | false, b :: rest =>
    if ofByte b = '/' ∧ rest.head?.any (fun b => ofByte b = '/') then trivia true rest + 1
    else if isBlank (ofByte b) then trivia false rest + 1
    else 0

def fractionEnd (bs : List UInt8) (i : Nat) : Nat :=
  if sees bs i (· = '.') && sees bs (i + 1) Char.isDigit then run isDigitOrGap bs (i + 1) else i

def exponentEnd (bs : List UInt8) (i : Nat) : Nat :=
  let sign := if sees bs (i + 1) fun c => c = '+' || c = '-' then 1 else 0
  if (sees bs i fun c => c = 'e' || c = 'E') && sees bs (i + 1 + sign) Char.isDigit then
    run isDigitOrGap bs (i + 1 + sign)
  else i

def numberAt (bs : List UInt8) (i : Nat) : TokenKind × Nat :=
  if sees bs i (· = '0') && sees bs (i + 1) fun c => c = 'x' || c = 'b' || c = 'o' then (.int, run isWord bs (i + 2))
  else
    let whole := run isDigitOrGap bs i
    let stop := exponentEnd bs (fractionEnd bs whole)
    (if stop = whole then .int else .float, stop)

def punctAt? (source : String) (i : Nat) : Option (Found × Nat) :=
  let first := (utf8 source)[i]?.map ofByte
  let second := (utf8 source)[i + 1]?.map ofByte
  match first.bind fun c => second.bind (pair? c) with
  | some p => some (.token (.punct p), i + 2)
  | none =>
    match first.bind single? with
    | some p => some (.token (.punct p), i + 1)
    | none => do
      let rest ← slice? source i (utf8 source).length
      let c := rest.toList.headD '\ufffd'
      some (.unexpected c, i + max c.utf8Size 1)

def lexemeAt? (source : String) (i : Nat) : Option (Found × Nat) :=
  let bs := utf8 source
  if sees bs i (· = '"') then
    let (size, closed) := stringBytes (bs.drop (i + 1))
    some (if closed then .token .str else .unterminated, i + 1 + size)
  else if sees bs i Char.isDigit then
    let (kind, stop) := numberAt bs i
    some (.token kind, stop)
  else if sees bs i (· = '@') then some (.token .builtin, run isWord bs (i + 1))
  else if sees bs i isWordStart then do
    let text ← slice? source i (run isWord bs i)
    some (.token (wordKind text.toList), run isWord bs i)
  else punctAt? source i

def spanAt (i j : Nat) : Span := ⟨i % 2 ^ 32, j % 2 ^ 32⟩

/-- Scans from an offset on. There is no result if a part cannot be cut out, or if `fuel` is spent. -/
def scanBytes? (source : String) : (fuel : Nat) → Nat → Option Result
  | 0, _ => none
  | fuel + 1, off =>
    let i := off + trivia false ((utf8 source).drop off)
    if (utf8 source).length ≤ i then some { stop := (spanAt i i).start }
    else do
      let (found, stop) ← lexemeAt? source i
      let later ← scanBytes? source fuel stop
      match found with
      | .token kind => do
        let text ← slice? source i stop
        some { later with tokens := ⟨kind, text, spanAt i stop⟩ :: later.tokens }
      | .unexpected c => some { later with errors := .unexpectedChar c (spanAt i stop) :: later.errors }
      | .unterminated => some { later with errors := .unterminatedString (spanAt i stop) :: later.errors }

/-! Bytes of characters. -/

def IsAscii (p : Char → Bool) : Prop := ∀ c, p c = true → c.toNat < 128

lemma isAscii_isWord : IsAscii isWord := by
  intro c h
  simp only [isWord, Char.isAlphanum, Char.isAlpha, Char.isUpper, Char.isLower, Char.isDigit, Bool.or_eq_true,
    Bool.and_eq_true, decide_eq_true_eq, ge_iff_le, UInt32.le_iff_toNat_le] at h
  rcases h with ((h | h) | h) | rfl
  · exact Nat.lt_of_le_of_lt h.2 (by decide)
  · exact Nat.lt_of_le_of_lt h.2 (by decide)
  · exact Nat.lt_of_le_of_lt h.2 (by decide)
  · decide

variable {p : Char → Bool} {bs : List UInt8} {i : Nat} {cs rest t : List Char} {c : Char} {b : UInt8}

lemma IsAscii.mono {q : Char → Bool} (h : IsAscii p) (hq : ∀ c, q c = true → p c = true) : IsAscii q :=
  fun c hc => h c (hq c hc)

lemma ofByte_ofNat (h : c.toNat < 128) : ofByte (UInt8.ofNat c.toNat) = c := by
  rw [ofByte, UInt8.toNat_ofNat_of_lt' (Nat.lt_trans h (by decide)), Char.ofNat_toNat]

lemma toNat_ofByte (b : UInt8) : (ofByte b).toNat = b.toNat := by
  have hvalid : b.toNat.isValidChar := .inl (Nat.lt_trans b.toNat_lt (by decide))
  rw [ofByte, Char.toNat_ofNat, if_pos hvalid]

lemma IsAscii.ofByte (h : IsAscii p) (hb : 128 ≤ b) : p (ofByte b) = false := by
  rw [Bool.eq_false_iff]
  intro hp
  have hlt := h _ hp
  rw [toNat_ofByte] at hlt
  exact absurd (UInt8.le_iff_toNat_le.1 hb) (Nat.not_le_of_lt hlt)

lemma IsAscii.eq_false (h : IsAscii p) (hc : 128 ≤ c.toNat) : p c = false := by
  rw [Bool.eq_false_iff]
  exact fun hp => absurd (h c hp) (Nat.not_lt_of_le hc)

def encode (cs : List Char) : List UInt8 := cs.flatMap String.utf8EncodeChar

lemma utf8_eq_encode (source : String) : utf8 source = encode source.toList := by
  rw [encode, ← utf8_ofList, String.ofList_toList]

lemma length_encode (cs : List Char) : (encode cs).length = byteSize cs := by
  rw [encode, ← utf8_ofList, length_utf8_ofList]

lemma encode_append (a b : List Char) : encode (a ++ b) = encode a ++ encode b := List.flatMap_append

lemma byteSize_cons (c : Char) (cs : List Char) : byteSize (c :: cs) = c.utf8Size + byteSize cs := by simp [byteSize]

lemma byteSize_eq_zero : byteSize cs = 0 ↔ cs = [] := by
  cases cs with
  | nil => simp [byteSize]
  | cons c cs => simp [byteSize, Char.utf8Size_pos c |>.ne']

lemma encode_cons (c : Char) (cs : List Char) :
    c.toNat < 128 ∧ encode (c :: cs) = UInt8.ofNat c.toNat :: encode cs ∧ c.utf8Size = 1 ∨
      128 ≤ c.toNat ∧ ∃ b bs, encode (c :: cs) = b :: (bs ++ encode cs) ∧ 192 ≤ b ∧ (∀ b ∈ bs, 128 ≤ b) ∧
        c.utf8Size = bs.length + 1 := by
  rw [encode, List.flatMap_cons, ← String.length_utf8EncodeChar]
  obtain ⟨hc, henc⟩ | ⟨hc, b, bs, henc, hb, hbs⟩ := utf8EncodeChar_cases c
  · rw [henc]
    exact .inl ⟨hc, rfl, rfl⟩
  · rw [henc]
    exact .inr ⟨hc, b, bs, rfl, hb, hbs, rfl⟩

lemma high (hb : 192 ≤ b) : 128 ≤ b := UInt8.le_trans (by decide) hb

lemma head?_encode (hp : IsAscii p) (cs : List Char) :
    ((encode cs).head?).any (fun b => p (ofByte b)) = cs.head?.any p := by
  cases cs with
  | nil => rfl
  | cons c cs =>
    obtain ⟨hc, henc, -⟩ | ⟨hc, b, bs, henc, hb, -⟩ := encode_cons c cs
    · simp [henc, ofByte_ofNat hc]
    · simp [henc, hp.ofByte (high hb), hp.eq_false hc]

lemma takeWhile_encode (hp : IsAscii p) (cs : List Char) :
    ((encode cs).takeWhile fun b => p (ofByte b)).length = byteSize (cs.takeWhile p) := by
  induction cs with
  | nil => rfl
  | cons c cs ih =>
    obtain ⟨hc, henc, hsize⟩ | ⟨hc, b, bs, henc, hb, -⟩ := encode_cons c cs
    · cases h : p c <;> simp [henc, ofByte_ofNat hc, h, ih, byteSize, hsize, Nat.add_comm]
    · simp [henc, hp.ofByte (high hb), hp.eq_false hc, byteSize]

/-! What stands at an offset. -/

def Stands (bs : List UInt8) (i : Nat) (cs : List Char) : Prop := ∃ w, bs = encode (w ++ cs) ∧ i = byteSize w

namespace Stands

lemma drop (h : Stands bs i cs) : bs.drop i = encode cs := by
  obtain ⟨w, rfl, rfl⟩ := h
  rw [encode_append, ← length_encode, List.drop_left]

lemma later (h : Stands bs i (t ++ cs)) : Stands bs (i + byteSize t) cs := by
  obtain ⟨w, rfl, rfl⟩ := h
  exact ⟨w ++ t, by rw [List.append_assoc], (byteSize_append w t).symm⟩

lemma length (h : Stands bs i cs) : bs.length = i + byteSize cs := by
  obtain ⟨w, rfl, rfl⟩ := h
  rw [length_encode, byteSize_append]

lemma getElem? (h : Stands bs i cs) : bs[i]? = (encode cs).head? := by
  rw [← h.drop, List.head?_drop]

lemma sees (h : Stands bs i cs) (hp : IsAscii p) : sees bs i p = cs.head?.any p := by
  rw [Scan.sees, h.getElem?, head?_encode hp]

lemma next (h : Stands bs i (c :: cs)) (hc : c.toNat < 128) : Stands bs (i + 1) cs := by
  have hsize : byteSize [c] = 1 := by
    obtain ⟨-, -, hsize⟩ | ⟨hc', -⟩ := encode_cons c cs
    · simp [byteSize, hsize]
    · exact absurd hc (Nat.not_lt_of_le hc')
  exact hsize ▸ h.later (t := [c])

lemma run_eq (h : Stands bs i cs) (hp : IsAscii p) : run p bs i = i + byteSize (cs.takeWhile p) := by
  rw [run, h.drop, takeWhile_encode hp]

lemma run (h : Stands bs i cs) (hp : IsAscii p) : Stands bs (run p bs i) (cs.dropWhile p) := by
  rw [h.run_eq hp]
  refine later ?_
  rwa [List.takeWhile_append_dropWhile]

lemma isBoundary (h : Stands bs i cs) : isBoundary bs i = true := by
  rw [Scan.isBoundary, Bool.or_eq_true]
  refine .inr ?_
  rw [h.getElem?]
  cases cs with
  | nil => simpa [encode, byteSize] using h.length.symm
  | cons c cs =>
    obtain ⟨hc, henc, -⟩ | ⟨hc, b, bs, henc, hb, -⟩ := encode_cons c cs
    · simp only [henc, List.head?_cons, Bool.or_eq_true, decide_eq_true_eq]
      exact .inl (by rwa [UInt8.lt_iff_toNat_lt, UInt8.toNat_ofNat_of_lt' (Nat.lt_trans hc (by decide))])
    · simp [henc, hb]

lemma slice? {source : String} (h : Stands (utf8 source) i (t ++ cs)) :
    slice? source i (i + byteSize t) = some (String.ofList t) := by
  have hbytes : ((utf8 source).take (i + byteSize t)).drop i = encode t := by
    rw [List.drop_take, h.drop, Nat.add_sub_cancel_left, encode_append, ← length_encode, List.take_left]
  rw [Scan.slice?, if_pos ⟨Nat.le_add_right .., h.isBoundary, h.later.isBoundary⟩, hbytes, String.fromUTF8?]
  exact dif_pos (String.ofList t).isValidUTF8

lemma seen (h : Stands bs i cs) (hp : IsAscii p) (hs : Scan.sees bs i p = true) :
    ∃ c rest, cs = c :: rest ∧ p c = true ∧ Stands bs (i + 1) rest := by
  rw [h.sees hp] at hs
  cases cs with
  | nil => cases hs
  | cons c rest => exact ⟨c, rest, rfl, hs, h.next (hp c hs)⟩

end Stands

/-! Lexemes by their bytes. -/

lemma isAscii_isDigitOrGap : IsAscii isDigitOrGap :=
  isAscii_isWord.mono fun c hc => by
    obtain hd | hc := Bool.or_eq_true_iff.1 hc
    · simp [isWord, Char.isAlphanum, hd]
    · simp_all [isWord]

lemma isAscii_isDigit : IsAscii Char.isDigit := isAscii_isDigitOrGap.mono fun c hc => by simp [isDigitOrGap, hc]

lemma isAscii_isWordStart : IsAscii isWordStart := isAscii_isWord.mono fun _ => isWord_of_start

lemma isAscii_eq (hc : c.toNat < 128) : IsAscii (· = c) := fun d hd => by
  rwa [of_decide_eq_true hd]

lemma isAscii_isBlank : IsAscii isBlank := fun c hc => by
  simp only [isBlank, Bool.or_eq_true, decide_eq_true_eq] at hc
  obtain (((rfl | rfl) | rfl) | rfl) | rfl := hc
  all_goals decide

lemma isAscii_or {q : Char → Bool} (hp : IsAscii p) (hq : IsAscii q) : IsAscii fun c => p c || q c := fun c hc =>
  (Bool.or_eq_true_iff.1 hc).elim (hp c) (hq c)

namespace Stands

lemma fractionEnd (h : Stands bs i cs) : fractionEnd bs i = i + byteSize (fraction cs).1 := by
  have hdot : IsAscii (· = '.') := isAscii_eq (by decide)
  by_cases hat : AtFraction cs
  · obtain ⟨d, r, rfl, hd⟩ := hat
    have hnext : Stands bs (i + 1) (d :: r) := h.next (by decide)
    have hgap : isDigitOrGap d = true := by simp [isDigitOrGap, hd]
    have hsize : Char.utf8Size '.' = 1 := by decide
    simp [Scan.fractionEnd, h.sees hdot, hnext.sees isAscii_isDigit, hd, hnext.run_eq isAscii_isDigitOrGap, hgap,
      fraction,       byteSize, hsize, Nat.add_assoc]
  · rw [fraction_of_not hat, Scan.fractionEnd, if_neg]
    · rfl
    · intro hs
      obtain ⟨hs, hs'⟩ := Bool.and_eq_true_iff.1 hs
      obtain ⟨c, r, rfl, hc, hnext⟩ := h.seen hdot hs
      obtain ⟨d, r, rfl, hd, -⟩ := hnext.seen isAscii_isDigit hs'
      exact hat ⟨d, r, by rw [of_decide_eq_true hc], hd⟩

lemma exponentEnd (h : Stands bs i cs) : exponentEnd bs i = i + byteSize (exponent cs).1 := by
  have hexp : IsAscii fun c => c = 'e' || c = 'E' := isAscii_or (isAscii_eq (by decide)) (isAscii_eq (by decide))
  have hsign : IsAscii fun c => c = '+' || c = '-' := isAscii_or (isAscii_eq (by decide)) (isAscii_eq (by decide))
  by_cases hat : AtExponent cs
  · obtain ⟨e, s, d, r, rfl, he, hs, hd⟩ := hat
    have hsee : Scan.sees bs i (fun c => c = 'e' || c = 'E') = true := by rw [h.sees hexp]; simpa using he
    obtain ⟨_, _, heq, -, hnext⟩ := h.seen hexp hsee
    obtain ⟨rfl, rfl⟩ := List.cons.inj heq
    have hgap : isDigitOrGap d = true := by simp [isDigitOrGap, hd]
    have hlen : byteSize s = if Scan.sees bs (i + 1) (fun c => c = '+' || c = '-') then 1 else 0 := by
      rw [hnext.sees hsign]
      obtain rfl | rfl | rfl := hs
      · have : ¬ (d = '+' ∨ d = '-') := by rintro (rfl | rfl) <;> exact absurd hd (by decide)
        simp_all [byteSize]
      · rfl
      · rfl
    have hdigits := hnext.later
    rw [hlen] at hdigits
    have hone : e.utf8Size = 1 := by obtain rfl | rfl := he <;> rfl
    rw [exponent_of_at he hs hd, Scan.exponentEnd, hsee, hdigits.sees isAscii_isDigit,
      hdigits.run_eq isAscii_isDigitOrGap, ← hlen]
    simp [hd, hgap, byteSize, hone]
    omega
  · rw [exponent_of_not hat, Scan.exponentEnd, if_neg]
    · rfl
    · intro hs
      obtain ⟨hs, hdigit⟩ := Bool.and_eq_true_iff.1 hs
      obtain ⟨e, r, rfl, he, hnext⟩ := h.seen hexp hs
      refine hat ?_
      split at hdigit
      · next hs =>
        obtain ⟨c, r, rfl, hc, hnext⟩ := hnext.seen hsign hs
        obtain ⟨d, r, rfl, hd, -⟩ := hnext.seen isAscii_isDigit hdigit
        exact ⟨e, [c], d, r, rfl, by simpa using he, by simpa using hc, hd⟩
      · obtain ⟨d, r, rfl, hd, -⟩ := hnext.seen isAscii_isDigit hdigit
        exact ⟨e, [], d, r, rfl, by simpa using he, .inl rfl, hd⟩

lemma numberAt (h : Stands bs i cs) :
    (number cs).found = .token (numberAt bs i).1 ∧ (numberAt bs i).2 = i + byteSize (number cs).text := by
  have hzero : IsAscii (· = '0') := isAscii_eq (by decide)
  have hbase : IsAscii fun c => c = 'x' || c = 'b' || c = 'o' :=
    isAscii_or (isAscii_or (isAscii_eq (by decide)) (isAscii_eq (by decide))) (isAscii_eq (by decide))
  by_cases hat : AtBase cs
  · obtain ⟨b, r, rfl, hb⟩ := hat
    have hb : (decide (b = 'x') || decide (b = 'b') || decide (b = 'o')) = true := by simpa [or_assoc] using hb
    have hnext : Stands bs (i + 1) (b :: r) := h.next (by decide)
    have hdigits : Stands bs (i + 2) r := hnext.next (hbase b hb)
    have hsize : Char.utf8Size '0' = 1 := by decide
    have hsize' : b.utf8Size = 1 := by
      obtain (rfl | rfl) | rfl : (b = 'x' ∨ b = 'b') ∨ b = 'o' := by simpa using hb
      all_goals rfl
    rw [Scan.numberAt, if_pos (by rw [h.sees hzero, hnext.sees hbase]; simpa using hb), hdigits.run_eq isAscii_isWord]
    simp [number, hb, byteSize, hsize, hsize']
    omega
  · rw [number_of_not hat, Scan.numberAt, if_neg]
    · have hwhole := h.run isAscii_isDigitOrGap
      have hfrac := hwhole.fractionEnd
      have hrest : Stands bs (Scan.fractionEnd bs (Scan.run isDigitOrGap bs i))
          (fraction (cs.dropWhile isDigitOrGap)).2 := by
        rw [hfrac]
        exact later (by rwa [local_fraction.split])
      have hexp := hrest.exponentEnd
      rw [hfrac, h.run_eq isAscii_isDigitOrGap] at hexp
      rw [h.run_eq isAscii_isDigitOrGap] at hfrac
      simp only [hfrac, h.run_eq isAscii_isDigitOrGap, hexp, decimal, byteSize_append, Bool.and_eq_true,
        List.isEmpty_iff, ← byteSize_eq_zero]
      refine ⟨?_, by omega⟩
      congr 3
      exact propext (by omega)
    · intro hs
      obtain ⟨hs, hs'⟩ := Bool.and_eq_true_iff.1 hs
      obtain ⟨c, r, rfl, hc, hnext⟩ := h.seen hzero hs
      obtain ⟨b, r, rfl, hb, -⟩ := hnext.seen hbase hs'
      exact hat ⟨b, r, by rw [of_decide_eq_true hc], by simpa [or_assoc] using hb⟩

end Stands

/-! Blanks and comments by their bytes. -/

lemma trivia_append (hb : ∀ b ∈ bs, 128 ≤ b) (later : List UInt8) :
    trivia true (bs ++ later) = bs.length + trivia true later := by
  induction bs with
  | nil => simp
  | cons b bs ih =>
    have hline : ofByte b ≠ '\n' :=
      of_decide_eq_false ((isAscii_eq (c := '\n') (by decide)).ofByte (hb b List.mem_cons_self))
    rw [List.cons_append, trivia, decide_eq_true hline, ih fun b h => hb b (List.mem_cons_of_mem _ h), List.length_cons]
    omega

lemma trivia_encode (inComment : Bool) (off : Nat) (cs : List Char) :
    off + trivia inComment (encode cs) = (skip inComment off cs).1 := by
  have hslash : IsAscii (· = '/') := isAscii_eq (by decide)
  have hone {b : UInt8} {later : List UInt8} (hb : isBlank (ofByte b) = true) :
      trivia false (b :: later) = trivia false later + 1 := by
    have hne : ofByte b ≠ '/' := fun he => absurd hb (by rw [he]; decide)
    rw [trivia, if_neg fun h => hne h.1, if_pos hb]
  fun_induction skip inComment off cs with
  | case1 inComment off => cases inComment <;> rfl
  | case2 off c rest ih =>
    rw [← ih]
    obtain ⟨hc, henc, hsize⟩ | ⟨hc, b, bs, henc, hb, hbs, hsize⟩ := encode_cons c rest
    · rw [henc, trivia, ofByte_ofNat hc, hsize]
      omega
    · have hline : c ≠ '\n' := by rintro rfl; exact absurd hc (by decide)
      have hall : ∀ x ∈ b :: bs, 128 ≤ x := List.forall_mem_cons.2 ⟨high hb, hbs⟩
      rw [henc, ← List.cons_append, trivia_append hall, hsize, List.length_cons, decide_eq_true hline]
      omega
  | case3 off rest ih =>
    rw [← ih]
    show off + (trivia true (47 :: encode rest) + 1) = _
    rw [trivia, decide_eq_true (by decide)]
    omega
  | case4 off c rest hne hblank ih =>
    obtain ⟨hc, henc, hsize⟩ | ⟨hc, -⟩ := encode_cons c rest
    · rw [← ih, henc, hone (by rwa [ofByte_ofNat hc]), hsize]
      omega
    · exact absurd hblank (by rw [isAscii_isBlank.eq_false hc]; decide)
  | case5 off c rest hne hblank =>
    obtain ⟨hc, henc, hsize⟩ | ⟨hc, b, bs, henc, hb, -⟩ := encode_cons c rest
    · have hnot : ¬ (c = '/' ∧ (encode rest).head?.any (fun b => ofByte b = '/') = true) := by
        rintro ⟨rfl, hs⟩
        rw [head?_encode hslash] at hs
        cases rest with
        | nil => cases hs
        | cons d rest => exact hne rest rfl (by rw [of_decide_eq_true hs])
      rw [henc, trivia, ofByte_ofNat hc, if_neg hnot, if_neg hblank, Nat.add_zero]
    · have hnot : ofByte b ≠ '/' := of_decide_eq_false (hslash.ofByte (high hb))
      rw [henc, trivia, if_neg fun h => hnot h.1, isAscii_isBlank.ofByte (high hb), if_neg (by decide), Nat.add_zero]

/-! Scanning by bytes. -/

lemma isAscii_single : IsAscii fun c => (single? c).isSome := by
  intro c hc
  dsimp only at hc
  unfold single? at hc
  split at hc <;> first | decide | cases hc

lemma ascii_of_pair {d : Char} (h : (pair? c d).isSome = true) : c.toNat < 128 ∧ d.toNat < 128 := by
  unfold pair? at h
  split at h <;> first | decide | cases h

lemma Stands.first? {α : Type} {f : Char → Option α} (h : Stands bs i cs) (hf : IsAscii fun c => (f c).isSome) :
    (bs[i]?.map ofByte).bind f = cs.head?.bind f := by
  rw [h.getElem?]
  cases cs with
  | nil => rfl
  | cons c cs =>
    obtain ⟨hc, henc, -⟩ | ⟨hc, b, bs, henc, hb, -⟩ := encode_cons c cs
    · simp [henc, ofByte_ofNat hc]
    · have hleft : f (ofByte b) = none := Option.isNone_iff_eq_none.1 (by simpa using hf.ofByte (high hb))
      have hright : f c = none := Option.isNone_iff_eq_none.1 (by simpa using hf.eq_false hc)
      simp [henc, hleft, hright]

lemma punct_eq (c : Char) (rest : List Char) :
    punct c rest = match rest.head?.bind (pair? c) with
      | some p => ⟨.token (.punct p), [c] ++ rest.take 1, rest.drop 1⟩
      | none => punct.ofSingle c rest := by
  unfold punct
  cases rest with
  | nil => rfl
  | cons d after => rfl

variable {source : String}

lemma Stands.pair? (h : Stands bs i (c :: rest)) :
    ((bs[i]?.map ofByte).bind fun c => (bs[i + 1]?.map ofByte).bind (pair? c)) = rest.head?.bind (pair? c) := by
  have hascii : IsAscii fun c => ((bs[i + 1]?.map ofByte).bind (Scan.pair? c)).isSome := fun c hc => by
    obtain ⟨p, hp⟩ := Option.isSome_iff_exists.1 hc
    obtain ⟨d, -, hd⟩ := Option.bind_eq_some_iff.1 hp
    exact (ascii_of_pair (Option.isSome_of_eq_some hd)).1
  rw [h.first? hascii, List.head?_cons, Option.bind_some]
  by_cases hc : c.toNat < 128
  · exact (h.next hc).first? fun d hd => (ascii_of_pair hd).2
  · have hnone (d : Char) : Scan.pair? c d = none := by
      rw [← Option.not_isSome_iff_eq_none]
      exact fun hd => hc (ascii_of_pair hd).1
    simp [hnone]

lemma Stands.size_eq_one (h : Stands bs i (c :: rest)) (h' : Stands bs (i + 1) rest) : c.utf8Size = 1 := by
  have hlen := h.length
  rw [h'.length, byteSize_cons] at hlen
  omega

lemma Stands.punctAt (h : Stands (utf8 source) i (c :: rest)) :
    punctAt? source i = some ((punct c rest).found, i + byteSize (punct c rest).text) := by
  have hslice : Scan.slice? source i (utf8 source).length = some (String.ofList (c :: rest)) := by
    rw [h.length]
    exact Stands.slice? (show Stands _ i (_ ++ []) by rwa [List.append_nil])
  rw [punctAt?, h.pair?, h.first? isAscii_single, punct_eq]
  cases hp : rest.head?.bind (Scan.pair? c) with
  | some p =>
    cases rest with
    | nil => cases hp
    | cons d after =>
      obtain ⟨hc, hd⟩ := ascii_of_pair (Option.isSome_of_eq_some hp)
      have hnext := h.next hc
      simp [byteSize, h.size_eq_one hnext, hnext.size_eq_one (hnext.next hd)]
  | none =>
    rw [List.head?_cons, Option.bind_some]
    cases hs : single? c with
    | some p =>
      have hnext := h.next (isAscii_single c (Option.isSome_of_eq_some hs))
      simp [punct.ofSingle, hs, byteSize, h.size_eq_one hnext]
    | none =>
      have hpos : max c.utf8Size 1 = c.utf8Size := Nat.max_eq_left c.utf8Size_pos
      simp [hslice, punct.ofSingle, hs, byteSize, hpos]

lemma Stands.stringAt (h : Stands bs i ('"' :: rest)) :
    stringBytes (bs.drop (i + 1)) = (byteSize (stringTail rest).1, (stringTail rest).2.2) ∧
      i + 1 + byteSize (stringTail rest).1 = i + byteSize ('"' :: (stringTail rest).1) := by
  have hnext : Stands bs (i + 1) rest := h.next (by decide)
  refine ⟨by rw [hnext.drop]; exact stringBytes_utf8 rest, ?_⟩
  simp [byteSize, h.size_eq_one hnext, Nat.add_assoc]

lemma Stands.wordAt (h : Stands (utf8 source) i cs) :
    Scan.slice? source i (i + byteSize (cs.takeWhile isWord)) = some (String.ofList (cs.takeWhile isWord)) :=
  Stands.slice? (show Stands _ i (_ ++ cs.dropWhile isWord) by rwa [List.takeWhile_append_dropWhile])

lemma Stands.lexemeAt (h : Stands (utf8 source) i (c :: rest)) :
    lexemeAt? source i = some ((lexeme c rest).found, i + byteSize (lexeme c rest).text) := by
  have hsees {p : Char → Bool} (hp : IsAscii p) : Scan.sees (utf8 source) i p = p c := h.sees hp
  unfold lexemeAt? lexeme
  simp only [hsees (isAscii_eq (c := '"') (by decide)), hsees isAscii_isDigit,
    hsees (isAscii_eq (c := '@') (by decide)),    hsees isAscii_isWordStart, decide_eq_true_eq]
  by_cases hq : c = '"'
  · subst hq
    obtain ⟨hbytes, hstop⟩ := h.stringAt
    rw [if_pos rfl, if_pos rfl, hbytes, string, ← hstop]
  by_cases hd : c.isDigit
  · obtain ⟨hkind, hstop⟩ := h.numberAt
    rw [if_neg hq, if_neg hq, if_pos hd, if_pos hd, hkind, ← hstop]
  by_cases hb : c = '@'
  · subst hb
    have hnext : Stands (utf8 source) (i + 1) rest := h.next (by decide)
    rw [if_neg hq, if_neg hq, if_neg hd, if_neg hd, if_pos rfl, if_pos rfl, hnext.run_eq isAscii_isWord]
    simp [byteSize, h.size_eq_one hnext, Nat.add_assoc]
  by_cases hw : isWordStart c
  · simp only [if_neg hq, if_neg hd, if_neg hb, if_pos hw, h.run_eq isAscii_isWord, h.wordAt, Option.bind_eq_bind,
      Option.bind_some, String.toList_ofList]
    rfl
  · simp only [if_neg hq, if_neg hd, if_neg hb, if_neg hw]
    exact h.punctAt

lemma spanAt_eq {j : Nat} (hj : j < 2 ^ 32) (hij : i ≤ j) : spanAt i j = ⟨i, j⟩ := by
  rw [spanAt, Nat.mod_eq_of_lt hj, Nat.mod_eq_of_lt (Nat.lt_of_le_of_lt hij hj)]

lemma scanBytes_of_stands {fuel off : Nat} (hsmall : (utf8 source).length < 2 ^ 32) (h : Stands (utf8 source) off cs)
    (hfuel : cs.length ≤ fuel) : scanBytes? source (fuel + 1) off = some (scanFrom fuel off cs) := by
  induction fuel generalizing off cs with
  | zero =>
    obtain rfl : cs = [] := List.eq_nil_of_length_eq_zero (Nat.le_zero.1 hfuel)
    have hend : (utf8 source).length = off := h.length
    rw [scanBytes?, h.drop, trivia_encode, scanFrom, skip, if_pos hend.le, spanAt_eq (hend ▸ hsmall) le_rfl]
  | succ fuel ih =>
    have hlen := h.length
    have hsize := skip_size false off cs
    rw [scanBytes?, h.drop, trivia_encode]
    cases hs : skip false off cs with
    | mk o cs' =>
      rw [hs] at hsize
      simp only [scanFrom, hs]
      cases cs' with
      | nil =>
        have hend : (utf8 source).length = o := by rw [hlen, ← hsize]; rfl
        rw [if_pos hend.le, spanAt_eq (hend ▸ hsmall) le_rfl]
      | cons c rest =>
        obtain ⟨w, rfl, rfl, -⟩ := skip_spec hs
        have hat : Stands (utf8 source) (off + byteSize w) (c :: rest) := h.later
        have hstart : ¬ (utf8 source).length ≤ off + byteSize w := by
          rw [hat.length, byteSize_cons]
          have := c.utf8Size_pos
          omega
        obtain ⟨t, ht, hr⟩ := lexeme_split c rest
        have hsplit : c :: rest = (lexeme c rest).text ++ (lexeme c rest).rest := by rw [ht, List.cons_append, ← hr]
        rw [hsplit] at hat
        have hstop := hat.later.length
        have hlater := ih hat.later (by
          have := congrArg List.length hr
          simp at hfuel this
          omega)
        rw [if_neg hstart, h.later.lexemeAt, Option.bind_eq_bind, Option.bind_some, hlater, Option.bind_eq_bind,
          Option.bind_some, spanAt_eq (by omega) (Nat.le_add_right ..), hat.slice?]
        dsimp only
        cases (lexeme c rest).found <;> rfl

/-- The loop over the bytes comes to its end, no part that it cuts out is cut inside a character, and what it finds is
what the characters say. -/
theorem scanBytes_eq (source : String) (hsmall : (utf8 source).length < 2 ^ 32) {fuel : Nat}
    (hfuel : source.toList.length < fuel) : scanBytes? source fuel 0 = some (scan source) := by
  have hat : Stands (utf8 source) 0 source.toList :=
    ⟨[], by rw [List.nil_append, utf8_eq_encode], rfl⟩
  obtain ⟨n, rfl⟩ : ∃ n, fuel = n + 1 := ⟨fuel - 1, by omega⟩
  have hn := Nat.le_of_lt_succ hfuel
  rw [scanBytes_of_stands hsmall hat hn, scan, scanFrom_fuel hn le_rfl]

end Frontend.Scan
