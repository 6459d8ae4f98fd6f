import Mathlib
import Frontend.Proofs.Parsing.Alone

/-! String literals. A literal ends at the same quote whether its characters are gone through or the bytes that encode
them, and a text that is written between quotes, each character of it as itself or as an escape, is read back. -/

namespace Frontend

namespace Literal

/-- A spelling of a character between quotes: the character itself if it may stand there, or an escape for it. -/
inductive Spells (c : Char) : List Char → Prop
  | plain (hquote : c ≠ '"') (hslash : c ≠ '\\') (hline : c ≠ '\n') : Spells c [c]
  | escape {e : Char} (h : unescape ['\\', e] = [c]) : Spells c ['\\', e]

variable {w : Char → List Char}

lemma unescape_flatMap (hw : ∀ c, Spells c (w c)) (cs : List Char) : unescape (cs.flatMap w) = cs := by
  induction cs with
  | nil => rfl
  | cons c cs ih =>
    rw [List.flatMap_cons]
    generalize w c = text, hw c = hc
    cases hc with
    | plain hquote hslash hline => simp [unescape, hslash, ih]
    | @escape e h =>
      have hstep : unescape ('\\' :: e :: cs.flatMap w) = unescape ['\\', e] ++ unescape (cs.flatMap w) := rfl
      rw [List.cons_append, List.singleton_append, hstep, h, ih, List.singleton_append]

lemma string_spelled (hw : ∀ c, Spells c (w c)) (s : String) :
    string (String.ofList ('"' :: (s.toList.flatMap w ++ ['"']))) = s := by
  have hunquote : unquote ('"' :: (s.toList.flatMap w ++ ['"'])) = s.toList.flatMap w := by simp [unquote]
  rw [string, String.toList_ofList, hunquote, unescape_flatMap hw, String.ofList_toList]

end Literal

namespace Scan
open Literal
variable {w : Char → List Char}

lemma stringTail_spelled (hw : ∀ c, Spells c (w c)) (cs rest : List Char) :
    stringTail (cs.flatMap w ++ '"' :: rest) = (cs.flatMap w ++ ['"'], rest, true) := by
  induction cs with
  | nil => rfl
  | cons c cs ih =>
    rw [List.flatMap_cons]
    generalize w c = text, hw c = hc
    cases hc with
    | plain hquote hslash hline => simp [stringTail, hslash, ih]
    | escape h => simp [stringTail, ih]

lemma lexeme_spelled (hw : ∀ c, Spells c (w c)) (cs rest : List Char) :
    lexeme '"' (cs.flatMap w ++ '"' :: rest) = ⟨.token .str, '"' :: (cs.flatMap w ++ ['"']), rest⟩ := by
  simp [lexeme, string, stringTail_spelled hw]

/-- The bytes that are taken after the quote of a string, and whether the string is closed. An escape takes the byte
after it, which may be one of several that encode a character. -/
def stringBytes : List UInt8 → Nat × Bool
  | [] => (0, false)
  | 34 :: _ => (1, true)
  | [92] => (1, false)
  | 92 :: _ :: rest => ((stringBytes rest).1 + 2, (stringBytes rest).2)
  | 10 :: _ => (0, false)
  | _ :: rest => ((stringBytes rest).1 + 1, (stringBytes rest).2)

lemma stringBytes_cons {b : UInt8} (h34 : b ≠ 34) (h92 : b ≠ 92) (h10 : b ≠ 10) (rest : List UInt8) :
    stringBytes (b :: rest) = ((stringBytes rest).1 + 1, (stringBytes rest).2) := by
  rw [stringBytes] <;> simp [*]

lemma stringBytes_append {bs : List UInt8} (hb : ∀ b ∈ bs, 128 ≤ b) (rest : List UInt8) :
    stringBytes (bs ++ rest) = ((stringBytes rest).1 + bs.length, (stringBytes rest).2) := by
  induction bs with
  | nil => rfl
  | cons b bs ih =>
    have hne {n : UInt8} (hn : n < 128) : b ≠ n := fun h => absurd (hb b (by simp)) (by simpa [h] using hn)
    rw [List.cons_append, stringBytes_cons (hne (by decide)) (hne (by decide)) (hne (by decide)),
      ih fun b h => hb b (by simp [h])]
    simp [Nat.add_assoc]

lemma utf8EncodeChar_cases (c : Char) :
    c.toNat < 128 ∧ String.utf8EncodeChar c = [UInt8.ofNat c.toNat] ∨
      128 ≤ c.toNat ∧ ∃ b bs, String.utf8EncodeChar c = b :: bs ∧ 192 ≤ b ∧ ∀ b ∈ bs, 128 ≤ b := by
  have high {k n : Nat} (h : k ≤ n) (hlt : n < 256) : UInt8.ofNat k ≤ UInt8.ofNat n := by
    rw [UInt8.le_iff_toNat_le, UInt8.toNat_ofNat_of_lt' hlt, UInt8.toNat_ofNat_of_lt' (Nat.lt_of_le_of_lt h hlt)]
    exact h
  change c.val.toNat < 128 ∧ String.utf8EncodeChar c = [UInt8.ofNat c.val.toNat] ∨ 128 ≤ c.val.toNat ∧ _
  simp only [String.utf8EncodeChar]
  split_ifs
  · exact .inl ⟨by omega, rfl⟩
  all_goals
    refine .inr ⟨by omega, _, _, rfl, high (k := 192) (by omega) (by omega), fun b hb => ?_⟩
    simp only [List.mem_cons, List.not_mem_nil, or_false] at hb
    rcases hb with rfl | rfl | rfl <;> exact high (k := 128) (by omega) (by omega)

lemma stringBytes_utf8 (cs : List Char) :
    stringBytes (cs.flatMap String.utf8EncodeChar) = (byteSize (stringTail cs).1, (stringTail cs).2.2) := by
  fun_induction stringTail cs with
  | case1 => rfl
  | case2 rest => rfl
  | case3 => rfl
  | case4 c rest taken after closed h ih =>
    -- The escape takes a byte of the character after it; what is left of that character is beyond the first 128.
    obtain ⟨b, bs, henc, hbs⟩ : ∃ b bs, String.utf8EncodeChar c = b :: bs ∧ ∀ b ∈ bs, 128 ≤ b := by
      obtain ⟨-, henc⟩ | ⟨-, b, bs, henc, -, hbs⟩ := utf8EncodeChar_cases c
      · exact ⟨_, [], henc, by simp⟩
      · exact ⟨b, bs, henc, hbs⟩
    have hsize : c.utf8Size = bs.length + 1 := by rw [← String.length_utf8EncodeChar, henc, List.length_cons]
    have hbytes : ('\\' :: c :: rest).flatMap String.utf8EncodeChar =
        92 :: b :: (bs ++ rest.flatMap String.utf8EncodeChar) := by
      simp only [List.flatMap_cons, henc]
      rfl
    rw [h] at ih
    rw [hbytes, stringBytes, stringBytes_append hbs, ih]
    simp only [byteSize, List.map_cons, List.sum_cons, hsize, Prod.mk.injEq, and_true]
    have : '\\'.utf8Size = 1 := rfl
    omega
  | case5 rest => rfl
  | case6 c rest hq hs hs' hn taken after closed h ih =>
    rw [h] at ih
    have hstep : stringBytes (String.utf8EncodeChar c ++ rest.flatMap String.utf8EncodeChar) =
        (byteSize taken + c.utf8Size, closed) := by
      obtain ⟨hlt, henc⟩ | ⟨-, b, bs, henc, hb, hbs⟩ := utf8EncodeChar_cases c
      · have hne {d : Char} (h : c ≠ d) (hd : d.toNat < 128) : UInt8.ofNat c.toNat ≠ UInt8.ofNat d.toNat := fun he => by
          have hval := congrArg UInt8.toNat he
          simp only [UInt8.toNat_ofNat'] at hval
          exact h (Char.toNat_inj.1 (by omega))
        have hslash : c ≠ '\\' := fun hc => by
          cases rest with
          | nil => exact hs hc rfl
          | cons d rest => exact hs' d rest hc rfl
        rw [← String.length_utf8EncodeChar, henc, List.singleton_append,
          stringBytes_cons (hne (d := '"') hq (by decide)) (hne hslash (by decide)) (hne (d := '\n') hn (by decide)),
          ih]
        rfl
      · have hall : ∀ x ∈ String.utf8EncodeChar c, 128 ≤ x := by
          rw [henc, List.forall_mem_cons]
          exact ⟨UInt8.le_trans (by decide) hb, hbs⟩
        rw [stringBytes_append hall, ih, String.length_utf8EncodeChar]
    rw [List.flatMap_cons, hstep]
    simp [byteSize, Nat.add_comm]

end Scan

def escapedChar : Char → List Char
  | '\\' => ['\\', '\\']
  | '"' => ['\\', '"']
  | '\n' => ['\\', 'n']
  | '\r' => ['\\', 'r']
  | '\t' => ['\\', 't']
  | '\x00' => ['\\', '0']
  | c => [c]

def escapedString (s : String) : String := String.ofList ('"' :: (s.toList.flatMap escapedChar ++ ['"']))

lemma spells_escapedChar (c : Char) : Literal.Spells c (escapedChar c) := by
  unfold escapedChar
  split
  case h_7 hslash hquote hline _ _ _ => exact .plain hquote hslash hline
  all_goals exact .escape rfl

open Scan in
/-- The literal of a string is a token by itself, in characters and in bytes, and its value is the string. -/
theorem scan_escapedString (s : String) :
    let q := escapedString s
    let size := (utf8 q).length
    (scan q).tokens ++ [(scan q).eof] = [⟨.str, q, ⟨0, size⟩⟩, ⟨.eof, "", .point size⟩] ∧ (scan q).errors = [] ∧
      stringBytes ((utf8 q).drop 1) = (size - 1, true) ∧ Literal.string q = s := by
  have hw := spells_escapedChar
  have htext : (escapedString s).toList = '"' :: (s.toList.flatMap escapedChar ++ ['"']) := String.toList_ofList
  have hsize : (utf8 (escapedString s)).length = byteSize ('"' :: (s.toList.flatMap escapedChar ++ ['"'])) :=
    length_utf8_ofList _
  have hscan : scan (escapedString s) = ⟨[⟨.str, escapedString s, ⟨0, 0 + byteSize (escapedString s).toList⟩⟩], [],
      0 + byteSize (escapedString s).toList⟩ := by
    refine Lexes.scan_eq ?_ le_rfl
    have hskip := skip_stays (c := '"') (x := s.toList.flatMap escapedChar ++ ['"']) (by decide)
      (fun _ h => absurd h (by decide)) 0
    rw [htext]
    exact .token hskip (lexeme_spelled hw _ []) (.done rfl)
  refine ⟨?_, ?_, ?_, Literal.string_spelled hw s⟩
  · simp only [hscan, Result.eof, hsize, htext, Nat.zero_add]
    rfl
  · rw [hscan]
  · have hbytes := stringBytes_utf8 (s.toList.flatMap escapedChar ++ ['"'])
    rw [stringTail_spelled hw s.toList []] at hbytes
    have hdrop : (utf8 (escapedString s)).drop 1 =
        (s.toList.flatMap escapedChar ++ ['"']).flatMap String.utf8EncodeChar := by
      rw [escapedString, utf8_ofList]
      rfl
    rw [hdrop, hbytes, hsize]
    simp [byteSize, show '"'.utf8Size = 1 from rfl]

end Frontend
