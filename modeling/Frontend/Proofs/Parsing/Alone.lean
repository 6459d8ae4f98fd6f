import Mathlib
import Frontend.Proofs.Parsing.Lexing

/-! An item by itself. The bytes of an item's range are a text of one item, the same one but for where it stands. Items
are compared by these bytes, so nothing that an item is lowered to can change unseen. -/

namespace Frontend

/-! Bytes of a part of a text. -/

lemma utf8_ofList (cs : List Char) : utf8 (String.ofList cs) = cs.flatMap String.utf8EncodeChar := by
  simp [utf8, String.toUTF8, List.utf8Encode]

lemma length_utf8_ofList (cs : List Char) : (utf8 (String.ofList cs)).length = Scan.byteSize cs := by
  rw [utf8_ofList]
  induction cs with
  | nil => rfl
  | cons c cs ih =>
    rw [List.flatMap_cons, List.length_append, ih, String.length_utf8EncodeChar]
    simp [Scan.byteSize]

lemma utf8_injective {s t : String} (h : utf8 s = utf8 t) : s = t := by
  refine String.toByteArray_inj.1 (ByteArray.ext ?_)
  simpa [utf8, String.toUTF8] using h

lemma Span.bytes_eq {source : String} {a w y : List Char} (h : source.toList = a ++ (w ++ y)) :
    Span.bytes ⟨Scan.byteSize a, Scan.byteSize a + Scan.byteSize w⟩ source = utf8 (String.ofList w) := by
  have hs : utf8 source = utf8 (String.ofList a) ++ (utf8 (String.ofList w) ++ utf8 (String.ofList y)) := by
    rw [← String.ofList_toList (s := source), h]
    simp only [utf8_ofList, List.flatMap_append]
  simp only [bytes, hs, ← length_utf8_ofList]
  rw [List.take_length_add_append, List.take_left, List.drop_left]

/-! The tokens of a text. -/

lemma Scan.lexeme_kind_ne {c : Char} {rest : List Char} {kind : TokenKind}
    (h : (lexeme c rest).found = .token kind) : kind ≠ .eof := by
  rintro rfl
  unfold lexeme string number decimal word punct punct.ofSingle at h
  dsimp only at h
  repeat' split at h
  all_goals cases h

lemma Scan.Lexes.kind_ne {off stop : Nat} {cs : List Char} {toks : List Token} (h : Lexes off cs toks stop) :
    ∀ t ∈ toks, t.kind ≠ .eof := by
  induction h with
  | done => simp
  | token _ hl _ ih =>
    rintro t (_ | ⟨_, ht⟩)
    · exact lexeme_kind_ne (by rw [hl])
    · exact ih t ht

namespace Parse

variable {c d : Cursor} {its : List Item} {it : Item} {source : String}

lemma items_reached {fuel : Nat} (h : items fuel c = (its, [])) (he : c.eof.kind = .eof) (hit : it ∈ its) :
    ∃ c₁ d, c.Reaches c₁ ∧ c₁.eof = c.eof ∧ item c₁ = .ok it d := by
  induction fuel generalizing c its with
  | zero =>
    cases h
    cases hit
  | succ fuel ih =>
    unfold items at h
    split at h
    · cases h
      cases hit
    · split at h
      · next it₁ c₁ hrun =>
        obtain ⟨heof, hreach, -⟩ := eats_item.ok c it₁ c₁ he hrun
        cases hrest : items fuel c₁ with
        | mk its₁ errs =>
          rw [hrest] at h
          cases h
          obtain rfl | hit := List.mem_cons.1 hit
          · exact ⟨c, c₁, .refl c, rfl, hrun⟩
          · obtain ⟨c₂, d, hr, he₂, hrun₂⟩ := ih hrest (heof ▸ he) hit
            exact ⟨c₂, d, hreach.trans hr, he₂.trans heof, hrun₂⟩
      · cases h

lemma item_span (h : item c = .ok it d) : it.span = ⟨c.peek.span.start, max d.prevEnd c.peek.span.start⟩ := by
  obtain ⟨s, c₁, h₁, h⟩ := bind_ok h
  cases h₁
  obtain ⟨isPublic, c₂, -, h⟩ := bind_ok h
  obtain ⟨n, c₃, -, h⟩ := bind_ok h
  obtain ⟨mods, c₄, -, h⟩ := bind_ok h
  obtain ⟨t, c₅, -, h⟩ := bind_ok h
  have last {p : Parser ItemKind} (h : (p >>= fun kind => do
      let span ← spanFrom c.peek.span.start
      return Item.mk kind isPublic span) c₅ = .ok it d) :
        it.span = ⟨c.peek.span.start, max d.prevEnd c.peek.span.start⟩ := by
    obtain ⟨kind, c₆, -, h⟩ := bind_ok h
    obtain ⟨span, c₇, h₇, h⟩ := bind_ok h
    cases h₇
    obtain ⟨rfl, rfl⟩ := pure_ok h
    rfl
  have other {p : Prop} [Decidable p] {q q' : Parser ItemKind} (h : (if p then q >>= fun kind => do
        let span ← spanFrom c.peek.span.start
        return Item.mk kind isPublic span
      else q' >>= fun kind => do
        let span ← spanFrom c.peek.span.start
        return Item.mk kind isPublic span) c₅ = .ok it d) :
      it.span = ⟨c.peek.span.start, max d.prevEnd c.peek.span.start⟩ := by
    split at h <;> exact last h
  dsimp only at h
  generalize t.kind = kind at h
  cases kind with
  | keyword w => cases w <;> first | exact last h | exact other h
  | _ => exact other h

lemma errors_of_file (h : file source = .ok its) :
    (Scan.scan source).errors = [] ∧ items ((Scan.scan source).tokens.length + 1)
      ⟨(Scan.scan source).tokens, (Scan.scan source).eof, 0⟩ = (its, []) := by
  unfold file at h
  dsimp only at h
  generalize items _ _ = r at h ⊢
  obtain ⟨its', errs⟩ := r
  split at h
  · next herr =>
    cases h
    obtain ⟨hscan, rfl⟩ := List.append_eq_nil_iff.1 herr
    exact ⟨hscan, rfl⟩
  · cases h

lemma items_of_done (h : c.rest = []) (fuel : Nat) : items fuel c = ([], []) := by
  cases fuel <;> simp [items, h]

lemma file_of_item {text : String} {toks : List Token} {stop : Nat} (hscan : Scan.scan text = ⟨toks, [], stop⟩)
    (hne : toks ≠ []) (h : item ⟨toks, Scan.Result.eof ⟨toks, [], stop⟩, 0⟩ = .ok it d) (hd : d.rest = []) :
    file text = .ok [it] := by
  have hitems : items (toks.length + 1) ⟨toks, Scan.Result.eof ⟨toks, [], stop⟩, 0⟩ = ([it], []) := by
    rw [items, if_neg (by simpa using hne)]
    simp only [EStateM.run, h, items_of_done hd]
  rw [file, hscan]
  simp only [hitems, List.append_nil]

lemma item_alone (h : file source = .ok its) (hit : it ∈ its) :
    ∃ text it₀, utf8 text = it.span.bytes source ∧ file text = .ok [it₀] ∧ it₀.Like (Span.Moved it.span.start) it := by
  obtain ⟨herr, hitems⟩ := errors_of_file h
  have hlex : Scan.Lexes 0 source.toList (Scan.scan source).tokens (Scan.scan source).stop :=
    .of_scan (Nat.le_refl _) herr
  obtain ⟨c', d', ⟨before, hbefore, hprev⟩, heof, hrun⟩ := items_reached hitems rfl hit
  obtain ⟨-, ⟨read, hread, hlast⟩, hlen⟩ := eats_item.ok c' it d' (heof ▸ rfl) hrun
  have hspan := item_span hrun
  -- The characters before the item's tokens, with them, and after them.
  dsimp only at hbefore hprev
  rw [hbefore] at hlex
  have hne := hlex.kind_ne
  obtain ⟨a, r, hsource, -, hlex, ha⟩ := hlex.cut
  rw [hread] at hlex
  obtain ⟨w, y, rfl, hlex, -, hw⟩ := hlex.cut
  cases read with
  | nil => simp [hread] at hlen
  | cons t read =>
    obtain ⟨b, w, rfl, hstart, hlex⟩ := hlex.trim
    rw [← Nat.zero_add t.span.start] at hlex
    obtain ⟨toks, stop, htoks, hlex⟩ := hlex.moved_back
    have hscan : Scan.scan (String.ofList w) = ⟨toks, [], stop⟩ := by
      rw [Scan.scan, String.toList_ofList]
      exact hlex.scan_eq (Nat.le_refl _)
    -- The item is read from its tokens alone, to their end.
    have hslices : Cursor.Slices t.span.start d'.rest.length ⟨toks, (Scan.scan (String.ofList w)).eof, 0⟩ c' := {
      rest := ⟨d'.rest, rfl, htoks ▸ hread⟩
      eof := rfl
      eof' := heof ▸ rfl
      text := heof ▸ rfl
      before := fun u hu => hne u (List.mem_append_right _ hu)
      prevEnd := by
        dsimp only
        omega }
    obtain ⟨it₀, d, hrun₀, hlike, hd⟩ := Repeats.item _ _ it d' hslices (Nat.lt_succ_self _) hrun (.inl (Nat.le_refl _))
    have hdone : d.rest = [] := List.eq_nil_of_length_eq_zero (by have := hd.length_eq; omega)
    have hpeek : c'.peek = t := peek_cons hread
    rw [hpeek] at hspan
    have hsp : it.span = ⟨Scan.byteSize (a ++ b), Scan.byteSize (a ++ b) + Scan.byteSize w⟩ := by
      rw [List.getLast?_cons] at hw hlast
      simp only [Option.map_some, Option.getD_some, Scan.byteSize_append] at hw hlast ⊢
      rw [hspan, Span.mk.injEq]
      omega
    refine ⟨String.ofList w, it₀, ?_, ?_, ?_⟩
    · rw [hsp, Span.bytes_eq (y := y) (by rw [hsource]; simp)]
    · rw [hscan] at hrun₀
      exact file_of_item hscan (by rintro rfl; cases htoks) hrun₀ hdone
    · rw [hspan]
      exact hlike

end Parse

/-! What is lowered. -/

namespace Untyped
variable {R₁ R₂ R : Span → Span → Prop}

lemma Code.Like.zip {c a b : Code} (ha : c.Like R₁ a) (hR : ∀ s a b, R₁ s a → R₂ s b → R a b) (hb : c.Like R₂ b) :
    a.Like R b where
  insts := hb.insts.trans ha.insts.symm
  spans i := by
    have hi := ha.spans i
    have hi' := hb.spans i
    generalize c.spans[i]? = x at hi hi'
    generalize a.spans[i]? = y at hi ⊢
    generalize b.spans[i]? = z at hi' ⊢
    cases hi with
    | none =>
      cases hi'
      exact .none
    | some h =>
      cases hi' with
      | some h' => exact .some (hR _ _ _ h h')

lemma DeclKind.Like.zip {k a b : DeclKind} (ha : k.Like R₁ a) (hR : ∀ s a b, R₁ s a → R₂ s b → R a b)
    (hb : k.Like R₂ b) : a.Like R b := by
  cases ha with
  | fn h =>
    cases hb with
    | fn h' =>
      exact .fn ⟨h.code.zip hR h'.code, h'.signature.trans h.signature.symm, h'.params.trans h.params.symm,
        h'.body.trans h.body.symm, h'.isInline.trans h.isInline.symm⟩
  | var h =>
    cases hb with
    | var h' =>
      exact .var ⟨h.code.zip hR h'.code, h'.ty.trans h.ty.symm, h'.init.trans h.init.symm,
        h'.isMutable.trans h.isMutable.symm, h'.isExternal.trans h.isExternal.symm,
        h'.isThreadLocal.trans h.isThreadLocal.symm, hR _ _ _ h.keyword h'.keyword⟩
  | comptime h =>
    cases hb with
    | comptime h' => exact .comptime ⟨h.code.zip hR h'.code, h'.body.trans h.body.symm⟩

lemma Lowered.zip (hR : ∀ s a b, R₁ s a → R₂ s b → R a b) {x y z : Except LowerError Decl} (hy : Lowered R₁ x y)
    (hz : Lowered R₂ x z) : Lowered R y z := by
  cases hy with
  | error h cause =>
    cases hz with
    | error h' => exact .error (hR _ _ _ h h') cause
  | ok h =>
    cases hz with
    | ok h' =>
      exact .ok ⟨h'.name.trans h.name.symm, h'.isExported.trans h.isExported.symm, hR _ _ _ h.src h'.src,
        h.kind.zip hR h'.kind⟩

end Untyped

/-- Bytes tell items apart. Each item of a text can be read from the bytes of its own range, which are a text with that
item alone: the same one, with all places counted from its start. So items of any two texts with the same bytes are
lowered to the same code under one name, whose places differ by where the items start. -/
theorem Parse.file_item_by_bytes {source : String} {its : List Item} (h : Parse.file source = .ok its) {it : Item}
    (hit : it ∈ its) :
    (∃ text it₀, utf8 text = it.span.bytes source ∧ Parse.file text = .ok [it₀] ∧
      it₀.Like (Span.Moved it.span.start) it) ∧
    ∀ (source' : String) (its' : List Item) (it' : Item), Parse.file source' = .ok its' → it' ∈ its' →
      it'.span.bytes source' = it.span.bytes source → ∀ (name : String) (scope scope' : Scope),
        Untyped.Lowered (fun s s' => s.shift it'.span.start = s'.shift it.span.start) (Untyped.ofItem it name scope)
          (Untyped.ofItem it' name scope') := by
  obtain ⟨text, it₀, hbytes, hfile, hlike⟩ := Parse.item_alone h hit
  refine ⟨⟨text, it₀, hbytes, hfile, hlike⟩, fun source' its' it' h' hit' heq name scope scope' => ?_⟩
  obtain ⟨text', it₀', hbytes', hfile', hlike'⟩ := Parse.item_alone h' hit'
  obtain rfl : text' = text := utf8_injective (hbytes'.trans (heq.trans hbytes.symm))
  obtain rfl : it₀' = it₀ := by simpa using hfile'.symm.trans hfile
  refine .zip (fun s a b ha hb => ?_) (Untyped.ofItem_lowered hlike name scope scope)
    (Untyped.ofItem_lowered hlike' name scope scope')
  subst ha hb
  simp [Span.shift, Nat.add_right_comm]

/-- One declaration after a test and before a comment, and at the start of another text. -/
theorem Parse.file_item_by_bytes_moved :
    let source := "test \"t\" \x7b\x7d const a = \"\\\"//\"; // a"
    let source' := "const a = \"\\\"//\";"
    ∃ its its' it it', Parse.file source = .ok its ∧ it ∈ its ∧ Parse.file source' = .ok its' ∧ it' ∈ its' ∧
      it'.span.bytes source' = it.span.bytes source ∧ it'.span.start < it.span.start ∧
      (∃ text it₀, utf8 text = it.span.bytes source ∧ Parse.file text = .ok [it₀] ∧
        it₀.Like (Span.Moved it.span.start) it) ∧
      Untyped.Lowered (fun s s' => s.shift it'.span.start = s'.shift it.span.start) (Untyped.ofItem it "a" (.lowered 0))
        (Untyped.ofItem it' "a" (.lowered 1)) := by
  intro source source'
  have hd : ((Parse.file source).toOption.bind (·[1]?)).any (fun it =>
      ((Parse.file source').toOption.bind (·[0]?)).any fun it' =>
        it'.span.bytes source' = it.span.bytes source ∧ it'.span.start < it.span.start) = true := by decide +kernel
  cases h : Parse.file source with
  | error failure => simp [h, Except.toOption] at hd
  | ok its =>
    cases h' : Parse.file source' with
    | error failure => simp [h', Except.toOption] at hd
    | ok its' =>
      simp only [h, h', Except.toOption, Option.bind_some, Option.any_eq_true, decide_eq_true_eq] at hd
      obtain ⟨it, hit, it', hit', hbytes, hstart⟩ := hd
      obtain ⟨halone, hsame⟩ := Parse.file_item_by_bytes h (List.mem_of_getElem? hit)
      exact ⟨_, _, it, it', rfl, List.mem_of_getElem? hit, rfl, List.mem_of_getElem? hit', hbytes, hstart, halone,
        hsame source' its' it' h' (List.mem_of_getElem? hit') hbytes "a" (.lowered 0) (.lowered 1)⟩

end Frontend
