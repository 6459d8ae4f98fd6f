import Frontend.Proofs.Moves.Values
import Frontend.Proofs.Quiescence.Attention
import Frontend.Proofs.Writing.Control
import Frontend.Proofs.Writing.Valid

/-! The code of functions. In a program that comes of texts, every function whose body was analyzed has valid code. -/

namespace Frontend

open Analysis (Site)

structure Typed.Arena.Valid (a : Typed.Arena) (ret : Ty) (body : List Ref) : Prop where
  typed {r} : a.Nests body r → (a.inst r).WellTyped a ret
  laid : ∃ listed, a.Lays [] [] body listed ∧ listed.Nodup
  closed : ∃ r ∈ body.getLast?, a.ty r = .noReturn

def DeclValue.Coded (v : DeclValue) : Prop :=
  ∀ f, v.func = some f → f.state = .success →
    ∃ params result cc body, v.ty = .function params result cc ∧ f.body = some body ∧ v.arena.Valid result body

structure Program.Emitted (p : Program) : Prop where
  graph : p.Graph
  texts {file u} : (file, u) ∈ p.units.entries → u.isLowered = false
  sources {d D v f} : p.decl? d = some D → D.value = some v → v.func = some f → f.source.Scoped
  coded {d D v} : p.decl? d = some D → D.value = some v → v.Coded

structure Config.Emits (o : Engine) (c : Config) : Prop where
  emitted : c.engine.program.Emitted
  attentive : c.stage ≠ .torn → c.Attentive
  unfinished : c.Unfinished
  since {d r D v} : c.body = some (d, r) → c.engine.program.decl? d = some D → D.value = some v →
    ∃ D₀ v₀, o.program.decl? d = some D₀ ∧ D₀.value = some v₀ ∧ v.ty = v₀.ty

namespace Config.Emits
variable {o : Engine} {c c' : Config}

lemma rebase (h : c.Emits o) : c.Emits c.engine :=
  ⟨h.emitted, h.attentive, h.unfinished, fun _ hD hv => ⟨_, _, hD, hv, rfl⟩⟩

lemma ofIdle (he : c.program.Emitted) (ha : c.stage ≠ .torn → c.Attentive) (hb : c.body = none) : c.Emits o where
  emitted := he
  attentive := ha
  unfinished d r D v f h := by
    rw [hb] at h
    cases h
  since h := by
    rw [hb] at h
    cases h

lemma had (hm : Move c c') (hp : c.stage.publishes c'.stage = false) (h : c.Emits o) {x : DeclId} {D' : Decl}
    {v' : DeclValue} (hD : c'.program.decl? x = some D') (hv : D'.value = some v') :
    ∃ D v, c.program.decl? x = some D ∧ D.value = some v ∧ v.Stays v' := by
  obtain hn | ⟨D, hD, hs⟩ := hm.stays hp h.unfinished hD
  · cases hn.symm.trans hv
  · obtain ⟨v, hv, hs⟩ := hs v' hv
    exact ⟨D, v, hD, hv, hs⟩

lemma emitted_move (hm : Move c c') (hp : c.stage.publishes c'.stage = false) (h : c.Emits o) :
    c'.program.Emitted := by
  have ht := hm.ofTexts fun _ _ => h.emitted.texts
  refine ⟨graph_move c c' hm h.emitted.graph, ht _ _, fun hD hv hf => ?_, fun hD hv f hf hs => ?_⟩
  · obtain ⟨D, v, hD, hv, hst⟩ := h.had hm hp hD hv
    obtain ⟨f₀, hf₀, hsrc, -⟩ := hst.func hf
    exact hsrc ▸ h.emitted.sources hD hv hf₀
  · obtain ⟨D, v, hD, hv, hst⟩ := h.had hm hp hD hv
    have heq := hst.analyzed hf hs
    subst heq
    exact h.emitted.coded hD hv f hf hs

lemma attentive_move (hm : Move c c') (h : c.Emits o) (ht : c'.stage ≠ .torn) : c'.Attentive :=
  Frontend.attentive_move c c' hm ht h.emitted.graph (h.attentive fun hc => ht (hm.torn hc))

lemma step (hm : Move c c') (hp : c.stage.publishes c'.stage = false) (hb : c'.body = none ∨ c'.body = c.body)
    (h : c.Emits o) : c'.Emits o := by
  have same {x : DeclId × Nat} (hx : c'.body = some x) : c.body = some x := by
    obtain hb | hb := hb
    · cases hb.symm.trans hx
    · exact hb ▸ hx
  refine ⟨h.emitted_move hm hp, h.attentive_move hm, fun d r D v f hbody hD hv hf hr hs => ?_,
    fun {d r D v} hbody hD hv => ?_⟩
  · obtain ⟨D₀, v₀, hD₀, hv₀, hst⟩ := h.had hm hp hD hv
    have heq := hst.analyzed hf hs
    subst heq
    exact h.unfinished d r D₀ v f (same hbody) hD₀ hv₀ hf hr hs
  · obtain ⟨D₀, v₀, hD₀, hv₀, hst⟩ := h.had hm hp hD hv
    obtain ⟨D₁, v₁, hD₁, hv₁, hty⟩ := h.since (same hbody) hD₀ hv₀
    exact ⟨D₁, v₁, hD₁, hv₁, hst.ty.trans hty⟩

lemma opens (hm : Move c c') (hb : ¬ (c'.body = none ∨ c'.body = c.body)) (h : c.Emits o) : c'.Emits c'.engine := by
  have begun (hp : c.stage.publishes c'.stage = false) (hu : c'.Unfinished) : c'.Emits c'.engine :=
    ⟨h.emitted_move hm hp, h.attentive_move hm, hu, fun _ hD hv => ⟨_, _, hD, hv, rfl⟩⟩
  cases hm with
  | @openBody d e D v f hd ha hv hf =>
    refine begun rfl fun x r D' v' f' hx hD' hv' hf' hr => ?_
    cases hx
    obtain ⟨D₀, -, rfl⟩ := Program.exists_of_decl?_modifyDecl hD'
    rw [if_pos rfl] at hv'
    cases hv'
    cases hf'
    nofun
  | _ => first | exact absurd (.inl rfl) hb | exact absurd (.inr rfl) hb

variable {d : DeclId} {S : List DeclId} {B : Option (DeclId × Nat)} {e : Engine}

lemma install {v : DeclValue} {needsCode frees : Bool} (hv : v.Fresh needsCode)
    (hs : ∀ f, v.func = some f → f.source.Scoped)
    (h : Emits o ⟨.working, d :: S, B, e⟩) : Emits o ⟨.installed needsCode frees, d :: S, B, e.installed d v⟩ := by
  have hm : Move ⟨.working, d :: S, B, e⟩ ⟨.installed needsCode frees, d :: S, B, e.installed d v⟩ := .install hv
  have ha := h.attentive nofun
  have hne {x : DeclId} {r : Nat} (hB : B = some (x, r)) : x ≠ d := fun hx => ha.apart hB (hx ▸ List.mem_cons_self ..)
  refine ⟨⟨graph_move _ _ hm h.emitted.graph, h.emitted.texts, fun hD hw hf => ?_, fun hD hw f hf hst => ?_⟩,
    h.attentive_move hm, fun x r D w f hB hD hw hf hr => ?_, fun hB hD hw => ?_⟩
  · obtain ⟨-, _, -, rfl⟩ | ⟨-, hD⟩ := Program.decl?_modifyDecl_cases hD
    · cases hw
      exact hs _ hf
    · exact h.emitted.sources hD hw hf
  · obtain ⟨-, _, -, rfl⟩ | ⟨-, hD⟩ := Program.decl?_modifyDecl_cases hD
    · cases hw
      obtain hi | ⟨hi, -⟩ := hv.state hf <;> cases hi.symm.trans hst
    · exact h.emitted.coded hD hw f hf hst
  · obtain ⟨hx, -⟩ | ⟨-, hD⟩ := Program.decl?_modifyDecl_cases hD
    · exact absurd hx (hne hB)
    · exact h.unfinished x r D w f hB hD hw hf hr
  · obtain ⟨hx, -⟩ | ⟨-, hD⟩ := Program.decl?_modifyDecl_cases hD
    · exact absurd hx (hne hB)
    · exact h.since hB hD hw

lemma same_ty {r : Nat} {D : Decl} {v : DeclValue} {ty : Ty} (hD : o.program.decl? d = some D) (hv : D.value = some v)
    (hty : v.ty = ty) (h : Emits o ⟨.working, S, some (d, r), e⟩) (D' : Decl) (v' : DeclValue)
    (hD' : e.program.decl? d = some D') (hv' : D'.value = some v') : v'.ty = ty := by
  obtain ⟨D₀, v₀, hD₀, hv₀, ht⟩ := h.since rfl hD' hv'
  cases hD.symm.trans hD₀
  cases hv.symm.trans hv₀
  exact ht.trans hty

lemma close {r : Nat} {arena : Typed.Arena} {body : List Ref} {params : List Ty} {result : Ty} {cc : CallConv}
    (hc : ∀ D v, e.program.decl? d = some D → D.value = some v → v.ty = .function params result cc)
    (hvalid : arena.Valid result body) (h : Emits o ⟨.working, [], some (d, r), e⟩) :
    Emits o ⟨.asking d .code, [], none, e.modifyProgram (·.finishBody d r arena
      fun f => { f with body := some body, state := .success })⟩ := by
  have hm : Move ⟨.working, [], some (d, r), e⟩ ⟨.asking d .code, [], none, e.modifyProgram (·.finishBody d r arena
      fun f => { f with body := some body, state := .success })⟩ := .closeBody arena body
  refine ofIdle ⟨graph_move _ _ hm h.emitted.graph, h.emitted.texts, fun hD hv hf => ?_, fun hD hv f hf hs => ?_⟩
    (h.attentive_move hm) rfl
  · obtain ⟨D₀, v₀, hD₀, hv₀, ⟨rfl, -⟩ | ⟨-, g, hg, -, rfl⟩⟩ := Program.exists_of_finishBody hD hv
    · exact h.emitted.sources hD₀ hv₀ hf
    · have hsrc := h.emitted.sources hD₀ hv₀ hg
      cases hf
      exact hsrc
  · obtain ⟨D₀, v₀, hD₀, hv₀, ⟨rfl, -⟩ | ⟨rfl, g, hg, -, rfl⟩⟩ := Program.exists_of_finishBody hD hv
    · exact h.emitted.coded hD₀ hv₀ f hf hs
    · cases hf
      exact ⟨params, result, cc, body, hc D₀ v₀ hD₀ hv₀, rfl, hvalid⟩

lemma callable : Analysis.Callable fun e => Emits o ⟨.working, S, B, e⟩ := by
  intro e d f b h hf hb
  obtain ⟨D, hD, hf⟩ := Option.bind_eq_some_iff.1 hf
  obtain ⟨v, hv, hf⟩ := Option.bind_eq_some_iff.1 hf
  exact (h.emitted.sources hD hv hf).body hb

end Config.Emits

section
variable {overruns : Prop} {K : Engine → Config → Prop} {site : Site} {ensure : DeclId → EngineM Unit} {S : List DeclId}
  {B : Option (DeclId × Nat)}

lemma grounds_of_keeps
    (hk : ∀ o, Analysis.Keeps overruns site ensure (fun e => K o ⟨.working, S, B, e⟩)
      (Halts overruns (K o) .failing S B)) :
    Analysis.Grounds site ensure fun e e' => ∀ o, K o ⟨.working, S, B, e⟩ → K o ⟨.working, S, B, e'⟩ := by
  refine ⟨fun {name span e d e'} hm o he => ?_, fun {span symbol d e e'} hm o he => ?_⟩
  · have h := (hk o).mentions name span he
    rw [Settles, hm] at h
    exact h
  · have h := (hk o).exports span symbol d he
    rw [Settles, hm] at h
    exact h

end

lemma Analysis.Writes.valid {G : Engine → Engine → Prop} {s s' : Analysis.State} {ret : Ty}
    (h : Writes G { ret } s s') (hi : s.block.insts = []) (hc : s'.Closed) :
    s'.block.arena.Valid ret s'.block.insts := by
  obtain ⟨added, listed, hl⟩ := h.laid
  have hadded : s'.block.insts = added := by
    have := hl.insts
    rwa [hi, List.nil_append] at this
  have hlays : s'.block.arena.Lays [] [] s'.block.insts listed := by
    have := hl.lays
    rwa [hi, ← hadded] at this
  refine ⟨fun {r} hr => ?_, ⟨listed, hlays, hl.nodup⟩, hc⟩
  have hm := hlays.mem_listed hr
  have hbefore : s.block.arena.TypedFrom s.block.arena.size ret := by
    intro x i hx hi
    exact absurd (Typed.Arena.lt_size_of_insts hi) (Nat.not_lt.2 hx)
  exact (h.typedFrom nofun hbefore r _ (hl.range hm).1 (Typed.Arena.exists_insts (hl.range hm).2)).2

lemma fnBody_valid {overruns : Prop} {K : Engine → Config → Prop} {site : Site} {ensure : DeclId → EngineM Unit}
    {S : List DeclId} {B : Option (DeclId × Nat)} {o e : Engine} {f : Untyped.Fn} {params : List Ty} {result : Ty}
    {rs : List Ref}
    {arena : Typed.Arena} {src : Span} {lo hi : Nat}
    (hk : ∀ o, Analysis.Keeps overruns site ensure (fun e => K o ⟨.working, S, B, e⟩)
      (Halts overruns (K o) .failing S B))
    (hc : Analysis.Callable fun e' => K e ⟨.working, S, B, e'⟩) (hb : f.code.Scoped lo [] rs hi)
    (hn : ¬ overruns → f.code.Nests rs) (ho : K o ⟨.working, S, B, e⟩) (he : K e ⟨.working, S, B, e⟩) :
    Settles (Analysis.fnBody ensure f params result rs src site) { engine := e, block := { arena } }
      (fun _ s => K o ⟨.working, S, B, s.engine⟩ ∧ K e ⟨.working, S, B, s.engine⟩ ∧
        s.block.arena.Valid result s.block.insts)
      (fun i s => Halts overruns (K o) .failing S B i s.engine) := by
  have hJ (e₁ e₂ : Engine) (h : K e ⟨.working, S, B, e₁⟩)
      (hG : ∀ o, K o ⟨.working, S, B, e₁⟩ → K o ⟨.working, S, B, e₂⟩) : K e ⟨.working, S, B, e₂⟩ := hG e h
  have hcloses :
      Analysis.Does site (Analysis.fnBody ensure f params result rs src) { engine := e, block := { arena } } _ :=
    Analysis.fnBody_closes hJ (grounds_of_keeps hk) hc hb he rfl rfl rfl
  refine (((hk o).fnBody ho arena f params result rs src hn).and hcloses).mono (fun _ s ⟨hs, hw, hcl⟩ => ?_)
    fun _ _ h => h.1
  exact ⟨hs, hw.keep hJ he, hw.valid rfl hcl⟩

lemma emits_upheld : Upheld (fun o c => c.Emits o) fun item => item.kind.Scoped where
  rebase h := h.rebase
  step hm hp hb h := h.step hm (Stage.publishes_of_concludes hp) (.inr hb)
  opens hm hb h := ⟨_, h.opens hm hb⟩
  lowers {o st S B e file u scope item} h hu hi := by
    have ht := h.emitted.texts (Dict.mem_of_get? hu)
    unfold SourceUnit.isLowered at ht
    unfold SourceUnit.Lowers at hi
    split at hi
    · next hc =>
      rw [hc] at ht
      cases ht
    · obtain ⟨l, it, name, -, -, hit⟩ := hi
      exact Untyped.scoped_of_ofItem hit
  fn hL hf hv hfresh _ _ _ h := by
    refine h.install hfresh fun g hg => ?_
    cases hv with
    | body _ =>
      cases hg
      rwa [hf] at hL
    | external _ => cases hg
  var {_ o _ _ _ _ _ _ item v _ _} _ _ hn hk _ _ _ h :=
    ((hk o).variableValue h item.src v hn).mono (fun x e' h => ⟨h.1, fun _ hv => h.1.install hv nofun⟩) fun _ _ h => h
  block _ _ _ _ _ _ h := h.step .ran rfl (.inr rfl)
  body {_ o _ d _ _ _ e D v f params result cc rs ensure scope src} _ _ _ _ hD hv hf hty hrs hn hk h := by
    obtain ⟨lo, hi, hb⟩ := (h.emitted.sources hD hv hf).body hrs
    refine EngineM.runBody_settles (fun _ _ _ hp hm h => h.step hm (Stage.publishes_of_concludes hp) (.inl rfl))
      ((fnBody_valid hk Config.Emits.callable hb hn h h.rebase).mono (fun _ s ⟨hs, hs', hvalid⟩ => ?_) fun _ _ h => h)
    exact hs.close (hs'.same_ty hD hv hty) hvalid

namespace Program.Emitted
variable {p p' : Program}

lemma empty (options : Options) (backend : Backend) : Emitted { options, backend } :=
  ⟨.empty options backend, nofun, nofun, nofun⟩

lemma edit (h : p.Emitted) {change : Edit} (ht : change.isText = true) : (p.edit change).Emitted := by
  refine ⟨h.graph.edit change, OfTexts.edit (fun _ _ => h.texts) ht _ _, ?_, ?_⟩
  · cases change <;> exact h.sources
  · cases change <;> exact h.coded

lemma begin (h : p.Emitted) {o : Engine} : Config.Emits o p.starting := by
  refine .ofIdle ⟨h.graph.ofDecls rfl rfl, h.texts, h.sources, h.coded⟩ (fun _ => ?_) rfl
  exact .ofIdle rfl rfl nofun nofun

lemma update : p.Emitted → p.update.2.Emitted :=
  update_of_kept emits_upheld (fun h => h.begin) Config.Emits.emitted fun h =>
    ⟨h.graph.ofDecls rfl rfl, fun hm => h.texts (List.mem_of_mem_filter hm), h.sources, h.coded⟩

lemma develops {options : Options} {backend : Backend} (h : Develops { options, backend } p) : p.Emitted := by
  induction h with
  | refl => exact empty options backend
  | edit _ ht ih => exact ih.edit ht
  | update _ ih => exact ih.update

end Program.Emitted

namespace Program
variable {p : Program} {d : DeclId} {D : Decl} {v : DeclValue} {f : Function}

/-- In a program that comes of texts, the instructions of every function that was analyzed are well typed. -/
theorem code_wellTyped (options : Options) (backend : Backend) (h : Develops { options, backend } p)
    (hD : p.decl? d = some D) (hv : D.value = some v) (hf : v.func = some f) (hs : f.state = .success) :
    ∃ params result cc body, v.ty = .function params result cc ∧ f.body = some body ∧
      ∀ r, v.arena.Nests body r → (v.arena.inst r).WellTyped v.arena result := by
  obtain ⟨params, result, cc, body, ht, hb, hvalid⟩ := (Emitted.develops h).coded hD hv f hf hs
  exact ⟨params, result, cc, body, ht, hb, fun _ hr => hvalid.typed hr⟩

def isAnalyzed (p : Program) (d : DeclId) : Bool :=
  (p.decl? d).any fun D => D.value.any fun v => v.func.any (·.state == .success)

lemma exists_analyzed (h : p.isAnalyzed d = true) :
    ∃ D v f, p.decl? d = some D ∧ D.value = some v ∧ v.func = some f ∧ f.state = .success := by
  obtain ⟨D, hD, h⟩ := (Option.any_eq_true _ _).1 h
  obtain ⟨v, hv, h⟩ := (Option.any_eq_true _ _).1 h
  obtain ⟨f, hf, h⟩ := (Option.any_eq_true _ _).1 h
  exact ⟨D, v, f, hD, hv, hf, by simpa using h⟩

theorem code_wellTyped_expanded_call :
    let text := "inline fn half(x: u32) u32 \x7b if (x < 2) \x7b return 0; \x7d return x / 2; \x7d\n" ++
      "export fn f(p: *u32, b: u8) ?u32 \x7b p.* = half(b + 1); return p.*; \x7d\n"
    let p := (Program.edit {} (.addSource "a" text)).update.2
    ∃ D v f params result cc body, p.decl? 1 = some D ∧ D.value = some v ∧ v.func = some f ∧ f.state = .success ∧
      v.ty = .function params result cc ∧ f.body = some body ∧
      ∀ r, v.arena.Nests body r → (v.arena.inst r).WellTyped v.arena result := by
  intro text p
  obtain ⟨D, v, f, hD, hv, hf, hs⟩ := exists_analyzed (p := p) (d := 1) (by decide +kernel)
  have hp : Develops {} p := (Develops.refl.edit rfl).update
  obtain ⟨params, result, cc, body, ht, hb, h⟩ := code_wellTyped {} .silent hp hD hv hf hs
  exact ⟨D, v, f, params, result, cc, body, hD, hv, hf, hs, ht, hb, h⟩

/-- In a program that comes of texts, the body of every function that was analyzed is laid out, takes no place twice,
and ends where control does not go on. -/
theorem code_laidOut (options : Options) (backend : Backend) (h : Develops { options, backend } p)
    (hD : p.decl? d = some D) (hv : D.value = some v) (hf : v.func = some f) (hs : f.state = .success) :
    ∃ body listed, f.body = some body ∧ v.arena.Lays [] [] body listed ∧ listed.Nodup ∧
      ∃ r ∈ body.getLast?, v.arena.ty r = .noReturn := by
  obtain ⟨params, result, cc, body, -, hb, hvalid⟩ := (Emitted.develops h).coded hD hv f hf hs
  obtain ⟨listed, hl, hn⟩ := hvalid.laid
  exact ⟨body, listed, hb, hl, hn, hvalid.closed⟩

theorem code_laidOut_loop :
    let text := "export fn f(n: u32) u32 \x7b var i: u32 = 0;\n" ++
      "while (i < n) \x7b if (i == 3) \x7b break; \x7d i = i + 1; \x7d return i; \x7d\n"
    let p := (Program.edit {} (.addSource "a" text)).update.2
    ∃ D v f body listed, p.decl? 0 = some D ∧ D.value = some v ∧ v.func = some f ∧ f.state = .success ∧
      f.body = some body ∧ v.arena.Lays [] [] body listed ∧ listed.Nodup ∧
      ∃ r ∈ body.getLast?, v.arena.ty r = .noReturn := by
  intro text p
  obtain ⟨D, v, f, hD, hv, hf, hs⟩ := exists_analyzed (p := p) (d := 0) (by decide +kernel)
  have hp : Develops {} p := (Develops.refl.edit rfl).update
  obtain ⟨body, listed, h⟩ := code_laidOut {} .silent hp hD hv hf hs
  exact ⟨D, v, f, body, listed, hD, hv, hf, hs, h⟩

/-- A parameter without values, and a load from a cell without them, are not the last of the body. -/
theorem code_goes_on_after_noReturn :
    (let p := (Program.edit {} (.addSource "a" "export fn f(x: noreturn) void \x7b\x7d\n")).update.2
     p.isAnalyzed 0 = true ∧ (p.decl? 0).any (fun D => D.value.any fun v => v.arena.ty 0 == .noReturn &&
        v.func.any (·.body == some [0, 1])) = true) ∧
    (let p := (Program.edit {} (.addSource "a" "export fn f(p: *noreturn) void \x7b _ = p.*; \x7d\n")).update.2
     p.isAnalyzed 0 = true ∧ (p.decl? 0).any (fun D => D.value.any fun v => v.arena.ty 1 == .noReturn &&
        v.func.any (·.body == some [0, 1, 2])) = true) := by
  decide +kernel

end Program

end Frontend
