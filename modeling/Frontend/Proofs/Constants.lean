import Frontend.Proofs.FirstUpdate
import Frontend.Proofs.Inhabits

/-! Constants. After the first update of a program that comes of texts every constant is of its type, as long as none
holds the address of a slot: slots go with the evaluation that made them, and what is at an address of one means nothing
to another. -/

namespace Frontend

open Analysis (Site State Context Writes Does Grounds Callable Settled)

/-! What the analysis of a variable comes to. -/

namespace EngineM

variable {G : Engine → Engine → Prop} {J : Engine → Prop} {C : Context} {site : Site} {s : State}
  {ensure : DeclId → EngineM Unit} {src : Span} {v : Untyped.Var}

variable (hJ : ∀ e e', J e → G e e' → J e') (hG : Grounds site ensure G) (hc : Callable J)
include hJ hG hc

lemma initialValue_does {code : Untyped.Code} {written : Option Ty} {comp : Untyped.Computation}
    (hsc : comp.Scoped code) (hk : s.block.isComptime = true) (hs : Settled C s 0 []) (ho : s.Open) (hj : J s.engine) :
    Does site (initialValue ensure { code, ret := .void, kind := .comptime } src written comp) s fun x s' =>
      Writes G C s s' ∧ ∀ val, x.2 = some val → ∃ r, s'.block.arena.Holds r x.1 val := by
  refine (Analysis.compute_does hJ hG hc hsc hk hs ho hj).bind fun i s₁ ⟨hw, _, ho₁, hi⟩ => ?_
  have constant {i : Ref} {s₂ : State} (hw : Writes G C s s₂) (hi : C.Sees s₂ i) :
      Does site (Analysis.requireComptime i src >>= fun val => Analysis.tyOf i >>= fun ty => pure (ty, some val)) s₂
        fun x s' => Writes G C s s' ∧ ∀ val, x.2 = some val → ∃ r, s'.block.arena.Holds r x.1 val := by
    refine .comptime fun val hv => ?_
    have hr := Typed.Arena.holds_of_value hi.1 hv
    refine ⟨hw, fun w hw' => ⟨i, ?_⟩⟩
    cases hw'
    exact hr
  cases written with
  | none => exact constant hw hi
  | some t =>
    refine Does.bind (Analysis.coerce_emits (G := G) t hi ho₁) fun i s₂ ⟨hp, hi⟩ => ?_
    exact constant (hw.trans hp.writes) hi.1

lemma variableValue_does (hsc : v.Scoped) (hk : s.block.isComptime = true) (hs : Settled C s 0 []) (ho : s.Open)
    (hj : J s.engine) :
    Does site (variableValue ensure src v) s fun x s' =>
      Writes G C s s' ∧ ∀ val, x.2 = some val → ∃ r, s'.block.arena.Holds r x.1 val := by
  have written : Does site (writtenType ensure { code := v.code, ret := .void, kind := .comptime } src v.ty) s
      fun _ s' => Writes G C s s' ∧ Settled C s' 0 [] ∧ s'.Open := by
    cases hty : v.ty with
    | none => exact Does.pure ⟨.refl, hs, ho⟩
    | some c =>
      refine (Analysis.compute_does hJ hG hc (hsc.ty hty) hk hs ho hj).bind fun i s₁ ⟨hw, hs₁, ho₁, _⟩ => ?_
      refine Does.bind (Analysis.asType_emits (G := G) (C := C) ho₁) fun t s₂ ⟨_, h⟩ => ?_
      subst h
      exact Does.pure ⟨hw, hs₁, ho₁⟩
  refine written.bind fun t s₁ ⟨hw, hs₁, ho₁⟩ => ?_
  cases hi : v.init with
  | some c =>
    refine (initialValue_does hJ hG hc (hsc.init hi) (hw.isComptime_eq.trans hk) hs₁ ho₁ (hw.keep hJ hj)).mono ?_
    exact fun x s₂ ⟨hw', hx⟩ => ⟨hw.trans hw', hx⟩
  | none =>
    dsimp only
    split
    · exact .fail
    · split
      · exact Does.pure ⟨hw, nofun⟩
      · exact .fail

end EngineM

variable {scope : Scope} {d : DeclId} {e o : Engine}

lemma Analysis.inScratch_does {α : Type} {m : Analysis α}
    {Q : α → State → Prop} (h : Does ⟨.body scope d none true, d⟩ m
      { engine := e, block := { arena := e.program.freshArena, isComptime := true } } Q) :
    Settles (inScratch scope d m) e (fun a e' => ∃ s, s.engine = e' ∧ Q a s) fun _ _ => True := by
  unfold Does at h
  unfold Settles inScratch at *
  dsimp only at *
  split at h
  · next hr =>
    rw [hr]
    exact ⟨_, rfl, h⟩
  · next hr =>
    rw [hr]
    trivial

lemma Ty.exists_of_isFunction {ty : Ty} (h : ty.isFunction = true) :
    ∃ params result cc, ty = .function params result cc := by
  cases ty with
  | function params result cc => exact ⟨params, result, cc, rfl⟩
  | _ => cases h

/-! Programs. -/

namespace Program
variable {p p' : Program}

lemma Carries.constant (h : p.Carries p') {d : DeclId} {v : DeclValue} (hv : p.Constant d v) :
    ∃ v', p'.Constant d v' ∧ v.Same v' := by
  obtain ⟨D, hD, hv, hg⟩ := hv
  obtain ⟨D', v', hD', hv', hs⟩ := h.value hD hv
  exact ⟨v', ⟨D', hD', hv', hs.val ▸ hg⟩, hs⟩

lemma Carries.escapes (h : p.Carries p') (he : p.Escapes) : p'.Escapes := by
  obtain ⟨d, v, hc, hs⟩ := he
  obtain ⟨v', hc', hsame⟩ := h.constant hc
  exact ⟨d, v', hc', hsame.val ▸ hs⟩

lemma Carries.grows (h : p.Carries p') : p.places.Grows p'.places := by
  refine ⟨fun {d ty} hd => ?_, nofun⟩
  obtain ⟨v, hv, rfl⟩ := Option.map_eq_some_iff.1 hd
  obtain ⟨D, hD, hv⟩ := Option.bind_eq_some_iff.1 hv
  obtain ⟨D', v', hD', hv', hs⟩ := h.value hD hv
  exact (places_decl hD' hv').trans (congrArg some hs.ty)

lemma Proper.carry (h : p.Proper) (hc : p.Carries p')
    (hb : ∀ d v', p'.Constant d v' → ∃ v, p.Constant d v ∧ v'.ty = v.ty ∧ v'.val = v.val) : p'.Proper := by
  intro d v' hv'
  obtain ⟨v, hv, ht, hval⟩ := hb d v' hv'
  rw [ht, hval]
  exact (h d v hv).mono hc.grows

end Program

structure Config.Constant (o : Engine) (c : Config) : Prop extends c.Initial o where
  proper : ¬ c.engine.program.Escapes → c.engine.program.Proper

namespace Config.Constant
variable {o : Engine} {c c' : Config}

lemma rebase (h : c.Constant o) : c.Constant c.engine := ⟨h.toInitial.rebase, h.proper⟩

lemma proper_move (hm : Move c c')
    (hb : ∀ d v', c'.program.Constant d v' →
      ∃ v, c.program.Constant d v ∧ v'.ty = v.ty ∧ v'.val = v.val)
    (h : c.Constant o) (hn : ¬ c'.program.Escapes) : c'.program.Proper := by
  have hc := h.toInitial.carried hm
  exact (h.proper fun he => hn (hc.escapes he)).carry hc hb

lemma had (hm : Move c c') (hp : c.stage.publishes c'.stage = false) (h : c.Constant o) {d : DeclId} {v' : DeclValue}
    (hv : c'.program.Constant d v') : ∃ v, c.program.Constant d v ∧ v'.ty = v.ty ∧ v'.val = v.val := by
  obtain ⟨D', hD', hv', hg⟩ := hv
  obtain ⟨D, v, hD, hv, hs⟩ := h.emits.had hm hp hD' hv'
  exact ⟨v, ⟨D, hD, hv, hs.val ▸ hg⟩, hs.ty, hs.val⟩

variable {d : DeclId} {S : List DeclId} {B : Option (DeclId × Nat)} {e : Engine}

lemma install {v : DeclValue} {needsCode frees : Bool} (hv : v.Fresh needsCode)
    (hs : ∀ f, v.func = some f → f.source.Scoped)
    (hty : ¬ e.program.Escapes → v.val.isGlobal = false → v.val.hasSlot = false →
      e.program.places.Grows (e.installed d v).program.places →
      (e.installed d v).program.places.decl d = some v.ty → v.val.Inhabits (e.installed d v).program.places v.ty)
    (h : Constant o ⟨.working, d :: S, B, e⟩) :
    Constant o ⟨.installed needsCode frees, d :: S, B, e.installed d v⟩ := by
  have hm : Move ⟨.working, d :: S, B, e⟩ ⟨.installed needsCode frees, d :: S, B, e.installed d v⟩ := .install hv
  have hc : e.program.Carries (e.installed d v).program := h.toInitial.carried hm
  refine ⟨h.toInitial.move hm nofun (h.emits.install hv hs), fun hn x w hw => ?_⟩
  have hn' : ¬ e.program.Escapes := fun he => hn (hc.escapes he)
  obtain ⟨D, hD, hw, hg⟩ := hw
  obtain ⟨rfl, D₀, -, rfl⟩ | ⟨-, hD₀⟩ := Program.decl?_modifyDecl_cases hD
  · cases hw
    have hslot : v.val.hasSlot = false := Bool.eq_false_iff.2 fun hslot => hn ⟨x, v, ⟨_, hD, rfl, hg⟩, hslot⟩
    exact hty hn' hg hslot hc.grows (Program.places_decl hD rfl)
  · exact (h.proper hn' x w ⟨D, hD₀, hw, hg⟩).mono hc.grows

end Config.Constant

lemma Config.Constant.variable {overruns : Prop} {S : List DeclId} {B : Option (DeclId × Nat)}
    {v : Untyped.Var} {src : Span} {ensure : DeclId → EngineM Unit} (hsc : v.Scoped)
    (hk : ∀ o, Analysis.Keeps overruns ⟨.body scope d none true, d⟩ ensure
      (fun e => Config.Constant o ⟨.working, d :: S, B, e⟩) (Halts overruns (Config.Constant o) .failing (d :: S) B))
    (h : Config.Constant o ⟨.working, d :: S, B, e⟩) :
    Settles (Analysis.inScratch scope d (EngineM.variableValue ensure src v)) e
      (fun x e' => ¬ e'.program.Escapes → ∀ val, x.2 = some val →
        ∃ slot, val.Inhabits { e'.program.places with slot } x.1)
      fun _ _ => True := by
  have hJ (e₁ e₂ : Engine) (h : Config.Constant e ⟨.working, d :: S, B, e₁⟩)
      (hG : ∀ o, Config.Constant o ⟨.working, d :: S, B, e₁⟩ → Config.Constant o ⟨.working, d :: S, B, e₂⟩) :
      Config.Constant e ⟨.working, d :: S, B, e₂⟩ := hG e h
  have leads (e₁ e₂ : Engine) (h : Config.Constant e ⟨.working, d :: S, B, e₁⟩)
      (hG : ∀ o, Config.Constant o ⟨.working, d :: S, B, e₁⟩ → Config.Constant o ⟨.working, d :: S, B, e₂⟩) :
      e₁.program.Carries e₂.program := (hG e₁ h.rebase).carries
  have hcall : Callable fun e' => Config.Constant e ⟨.working, d :: S, B, e'⟩ := by
    intro e' x f b h hf hb
    exact Config.Emits.callable h.emits hf hb
  have hdoes : Does ⟨.body scope d none true, d⟩ (EngineM.variableValue ensure src v) _ _ :=
    EngineM.variableValue_does (C := { ret := .void }) hJ (grounds_of_keeps hk) hcall hsc
      (s := { engine := e, block := { arena := e.program.freshArena, isComptime := true } }) rfl (.start rfl) nofun
      h.rebase
  refine (Analysis.inScratch_does hdoes).mono (fun x e' ⟨s, he, hw, hx⟩ hn val hval => ?_) fun _ _ h => h
  subst he
  have hproper : s.Proper := by
    refine hw.proper hJ (fun e₁ e₂ hj hG => (leads e₁ e₂ hj hG).grows)
      (fun e₁ e₂ hj hG he => (leads e₁ e₂ hj hG).escapes he) (fun e₁ hj hn => hj.proper hn) h.rebase hn
      ⟨fun hr => ?_, nofun⟩
    cases hr
    exact .void
  obtain ⟨r, hr⟩ := hx val hval
  exact ⟨_, hproper.holds hr⟩

lemma Config.Constant.step {c c' : Config} (h : c.Constant o) (hm : Move c c')
    (hp : c.stage.publishes c'.stage = false) (hb : c'.body = none ∨ c'.body = c.body) : c'.Constant o := by
  have hi := h.toInitial.move hm (fun _ => hp) (h.emits.step hm hp hb)
  exact ⟨hi, h.proper_move hm fun _ _ hv => h.had hm hp hv⟩

lemma constant_upheld : Upheld (fun o c => Config.Constant o c) fun item => item.kind.Scoped where
  rebase h := h.rebase
  step hm hp hb h := h.step hm (Stage.publishes_of_concludes hp) (.inr hb)
  opens {o c c'} hm hb h := by
    refine ⟨c'.engine, h.toInitial.opens hm hb, h.proper_move hm fun _ _ hv => h.had hm ?_ hv⟩
    cases hm <;> first | rfl | exact absurd (.inl rfl) hb | exact absurd (.inr rfl) hb
  lowers h hu hi := emits_upheld.lowers h.emits hu hi
  fn hL hf hv hfresh _ _ _ h := by
    refine h.install hfresh (fun g hg => ?_) fun _ _ _ _ hplace => ?_
    · cases hv with
      | body _ =>
        cases hg
        rwa [hf] at hL
      | external _ => cases hg
    · cases hv with
      | body hty =>
        obtain ⟨params, result, cc, rfl⟩ := Ty.exists_of_isFunction hty
        exact .function hplace
      | external hty =>
        obtain ⟨params, result, cc, rfl⟩ := Ty.exists_of_isFunction hty
        exact .externalFn hplace
  var {_ o _ d S B e _ item v ensure scope} hL hv hn hk _ _ _ h := by
    rw [hv] at hL
    refine (((hk o).variableValue h item.src v hn).and (Config.Constant.variable hL hk h)).mono
      (fun x e' ⟨⟨h, _⟩, hx⟩ => ⟨h, fun needsCode hv => ?_⟩) fun _ _ h => h.1
    refine h.install hv nofun fun hn hg hslot hgrows _ => ?_
    have hval : v.valueOf d x.2 = x.2.getD .undefined := by
      unfold Untyped.Var.valueOf at hg ⊢
      split at hg
      · cases hg
      · next hm => rw [if_neg hm]
    have inhabits {L : Places} (hL : e'.program.places.Grows L) : (v.valueOf d x.2).Inhabits L x.1 := by
      dsimp only at hslot
      rw [hval] at hslot ⊢
      cases hinit : x.2 with
      | none => exact .undefined
      | some val =>
        rw [hinit] at hslot
        obtain ⟨slot, hin⟩ := hx hn val hinit
        exact hin.transport hL.decl (.inl hslot)
    exact inhabits hgrows
  block _ _ _ _ _ _ h := h.step .ran rfl (.inr rfl)
  body {_ o _ d _ _ _ e D v f params result cc rs ensure scope src} _ _ _ _ hD hv hf hty hrs hn hk h := by
    have hcall : Callable fun e' => Config.Constant e ⟨.working, [], some (d, f.revision), e'⟩ := by
      intro e' x g b h' hg hb
      exact Config.Emits.callable h'.emits hg hb
    obtain ⟨lo, hi, hb⟩ := (h.emits.emitted.sources hD hv hf).body hrs
    refine EngineM.runBody_settles (fun _ _ _ hp hm h => h.step hm (Stage.publishes_of_concludes hp) (.inl rfl))
      ((fnBody_valid hk hcall hb hn h h.rebase).mono (fun _ s ⟨hs, hs', hvalid⟩ => ?_) fun _ _ h => h)
    have hm : Move ⟨.working, [], some (d, f.revision), s.engine⟩ ⟨.asking d .code, [], none,
        s.engine.modifyProgram (·.finishBody d f.revision s.block.arena
          fun f => { f with body := some s.block.insts, state := .success })⟩ := .closeBody _ _
    have hemits := hs.emits.close (hs'.emits.same_ty hD hv hty) hvalid
    refine ⟨hs.toInitial.move hm nofun hemits, hs.proper_move hm fun x v' ⟨D', hD', hv', hg⟩ => ?_⟩
    obtain ⟨D₀, v₀, hD₀, hv₀, ⟨rfl, -⟩ | ⟨-, g, hg', -, rfl⟩⟩ := Program.exists_of_finishBody hD' hv'
    · exact ⟨v', ⟨D₀, hD₀, hv₀, hg⟩, rfl, rfl⟩
    · exact ⟨v₀, ⟨D₀, hD₀, hv₀, hg⟩, rfl, rfl⟩

namespace Program
variable {p : Program}

lemma Unstarted.proper (h : p.Unstarted) (he : p.Emitted) (hn : ¬ p.update.2.Escapes) : p.update.2.Proper := by
  have hc : Config.Constant ⟨p, {}⟩ p.starting := by
    refine ⟨.begin h he, fun _ d v ⟨D, hD, _⟩ => ?_⟩
    cases (h.decls d).symm.trans hD
  have hu := update_upheld constant_upheld ⟨⟨p, {}⟩, hc⟩
  generalize p.update = outcome at hu hn
  obtain ⟨report | i, p'⟩ := outcome
  · obtain ⟨queue, o, h⟩ := hu
    exact h.proper hn
  · obtain ⟨e, ⟨o, h⟩, -, -, rfl⟩ := hu
    exact h.proper hn

/-- After the first update of a program that comes of texts every constant is of its type, unless some constant holds
the address of a slot. In particular, an integer fits its type. -/
theorem constants_inhabit (options : Options) (backend : Backend) (h : Drafts { options, backend } p)
    (hs : ∀ d v, p.update.2.Constant d v → v.val.hasSlot = false) {d : DeclId} {v : DeclValue}
    (hv : p.update.2.Constant d v) :
    v.val.Inhabits p.update.2.places v.ty ∧ ∀ info n, v.ty = .int info → v.val = .int n → info.fits n = true := by
  obtain ⟨hp, he⟩ := h.unstarted
  have hn : ¬ p.update.2.Escapes := by
    rintro ⟨x, w, hw, hslot⟩
    cases (hs x w hw).symm.trans hslot
  have hin := hp.proper he hn d v hv
  refine ⟨hin, fun info n hty hval => ?_⟩
  rw [hty, hval] at hin
  cases hin with
  | int h => exact h

def isSlotless (p : Program) : Bool :=
  p.decls.values.all fun D => D.value.all fun v => v.val.isGlobal || !v.val.hasSlot

lemma hasSlot_eq_false (h : p.isSlotless = true) {d : DeclId} {v : DeclValue} (hv : p.Constant d v) :
    v.val.hasSlot = false := by
  obtain ⟨D, hD, hv, hg⟩ := hv
  have hm : D ∈ p.decls.values := List.mem_map_of_mem (Dict.mem_of_get? hD)
  have hall := List.all_eq_true.1 h D hm
  rw [hv, Option.all_some, hg, Bool.false_or, Bool.not_eq_true'] at hall
  exact hall

theorem constants_inhabit_called :
    let text := "fn f(n: u8) u8 \x7b var i: u8 = 0; while (i < n) \x7b i = i + 50; \x7d return i; \x7d\n" ++
      "const q = f(201);\nconst r: ?u8 = q;\ncomptime \x7b _ = r; \x7d\n"
    let p := Program.edit {} (.addSource "a" text)
    p.update.2.isSlotless = true ∧ ∃ v, p.update.2.Constant 2 v ∧ v.val.asInt? = some 250 ∧
      v.val.Inhabits p.update.2.places v.ty := by
  intro text p
  have hs : p.update.2.isSlotless = true := by decide +kernel
  have hr : (p.update.2.decl? 2).any (fun D => D.value.any fun v => v.val.asInt? == some 250) = true := by
    decide +kernel
  obtain ⟨D, hD, hr⟩ := (Option.any_eq_true _ _).1 hr
  obtain ⟨v, hv, hr⟩ := (Option.any_eq_true _ _).1 hr
  have hr := eq_of_beq hr
  have hg : v.val.isGlobal = false := by
    cases hval : v.val with
    | global =>
      rw [hval] at hr
      cases hr
    | _ => rfl
  have hc : p.update.2.Constant 2 v := ⟨D, hD, hv, hg⟩
  have hp : Drafts {} p := Drafts.refl.edit rfl
  exact ⟨hs, v, hc, hr, (constants_inhabit {} .silent hp (fun d w hw => hasSlot_eq_false hs hw) hc).1⟩

/-- The address of a slot, kept by a constant, means another slot where the constant is used: a byte is 70000. -/
theorem constant_from_foreign_slot :
    let text := "const p = &@as(u8, 5);\nfn f() u8 \x7b var x: u32 = 70000; _ = x; return p.*; \x7d\n" ++
      "const q = f();\ncomptime \x7b _ = q; \x7d\n"
    let p := Program.edit {} (.addSource "a" text)
    p.update.1.isOk = true ∧
      (p.update.2.decl? 2).any (fun D => D.name == "q" && D.state == .complete && D.value.any fun v =>
      v.ty == .unsigned 8 && v.val == .int 70000) = true ∧ IntInfo.fits ⟨false, 8⟩ 70000 = false := by
  decide +kernel

end Program

end Frontend
