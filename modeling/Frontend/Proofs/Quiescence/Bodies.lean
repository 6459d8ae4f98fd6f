import Frontend.Proofs.Moves.Values
import Frontend.Proofs.Quiescence.Attention

/-! Functions whose bodies are still to be analyzed. Each is reached: its code is looked at next, or is asked for when
its storage is granted, or has a place in the queue before anything of the same declaration that may fail. Only
functions without code, and those for which the backend refuses storage, are left. -/

namespace Frontend

def DeclState.TakesCode (s : DeclState) : Prop := s = .complete ∨ s = .codegenFailedRetryable

/-- The body of the declaration's function need not be analyzed: it has no storage. -/
def Program.Excuses (p : Program) (D : Decl) : Prop :=
  (p.backend.rules.lookup (.allocate, D.name)).isSome = true ∨ ∃ v, D.value = some v ∧ v.ty.hasBits = false

namespace WorkQueue
variable {q : WorkQueue} {d : DeclId} {item : WorkItem}

def AsksCode (q : WorkQueue) (d : DeclId) : Prop := .codegen d ∈ q.items.takeWhile (· ≠ .emitHeader d)

lemma AsksCode.append (h : q.AsksCode d) (more : List WorkItem) : AsksCode ⟨q.items ++ more⟩ d := by
  unfold AsksCode
  rw [List.takeWhile_append]
  split
  · exact List.mem_append_left _ (List.takeWhile_subset _ h)
  · exact h

lemma asksCode_push (h : .emitHeader d ∉ q.items) : (q.push (.codegen d)).AsksCode d := by
  have hp : ∀ item ∈ q.items, decide (item ≠ .emitHeader d) = true := by
    intro item hi
    rw [decide_eq_true_iff]
    rintro rfl
    exact h hi
  unfold AsksCode WorkQueue.push
  rw [List.takeWhile_append_of_pos hp]
  exact List.mem_concat_self

lemma AsksCode.of_cons {rest : List WorkItem} (h : AsksCode ⟨item :: rest⟩ d) :
    item ≠ .emitHeader d ∧ (item = .codegen d ∨ AsksCode ⟨rest⟩ d) := by
  unfold AsksCode at h ⊢
  rw [List.takeWhile_cons] at h
  split at h
  · next hi => exact ⟨of_decide_eq_true hi, (List.mem_cons.1 h).imp_left Eq.symm⟩
  · cases h

end WorkQueue

def Config.Reaches (c : Config) (d : DeclId) : Prop :=
  c.stage = .coding d ∨ ((∃ frees, c.stage = .installed true frees) ∧ c.stack.head? = some d) ∨
    c.engine.queue.AsksCode d

structure Config.Codes (c : Config) (d : DeclId) (D : Decl) (v : DeclValue) (f : Function) : Prop where
  ty : v.ty.isFunction = true
  source : f.source.body.isSome = true
  queued : f.state = .queued → c.engine.program.Excuses D ∨ D.state.TakesCode ∧ c.Reaches d
  inProgress : f.state = .inProgress → c.body = some (d, f.revision)

structure Config.Coded (c : Config) : Prop where
  codes {d D v f} : c.engine.program.decl? d = some D → D.value = some v → v.func = some f → c.Codes d D v f
  asked {d about D v f} : c.stage = .asking d about → about ≠ .line → c.engine.program.decl? d = some D →
    D.value = some v → v.func = some f → f.state = .queued → c.engine.program.Excuses D
  opened {d r D v f} : c.body = some (d, r) → c.engine.program.decl? d = some D → D.value = some v →
    v.func = some f → f.state ≠ .queued

def Stage.isCoding : Stage → Bool
  | .coding _ | .installed .. => true
  | _ => false

namespace Decl.AwaitsBody
variable {D : Decl}

lemma not_isUnsettled (h : D.AwaitsBody) : D.state.isUnsettled = false := by
  obtain h | h := h.1 <;> rw [h] <;> rfl

lemma exists_func (h : D.AwaitsBody) : ∃ v f, D.value = some v ∧ v.func = some f ∧ f.state = .queued := by
  obtain ⟨-, f, hf, hs⟩ := h
  obtain ⟨v, hv, hf⟩ := Option.bind_eq_some_iff.1 hf
  exact ⟨v, f, hv, hf, hs⟩

end Decl.AwaitsBody

lemma Decl.func?_eq {D : Decl} {v : DeclValue} {f : Function} (hv : D.value = some v) (hf : v.func = some f) :
    D.func? = some f := by
  rw [func?, hv, Option.bind_some, hf]

lemma Program.Excuses.keep {p p' : Program} {D D' : Decl} {v : DeclValue} {f : Function} (he : p.Excuses D)
    (hr : p'.backend.rules = p.backend.rules) (hk : D.Keeps D') (hv : D'.value = some v) (hf : v.func = some f) :
    p'.Excuses D' := by
  refine he.imp (fun he => ?_) fun ⟨w, hw, hb⟩ => ?_
  · rwa [hr, hk.name]
  · obtain ⟨v₀, f₀, hv₀, -, ht, -⟩ := hk.func hv hf
    cases hw.symm.trans hv₀
    exact ⟨v, hv, ht ▸ hb⟩

namespace Config
variable {c c' : Config} {d : DeclId} {D D' : Decl}

lemma Reaches.asksCode (h : c.Reaches d) (hst : c.stage.isCoding = false) : c.engine.queue.AsksCode d := by
  obtain h | ⟨⟨frees, h⟩, -⟩ | h := h
  · rw [h] at hst
    cases hst
  · rw [h] at hst
    cases hst
  · exact h

lemma Reaches.owes (h : c.Reaches d) (hst : c.stage.isCoding = false) : c.engine.Owes d :=
  .inl (List.takeWhile_subset _ (h.asksCode hst))

lemma Reaches.isBusy (h : c.Reaches d) (ha : c.Attentive) : c.stage.isBusy = true := by
  cases hb : c.stage.isBusy with
  | true => rfl
  | false =>
    refine absurd (h.owes ?_) (ha.idle hb)
    generalize c.stage = st at hb
    cases st <;> first | rfl | cases hb

lemma Coded.not_bodiless {K : ItemSummary → Prop} {f : Function} (h : c.Coded) (hp : c.program.Placed K c.stage)
    (hD : c.program.decl? d = some D) (hf : D.func? = some f) :
    ¬ (c.program.units.get? D.file = none ∨ (∀ v, D.value = some v → v.ty.isFunction = false) ∨
      f.source.body = none) := by
  obtain ⟨v, hv, hf⟩ := Option.bind_eq_some_iff.1 hf
  have hc := h.codes hD hv hf
  obtain ⟨u, hu, -⟩ := hp.listed hD
  rintro (hn | hn | hn)
  · cases hn.symm.trans hu
  · cases (hn v hv).symm.trans hc.ty
  · have := hc.source
    rw [hn] at this
    cases this

/-! A function that waits for its body, across a move. -/

section
variable (h : c.Coded) (ha : c.Attentive) (ht : c'.stage ≠ .torn) (hD : c.program.decl? d = some D) (hw : D.AwaitsBody)
  (hreach : c.Reaches d)
include h ha ht hD hw hreach

lemma Coded.takes {r r' : Option Diagnostic} (hturn : D.Turn c c' d r D' r') :
    D'.state.TakesCode ∨ c.program.Excuses D := by
  have hbusy := hreach.isBusy ha
  obtain ⟨v, f, hv, hf, hs⟩ := hw.exists_func
  cases hturn with
  | marked _ _ _ _ _ hst =>
    obtain ⟨hst, -⟩ | ⟨hst, -, hn⟩ := hst
    · cases hst.symm.trans (Stage.isOpening_of_isBusy hbusy).1
    · obtain ⟨D', hD', hat⟩ := ha.attends (.inr (.inl (hreach.owes (by rw [hst]; rfl))))
      cases hD.symm.trans hD'
      exact absurd hat.generation hn
  | reread hst | rereadMarked hst | repeated hst =>
    rw [hst] at hbusy
    cases hbusy
  | rewound hst' => exact absurd hst' ht
  | entered _ _ _ hs =>
    have := hw.not_isUnsettled
    obtain hs | hs := hs <;> rw [hs] at this <;> cases this
  | failed _ hst _ hS =>
    obtain hst | ⟨-, hty⟩ := hst
    · have := (ha.waiting (List.mem_of_mem_head? hS) (hreach.owes (by rw [hst]; rfl))).2
      rw [hst] at this
      cases this
    · rw [Program.tyOf, hD, Option.bind_some, hv] at hty
      cases hty.symm.trans (h.codes hD hv hf).ty
  | depended _ hs | completed _ _ hs =>
    have := hw.not_isUnsettled
    rw [hs] at this
    cases this
  | installed => exact .inl (.inl rfl)
  | withheld _ _ _ _ _ hr => exact .inr (.inl (by rw [hr]; rfl))
  | refused _ hst hs =>
    obtain rfl | ⟨-, hl⟩ := hs
    · exact .inl (.inr rfl)
    · exact .inr (h.asked hst hl hD hv hf hs)
  | _ => exact .inl hw.1

lemma Coded.reaches {K : ItemSummary → Prop} (hm : Move c c') (hp : c.program.Placed K c.stage)
    (hD' : c'.program.decl? d = some D') :
    c'.Reaches d ∨ c.program.Excuses D ∨ ∀ f, D'.func? = some f → f.state ≠ .queued := by
  have hbusy := hreach.isBusy ha
  obtain ⟨v, f, hv, hf, hs⟩ := hw.exists_func
  cases hm with
  | quiet | collide | claim => exact .inl hreach
  | tear | rewind | requeue => exact absurd rfl ht
  | spare hn =>
    obtain hx | ⟨⟨_, hx⟩, hd⟩ | hx := hreach
    · cases hx
    · cases hx
      cases hd
      obtain hn | hn := hn
      · cases hn
      · cases hn.symm.trans hD
    · exact .inl (.inr (.inr hx))
  | @grant needsCode frees x S B e link header =>
    have asks : (e.queue.push (.codegen x)).AsksCode d := by
      obtain hx | ⟨-, hx⟩ | hx := hreach
      · cases hx
      · -- Nothing of the declaration is in the queue as long as its analysis goes on.
        cases hx
        exact WorkQueue.asksCode_push fun hi => nomatch (ha.waiting List.mem_cons_self (.inr hi)).2
      · exact hx.append _
    cases header with
    | true => exact .inl (.inr (.inr (asks.append _)))
    | false => exact .inl (.inr (.inr asks))
  | withhold hd hr =>
    obtain hx | ⟨-, hx⟩ | hx := hreach
    · cases hx
    · cases hx
      cases hd.symm.trans hD
      exact .inr (.inl (.inl (by rw [hr]; rfl)))
    · exact .inl (.inr (.inr hx))
  | outdate =>
    obtain ⟨more, hq, -⟩ := (Engine.Marks.markOutdated ..).queue
    have := (hreach.asksCode rfl).append more
    rw [← hq] at this
    exact .inl (.inr (.inr this))
  | @take e item rest hq =>
    have hx := hreach.asksCode rfl
    rw [show e.queue = ⟨item :: rest⟩ from congrArg WorkQueue.mk hq] at hx
    obtain ⟨-, rfl | hx⟩ := hx.of_cons
    · exact .inl (.inl rfl)
    · exact .inl (.inr (.inr hx))
  | passOver hn =>
    obtain hx | ⟨⟨_, hx⟩, -⟩ | hx := hreach
    · cases hx
      exact absurd hw (hn D hD)
    · cases hx
    · exact .inl (.inr (.inr hx))
  | handOver hn =>
    obtain hx | ⟨⟨_, hx⟩, -⟩ | hx := hreach
    · cases hx
      obtain hn | hn := hn D hD f (Decl.func?_eq hv hf) <;> cases hs.symm.trans hn
    · cases hx
    · exact .inl (.inr (.inr hx))
  | bodiless hd hf' hn => exact absurd hn (h.not_bodiless hp hd hf')
  | openBody hd =>
    obtain hx | ⟨⟨_, hx⟩, -⟩ | hx := hreach
    · cases hx
      refine .inr (.inr fun f' hf' => ?_)
      cases (Program.decl?_modifyDecl_of hd).symm.trans hD'
      cases hf'
      nofun
    · cases hx
    · exact .inl (.inr (.inr hx))
  | worked hq =>
    have hx := hreach.owes rfl
    unfold Engine.Owes at hx
    rw [hq] at hx
    exact hx.elim nofun nofun
  | retry | enroll | refresh | drop | drain | drained => cases hbusy
  | _ => exact .inl (.inr (.inr (hreach.asksCode rfl)))

end

lemma Coded.runs {v : DeclValue} {f : Function} (hm : Move c c') (ht : c'.stage ≠ .torn)
    (hb : c.body = some (d, f.revision)) (hD' : c'.program.decl? d = some D') (hv : D'.value = some v)
    (hf : v.func = some f) (hs : f.state = .inProgress) : c'.body = some (d, f.revision) := by
  have ended {p : Program} {arena : Typed.Arena} {g : Function → Function} (hg : ∀ f, (g f).state ≠ .inProgress)
      (hD' : (p.finishBody d f.revision arena g).decl? d = some D') : False := by
    obtain ⟨D, v₀, -, -, ⟨-, hn⟩ | ⟨-, f₀, -, -, rfl⟩⟩ := Program.exists_of_finishBody hD' hv
    · exact hn rfl f hf rfl
    · cases hf
      exact hg f₀ hs
  cases hm with
  | requeue => exact absurd rfl ht
  | closeBody arena body =>
    cases hb
    exact (ended (g := fun f => { f with body := some body, state := .success }) (fun _ => nofun) hD').elim
  | dropBody arena =>
    cases hb
    refine (ended (fun f => ?_) hD').elim
    dsimp only
    split
    · exact nofun
    · next hs => exact hs
  | openBody => cases hb
  | _ => exact hb

/-! What is known of functions, across a move. -/

section
variable {K : ItemSummary → Prop} {v : DeclValue} {f : Function} (hm : Move c c') (ht : c'.stage ≠ .torn)
  (hp : c.program.Placed K c.stage) (ha : c.Attentive) (h : c.Coded) (hD' : c'.program.decl? d = some D')
  (hv : D'.value = some v) (hf : v.func = some f)
include hm ht hp ha h hD' hv hf

lemma Coded.codes_kept {r r' : Option Diagnostic} (hD : c.program.decl? d = some D) (hturn : D.Turn c c' d r D' r')
    (hk : D.Keeps D') : c'.Codes d D' v f := by
  have hr := hm.alike.rules
  obtain ⟨v₀, f₀, hv₀, hf₀, hty, hl⟩ := hk.func hv hf
  have hc := h.codes hD hv₀ hf₀
  refine ⟨hty ▸ hc.ty, hl.source ▸ hc.source, fun hs => ?_, fun hs => ?_⟩
  · have hs₀ := (hl.state_eq (.inl hs)).trans hs
    obtain he | ⟨hok, hreach⟩ := hc.queued hs₀
    · exact .inl (he.keep hr hk hv hf)
    · have hw : D.AwaitsBody := ⟨hok, f₀, Decl.func?_eq hv₀ hf₀, hs₀⟩
      obtain htakes | he := h.takes ha ht hD hw hreach hturn
      · obtain hx | he | hn := h.reaches ha ht hD hw hreach hm hp hD'
        · exact .inr ⟨htakes, hx⟩
        · exact .inl (he.keep hr hk hv hf)
        · exact absurd hs (hn f (Decl.func?_eq hv hf))
      · exact .inl (he.keep hr hk hv hf)
  · exact Coded.runs hm ht (hl.revision ▸ hc.inProgress ((hl.state_eq (.inr hs)).trans hs)) hD' hv hf hs

lemma Coded.codes_move : c'.Codes d D' v f := by
  obtain ⟨D, r', hD, -, hturn⟩ | ⟨_, _, _, -, -, -, -, -, rfl⟩ := hm.was hD'
  · have kept := h.codes_kept hm ht hp ha hD' hv hf hD hturn
    cases hturn with
    | installed _ hst' hS hS' hfresh =>
      cases hv
      refine ⟨hfresh.ty hf, hfresh.body hf, fun hs => ?_, fun hs => ?_⟩
      · obtain hi | ⟨-, rfl | hb⟩ := hfresh.state hf
        · cases hs.symm.trans hi
        · exact .inr ⟨.inl rfl, .inr (.inl ⟨⟨_, hst'⟩, hS' ▸ hS⟩)⟩
        · exact .inl (.inr ⟨v, rfl, hb⟩)
      · obtain hi | ⟨hi, -⟩ := hfresh.state hf <;> cases hs.symm.trans hi
    | opened _ _ _ hb' _ hv₀ hf₀ =>
      have hc := h.codes hD hv₀ hf₀
      cases hv
      cases hf
      exact ⟨hc.ty, hc.source, nofun, fun _ => hb'⟩
    | ended _ _ _ _ _ hg =>
      obtain ⟨hst', -⟩ | ⟨-, -, _, rfl⟩ | ⟨-, -, rfl⟩ := hg
      · exact absurd hst' ht
      · exact kept (.finishBody fun _ => ⟨rfl, rfl, .inr ⟨nofun, nofun⟩⟩)
      · refine kept (.finishBody fun f => ⟨rfl, rfl, ?_⟩)
        dsimp only
        split
        · exact .inr ⟨nofun, nofun⟩
        · exact .inl rfl
    | failedBody => exact kept .failBody
    | dependedBody => exact kept .dependBody
    | _ => exact kept (.same ⟨rfl, rfl, rfl, rfl⟩ rfl)
  · cases hv

omit ht in
lemma Coded.asked_move {about : Inquiry} (hst : c'.stage = .asking d about) (hl : about ≠ .line)
    (hs : f.state = .queued) :
    c'.program.Excuses D' := by
  cases hm with
  | @quiet st S B e g hq =>
    change (g e.program).decls.get? d = some D' at hD'
    rw [hq.decls] at hD'
    exact (h.asked hst hl hD' hv hf hs).imp_left fun he => hq.alike.rules.symm ▸ he
  | collide | claim => exact h.asked hst hl hD' hv hf hs
  | @take e item rest hq =>
    refine ((h.codes hD' hv hf).queued hs).resolve_right fun ⟨_, hreach⟩ => ?_
    have hx := hreach.asksCode rfl
    rw [show e.queue = ⟨item :: rest⟩ from congrArg WorkQueue.mk hq] at hx
    cases item <;> cases hst
    · exact hx.of_cons.1 rfl
    · exact hl rfl
  | handOver hn =>
    cases hst
    obtain hn | hn := hn D' hD' f (Decl.func?_eq hv hf) <;> cases hs.symm.trans hn
  | bodiless hd hf' hn => exact absurd hn (h.not_bodiless hp hd hf')
  | closeBody =>
    cases hst
    obtain ⟨D, v₀, hD, hv₀, ⟨rfl, -⟩ | ⟨-, f₀, -, -, rfl⟩⟩ := Program.exists_of_finishBody hD' hv
    · exact absurd hs (h.opened rfl hD hv₀ hf)
    · cases hf
      cases hs
  | _ => cases hst

omit ht hp in
lemma Coded.opened_move {r : Nat} (hb : c'.body = some (d, r)) : f.state ≠ .queued := by
  intro hs
  obtain hb₀ | ⟨-, D, D₁, v₁, f₁, -, -, hD₁, -, hv₁, hf₁, hs₁, -⟩ := hm.body hb
  · obtain ⟨D, r', hD, -, hturn⟩ | ⟨_, _, _, -, -, -, -, -, rfl⟩ := hm.was hD'
    · have kept (hk : D.Keeps D') : False := by
        obtain ⟨v₀, f₀, hv₀, hf₀, -, hl⟩ := hk.func hv hf
        exact h.opened hb₀ hD hv₀ hf₀ ((hl.state_eq (.inl hs)).trans hs)
      cases hturn with
      | installed _ _ hS => exact ha.apart hb₀ (List.mem_of_mem_head? hS)
      | opened _ _ hn => cases hn.symm.trans hb₀
      | ended _ _ _ hn => cases hn.symm.trans hb
      | failedBody => exact kept .failBody
      | dependedBody => exact kept .dependBody
      | _ => exact kept (.same ⟨rfl, rfl, rfl, rfl⟩ rfl)
    · cases hv
  · cases hD₁.symm.trans hD'
    cases hv₁.symm.trans hv
    cases hf₁.symm.trans hf
    cases hs₁.symm.trans hs

end

end Config

lemma coded_move {K : ItemSummary → Prop} (c c' : Config) (hm : Move c c') (ht : c'.stage ≠ .torn)
    (hp : c.program.Placed K c.stage) (ha : c.Attentive) (h : c.Coded) : c'.Coded where
  codes hD' hv hf := h.codes_move hm ht hp ha hD' hv hf
  asked hst hl hD' hv hf hs := h.asked_move hm hp ha hD' hv hf hst hl hs
  opened hb hD' hv hf := h.opened_move hm ha hD' hv hf hb

end Frontend
