import Frontend.Proofs.Quiescence
import Frontend.Proofs.RepeatedNames
import Frontend.Workspace

/-! What a check without diagnostics says of a workspace. A declaration fails by itself only with a diagnostic, which it
keeps as long as it is in that state. That something it uses failed is not recorded, and it may stay in that state after
the cause is gone. -/

namespace Frontend

def DeclState.isOwnFailure : DeclState → Bool
  | failed | failedRetryable | codegenFailed | codegenFailedRetryable => true
  | _ => false

def Program.Accounts (p : Program) : Prop :=
  ∀ ⦃d D⦄, p.decl? d = some D → D.state.isOwnFailure = true → (p.failedDecls.get? d).isSome = true

namespace Program.Accounts
variable {p p' : Program} {d : DeclId}

lemma ofDecls (h : p.Accounts) (hd : p'.decls = p.decls) (hr : p'.failedDecls = p.failedDecls) : p'.Accounts := by
  intro x D hD hs
  rw [decl?, hd] at hD
  rw [hr]
  exact h hD hs

lemma modifyDecl {f : Decl → Decl} (h : p.Accounts)
    (hf : ∀ D, (f D).state.isOwnFailure = true → D.state.isOwnFailure = true) : (p.modifyDecl d f).Accounts := by
  intro x D hD hs
  obtain ⟨D₀, hD₀, rfl⟩ := exists_of_decl?_modifyDecl hD
  refine h hD₀ ?_
  split at hs
  · exact hf D₀ hs
  · exact hs

lemma rewire (h : p.Accounts) (hw : p.Rewired p') : p'.Accounts := by
  intro x D hD hs
  obtain ⟨D₀, hD₀, hr⟩ := hw.exists_of_decl? hD
  rw [hw.failedDecls]
  cases hr
  exact h hD₀ hs

lemma failDecl {f : Decl → Decl} (h : p.Accounts) (hd : p'.decls = (p.modifyDecl d f).decls)
    (hr : (p'.failedDecls.get? d).isSome = true)
    (hk : ∀ x, (p.failedDecls.get? x).isSome = true → (p'.failedDecls.get? x).isSome = true) : p'.Accounts := by
  intro x D hD hs
  rw [decl?, hd] at hD
  obtain ⟨D₀, hD₀, rfl⟩ := exists_of_decl?_modifyDecl hD
  split at hs
  · next hx => exact hx ▸ hr
  · exact hk x (h hD₀ hs)

lemma isSome_record {diagnostic : Diagnostic} {x : DeclId} (h : d = x ∨ (p.failedDecls.get? x).isSome = true) :
    ((p.record d diagnostic).failedDecls.get? x).isSome = true := by
  show ((p.failedDecls.insertIfNew d diagnostic).get? x).isSome = true
  rw [Dict.get?_insertIfNew]
  split
  · rfl
  · next hx => exact h.resolve_left hx

lemma fail (h : p.Accounts) (scope : Scope) (span : Span) (cause : Cause) : (p.fail scope span cause).Accounts := by
  unfold Program.fail
  dsimp only
  split
  · next owner f _ _ =>
    -- The function fails, and its declaration stays as it is.
    have hf : (p.modifyDecl f fun D => D.modifyFunc ({ · with state := .failed })).Accounts :=
      h.modifyDecl fun _ hs => hs
    intro x D hD hs
    exact isSome_record (.inr (hf hD hs))
  · next owner _ _ =>
    exact h.failDecl (d := owner) (f := fun D => { D with state := .failed, generation := p.generation }) rfl
      (isSome_record (.inl rfl)) fun x hx => isSome_record (.inr hx)
  · exact h.ofDecls rfl rfl

lemma dependencyFailed (h : p.Accounts) (site : Analysis.Site) : (p.dependencyFailed site).Accounts := by
  unfold Program.dependencyFailed
  split
  · exact h.modifyDecl fun _ hs => hs
  · refine h.modifyDecl fun D hs => ?_
    split at hs
    · cases hs
    · exact hs

lemma refuse (h : p.Accounts) (d : DeclId) (D : Decl) (state : DeclState) (cause : Cause) :
    (p.refuse d D state cause).Accounts := by
  have get?_refuse (x : DeclId) : ((p.refuse d D state cause).failedDecls.get? x) =
      if d = x then some ⟨D.file, D.src, cause⟩ else p.failedDecls.get? x := Dict.get?_insert ..
  refine h.failDecl (d := d) (f := ({ · with state })) rfl ?_ fun x hx => ?_
  · rw [get?_refuse, if_pos rfl]
    rfl
  · rw [get?_refuse]
    split
    · rfl
    · exact hx

lemma register (h : p.Accounts) (file : FileId) (ns : NameHash) (item : ItemSummary) :
    (p.register file ns item).Accounts := by
  intro x D hD hs
  have hD : (p.decls.insert p.nextDecl _).get? x = some D := hD
  rw [Dict.get?_insert] at hD
  split at hD
  · cases hD
    cases hs
  · exact h hD hs

lemma forget (h : p.Accounts) (d : DeclId) (D : Decl) : (p.forget d D).Accounts := by
  have hq := p.forget_quiet d D
  intro x X hX hs
  rw [decl?_forget] at hX
  rw [hq.failedDecls, Dict.get?_erase]
  split at hX
  · cases hX
  · next hx =>
    rw [if_neg hx]
    exact h hX hs

end Program.Accounts

namespace Engine
variable {e : Engine}

lemma accounts_markOutdated (h : e.program.Accounts) (d : DeclId) : (e.markOutdated d).program.Accounts := by
  obtain ⟨he, -⟩ | ⟨D, -, -, he⟩ := e.markOutdated_cases d
  · rwa [he]
  · rw [he]
    intro x X hX hs
    obtain ⟨X₀, hX₀, rfl⟩ := Program.exists_of_decl?_modifyDecl hX
    show ((e.program.failedDecls.erase d).get? x).isSome = true
    rw [Dict.get?_erase]
    split at hs
    · cases hs
    · next hx =>
      rw [if_neg hx]
      exact h hX₀ hs

lemma accounts_deleteDecl (h : e.program.Accounts) (d : DeclId) : (e.deleteDecl d).program.Accounts := by
  refine deleteDecl_rule h (fun D _ => ?_) (fun hw h => h.rewire hw)
    (fun _ x h => accounts_markOutdated h x) fun _ D h =>
    h.forget d D
  refine h.ofDecls (Program.detach_decls ..) ?_
  unfold Program.detach
  dsimp only
  split <;> rfl

lemma accounts_refresh (h : e.program.Accounts) (d : DeclId) (D : Decl) (item : ItemSummary) :
    (e.refresh d D item).program.Accounts :=
  refresh_rule (h.modifyDecl fun _ hs => hs) fun _ h => accounts_markOutdated h d

end Engine

lemma Move.accounts {c c' : Config} (hm : Move c c') (h : c.program.Accounts) : c'.program.Accounts := by
  cases hm with
  | quiet hq => exact h.ofDecls hq.decls hq.failedDecls
  | rewind hprev => exact h.modifyDecl fun D hs => by obtain rfl | rfl := hprev <;> cases hs
  | requeue | openBody | closeBody | dropBody => exact h.modifyDecl fun _ hs => hs
  | fail | failLate => exact h.fail _ _ _
  | depend => exact h.dependencyFailed _
  | register => exact h.register _ _ _
  | edge => exact h.rewire (Program.addEdge_rewired ..)
  | release => exact h.rewire (Program.release_rewired ..)
  | enter | install => exact h.modifyDecl fun _ hs => by cases hs
  | @grant _ _ d S B e link header hl =>
    have hlink : (e.program.modifyDecl d ({ · with link })).Accounts := h.modifyDecl fun _ hs => hs
    cases header <;> exact hlink
  | withhold | refuse => exact h.refuse _ _ _ _
  | @finish d S B e =>
    have hfinished : (e.program.modifyDecl d fun D =>
        if D.isInProgress then { D with state := .complete } else D).Accounts := by
      refine h.modifyDecl fun D hs => ?_
      split at hs
      · cases hs
      · exact hs
    exact hfinished.ofDecls rfl rfl
  | abandon =>
    refine h.modifyDecl fun D hs => ?_
    split at hs
    · cases hs
    · exact hs
  | outdate | retry => exact Engine.accounts_markOutdated h _
  | enroll =>
    dsimp only
    split <;> exact h.register _ _ _
  | refresh => exact Engine.accounts_refresh h _ _ _
  | again =>
    refine Program.Accounts.fail ?_ _ _ _
    exact h.modifyDecl fun _ hs => hs
  | drop => exact Engine.accounts_deleteDecl h _
  | @drain e d rest =>
    obtain ⟨-, he⟩ | ⟨D, -, -, he⟩ | ⟨D, -, -, -, he⟩ :=
      (e.popped rest).drainStep_turns d <;> rw [he]
    · exact h
    · exact h.modifyDecl fun _ hs => hs
    · refine Engine.accounts_deleteDecl ?_ d
      exact h.modifyDecl fun _ hs => hs
  | _ => exact h

namespace Program
variable {p p' : Program} {report : Report}

lemma Accounts.update (h : p.Accounts) (hu : p.update = (.ok report, p')) : p'.Accounts := by
  have hbegun : p.nextGeneration.Accounts := h.ofDecls rfl rfl
  obtain ⟨e, he, -, -, rfl⟩ := update_intact (P := fun c => c.program.Accounts)
    (fun _ _ hm _ _ _ h => hm.accounts h) hbegun hu
  exact he.ofDecls rfl rfl

lemma Accounts.edit (h : p.Accounts) (change : Edit) : (p.edit change).Accounts := by
  cases change <;> exact h.ofDecls rfl rfl

lemma Runs.accounts {options : Options} {backend : Backend} {edits : List Edit}
    (h : Runs { options, backend } edits p) : p.Accounts := by
  induction h with
  | refl => exact fun _ _ hD => nomatch hD
  | edit _ change ih => exact ih.edit change
  | update _ hu ih => exact ih.update hu

lemma isEmpty_diagnostics (p : Program) : p.diagnostics.isEmpty =
    (p.failedFiles.entries.isEmpty && p.failedDecls.entries.isEmpty && p.failedExports.entries.isEmpty) := by
  have hlength : p.diagnostics.length = p.failedFiles.entries.length + p.failedDecls.entries.length +
      p.failedExports.entries.length := by
    simp [diagnostics, Dict.values, List.length_mergeSort, Nat.add_assoc]
  rw [Bool.eq_iff_iff]
  simp only [List.isEmpty_iff_length_eq_zero, Bool.and_eq_true, hlength]
  omega

lemma Accounts.state {d : DeclId} {D : Decl} (h : p.Accounts) (hp : p.diagnostics.isEmpty = true)
    (hD : p.decl? d = some D) : D.state.isOwnFailure = false := by
  rw [Bool.eq_false_iff]
  intro hs
  obtain ⟨diagnostic, hd⟩ := Option.isSome_iff_exists.1 (h hD hs)
  have hmem := mem_diagnostics hd
  rw [List.isEmpty_iff.1 hp] at hmem
  cases hmem

end Program

namespace Workspace

/-- Workspaces that come of changes to texts and of updates that succeed, with the texts that were given. -/
inductive Works (w : Workspace) : List String → Workspace → Prop
  | refl : Works w [] w
  | add {texts w₁ path text file w₂} (h : Works w texts w₁) (ha : w₁.add path text = .ok (file, w₂)) :
      Works w (texts ++ [text]) w₂
  | edit {texts w₁ path text changed w₂} (h : Works w texts w₁) (he : w₁.edit path text = .ok (changed, w₂)) :
      Works w (texts ++ [text]) w₂
  | remove {texts w₁ path w₂} (h : Works w texts w₁) (hr : w₁.remove path = .ok w₂) : Works w texts w₂
  | update {texts w₁ report w₂} (h : Works w texts w₁) (hu : w₁.update = (.ok report, w₂)) : Works w texts w₂

variable {w w' : Workspace} {report : Report}

lemma update_program (h : w.update = (.ok report, w')) : w.program.update = (.ok report, w'.program) := by
  unfold update at h
  split at h
  · cases h
  · split at h <;> cases h
    assumption

lemma check_cases (h : w.check = (.ok report, w')) :
    w.update = (.ok report, w') ∧ w'.program.diagnostics.isEmpty = true := by
  unfold check at h
  split at h
  · cases h
  · next hu =>
    split at h
    · next hd =>
      cases h
      exact ⟨hu, hd⟩
    · cases h

lemma Works.runs {texts : List String} (h : Works w texts w') {options : Options} {backend : Backend}
    (hw : w = .ofOptions options backend) :
    ∃ edits, Program.Runs { options, backend } edits w'.program ∧
      ∀ i ∈ edits.flatMap Edit.items, i ∈ texts.flatMap textItems := by
  induction h with
  | refl =>
    subst hw
    exact ⟨[], .refl, by simp⟩
  | @add texts w₁ path text file w₂ _ ha ih =>
    obtain ⟨edits, hr, hi⟩ := ih
    unfold Workspace.add at ha
    split at ha
    · cases ha
    · cases ha
      refine ⟨_, hr.edit (.addSource path text), fun i hm => ?_⟩
      rw [List.flatMap_append, List.mem_append] at hm ⊢
      exact hm.imp_left (hi i)
  | @edit texts w₁ path text changed w₂ _ he ih =>
    obtain ⟨edits, hr, hi⟩ := ih
    unfold Workspace.edit at he
    split at he
    · cases he
    · next entry _ =>
      dsimp only at he
      split at he
      · cases he
        refine ⟨edits, hr, fun i hm => ?_⟩
        rw [List.flatMap_append, List.mem_append]
        exact .inl (hi i hm)
      · cases he
        refine ⟨_, hr.edit (.setSource entry.file text), fun i hm => ?_⟩
        rw [List.flatMap_append, List.mem_append] at hm ⊢
        exact hm.imp_left (hi i)
  | @remove texts w₁ path w₂ _ hr ih =>
    obtain ⟨edits, hruns, hi⟩ := ih
    unfold Workspace.remove at hr
    split at hr
    · cases hr
    · next entry _ =>
      cases hr
      refine ⟨_, hruns.edit (.removeUnit entry.file), fun i hm => ?_⟩
      rw [List.flatMap_append, List.mem_append] at hm
      exact hm.elim (hi i) fun hm => by cases hm
  | update _ hu ih =>
    obtain ⟨edits, hr, hi⟩ := ih
    exact ⟨edits, hr.update (update_program hu), hi⟩

lemma update_of {p p' : Program} {sources : Dict String SourceEntry} {pending : OrdSet String}
    (hp : pending.isEmpty = false) (hu : p.update = (.ok report, p')) :
    Workspace.update ⟨p, sources, pending⟩ = (.ok report, ⟨p', sources, {}⟩) := by
  unfold update
  rw [hp, Bool.and_false, if_neg Bool.false_ne_true, hu]

lemma works_check {path first second : String} {p p₁ p₂ : Program} {report report' : Report}
    (hp : p = Program.addSource {} path first) (h : p.update = (.ok report, p₁))
    (hn : ContentHash.of (utf8 second) ≠ .of (utf8 first)) (h' : (p₁.setSource 0 second).update = (.ok report', p₂))
    (hd : p₂.diagnostics.isEmpty = true) :
    ∃ w w', Works (.ofOptions {} .silent) [first, second] w ∧ w.check = (.ok report', w') ∧ w'.program = p₂ := by
  let sources : Dict String SourceEntry := ⟨[(path, ⟨0, .of (utf8 first)⟩)]⟩
  let sources' : Dict String SourceEntry := sources.insert path ⟨0, .of (utf8 second)⟩
  have hadd : (ofOptions {} .silent).add path first = .ok (0, ⟨p, sources, ⟨[path]⟩⟩) := by
    rw [hp]
    rfl
  have hedit : Workspace.edit ⟨p₁, sources, {}⟩ path second =
      .ok (true, ⟨p₁.setSource 0 second, sources', ⟨[path]⟩⟩) := by
    have hentry : sources.get? path = some ⟨0, .of (utf8 first)⟩ := if_pos rfl
    unfold edit
    dsimp only
    rw [hentry]
    exact if_neg hn
  have hcheck : Workspace.check ⟨p₁.setSource 0 second, sources', ⟨[path]⟩⟩ = (.ok report', ⟨p₂, sources', {}⟩) := by
    unfold check
    rw [update_of rfl h']
    exact if_pos hd
  exact ⟨_, _, ((Works.refl.add hadd).update (update_of rfl h)).edit hedit, hcheck, rfl⟩

lemma exists_check (path first second : String)
    (h : (Program.addSource {} path first).update.1.isOk = true) (hn : ContentHash.of (utf8 second) ≠ .of (utf8 first))
    (h' : ((Program.addSource {} path first).update.2.setSource 0 second).update.1.isOk = true)
    (hd : ((Program.addSource {} path first).update.2.setSource 0 second).update.2.diagnostics.isEmpty = true) :
    ∃ w report w', Works (.ofOptions {} .silent) [first, second] w ∧ w.check = (.ok report, w') ∧
      w'.program = ((Program.addSource {} path first).update.2.setSource 0 second).update.2 := by
  obtain ⟨report, h⟩ := Program.exists_report h
  obtain ⟨report', h'⟩ := Program.exists_report h'
  obtain ⟨w, w', hw⟩ := works_check rfl h hn h' hd
  exact ⟨w, report', w', hw⟩

/-- After a check that finds nothing, a declaration was never asked for, or is complete, or something it used failed
when it was analyzed. A root was asked for, unless of two items one digest stands for a root and for another that is
none. -/
theorem check_states {options : Options} {texts : List String} (h : Works (.ofOptions options .silent) texts w)
    (hc : w.check = (.ok report, w'))
    (hK : ∀ i ∈ texts.flatMap textItems, ∀ j ∈ texts.flatMap textItems, i.hash = j.hash → i.isRoot = j.isRoot)
    {d : DeclId} {D : Decl} (hD : w'.program.decl? d = some D) :
    D.state = .unreferenced ∧ D.isRoot = false ∨ D.state = .complete ∨ D.state = .dependencyFailed := by
  obtain ⟨edits, hr, hi⟩ := h.runs rfl
  obtain ⟨hu, hdiagnostics⟩ := check_cases hc
  have hu := update_program hu
  have hK' (i j : ItemSummary) (hi : i ∈ texts.flatMap textItems) (hj : j ∈ texts.flatMap textItems) := hK i hi j hj
  have hrests : w.program.Rests (· ∈ texts.flatMap textItems) :=
    hr.rests hK' (.empty options .silent) fun change hc i hm => hi i (List.mem_flatMap.2 ⟨change, hc, hm⟩)
  obtain ⟨e, he, hempty, hp⟩ := hrests.drained hK' hu
  have hquiet : w'.program.Quiescent := hp ▸ he.quiescent hempty
  have hown := (hr.accounts.update hu).state hdiagnostics hD
  obtain ⟨houtdated, hprogress⟩ := hquiet.settled hD
  cases hs : D.state with
  | unreferenced =>
    refine .inl ⟨rfl, ?_⟩
    rw [Bool.eq_false_iff]
    exact fun hroot => hquiet.roots hD hroot hs
  | complete => exact .inr (.inl rfl)
  | dependencyFailed => exact .inr (.inr rfl)
  | outdated => exact absurd hs houtdated
  | inProgress => exact absurd hs hprogress
  | failed | failedRetryable | codegenFailed | codegenFailedRetryable =>
    rw [hs] at hown
    cases hown

theorem check_states_repaired :
    let first := "comptime \x7b _ = y; \x7d\nconst y: u8 = 300;\n"
    let second := "comptime \x7b _ = y; \x7d\nconst y: u8 = 30;\n"
    ∃ w report w' D, Works (.ofOptions {} .silent) [first, second] w ∧ w.check = (.ok report, w') ∧
      w'.program.decl? 0 = some D ∧
      (D.state = .unreferenced ∧ D.isRoot = false ∨ D.state = .complete ∨ D.state = .dependencyFailed) := by
  intro first second
  obtain ⟨w, report, w', hw, hcheck, hp⟩ := exists_check "a" first second (by decide +kernel) (by decide +kernel)
    (by decide +kernel) (by rw [Program.isEmpty_diagnostics]; decide +kernel)
  obtain ⟨D, hD⟩ : ∃ D, w'.program.decl? 0 = some D := by
    rw [hp]
    exact Option.isSome_iff_exists.1 (by decide +kernel)
  exact ⟨w, report, w', D, hw, hcheck, hD, check_states hw hcheck (by decide +kernel) hD⟩

/-- A block is analyzed anew before what `y` is made of: it finds that `y` failed, and it is not marked when `y` is
repaired, for it was analyzed in this update. The body of a function meets the same fate. -/
theorem check_passes_over_failures :
    (let first := "comptime \x7b _ = y; \x7d\nconst y = z;\nconst z: u8 = 300;\n"
      let second := "comptime \x7b _ = y + 0; \x7d\nconst y = z;\nconst z: u8 = 30;\n"
      ∃ w report w', Works (.ofOptions {} .silent) [first, second] w ∧ w.check = (.ok report, w') ∧
        (w'.program.decl? 0).any (fun D => D.isRoot && D.state == .dependencyFailed) = true) ∧
    (let first := "export fn g() u8 \x7b return y; \x7d\nconst y = z;\nconst z: u8 = w;\nconst w = 300;\n"
      let second := "export fn g() u8 \x7b return y + 0; \x7d\nconst y = z;\nconst z: u8 = w;\nconst w = 30;\n"
      ∃ w report w', Works (.ofOptions {} .silent) [first, second] w ∧ w.check = (.ok report, w') ∧
        (w'.program.decl? 0).any (fun D => D.state == .complete && D.func?.any (·.state == .dependencyFailed)) =
          true) := by
  constructor
  all_goals
    intro first second
    obtain ⟨w, report, w', hw, hcheck, hp⟩ := exists_check "a" first second (by decide +kernel) (by decide +kernel)
      (by decide +kernel) (by rw [Program.isEmpty_diagnostics]; decide +kernel)
    refine ⟨w, report, w', hw, hcheck, ?_⟩
    rw [hp]
    decide +kernel

end Workspace

end Frontend
