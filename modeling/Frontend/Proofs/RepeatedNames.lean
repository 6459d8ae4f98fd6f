import Frontend.Proofs.Redefinition

/-! Repeated names in the course of a run. A unit that has two items of one name has that reported, from the update that
looks at it on. The diagnostic is missing only if that update found another one, or lost it with something that the
declaration used or with the declaration itself, or if a later update marked or deleted the declaration. -/

namespace Frontend

structure Update where
  before : Program
  report : Report
  after : Program

namespace Update

/-- Looking at a unit with repeated items of the name leaves no diagnostic that says so. -/
inductive Misses (file : FileId) (name : String) (s : Update) : Prop
  /-- The declaration had failed for another reason and is not marked, so that its first diagnostic is kept. -/
  | had {d diagnostic} (hd : s.before.lookup? file name = some d) (h : s.before.failedDecls.get? d = some diagnostic)
      (hn : ∀ span, diagnostic ≠ ⟨file, span, .redefinition name⟩) (ho : d ∉ s.report.outdated)
  /-- It is marked again, for something that it used is deleted. -/
  | lost {d x} (hd : s.before.lookup? file name = some d) (hx : x ∈ s.before.depsOf d) (h : x ∈ s.report.deleted)
  | gone (h : s.after.lookup? file name = none)

def Drops (file : FileId) (name : String) (s : Update) : Prop :=
  ∃ d, s.before.lookup? file name = some d ∧ (d ∈ s.report.outdated ∨ d ∈ s.report.deleted)

/-- The last of the updates that looked at the unit, and those after it. -/
structure LooksLast (file : FileId) (log : List Update) (s : Update) (later : List Update) : Prop where
  log : ∃ earlier, log = earlier ++ s :: later
  looks : file ∈ s.before.pendingUnits
  later : ∀ t ∈ later, file ∉ t.before.pendingUnits

/-- The last update that looked at the unit missed the diagnostic, or a later one dropped it. -/
def Excused (file : FileId) (name : String) (log : List Update) : Prop :=
  ∃ s later, LooksLast file log s later ∧ (s.Misses file name ∨ ∃ t ∈ later, t.Drops file name)

lemma LooksLast.append {file : FileId} {log later : List Update} {s t : Update} (h : LooksLast file log s later)
    (ht : file ∉ t.before.pendingUnits) : LooksLast file (log ++ [t]) s (later ++ [t]) := by
  obtain ⟨earlier, hlog⟩ := h.log
  refine ⟨⟨earlier, by simp [hlog]⟩, h.looks, fun r hr => ?_⟩
  obtain hr | hr := List.mem_append.1 hr
  · exact h.later r hr
  · cases List.mem_singleton.1 hr
    exact ht

lemma LooksLast.eq_of_passed {file : FileId} {later : List Update} {s t r : Update}
    (h : LooksLast file ([t] ++ [r]) s later)
    (hr : file ∉ r.before.pendingUnits) : s = t ∧ later = [r] := by
  obtain ⟨⟨earlier, hlog⟩, hlooks, -⟩ := h
  rcases earlier with _ | ⟨_, _ | ⟨_, earlier⟩⟩
  · cases hlog
    exact ⟨rfl, rfl⟩
  · cases hlog
    exact absurd hlooks hr
  · simp at hlog

lemma not_excused {file : FileId} {name : String} {t r : Update} (hnew : t.before.lookup? file name = none)
    (hkept : t.after.lookup? file name ≠ none) (hr : file ∉ r.before.pendingUnits)
    (hq : (r.report.outdated.isEmpty && r.report.deleted.isEmpty) = true) : ¬ Excused file name ([t] ++ [r]) := by
  rintro ⟨s, later, hlast, hexcuse⟩
  obtain ⟨rfl, rfl⟩ := hlast.eq_of_passed hr
  obtain hmisses | ⟨t, ht, d, -, hdrops⟩ := hexcuse
  · cases hmisses with
    | had hd | lost hd => cases hnew.symm.trans hd
    | gone hn => exact hkept hn
  · cases List.mem_singleton.1 ht
    obtain ⟨houtdated, hdeleted⟩ := Bool.and_eq_true_iff.1 hq
    rw [List.isEmpty_iff.1 houtdated, List.isEmpty_iff.1 hdeleted] at hdrops
    exact hdrops.elim List.not_mem_nil List.not_mem_nil

end Update

namespace Program

/-- Programs that come of edits and of updates that succeed, with those updates in order. -/
inductive Logs (p : Program) : List Update → Program → Prop
  | refl : Logs p [] p
  | edit {log q} (h : Logs p log q) (change : Edit) : Logs p log (q.edit change)
  | update {log q report q'} (h : Logs p log q) (hu : q.update = (.ok report, q')) :
      Logs p (log ++ [⟨q, report, q'⟩]) q'

structure Notes (file : FileId) (name : String) (key : NameHash) (d : DeclId) (p : Program) : Prop where
  decl : ∃ D, p.decl? d = some D ∧ D.state = .failed ∧ D.file = file ∧ D.nameHash = key
  record : ∃ span, p.failedDecls.get? d = some ⟨file, span, .redefinition name⟩

end Program

lemma Program.Serves.trans {p p' p'' : Program} (h : p.Serves p') (h' : p'.Serves p'') : p.Serves p'' := by
  refine fun file => (h file).comp (h' file) fun hx hy => ?_
  exact ⟨hy.path.trans hx.path, hy.namespaceHash.trans hx.namespaceHash, hy.offers.trans hx.offers⟩

namespace Program
variable {file : FileId} {name : String} {key : NameHash} {d : DeclId} {p p' : Program} {report : Report}
  {u u' : SourceUnit}

lemma exists_unit_of_update (hr : p.Registry) (hu : p.update = (.ok report, p')) (hu' : p'.units.get? file = some u') :
    ∃ u, p.units.get? file = some u ∧ u.Serves file u' := by
  obtain ⟨e, ⟨he, hserves⟩, -, -, rfl⟩ := update_intact
    (P := fun c => c.program.Registry ∧ p.Serves c.program)
    (fun c c' hm _ he _ h => ⟨h.1.move hm he, h.2.trans (hm.serves he)⟩)
    ⟨hr.retain (.ofDecls rfl rfl rfl rfl) rfl, .ofUnits rfl⟩ hu
  have hmem := List.mem_of_mem_filter (Dict.mem_of_get? hu')
  exact hserves.back (Dict.get?_of_mem he.files hmem)

namespace Notes

lemma lookup? (h : p.Notes file name key d) (hr : p.Registry) (hu : p.units.get? file = some u)
    (hk : u.namespaceHash.child name = key) : p.lookup? file name = some d := by
  obtain ⟨D, hD, -, -, hkey⟩ := h.decl
  unfold Program.lookup?
  rw [hu, Option.bind_some, hk, ← hkey]
  exact hr.found hD

lemma update (h : p.Notes file name key d) (hg : p.Graph) (hu : p.update = (.ok report, p')) :
    p'.Notes file name key d ∨ d ∈ report.outdated ∨ d ∈ report.deleted := by
  obtain ⟨D, hD, hstate, hfile, hkey⟩ := h.decl
  obtain ⟨span, hrecord⟩ := h.record
  have hfree : ¬ Config.Handles p.starting d := by
    rintro ((hx | (hx | hx) | hx | ⟨r, hx⟩) | hx) <;> cases hx
  obtain ⟨e, ⟨-, he⟩, -, rfl, rfl⟩ := update_intact
    (P := fun c => c.program.Graph ∧ (c.Fails False d ⟨file, span, .redefinition name⟩ ∧
        (∃ D, c.program.decl? d = some D ∧ D.file = file ∧ D.nameHash = key) ∨
      d ∈ c.program.report.outdated ∨ d ∈ c.program.report.deleted))
    (fun c c' hm hb he ht h => by
      obtain ⟨hg, ⟨hfails, D, hD, hfile, hkey⟩ | hgone⟩ := h
      · refine ⟨graph_move c c' hm hg, ?_⟩
        obtain hfails' | hloses := hfails.move hm hb ht hg
        · obtain ⟨D', hD', -⟩ := hfails'.failed
          have his := hm.identity hg hD hD'
          exact .inl ⟨hfails', D', hD', his.file.trans hfile, his.nameHash.trans hkey⟩
        · refine .inr ?_
          cases hloses with
          | stale _ h | retried _ h | orphaned _ _ _ h => exact .inl h
          | taken _ _ h => exact h
          | drained _ _ h => exact .inr h
      · have hreports := hm.goes hb he
        exact ⟨graph_move c c' hm hg, .inr (hgone.imp hreports.outdated hreports.deleted)⟩)
    ⟨hg.ofDecls rfl rfl, .inl ⟨⟨⟨D, hD, hstate, nofun⟩, hrecord, hfree⟩, D, hD, hfile, hkey⟩⟩ hu
  obtain ⟨hfails, D, hD, hfile, hkey⟩ | hgone := he
  · obtain ⟨D', hD', hstate, -⟩ := hfails.failed
    cases hD.symm.trans hD'
    exact .inl ⟨⟨D, hD, hstate, hfile, hkey⟩, span, hfails.record⟩
  · exact .inr hgone

end Notes

lemma notes_or_misses (hg : p.Graph) (hr : p.Registry) (hrec : p.Recorded) (ha : p.Unambiguous)
    (hu : p.update = (.ok report, p')) (hf : file ∈ p.pendingUnits) (hunit : p.units.get? file = some u)
    (hk : u.namespaceHash.child name = key) (hcount : 1 < ((u.offers file).map (·.name)).count name)
    (hunit' : p'.units.get? file = some u') (hk' : u'.namespaceHash.child name = key) :
    (∃ d, p'.Notes file name key d) ∨ Update.Misses file name ⟨p, report, p'⟩ := by
  have hlookup : p.lookup? file name = p.declTable.get? key := by
    unfold lookup?
    rw [hunit, Option.bind_some, hk]
  have hlookup' : p'.lookup? file name = p'.declTable.get? key := by
    unfold lookup?
    rw [hunit', Option.bind_some, hk']
  obtain ⟨e, he, -, rfl, rfl⟩ := update_intact (P := Config.Tells p file name key)
    (fun c c' hm hb he ht h => h.move ha hm hb he ht)
    { graph := hg.ofDecls rfl rfl
      registry := hr.retain (.ofDecls rfl rfl rfl rfl) rfl
      attentive := .ofIdle rfl rfl nofun nofun
      recorded := hrec
      orderly := fun _ => ha.orderly hr
      unit := fun _ => ⟨u, hunit, hk, hcount⟩
      telling := .waits rfl hf nofun fun d hd => ⟨fun h => ⟨hd, h, List.not_mem_nil⟩, fun h => ⟨hd, h⟩⟩ } hu
  cases he.telling with
  | waits ho => cases ho
  | first hst => cases hst
  | second hst => cases hst
  | told h =>
    obtain ⟨diagnostic, hfails, hcause⟩ := h.fails
    obtain ⟨D, hD, hstate, -⟩ := hfails.failed
    obtain ⟨D', hD', hfile, hkey⟩ := h.place
    cases hD.symm.trans hD'
    by_cases hd : ∃ span, diagnostic = ⟨file, span, .redefinition name⟩
    · obtain ⟨span, rfl⟩ := hd
      exact .inl ⟨_, ⟨D, hD, hstate, hfile, hkey⟩, span, hfails.record⟩
    · obtain ⟨ht, hrecord, ho⟩ := hcause.resolve_left hd
      exact .inr (.had (hlookup.trans ht) hrecord (fun span h => hd ⟨span, h⟩) ho)
  | lost ht hx hdel => exact .inr (.lost (hlookup.trans ht) hx hdel)
  | gone _ hn => exact .inr (.gone (hlookup'.trans hn))

/-! Runs. -/

lemma unit_of_edit {change : Edit} (hu : (p.edit change).units.get? file = some u) (hd : u.dirty = false) :
    p.units.get? file = some u := by
  have added {path : String} {content : UnitContent} (hu : (p.addUnit path content).units.get? file = some u) :
      p.units.get? file = some u := by
    change (p.units.insert p.nextFile _).get? file = some u at hu
    rw [Dict.get?_insert] at hu
    split at hu
    · cases hu
      cases hd
    · exact hu
  have modified {f : FileId} {g : SourceUnit → SourceUnit} (hg : ∀ v, (g v).dirty = true)
      (hu : (p.modifyUnit f g).units.get? file = some u) : p.units.get? file = some u := by
    change (p.units.modify f g).get? file = some u at hu
    rw [Dict.get?_modify] at hu
    split at hu
    · obtain ⟨v, -, rfl⟩ := Option.map_eq_some_iff.1 hu
      cases (hg v).symm.trans hd
    · exact hu
  cases change with
  | addSource | addPath | addLowered => exact added hu
  | setSource | setFile =>
    refine modified (fun v => ?_) hu
    split <;> rfl
  | setLowered | touch | removeUnit => exact modified (fun _ => rfl) hu

lemma edit_records (p : Program) (change : Edit) :
    (p.edit change).decls = p.decls ∧ (p.edit change).failedDecls = p.failedDecls := by
  cases change <;> exact ⟨rfl, rfl⟩

variable {log : List Update} {options : Options} {backend : Backend}

lemma Logs.runs {q : Program} (h : Logs q log p) : ∃ edits, Runs q edits p := by
  induction h with
  | refl => exact ⟨[], .refl⟩
  | edit _ change ih =>
    obtain ⟨edits, ih⟩ := ih
    exact ⟨_, ih.edit change⟩
  | update _ hu ih =>
    obtain ⟨edits, ih⟩ := ih
    exact ⟨edits, ih.update hu⟩

lemma dirty_eq_false (hu : p.units.get? file = some u) (hf : file ∉ p.pendingUnits) : u.dirty = false := by
  cases hd : u.dirty with
  | false => rfl
  | true => exact absurd (List.mem_filterMap.2 ⟨(file, u), Dict.mem_of_get? hu, by simp [hd]⟩) hf

lemma Logs.looksLast (h : Logs { options, backend } log p) (hu : p.units.get? file = some u) (hd : u.dirty = false) :
    ∃ s later, Update.LooksLast file log s later := by
  induction h generalizing u with
  | refl => cases hu
  | edit _ change ih => exact ih (unit_of_edit hu hd) hd
  | @update log q report q' h hupdate ih =>
    obtain ⟨edits, hruns⟩ := h.runs
    obtain ⟨v, hv, -⟩ := exists_unit_of_update (.reaches hruns.reaches) hupdate hu
    by_cases hf : file ∈ q.pendingUnits
    · exact ⟨_, [], ⟨log, rfl⟩, hf, nofun⟩
    · obtain ⟨s, later, hlast⟩ := ih hv (dirty_eq_false hv hf)
      exact ⟨s, later ++ [_], hlast.append hf⟩

lemma Logs.notes_or_excused (h : Logs { options, backend } log p) (ha : ∀ s ∈ log, s.before.Unambiguous)
    (hu : p.units.get? file = some u) (hd : u.dirty = false) (hcount : 1 < ((u.offers file).map (·.name)).count name) :
    (∃ d, p.Notes file name (u.namespaceHash.child name) d) ∨ Update.Excused file name log := by
  induction h generalizing u with
  | refl => cases hu
  | @edit log q h change ih =>
    obtain ⟨hdecls, hfailed⟩ := q.edit_records change
    refine (ih ha (unit_of_edit hu hd) hd hcount).imp_left ?_
    rintro ⟨d, hdecl, hrecord⟩
    refine ⟨d, ?_, ?_⟩
    · rwa [decl?, hdecls]
    · rwa [hfailed]
  | @update log q report q' h hupdate ih =>
    obtain ⟨edits, hruns⟩ := h.runs
    have hg : q.Graph := (Graph.empty options backend).reaches hruns.reaches
    have hr : q.Registry := .reaches hruns.reaches
    obtain ⟨v, hv, hserves⟩ := exists_unit_of_update hr hupdate hu
    have hk : v.namespaceHash.child name = u.namespaceHash.child name := by rw [hserves.namespaceHash]
    rw [hserves.offers] at hcount
    by_cases hf : file ∈ q.pendingUnits
    · have hq := ha _ (List.mem_concat_self)
      refine (notes_or_misses hg hr hruns.recorded hq hupdate hf hv hk hcount hu rfl).imp_right fun hmisses => ?_
      exact ⟨_, [], ⟨⟨log, rfl⟩, hf, by simp⟩, .inl hmisses⟩
    · have hclean := dirty_eq_false hv hf
      obtain ⟨d, hnotes⟩ | ⟨s, later, hlast, hx⟩ := ih (fun s hs => ha s (List.mem_append_left _ hs)) hv hclean hcount
      · have hlookup := hnotes.lookup? hr hv rfl
        rw [hk] at hnotes
        refine (hnotes.update hg hupdate).imp (fun h => ⟨d, h⟩) fun hlost => ?_
        obtain ⟨s, later, hlast⟩ := h.looksLast hv hclean
        exact ⟨s, later ++ [_], hlast.append hf, .inr ⟨_, List.mem_concat_self, d, hlookup, hlost⟩⟩
      · refine .inr ⟨s, later ++ [_], hlast.append hf, hx.imp_right ?_⟩
        rintro ⟨t, ht, hdrops⟩
        exact ⟨t, List.mem_append_left _ ht, hdrops⟩

lemma any_diagnostics (p : Program) (f : Diagnostic → Bool) : p.diagnostics.any f =
    (p.failedFiles.values.map (·.diagnostic) ++ p.failedDecls.values ++ p.failedExports.values).any f := by
  unfold diagnostics
  rw [Bool.eq_iff_iff, List.any_eq_true, List.any_eq_true]
  simp only [List.mem_mergeSort]

lemma mem_diagnostics {diagnostic : Diagnostic} (h : p.failedDecls.get? d = some diagnostic) :
    diagnostic ∈ p.diagnostics := by
  unfold diagnostics
  refine List.mem_mergeSort.2 (List.mem_append_left _ (List.mem_append_right _ ?_))
  exact List.mem_map.2 ⟨(d, diagnostic), Dict.mem_of_get? h, rfl⟩

/-- After an update, a unit that can be read and has two items of one name has that among the diagnostics, unless the
last update that looked at the unit missed it or a later one dropped it. -/
theorem redefinition_reported {options : Options} {backend : Backend} {log : List Update}
    (h : Logs { options, backend } log p) (ha : ∀ s ∈ log, s.before.Unambiguous) (ha' : p.Unambiguous)
    (hu : p.update = (.ok report, p')) (hunit : p'.units.get? file = some u)
    (hcount : 1 < ((u.offers file).map (·.name)).count name) :
    (∃ diagnostic ∈ p'.diagnostics, diagnostic.file = file ∧ diagnostic.message = "redefinition of '" ++ name ++ "'") ∨
      Update.Excused file name (log ++ [⟨p, report, p'⟩]) := by
  obtain ⟨edits, hruns⟩ := h.runs
  have hclean := (clean_of_update (.reaches hruns.reaches) hu hunit).2
  have hall (s : Update) (hs : s ∈ log ++ [⟨p, report, p'⟩]) : s.before.Unambiguous := by
    obtain hs | hs := List.mem_append.1 hs
    · exact ha s hs
    · cases List.mem_singleton.1 hs
      exact ha'
  refine ((h.update hu).notes_or_excused hall hunit hclean hcount).imp_left ?_
  rintro ⟨d, -, span, hrecord⟩
  refine ⟨_, mem_diagnostics hrecord, rfl, ?_⟩
  show "redefinition of " ++ ("'" ++ name ++ "'") = _
  rw [← String.append_assoc, ← String.append_assoc]
  rfl

/-- The diagnostic stays while another unit comes. -/
theorem redefinition_reported_later :
    let p₁ := Program.edit {} (.addSource "a" "const x = 1;\nconst x = 2;\ncomptime \x7b _ = x; \x7d\n")
    let p := p₁.update.2.edit (.addSource "b" "export fn f() void \x7b\x7d\n")
    ∃ report₁ report u, p₁.update = (.ok report₁, p₁.update.2) ∧ p.update = (.ok report, p.update.2) ∧
      p.update.2.units.get? 0 = some u ∧ 1 < ((u.offers 0).map (·.name)).count "x" ∧
      ∃ diagnostic ∈ p.update.2.diagnostics, diagnostic.file = 0 ∧
        diagnostic.message = "redefinition of '" ++ "x" ++ "'" := by
  intro p₁ p
  have hd : p₁.update.1.isOk = true ∧ p₁.Unambiguous ∧ p.Unambiguous ∧
      ((p.update.2.units.get? 0).any fun u => decide (1 < ((u.offers 0).map (·.name)).count "x")) = true := by
    decide +kernel
  have hseen : p₁.lookup? 0 "x" = none ∧ p₁.update.2.lookup? 0 "x" ≠ none ∧ 0 ∉ p.pendingUnits ∧
      (p.update.1.toOption.any fun report => report.outdated.isEmpty && report.deleted.isEmpty) = true := by
    decide +kernel
  obtain ⟨hok₁, ha₁, ha, hcount⟩ := hd
  obtain ⟨hnew, hkept, hpasses, hok⟩ := hseen
  obtain ⟨report₁, hu₁⟩ := exists_report hok₁
  obtain ⟨report, hu, hreport⟩ := exists_report_of hok
  obtain ⟨u, hunit, hcount⟩ := (Option.any_eq_true _ _).1 hcount
  have hcount := of_decide_eq_true hcount
  have hlog : Logs {} [⟨p₁, report₁, p₁.update.2⟩] p := ((Logs.refl.edit _).update hu₁).edit _
  have hexcused : ¬ Update.Excused 0 "x" ([⟨p₁, report₁, p₁.update.2⟩] ++ [⟨p, report, p.update.2⟩]) := by
    -- The outcome is named, so that it is not computed where it is compared with itself.
    obtain ⟨q, hq⟩ : ∃ q, q = p₁.update.2 := ⟨_, rfl⟩
    rw [← hq] at hkept ⊢
    exact Update.not_excused hnew hkept hpasses hreport
  refine ⟨report₁, report, u, hu₁, hu, hunit, hcount, Or.resolve_right ?_ hexcused⟩
  refine redefinition_reported hlog (fun s hs => ?_) ha hu hunit hcount
  cases List.mem_singleton.1 hs
  exact ha₁

/-- The name of two items is not reported: another diagnostic is kept, something that the declaration used is deleted,
the declaration is, it is tried again, or another name has its digest. -/
theorem redefinition_unreported :
    let repeated (p : Program) (name : String) : Bool :=
      (p.units.get? 0).any fun u => decide (1 < ((u.offers 0).map (·.name)).count name)
    let reported (p : Program) (name : String) : Bool :=
      p.diagnostics.any fun diagnostic => diagnostic.message == "redefinition of '" ++ name ++ "'"
    let unreported (first second : String) : Prop :=
      let p := Program.edit {} (.addSource "a" first)
      let p' := p.update.2.edit (.setSource 0 second)
      p.Unambiguous ∧ p.update.1.isOk = true ∧ p'.Unambiguous ∧ p'.update.1.isOk = true ∧
        repeated p'.update.2 "x" = true ∧ reported p'.update.2 "x" = false
    unreported "const x: u8 = 300;\ncomptime \x7b _ = x; \x7d\n"
        "const x: u8 = 300;\ncomptime \x7b _ = x; \x7d\nconst x = 2;\n" ∧
      unreported "const x = y;\nconst y = 1;\ncomptime \x7b _ = x; \x7d\n"
        "const x = y;\ncomptime \x7b _ = x; \x7d\nconst x = 2;\n" ∧
      unreported "const x = 1;\ncomptime \x7b _ = x; \x7d\n" "const x = 1;\ncomptime \x7b _ = 0; \x7d\nconst x = 2;\n" ∧
      (let p := Program.edit { backend := .recording { rules := [((.updateExports, "x"), .retryable "no")] } }
          (.addSource "a" "export fn x() void \x7b\x7d\n")
        let p' := (p.update.2.edit (.setSource 0 "export fn x() void \x7b\x7d\nfn x() void \x7b\x7d\n")).update.2
        p.update.1.isOk = true ∧ p'.update.1.isOk = true ∧ reported p' "x" = true ∧ repeated p'.update.2 "x" = true ∧
          reported p'.update.2 "x" = false) ∧
      (let name := "declared_name__hnlbeehkiceollifibcnipahhonchapi"
        let p := Program.edit {} (.addSource "a" ("const " ++ name ++ " = 1;\n" ++
          "const declared_name__bmcdoeckodnmblnfmknejjfmdfclggkd = 2;\n" ++ "const " ++ name ++ " = 3;\n"))
        p.update.1.isOk = true ∧ repeated p.update.2 name = true ∧ reported p.update.2 name = false) := by
  simp only [any_diagnostics]
  decide +kernel

end Program

end Frontend
