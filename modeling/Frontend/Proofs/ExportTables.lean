import Frontend.Proofs.Reports

/-! The export tables agree. An export is listed once under its owner and once under what it emits, both of which are
there; a symbol leads to an export of that symbol, and an export that was accepted, or may be later, is the one its
symbol leads to. -/

namespace Frontend

lemma Engine.untold_markOutdated (e : Engine) (d : DeclId) : e.program.Untold (e.markOutdated d).program :=
  markOutdated_rule ⟨⟨rfl, rfl, rfl, rfl, rfl, rfl⟩, rfl⟩ ⟨⟨rfl, rfl, rfl, rfl, rfl, rfl⟩, rfl⟩

namespace Program
variable {p p' : Program}

/-! Lists of exports under declarations. -/

lemma get?_unlist {lists : Dict DeclId (List ExportId)} {d k : DeclId} {x : ExportId} {es : List ExportId} :
    (unlist lists d x).get? k = some es ↔
      if d = k then es = ((lists.get? k).getD []).filter (· ≠ x) ∧ es ≠ [] else lists.get? k = some es := by
  by_cases hk : d = k
  · subst hk
    rw [if_pos rfl]
    unfold unlist
    cases hl : lists.get? d with
    | none => simp [hl]
    | some old =>
      dsimp only [Option.getD_some]
      split
      · next hnil =>
        rw [Dict.get?_erase, if_pos rfl, hnil]
        simp
      · next hkept =>
        rw [Dict.get?_insert, if_pos rfl, Option.some.injEq]
        exact ⟨fun h => ⟨h.symm, h ▸ hkept⟩, fun h => h.1.symm⟩
  · rw [if_neg hk]
    unfold unlist
    split
    · exact Iff.rfl
    · split
      · rw [Dict.get?_erase, if_neg hk]
      · rw [Dict.get?_insert, if_neg hk]

structure Lists (key : Export → DeclId) (exports : Dict ExportId Export) (lists : Dict DeclId (List ExportId)) :
    Prop where
  nonempty {d : DeclId} {es : List ExportId} : lists.get? d = some es → es ≠ []
  nodup {d : DeclId} {es : List ExportId} : lists.get? d = some es → es.Nodup
  listed {d : DeclId} {es : List ExportId} {x : ExportId} : lists.get? d = some es → x ∈ es →
    ∃ X, exports.get? x = some X ∧ key X = d
  lists {x : ExportId} {X : Export} : exports.get? x = some X → ∃ es, lists.get? (key X) = some es ∧ x ∈ es

namespace Lists
variable {key : Export → DeclId} {exports : Dict ExportId Export} {lists : Dict DeclId (List ExportId)} {x : ExportId}
  {X : Export}

variable (h : Lists key exports lists)
include h

lemma count_eq (hX : exports.get? x = some X) (d : DeclId) :
    ((lists.get? d).getD []).count x = if key X = d then 1 else 0 := by
  obtain ⟨es, hes, hx⟩ := h.lists hX
  split
  · next hd =>
    subst hd
    rw [hes, Option.getD_some]
    exact List.count_eq_one_of_mem (h.nodup hes) hx
  · next hd =>
    refine List.count_eq_zero_of_not_mem fun hx' => ?_
    cases hl : lists.get? d with
    | none =>
      rw [hl] at hx'
      cases hx'
    | some es' =>
      rw [hl] at hx'
      obtain ⟨X', hX', hk⟩ := h.listed hl hx'
      cases hX.symm.trans hX'
      exact hd hk

lemma enlist (hx : exports.get? x = none) (X : Export) : Lists key (exports.insert x X) (enlist lists (key X) x) := by
  have hget (d : DeclId) : (Program.enlist lists (key X) x).get? d =
      if key X = d then some ((lists.get? (key X)).getD [] ++ [x]) else lists.get? d := Dict.get?_insert ..
  have hexport (y : ExportId) : (exports.insert x X).get? y = if x = y then some X else exports.get? y :=
    Dict.get?_insert ..
  -- The new export is in no list so far.
  have habsent {d : DeclId} {es : List ExportId} (hes : lists.get? d = some es) : x ∉ es := by
    intro hm
    obtain ⟨Y, hY, -⟩ := h.listed hes hm
    cases hx.symm.trans hY
  have hold {d : DeclId} {es : List ExportId} {y : ExportId} (hes : lists.get? d = some es) (hy : y ∈ es) :
      ∃ Y, (exports.insert x X).get? y = some Y ∧ key Y = d := by
    obtain ⟨Y, hY, hk⟩ := h.listed hes hy
    have hne : x ≠ y := fun he => habsent hes (he ▸ hy)
    exact ⟨Y, by rw [hexport, if_neg hne, hY], hk⟩
  refine ⟨fun {d es} hes => ?_, fun {d es} hes => ?_, fun {d es y} hes hy => ?_, fun {y Y} hY => ?_⟩
  · rw [hget] at hes
    split at hes
    · cases hes
      simp
    · exact h.nonempty hes
  · rw [hget] at hes
    split at hes
    · cases hes
      cases hl : lists.get? (key X) with
      | none => simp
      | some old =>
        rw [Option.getD_some, ← List.concat_eq_append]
        exact (h.nodup hl).concat (habsent hl)
    · exact h.nodup hes
  · rw [hget] at hes
    split at hes
    · next hd =>
      cases hes
      obtain hy | hy := List.mem_append.1 hy
      · cases hl : lists.get? (key X) with
        | none =>
          rw [hl] at hy
          cases hy
        | some old =>
          rw [hl] at hy
          exact hd ▸ hold hl hy
      · cases List.mem_singleton.1 hy
        exact ⟨X, by rw [hexport, if_pos rfl], hd⟩
    · exact hold hes hy
  · rw [hexport] at hY
    split at hY
    · next he =>
      subst he
      cases hY
      exact ⟨_, by rw [hget, if_pos rfl], List.mem_concat_self⟩
    · obtain ⟨es, hes, hy⟩ := h.lists hY
      by_cases hk : key X = key Y
      · refine ⟨_, by rw [hget, if_pos hk], List.mem_append_left _ ?_⟩
        rw [hk, hes]
        exact hy
      · exact ⟨es, by rw [hget, if_neg hk, hes], hy⟩

lemma unlist (hX : exports.get? x = some X) : Lists key (exports.erase x) (unlist lists (key X) x) := by
  have hexport {y : ExportId} {Y : Export} : (exports.erase x).get? y = some Y ↔ x ≠ y ∧ exports.get? y = some Y := by
    rw [Dict.get?_erase]
    split <;> simp_all
  -- What is left of the export's own list was in it.
  have hkept {es : List ExportId} (hes : es = ((lists.get? (key X)).getD []).filter (· ≠ x)) (hne : es ≠ []) :
      ∃ old, lists.get? (key X) = some old ∧ es = old.filter (· ≠ x) := by
    cases hl : lists.get? (key X) with
    | none =>
      rw [hl] at hes
      exact absurd hes hne
    | some old =>
      rw [hl] at hes
      exact ⟨old, rfl, hes⟩
  refine ⟨fun {d es} hes => ?_, fun {d es} hes => ?_, fun {d es y} hes hy => ?_, fun {y Y} hY => ?_⟩
  · rw [get?_unlist] at hes
    split at hes
    · exact hes.2
    · exact h.nonempty hes
  · rw [get?_unlist] at hes
    split at hes
    · next hd =>
      subst hd
      obtain ⟨old, hold, rfl⟩ := hkept hes.1 hes.2
      exact (h.nodup hold).filter _
    · exact h.nodup hes
  · rw [get?_unlist] at hes
    split at hes
    · next hd =>
      subst hd
      obtain ⟨old, hold, rfl⟩ := hkept hes.1 hes.2
      obtain ⟨hy, hne⟩ := List.mem_filter.1 hy
      obtain ⟨Y, hY, hk⟩ := h.listed hold hy
      exact ⟨Y, hexport.2 ⟨fun he => by simp [he] at hne, hY⟩, hk⟩
    · next hd =>
      obtain ⟨Y, hY, hk⟩ := h.listed hes hy
      refine ⟨Y, hexport.2 ⟨?_, hY⟩, hk⟩
      rintro rfl
      cases hX.symm.trans hY
      exact hd hk
  · obtain ⟨hne, hY⟩ := hexport.1 hY
    obtain ⟨es, hes, hy⟩ := h.lists hY
    by_cases hk : key X = key Y
    · have hy' : y ∈ es.filter (· ≠ x) := List.mem_filter.2 ⟨hy, by simpa using Ne.symm hne⟩
      refine ⟨es.filter (· ≠ x), get?_unlist.2 ?_, hy'⟩
      rw [if_pos hk, hes]
      exact ⟨rfl, List.ne_nil_of_mem hy'⟩
    · refine ⟨es, get?_unlist.2 ?_, hy⟩
      rwa [if_neg hk]

lemma modify (id : ExportId) {f : Export → Export} (hf : ∀ X, key (f X) = key X) :
    Lists key (exports.modify id f) lists := by
  refine ⟨h.nonempty, h.nodup, fun {d es y} hes hy => ?_, fun {y Y} hY => ?_⟩
  · obtain ⟨Y, hY, hk⟩ := h.listed hes hy
    rw [Dict.get?_modify, hY]
    split
    · exact ⟨f Y, rfl, (hf Y).trans hk⟩
    · exact ⟨Y, rfl, hk⟩
  · rw [Dict.get?_modify] at hY
    split at hY
    · obtain ⟨Y₀, hY₀, rfl⟩ := Option.map_eq_some_iff.1 hY
      rw [hf]
      exact h.lists hY₀
    · exact h.lists hY

end Lists

/-! All tables together. -/

def Outlives (p p' : Program) : Prop := ∀ d, (p.decl? d).isSome = true → (p'.decl? d).isSome = true

lemma Retains.outlives (h : p.Retains p') : p.Outlives p' := by
  intro d hd
  obtain ⟨D, hD⟩ := Option.isSome_iff_exists.1 hd
  obtain ⟨D', hD', -⟩ := h.exists_decl? hD
  rw [hD']
  rfl

lemma Rewired.untold (h : p.Rewired p') : p.Untold p' := by
  rw [h.rest]
  exact ⟨⟨rfl, rfl, rfl, rfl, rfl, rfl⟩, rfl⟩

/-- The export tables agree with each other, and exports with the declarations that are there. -/
structure Exported (p : Program) : Prop where
  owners : Lists (·.owner) p.exports p.exportOwners
  targets : Lists (·.exported) p.exports p.declExports
  numbered {x : ExportId} {X : Export} : p.exports.get? x = some X → x < p.nextExport
  live {x : ExportId} {X : Export} : p.exports.get? x = some X →
    (p.decl? X.owner).isSome = true ∧ (p.decl? X.exported).isSome = true
  symbols {s : String} {x : ExportId} : p.symbolExports.get? s = some x →
    ∃ X, p.exports.get? x = some X ∧ X.symbol = s
  settled {x : ExportId} {X : Export} : p.exports.get? x = some X →
    X.status = .complete ∨ X.status = .failedRetryable → p.symbolExports.get? X.symbol = some x
  failed {x : ExportId} {diagnostic : Diagnostic} : p.failedExports.get? x = some diagnostic →
    (p.exports.get? x).isSome = true

namespace Exported

section

variable (h : p.Exported)
include h

lemma same (hs : p.SameExports p') (hl : p.Outlives p') : p'.Exported where
  owners := by
    rw [hs.exports, hs.exportOwners]
    exact h.owners
  targets := by
    rw [hs.exports, hs.declExports]
    exact h.targets
  numbered hX := by
    rw [hs.exports] at hX
    rw [hs.nextExport]
    exact h.numbered hX
  live hX := by
    rw [hs.exports] at hX
    exact (h.live hX).imp (hl _) (hl _)
  symbols hx := by
    rw [hs.symbolExports] at hx
    rw [hs.exports]
    exact h.symbols hx
  settled hX hst := by
    rw [hs.exports] at hX
    rw [hs.symbolExports]
    exact h.settled hX hst
  failed hx := by
    rw [hs.failedExports] at hx
    rw [hs.exports]
    exact h.failed hx

lemma addExport (symbol : String) (src : Span) {owner exported : DeclId} (ho : (p.decl? owner).isSome = true)
    (hx : (p.decl? exported).isSome = true) : (p.addExport symbol src owner exported).Exported := by
  have hnew : p.exports.get? p.nextExport = none := by
    cases hX : p.exports.get? p.nextExport with
    | none => rfl
    | some X => exact absurd (h.numbered hX) (Nat.lt_irrefl _)
  have hget (x : ExportId) : (p.addExport symbol src owner exported).exports.get? x =
      if p.nextExport = x then some ⟨p.nextExport, symbol, src, owner, exported, .inProgress⟩ else p.exports.get? x :=
    Dict.get?_insert ..
  have hsome {x : ExportId} (hX : (p.exports.get? x).isSome = true) :
      (p.addExport symbol src owner exported).exports.get? x = p.exports.get? x := by
    rw [hget, if_neg]
    rintro rfl
    rw [hnew] at hX
    cases hX
  refine ⟨h.owners.enlist hnew _, h.targets.enlist hnew _, fun hX => ?_, fun hX => ?_, fun hs => ?_, fun hX hst => ?_,
    fun hf => ?_⟩
  · rw [hget] at hX
    split at hX
    · next he => exact he ▸ Nat.lt_succ_self _
    · exact Nat.lt_succ_of_lt (h.numbered hX)
  · rw [hget] at hX
    split at hX
    · cases hX
      exact ⟨ho, hx⟩
    · exact h.live hX
  · obtain ⟨X, hX, hs⟩ := h.symbols hs
    exact ⟨X, by rw [hsome (by rw [hX]; rfl), hX], hs⟩
  · rw [hget] at hX
    split at hX
    · cases hX
      obtain hst | hst := hst <;> cases hst
    · exact h.settled hX hst
  · rw [hsome (h.failed hf)]
    exact h.failed hf

/-! A removed export stood under no symbol but its own, so that its symbol is all that has to be cleared. -/

lemma symbolExports_removeExport (id : ExportId) (s : String) :
    (p.removeExport id).symbolExports.get? s = (p.symbolExports.get? s).filter fun x => !decide (x = id) := by
  have hother (hne : ∀ X, p.exports.get? id = some X → p.symbolExports.get? X.symbol = some id → X.symbol ≠ s) :
      p.symbolExports.get? s = (p.symbolExports.get? s).filter fun x => !decide (x = id) := by
    cases hs : p.symbolExports.get? s with
    | none => rfl
    | some y =>
      have hy : y ≠ id := by
        rintro rfl
        obtain ⟨Y, hY, rfl⟩ := h.symbols hs
        exact hne Y hY hs rfl
      rw [Option.filter_some, if_pos]
      simpa using hy
  unfold Program.removeExport
  split
  · next hn => exact hother fun X hX => by cases hn.symm.trans hX
  · next X hX =>
    dsimp only
    split
    · next hown =>
      rw [Dict.get?_erase]
      split
      · next he =>
        rw [← he, hown, Option.filter_some, if_neg]
        simp
      · next he => exact hother fun Y hY _ => by cases hX.symm.trans hY; exact he
    · next hown => exact hother fun Y hY hs => by cases hX.symm.trans hY; exact absurd hs hown

lemma failedExports_removeExport (id x : ExportId) :
    (p.removeExport id).failedExports.get? x = if id = x then none else p.failedExports.get? x := by
  unfold Program.removeExport
  split
  · next hn =>
    split
    · next he =>
      refine Option.eq_none_iff_forall_ne_some.2 fun diagnostic hf => ?_
      have hlive := h.failed hf
      rw [← he, hn] at hlive
      cases hlive
    · rfl
  · exact Dict.get?_erase ..

lemma lists_removeExport (id : ExportId) :
    Lists (·.owner) (p.removeExport id).exports (p.removeExport id).exportOwners ∧
      Lists (·.exported) (p.removeExport id).exports (p.removeExport id).declExports := by
  unfold Program.removeExport
  split
  · exact ⟨h.owners, h.targets⟩
  · next X hX => exact ⟨h.owners.unlist hX, h.targets.unlist hX⟩

lemma removeExport (id : ExportId) : (p.removeExport id).Exported := by
  have hget {x : ExportId} {Y : Export} :
      (p.removeExport id).exports.get? x = some Y ↔ id ≠ x ∧ p.exports.get? x = some Y := by
    rw [exports_removeExport]
    split <;> simp_all
  have hsymbol {s : String} {x : ExportId} : (p.removeExport id).symbolExports.get? s = some x ↔
      p.symbolExports.get? s = some x ∧ x ≠ id := by
    rw [h.symbolExports_removeExport, Option.filter_eq_some_iff]
    simp
  have hq := p.removeExport_quiet id
  obtain ⟨howners, htargets⟩ := h.lists_removeExport id
  refine ⟨howners, htargets, fun hY => ?_, fun hY => ?_, fun hs => ?_, fun hY hst => ?_, fun {x diagnostic} hf => ?_⟩
  · rw [(p.removeExport_withdraws id).nextExport]
    exact h.numbered (hget.1 hY).2
  · rw [decl?, decl?, hq.decls]
    exact h.live (hget.1 hY).2
  · obtain ⟨hs, hne⟩ := hsymbol.1 hs
    obtain ⟨Y, hY, hs⟩ := h.symbols hs
    exact ⟨Y, hget.2 ⟨hne.symm, hY⟩, hs⟩
  · obtain ⟨hne, hY⟩ := hget.1 hY
    exact hsymbol.2 ⟨h.settled hY hst, hne.symm⟩
  · rw [h.failedExports_removeExport] at hf
    rw [exports_removeExport]
    split at hf
    · cases hf
    · next hne =>
      rw [if_neg hne]
      exact h.failed hf

lemma foldl_removeExport (ids : List ExportId) : (ids.foldl Program.removeExport p).Exported :=
  ids.foldlRecOn _ h fun _ h id _ => h.removeExport id

lemma removeOwnedExports (d : DeclId) : (p.removeOwnedExports d).Exported := h.foldl_removeExport _

lemma removeExportsOf (d : DeclId) : (p.removeExportsOf d).Exported := h.foldl_removeExport _

end

variable {id x : ExportId} {X : Export} {d : DeclId}

section

variable (h : p.Exported)
include h

lemma claim (hX : p.exports.get? id = some X) (hs : p.symbolExports.get? X.symbol = none) :
    Exported { p with symbolExports := p.symbolExports.insert X.symbol id } := by
  refine ⟨h.owners, h.targets, h.numbered, h.live, fun {s x} hx => ?_, fun {x Y} hY hst => ?_, h.failed⟩
  · rw [Dict.get?_insert] at hx
    split at hx
    · next he =>
      cases hx
      exact ⟨X, hX, he⟩
    · exact h.symbols hx
  · have hY' := h.settled hY hst
    rw [Dict.get?_insert, if_neg]
    · exact hY'
    · intro he
      rw [← he, hs] at hY'
      cases hY'

lemma settle {status : ExportStatus} {failed : Dict ExportId Diagnostic} (hX : p.exports.get? id = some X)
    (hs : status = .failed ∨ p.symbolExports.get? X.symbol = some id)
    (hf : failed = p.failedExports ∨ ∃ diagnostic, failed = p.failedExports.insert id diagnostic) :
    Exported { p.setExportStatus id status with failedExports := failed } := by
  have hget (x : ExportId) : (p.exports.modify id ({ · with status })).get? x =
      if id = x then (p.exports.get? x).map ({ · with status }) else p.exports.get? x := Dict.get?_modify ..
  have hsome {x : ExportId} (hx : (p.exports.get? x).isSome = true) :
      ((p.exports.modify id ({ · with status })).get? x).isSome = true := by
    rw [hget]
    split
    · rwa [Option.isSome_map]
    · exact hx
  have hhad {x : ExportId} {Y : Export} (hY : (p.exports.modify id ({ · with status })).get? x = some Y) :
      ∃ Y₀, p.exports.get? x = some Y₀ ∧ Y.owner = Y₀.owner ∧ Y.exported = Y₀.exported ∧ Y.symbol = Y₀.symbol ∧
        (Y.status = Y₀.status ∨ x = id ∧ Y.status = status) := by
    rw [hget] at hY
    split at hY
    · next he =>
      obtain ⟨Y₀, hY₀, rfl⟩ := Option.map_eq_some_iff.1 hY
      exact ⟨Y₀, hY₀, rfl, rfl, rfl, .inr ⟨he.symm, rfl⟩⟩
    · exact ⟨Y, hY, rfl, rfl, rfl, .inl rfl⟩
  refine ⟨h.owners.modify id (f := ({ · with status })) fun _ => rfl,
    h.targets.modify id (f := ({ · with status })) fun _ => rfl, fun hY => ?_, fun hY => ?_, fun {s x} hx => ?_,
    fun hY hst => ?_, fun {x diagnostic} hx => ?_⟩
  · obtain ⟨Y₀, hY₀, -⟩ := hhad hY
    exact h.numbered hY₀
  · obtain ⟨Y₀, hY₀, ho, he, -⟩ := hhad hY
    rw [ho, he]
    exact h.live hY₀
  · obtain ⟨Y, hY, hsymbol⟩ := h.symbols hx
    have hy := hget x
    rw [hY] at hy
    split at hy
    · exact ⟨_, hy, hsymbol⟩
    · exact ⟨Y, hy, hsymbol⟩
  · obtain ⟨Y₀, hY₀, -, -, hsymbol, hstatus | ⟨rfl, hstatus⟩⟩ := hhad hY
    · rw [hstatus] at hst
      rw [hsymbol]
      exact h.settled hY₀ hst
    · cases hX.symm.trans hY₀
      rw [hsymbol]
      refine hs.resolve_left ?_
      rintro rfl
      rw [hstatus] at hst
      obtain hst | hst := hst <;> cases hst
  · obtain rfl | ⟨diagnostic, rfl⟩ := hf
    · exact hsome (h.failed hx)
    · rw [Dict.get?_insert] at hx
      split at hx
      · next he =>
        subst he
        exact hsome (by rw [hX]; rfl)
      · exact hsome (h.failed hx)

lemma trade (ht : p.Trades p') (hl : p.Outlives p') : p'.Exported := by
  cases ht with
  | leave hs => exact h.same hs hl
  | withdraw d => exact h.removeOwnedExports d
  | settle hX hs hf => exact h.settle hX (.inr hs) (hf.imp_right fun ⟨_, _, hf⟩ => ⟨_, hf⟩)

lemma enter {symbol : String} {src : Span} {owner exported : DeclId} (he : p.Enters symbol src owner exported p')
    (ho : (p.decl? owner).isSome = true) (hx : (p.decl? exported).isSome = true) : p'.Exported := by
  have hnew := h.addExport symbol src ho hx
  have hX : (p.addExport symbol src owner exported).exports.get? p.nextExport =
      some ⟨p.nextExport, symbol, src, owner, exported, .inProgress⟩ := (Dict.get?_insert ..).trans (if_pos rfl)
  cases he with
  | collide file hn => exact hnew.settle hX (.inl rfl) (.inr ⟨_, rfl⟩)
  | claim hn => exact hnew.claim hX hn

lemma owner_ne (hX : (p.removeOwnedExports d).exports.get? x = some X) : p.exports.get? x = some X ∧ X.owner ≠ d := by
  rw [Program.removeOwnedExports, exports_foldl_removeExport] at hX
  split at hX
  · cases hX
  · next hx =>
    refine ⟨hX, ?_⟩
    rintro rfl
    obtain ⟨es, hes, hm⟩ := h.owners.lists hX
    rw [hes] at hx
    exact hx hm

lemma exported_ne (hX : (p.removeExportsOf d).exports.get? x = some X) :
    p.exports.get? x = some X ∧ X.exported ≠ d := by
  rw [Program.removeExportsOf, exports_foldl_removeExport] at hX
  split at hX
  · cases hX
  · next hx =>
    refine ⟨hX, ?_⟩
    rintro rfl
    obtain ⟨es, hes, hm⟩ := h.targets.lists hX
    rw [hes] at hx
    exact hx hm

lemma forget (d : DeclId) (D : Decl) : (p.forget d D).Exported := by
  have h₁ : Exported { p with failedDecls := p.failedDecls.erase d } :=
    h.same ⟨rfl, rfl, rfl, rfl, rfl, rfl⟩ fun _ h => h
  have h₂ := h₁.removeOwnedExports d
  have h₃ := h₂.removeExportsOf d
  refine ⟨h₃.owners, h₃.targets, h₃.numbered, fun {x X} hX => ?_, h₃.symbols, h₃.settled, h₃.failed⟩
  obtain ⟨hX, htarget⟩ := h₂.exported_ne hX
  obtain ⟨hX, howner⟩ := h₁.owner_ne hX
  rw [decl?_forget, decl?_forget, if_neg (Ne.symm howner), if_neg (Ne.symm htarget)]
  exact h.live hX

end

lemma deleteDecl {e : Engine} (h : e.program.Exported) (d : DeclId) : (e.deleteDecl d).program.Exported := by
  refine Engine.deleteDecl_rule h (fun D _ => ?_)
    (fun hw h => h.same hw.untold.toSameExports (Retains.rewire hw).outlives)
    (fun e x h => h.same (e.untold_markOutdated x).toSameExports (Retains.markOutdated e x).outlives)
    fun _ D h => h.forget d D
  refine h.same ?_ fun x hx => ?_
  · unfold detach
    dsimp only
    split <;> exact ⟨rfl, rfl, rfl, rfl, rfl, rfl⟩
  · rwa [decl?, detach_decls]

end Exported

end Program

/-! Moves. -/

lemma Move.exports_or {c c' : Config} (hm : Move c c') :
    (c.program.Trades c'.program ∧ c.program.Outlives c'.program ∧
        c.program.Tells c.stage c.stack c'.program.backend) ∨
      (∃ (site : Analysis.Site) (symbol : String) (src : Span) (exported : DeclId), Stands c.stack c.body site ∧
        (c.program.tyOf exported).isFunction = true ∧
        c.program.Enters symbol src site.owner exported c'.program) ∨
      ∃ (e : Engine) (d : DeclId), c.stage.isIdle = true ∧ c'.stack = [] ∧ c.body = none ∧ c'.body = none ∧
        c.program.Untold e.program ∧ c.program.Retains e.program ∧ c'.engine = e.deleteDecl d := by
  have keep (hs : c.program.Untold c'.program) (hd : c.stage.deletes = false) :
      c.program.Trades c'.program ∧ c.program.Outlives c'.program ∧
        c.program.Tells c.stage c.stack c'.program.backend := by
    refine ⟨.leave hs.toSameExports, hm.outlives hd, ?_⟩
    rw [hs.backend]
    exact .nothing
  have failed (p : Program) (scope : Scope) (span : Span) (cause : Cause) : p.Untold (p.fail scope span cause) := by
    unfold Program.fail
    dsimp only
    split <;> exact ⟨⟨rfl, rfl, rfl, rfl, rfl, rfl⟩, rfl⟩
  cases hm with
  | @quiet _ _ _ e g hq ht hb =>
    have hd (d : DeclId) : (g e.program).decl? d = e.program.decl? d := congrArg (·.get? d) hq.decls
    exact .inl ⟨ht, fun d hlive => (congrArg Option.isSome (hd d)).trans hlive, hb⟩
  | collide hs file symbol src hx hn => exact .inr (.inl ⟨_, symbol, src, _, hs, hx, .collide file hn⟩)
  | claim hs symbol src hx hn => exact .inr (.inl ⟨_, symbol, src, _, hs, hx, .claim hn⟩)
  | tear | closeUnit | worked | drained => exact .inl ⟨.leave ⟨rfl, rfl, rfl, rfl, rfl, rfl⟩, fun _ h => h, .nothing⟩
  | fail | failLate => exact .inl (keep (failed ..) rfl)
  | @depend _ _ e site =>
    have hs : e.program.Untold (e.program.dependencyFailed site) := by
      unfold Program.dependencyFailed
      split <;> exact ⟨⟨rfl, rfl, rfl, rfl, rfl, rfl⟩, rfl⟩
    exact .inl (keep hs rfl)
  | edge => exact .inl (keep (Program.addEdge_rewired ..).untold rfl)
  | release => exact .inl (keep (Program.release_rewired ..).untold rfl)
  | grant link header => cases header <;> exact .inl (keep ⟨⟨rfl, rfl, rfl, rfl, rfl, rfl⟩, rfl⟩ rfl)
  | outdate | retry => exact .inl (keep (Engine.untold_markOutdated ..) rfl)
  | enroll =>
    refine .inl (keep ?_ rfl)
    dsimp only
    split <;> exact ⟨⟨rfl, rfl, rfl, rfl, rfl, rfl⟩, rfl⟩
  | @refresh _ _ _ _ e _ d =>
    exact .inl (keep (Engine.refresh_rule ⟨⟨rfl, rfl, rfl, rfl, rfl, rfl⟩, rfl⟩ fun e h =>
      h.trans (e.untold_markOutdated d)) rfl)
  | drop =>
    exact .inr (.inr ⟨_, _, rfl, rfl, rfl, rfl, ⟨⟨rfl, rfl, rfl, rfl, rfl, rfl⟩, rfl⟩, .ofDecls rfl rfl rfl rfl, rfl⟩)
  | @drain e d rest =>
    have hr := Program.Retains.spare e.program rest d
    dsimp only
    obtain ⟨-, he⟩ | ⟨D, -, -, he⟩ | ⟨D, -, -, -, he⟩ :=
      (e.popped rest).drainStep_turns d <;> rw [he]
    · exact .inl ⟨.leave ⟨rfl, rfl, rfl, rfl, rfl, rfl⟩, fun _ h => h, .nothing⟩
    · exact .inl ⟨.leave ⟨rfl, rfl, rfl, rfl, rfl, rfl⟩, hr.outlives, .nothing⟩
    · refine .inr (.inr ⟨_, d, rfl, rfl, rfl, rfl, ?_, hr, rfl⟩)
      exact ⟨⟨rfl, rfl, rfl, rfl, rfl, rfl⟩, rfl⟩
  | _ => exact .inl (keep ⟨⟨rfl, rfl, rfl, rfl, rfl, rfl⟩, rfl⟩ rfl)

structure Config.Exporting (c : Config) : Prop where
  exported : c.engine.program.Exported
  stack {d : DeclId} : d ∈ c.stack → (c.engine.program.decl? d).isSome = true
  body {d : DeclId} {r : Nat} : c.body = some (d, r) → (c.engine.program.decl? d).isSome = true

namespace Config.Exporting

lemma idle {st : Stage} {e : Engine} (h : e.program.Exported) : Exporting ⟨st, [], none, e⟩ := ⟨h, nofun, nofun⟩

lemma owner_live {c : Config} (h : c.Exporting) {site : Analysis.Site} (hs : Stands c.stack c.body site) :
    (c.program.decl? site.owner).isSome = true := by
  obtain ⟨st, S, B, e⟩ := c
  cases hs with
  | decl => exact h.stack List.mem_cons_self
  | body => exact h.body rfl

lemma live_of_move {c c' : Config} (h : c.Exporting) (hm : Move c c') {d : DeclId}
    (hd : d ∈ c'.stack ∨ ∃ r, c'.body = some (d, r)) : (c.program.decl? d).isSome = true := by
  obtain hd | ⟨r, hd⟩ := hd
  · obtain hd | ⟨D, hD, -⟩ := hm.mem_stack hd
    · exact h.stack hd
    · rw [hD]
      rfl
  · cases hm with
    | openBody hD =>
      cases hd
      exact congrArg Option.isSome hD
    | requeue | closeBody | dropBody => cases hd
    | _ => exact h.body hd

lemma move {c c' : Config} (hm : Move c c') (h : c.Exporting) : c'.Exporting := by
  have hlive {d : DeclId} := h.live_of_move hm (d := d)
  obtain ⟨ht, hl, -⟩ | ⟨site, symbol, src, exported, hs, hx, hp⟩ | ⟨e, d, -, hS, -, hB, hs, hr, he⟩ := hm.exports_or
  · exact ⟨h.exported.trade ht hl, fun hd => hl _ (hlive (.inl hd)), fun hd => hl _ (hlive (.inr ⟨_, hd⟩))⟩
  · have hexported : (c.program.decl? exported).isSome = true := by
      unfold Program.tyOf at hx
      cases hD : c.program.decl? exported with
      | none =>
        rw [hD] at hx
        cases hx
      | some D => rfl
    have hdecl (d : DeclId) : c'.program.decl? d = c.program.decl? d := congrArg (·.get? d) hp.quiet.decls
    refine ⟨h.exported.enter hp (h.owner_live hs) hexported, fun hd => ?_, fun hd => ?_⟩ <;> rw [hdecl]
    · exact hlive (.inl hd)
    · exact hlive (.inr ⟨_, hd⟩)
  · refine ⟨?_, fun hd => ?_, fun hd => ?_⟩
    · rw [he]
      exact (h.exported.same hs.toSameExports hr.outlives).deleteDecl d
    · rw [hS] at hd
      cases hd
    · rw [hB] at hd
      cases hd

end Config.Exporting

namespace Program.Exported
variable {p p' : Program}

lemma outlasts : Outlasts Config.Exporting Exported fun _ => True := by
  have upheld : Upheld (fun _ => Config.Exporting) fun _ => True := .ofMoves fun _ _ => Config.Exporting.move
  refine .ofRewire upheld (update_of_kept upheld (fun h => .idle ?_) Config.Exporting.exported fun h => ?_)
    (fun hw h => h.same hw.untold.toSameExports (Retains.rewire hw).outlives) .idle Config.Exporting.exported
  all_goals exact h.same ⟨rfl, rfl, rfl, rfl, rfl, rfl⟩ fun _ h => h

lemma edit (h : p.Exported) (change : Edit) : (p.edit change).Exported := by
  cases change <;> exact h.same ⟨rfl, rfl, rfl, rfl, rfl, rfl⟩ fun _ h => h

lemma reaches {options : Options} {backend : Backend} {allowed : Action → Prop}
    (h : Reaches allowed { options, backend } p) : p.Exported := by
  refine outlasts.reaches (fun _ h => h.edit _) (fun _ h => h.same ⟨rfl, rfl, rfl, rfl, rfl, rfl⟩ fun _ h => h) h ?_
  exact ⟨⟨nofun, nofun, nofun, nofun⟩, ⟨nofun, nofun, nofun, nofun⟩, nofun, nofun, nofun, nofun, nofun⟩

end Program.Exported

namespace Program

/-- However a program is reached, its export tables agree: an export is listed just once under its owner and under what
it emits, and nowhere else; nothing else is listed; both declarations are there; a symbol leads to an export of that
symbol; an export that was accepted, or is to be tried again, is the one its symbol leads to; and only exports that are
there have failed. -/
theorem export_tables_agree {options : Options} {backend : Backend} {p : Program}
    (h : Reaches (fun _ => True) { options, backend } p) :
    (∀ x X, p.exports.get? x = some X → ∀ d,
      ((p.exportOwners.get? d).getD []).count x = (if X.owner = d then 1 else 0) ∧
      ((p.declExports.get? d).getD []).count x = if X.exported = d then 1 else 0) ∧
    (∀ d es, p.exportOwners.get? d = some es ∨ p.declExports.get? d = some es →
      es ≠ [] ∧ ∀ x ∈ es, (p.exports.get? x).isSome = true) ∧
    (∀ x X, p.exports.get? x = some X → (p.decl? X.owner).isSome = true ∧ (p.decl? X.exported).isSome = true) ∧
    (∀ s x, p.symbolExports.get? s = some x → ∃ X, p.exports.get? x = some X ∧ X.symbol = s) ∧
    (∀ x X, p.exports.get? x = some X → X.status = .complete ∨ X.status = .failedRetryable →
      p.symbolExports.get? X.symbol = some x) ∧
    (∀ x X y Y, p.exports.get? x = some X → p.exports.get? y = some Y → X.status = .complete → Y.status = .complete →
      X.symbol = Y.symbol → x = y) ∧
    ∀ x diagnostic, p.failedExports.get? x = some diagnostic → (p.exports.get? x).isSome = true := by
  have ht : p.Exported := .reaches h
  have hlisted {key : Export → DeclId} {lists : Dict DeclId (List ExportId)} (hl : Lists key p.exports lists)
      {d : DeclId}
      {es : List ExportId} (hes : lists.get? d = some es) : es ≠ [] ∧ ∀ x ∈ es, (p.exports.get? x).isSome = true := by
    refine ⟨hl.nonempty hes, fun x hx => ?_⟩
    obtain ⟨X, hX, -⟩ := hl.listed hes hx
    rw [hX]
    rfl
  refine ⟨fun x X hX d => ⟨ht.owners.count_eq hX d, ht.targets.count_eq hX d⟩,
    fun d es hes => hes.elim (hlisted ht.owners) (hlisted ht.targets), fun x X => ht.live, fun s x => ht.symbols,
    fun x X => ht.settled, fun x X y Y hX hY hx hy hsymbol => ?_, fun x diagnostic => ht.failed⟩
  have hx := ht.settled hX (.inl hx)
  have hy := ht.settled hY (.inl hy)
  rw [hsymbol, hy] at hx
  exact (Option.some.inj hx).symm

/-- Two units export one symbol. The one that came second fails, and when it is removed the first one keeps the
symbol. -/
theorem export_tables_agree_collision :
    let text := "export fn entry() void \x7b\x7d\n"
    let p₁ := ((Program.act {} (.edit (.addSource "a" text))).act (.edit (.addSource "b" text))).act .update
    let p₂ := (p₁.act (.edit (.removeUnit 1))).act .update
    p₁.failedExports.keys = [1] ∧ p₁.symbolExports.get? "entry" = some 0 ∧ p₂.exports.keys = [0] ∧
      p₂.symbolExports.get? "entry" = some 0 ∧ ∃ X, p₂.exports.get? 0 = some X ∧ X.symbol = "entry" := by
  intro text p₁ p₂
  have h : Reaches (fun _ => True) {} p₂ :=
    ((((Reaches.refl.act trivial).act trivial).act trivial).act trivial).act trivial
  have hd : p₁.failedExports.keys = [1] ∧ p₁.symbolExports.get? "entry" = some 0 ∧ p₂.exports.keys = [0] ∧
      p₂.symbolExports.get? "entry" = some 0 := by decide +kernel
  obtain ⟨hfailed, hfirst, hkeys, hkept⟩ := hd
  obtain ⟨-, -, -, hsymbols, -⟩ := export_tables_agree h
  exact ⟨hfailed, hfirst, hkeys, hkept, hsymbols _ _ hkept⟩

end Program

end Frontend
