import Frontend.Proofs.Program

/-! The export tables under the operations that take exports away. An export is listed with the declaration that asked
for it, so that all exports of a declaration can be taken back. -/

namespace Frontend.Program

def ownedExports (p : Program) (d : DeclId) : List ExportId := (p.exportOwners.get? d).getD []

structure Withdraws (p p' : Program) : Prop where
  nextExport : p'.nextExport = p.nextExport
  had {x : ExportId} {X' : Export} : p'.exports.get? x = some X' →
    ∃ X, p.exports.get? x = some X ∧ X'.owner = X.owner ∧ X'.symbol = X.symbol
  listed {x : ExportId} {d : DeclId} : x ∈ p.ownedExports d → (p'.exports.get? x).isSome = true → x ∈ p'.ownedExports d
  lists {x : ExportId} {d : DeclId} : x ∈ p'.ownedExports d → x ∈ p.ownedExports d

namespace Withdraws
variable {p p' p'' : Program}

lemma ofSame (hx : p'.exports = p.exports) (ho : p'.exportOwners = p.exportOwners)
    (hn : p'.nextExport = p.nextExport) : p.Withdraws p' := by
  refine ⟨hn, fun {x X'} h => ⟨X', hx ▸ h, rfl, rfl⟩, fun {x d} h _ => ?_, fun {x d} h => ?_⟩
  · rwa [ownedExports, ho]
  · rwa [ownedExports, ho] at h

lemma refl (p : Program) : p.Withdraws p := .ofSame rfl rfl rfl

lemma trans (h : p.Withdraws p') (h' : p'.Withdraws p'') : p.Withdraws p'' := by
  refine ⟨h'.nextExport.trans h.nextExport, fun {x X''} hx => ?_, fun {x d} hx hs => ?_,
    fun hx => h.lists (h'.lists hx)⟩
  · obtain ⟨X', hX', ho', hs'⟩ := h'.had hx
    obtain ⟨X, hX, ho, hs⟩ := h.had hX'
    exact ⟨X, hX, ho'.trans ho, hs'.trans hs⟩
  · obtain ⟨X'', hX''⟩ := Option.isSome_iff_exists.1 hs
    obtain ⟨X', hX', -⟩ := h'.had hX''
    exact h'.listed (h.listed hx (by rw [hX', Option.isSome_some])) hs

end Withdraws

lemma getD_unlist (lists : Dict DeclId (List ExportId)) (d x : DeclId) (id : ExportId) :
    ((unlist lists d id).get? x).getD [] =
      if d = x then ((lists.get? x).getD []).filter (· ≠ id) else (lists.get? x).getD [] := by
  unfold unlist
  by_cases hx : d = x
  · subst hx
    rw [if_pos rfl]
    cases hl : lists.get? d with
    | none => simp [hl]
    | some es =>
      dsimp only
      split
      · next hf => rw [Dict.get?_erase, if_pos rfl, Option.getD_some, Option.getD_none, hf]
      · rw [Dict.get?_insert, if_pos rfl, Option.getD_some, Option.getD_some]
  · rw [if_neg hx]
    split
    · rfl
    · split
      · rw [Dict.get?_erase, if_neg hx]
      · rw [Dict.get?_insert, if_neg hx]

lemma removeExport_withdraws (p : Program) (id : ExportId) : p.Withdraws (p.removeExport id) := by
  unfold removeExport
  split
  · exact .refl p
  · next X hX =>
    have left {x : ExportId} {d : DeclId} : x ∈ ((unlist p.exportOwners X.owner id).get? d).getD [] ↔
        x ∈ p.ownedExports d ∧ (X.owner = d → x ≠ id) := by
      rw [getD_unlist]
      split
      · next h => simp [h, ownedExports]
      · next h => simp [h, ownedExports]
    refine ⟨rfl, fun {x X'} hx => ?_, fun {x d} hx hs => ?_, fun hx => (left.1 hx).1⟩
    · change (p.exports.erase id).get? x = some X' at hx
      rw [Dict.get?_erase] at hx
      split at hx
      · cases hx
      · exact ⟨X', hx, rfl, rfl⟩
    · refine left.2 ⟨hx, fun _ => ?_⟩
      rintro rfl
      change ((p.exports.erase x).get? x).isSome = true at hs
      rw [Dict.get?_erase, if_pos rfl] at hs
      cases hs

lemma exports_removeExport (p : Program) (id x : ExportId) :
    (p.removeExport id).exports.get? x = if id = x then none else p.exports.get? x := by
  unfold removeExport
  split
  · next hid =>
    split
    · next he => exact he ▸ hid
    · rfl
  · exact Dict.get?_erase ..

lemma exports_foldl_removeExport (ids : List ExportId) (p : Program) (x : ExportId) :
    (ids.foldl removeExport p).exports.get? x = if x ∈ ids then none else p.exports.get? x := by
  induction ids generalizing p with
  | nil => simp
  | cons id ids ih =>
    rw [List.foldl_cons, ih, exports_removeExport]
    grind

lemma foldl_removeExport_withdraws (ids : List ExportId) (p : Program) : p.Withdraws (ids.foldl removeExport p) :=
  ids.foldlRecOn _ (.refl p) fun q h id _ => h.trans (q.removeExport_withdraws id)

lemma removeOwnedExports_withdraws (p : Program) (d : DeclId) : p.Withdraws (p.removeOwnedExports d) :=
  foldl_removeExport_withdraws _ p

lemma removeOwnedExports_get? {p : Program} {d : DeclId} {x : ExportId}
    (hx : x ∈ (p.removeOwnedExports d).ownedExports d) :
    (p.removeOwnedExports d).exports.get? x = none := by
  have hmem := (p.removeOwnedExports_withdraws d).lists hx
  exact (exports_foldl_removeExport ..).trans (if_pos hmem)

/-! What is done with exports while declarations are analyzed. -/

structure SameExports (p p' : Program) : Prop where
  exports : p'.exports = p.exports
  nextExport : p'.nextExport = p.nextExport
  exportOwners : p'.exportOwners = p.exportOwners
  declExports : p'.declExports = p.declExports
  symbolExports : p'.symbolExports = p.symbolExports
  failedExports : p'.failedExports = p.failedExports

lemma SameExports.trans {p p' p'' : Program} (h : p.SameExports p') (h' : p'.SameExports p'') : p.SameExports p'' :=
  ⟨h'.exports.trans h.exports, h'.nextExport.trans h.nextExport, h'.exportOwners.trans h.exportOwners,
    h'.declExports.trans h.declExports, h'.symbolExports.trans h.symbolExports, h'.failedExports.trans h.failedExports⟩

structure Untold (p p' : Program) : Prop extends p.SameExports p' where
  backend : p'.backend = p.backend

lemma Untold.trans {p p' p'' : Program} (h : p.Untold p') (h' : p'.Untold p'') : p.Untold p'' :=
  ⟨h.toSameExports.trans h'.toSameExports, h'.backend.trans h.backend⟩

inductive Trades (p : Program) : Program → Prop
  | leave {p'} (h : p.SameExports p') : Trades p p'
  | withdraw (d : DeclId) : Trades p (p.removeOwnedExports d)
  | settle {id : ExportId} {X : Export} {status : ExportStatus} {failed : Dict ExportId Diagnostic}
      (hX : p.exports.get? id = some X) (hs : p.symbolExports.get? X.symbol = some id)
      (hf : failed = p.failedExports ∨ ∃ file reason,
        failed = p.failedExports.insert id ⟨file, X.src, .exportRefused reason⟩) :
      Trades p { p.setExportStatus id status with failedExports := failed }

def claimExport (p : Program) (symbol : String) (src : Span) (owner exported : DeclId) : Program :=
  { p.addExport symbol src owner exported with symbolExports := p.symbolExports.insert symbol p.nextExport }

def collideExport (p : Program) (file : FileId) (symbol : String) (src : Span) (owner exported : DeclId) : Program :=
  { (p.addExport symbol src owner exported).setExportStatus p.nextExport .failed with
    failedExports := p.failedExports.insert p.nextExport ⟨file, src, .symbolCollision symbol⟩ }

lemma claimExport_quiet (p : Program) (symbol : String) (src : Span) (owner exported : DeclId) :
    p.Quiet (p.claimExport symbol src owner exported) := ⟨rfl, rfl, rfl, rfl, rfl, rfl, rfl, rfl, rfl, rfl, rfl, rfl⟩

lemma collideExport_quiet (p : Program) (file : FileId) (symbol : String) (src : Span) (owner exported : DeclId) :
    p.Quiet (p.collideExport file symbol src owner exported) :=
  ⟨rfl, rfl, rfl, rfl, rfl, rfl, rfl, rfl, rfl, rfl, rfl, rfl⟩

lemma claimExport_get? (p : Program) (symbol : String) (src : Span) (owner exported : DeclId) (x : ExportId) :
    (p.claimExport symbol src owner exported).exports.get? x =
      if p.nextExport = x then some ⟨p.nextExport, symbol, src, owner, exported, .inProgress⟩ else p.exports.get? x :=
  Dict.get?_insert ..

lemma collideExport_get? (p : Program) (file : FileId) (symbol : String) (src : Span) (owner exported : DeclId)
    (x : ExportId) : (p.collideExport file symbol src owner exported).exports.get? x =
      if p.nextExport = x then some ⟨p.nextExport, symbol, src, owner, exported, .failed⟩ else p.exports.get? x := by
  change ((p.claimExport symbol src owner exported).exports.modify p.nextExport _).get? x = _
  rw [Dict.get?_modify, claimExport_get?]
  split <;> rfl

inductive Enters (p : Program) (symbol : String) (src : Span) (owner exported : DeclId) : Program → Prop
  | collide (file : FileId) (hn : p.symbolExports.get? symbol ≠ none) :
      p.Enters symbol src owner exported (p.collideExport file symbol src owner exported)
  | claim (hn : p.symbolExports.get? symbol = none) :
      p.Enters symbol src owner exported (p.claimExport symbol src owner exported)

lemma Enters.quiet {p p' : Program} {symbol : String} {src : Span} {owner exported : DeclId}
    (h : p.Enters symbol src owner exported p') : p.Quiet p' := by
  cases h with
  | collide file => exact p.collideExport_quiet ..
  | claim => exact p.claimExport_quiet ..

lemma Enters.backend {p p' : Program} {symbol : String} {src : Span} {owner exported : DeclId}
    (h : p.Enters symbol src owner exported p') : p'.backend = p.backend := by
  cases h <;> rfl

end Frontend.Program
