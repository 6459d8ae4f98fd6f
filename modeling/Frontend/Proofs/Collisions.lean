import Frontend.Proofs.BackendCalls

/-! Symbols that two exports ask for. The export that comes first gets the symbol, and the other one fails. It stays
failed when the first one is withdrawn, and is still among the exports that are handed over with its declaration. -/

namespace Frontend

namespace Program
variable {p p' p'' : Program}

def Collides (p : Program) (x : ExportId) (s : String) : Prop :=
  ∃ file span, p.failedExports.get? x = some ⟨file, span, .symbolCollision s⟩

def collision? (p : Program) (x : ExportId) : Option String :=
  match p.failedExports.get? x with
  | some ⟨_, _, .symbolCollision s⟩ => some s
  | _ => none

lemma collides_iff {x : ExportId} {s : String} : p.Collides x s ↔ p.collision? x = some s := by
  unfold Collides collision?
  split
  · next file span t hf =>
    rw [hf]
    simp
  · next hn =>
    refine ⟨?_, fun h => by cases h⟩
    rintro ⟨file, span, hf⟩
    exact absurd hf (hn file span s)

instance (p : Program) (x : ExportId) (s : String) : Decidable (p.Collides x s) := decidable_of_iff _ collides_iff.symm

def HeldFrom (p : Program) (x : ExportId) (s : String) : Prop :=
  ∃ w, p.symbolExports.get? s = some w ∧ w ≠ x ∧ (p.exports.get? w).isSome = true

structure Awards (p : Program) (x : ExportId) (X : Export) : Prop where
  id : X.id = x
  outcome : p.symbolExports.get? X.symbol = some x ∨ X.status = .failed ∧ p.Collides x X.symbol

def Awarded (p : Program) : Prop := ∀ x X, p.exports.get? x = some X → p.Awards x X

structure Drops (p p' : Program) : Prop where
  nextExport : p'.nextExport = p.nextExport
  exports {x : ExportId} {X : Export} : p'.exports.get? x = some X → p.exports.get? x = some X
  symbols {s : String} {x : ExportId} :
    p'.symbolExports.get? s = some x ↔ p.symbolExports.get? s = some x ∧ (p'.exports.get? x).isSome = true
  failed {x : ExportId} {diagnostic : Diagnostic} :
    p'.failedExports.get? x = some diagnostic ↔
      p.failedExports.get? x = some diagnostic ∧ (p'.exports.get? x).isSome = true

namespace Drops

lemma same (h : p.Exported) (hs : p.SameExports p') : p.Drops p' := by
  refine ⟨hs.nextExport, fun hX => hs.exports ▸ hX, fun {s x} => ?_, fun {x diagnostic} => ?_⟩
  · rw [hs.symbolExports, hs.exports]
    refine ⟨fun hx => ⟨hx, ?_⟩, And.left⟩
    obtain ⟨X, hX, -⟩ := h.symbols hx
    exact Option.isSome_of_eq_some hX
  · rw [hs.failedExports, hs.exports]
    exact ⟨fun hx => ⟨hx, h.failed hx⟩, And.left⟩

lemma trans (h : p.Drops p') (h' : p'.Drops p'') : p.Drops p'' := by
  have had {x : ExportId} (hx : (p''.exports.get? x).isSome = true) : (p'.exports.get? x).isSome = true := by
    obtain ⟨X, hX⟩ := Option.isSome_iff_exists.1 hx
    exact Option.isSome_of_eq_some (h'.exports hX)
  refine ⟨h'.nextExport.trans h.nextExport, fun hX => h.exports (h'.exports hX), fun {s x} => ?_,
    fun {x diagnostic} => ?_⟩
  · rw [h'.symbols, h.symbols]
    exact ⟨fun ⟨⟨hs, _⟩, hx⟩ => ⟨hs, hx⟩, fun ⟨hs, hx⟩ => ⟨⟨hs, had hx⟩, hx⟩⟩
  · rw [h'.failed, h.failed]
    exact ⟨fun ⟨⟨hf, _⟩, hx⟩ => ⟨hf, hx⟩, fun ⟨hf, hx⟩ => ⟨⟨hf, had hx⟩, hx⟩⟩

lemma removeExport (h : p.Exported) (id : ExportId) : p.Drops (p.removeExport id) := by
  have hleft {x : ExportId} : ((p.removeExport id).exports.get? x).isSome = true ↔
      id ≠ x ∧ (p.exports.get? x).isSome = true := by
    rw [exports_removeExport]
    split <;> simp_all
  refine ⟨(p.removeExport_withdraws id).nextExport, fun {x Y} hY => ?_, fun {s x} => ?_, fun {x diagnostic} => ?_⟩
  · rw [exports_removeExport] at hY
    split at hY
    · cases hY
    · exact hY
  · have hlive (hs : p.symbolExports.get? s = some x) : (p.exports.get? x).isSome = true := by
      obtain ⟨Y, hY, -⟩ := h.symbols hs
      exact Option.isSome_of_eq_some hY
    rw [hleft, h.symbolExports_removeExport, Option.filter_eq_some_iff]
    simp only [Bool.not_eq_true', decide_eq_false_iff_not]
    constructor
    · rintro ⟨hs, hne⟩
      exact ⟨hs, Ne.symm hne, hlive hs⟩
    · rintro ⟨hs, hne, -⟩
      exact ⟨hs, hne.symm⟩
  · have hlive (hf : p.failedExports.get? x = some diagnostic) := h.failed hf
    rw [hleft, h.failedExports_removeExport]
    split <;> grind

lemma foldl_removeExport (h : p.Exported) (ids : List ExportId) : p.Drops (ids.foldl Program.removeExport p) := by
  induction ids generalizing p with
  | nil => exact same h ⟨rfl, rfl, rfl, rfl, rfl, rfl⟩
  | cons id ids ih => exact (removeExport h id).trans (ih (h.removeExport id))

lemma removeOwnedExports (h : p.Exported) (d : DeclId) : p.Drops (p.removeOwnedExports d) := foldl_removeExport h _

lemma removeExportsOf (h : p.Exported) (d : DeclId) : p.Drops (p.removeExportsOf d) := foldl_removeExport h _

lemma forget (h : p.Exported) (d : DeclId) (D : Decl) : p.Drops (p.forget d D) := by
  have h₁ : Exported { p with failedDecls := p.failedDecls.erase d } :=
    h.same ⟨rfl, rfl, rfl, rfl, rfl, rfl⟩ fun _ h => h
  have hd₁ : p.Drops { p with failedDecls := p.failedDecls.erase d } := same h ⟨rfl, rfl, rfl, rfl, rfl, rfl⟩
  have hd₂ := hd₁.trans (removeOwnedExports h₁ d)
  have hd₃ := hd₂.trans (removeExportsOf (h₁.removeOwnedExports d) d)
  exact ⟨hd₃.nextExport, hd₃.exports, hd₃.symbols, hd₃.failed⟩

lemma deleteDecl {e : Engine} (h : e.program.Exported) (d : DeclId) : e.program.Drops (e.deleteDecl d).program := by
  have keep {p p' : Program} (hs : p.SameExports p') (hl : p.Outlives p') (h : e.program.Drops p ∧ p.Exported) :
      e.program.Drops p' ∧ p'.Exported := ⟨h.1.trans (same h.2 hs), h.2.same hs hl⟩
  have hself := And.intro (same h ⟨rfl, rfl, rfl, rfl, rfl, rfl⟩) h
  refine (Engine.deleteDecl_rule (P := fun p => e.program.Drops p ∧ p.Exported) hself (fun D _ => keep ?_ ?_ hself)
    (fun hw => keep hw.untold.toSameExports (Retains.rewire hw).outlives)
    (fun e x => keep (e.untold_markOutdated x).toSameExports (Retains.markOutdated e x).outlives)
    fun _ D h => ⟨h.1.trans (forget h.2 d D), h.2.forget d D⟩).1
  · unfold detach
    dsimp only
    split <;> exact ⟨rfl, rfl, rfl, rfl, rfl, rfl⟩
  · exact fun x hx => by rwa [decl?, detach_decls]

end Drops

structure SettlesExport (p : Program) (id : ExportId) (p' : Program) : Prop where
  registered {X : Export} : p.exports.get? id = some X → p.symbolExports.get? X.symbol = some id
  nextExport : p'.nextExport = p.nextExport
  symbols : p'.symbolExports = p.symbolExports
  exports {x : ExportId} {X' : Export} : p'.exports.get? x = some X' →
    ∃ X, p.exports.get? x = some X ∧ X'.id = X.id ∧ X'.symbol = X.symbol ∧ (x ≠ id → X' = X)
  live {x : ExportId} : (p'.exports.get? x).isSome = (p.exports.get? x).isSome
  failed {x : ExportId} : x ≠ id → p'.failedExports.get? x = p.failedExports.get? x
  collides {x : ExportId} {s : String} : p'.Collides x s → p.Collides x s

lemma SettlesExport.of {id : ExportId} {X : Export} {status : ExportStatus} {failed : Dict ExportId Diagnostic}
    (hX : p.exports.get? id = some X) (hs : p.symbolExports.get? X.symbol = some id)
    (hf : failed = p.failedExports ∨ ∃ file reason,
      failed = p.failedExports.insert id ⟨file, X.src, .exportRefused reason⟩) :
    p.SettlesExport id { p.setExportStatus id status with failedExports := failed } := by
  have hget (x : ExportId) : (p.setExportStatus id status).exports.get? x =
      if id = x then (p.exports.get? x).map ({ · with status }) else p.exports.get? x := Dict.get?_modify ..
  have hfailed {x : ExportId} : failed.get? x = p.failedExports.get? x ∨
      x = id ∧ ∃ file span reason, failed.get? x = some ⟨file, span, .exportRefused reason⟩ := by
    obtain rfl | ⟨file, reason, rfl⟩ := hf
    · exact .inl rfl
    · rw [Dict.get?_insert]
      split
      · next he => exact .inr ⟨he.symm, file, X.src, reason, rfl⟩
      · exact .inl rfl
  refine ⟨fun hY => ?_, rfl, rfl, fun {x X'} hX' => ?_, fun {x} => ?_, fun {x} hx => ?_, ?_⟩
  · cases hX.symm.trans hY
    exact hs
  · change (p.setExportStatus id status).exports.get? x = some X' at hX'
    rw [hget] at hX'
    split at hX'
    · next he =>
      obtain ⟨Y, hY, rfl⟩ := Option.map_eq_some_iff.1 hX'
      exact ⟨Y, hY, rfl, rfl, fun hx => absurd he.symm hx⟩
    · exact ⟨X', hX', rfl, rfl, fun _ => rfl⟩
  · change ((p.setExportStatus id status).exports.get? x).isSome = _
    rw [hget]
    split
    · exact Option.isSome_map ..
    · rfl
  · exact hfailed.resolve_right fun he => hx he.1
  · rintro x s ⟨file, span, hc⟩
    obtain he | ⟨-, file', span', reason, he⟩ := hfailed (x := x)
    · exact ⟨file, span, he ▸ hc⟩
    · cases hc.symm.trans he

end Program

lemma Config.Exporting.exports_step {c c' : Config} (hm : Move c c') (h : c.Exporting) :
    c.program.Drops c'.program ∨ (∃ id, c.program.SettlesExport id c'.program) ∨
      ∃ symbol src owner exported, c.program.Enters symbol src owner exported c'.program := by
  obtain ⟨ht, -⟩ | ⟨site, symbol, src, exported, -, -, he⟩ | ⟨e, d, -, -, -, -, hs, hr, he⟩ := hm.exports_or
  · generalize c'.program = p' at ht
    cases ht with
    | leave hs => exact .inl (.same h.exported hs)
    | withdraw d => exact .inl (.removeOwnedExports h.exported d)
    | settle hX hs hf => exact .inr (.inl ⟨_, .of hX hs hf⟩)
  · exact .inr (.inr ⟨symbol, src, site.owner, exported, he⟩)
  · rw [Config.program, Config.program, he]
    have hsame := h.exported.same hs.toSameExports hr.outlives
    exact .inl ((Program.Drops.same h.exported hs.toSameExports).trans (.deleteDecl hsame d))

namespace Program
variable {p p' : Program}

namespace Awarded

lemma drop (h : p.Awarded) (hd : p.Drops p') : p'.Awarded := by
  intro x X hX
  obtain ⟨hid, hout⟩ := h x X (hd.exports hX)
  have hlive : (p'.exports.get? x).isSome = true := Option.isSome_of_eq_some hX
  refine ⟨hid, hout.imp (fun hs => hd.symbols.2 ⟨hs, hlive⟩) fun ⟨hst, file, span, hf⟩ => ?_⟩
  exact ⟨hst, file, span, hd.failed.2 ⟨hf, hlive⟩⟩

lemma settle {id : ExportId} (h : p.Awarded) (hs : p.SettlesExport id p') : p'.Awarded := by
  intro x X' hX'
  obtain ⟨X, hX, hid, hsymbol, hother⟩ := hs.exports hX'
  obtain ⟨hid₀, hout⟩ := h x X hX
  refine ⟨hid.trans hid₀, ?_⟩
  rw [hs.symbols, hsymbol]
  by_cases hx : x = id
  · subst hx
    exact .inl (hs.registered hX)
  · refine hout.imp_right fun ⟨hst, file, span, hf⟩ => ⟨hother hx ▸ hst, file, span, ?_⟩
    rw [hs.failed hx]
    exact hf

lemma enter {symbol : String} {src : Span} {owner exported : DeclId} (h : p.Awarded)
    (hp : p.Enters symbol src owner exported p') : p'.Awarded := by
  intro x X hX
  cases hp with
  | collide file hn =>
    rw [collideExport_get?] at hX
    have hfailed (x : ExportId) : (p.collideExport file symbol src owner exported).failedExports.get? x =
        if p.nextExport = x then some ⟨file, src, .symbolCollision symbol⟩ else p.failedExports.get? x :=
      Dict.get?_insert ..
    split at hX
    · next hx =>
      cases hX
      exact ⟨hx, .inr ⟨rfl, file, src, (hfailed x).trans (if_pos hx)⟩⟩
    · next hx =>
      obtain ⟨hid, hout⟩ := h x X hX
      refine ⟨hid, hout.imp_right ?_⟩
      rintro ⟨hst, file, span, hf⟩
      exact ⟨hst, file, span, ((hfailed x).trans (if_neg hx)).trans hf⟩
  | claim hn =>
    rw [claimExport_get?] at hX
    have hsymbol (s : String) : (p.claimExport symbol src owner exported).symbolExports.get? s =
        if symbol = s then some p.nextExport else p.symbolExports.get? s := Dict.get?_insert ..
    split at hX
    · next hx =>
      cases hX
      exact ⟨hx, .inl (((hsymbol symbol).trans (if_pos rfl)).trans (congrArg some hx))⟩
    · next hx =>
      obtain ⟨hid, hout⟩ := h x X hX
      refine ⟨hid, hout.imp_left fun hs => ((hsymbol X.symbol).trans (if_neg ?_)).trans hs⟩
      rintro rfl
      cases hn.symm.trans hs

end Awarded

/-- What one step does to collisions. One is recorded while another export has the symbol; that stays so unless the
export is withdrawn; and what was withdrawn does not come back. -/
structure Contests (p p' : Program) : Prop where
  recorded {x : ExportId} {s : String} : p'.Collides x s → p.Collides x s ∨ p'.HeldFrom x s
  held {x : ExportId} {s : String} : p.HeldFrom x s →
    p'.HeldFrom x s ∨ ∃ w, p.symbolExports.get? s = some w ∧ w ≠ x ∧ p'.exports.get? w = none
  nextExport : p.nextExport ≤ p'.nextExport
  gone {w : ExportId} : w < p.nextExport → p.exports.get? w = none → p'.exports.get? w = none

namespace Contests

lemma drop (hd : p.Drops p') : p.Contests p' := by
  refine ⟨fun ⟨file, span, hf⟩ => .inl ⟨file, span, (hd.failed.1 hf).1⟩, fun ⟨w, hs, hne, _⟩ => ?_,
    Nat.le_of_eq hd.nextExport.symm, fun {w} _ hw => Option.eq_none_iff_forall_ne_some.2 fun W hW => ?_⟩
  · cases hw : p'.exports.get? w with
    | none => exact .inr ⟨w, hs, hne, hw⟩
    | some W =>
      have hlive : (p'.exports.get? w).isSome = true := Option.isSome_of_eq_some hw
      exact .inl ⟨w, hd.symbols.2 ⟨hs, hlive⟩, hne, hlive⟩
  · cases hw.symm.trans (hd.exports hW)

lemma settle {id : ExportId} (hs : p.SettlesExport id p') : p.Contests p' := by
  refine ⟨fun hc => .inl (hs.collides hc), fun ⟨w, hw, hne, hlive⟩ => .inl ⟨w, ?_, hne, ?_⟩,
    Nat.le_of_eq hs.nextExport.symm, fun {w} _ hw => ?_⟩
  · rwa [hs.symbols]
  · rwa [hs.live]
  · rw [← Option.isNone_iff_eq_none, ← Option.not_isSome, hs.live, hw]
    rfl

variable {symbol : String} {src : Span} {owner exported : DeclId}

lemma collide {file : FileId} (he : p.Exported) (hn : p.symbolExports.get? symbol ≠ none) :
    p.Contests (p.collideExport file symbol src owner exported) := by
  have keep {x : ExportId} {s : String} (h : p.HeldFrom x s) :
      (p.collideExport file symbol src owner exported).HeldFrom x s := by
    obtain ⟨w, hs, hne, hlive⟩ := h
    refine ⟨w, hs, hne, ?_⟩
    rw [collideExport_get?]
    split
    · rfl
    · exact hlive
  refine ⟨fun {x s} hc => ?_, fun h => .inl (keep h), Nat.le_succ _, fun {w} hlt hw => ?_⟩
  · obtain ⟨file', span, hf⟩ := hc
    change (p.failedExports.insert p.nextExport _).get? x = _ at hf
    rw [Dict.get?_insert] at hf
    split at hf
    · next hx =>
      cases hf
      obtain ⟨w, hw⟩ := Option.ne_none_iff_exists'.1 hn
      obtain ⟨W, hW, -⟩ := he.symbols hw
      refine .inr (keep ⟨w, hw, ?_, Option.isSome_of_eq_some hW⟩)
      rintro rfl
      exact absurd (he.numbered hW) (hx ▸ Nat.lt_irrefl _)
    · exact .inl ⟨file', span, hf⟩
  · rw [collideExport_get?, if_neg (Nat.ne_of_gt hlt)]
    exact hw

lemma claim (hn : p.symbolExports.get? symbol = none) : p.Contests (p.claimExport symbol src owner exported) := by
  refine ⟨.inl, fun {x s} ⟨w, hs, hne, hlive⟩ => .inl ⟨w, ?_, hne, ?_⟩, Nat.le_succ _, fun {w} hlt hw => ?_⟩
  · refine ((Dict.get?_insert ..).trans (if_neg ?_)).trans hs
    rintro rfl
    cases hn.symm.trans hs
  · rw [claimExport_get?]
    split
    · rfl
    · exact hlive
  · rw [claimExport_get?, if_neg (Nat.ne_of_gt hlt)]
    exact hw

lemma enter (he : p.Exported) (hp : p.Enters symbol src owner exported p') : p.Contests p' := by
  cases hp with
  | collide file hn => exact collide he hn
  | claim hn => exact claim hn

end Contests

end Program

lemma Config.Exporting.contests {c c' : Config} (hm : Move c c') (h : c.Exporting) :
    c.program.Contests c'.program := by
  obtain hd | ⟨id, hs⟩ | ⟨_, _, _, _, he⟩ := h.exports_step hm
  · exact .drop hd
  · exact .settle hs
  · exact .enter h.exported he

lemma Config.Exporting.awarded_move {c c' : Config} (hm : Move c c') (h : c.Exporting) (ha : c.program.Awarded) :
    c'.program.Awarded := by
  obtain hd | ⟨id, hs⟩ | ⟨_, _, _, _, he⟩ := h.exports_step hm
  · exact ha.drop hd
  · exact ha.settle hs
  · exact ha.enter he

namespace Program
variable {p p' : Program}

lemma Awarded.same (h : p.Exported ∧ p.Awarded) (hs : p.SameExports p') (hl : p.Outlives p') :
    p'.Exported ∧ p'.Awarded :=
  ⟨h.1.same hs hl, h.2.drop (.same h.1 hs)⟩

lemma Awarded.outlasts : Outlasts (fun c => c.Exporting ∧ c.program.Awarded) (fun p => p.Exported ∧ p.Awarded)
    fun _ => True := by
  have upheld : Upheld (fun _ (c : Config) => c.Exporting ∧ c.program.Awarded) fun _ => True :=
    .ofMoves fun _ _ hm h => ⟨h.1.move hm, h.1.awarded_move hm h.2⟩
  have update {p : Program} : p.Exported ∧ p.Awarded → p.update.2.Exported ∧ p.update.2.Awarded := by
    refine update_of_kept (P := fun p => p.Exported ∧ p.Awarded) upheld (fun h => ?_) (fun h => ⟨h.1.exported, h.2⟩)
      fun h => same h ⟨rfl, rfl, rfl, rfl, rfl, rfl⟩ fun _ h => h
    have hg : p.nextGeneration.Exported ∧ p.nextGeneration.Awarded := same h ⟨rfl, rfl, rfl, rfl, rfl, rfl⟩ fun _ h => h
    exact ⟨.idle hg.1, hg.2⟩
  exact .ofRewire upheld update (fun hw h => same h hw.untold.toSameExports (Retains.rewire hw).outlives)
    (fun h => ⟨.idle h.1, h.2⟩) fun h => ⟨h.1.exported, h.2⟩

lemma Awarded.reaches {options : Options} {backend : Backend} {allowed : Action → Prop}
    (h : Reaches allowed { options, backend } p) : p.Awarded := by
  have hrefl : Reaches allowed { options, backend } { options, backend } := .refl
  have empty : Exported { options, backend } := .reaches hrefl
  refine (outlasts.reaches (fun {p change} _ h => ?_) (fun _ h => same h ⟨rfl, rfl, rfl, rfl, rfl, rfl⟩ fun _ h => h) h
    ⟨empty, nofun⟩).2
  cases change <;> exact same h ⟨rfl, rfl, rfl, rfl, rfl, rfl⟩ fun _ h => h

/-- One step makes one call at most. If that hands over exports, they emit a declaration that is there, and each of them
has its symbol, or has lost it to another. -/
def Offers (p p' : Program) : Prop :=
  p'.backend.calls = p.backend.calls ∨ ∃ record, p'.backend.calls = p.backend.calls ++ [record] ∧
    ∀ D Xs, record.call = .updateExports D Xs → p.decl? D.id = some D ∧ ∀ X ∈ Xs, X.exported = D.id ∧
      p.exports.get? X.id = some X ∧
      (p.symbolExports.get? X.symbol = some X.id ∨ X.status = .failed ∧ p.Collides X.id X.symbol)

lemma Awarded.offered {d : DeclId} {X : Export} (ha : p.Awarded) (he : p.Exported) (hX : X ∈ p.exportsOf d) :
    X.exported = d ∧ p.exports.get? X.id = some X ∧
      (p.symbolExports.get? X.symbol = some X.id ∨ X.status = .failed ∧ p.Collides X.id X.symbol) := by
  obtain ⟨x, hx, hX⟩ := List.mem_filterMap.1 hX
  obtain ⟨hid, hout⟩ := ha x X hX
  have hd : X.exported = d := by
    cases hl : p.declExports.get? d with
    | none =>
      rw [hl] at hx
      cases hx
    | some es =>
      rw [hl] at hx
      obtain ⟨Y, hY, hd⟩ := he.targets.listed hl hx
      cases hX.symm.trans hY
      exact hd
  rw [hid]
  exact ⟨hd, hX, hout⟩

end Program

lemma Config.Dealing.offers {p : Program} {c c' : Config} (hm : Move c c') (h : c.Dealing p)
    (he : c.program.Exported) (ha : c.program.Awarded) : c.program.Offers c'.program := by
  obtain ⟨hb, -⟩ | ⟨record, hc⟩ := h.calls hm
  · exact .inl (congrArg Backend.calls hb)
  · refine .inr ⟨record, hc.takes.calls h.linked.recording, fun D Xs hcall => ?_⟩
    obtain ⟨hD, rfl⟩ := hc.exports hcall
    exact ⟨hD, fun X hX => ha.offered he hX⟩

namespace Program
variable {p : Program}

/-- In every run, whatever the backend is told to refuse: in each of an update's own steps, which `update_steps` goes
along with, an export is handed over only with the declaration it emits, and only if it has its symbol or has lost it to
another. -/
theorem exports_offered {options : Options} {rules : List ((BackendHook × String) × BackendError)}
    (h : Operates { options, backend := .recording { rules } } p) :
    ∃ st queue, Relation.ReflTransGen (fun c c' => Move c c' ∧ c.engine.program.Offers c'.engine.program) p.resting
      ⟨st, [], none, ⟨p.update.2, queue⟩⟩ := by
  obtain ⟨hr, hl, -⟩ := h.rests
  have hrest : p.resting.Exporting := .idle (.reaches h.reaches)
  obtain ⟨st, queue, hpath, -⟩ := update_steps
    (P := fun c => c.Dealing _ ∧ c.Exporting ∧ c.engine.program.Awarded)
    (R := fun c c' => c.engine.program.Offers c'.engine.program)
    (fun hm he ⟨hd, hx, ha⟩ => ⟨hd.move hm he, hx.move hm, hx.awarded_move hm ha⟩)
    (fun hm ⟨hd, hx, ha⟩ => hd.offers hm hx.exported ha) ⟨h.dealing hr hl, hrest, .reaches h.reaches⟩
  exact ⟨st, queue, hpath⟩

def offers (p : Program) : List (String × List String) :=
  p.backend.calls.filterMap fun record =>
    match record.call with
    | .updateExports D Xs => some (D.name, Xs.map (·.symbol))
    | _ => none

/-- A symbol is lost to another declaration, and handed over all the same with the next export. -/
theorem lost_symbol_offered :
    let text := "fn a() void \x7b\x7d fn b() void \x7b\x7d comptime \x7b @export(a, \"s\"); \x7d\n" ++
      "comptime \x7b @export(b, \"s\"); \x7d comptime \x7b @export(b, \"t\"); \x7d\n"
    let p := (Program.edit { backend := .recording {} } (.addSource "a" text)).update.2
    p.offers = [("a", ["s"]), ("b", ["s", "t"])] ∧ p.symbolExports.get? "s" = some 0 ∧
      (p.exports.get? 0).map (·.exported) = p.lookup? 0 "a" := by
  intro text p
  decide +kernel

/-- Two declarations are exported under one symbol. -/
theorem exports_offered_collision :
    let text := "fn a() void \x7b\x7d fn b() void \x7b\x7d comptime \x7b @export(a, \"s\"); \x7d\n" ++
      "comptime \x7b @export(b, \"s\"); \x7d\n"
    let p := Program.edit { backend := .recording {} } (.addSource "a" text)
    p.update.2.offers = [("a", ["s"])] ∧ ∃ st queue, Relation.ReflTransGen
      (fun c c' => Move c c' ∧ c.engine.program.Offers c'.engine.program) p.resting
      ⟨st, [], none, ⟨p.update.2, queue⟩⟩ := by
  intro text p
  have h : Operates { backend := .recording {} } p := .edit .refl _
  exact ⟨by decide +kernel, exports_offered h⟩

/-- Another export had the symbol in the course of the moves, with the collision recorded, and was withdrawn. -/
def Forsakes (c c' : Config) (x : ExportId) (s : String) : Prop :=
  ∃ w c₁, Moves c c₁ ∧ Moves c₁ c' ∧ c₁.engine.program.Collides x s ∧ c₁.engine.program.symbolExports.get? s = some w ∧
    w ≠ x ∧ w < c'.engine.program.nextExport ∧ c'.engine.program.exports.get? w = none

lemma Forsakes.tail {c c' c'' : Config} {x : ExportId} {s : String} (h : Forsakes c c' x s) (hm : Move c' c'')
    (hc : c'.program.Contests c''.engine.program) : Forsakes c c'' x s := by
  obtain ⟨w, c₁, hto, hfrom, hcol, hs, hne, hlt, hw⟩ := h
  exact ⟨w, c₁, hto, hfrom.tail hm, hcol, hs, hne, Nat.lt_of_lt_of_le hlt hc.nextExport, hc.gone hlt hw⟩

/-- However a program is reached: if an update leaves a collision recorded, another export has the symbol; or it had it
in the course of the update's own moves, and was withdrawn; or the collision was recorded before, when no other export
had the symbol. -/
theorem collision_held_or_forsaken {options : Options} {backend : Backend} {x : ExportId} {s : String}
    (h : Reaches (fun _ => True) { options, backend } p) (hc : p.update.2.Collides x s) :
    p.update.2.HeldFrom x s ∨ (∃ st queue, Forsakes p.resting ⟨st, [], none, ⟨p.update.2, queue⟩⟩ x s) ∨
      p.Collides x s ∧ ¬ p.HeldFrom x s := by
  obtain ⟨st, queue, hpath, -⟩ := update_steps (P := Config.Exporting)
    (R := fun c c' => c.Exporting ∧ c.engine.program.Contests c'.engine.program) (fun hm _ hc => hc.move hm)
    (fun hm hc => ⟨hc, hc.contests hm⟩) (.idle (.reaches h))
  suffices hout : ∀ c, Relation.ReflTransGen _ p.resting c → c.engine.program.Collides x s →
      c.engine.program.HeldFrom x s ∨ Forsakes p.resting c x s ∨ p.Collides x s ∧ ¬ p.HeldFrom x s by
    exact (hout _ hpath hc).imp_right (.imp_left fun hf => ⟨st, queue, hf⟩)
  intro c hpath
  induction hpath with
  | refl => exact fun hc => (em _).imp_right fun hn => .inr ⟨hc, hn⟩
  | @tail c c' hpath hm ih =>
    obtain ⟨hm, hx, hstep⟩ := hm
    intro hc'
    obtain hc | hheld := hstep.recorded hc'
    · obtain hheld | hf | hold := ih hc
      · obtain hheld | ⟨w, hs, hne, hw⟩ := hstep.held hheld
        · exact .inl hheld
        · obtain ⟨W, hW, -⟩ := hx.exported.symbols hs
          have hto : Moves p.resting c := hpath.lift id fun _ _ h => h.1
          have hlt := Nat.lt_of_lt_of_le (hx.exported.numbered hW) hstep.nextExport
          exact .inr (.inl ⟨w, c, hto, .single hm, hc, hs, hne, hlt, hw⟩)
      · exact .inr (.inl (hf.tail hm hstep))
      · exact .inr (.inr hold)
    · exact .inl hheld

/-- Two units export one symbol, and the first of them is removed: the second one keeps its collision, and does not get
the symbol. -/
theorem collision_outlasts_holder :
    let text := "export fn entry() void \x7b\x7d\n"
    let p₁ := ((Program.act {} (.edit (.addSource "a" text))).act (.edit (.addSource "b" text))).act .update
    let p₂ := p₁.act (.edit (.removeUnit 0))
    p₂.update.1.toOption.isSome = true ∧ p₂.update.2.exports.keys = [1] ∧
      p₂.update.2.Collides 1 "entry" ∧ p₂.update.2.symbolExports.get? "entry" = none := by
  intro text p₁ p₂
  decide +kernel

/-- Two units export one symbol, and the second of them is changed. -/
theorem collision_held_or_forsaken_changed :
    let text := "export fn entry() void \x7b\x7d\n"
    let p₁ := ((Program.act {} (.edit (.addSource "a" text))).act (.edit (.addSource "b" text))).act .update
    let p₂ := p₁.act (.edit (.setSource 1 (text ++ "const x = 1;\n")))
    p₂.update.2.Collides 1 "entry" ∧ p₂.update.2.symbolExports.get? "entry" = some 0 ∧
      (p₂.update.2.HeldFrom 1 "entry" ∨
        (∃ st queue, Forsakes p₂.resting ⟨st, [], none, ⟨p₂.update.2, queue⟩⟩ 1 "entry") ∨
        p₂.Collides 1 "entry" ∧ ¬ p₂.HeldFrom 1 "entry") := by
  intro text p₁ p₂
  have h : Reaches (fun _ => True) {} p₂ :=
    (((Reaches.refl.act trivial).act trivial).act trivial).act trivial
  have hd : p₂.update.2.Collides 1 "entry" ∧ p₂.update.2.symbolExports.get? "entry" = some 0 := by decide +kernel
  exact ⟨hd.1, hd.2, collision_held_or_forsaken h hd.1⟩

end Program

end Frontend
