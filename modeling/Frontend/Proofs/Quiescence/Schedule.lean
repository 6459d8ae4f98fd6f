import Frontend.Proofs.Quiescence.Attention

/-! Declarations that are still to be analyzed. One that is outdated, and a root that was never analyzed, is due: it is
looked at next or has a place in the queue. With the queue empty there is none. -/

namespace Frontend

def Config.Due (c : Config) (d : DeclId) : Prop := c.stage = .due d ∨ .analyze d ∈ c.engine.queue.items

def Decl.Stated (K : ItemSummary → Prop) (D : Decl) : Prop := ∃ i, K i ∧ i.hash = D.contents ∧ i.isRoot = D.isRoot

structure Config.Minds (K : ItemSummary → Prop) (c : Config) (d : DeclId) (D : Decl) : Prop where
  outdated : D.state = .outdated → c.Due d
  unreferenced : D.state = .unreferenced → D.Stated K ∧ (D.isRoot = true → c.Due d)
  inProgress : D.state = .inProgress → d ∈ c.stack

structure Config.Scheduled (K : ItemSummary → Prop) (c : Config) : Prop where
  minds {d D} : c.engine.program.decl? d = some D → c.Minds K d D
  draining : c.stage = .draining → c.engine.queue.items = []

namespace Config
variable {K : ItemSummary → Prop} {c c' : Config} {d : DeclId} {D D' : Decl}

lemma Minds.ofSettled (h : D.state.isUnsettled = false) : c.Minds K d D := by
  constructor <;> intro hs <;> rw [hs] at h <;> cases h

lemma Minds.listed (hs : D.state = .outdated) (hd : c.Due d) : c.Minds K d D := by
  refine ⟨fun _ => hd, fun h => ?_, fun h => ?_⟩ <;> cases hs.symm.trans h

lemma Minds.same (h : c.Minds K d D) (hs : D'.state = D.state) (hc : D'.contents = D.contents)
    (hr : D'.isRoot = D.isRoot) (hdue : D'.state.Due → c.Due d → c'.Due d)
    (hS : D'.state = .inProgress → d ∈ c.stack → d ∈ c'.stack) : c'.Minds K d D' := by
  refine ⟨fun h' => hdue (.inl h') (h.outdated (hs.symm.trans h')), fun h' => ?_,
    fun h' => hS h' (h.inProgress (hs.symm.trans h'))⟩
  obtain ⟨⟨i, hi, hh, hir⟩, hdue'⟩ := h.unreferenced (hs.symm.trans h')
  exact ⟨⟨i, hi, hh.trans hc.symm, hir.trans hr.symm⟩, fun ht => hdue (.inr h') (hdue' (hr.symm.trans ht))⟩

end Config

namespace Engine
variable {e : Engine} {d : DeclId} {item : WorkItem} (h : item ∈ e.queue.items)
include h

lemma mem_queue_refresh (D : Decl) (i : ItemSummary) : item ∈ (e.refresh d D i).queue.items := by
  unfold refresh
  dsimp only
  split
  · split
    · split
      · exact List.mem_append_left _ h
      · exact h
    · exact (Marks.markOutdated ..).mem_queue h
  · split
    · exact List.mem_append_left _ h
    · exact h

lemma mem_queue_deleteDecl : item ∈ (e.deleteDecl d).queue.items := by
  cases hD : e.program.decl? d with
  | none => rwa [deleteDecl_of_none hD]
  | some D =>
    obtain ⟨e₁, hm, he⟩ := deleteDecl_of hD
    rw [he]
    exact hm.mem_queue h

end Engine

namespace Move
variable {c c' : Config} (hm : Move c c') {d : DeclId} {D' : Decl}
include hm

lemma mem_queue {item : WorkItem} (h : item ∈ c.engine.queue.items)
    (he : c.stage = .draining → c.engine.queue.items = []) :
    item ∈ c'.engine.queue.items ∨ c'.stage = .ofItem item := by
  cases hm with
  | grant link header =>
    cases header with
    | true => exact .inl (List.mem_append_left _ (List.mem_append_left _ h))
    | false => exact .inl (List.mem_append_left _ h)
  | outdate | retry => exact .inl ((Engine.Marks.markOutdated ..).mem_queue h)
  | take hq =>
    rw [hq] at h
    obtain rfl | h := List.mem_cons.1 h
    · exact .inr rfl
    · exact .inl h
  | enroll =>
    dsimp only
    split
    · exact .inl (List.mem_append_left _ h)
    · exact .inl h
  | refresh => exact .inl (Engine.mem_queue_refresh h ..)
  | drop => exact .inl (Engine.mem_queue_deleteDecl h)
  | drain => exact .inl ((Engine.drainStep_queue ..).symm ▸ h)
  | drained =>
    rw [he rfl] at h
    cases h
  | _ => exact .inl h

lemma due (ht : c'.stage ≠ .torn) (he : c.stage = .draining → c.engine.queue.items = []) (h : c.Due d)
    (hD' : c'.program.decl? d = some D') (hs : D'.state.Due) : c'.Due d := by
  obtain h | h := h
  · cases hm with
    | dismiss hn =>
      cases h
      exact absurd hs (not_or.2 (hn D' hD'))
    | enter hd =>
      cases h
      cases (Program.decl?_modifyDecl_of hd).symm.trans hD'
      exact hs.elim nofun nofun
    | tear => exact absurd rfl ht
    | quiet | collide | claim | edge | release => exact .inl h
    | _ => cases h
  · exact (hm.mem_queue h he).symm

lemma stacked (ht : c'.stage ≠ .torn) (h : d ∈ c.stack) (hD' : c'.program.decl? d = some D')
    (hs : D'.state = .inProgress) : d ∈ c'.stack := by
  have popped {p : Program} {x : DeclId} {S : List DeclId} {state : DeclState} (hn : state ≠ .inProgress)
      (hD' : (p.modifyDecl x fun D => if D.isInProgress then { D with state } else D).decl? d = some D')
      (h : d ∈ x :: S) : d ∈ S := by
    refine (List.mem_cons.1 h).resolve_left ?_
    rintro rfl
    obtain ⟨D, -, rfl⟩ := Program.exists_of_decl?_modifyDecl hD'
    rw [if_pos rfl] at hs
    split at hs
    · exact hn hs
    · next hi => exact hi (beq_iff_eq.2 hs)
  cases hm with
  | enter => exact List.mem_cons_of_mem _ h
  | rewind => exact absurd rfl ht
  | finish => exact popped (show DeclState.complete ≠ .inProgress from nofun) hD' h
  | abandon => exact popped (show DeclState.dependencyFailed ≠ .inProgress from nofun) hD' h
  | _ => exact h

end Move

lemma scheduled_move {K : ItemSummary → Prop} (hK : ∀ i j, K i → K j → i.hash = j.hash → i.isRoot = j.isRoot)
    (c c' : Config) (hm : Move c c') (ht : c'.stage ≠ .torn) (hp : c.program.Placed K c.stage) (h : c.Scheduled K) :
    c'.Scheduled K where
  minds {d D'} hD' := by
    have hdue (hs) (h' : c.Due d) := hm.due ht h.draining h' hD' hs
    have hS (hs) (h : d ∈ c.stack) := hm.stacked ht h hD' hs
    obtain ⟨D, r', hD, -, hturn⟩ | ⟨file, ns, item, rfl, hi, -, -, hq, rfl⟩ := hm.was hD'
    · have hmind := h.minds hD
      cases hturn with
      | marked _ _ _ _ hl | rereadMarked _ _ hl => exact .listed rfl (.inr hl.1)
      | entered _ _ hstack => exact ⟨nofun, nofun, fun _ => hstack ▸ List.mem_cons_self ..⟩
      | rewound hst' => exact absurd hst' ht
      | failed | depended | installed | completed | repeated => exact .ofSettled rfl
      | withheld _ _ _ _ hs => obtain rfl | rfl := hs <;> exact .ofSettled rfl
      | refused _ _ hs => obtain rfl | ⟨rfl, -⟩ := hs <;> exact .ofSettled rfl
      | @reread item _ _ _ _ _ _ _ hi hs =>
        have hi := hp.declares_known hi
        refine ⟨fun ho => hdue (.inl ho) (hmind.outdated ho), fun hu => ⟨⟨item, hi, rfl, rfl⟩, fun hr => ?_⟩,
          fun hp => hS hp (hmind.inProgress hp)⟩
        obtain hc | ho | ⟨-, hq⟩ := hs
        · obtain ⟨⟨i, hi', hh, hr'⟩, hroot⟩ := hmind.unreferenced hu
          exact hdue (.inr hu) (hroot ((hr'.symm.trans (hK i item hi' hi (hh.trans hc))).trans hr))
        · cases ho.symm.trans hu
        · exact .inr (hq hr)
      | _ => exact hmind.same rfl rfl rfl hdue hS
    · exact ⟨nofun, fun _ => ⟨⟨item, hp.declares_known hi, rfl, rfl⟩, fun hr => hq.imp_right (· hr)⟩, nofun⟩
  draining hst := by
    cases hm with
    | quiet | collide | claim => exact h.draining hst
    | @take _ item => cases item <;> cases hst
    | worked hq => exact hq
    | drain => exact (congrArg WorkQueue.items (Engine.drainStep_queue ..)).trans (h.draining rfl)
    | _ => cases hst

end Frontend
