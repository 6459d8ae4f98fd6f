import Frontend.Proofs.Quiescence.Rest

/-! Quiescence: after an update that succeeds nothing is outdated or under analysis, every root was analyzed, functions
that get code have it, and no unit or declaration waits to be looked at or deleted. -/

namespace Frontend

structure Program.Quiescent (p : Program) : Prop where
  settled {d D} : p.decl? d = some D → D.state ≠ .outdated ∧ D.state ≠ .inProgress
  roots {d D} : p.decl? d = some D → D.isRoot = true → D.state ≠ .unreferenced
  bodies {d D v f} : p.decl? d = some D → D.state = .complete → D.value = some v → v.func = some f →
    v.ty.hasBits = true → f.state ≠ .inProgress ∧
      (f.state = .queued → (p.backend.rules.lookup (.allocate, D.name)).isSome = true)
  deletionSet : p.deletionSet = []
  units {u} : u ∈ p.units.values → u.dirty = false ∧ u.removed = false

namespace Config.Sound
variable {K : ItemSummary → Prop} {e : Engine}

lemma quiescent (h : Sound K ⟨.draining, [], none, e⟩) (hs : e.program.deletionSet = []) :
    e.program.closed.Quiescent := by
  have hq : e.queue.items = [] := h.scheduled.draining rfl
  have free {d} (hd : Due ⟨.draining, [], none, e⟩ d) : False := by
    obtain hd | hd := hd
    · cases hd
    · exact nomatch (hq ▸ hd : WorkItem.analyze d ∈ [])
  refine ⟨fun hD => ⟨fun hs => ?_, fun hs => ?_⟩, fun hD hr hs => ?_, fun hD _ hv hf hb => ⟨fun hs => ?_, fun hs => ?_⟩,
    hs, fun hu => ?_⟩
  · exact free ((h.scheduled.minds hD).outdated hs)
  · cases (h.scheduled.minds hD).inProgress hs
  · exact free (((h.scheduled.minds hD).unreferenced hs).2 hr)
  · cases (h.coded.codes hD hv hf).inProgress hs
  · obtain (he | ⟨w, hw, hn⟩) | ⟨-, hreach⟩ := (h.coded.codes hD hv hf).queued hs
    · exact he
    · cases hw.symm.trans hv
      cases hn.symm.trans hb
    · exact absurd (hreach.owes rfl) (h.attentive.idle rfl)
  · obtain ⟨⟨file, u⟩, hm, rfl⟩ := List.mem_map.1 hu
    obtain ⟨hm, hr⟩ := List.mem_filter.1 hm
    refine ⟨?_, by simpa using hr⟩
    cases hd : u.dirty with
    | false => rfl
    | true => exact absurd (h.placed.opened hm hd) (Stage.not_unopened rfl)

end Config.Sound

namespace Program

/-- Every update of a run that succeeds leaves the program quiescent, unless of two items of the run one digest stands
for a root and for another that is none. -/
theorem quiescent_of_update (options : Options) (backend : Backend) {edits : List Edit} {p p' : Program}
    {report : Report} (hr : Runs { options, backend } edits p) (hu : p.update = (.ok report, p'))
    (hK : ∀ i ∈ edits.flatMap Edit.items, ∀ j ∈ edits.flatMap Edit.items, i.hash = j.hash → i.isRoot = j.isRoot) :
    p'.Quiescent := by
  have hK' (i j : ItemSummary) (hi : i ∈ edits.flatMap Edit.items) (hj : j ∈ edits.flatMap Edit.items) :=
    hK i hi j hj
  have hp : p.Rests (· ∈ edits.flatMap Edit.items) := by
    refine hr.rests hK' (.empty options backend) fun change hc i hi => ?_
    exact List.mem_flatMap.2 ⟨change, hc, hi⟩
  obtain ⟨e, he, hs, rfl⟩ := hp.drained hK' hu
  exact he.quiescent hs

theorem quiescent_of_update_changed_constant :
    let first := "export fn f() u32 { return y; }\nconst y: u32 = 2;\ncomptime { _ = y; }\n"
    let second := "export fn f() u32 { return y; }\nconst y: u32 = 3;\ncomptime { _ = y; }\n"
    ∃ p report p', Runs {} [.addSource "a" first, .setSource 0 second] p ∧ p.update = (.ok report, p') ∧
      p'.Quiescent := by
  intro first second
  obtain ⟨report, h⟩ := exists_report (p := Program.edit {} (.addSource "a" first)) (by decide +kernel)
  obtain ⟨report', h'⟩ := exists_report
    (p := (Program.edit {} (.addSource "a" first)).update.2.edit (.setSource 0 second)) (by decide +kernel)
  have hr := ((Runs.refl.edit (.addSource "a" first)).update h).edit (.setSource 0 second)
  exact ⟨_, report', _, hr, h', quiescent_of_update {} .silent hr h' (by decide +kernel)⟩

/-- Two items with one digest, of which the second only is a root: it is not seen to have changed, and nothing has it
analyzed. And a function for which storage is refused, whose name a compile-time block takes over: the block completes a
declaration that still has the function. -/
theorem update_leaves_work :
    (let first := "fn l() void \x7b//jid \x7b//..........a+ K+ hNUv H++ Q                \n\x7d"
      let second := "export fn l() void \x7b//.......... ,i+gM+   K+hjf                 \n\x7d"
      let p := Program.edit {} (.addSource "a" first)
      let p' := p.update.2.edit (.setSource 0 second)
      p.update.1.isOk = true ∧ p'.update.1.isOk = true ∧
        (p'.update.2.decl? 0).any (fun D => D.isRoot && D.state == .unreferenced) = true) ∧
    (let f : Untyped.Fn := {
        code := ⟨#[.primitive .void, .fnType [] 0 .unspecified, .ret none], #[]⟩, signature := ⟨[0, 1], 1⟩,
          params := [],
        body := some [2], isInline := false }
      let backend := (Backend.recording {}).refuse .allocate "x" (.permanent "no")
      let p := Program.edit { backend } (.addLowered "a" [⟨"x", true, ⟨0, 1⟩, .fn f⟩])
      let p' := p.update.2.edit (.setLowered 0 [⟨"x", false, ⟨0, 1⟩, .comptime ⟨{}, []⟩⟩])
      p.update.1.isOk = true ∧ p'.update.1.isOk = true ∧
        (p'.update.2.decl? 0).any (fun D => D.state == .complete && D.value.any fun v =>
          v.ty.hasBits && v.func.any (·.state == .queued)) = true) := by
  decide +kernel

end Program

end Frontend
