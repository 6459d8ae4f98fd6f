import Frontend.Proofs.Quiescence.Bodies
import Frontend.Proofs.Quiescence.Schedule

/-! Rest: after an update that succeeds there is nothing left to be done. What holds at rest is kept by edits, and an
update that starts at rest comes to rest again. -/

namespace Frontend

structure Config.Sound (K : ItemSummary → Prop) (c : Config) : Prop where
  graph : c.engine.program.Graph
  placed : c.engine.program.Placed K c.stage
  attentive : c.Attentive
  scheduled : c.Scheduled K
  coded : c.Coded
  filed {file} : c.engine.program.Has file → file < c.engine.program.nextFile

def Program.Rests (K : ItemSummary → Prop) (p : Program) : Prop := Config.Sound K p.resting

section
variable {K : ItemSummary → Prop} (hK : ∀ i j, K i → K j → i.hash = j.hash → i.isRoot = j.isRoot)

include hK in
lemma sound_move (c c' : Config) (hm : Move c c') (ht : c'.stage ≠ .torn) (h : c.Sound K) : c'.Sound K where
  graph := graph_move c c' hm h.graph
  placed := placed_move c c' hm h.placed
  attentive := attentive_move c c' hm ht h.graph h.attentive
  scheduled := scheduled_move hK c c' hm ht h.placed h.scheduled
  coded := coded_move c c' hm ht h.placed h.attentive h.coded
  filed hf := by
    rw [hm.alike.nextFile]
    exact h.filed (hm.has hf)

end

namespace Program.Rests
variable {K : ItemSummary → Prop} {p : Program}

lemma empty (options : Options) (backend : Backend) : Rests K { options, backend } where
  graph := .empty options backend
  placed := ⟨nofun, nofun, nofun⟩
  attentive := .ofIdle rfl rfl nofun nofun
  scheduled := ⟨nofun, nofun⟩
  coded := ⟨nofun, nofun, nofun⟩
  filed := nofun

lemma ofUnits {p' : Program} (h : p.Rests K) (hd : p'.decls = p.decls) (hn : p'.nextDecl = p.nextDecl)
    (hr : p'.backend.rules = p.backend.rules) (hp : p'.Placed K .resting)
    (hf : ∀ file, p'.Has file → file < p'.nextFile) : p'.Rests K := by
  have hx (x : DeclId) : p'.decl? x = p.decl? x := congrArg (·.get? x) hd
  refine ⟨h.graph.ofDecls hd hn, hp, .ofIdle rfl rfl nofun nofun, ⟨fun hD => ?_, nofun⟩,
    ⟨fun hD hv hf => ?_, nofun, nofun⟩,
    hf _⟩
  · exact (h.scheduled.minds ((hx _).symm.trans hD)).same rfl rfl rfl (fun _ h => h) fun _ h => h
  · have hc := h.coded.codes ((hx _).symm.trans hD) hv hf
    exact ⟨hc.ty, hc.source, fun hs => (hc.queued hs).imp_left (·.imp_left fun he => hr.symm ▸ he), hc.inProgress⟩

lemma addUnit (h : p.Rests K) (path : String) {content : UnitContent} (hc : content.Known K) :
    (p.addUnit path content).Rests K := by
  refine h.ofUnits rfl rfl rfl ⟨fun {d D} hD => ?_, fun _ _ => trivial, fun hm => ?_⟩ fun file ⟨u, hm⟩ => ?_
  · obtain ⟨u, hu, hm, -⟩ := h.placed.listed hD
    refine ⟨u, ?_, hm, fun _ => .inl trivial⟩
    show (p.units.insert p.nextFile _).get? D.file = some u
    rw [Dict.get?_insert, if_neg]
    · exact hu
    · intro hx
      exact absurd (h.filed ⟨u, Dict.mem_of_get? hu⟩) (hx ▸ Nat.lt_irrefl _)
  · obtain he | hm := Dict.mem_insert hm
    · cases he
      exact hc
    · exact h.placed.known hm
  · obtain he | hm := Dict.mem_insert hm
    · cases he
      exact Nat.lt_succ_self _
    · exact Nat.lt_succ_of_lt (h.filed ⟨u, hm⟩)

lemma modifyUnit (h : p.Rests K) (file : FileId) {g : SourceUnit → SourceUnit} (hd : ∀ u, (g u).decls = u.decls)
    (hk : ∀ u, u.content.Known K → (g u).content.Known K) : (p.modifyUnit file g).Rests K := by
  refine h.ofUnits rfl rfl rfl ⟨fun {d D} hD => ?_, fun _ _ => trivial, fun hm => ?_⟩ fun f ⟨u, hu⟩ => h.filed ?_
  · obtain ⟨u, hu, hm, -⟩ := h.placed.listed hD
    have hg : (p.modifyUnit file g).units.get? D.file = if file = D.file then some (g u) else some u := by
      show (p.units.modify file g).get? D.file = _
      rw [Dict.get?_modify, hu]
      rfl
    rw [hg]
    split
    · exact ⟨g u, rfl, (hd u).symm ▸ hm, fun _ => .inl trivial⟩
    · exact ⟨u, rfl, hm, fun _ => .inl trivial⟩
  · obtain ⟨u, hu, rfl⟩ := Dict.mem_modify hm
    split
    · exact hk u (h.placed.known hu)
    · exact h.placed.known hu
  · obtain ⟨v, hv, -⟩ := Dict.mem_modify hu
    exact ⟨v, hv⟩

lemma reserve (h : p.Rests K) (decls : List Untyped.Decl) : (p.reserve decls).Rests K :=
  h.ofUnits rfl rfl rfl ⟨h.placed.listed, h.placed.opened, h.placed.known⟩ fun _ hf => h.filed hf

end Program.Rests

namespace UnitContent.Known
variable {K : ItemSummary → Prop}

lemma mem_textItems (origin : Origin) {text : String} {items : List Item} (hp : Parse.file text = .ok items) :
    some (textItems text) = (source origin (some ⟨text, items⟩)).items? := by
  rw [textItems, Program.loadContent_source (rfl : (Origin.memory text).text? = some text) hp]
  rfl

lemma ofText {loaded : Option Loaded} {origin : Origin} (origin' : Origin)
    (hi : ∀ text ∈ origin.text?, ∀ i ∈ textItems text, K i)
    (hl : ∀ items, (source origin' loaded).items? = some items → ∀ i ∈ items, K i) :
    (source origin loaded).Known K where
  now {items} h := by
    refine hl items ?_
    cases loaded <;> exact h
  later {file content items} h hc i hm := by
    obtain ⟨_, _, text, items, he, ht, hp, rfl⟩ | ⟨_, _, he, -⟩ := Program.loadContent_cases h
    · cases he
      have hitems := mem_textItems origin hp
      rw [hc] at hitems
      cases hitems
      exact hi text ht i hm
    · cases he

lemma ofLowered {decls : List Untyped.Decl} {r : Nat} (hi : ∀ i ∈ loweredItems decls, K i) :
    (lowered decls r).Known K where
  now h := by
    cases h
    exact hi
  later h h' := by
    cases h
    cases h'
    exact hi

end UnitContent.Known

namespace Program.Rests
variable {K : ItemSummary → Prop} {p : Program}

lemma setOrigin (h : p.Rests K) (file : FileId) {f : Origin → Origin}
    (hf : ∀ origin loaded, (UnitContent.source origin loaded).Known K →
      (UnitContent.source (f origin) loaded).Known K) :
    (p.setOrigin file f).Rests K := by
  refine h.modifyUnit file (fun u => ?_) fun u hu => ?_
  · split <;> rfl
  · split
    · next origin loaded hc => exact hf origin loaded (hc ▸ hu)
    · exact hu

lemma edit (h : p.Rests K) (change : Edit) (hi : ∀ i ∈ change.items, K i) : (p.edit change).Rests K := by
  cases change with
  | addSource path text =>
    refine h.addUnit path (.ofText (.memory text) (fun t ht => ?_) nofun)
    cases ht
    exact hi
  | addPath path => exact h.addUnit path (.ofText (.path path none) nofun nofun)
  | setSource file text =>
    refine h.setOrigin file fun origin loaded hu => .ofText origin (fun t ht => ?_) fun _ => hu.now
    cases ht
    exact hi
  | setFile file text =>
    refine h.setOrigin file fun origin loaded hu => ?_
    cases origin with
    | memory kept => exact hu
    | path path kept =>
      refine .ofText (.path path kept) (fun t ht => ?_) fun _ => hu.now
      cases ht
      exact hi
  | addLowered path decls => exact (h.addUnit path (.ofLowered hi)).reserve decls
  | setLowered file decls =>
    refine reserve (h.modifyUnit file ?_ ?_) decls
    · exact fun _ => rfl
    · exact fun _ _ => .ofLowered hi
  | touch file | removeUnit file => exact h.modifyUnit file (fun _ => rfl) fun _ h => h

end Program.Rests

section
variable {K : ItemSummary → Prop} (hK : ∀ i j, K i → K j → i.hash = j.hash → i.isRoot = j.isRoot) {p p' : Program}
include hK

lemma Program.Rests.drained (h : p.Rests K) {report : Report} (hu : p.update = (.ok report, p')) :
    ∃ e, Config.Sound K ⟨.draining, [], none, e⟩ ∧ e.program.deletionSet = [] ∧ p' = e.program.closed := by
  have hm := p.update_moves
  rw [hu] at hm
  obtain ⟨e, hm, hs, hp⟩ := hm
  exact ⟨e, hm.keepIntact (sound_move hK) h nofun, hs, hp⟩

lemma Program.Rests.update (h : p.Rests K) {report : Report} (hu : p.update = (.ok report, p')) : p'.Rests K := by
  obtain ⟨e, he, hs, rfl⟩ := h.drained hK hu
  exact sound_move hK _ _ (.drained hs) nofun he

lemma Program.Runs.rests {edits : List Edit} (hr : Runs p edits p') (h : p.Rests K)
    (hi : ∀ change ∈ edits, ∀ i ∈ change.items, K i) : p'.Rests K := by
  induction hr with
  | refl => exact h
  | edit _ change ih =>
    refine (ih fun c hc => hi c (List.mem_append_left _ hc)).edit change (hi change ?_)
    exact List.mem_concat_self
  | update _ hu ih => exact (ih hi).update hK hu

end

end Frontend
