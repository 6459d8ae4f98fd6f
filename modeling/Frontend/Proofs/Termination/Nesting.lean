import Frontend.Proofs.Quiescence.Units
import Frontend.Proofs.Layout

/-! Bodies inside bodies. What units declare, and what is made of it, nests no deeper than the code is long, as long as
units are texts. -/

namespace Frontend

def UnitContent.Nests (c : UnitContent) : Prop := ∀ ds r, c = .lowered ds r → ∀ item ∈ ds, item.kind.Nests

lemma UnitContent.Nests.ofSource (origin : Origin) (loaded : Option Loaded) :
    (UnitContent.source origin loaded).Nests :=
  fun _ _ h => nomatch h

lemma UnitContent.Nests.load {file : FileId} {c c' : UnitContent} (h : c.Nests)
    (hl : Program.loadContent file c = .ok c') : c'.Nests := by
  obtain ⟨_, _, _, _, -, -, -, rfl⟩ | ⟨decls, first, rfl, rfl⟩ := Program.loadContent_cases hl
  · exact .ofSource _ _
  · exact h

structure Program.Sourced (p : Program) : Prop where
  units : ∀ file u, (file, u) ∈ p.units.entries → u.content.Nests
  nests {d f} : p.func? d = some f → f.source.Nests

namespace Program.Sourced
variable {p p' : Program} {d : DeclId}

section

variable (h : p.Sourced) (hu : ∀ file u, (file, u) ∈ p'.units.entries → u.content.Nests)
include h hu

lemma traced (hp : p.Traces p') : p'.Sourced where
  units := hu
  nests {x f'} hf' := by
    obtain ⟨D', hD', hf'⟩ := Option.bind_eq_some_iff.1 hf'
    obtain ⟨D, hD, hs⟩ := hp x D' hD'
    obtain ⟨f, hf, hsrc⟩ := hs.source hf'
    have hx : p.func? x = some f := by rw [func?, hD, Option.bind_some, hf]
    exact hsrc ▸ h.nests hx

lemma registered (hp : p.Registers p') : p'.Sourced where
  units := hu
  nests {x f} hf := by
    obtain ⟨file, ns, item, -, -, rfl⟩ := hp
    obtain ⟨D, hD, hf⟩ := Option.bind_eq_some_iff.1 hf
    obtain ⟨hD, -⟩ | ⟨-, rfl⟩ := decl?_register_cases hD
    · exact h.nests (by rw [func?, hD, Option.bind_some, hf])
    · cases hf

end

lemma move {c c' : Config} (h : c.program.Sourced) (hm : Move c c') (hi : ¬ c.stage.Installs c'.stage) :
    c'.program.Sourced := by
  have hu (file : FileId) (u : SourceUnit) (hu : (file, u) ∈ c'.program.units.entries) : u.content.Nests := by
    obtain ⟨u₀, hu₀, hc | hc⟩ := hm.hadUnit hu
    · exact hc ▸ h.units file u₀ hu₀
    · exact (h.units file u₀ hu₀).load hc
  obtain ht | ht := hm.traces_or_registers hi
  · exact h.traced hu ht
  · exact h.registered hu ht

lemma install {e : Engine} (h : e.program.Sourced) {v : DeclValue} (hv : ∀ f, v.func = some f → f.source.Nests) :
    (e.installed d v).program.Sourced where
  units := h.units
  nests {x f} hf := by
    obtain ⟨D', hD', hf⟩ := Option.bind_eq_some_iff.1 hf
    obtain ⟨D, hD, rfl⟩ := exists_of_decl?_modifyDecl hD'
    split at hf
    · exact hv f hf
    · exact h.nests (by rw [func?, hD, Option.bind_some, hf])

lemma lowers (h : p.Sourced) {file : FileId} {u : SourceUnit} {scope : Scope} {item : Untyped.Decl}
    (hu : p.units.get? file = some u) (hi : u.Lowers scope item) : item.kind.Nests := by
  have hn := h.units file u (Dict.mem_of_get? hu)
  unfold SourceUnit.Lowers at hi
  split at hi
  · next ds r hc => exact hn ds r hc item hi
  · obtain ⟨l, it, name, -, -, hit⟩ := hi
    exact Untyped.nests_of_ofItem hit

lemma upheld : Upheld (fun _ c => c.program.Sourced) fun item => item.kind.Nests := by
  refine .ofSteps (fun _ _ hm _ _ hi h => h.move hm hi) (fun h hu hi => h.lowers hu hi) fun _ hs h => ?_
  refine h.install fun f hf => ?_
  obtain ⟨item, hL, hk⟩ := hs f hf
  rwa [hk] at hL

lemma lasting : Lasting Sourced fun item => item.kind.Nests :=
  .ofRewire upheld
    (update_of_upheld upheld (fun h => ⟨h.units, h.nests⟩) fun h =>
      ⟨fun file u hu => h.units file u (List.mem_of_mem_filter hu), h.nests⟩)
    fun hw h => h.traced (fun file u hu => h.units file u (hw.units ▸ hu)) <| .ofRewired hw fun _ D D' hr => by
      cases hr
      exact ⟨⟨rfl, rfl, rfl, rfl⟩, fun {f} hf => ⟨f, hf, rfl⟩⟩

lemma edit (h : p.Sourced) {change : Edit} (ht : change.isText = true) : (p.edit change).Sourced where
  units := by
    cases change with
    | addSource | addPath =>
      intro file u hu
      obtain he | hu := Dict.mem_insert hu
      · cases he
        exact .ofSource _ _
      · exact h.units file u hu
    | setSource | setFile =>
      intro f u hu
      obtain ⟨u₀, hu₀, rfl⟩ := Dict.mem_modify hu
      have hn := h.units f u₀ hu₀
      split
      · split
        · exact .ofSource _ _
        · exact hn
      · exact hn
    | touch file | removeUnit file =>
      intro f u hu
      obtain ⟨u₀, hu₀, rfl⟩ := Dict.mem_modify hu
      split <;> exact h.units f u₀ hu₀
    | addLowered | setLowered => cases ht
  nests := by cases change <;> exact h.nests

lemma reaches {options : Options} {backend : Backend} (hr : Reaches (·.isText = true) { options, backend } p) :
    p.Sourced :=
  lasting.reaches (fun ht h => h.edit ht) (fun _ h => ⟨h.units, h.nests⟩) hr ⟨nofun, nofun⟩

end Program.Sourced

end Frontend
