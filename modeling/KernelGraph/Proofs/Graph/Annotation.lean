import KernelGraph.Proofs.Graph.Skeleton

/-!
# Programs that annotate one another

An annotation adds to what has been assigned, and overwrites nothing: a position that has been given
stays, a container only grows, and a marker loses templates until it is consumed.

## Main definitions

* `Container.Extends` — a container has grown
* `Marker.NarrowsTo` — a marker has lost templates, and nothing else
* `Annotates` — a program is another one annotated further

## Main results

* `Annotates.trans` — annotations add up
* `Annotates.modifyRoutine`, `Annotates.setMarker` — a change of one entry that is an annotation
-/

namespace KernelGraph

/-- `c'` begins with the templates of `c`, and its fields that `c` has are as they are there. -/
structure Container.Extends (c c' : Container) : Prop where
  templates : c.templates.ids <+: c'.templates.ids
  extra : ∀ key value, c.extra.find? key = some value → c'.extra.find? key = some value

namespace Container.Extends

variable {c c' c'' : Container}

theorem refl (c : Container) : c.Extends c := ⟨List.prefix_rfl, fun _ _ h => h⟩

theorem trans (h : c.Extends c') (h' : c'.Extends c'') : c.Extends c'' :=
  ⟨h.templates.trans h'.templates, fun key value hc => h'.extra key value (h.extra key value hc)⟩

/-- A container that takes in a marker has grown. -/
theorem receive (c : Container) (m : Marker) : c.Extends (c.receive m) :=
  ⟨TemplateSet.ids_prefix_union, fun _ _ hc => Fields.find?_merge_of_some hc⟩

end Container.Extends

/-- `m'` is `m` with some of its templates, in their order. -/
structure Marker.NarrowsTo (m m' : Marker) : Prop where
  id : m'.id = m.id
  owner : m'.owner = m.owner
  extra : m'.extra = m.extra
  templates : List.Sublist m'.templates.ids m.templates.ids

namespace Marker.NarrowsTo

variable {m m' m'' : Marker}

theorem refl (m : Marker) : m.NarrowsTo m := ⟨rfl, rfl, rfl, List.Sublist.refl _⟩

theorem trans (h : m.NarrowsTo m') (h' : m'.NarrowsTo m'') : m.NarrowsTo m'' :=
  ⟨h'.id.trans h.id, h'.owner.trans h.owner, h'.extra.trans h.extra,
    h'.templates.trans h.templates⟩

end Marker.NarrowsTo

/-- `q` is `p` annotated further. It has the skeleton of `p`, positions that were not unset,
containers that have grown, and at the same places markers that have lost templates. -/
structure Annotates (p q : Program) : Prop where
  skeleton : q.skeleton = p.skeleton
  position : ∀ i v, p.position? i = some v → v ≠ .unset → q.position? i = some v
  container : ∀ i c, p.container? i = some c → ∃ c', q.container? i = some c' ∧ c.Extends c'
  places : q.regions.length = p.regions.length
  marker : ∀ place m', q.marker? place = some m' →
    ∃ m, p.marker? place = some m ∧ m.NarrowsTo m'

namespace Annotates

variable {p q r : Program}

theorem refl (p : Program) : Annotates p p where
  skeleton := rfl
  position _ _ h _ := h
  container _ c h := ⟨c, h, .refl c⟩
  places := rfl
  marker _ m h := ⟨m, h, .refl m⟩

/-- Annotations add up. -/
theorem trans (h : Annotates p q) (h' : Annotates q r) : Annotates p r where
  skeleton := h'.skeleton.trans h.skeleton
  position i v hi hv := h'.position i v (h.position i v hi hv) hv
  container i c hc := by
    obtain ⟨c', hc', hextends⟩ := h.container i c hc
    obtain ⟨c'', hc'', hextends'⟩ := h'.container i c' hc'
    exact ⟨c'', hc'', hextends.trans hextends'⟩
  places := h'.places.trans h.places
  marker place m hm := by
    obtain ⟨m', hm', hnarrows'⟩ := h'.marker place m hm
    obtain ⟨m'', hm'', hnarrows⟩ := h.marker place m' hm'
    exact ⟨m'', hm'', hnarrows.trans hnarrows'⟩

/-- An annotation adds no marker. -/
theorem evolves (h : Annotates p q) : Evolves p q := by
  refine ⟨h.skeleton, fun place m' hm' => ?_⟩
  obtain ⟨m, hm, hnarrows⟩ := h.marker place m' hm'
  exact ⟨m, hm, hnarrows.id.symm, hnarrows.owner.symm⟩

/-- Changing a routine annotates a program if the position may be overwritten and the container has
grown. -/
theorem modifyRoutine {i : Nat} {f : Routine → Routine}
    (hskeleton : ∀ r, (f r).skeleton = r.skeleton)
    (hposition : ∀ r, p.routine? i = some r → r.position.Accepts (f r).position)
    (hcontainer : ∀ r c, r.active = some c → ∃ c', (f r).active = some c' ∧ c.Extends c') :
    Annotates p (p.modifyRoutine i f) where
  skeleton := Program.skeleton_modifyRoutine hskeleton
  position j v hv hunset := by
    rw [Program.position?, Option.map_eq_some_iff] at hv
    obtain ⟨r, hr, rfl⟩ := hv
    rw [Program.position?, Program.routine?_modifyRoutine]
    split
    · rename_i hij
      subst hij
      rcases hposition r hr with hnone | hsame
      · exact absurd hnone hunset
      · rw [hr, Option.map_some, Option.map_some, hsame]
    · rw [hr, Option.map_some]
  container j c hc := by
    rw [Program.container?, Option.bind_eq_some_iff] at hc
    obtain ⟨r, hr, hactive⟩ := hc
    rw [Program.container?, Program.routine?_modifyRoutine]
    split
    · obtain ⟨c', hc', hextends⟩ := hcontainer r c hactive
      exact ⟨c', by rw [hr, Option.map_some, Option.bind_some, hc'], hextends⟩
    · exact ⟨c, by rw [hr, Option.bind_some, hactive], .refl c⟩
  places := rfl
  marker _ m hm := ⟨m, hm, .refl m⟩

/-- Setting a place annotates a program if what is put there is left over from what was there. -/
theorem setMarker {place : Nat} {m? : Option Marker}
    (h : ∀ m', m? = some m' → ∃ m, p.marker? place = some m ∧ m.NarrowsTo m') :
    Annotates p (p.setMarker place m?) where
  skeleton := rfl
  position _ _ hv _ := hv
  container _ c hc := ⟨c, hc, .refl c⟩
  places := by simp [Program.setMarker]
  marker other m hm := by
    rw [Program.marker?_setMarker] at hm
    split at hm
    · rename_i hother
      exact hother.1 ▸ h m hm
    · exact ⟨m, hm, .refl m⟩

end Annotates

end KernelGraph
