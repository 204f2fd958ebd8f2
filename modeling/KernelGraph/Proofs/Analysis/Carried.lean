import KernelGraph.Proofs.Analysis.Operations
import KernelGraph.Proofs.Document.RoundTrip
import KernelGraph.Proofs.Graph.Raising

/-!
# Fields that an analysis carries

What an analysis does with the fields of markers and containers is to merge them. So whatever is
true of all these fields, and remains so when two are merged, is true of them after an analysis. A
container is one level closer to the outside than a marker is, so that promotion never nests values
deeper than they can be read back.

## Main definitions

* `Program.Carries` — something is true of all fields of markers and containers
* `Fields.Plain` — fields that a region can have, and in which no double occurs

## Main results

* `Program.carries_of_steps` — what is true of all fields remains so
* `Program.regular_toDocument`, `Program.not_hasDouble_toDocument` — what is raised after an
  analysis can be written and read back
-/

namespace KernelGraph

open Relation

/-- Something is true of all fields of markers and containers. -/
structure Program.Carries (K : Fields → Prop) (p : Program) : Prop where
  container : ∀ i c, p.container? i = some c → K c.extra
  marker : ∀ place m, p.marker? place = some m → K m.extra

/-- Fields that a region can have, with a number of levels inside it, and in which no double
occurs. -/
structure Fields.Plain (depth : Nat) (fields : Fields) : Prop where
  regular : fields.Regular Document.Region.known depth
  whole : ∀ v ∈ fields.map Prod.snd, ¬ v.HasDouble

namespace Fields

variable {fields others : Fields} {depth : Nat}

theorem plain_nil : Fields.Plain depth [] := ⟨regular_nil, by simp⟩

theorem Plain.merge (h : fields.Plain depth) (h' : others.Plain depth) :
    (merge fields others).Plain depth := by
  refine ⟨h.regular.merge h'.regular, fun v hv => ?_⟩
  obtain ⟨m, hm, rfl⟩ := List.mem_map.mp hv
  rcases mem_merge hm with hm | hm
  · exact h.whole _ (List.mem_map_of_mem hm)
  · exact h'.whole _ (List.mem_map_of_mem hm)

end Fields

namespace Program

variable {K : Fields → Prop} {d : Document} {p q : Program} {i place depth : Nat}

/-! ## Steps -/

/-- Changing a routine changes no other container. -/
theorem forall_container_modifyRoutine {f : Routine → Routine}
    (h : ∀ j c, p.container? j = some c → K c.extra)
    (hf : ∀ r, p.routine? i = some r → ∀ c, (f r).active = some c → K c.extra) :
    ∀ j c, (p.modifyRoutine i f).container? j = some c → K c.extra := by
  intro j c hc
  rw [container?, routine?_modifyRoutine] at hc
  split at hc
  · rename_i hij
    obtain ⟨_, hmap, hc⟩ := Option.bind_eq_some_iff.mp hc
    obtain ⟨r, hr, rfl⟩ := Option.map_eq_some_iff.mp hmap
    exact hf r (hij ▸ hr) c hc
  · exact h j c hc

/-- The container that a routine has, or a new one. -/
theorem carried_getD {r : Routine} (hnil : K []) (h : ∀ j c, p.container? j = some c → K c.extra)
    (hr : p.routine? i = some r) : K (r.active.getD .empty).extra := by
  cases hactive : r.active with
  | none => exact hnil
  | some c => exact h i c (by rw [container?, hr, Option.bind_some, hactive])

/-- What is true of all fields remains so after a step, if it is true of no fields, and of the
fields merged from two. -/
theorem carries_of_step (hnil : K [])
    (hmerge : ∀ fields others, K fields → K others → K (Fields.merge fields others))
    (h : p.Carries K) (hstep : Step p q) : q.Carries K where
  container := by
    cases hstep with
    | receive v i s _ =>
      refine forall_container_modifyRoutine h.container fun r hr c hc => ?_
      -- a container is made only for templates, and it is made without fields
      by_cases hs : s.isEmpty
      · simp only [Routine.receive, hs, if_true] at hc
        exact h.container i c (by rw [container?, hr, Option.bind_some, hc])
      · simp only [Routine.receive, hs] at hc
        obtain rfl := Option.some.inj hc
        exact carried_getD hnil h.container hr
    | narrow => exact h.container
    | promote place =>
      unfold promote
      split
      · exact h.container
      · rename_i m hm
        dsimp only
        split
        · exact h.container
        · refine forall_container_modifyRoutine (p := p.setMarker place none) h.container
            fun r hr c hc => ?_
          obtain rfl := Option.some.inj hc
          exact hmerge _ _ (carried_getD hnil h.container hr) (h.marker place m hm)
  marker place m' hm' := by
    -- a marker may lose templates, but never its fields
    obtain ⟨m, hm, hnarrows⟩ := (annotates_of_step hstep).marker place m' hm'
    exact hnarrows.extra ▸ h.marker place m hm

/-- What is true of all fields remains so. -/
theorem carries_of_steps (hnil : K [])
    (hmerge : ∀ fields others, K fields → K others → K (Fields.merge fields others))
    (h : p.Carries K) (hsteps : ReflTransGen Step p q) : q.Carries K := by
  induction hsteps with
  | refl => exact h
  | tail _ hstep ih => exact carries_of_step hnil hmerge ih hstep

/-! ## Documents -/

/-- The fields of a regular document without doubles are plain, also where a container has them. -/
theorem carries_ofDocument (h : ofDocument d = .ok p) (hregular : d.Regular depth)
    (hdouble : ∀ v ∈ d.kept, ¬ v.HasDouble) : p.Carries (Fields.Plain (depth + 1)) where
  container i c hc := by
    rw [container?_ofDocument h] at hc
    obtain ⟨region, hregion, rfl⟩ := Option.map_eq_some_iff.mp hc
    obtain ⟨r, hr, hactive⟩ := Option.bind_eq_some_iff.mp hregion
    have hmem := List.mem_of_getElem? hr
    refine ⟨((hregular.routines r hmem).active region hactive).extra, fun v hv => hdouble v ?_⟩
    simp only [Document.kept, Document.Routine.kept, List.mem_append, List.mem_flatMap]
    exact Or.inl (Or.inl (Or.inr ⟨r, hmem, Or.inr (hactive ▸ hv)⟩))
  marker place m hm := by
    obtain ⟨e, he, rfl⟩ := (marker?_ofDocument h).mp hm
    obtain ⟨r, hr, hregion⟩ := exists_routine_of_mem_ownedRegions (List.mem_of_getElem? he)
    have hextra := ((hregular.routines r hr).regions e.2 hregion).extra
    refine ⟨hextra.succ, fun v hv => hdouble v ?_⟩
    simp only [Document.kept, Document.Routine.kept, List.mem_append, List.mem_flatMap]
    exact Or.inl (Or.inl (Or.inr ⟨r, hr, Or.inl (Or.inr ⟨e.2, hregion, hv⟩)⟩))

section Raised

variable (hlive : p.live = []) (hcarries : p.Carries (Fields.Plain (depth + 1)))

include hlive

/-- Without markers, a routine is raised without regions. -/
theorem exists_routine_of_mem_toDocument {r : Document.Routine} (hr : r ∈ p.toDocument.routines) :
    ∃ i x, p.routine? i = some x ∧ r = x.toDocument [] := by
  obtain ⟨i, hi⟩ := List.mem_iff_getElem?.mp hr
  rw [toDocument, List.getElem?_mapIdx, hlive, List.filter_nil] at hi
  obtain ⟨x, hx, rfl⟩ := Option.map_eq_some_iff.mp hi
  exact ⟨i, x, hx, rfl⟩

include hcarries

theorem plain_of_mem_toDocument {r : Document.Routine} (hr : r ∈ p.toDocument.routines) :
    r.regions = [] ∧ ∀ region, r.active = some region → Fields.Plain (depth + 1) region.extra := by
  obtain ⟨i, x, hx, rfl⟩ := exists_routine_of_mem_toDocument hlive hr
  refine ⟨rfl, fun region hregion => ?_⟩
  obtain ⟨c, hc, rfl⟩ := Option.map_eq_some_iff.mp hregion
  exact hcarries.container i c (by rw [container?, hx, Option.bind_some, hc])

variable (hskeleton : p.toDocument.skeleton = d.skeleton)

include hskeleton

theorem regular_toDocument (h : d.Regular depth) : p.toDocument.Regular depth where
  routines r hr := by
    obtain ⟨hregions, hactive⟩ := plain_of_mem_toDocument hlive hcarries hr
    obtain ⟨r', hr', hextra⟩ := Document.exists_routine_of_skeleton hskeleton hr
    exact ⟨by simp [hregions], fun region hregion => ⟨(hactive region hregion).regular⟩,
      hextra ▸ (h.routines r' hr').extra⟩
  calls := Document.calls_eq_of_skeleton hskeleton ▸ h.calls
  templates := Document.templates_eq_of_skeleton hskeleton ▸ h.templates
  extra := Document.extra_eq_of_skeleton hskeleton ▸ h.extra

theorem not_hasDouble_toDocument (h : ∀ v ∈ d.kept, ¬ v.HasDouble) :
    ∀ v ∈ p.toDocument.kept, ¬ v.HasDouble := by
  simp only [Document.kept, List.mem_append, List.mem_flatMap, or_imp, forall_and] at h ⊢
  obtain ⟨⟨⟨hextra', hroutines⟩, hcalls'⟩, htemplates'⟩ := h
  rw [Document.extra_eq_of_skeleton hskeleton, Document.calls_eq_of_skeleton hskeleton,
    Document.templates_eq_of_skeleton hskeleton]
  refine ⟨⟨⟨hextra', ?_⟩, hcalls'⟩, htemplates'⟩
  rintro v ⟨r, hr, hv⟩
  obtain ⟨hregions, hactive⟩ := plain_of_mem_toDocument hlive hcarries hr
  obtain ⟨r', hr', hsame⟩ := Document.exists_routine_of_skeleton hskeleton hr
  rw [Document.Routine.kept, hregions, List.flatMap_nil, List.append_nil, List.mem_append] at hv
  rcases hv with hv | hv
  · refine hroutines v ⟨r', hr', ?_⟩
    rw [Document.Routine.kept, hsame, List.append_assoc]
    exact List.mem_append_left _ hv
  · cases hcontainer : r.active with
    | none => simp [hcontainer] at hv
    | some region =>
      rw [hcontainer] at hv
      exact (hactive region hcontainer).whole v hv

end Raised

end Program

end KernelGraph
