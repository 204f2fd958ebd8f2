import KernelGraph.Proofs.Graph.Lowering

/-!
# Raising what has been lowered

A program that is lowered from a document is raised to it again, but for ids that repeat an earlier
one in a list of templates: a set of templates holds each id once. What has been raised has no such
ids, so from then on lowering and raising change nothing.

## Main definitions

* `Document.distinct` — a document without ids that repeat an earlier one

## Main results

* `TemplateSet.ids_ofList` — ids that are all different stay in their order
* `Program.toDocument_ofDocument` — lowering and raising drop repeated ids, and nothing else
* `Program.distinct_toDocument` — there are none in a document that has been raised
-/

namespace KernelGraph

namespace TemplateSet

variable {s : TemplateSet} {ids : List String}

/-- Ids that are new and all different are added in their order. -/
theorem ids_insertAll (h : (s.ids ++ ids).Nodup) : (s.insertAll ids).1.ids = s.ids ++ ids := by
  induction ids generalizing s with
  | nil => rw [insertAll, List.append_nil]
  | cons id ids ih =>
    have hnew : id ∉ s := fun hmem => (List.nodup_append.mp h).2.2 id hmem id List.mem_cons_self rfl
    have hinsert : (s.insert id).1.ids ++ ids = s.ids ++ id :: ids := by
      rw [ids_insert_of_not_mem hnew, List.append_assoc, List.singleton_append]
    rw [insertAll, ih (hinsert ▸ h), hinsert]

theorem ids_ofList (h : ids.Nodup) : (ofList ids).ids = ids := ids_insertAll h

/-- A set is that of its ids. -/
theorem ofList_ids (s : TemplateSet) : ofList s.ids = s := ext (ids_ofList s.nodup)

end TemplateSet

namespace Document

/-- A region without ids that repeat an earlier one. -/
def Region.distinct (r : Region) : Region :=
  { r with templates := (TemplateSet.ofList r.templates).ids }

/-- A routine without ids that repeat an earlier one in a marker or in its container. -/
def Routine.distinct (r : Routine) : Routine :=
  { r with regions := r.regions.map Region.distinct, active := r.active.map Region.distinct }

/-- A document without ids that repeat an earlier one in a list of templates. -/
def distinct (d : Document) : Document := { d with routines := d.routines.map Routine.distinct }

end Document

namespace Program

variable {d : Document} {p : Program} {i k : Nat} {routines : List Document.Routine}

/-! ## Raising -/

/-- Among the regions of a document, those of a routine are the ones that it lists. -/
theorem filter_ownedRegions : (ownedRegions k routines).filter (·.1 = k + i) =
    ((routines[i]?).elim [] Document.Routine.regions).map (k + i, ·) := by
  induction routines generalizing k i with
  | nil => rfl
  | cons r routines ih =>
    rw [ownedRegions, List.filter_append, List.filter_map]
    cases i with
    | zero =>
      -- the routines after the first have greater numbers
      have hrest : (ownedRegions (k + 1) routines).filter (·.1 = k) = [] := by
        refine List.filter_eq_nil_iff.mpr fun e he => ?_
        have := (bounds_of_mem_ownedRegions he).1
        simp only [decide_eq_true_eq]
        omega
      rw [Nat.add_zero, hrest]
      simp [Function.comp_def]
    | succ i =>
      have hrest := ih (k := k + 1) (i := i)
      rw [Nat.add_assoc, Nat.add_comm 1] at hrest
      simp [hrest, Function.comp_def]

theorem exists_routine_of_mem_ownedRegions {e : Nat × Document.Region}
    (he : e ∈ ownedRegions 0 routines) : ∃ r ∈ routines, e.2 ∈ r.regions := by
  have hmem : e ∈ (ownedRegions 0 routines).filter (·.1 = 0 + e.1) :=
    List.mem_filter.mpr ⟨he, by simp⟩
  rw [filter_ownedRegions, List.mem_map] at hmem
  obtain ⟨region, hregion, hpair⟩ := hmem
  obtain rfl : region = e.2 := congrArg Prod.snd hpair
  cases hr : routines[e.1]? with
  | none => simp [hr] at hregion
  | some r => exact ⟨r, List.mem_of_getElem? hr, by simpa [hr] using hregion⟩

/-- The markers of a routine are raised to the regions that it was lowered with. -/
theorem map_toDocument_owned (h : ofDocument d = .ok p) (i : Nat) :
    (p.live.filter (·.owner = i)).map Marker.toDocument =
      ((d.routines[i]?).elim [] Document.Routine.regions).map Document.Region.distinct := by
  have hpairs : p.live.map (fun m => (m.owner, m.toDocument)) =
      (ownedRegions 0 d.routines).map (Prod.map id Document.Region.distinct) := by
    rw [live_ofDocument h, map_mapIdx]
    exact mapIdx_const _ (Prod.map id Document.Region.distinct)
  have howned : (ownedRegions 0 d.routines).filter (·.1 = 0 + i) = _ := filter_ownedRegions
  rw [Nat.zero_add] at howned
  calc (p.live.filter (·.owner = i)).map Marker.toDocument
      = ((p.live.map fun m => (m.owner, m.toDocument)).filter (·.1 = i)).map Prod.snd := by
        rw [List.filter_map, List.map_map]
        rfl
    _ = ((ownedRegions 0 d.routines).filter (·.1 = i)).map
          fun e => Document.Region.distinct e.2 := by
        rw [hpairs, List.filter_map, List.map_map]
        rfl
    _ = ((d.routines[i]?).elim [] Document.Routine.regions).map Document.Region.distinct := by
        rw [howned, List.map_map]
        rfl

/-- Lowering and raising drop the ids that repeat an earlier one, and nothing else. -/
theorem toDocument_ofDocument (h : ofDocument d = .ok p) : p.toDocument = d.distinct := by
  have hroutines : (p.routines.mapIdx fun i r => r.toDocument (p.live.filter (·.owner = i))) =
      d.routines.map Document.Routine.distinct := by
    apply List.ext_getElem?
    intro i
    rw [List.getElem?_mapIdx, List.getElem?_map]
    have hroutine : p.routines[i]? = _ := routine?_ofDocument h
    have howned := map_toDocument_owned h i
    rw [hroutine]
    cases hi : d.routines[i]? with
    | none => rfl
    | some r =>
      rw [hi] at howned
      simp only [Option.map_some, Routine.toDocument, howned]
      simp only [Routine.ofDocument, Option.map_map]
      rfl
  -- all else is found in the skeleton
  have hskeleton := skeleton_toDocument h rfl
  rw [Document.distinct, ← Document.calls_eq_of_skeleton hskeleton,
    ← Document.templates_eq_of_skeleton hskeleton, ← Document.extra_eq_of_skeleton hskeleton,
    ← hroutines]
  rfl

theorem distinct_container (c : Container) : c.toDocument.distinct = c.toDocument := by
  rw [Container.toDocument, Document.Region.distinct, TemplateSet.ofList_ids]

theorem distinct_marker (m : Marker) : m.toDocument.distinct = m.toDocument := by
  rw [Marker.toDocument, Document.Region.distinct, TemplateSet.ofList_ids]

/-- No id repeats an earlier one in a document that has been raised. -/
theorem distinct_toDocument (p : Program) : p.toDocument.distinct = p.toDocument := by
  rw [toDocument, Document.distinct, map_mapIdx]
  simp only [Document.Routine.distinct, Routine.toDocument, List.map_map, Option.map_map,
    Function.comp_def, distinct_marker, distinct_container]

end Program

end KernelGraph
