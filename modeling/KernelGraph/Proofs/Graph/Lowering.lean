import KernelGraph.Proofs.Graph.Coherence

/-!
# Lowering what has been written back

A document and the program that it is lowered to have the same skeleton: what is left of them
without positions, regions and containers. So documents that differ in these only lower alike. What
they differ in is found in their programs again, routine by routine, and the markers with their
owners and templates, though under other numbers.

## Main definitions

* `Document.skeleton` — a document without positions, regions and containers
* `Marker.holding` — the owner of a marker, and its templates

## Main results

* `map_skeleton_ofDocument` — the program of a skeleton is the skeleton of the program
* `skeleton_toDocument` — the document of a program has the skeleton of the document that it is from
* `live_ofDocument`, `map_holding_live` — the markers of a program as they stand in its document
-/

namespace KernelGraph

/-- A routine of a document without position, regions and container. -/
def Document.Routine.skeleton (r : Document.Routine) : Document.Routine :=
  { r with position := .unset, regions := [], active := none }

/-- A document without positions, regions and containers. -/
def Document.skeleton (d : Document) : Document :=
  { d with routines := d.routines.map Document.Routine.skeleton }

/-- The owner of a marker, and its templates. -/
def Marker.holding (m : Marker) : Nat × TemplateSet := (m.owner, m.templates)

/-! ## Documents of one skeleton -/

namespace Document

variable {d d' : Document} {r : Routine}

theorem calls_eq_of_skeleton (h : d'.skeleton = d.skeleton) : d'.calls = d.calls :=
  (congrArg calls h :)

theorem templates_eq_of_skeleton (h : d'.skeleton = d.skeleton) : d'.templates = d.templates :=
  (congrArg templates h :)

theorem extra_eq_of_skeleton (h : d'.skeleton = d.skeleton) : d'.extra = d.extra :=
  (congrArg extra h :)

/-- Their routines keep the same fields beside their regions. -/
theorem exists_routine_of_skeleton (h : d'.skeleton = d.skeleton) (hr : r ∈ d'.routines) :
    ∃ r' ∈ d.routines, r'.extra = r.extra := by
  have hroutines : d'.routines.map Routine.skeleton = d.routines.map Routine.skeleton :=
    (congrArg routines h :)
  have hmem : r.skeleton ∈ d.routines.map Routine.skeleton := hroutines ▸ List.mem_map_of_mem hr
  obtain ⟨r', hr', hsame⟩ := List.mem_map.mp hmem
  exact ⟨r', hr', (congrArg Routine.extra hsame :)⟩

end Document

/-! ## Lists with places -/

section Places

variable {α β γ : Type}

theorem map_mapIdx (l : List α) (f : Nat → α → β) (g : β → γ) :
    (l.mapIdx f).map g = l.mapIdx fun i a => g (f i a) := by
  apply List.ext_getElem?
  intro i
  rw [List.getElem?_map, List.getElem?_mapIdx, List.getElem?_mapIdx, Option.map_map]
  rfl

theorem mapIdx_map (l : List α) (g : α → β) (f : Nat → β → γ) :
    (l.map g).mapIdx f = l.mapIdx fun i a => f i (g a) := by
  apply List.ext_getElem?
  intro i
  rw [List.getElem?_mapIdx, List.getElem?_map, List.getElem?_mapIdx, Option.map_map]
  rfl

theorem mapIdx_const (l : List α) (g : α → β) : (l.mapIdx fun _ a => g a) = l.map g := by
  apply List.ext_getElem?
  intro i
  rw [List.getElem?_mapIdx, List.getElem?_map]

theorem zipIdx_mapIdx (l : List α) (f : Nat → α → β) :
    (l.mapIdx f).zipIdx = l.zipIdx.map fun e => (f e.2 e.1, e.2) := by
  apply List.ext_getElem?
  intro i
  rw [List.getElem?_zipIdx, List.getElem?_mapIdx, List.getElem?_map, List.getElem?_zipIdx,
    Option.map_map, Option.map_map, Nat.zero_add]
  rfl

end Places

namespace Program

variable {d d' : Document} {p q : Program} {i k : Nat} {id : String}
  {routines routines' : List Document.Routine}

/-! ## Skeletons -/

theorem map_name_skeleton : (routines.map Document.Routine.skeleton).map Document.Routine.name =
    routines.map Document.Routine.name := by
  rw [List.map_map]
  rfl

/-- The table of names depends on the names only. -/
theorem namesFrom_congr
    (h : routines'.map Document.Routine.name = routines.map Document.Routine.name) :
    namesFrom k routines' = namesFrom k routines := by
  induction routines generalizing k routines' with
  | nil => rw [List.map_eq_nil_iff.mp h]
  | cons r routines ih =>
    obtain ⟨r', rest, rfl, hname, hrest⟩ := List.map_eq_cons_iff.mp h
    rw [namesFrom, namesFrom, hname, ih hrest]

/-- Regions are listed by what the routines have as regions only. -/
theorem ownedRegions_congr
    (h : routines'.map Document.Routine.regions = routines.map Document.Routine.regions) :
    ownedRegions k routines' = ownedRegions k routines := by
  induction routines generalizing k routines' with
  | nil => rw [List.map_eq_nil_iff.mp h]
  | cons r routines ih =>
    obtain ⟨r', rest, rfl, hregions, hrest⟩ := List.map_eq_cons_iff.mp h
    rw [ownedRegions, ownedRegions, hregions, ih hrest]

theorem ownedRegions_skeleton : ownedRegions k (routines.map Document.Routine.skeleton) = [] := by
  induction routines generalizing k with
  | nil => rfl
  | cons r routines ih => rw [List.map_cons, ownedRegions, ih]; rfl

/-- The program of a skeleton is the skeleton of the program. -/
theorem map_skeleton_ofDocument : (ofDocument d).map skeleton = ofDocument d.skeleton := by
  rw [ofDocument, ofDocument, Document.skeleton, map_name_skeleton]
  cases firstRepeated [] (d.routines.map Document.Routine.name) with
  | some name => rfl
  | none =>
    have hroutines : (d.routines.mapIdx Routine.ofDocument).map Routine.skeleton =
        (d.routines.map Document.Routine.skeleton).mapIdx Routine.ofDocument := by
      rw [map_mapIdx, mapIdx_map]
      rfl
    simp only [Except.map, skeleton, hroutines, ownedRegions_skeleton,
      namesFrom_congr map_name_skeleton, List.mapIdx_nil]

/-- Documents of one skeleton lower alike. -/
theorem exists_ofDocument_of_skeleton (hskeleton : d'.skeleton = d.skeleton)
    (h : ofDocument d = .ok p) : ∃ q, ofDocument d' = .ok q ∧ q.skeleton = p.skeleton := by
  have hmap := map_skeleton_ofDocument (d := d')
  rw [hskeleton, ← map_skeleton_ofDocument, h] at hmap
  cases hd' : ofDocument d' with
  | error e => simp [hd', Except.map] at hmap
  | ok q => exact ⟨q, rfl, by simpa [hd', Except.map] using hmap⟩

/-- The skeleton of the document of a program is read off the skeleton of the program. -/
theorem skeleton_toDocument_eq (p : Program) : p.toDocument.skeleton = p.skeleton.toDocument := by
  rw [toDocument, Document.skeleton, toDocument, skeleton, mapIdx_map, map_mapIdx]
  rfl

/-- The document of a program has the skeleton of the document that the program is from, whatever
has been assigned in between. -/
theorem skeleton_toDocument (h : ofDocument d = .ok p) (hskeleton : q.skeleton = p.skeleton) :
    q.toDocument.skeleton = d.skeleton := by
  rw [skeleton_toDocument_eq, hskeleton, ← skeleton_toDocument_eq]
  have hroutines : (p.routines.mapIdx fun i r => r.toDocument (p.live.filter (·.owner = i))).map
      Document.Routine.skeleton = d.routines.map Document.Routine.skeleton := by
    rw [(ofDocument_eq_ok_iff.mp h).2]
    dsimp only
    rw [List.mapIdx_mapIdx, map_mapIdx]
    exact mapIdx_const d.routines Document.Routine.skeleton
  have hcalls : p.calls.map Call.toDocument = d.calls := by
    rw [(ofDocument_eq_ok_iff.mp h).2, map_mapIdx]
    exact (mapIdx_const d.calls id).trans (List.map_id _)
  have htemplates : p.templates.map Template.toDocument = d.templates := by
    rw [(ofDocument_eq_ok_iff.mp h).2, List.map_map]
    exact List.map_id d.templates
  have hextra : p.extra = d.extra := by rw [(ofDocument_eq_ok_iff.mp h).2]
  rw [toDocument, Document.skeleton, Document.skeleton, hroutines, hcalls, htemplates, hextra]

/-! ## What is assigned -/

theorem routine?_ofDocument (h : ofDocument d = .ok p) :
    p.routine? i = (d.routines[i]?).map (Routine.ofDocument i) := by
  obtain ⟨-, rfl⟩ := ofDocument_eq_ok_iff.mp h
  rw [routine?, List.getElem?_mapIdx]

theorem position?_ofDocument (h : ofDocument d = .ok p) :
    p.position? i = (d.routines[i]?).map Document.Routine.position := by
  rw [position?, routine?_ofDocument h, Option.map_map]
  rfl

theorem container?_ofDocument (h : ofDocument d = .ok p) :
    p.container? i = ((d.routines[i]?).bind Document.Routine.active).map Container.ofDocument := by
  rw [container?, routine?_ofDocument h, Option.map_bind, Option.bind_map]
  rfl

theorem mem_activeOf_ofDocument (h : ofDocument d = .ok p) :
    id ∈ p.activeOf i ↔
      ∃ c, (d.routines[i]?).bind Document.Routine.active = some c ∧ id ∈ c.templates := by
  rw [activeOf, container?_ofDocument h]
  cases (d.routines[i]?).bind Document.Routine.active with
  | none => simp
  | some c => simp [Container.ofDocument]

/-- In the program of a document without containers, no routine has templates. -/
theorem notMem_activeOf_ofDocument (h : ofDocument d = .ok p)
    (hactive : ∀ routine ∈ d.routines, routine.active = none) : id ∉ p.activeOf i := by
  intro hid
  obtain ⟨c, hc, -⟩ := (mem_activeOf_ofDocument h).mp hid
  obtain ⟨routine, hroutine, hsome⟩ := Option.bind_eq_some_iff.mp hc
  simp [hactive routine (List.mem_of_getElem? hroutine)] at hsome

/-! ## Markers -/

/-- The markers of a program are the regions of its document, numbered in their order. -/
theorem live_ofDocument (h : ofDocument d = .ok p) : p.live =
    (ownedRegions 0 d.routines).mapIdx fun id e => Marker.ofDocument id e.1 e.2 := by
  obtain ⟨-, rfl⟩ := ofDocument_eq_ok_iff.mp h
  have hsome : ((ownedRegions 0 d.routines).mapIdx fun id owned =>
      some (Marker.ofDocument id owned.1 owned.2)) =
      ((ownedRegions 0 d.routines).mapIdx fun id owned =>
        Marker.ofDocument id owned.1 owned.2).map some := (map_mapIdx _ _ _).symm
  rw [live, hsome, List.filterMap_map, Function.id_comp, List.filterMap_some]

/-- The markers of a program as they stand in its document. -/
theorem map_holding_live (h : ofDocument d = .ok p) : p.live.map Marker.holding =
    (ownedRegions 0 d.routines).map fun e => (e.1, TemplateSet.ofList e.2.templates) := by
  rw [live_ofDocument h, map_mapIdx]
  exact mapIdx_const _ fun e : Nat × Document.Region => (e.1, TemplateSet.ofList e.2.templates)

end Program

end KernelGraph
