import KernelGraph.Proofs.Graph.Raising
import KernelGraph.Proofs.Graph.Renumbering
import KernelGraph.Proofs.Region.Repetition

/-!
# Programs without empty places

Markers that are promoted or dropped leave their places empty. A program is compact when no place is
empty: its markers are numbered in their order. What is read off a program without the numbers of
its markers is read off the compact one alike. Written to a document and lowered again, a program
becomes compact, and nothing else about it changes.

## Main definitions

* `Marker.numbered` — a marker under another number
* `Program.withMarkers`, `Program.compact` — a program with markers numbered in their order

## Main results

* `compact_eq_iff` — programs that differ in the numbers of their markers
* `relationsOf_compact`, `toDocument_compact` — what does not depend on the numbers of markers
* `ownedRegions_toDocument` — the markers of a program as they stand in its document
* `ofDocument_toDocument` — a program that is written to a document and lowered again
-/

namespace KernelGraph

/-- A marker under another number. -/
def Marker.numbered (id : Nat) (m : Marker) : Marker := { m with id := id }

namespace Program

/-- The program with other markers, which are numbered in their order. -/
def withMarkers (p : Program) (ms : List Marker) : Program :=
  { p with regions := ms.mapIdx fun id m => some (m.numbered id) }

/-- The program with the markers that are left numbered anew, so that no place is empty. -/
def compact (p : Program) : Program := p.withMarkers p.live

variable {d : Document} {p q : Program} {i : Nat} {m m' : Marker} {ms ms' : List Marker}

/-! ## What is read off a compact program -/

@[simp] theorem skeleton_compact (p : Program) : p.compact.skeleton = p.skeleton := rfl

@[simp] theorem routine?_compact (p : Program) (i : Nat) : p.compact.routine? i = p.routine? i :=
  rfl

theorem live_compact (p : Program) : p.compact.live = p.live.mapIdx Marker.numbered := by
  have hsome : (p.live.mapIdx fun id m => some (m.numbered id)) =
      (p.live.mapIdx Marker.numbered).map some := (map_mapIdx _ _ _).symm
  rw [live, compact, withMarkers, hsome, List.filterMap_map, Function.id_comp, List.filterMap_some]

section Numbers

variable {α : Type} (f : Marker → α) (hf : ∀ id m, f (m.numbered id) = f m)

include hf

/-- What is read off markers without their numbers is read off the compact program. -/
theorem map_live_compact (p : Program) : p.compact.live.map f = p.live.map f := by
  rw [live_compact, map_mapIdx]
  simp only [hf]
  exact mapIdx_const p.live f

/-- The same of the markers of a routine. -/
theorem map_owned_compact (p : Program) (i : Nat) :
    (p.compact.live.filter (·.owner = i)).map f = (p.live.filter (·.owner = i)).map f := by
  have hpairs : p.compact.live.map (fun m => (m.owner, f m)) =
      p.live.map fun m => (m.owner, f m) :=
    map_live_compact _ (fun id m => congrArg (Prod.mk m.owner) (hf id m)) p
  -- the owners are not changed either, so the markers of a routine can be told from the pairs
  have howned : ∀ ms : List Marker, (ms.filter (·.owner = i)).map f =
      ((ms.map fun m => (m.owner, f m)).filter (·.1 = i)).map Prod.snd := by
    intro ms
    rw [List.filter_map, List.map_map]
    rfl
  rw [howned, howned, hpairs]

end Numbers

/-- What a routine hands on depends on the sets of its markers only. -/
theorem relationsOf_congr (hroutine : q.routine? i = p.routine? i)
    (h : (q.live.filter (·.owner = i)).map Marker.templates =
      (p.live.filter (·.owner = i)).map Marker.templates) :
    q.relationsOf i = p.relationsOf i := by
  rw [relationsOf, relationsOf, hroutine]
  generalize p.live.filter (·.owner = i) = ms at h
  generalize q.live.filter (·.owner = i) = ms' at h
  cases ms with
  | nil => rw [List.map_eq_nil_iff.mp h]
  | cons m ms =>
    obtain ⟨m', rest, rfl, -, -⟩ := List.map_eq_cons_iff.mp h
    -- the union of the sets can be told from the sets
    have hunion : ∀ owned : List Marker, owned.foldl (fun s m => s ∪ m.templates) ∅ =
        (owned.map Marker.templates).foldl (· ∪ ·) ∅ := fun _ => List.foldl_map.symm
    dsimp only
    rw [hunion, hunion, h]

@[simp] theorem relationsOf_compact (p : Program) (i : Nat) :
    p.compact.relationsOf i = p.relationsOf i :=
  relationsOf_congr rfl (map_owned_compact _ (fun _ _ => rfl) p i)

/-- A document has no numbers. -/
@[simp] theorem toDocument_compact (p : Program) : p.compact.toDocument = p.toDocument := by
  have hroutines : (p.routines.mapIdx fun i r =>
      r.toDocument (p.compact.live.filter (·.owner = i))) =
      p.routines.mapIdx fun i r => r.toDocument (p.live.filter (·.owner = i)) := by
    simp only [Routine.toDocument, map_owned_compact Marker.toDocument fun _ _ => rfl]
  rw [toDocument, toDocument, ← hroutines]
  rfl

/-- What narrowing keeps of a marker does not depend on its number. -/
theorem kept?_numbered (p : Program) (platform : Platform) (id : Nat) (m : Marker) :
    p.kept? platform (m.numbered id) = (p.kept? platform m).map (Marker.numbered id) := by
  by_cases hempty : m.templates.isEmpty
  · rw [kept?_of_isEmpty hempty, kept?_of_isEmpty (m := m.numbered id) hempty]
    rfl
  · rw [kept?, kept?, if_neg hempty, if_neg (show ¬ (m.numbered id).templates.isEmpty from hempty)]
    dsimp only [Marker.numbered]
    split <;> rfl

/-! ## Programs that are made the same -/

theorem withMarkers_congr (hrest : q.withMarkers [] = p.withMarkers [])
    (hmarkers : ms'.map (Marker.numbered 0) = ms.map (Marker.numbered 0)) :
    q.withMarkers ms' = p.withMarkers ms := by
  have hnumbered : ∀ (x : Program) (ms : List Marker),
      (x.withMarkers []).withMarkers (ms.map (Marker.numbered 0)) = x.withMarkers ms := by
    intro x ms
    rw [withMarkers, mapIdx_map]
    rfl
  rw [← hnumbered q, hrest, hmarkers, hnumbered p]

/-- Two programs are made the same if they differ in the numbers of their markers only. -/
theorem compact_eq_iff : q.compact = p.compact ↔ q.withMarkers [] = p.withMarkers [] ∧
    q.live.map (Marker.numbered 0) = p.live.map (Marker.numbered 0) := by
  constructor
  · intro h
    refine ⟨(congrArg (·.withMarkers []) h :), ?_⟩
    rw [← map_live_compact _ (fun _ _ => rfl) q, h, map_live_compact _ fun _ _ => rfl]
  · exact fun h => withMarkers_congr h.1 h.2

/-- A compact program stays as it is. -/
theorem compact_compact (p : Program) : p.compact.compact = p.compact :=
  compact_eq_iff.mpr ⟨rfl, map_live_compact _ (fun _ _ => rfl) p⟩

section Same

variable (h : q.compact = p.compact)

include h

theorem routine?_eq_of_compact (i : Nat) : q.routine? i = p.routine? i := by
  rw [← routine?_compact, h, routine?_compact]

theorem skeleton_eq_of_compact : q.skeleton = p.skeleton := by
  rw [← skeleton_compact, h, skeleton_compact]

/-- The markers of one are those of the other under other numbers. -/
theorem exists_live_of_compact (hm : m' ∈ q.live) : ∃ m ∈ p.live, m' = m.numbered m'.id := by
  have hmem : m'.numbered 0 ∈ p.live.map (Marker.numbered 0) :=
    (compact_eq_iff.mp h).2 ▸ List.mem_map_of_mem hm
  obtain ⟨m, hlive, hsame⟩ := List.mem_map.mp hmem
  exact ⟨m, hlive, (congrArg (Marker.numbered m'.id) hsame.symm :)⟩

/-- If narrowing finds nothing to drop in one of them, it finds nothing in the other. -/
theorem effect_narrowAll_of_compact (hp : Coherent p) (hq : Coherent q) {platform : Platform}
    (hnarrow : (narrowAll platform p).effect = (.ok (), p)) :
    (narrowAll platform q).effect = (.ok (), q) := by
  have hskeleton := skeleton_eq_of_compact h
  have hknown := known_of_narrowAll hp hnarrow
  have hnarrowed : ∀ i, p.Narrowed platform i := by
    have hsame : p.narrow platform = p := by
      rw [effect_narrowAll hp hknown] at hnarrow
      exact (Prod.mk.inj hnarrow).2
    exact hsame ▸ narrowed_narrow (p := p)
  apply effect_narrowAll_of_narrowed hq
  · intro m' hm' id hid
    obtain ⟨m, hm, hsame⟩ := exists_live_of_compact h hm'
    rw [template?_eq_of_skeleton hskeleton]
    exact hknown m hm id (by rwa [hsame] at hid)
  · intro i m' hm'
    obtain ⟨m, hm, hsame⟩ := exists_live_of_compact h (mem_live_iff.mpr ⟨i, hm'⟩)
    have hkept := hnarrowed m.id m (hp.marker?_id hm)
    rw [kept?_eq_of_skeleton hskeleton, hsame, kept?_numbered, hkept]
    rfl

/-- The first markers of two such programs are promoted alike. -/
theorem compact_promote (hp : Coherent p) (hq : Coherent q) (hlive : p.live = m :: ms)
    (hlive' : q.live = m' :: ms') : (q.promote m'.id).1.compact = (p.promote m.id).1.compact := by
  -- what is promoted is the marker without its number, and the others are left
  have hpromoted : ∀ {x : Program} {m ms}, Coherent x → x.live = m :: ms →
      (x.promote m.id).1.compact = (x.withMarkers ms).modifyRoutine m.owner fun r =>
        { r with active := some ((r.active.getD .empty).receive (m.numbered 0)) } := by
    intro x m ms hx hlive
    have hm : m ∈ x.live := hlive ▸ List.mem_cons_self
    rw [compact, hx.live_promote hlive, promote_eq (hx.marker?_id hm) (hx.owner_lt_of_mem hm)]
    rfl
  obtain ⟨hrest, hmarkers⟩ := compact_eq_iff.mp h
  rw [hlive, hlive', List.map_cons, List.map_cons, List.cons.injEq] at hmarkers
  obtain ⟨hm, hms⟩ := hmarkers
  have howner : m'.owner = m.owner := (congrArg Marker.owner hm :)
  rw [hpromoted hp hlive, hpromoted hq hlive', withMarkers_congr hrest hms, howner, hm]

end Same

/-! ## Lowering what has been raised -/

/-- The markers that are left are those of the first routine, then those of the second, and so
on. -/
theorem live_eq_flatMap (hp : Coherent p) : p.live =
    (List.range p.routines.length).flatMap fun i => p.live.filter (·.owner = i) := by
  apply hp.live_eq_of_mem_iff
  · have hids : ((List.range p.routines.length).flatMap fun i =>
        (p.live.filter (·.owner = i)).map Marker.id).Pairwise (· < ·) :=
      pairwise_flatMap_markersOf hp
    rwa [← List.map_flatMap, List.pairwise_map] at hids
  · intro m
    simp only [List.mem_flatMap, List.mem_range, List.mem_filter, decide_eq_true_eq]
    constructor
    · exact fun hm => ⟨m.owner, hp.owner_lt_of_mem hm, hm, rfl⟩
    · exact fun ⟨_, _, hm, _⟩ => hm

/-- The markers of a program, with their owners, as they stand in its document. -/
theorem ownedRegions_toDocument (hp : Coherent p) :
    ownedRegions 0 p.toDocument.routines = p.live.map fun m => (m.owner, m.toDocument) := by
  calc ownedRegions 0 p.toDocument.routines
      = (p.routines.zipIdx.map Prod.snd).flatMap fun i =>
          ((p.live.filter (·.owner = i)).map Marker.toDocument).map (i, ·) := by
        rw [ownedRegions_eq_flatMap, toDocument, zipIdx_mapIdx, List.flatMap_map, List.flatMap_map]
        rfl
    _ = (List.range p.routines.length).flatMap fun i =>
          (p.live.filter (·.owner = i)).map fun m => (m.owner, m.toDocument) := by
        rw [List.zipIdx_map_snd, ← List.range_eq_range']
        refine List.flatMap_congr fun i _ => ?_
        rw [List.map_map]
        refine List.map_congr_left fun m hm => ?_
        have howner : m.owner = i := by simpa using (List.mem_filter.mp hm).2
        rw [howner]
        rfl
    _ = p.live.map fun m => (m.owner, m.toDocument) := by
        rw [← List.map_flatMap, ← live_eq_flatMap hp]

theorem ofDocument_toDocument_container (c : Container) :
    Container.ofDocument c.toDocument = c := by
  rw [Container.toDocument, Container.ofDocument, TemplateSet.ofList_ids]

theorem ofDocument_toDocument_marker (id : Nat) (m : Marker) :
    Marker.ofDocument id m.owner m.toDocument = m.numbered id := by
  rw [Marker.toDocument, Marker.ofDocument, TemplateSet.ofList_ids]
  rfl

theorem ofDocument_toDocument_routine (r : Routine) (owned : List Marker) :
    Routine.ofDocument r.id (r.toDocument owned) = r := by
  have hcontainer : Container.ofDocument ∘ Container.toDocument = id :=
    funext ofDocument_toDocument_container
  rw [Routine.toDocument, Routine.ofDocument, Option.map_map, hcontainer, Option.map_id]
  rfl

/-- Routines, calls, templates, names and fields come back as they were, if each has its own place
as its number; and so do the markers that are left, in their order, but for their numbers. -/
theorem ofDocument_toDocument (h : ofDocument d = .ok p) (hskeleton : q.skeleton = p.skeleton)
    (hq : Coherent q) : ofDocument q.toDocument = .ok q.compact := by
  obtain ⟨q', hq', hskeleton'⟩ :=
    exists_ofDocument_of_skeleton (skeleton_toDocument h hskeleton) h
  obtain ⟨-, hall⟩ := ofDocument_eq_ok_iff.mp hq'
  have hroutines : q.toDocument.routines.mapIdx Routine.ofDocument = q.routines := by
    apply List.ext_getElem?
    intro i
    rw [toDocument, List.getElem?_mapIdx, List.getElem?_mapIdx, Option.map_map]
    cases hr : q.routines[i]? with
    | none => rfl
    | some r =>
      obtain rfl := hq.routine_id i r hr
      exact congrArg some (ofDocument_toDocument_routine r _)
  have hcalls : q.toDocument.calls.mapIdx Call.ofDocument = q.calls := by
    apply List.ext_getElem?
    intro i
    rw [toDocument, List.getElem?_mapIdx, List.getElem?_map, Option.map_map]
    cases hc : q.calls[i]? with
    | none => rfl
    | some c =>
      obtain rfl := hq.call_id i c hc
      rfl
  have htemplates : q.toDocument.templates.map Template.ofDocument = q.templates := by
    rw [toDocument, List.map_map]
    exact List.map_id _
  have hregions : ((ownedRegions 0 q.toDocument.routines).mapIdx fun id owned =>
      some (Marker.ofDocument id owned.1 owned.2)) =
      q.live.mapIdx fun id m => some (m.numbered id) := by
    rw [ownedRegions_toDocument hq, mapIdx_map]
    simp only [ofDocument_toDocument_marker]
  have hnames : namesFrom 0 q.toDocument.routines = q.names :=
    calc namesFrom 0 q.toDocument.routines = q'.names := by rw [hall]
      _ = q.names := names_eq_of_skeleton (hskeleton'.trans hskeleton.symm)
  rw [hroutines, hcalls, htemplates, hregions, hnames] at hall
  rw [hq', hall]
  rfl

end Program

end KernelGraph
