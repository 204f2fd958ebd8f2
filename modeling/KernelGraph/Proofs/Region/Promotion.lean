import KernelGraph.Proofs.Analysis.Operations
import KernelGraph.Proofs.Graph.Repeats

/-!
# What promotion moves

The markers of a routine are promoted one after another, in the order of their places. Each adds the
ids and the fields that the container does not have yet, so of an id that is listed more than once
the first stays, and of several values for one key the first counts, that of the container before
those of the markers. Nothing else changes. What has been promoted is gone, so there is nothing left
to promote again.

## Main definitions

* `Container.receiveAll` — a container with the contents of several markers
* `Program.field?` — the value under a key in the container of a routine
* `Program.Promotes` — some markers of a routine have been promoted, and nothing else has changed

## Main results

* `Fields.find?_merge` — what is found in fields that have been merged
* `ids_receiveAll`, `find?_receiveAll` — the ids and the fields of a container that takes markers in
* `promotes_promoteEach` — promoting several markers of a routine
* `promoteRoutine_performAll` — promoting all markers of a routine
-/

namespace KernelGraph

/-! ## Merging -/

namespace Fields

variable {fields others : Fields} {key other : String} {value : Value}

theorem find?_insertNew : (insertNew key value fields).find? other =
    (fields.find? other).or (if other = key then some value else none) := by
  rw [insertNew]
  split
  · rename_i hsome
    by_cases hkey : other = key
    · obtain ⟨v, hv⟩ := Option.isSome_iff_exists.mp (hkey ▸ hsome)
      simp [hv]
    · simp [hkey]
  · rename_i hnone
    rw [find?_insert]
    by_cases hkey : other = key
    · rw [Option.not_isSome_iff_eq_none, ← hkey] at hnone
      rw [if_pos hkey, if_pos hkey, hnone, Option.none_or]
    · simp [hkey]

/-- Of two values for one key, merging keeps the first. -/
theorem find?_merge :
    (merge fields others).find? key = (fields.find? key).or (others.find? key) := by
  induction others generalizing fields with
  | nil => exact Option.or_none.symm
  | cons member others ih =>
    obtain ⟨k, v⟩ := member
    have hstep : merge fields ((k, v) :: others) = merge (insertNew k v fields) others := rfl
    rw [hstep, ih, find?_insertNew, find?_cons, Option.or_assoc]
    by_cases hkey : key = k
    · simp [hkey]
    · simp [hkey]

end Fields

namespace TemplateSet

variable {s t : TemplateSet} {ids others : List String}

theorem insertAll_append :
    (s.insertAll (ids ++ others)).1 = ((s.insertAll ids).1.insertAll others).1 := by
  induction ids generalizing s with
  | nil => rfl
  | cons id ids ih => exact ih

/-- A set to which ids are added lists its own before them, each id once. -/
theorem ids_insertAll_eq_eraseDups : (s.insertAll ids).1.ids = (s.ids ++ ids).eraseDups := by
  calc (s.insertAll ids).1.ids = ((ofList s.ids).insertAll ids).1.ids := by rw [ofList_ids]
    _ = (ofList (s.ids ++ ids)).ids := by rw [ofList, ofList, insertAll_append]
    _ = (s.ids ++ ids).eraseDups := ids_ofList_eq_eraseDups _

end TemplateSet

namespace Container

variable {c? : Option Container} {m : Marker} {ms : List Marker} {key : String}

/-- The container that a routine has after it has taken several markers in, one after another. If it
had none, the first marker makes one. -/
def receiveAll (c? : Option Container) (ms : List Marker) : Option Container :=
  ms.foldl (fun c? m => some ((c?.getD .empty).receive m)) c?

/-- The ids of a container that takes markers in: its own, and then those of the markers in their
order, each once. -/
theorem ids_receiveAll : ((receiveAll c? ms).elim ∅ templates).ids =
    ((c?.elim ∅ templates).ids ++ ms.flatMap fun m => m.templates.ids).eraseDups := by
  have hrun : (receiveAll c? ms).elim ∅ templates =
      ((c?.elim ∅ templates).insertAll (ms.flatMap fun m => m.templates.ids)).1 := by
    induction ms generalizing c? with
    | nil => rfl
    | cons m ms ih =>
      have hstep : (some ((c?.getD .empty).receive m)).elim ∅ templates =
          ((c?.elim ∅ templates).insertAll m.templates.ids).1 := by
        cases c? <;> rfl
      rw [List.flatMap_cons, TemplateSet.insertAll_append, ← hstep]
      exact ih
  rw [hrun, TemplateSet.ids_insertAll_eq_eraseDups]

/-- The value under a key in a container that takes a marker in: its own, or else that of the
marker. -/
theorem find?_receive : ((c?.getD .empty).receive m).extra.find? key =
    (c?.bind fun c => c.extra.find? key).or (m.extra.find? key) := by
  rw [receive, Fields.find?_merge]
  cases c? <;> rfl

/-- The value under a key in a container that takes markers in: its own, or else that of the first
marker with the key. -/
theorem find?_receiveAll : ((receiveAll c? ms).bind fun c => c.extra.find? key) =
    (c?.bind fun c => c.extra.find? key).or (ms.findSome? fun m => m.extra.find? key) := by
  induction ms generalizing c? with
  | nil => exact Option.or_none.symm
  | cons m ms ih =>
    have hrest := @ih (some ((c?.getD .empty).receive m))
    rw [Option.bind_some, find?_receive, Option.or_assoc] at hrest
    rw [List.findSome?_cons]
    refine hrest.trans ?_
    cases m.extra.find? key <;> rfl

theorem isSome_receiveAll : (receiveAll c? ms).isSome ↔ c?.isSome ∨ ms ≠ [] := by
  induction ms generalizing c? with
  | nil => simp [receiveAll]
  | cons m ms ih =>
    have hrest := @ih (some ((c?.getD .empty).receive m))
    exact iff_of_true (hrest.mpr (Or.inl rfl)) (Or.inr (List.cons_ne_nil m ms))

end Container

namespace Program

/-- The value under a key in the container of a routine. -/
def field? (p : Program) (i : Nat) (key : String) : Option Value :=
  (p.container? i).bind fun c => c.extra.find? key

/-- `q` is `p` after markers of routine `i` have been promoted: they are gone, and the container of
the routine has taken them in. -/
structure Promotes (p : Program) (i : Nat) (ms : List Marker) (q : Program) : Prop where
  routine : ∀ j, q.routine? j = (p.routine? j).map fun r =>
    if j = i then { r with active := Container.receiveAll r.active ms } else r
  marker : ∀ place, q.marker? place =
    if place ∈ ms.map Marker.id then none else p.marker? place
  rest : { q with routines := p.routines, regions := p.regions } = p
  places : q.regions.length = p.regions.length

variable {d : Document} {p q : Program} {i : Nat} {m : Marker} {ms : List Marker}

/-! ## One marker after another -/

/-- A marker of a routine that is there is moved. -/
theorem moved_promote (hm : p.marker? m.id = some m) (howner : m.owner < p.routines.length) :
    (p.promote m.id).2 = true := by
  obtain ⟨r, hr⟩ := Option.isSome_iff_exists.mp (isSome_routine?_iff.mpr howner)
  have hr' : (p.setMarker m.id none).routine? m.owner = some r := hr
  simp only [promote, hm, hr']

/-- Where no marker is, there is nothing to promote. -/
theorem promote_of_none {place : Nat} (hnone : p.marker? place = none) :
    p.promote place = (p, false) := by
  simp only [promote, hnone]

theorem Promotes.refl (p : Program) (i : Nat) : Promotes p i [] p := by
  refine ⟨fun j => ?_, by simp, rfl, rfl⟩
  have hsame : (fun r : Routine =>
      if j = i then { r with active := Container.receiveAll r.active [] } else r) = id := by
    funext r
    split <;> rfl
  rw [hsame, Option.map_id_fun, id_eq]

/-- Promoting a marker of a routine, and then others of it. -/
theorem Promotes.cons (hm : p.marker? m.id = some m) (hlt : m.owner < p.routines.length)
    (h : Promotes (p.promote m.id).1 m.owner ms q) : Promotes p m.owner (m :: ms) q := by
  have hone := promote_eq hm hlt
  have hrest : { (p.promote m.id).1 with routines := p.routines, regions := p.regions } = p := by
    rw [hone]
    rfl
  refine ⟨fun j => ?_, fun place => ?_, ?_, ?_⟩
  · rw [h.routine, hone, routine?_modifyRoutine]
    have hset : (p.setMarker m.id none).routine? j = p.routine? j := rfl
    rw [hset]
    by_cases hj : m.owner = j
    · simp only [hj, if_true, Option.map_map]
      rfl
    · simp only [hj, Ne.symm hj, if_false]
  · rw [h.marker, marker?_promote, List.map_cons]
    by_cases hplace : place = m.id
    · simp [hplace]
    · simp [hplace, Ne.symm hplace]
  · calc { q with routines := p.routines, regions := p.regions }
        = { { q with routines := (p.promote m.id).1.routines
                     regions := (p.promote m.id).1.regions } with
              routines := p.routines, regions := p.regions } := rfl
      _ = p := by rw [h.rest, hrest]
  · rw [h.places, hone]
    simp [modifyRoutine, setMarker]

/-- Promoting several markers of a routine moves each of them. -/
theorem promotes_promoteEach (hi : i < p.routines.length)
    (hms : ∀ m ∈ ms, p.marker? m.id = some m ∧ m.owner = i) (hnodup : (ms.map Marker.id).Nodup) :
    Promotes p i ms (p.promoteEach (ms.map Marker.id)).1 ∧
      (p.promoteEach (ms.map Marker.id)).2 = ms.length := by
  -- by induction on the markers: those that are left stay where they are
  induction ms generalizing p with
  | nil => exact ⟨.refl p i, rfl⟩
  | cons m ms ih =>
    obtain ⟨hm, rfl⟩ := hms m List.mem_cons_self
    rw [List.map_cons, List.nodup_cons] at hnodup
    obtain ⟨hrest, hcount⟩ := @ih (p.promote m.id).1
      (by rwa [length_routines_eq_of_skeleton skeleton_promote]) (fun m' hm' => by
        refine ⟨?_, (hms m' (List.mem_cons_of_mem _ hm')).2⟩
        rw [marker?_promote, if_neg, (hms m' (List.mem_cons_of_mem _ hm')).1]
        exact fun heq => hnodup.1 (heq ▸ List.mem_map_of_mem hm')) hnodup.2
    refine ⟨hrest.cons hm hi, ?_⟩
    rw [List.map_cons, promoteEach]
    simp only [moved_promote hm hi, hcount, List.length_cons, Bool.toNat_true]

/-! ## All markers of a routine -/

theorem Promotes.container? (h : Promotes p i ms q) (hi : i < p.routines.length) :
    q.container? i = Container.receiveAll (p.container? i) ms := by
  obtain ⟨r, hr⟩ := Option.isSome_iff_exists.mp (isSome_routine?_iff.mpr hi)
  simp [Program.container?, h.routine, hr]

section Routine

variable (hp : Coherent p) (hi : i < p.routines.length)

include hp

theorem coherent_promoteRoutine : Coherent (p.promoteRoutine i).1 :=
  (annotates_of_steps (reflTransGen_promoteEach p _)).evolves.coherent hp

include hi

theorem promotes_promoteRoutine :
    Promotes p i (p.live.filter (·.owner = i)) (p.promoteRoutine i).1 ∧
      (p.promoteRoutine i).2 = (p.live.filter (·.owner = i)).length := by
  refine promotes_promoteEach hi (fun m hm => ?_) (hp.nodup_markersOf i)
  rw [List.mem_filter, decide_eq_true_eq] at hm
  exact ⟨hp.marker?_id hm.1, hm.2⟩

/-- The markers of the routine are gone, and those of others are left. -/
theorem marker?_promoteRoutine (place : Nat) :
    (p.promoteRoutine i).1.marker? place = (p.marker? place).filter (·.owner ≠ i) := by
  rw [(promotes_promoteRoutine hp hi).1.marker]
  have hmem : place ∈ p.markersOf i ↔ ∃ m, p.marker? place = some m ∧ m.owner = i :=
    hp.mem_markersOf_iff
  rw [markersOf] at hmem
  simp only [hmem]
  cases hm : p.marker? place with
  | none => simp
  | some m => by_cases howner : m.owner = i <;> simp [Option.filter, howner]

theorem markersOf_promoteRoutine : (p.promoteRoutine i).1.markersOf i = [] := by
  rw [List.eq_nil_iff_forall_not_mem]
  intro place hplace
  obtain ⟨m, hm, howner⟩ := (coherent_promoteRoutine hp).mem_markersOf_iff.mp hplace
  rw [marker?_promoteRoutine hp hi, Option.filter_eq_some_iff] at hm
  simp [howner] at hm

end Routine

/-- Whatever has been done to the program of a document, promoting the markers of a routine moves
all of them. The container of the routine lists its ids and then those of the markers, each once,
and under each key it has its own value, or else that of the first marker with the key; it is made
if there was none and there are markers. All other routines and markers, and the rest of the
program, are as they were. Promoting again moves nothing and changes nothing. -/
theorem promoteRoutine_performAll {start : Program} (h : ofDocument d = .ok start)
    (operations : List Operation) (hi : i < (start.performAll operations).routines.length) :
    let p := start.performAll operations
    let owned := p.live.filter (·.owner = i)
    let q := (p.promoteRoutine i).1
    ((p.promoteRoutine i).2 = owned.length ∧ q.markersOf i = []) ∧
    ((q.activeOf i).ids =
        ((p.activeOf i).ids ++ owned.flatMap fun m => m.templates.ids).eraseDups ∧
      (∀ key, q.field? i key =
        (p.field? i key).or (owned.findSome? fun m => m.extra.find? key)) ∧
      ((q.container? i).isSome ↔ (p.container? i).isSome ∨ owned ≠ [])) ∧
    ((∀ j, q.routine? j = (p.routine? j).map fun r =>
        if j = i then { r with active := q.container? i } else r) ∧
      (∀ place, q.marker? place = (p.marker? place).filter (·.owner ≠ i)) ∧
      { q with routines := p.routines, regions := p.regions } = p ∧
      q.regions.length = p.regions.length) ∧
    q.promoteRoutine i = (q, 0) ∧ ∀ m ∈ owned, q.promote m.id = (q, false) := by
  have hp := coherent_performAll (coherent_ofDocument h) operations
  generalize start.performAll operations = p at hp hi
  obtain ⟨hpromotes, hcount⟩ := promotes_promoteRoutine hp hi
  have hcontainer := hpromotes.container? hi
  have hnone := markersOf_promoteRoutine hp hi
  have hmarker := marker?_promoteRoutine hp hi
  dsimp only
  refine ⟨⟨hcount, hnone⟩, ⟨?_, fun key => ?_, ?_⟩,
    ⟨fun j => ?_, hmarker, hpromotes.rest, hpromotes.places⟩, ?_, fun m hm => ?_⟩
  · rw [activeOf, hcontainer, Container.ids_receiveAll, activeOf]
  · rw [field?, hcontainer, Container.find?_receiveAll, field?]
  · rw [hcontainer, Container.isSome_receiveAll]
  · rw [hpromotes.routine, hcontainer]
    refine Option.map_congr fun r hr => ?_
    by_cases hj : j = i
    · have hactive : p.container? i = r.active := by
        rw [container?, ← hj, hr, Option.bind_some]
      rw [if_pos hj, if_pos hj, hactive]
    · rw [if_neg hj, if_neg hj]
  · rw [promoteRoutine, hnone]
    rfl
  · apply promote_of_none
    rw [List.mem_filter, decide_eq_true_eq] at hm
    rw [hmarker, hp.marker?_id hm.1]
    simp [hm.2]

/-- `kernel` has a container and three regions, of which one is for another platform. They share ids
and keys with one another and with the container. -/
def gathered : Document where
  routines :=
    [⟨"kernel", .unset,
        [⟨["t", "a"], [("bounds", .text "1:n"), ("note", .text "new")]⟩, ⟨["g"], []⟩,
          ⟨["b", "a"], [("bounds", .text "1:m"), ("depth", .text "2")]⟩],
        some ⟨["u", "t"], [("note", .text "old")]⟩, []⟩,
      ⟨"other", .unset, [⟨["t"], []⟩], none, []⟩]
  calls := []
  templates := [⟨"t", [], []⟩, ⟨"a", [], []⟩, ⟨"b", [], []⟩, ⟨"g", ["GPU"], []⟩]
  extra := []

/-- The two regions that apply to the CPU are promoted, and the one of the other routine is left. -/
theorem promoteRoutine_performAll_gathered : ∃ start, ofDocument gathered = .ok start ∧
    let p := start.performAll [.narrowAll .cpu]
    let q := (p.promoteRoutine 0).1
    0 < p.routines.length ∧ (p.promoteRoutine 0).2 = 2 ∧ q.markersOf 0 = [] ∧
      (q.activeOf 0).ids = ["u", "t", "a", "b"] ∧
      q.field? 0 "note" = some (.text "old") ∧ q.field? 0 "bounds" = some (.text "1:n") ∧
      q.field? 0 "depth" = some (.text "2") ∧ q.marker? 3 = p.marker? 3 ∧
      q.promoteRoutine 0 = (q, 0) := by
  obtain ⟨⟨hcount, hnone⟩, ⟨hids, hfield, -⟩, ⟨-, hmarker, -, -⟩, hagain, -⟩ :=
    promoteRoutine_performAll (d := gathered) (i := 0) rfl [.narrowAll .cpu] (by decide +kernel)
  exact ⟨_, rfl, by decide +kernel, hcount.trans (by decide +kernel), hnone,
    hids.trans (by decide +kernel), (hfield "note").trans (by decide +kernel),
    (hfield "bounds").trans (by decide +kernel), (hfield "depth").trans (by decide +kernel),
    (hmarker 3).trans (by decide +kernel), hagain⟩

end Program

end KernelGraph
