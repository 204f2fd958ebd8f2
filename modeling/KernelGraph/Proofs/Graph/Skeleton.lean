import KernelGraph.Call.Spread
import KernelGraph.Region.Promotion

/-!
# What an analysis changes

An analysis assigns positions and containers to routines and consumes markers. All else of a
program, its skeleton, is the same before and after, and with it all that is read off the calls and
the names. What is assigned is looked up by the number of a routine.

## Main definitions

* `Program.skeleton` — a program without positions, containers and markers
* `Program.position?`, `Program.container?`, `Program.activeOf` — what has been assigned to a
  routine
* `Evolves` — the skeleton is kept, and no marker is new

## Main results

* `skeleton_receive`, `skeleton_promote` — the steps of an analysis keep the skeleton
* `position?_receive`, `container?_receive`, `container?_promote` — what they assign
-/

namespace KernelGraph

/-- A routine without what an analysis assigns to it. -/
def Routine.skeleton (r : Routine) : Routine := { r with position := .unset, active := none }

namespace Program

/-- A program without positions, containers and markers. -/
def skeleton (p : Program) : Program :=
  { p with routines := p.routines.map Routine.skeleton, regions := [] }

/-- The position of a routine. -/
def position? (p : Program) (i : Nat) : Option Position := (p.routine? i).map Routine.position

/-- The container of a routine. -/
def container? (p : Program) (i : Nat) : Option Container := (p.routine? i).bind Routine.active

/-- The templates in the container of a routine. -/
def activeOf (p : Program) (i : Nat) : TemplateSet := (p.container? i).elim ∅ Container.templates

variable {p q : Program} {i j : Nat} {v : Position} {s : TemplateSet} {f : Routine → Routine}

/-! ## Reading off the skeleton -/

theorem calls_eq_of_skeleton (h : q.skeleton = p.skeleton) : q.calls = p.calls :=
  (congrArg calls h :)

theorem names_eq_of_skeleton (h : q.skeleton = p.skeleton) : q.names = p.names :=
  (congrArg names h :)

theorem template?_eq_of_skeleton (h : q.skeleton = p.skeleton) (id : String) :
    q.template? id = p.template? id := by
  have htemplates : q.templates = p.templates := (congrArg templates h :)
  rw [template?, template?, htemplates]

theorem idOf?_eq_of_skeleton (h : q.skeleton = p.skeleton) (name : String) :
    q.idOf? name = p.idOf? name := by
  rw [idOf?, idOf?, names_eq_of_skeleton h]

theorem routine?_skeleton (p : Program) (i : Nat) :
    p.skeleton.routine? i = (p.routine? i).map Routine.skeleton := by
  simp [routine?, skeleton]

theorem length_routines_eq_of_skeleton (h : q.skeleton = p.skeleton) :
    q.routines.length = p.routines.length := by
  simpa [skeleton] using congrArg (fun x => x.routines.length) h

/-- A routine is found in two programs of one skeleton alike, but for what is assigned to it. -/
theorem exists_routine?_of_skeleton {r : Routine} (h : q.skeleton = p.skeleton)
    (hr : q.routine? i = some r) :
    ∃ r', p.routine? i = some r' ∧ r'.id = r.id ∧ r'.name = r.name := by
  have hmap : (p.routine? i).map Routine.skeleton = some r.skeleton := by
    rw [← routine?_skeleton, ← h, routine?_skeleton, hr, Option.map_some]
  obtain ⟨r', hr', heq⟩ := Option.map_eq_some_iff.mp hmap
  exact ⟨r', hr', (congrArg Routine.id heq :), (congrArg Routine.name heq :)⟩

theorem nameOf_eq_of_skeleton (h : q.skeleton = p.skeleton) (i : Nat) :
    q.nameOf i = p.nameOf i := by
  -- a name is read off the skeleton
  have hname : ∀ x : Program, x.nameOf i = x.skeleton.nameOf i := by
    intro x
    rw [nameOf, nameOf, routine?_skeleton, Option.map_map]
    rfl
  rw [hname q, hname p, h]

/-! ## Changing one routine or one marker -/

theorem skeleton_modifyRoutine (hf : ∀ r, (f r).skeleton = r.skeleton) :
    (p.modifyRoutine i f).skeleton = p.skeleton := by
  have hmap : (p.routines.modify i f).map Routine.skeleton = p.routines.map Routine.skeleton := by
    apply List.ext_getElem?
    intro j
    simp only [List.getElem?_map, List.getElem?_modify]
    by_cases hij : i = j
    · cases p.routines[j]? <;> simp [hij, hf]
    · simp [hij]
  rw [skeleton, skeleton, modifyRoutine, hmap]

theorem isSome_routine?_iff : (p.routine? i).isSome ↔ i < p.routines.length := by
  simp [routine?]

@[simp] theorem skeleton_receive : (p.receive v i s).skeleton = p.skeleton :=
  skeleton_modifyRoutine fun _ => rfl

@[simp] theorem regions_receive : (p.receive v i s).regions = p.regions := rfl

theorem routine?_receive {r : Routine} (hr : p.routine? i = some r) :
    (p.receive v i s).routine? i = some (r.receive v s) := by
  rw [receive, routine?_modifyRoutine, if_pos rfl, hr, Option.map_some]

theorem position?_receive (hi : i < p.routines.length) :
    (p.receive v i s).position? j = if i = j then some v else p.position? j := by
  rw [position?, position?, receive, routine?_modifyRoutine]
  obtain ⟨r, hr⟩ := Option.isSome_iff_exists.mp (isSome_routine?_iff.mpr hi)
  by_cases hij : i = j
  · subst hij
    simp [hr, Routine.receive]
  · simp [hij]

theorem routine?_receive_of_ne (hij : i ≠ j) : (p.receive v i s).routine? j = p.routine? j := by
  rw [receive, routine?_modifyRoutine, if_neg hij]

theorem container?_receive_of_ne (hij : i ≠ j) :
    (p.receive v i s).container? j = p.container? j := by
  rw [container?, container?, routine?_receive_of_ne hij]

/-- Among the templates of a routine that receives are then those handed to it. -/
theorem mem_activeOf_receive {id : String} (hi : i < p.routines.length) :
    id ∈ (p.receive v i s).activeOf i ↔ id ∈ p.activeOf i ∨ id ∈ s := by
  obtain ⟨r, hr⟩ := Option.isSome_iff_exists.mp (isSome_routine?_iff.mpr hi)
  simp only [activeOf, container?, hr, routine?_receive hr, Option.bind_some, Routine.receive]
  by_cases hs : s.isEmpty
  -- when nothing is handed over, no container is made
  · simp [hs, TemplateSet.isEmpty_iff.mp hs id]
  · cases r.active with
    | none => simp [hs, Container.empty]
    | some c => simp [hs]

/-! ## Promoting a marker -/

theorem mem_live_iff {m : Marker} : m ∈ p.live ↔ ∃ i, p.marker? i = some m := by
  rw [live, List.mem_filterMap]
  constructor
  · rintro ⟨_, hmem, rfl⟩
    obtain ⟨i, hi⟩ := List.mem_iff_getElem?.mp hmem
    exact ⟨i, by simp [marker?, hi]⟩
  · rintro ⟨i, hi⟩
    exact ⟨some m, List.mem_of_getElem? (Option.join_eq_some_iff.mp hi), rfl⟩

theorem promote_eq {m : Marker} (hm : p.marker? i = some m) (howner : m.owner < p.routines.length) :
    (p.promote i).1 = (p.setMarker i none).modifyRoutine m.owner fun r =>
      { r with active := some ((r.active.getD .empty).receive m) } := by
  obtain ⟨r, hr⟩ := Option.isSome_iff_exists.mp (isSome_routine?_iff.mpr howner)
  have hr' : (p.setMarker i none).routine? m.owner = some r := hr
  simp only [promote, hm, hr']

@[simp] theorem skeleton_promote : (p.promote i).1.skeleton = p.skeleton := by
  unfold promote
  split
  · rfl
  · dsimp only
    split
    · rfl
    · exact skeleton_modifyRoutine fun _ => rfl

theorem marker?_promote : (p.promote i).1.marker? j = if i = j then none else p.marker? j := by
  have hset : (p.setMarker i none).marker? j = if i = j then none else p.marker? j := by
    rw [marker?_setMarker]
    by_cases hij : i = j
    · by_cases hlt : j < p.regions.length
      · simp [hij, hlt]
      · simp [hij, hlt, marker?]
    · simp [hij]
  unfold promote
  split
  -- no marker was at the place, and none is then
  · rename_i hnone
    by_cases hij : i = j
    · rw [if_pos hij, ← hij, hnone]
    · rw [if_neg hij]
  · dsimp only
    split
    · exact hset
    · exact hset

section Owner

variable {m : Marker} (hm : p.marker? i = some m) (howner : m.owner < p.routines.length)

include hm howner

theorem position?_promote : (p.promote i).1.position? j = p.position? j := by
  rw [promote_eq hm howner, position?, position?, routine?_modifyRoutine]
  have hsame : (p.setMarker i none).routine? j = p.routine? j := rfl
  rw [hsame]
  split <;> cases p.routine? j <;> rfl

theorem container?_promote : (p.promote i).1.container? j =
    if m.owner = j then some (((p.container? j).getD .empty).receive m) else p.container? j := by
  rw [promote_eq hm howner, container?, container?, routine?_modifyRoutine]
  have hsame : (p.setMarker i none).routine? j = p.routine? j := rfl
  rw [hsame]
  by_cases hij : m.owner = j
  · obtain ⟨r, hr⟩ := Option.isSome_iff_exists.mp (isSome_routine?_iff.mpr howner)
    subst hij
    simp [hr]
  · simp [hij]

/-- Promotion adds the templates of a marker to those of the routine that owns it. -/
theorem mem_activeOf_promote {id : String} :
    id ∈ (p.promote i).1.activeOf j ↔ id ∈ p.activeOf j ∨ m.owner = j ∧ id ∈ m.templates := by
  rw [activeOf, activeOf, container?_promote hm howner]
  by_cases hij : m.owner = j
  · cases hc : p.container? j with
    | none => simp [hij, Container.receive, Container.empty]
    | some c => simp [hij, Container.receive]
  · simp [hij]

end Owner

end Program

/-! ## Programs that come from one another -/

/-- `q` has the skeleton of `p`, and each of its markers is left over from one of `p`. -/
structure Evolves (p q : Program) : Prop where
  skeleton : q.skeleton = p.skeleton
  marker : ∀ i m, q.marker? i = some m →
    ∃ m', p.marker? i = some m' ∧ m'.id = m.id ∧ m'.owner = m.owner

namespace Evolves

variable {p q r : Program} {i : Nat} {v : Position} {s : TemplateSet}

theorem refl (p : Program) : Evolves p p := ⟨rfl, fun _ m hm => ⟨m, hm, rfl, rfl⟩⟩

theorem trans (hpq : Evolves p q) (hqr : Evolves q r) : Evolves p r := by
  refine ⟨hqr.skeleton.trans hpq.skeleton, fun i m hm => ?_⟩
  obtain ⟨m', hm', hid, howner⟩ := hqr.marker i m hm
  obtain ⟨m'', hm'', hid', howner'⟩ := hpq.marker i m' hm'
  exact ⟨m'', hm'', hid'.trans hid, howner'.trans howner⟩

theorem of_regions_eq (hskeleton : q.skeleton = p.skeleton) (hregions : q.regions = p.regions) :
    Evolves p q :=
  ⟨hskeleton, fun i m hm => ⟨m, by rw [Program.marker?, ← hregions]; exact hm, rfl, rfl⟩⟩

theorem promote (p : Program) (i : Nat) : Evolves p (p.promote i).1 := by
  refine ⟨Program.skeleton_promote, fun j m hm => ⟨m, ?_, rfl, rfl⟩⟩
  rw [Program.marker?_promote] at hm
  split at hm
  · simp at hm
  · exact hm

end Evolves

end KernelGraph
