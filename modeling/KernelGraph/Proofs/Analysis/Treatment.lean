import KernelGraph.Analysis.Run
import KernelGraph.Proofs.Call.Mixing
import KernelGraph.Proofs.Call.Settling
import Mathlib.Algebra.GroupWithZero.Nat

/-!
# Treating regions

Treating the region of a marker meets all demands of the kernel on positions, hands the templates of
the kernel on, and consumes the marker. It fails if the marker has no templates or if the demands
cannot be met. Regions treated one after another are treated if all their demands can be met
together, in whatever order they come.

## Main definitions

* `Program.host`, `Program.treat` — the program after one region has been entered, or treated
* `Program.RegionEnd`, `Program.RunEnd` — how treating one region, or several, ends

## Main results

* `settled_treat` — treating a region meets the demands of its kernel
* `regionEnd_analyseRegion`, `runEnd_analyseEntries` — one region, and a run over several
* `settled_foldl_treat` — a run meets the demands of all its kernels
-/

namespace KernelGraph

namespace Program

/-- The program in which a routine hosts a kernel. -/
def host (p : Program) (k : Nat) : Program :=
  p.modifyRoutine k fun r => { r with position := .within }

/-- The program in which a routine hosts a kernel, which has spread to its callers. -/
def climb (p : Program) (k : Nat) : Program :=
  (p.host k).handOn .outside (p.trail .upward true k)

/-- The program in which a routine hosts a kernel, which has spread in both directions. -/
def spreadAll (p : Program) (k : Nat) : Program :=
  (p.climb k).handOn .inside (p.trail .downward true k)

/-- The number of routines that receive a position from a kernel. -/
def spreadCount (p : Program) (k : Nat) : Nat :=
  (p.trail .upward true k).length + (p.trail .downward true k).length

/-- The program in which the region of a marker has been treated. -/
def treat (p : Program) (m : Marker) : Program := ((p.spreadAll m.owner).promote m.id).1

variable {p q : Program} {m : Marker} {ms : List Marker} {i j k : Nat} {v : Position}

/-! ## What stays the same -/

@[simp] theorem skeleton_host : (p.host k).skeleton = p.skeleton :=
  skeleton_modifyRoutine fun _ => rfl

@[simp] theorem regions_host : (p.host k).regions = p.regions := rfl

@[simp] theorem skeleton_climb : (p.climb k).skeleton = p.skeleton := by
  rw [climb, skeleton_handOn, skeleton_host]

@[simp] theorem regions_climb : (p.climb k).regions = p.regions := by
  rw [climb, regions_handOn, regions_host]

@[simp] theorem skeleton_spreadAll : (p.spreadAll k).skeleton = p.skeleton := by
  rw [spreadAll, skeleton_handOn, skeleton_climb]

@[simp] theorem regions_spreadAll : (p.spreadAll k).regions = p.regions := by
  rw [spreadAll, regions_handOn, regions_climb]

theorem marker?_spreadAll : (p.spreadAll k).marker? i = p.marker? i := by
  rw [marker?, regions_spreadAll, marker?]

@[simp] theorem skeleton_treat : (p.treat m).skeleton = p.skeleton := by
  rw [treat, skeleton_promote, skeleton_spreadAll]

theorem evolves_treat (p : Program) (m : Marker) : Evolves p (p.treat m) :=
  (Evolves.of_regions_eq skeleton_spreadAll regions_spreadAll).trans (.promote _ _)

/-- `q` is `p` but for what has been assigned to routines of which the kernel in routine `k` demands
a position. -/
structure Touches (p : Program) (k : Nat) (q : Program) : Prop where
  skeleton : q.skeleton = p.skeleton
  regions : q.regions = p.regions
  others : ∀ i, (∀ v, ¬ p.Demands k v i) → q.routine? i = p.routine? i

namespace Touches

theorem refl (p : Program) (k : Nat) : Touches p k p := ⟨rfl, rfl, fun _ _ => rfl⟩

theorem host (p : Program) (k : Nat) : Touches p k (p.host k) where
  skeleton := skeleton_host
  regions := regions_host
  others i hi := by
    rw [Program.host, routine?_modifyRoutine, if_neg]
    rintro rfl
    exact hi .within rfl

/-- What a kernel hands on along a trail touches only routines of which it demands a position. -/
theorem handOn (direction : Direction) {edges : List (Nat × Nat)} (hp : Coherent p)
    (hdirection : direction ≠ .kernel) (h : Touches p k q)
    (hedges : ∀ e ∈ edges, e ∈ p.trail direction true k) :
    Touches p k (q.handOn direction.position edges) where
  skeleton := skeleton_handOn.trans h.skeleton
  regions := regions_handOn.trans h.regions
  others i hi := by
    rw [routine?_handOn_of_notMem, h.others i hi]
    intro hmem
    obtain ⟨e, he, rfl⟩ := List.mem_map.mp hmem
    exact hi _ (demands_of_mem_trail hp hdirection (List.mem_map_of_mem (hedges e he)))

theorem climb (hp : Coherent p) (k : Nat) : Touches p k (p.climb k) :=
  (host p k).handOn .upward hp (by simp) fun _ he => he

end Touches

/-- Treating a region consumes its marker and no other. -/
theorem mem_live_treat (hp : Coherent p) {m' : Marker} :
    m' ∈ (p.treat m).live ↔ m' ∈ p.live ∧ m'.id ≠ m.id := by
  rw [treat, (hp.of_regions_eq skeleton_spreadAll regions_spreadAll).mem_live_promote, live, live,
    regions_spreadAll]

/-! ## The positions -/

theorem position?_host (hk : k < p.routines.length) :
    (p.host k).position? i = if i = k then some .within else p.position? i := by
  rw [position?, position?, host, routine?_modifyRoutine]
  obtain ⟨r, hr⟩ := Option.isSome_iff_exists.mp (isSome_routine?_iff.mpr hk)
  by_cases hi : k = i
  · subst hi
    simp [hr]
  · simp [hi, Ne.symm hi]

/-- What a kernel demands is what it demands of its own routine and in the two directions. -/
theorem demands_iff_demandsIn : p.Demands k v i ↔
    p.DemandsIn k .kernel v i ∨ p.DemandsIn k .upward v i ∨ p.DemandsIn k .downward v i := by
  cases v <;> simp [DemandsIn, Direction.position, Demands]

theorem settled_host (hk : k < p.routines.length) :
    Settled p (p.DemandsIn k .kernel) (p.host k) where
  met v i hv := by
    obtain ⟨rfl, rfl⟩ := hv
    rw [position?_host hk, if_pos rfl]
    rfl
  left i hnone := by
    rw [position?_host hk, if_neg]
    exact fun hi => hnone .within ⟨rfl, hi⟩

theorem demandsIn_eq_of_skeleton {direction : Direction} (h : q.skeleton = p.skeleton) :
    q.DemandsIn k direction = p.DemandsIn k direction := by
  funext v i
  rw [DemandsIn, DemandsIn, demands_iff_of_skeleton h]

theorem ne_unset_of_demands (h : p.Demands k v i) : v ≠ .unset := by
  rintro rfl
  exact h

section Stages

variable (hp : Coherent p) (hk : k < p.routines.length)

include hp hk

omit hp in
theorem position?_host_self : (p.host k).position? k = some .within := by
  rw [position?_host hk, if_pos rfl]

theorem settled_climb (h : (p.host k).Settles (p.DemandsIn k .upward)) :
    Settled (p.host k) (p.DemandsIn k .upward) (p.climb k) := by
  have hq : Coherent (p.host k) := hp.of_regions_eq skeleton_host regions_host
  rw [← demandsIn_eq_of_skeleton skeleton_host] at h ⊢
  rw [climb, ← trail_eq_of_skeleton skeleton_host]
  exact settled_handOn hq (position?_host_self hk) (by simp) h

omit hp in
theorem position?_climb_self : (p.climb k).position? k = some .within := by
  rw [climb, position?_handOn fun e he => ?_, if_neg, position?_host_self hk]
  · exact notMem_trail
  · rw [length_routines_eq_of_skeleton skeleton_host]
    exact lt_of_mem_trail he

theorem settled_spreadAll (h : (p.climb k).Settles (p.DemandsIn k .downward)) :
    Settled (p.climb k) (p.DemandsIn k .downward) (p.spreadAll k) := by
  have hq : Coherent (p.climb k) := hp.of_regions_eq skeleton_climb regions_climb
  rw [← demandsIn_eq_of_skeleton skeleton_climb] at h ⊢
  rw [spreadAll, ← trail_eq_of_skeleton skeleton_climb]
  exact settled_handOn hq (position?_climb_self hk) (by simp) h

/-- The demands of a kernel can be met if those of its own routine can, then those upwards, and then
those downwards. -/
theorem settles_demands_iff : p.Settles (p.Demands k) ↔
    p.Settles (p.DemandsIn k .kernel) ∧ (p.host k).Settles (p.DemandsIn k .upward) ∧
      (p.climb k).Settles (p.DemandsIn k .downward) := by
  have hunset : ∀ direction v i, p.DemandsIn k direction v i → v ≠ .unset :=
    fun _ _ _ h => ne_unset_of_demands h.2
  -- the kernel is entered before it spreads, and upwards before downwards
  rw [settles_congr fun v i => demands_iff_demandsIn,
    settles_or_iff (hunset _) fun _ => settled_host hk,
    settles_or_iff (hunset _) fun h => settled_climb hp hk h]

theorem settled_spreadAll_demands (h : p.Settles (p.Demands k)) :
    Settled p (p.Demands k) (p.spreadAll k) := by
  have hone := (settles_congr fun v i => demands_iff_demandsIn).mp h |>.1
  obtain ⟨-, hup, hdown⟩ := (settles_demands_iff hp hk).mp h
  have hrest := (settled_climb hp hk hup).or (settled_spreadAll hp hk hdown)
    fun i v w hv hw => hone i v w (Or.inr (Or.inl hv)) (Or.inr (Or.inr hw))
  have hall := (settled_host hk).or hrest fun i v w hv hw => hone i v w (Or.inl hv) (Or.inr hw)
  exact hall.congr fun v i => demands_iff_demandsIn.symm

end Stages

/-- Treating a region meets the demands of its kernel. -/
theorem settled_treat (hp : Coherent p) (hm : m ∈ p.live) (h : p.Settles (p.Demands m.owner)) :
    Settled p (p.Demands m.owner) (p.treat m) := by
  have hlt := hp.owner_lt_of_mem hm
  refine (settled_spreadAll_demands hp hlt h).of_position?_eq fun i => ?_
  have hm' : (p.spreadAll m.owner).marker? m.id = some m := by
    rw [marker?_spreadAll, hp.marker?_id hm]
  rw [treat, position?_promote hm']
  rwa [length_routines_eq_of_skeleton skeleton_spreadAll]

/-! ## Treating one region -/

/-- How treating the region of a marker ends: its kernel has demands that can be met, and they have
been met; or the marker has no templates; or some routine cannot take its position. -/
inductive RegionEnd (p : Program) (m : Marker) : Except AnalysisError Nat × Program → Prop
  | done (htemplates : ¬ m.templates.isEmpty) (hsettles : p.Settles (p.Demands m.owner)) :
    RegionEnd p m (.ok (p.spreadCount m.owner), p.treat m)
  | missing (htemplates : m.templates.isEmpty) :
    RegionEnd p m (.error (.missingTemplate (p.nameOf m.owner)), p)
  | conflict (direction : Direction) (t : Nat) (r : Routine) (q : Program)
    (hsettles : ¬ p.Settles (p.Demands m.owner)) (ht : p.Demands m.owner direction.position t)
    (hr : q.routine? t = some r) (hconflict : ¬ r.position.Accepts direction.position)
    (hq : Touches p m.owner q) :
    RegionEnd p m
      (.error (.conflictingPosition r.name r.position direction.position direction), q)

theorem RegionEnd.of_ok {n : Nat} (h : RegionEnd p m (.ok n, q)) :
    ¬ m.templates.isEmpty ∧ p.Settles (p.Demands m.owner) ∧ n = p.spreadCount m.owner ∧
      q = p.treat m := by
  cases h with
  | done htemplates hsettles => exact ⟨htemplates, hsettles, rfl, rfl⟩

/-- Treatment stops only for a region that cannot be treated. -/
theorem RegionEnd.not_treatable {e : AnalysisError} (h : RegionEnd p m (.error e, q)) :
    ¬ (¬ m.templates.isEmpty ∧ p.Settles (p.Demands m.owner)) := by
  cases h with
  | missing htemplates => exact fun hall => hall.1 htemplates
  | conflict direction t r q hsettles _ _ _ _ => exact fun hall => hsettles hall.2

/-- When the treatment of a region stops, all markers are left, and only routines that the kernel is
related to have changed. -/
theorem RegionEnd.touches (h : RegionEnd p m (.error e, q)) : Touches p m.owner q := by
  cases h with
  | missing htemplates => exact .refl p m.owner
  | conflict direction t r q _ _ _ _ hq => exact hq

/-- By an index of the current calls, a check on a GPU reports mixed calls, and no other check
reports anything. -/
theorem effect_checkMixing (p : Program) (catalog : Catalog) (platform : Platform)
    (reported : Reported) (kernel : String) :
    (checkMixing (.build p.calls) catalog platform kernel reported p).effect =
      if platform.isGpu then
        let found :=
          Mixed.firsts reported.callers (Mixed.ofKernel p.calls catalog.hostsKernel kernel)
        (.ok (Mixed.warnings reported.size found, reported.addAll found), p)
      else (.ok ([], reported), p) := by
  rw [checkMixing]
  split
  · rw [Action.effect_look_bind]
    simp only [id_eq, check_build, Action.effect_pure]
  · rfl

theorem exists_effect_checkMixing (p : Program) (catalog : Catalog) (platform : Platform)
    (reported : Reported) (kernel : String) :
    ∃ x, (checkMixing (.build p.calls) catalog platform kernel reported p).effect = (.ok x, p) := by
  rw [effect_checkMixing]
  split
  · exact ⟨_, rfl⟩
  · exact ⟨_, rfl⟩

theorem enterKernel_cases (hp : Coherent p) (hm : m ∈ p.live) (htemplates : ¬ m.templates.isEmpty) :
    (p.Settles (p.DemandsIn m.owner .kernel) ∧ (enterKernel ⟨m.id, m.owner⟩ m p).effect =
      (.ok (p.nameOf m.owner), p.host m.owner)) ∨
    (¬ p.Settles (p.DemandsIn m.owner .kernel) ∧ ∃ r, p.routine? m.owner = some r ∧
      ¬ r.position.Accepts .within ∧ (enterKernel ⟨m.id, m.owner⟩ m p).effect =
        (.error (.conflictingPosition r.name r.position .within .kernel), p)) := by
  obtain ⟨r, hr⟩ := Option.isSome_iff_exists.mp
    (isSome_routine?_iff.mpr (hp.owner_lt_of_mem hm))
  have hname : p.nameOf m.owner = r.name := by simp [nameOf, hr]
  -- of its own routine a kernel demands one position, so only whether this can be taken matters
  have hsettles : p.Settles (p.DemandsIn m.owner .kernel) ↔ r.position.Accepts .within := by
    constructor
    · exact fun h => h.2 .within m.owner ⟨rfl, rfl⟩ _ (by rw [position?, hr, Option.map_some])
    · refine fun h => ⟨fun i v w hv hw => hv.1.trans hw.1.symm, ?_⟩
      rintro v i ⟨rfl, rfl⟩ u hu
      rw [position?, hr, Option.map_some] at hu
      exact Option.some.inj hu ▸ h
  rw [hsettles, enterKernel, if_neg htemplates]
  simp only [hr]
  by_cases haccepts : r.position.Accepts .within
  · exact Or.inl ⟨haccepts, by rw [if_pos haccepts, hname]; rfl⟩
  · exact Or.inr ⟨haccepts, r, rfl, haccepts, by rw [if_neg haccepts]; rfl⟩

/-- A spread from a kernel in a program that has the skeleton of another. -/
theorem spreadFrom_cases_of_skeleton (direction : Direction) (hdirection : direction ≠ .kernel)
    (hq : Coherent q) (hskeleton : q.skeleton = p.skeleton) (hk : q.position? k = some .within)
    (hname : p.nameOf k ≠ "") :
    (q.Settles (p.DemandsIn k direction) ∧ (spreadFrom (.build p.calls) direction k q).effect =
      (.ok (p.trail direction true k).length,
        q.handOn direction.position (p.trail direction true k))) ∨
    (¬ q.Settles (p.DemandsIn k direction) ∧ ∃ n t r, p.Demands k direction.position t ∧
      (q.handOn direction.position ((p.trail direction true k).take n)).routine? t = some r ∧
      ¬ r.position.Accepts direction.position ∧
      (spreadFrom (.build p.calls) direction k q).effect =
        (.error (.conflictingPosition r.name r.position direction.position direction),
          q.handOn direction.position ((p.trail direction true k).take n))) := by
  rw [← demandsIn_eq_of_skeleton hskeleton, ← trail_eq_of_skeleton hskeleton,
    ← calls_eq_of_skeleton hskeleton]
  rw [← nameOf_eq_of_skeleton hskeleton] at hname
  rcases spreadFrom_cases hq hk hdirection hname with hend | ⟨hsettles, n, t, r, hdemand, h⟩
  · exact Or.inl hend
  · exact Or.inr ⟨hsettles, n, t, r, (demands_iff_of_skeleton hskeleton).mp hdemand, h⟩

/-- One region is treated, or its treatment stops. -/
theorem regionEnd_analyseRegion (catalog : Catalog) (platform : Platform) (n : Nat)
    (reported : Reported) (hp : Coherent p) (hm : m ∈ p.live) (hname : p.nameOf m.owner ≠ "") :
    RegionEnd p m (Prod.map (Except.map Prod.fst) id
      (analyseRegion (.build p.calls) catalog platform ⟨m.id, m.owner⟩ n m reported p).effect) := by
  have hk := hp.owner_lt_of_mem hm
  by_cases htemplates : m.templates.isEmpty
  · have heffect : (enterKernel ⟨m.id, m.owner⟩ m p).effect =
        (.error (.missingTemplate (p.nameOf m.owner)), p) := by
      rw [enterKernel, if_pos htemplates]
      rfl
    rw [analyseRegion, Action.effect_bind_error heffect]
    exact .missing htemplates
  -- the demands can be met if each of the three stages finds its own open, so the first that does
  -- not is where the treatment stops
  have hiff := settles_demands_iff hp hk
  rcases enterKernel_cases hp hm htemplates with
    ⟨hhost, heffect⟩ | ⟨hhost, r, hr, hconflict, heffect⟩
  swap
  · rw [analyseRegion, Action.effect_bind_error heffect]
    exact .conflict .kernel m.owner r p (fun h => hhost (hiff.mp h).1) rfl hr hconflict (.refl p _)
  rw [analyseRegion, Action.effect_bind_ok heffect]
  have hcoherent : Coherent (p.host m.owner) := hp.of_regions_eq skeleton_host regions_host
  rcases spreadFrom_cases_of_skeleton .upward (by simp) hcoherent skeleton_host
      (position?_host_self hk) hname with
    ⟨hup, heffect⟩ | ⟨hup, n, t, r, ht, hr, hconflict, heffect⟩
  swap
  · rw [Action.effect_bind_error heffect]
    exact .conflict .upward t r _ (fun h => hup (hiff.mp h).2.1) ht hr hconflict
      ((Touches.host p _).handOn .upward hp (by simp) fun _ => List.mem_of_mem_take)
  rw [Action.effect_bind_ok (q := p.climb m.owner) heffect]
  have hcoherent : Coherent (p.climb m.owner) := hp.of_regions_eq skeleton_climb regions_climb
  rcases spreadFrom_cases_of_skeleton .downward (by simp) hcoherent skeleton_climb
      (position?_climb_self hk) hname with
    ⟨hdown, heffect⟩ | ⟨hdown, n, t, r, ht, hr, hconflict, heffect⟩
  swap
  · rw [Action.effect_bind_error heffect]
    exact .conflict .downward t r _ (fun h => hdown (hiff.mp h).2.2) ht hr hconflict
      ((Touches.climb hp _).handOn .downward hp (by simp) fun _ => List.mem_of_mem_take)
  rw [Action.effect_bind_ok (q := p.spreadAll m.owner) heffect, Action.effect_modify_bind,
    Action.effect_tell_bind]
  -- whatever the check for mixed calls reports, it changes nothing
  obtain ⟨⟨findings, reported'⟩, heffect⟩ :=
    exists_effect_checkMixing (p.treat m) catalog platform reported (p.nameOf m.owner)
  rw [calls_eq_of_skeleton skeleton_treat] at heffect
  rw [Action.effect_bind_ok (p := ((p.spreadAll m.owner).promote m.id).1) heffect]
  exact .done htemplates (hiff.mpr ⟨hhost, hup, hdown⟩)

/-! ## Treating several regions -/

/-- What the kernels of some markers demand. -/
def DemandedBy (p : Program) (ms : List Marker) (v : Position) (i : Nat) : Prop :=
  ∃ m ∈ ms, p.Demands m.owner v i

/-- The regions of some markers can be treated: all have templates, and all their demands can be met
together. -/
def Treatable (p : Program) (ms : List Marker) : Prop :=
  (∀ m ∈ ms, ¬ m.templates.isEmpty) ∧ p.Settles (p.DemandedBy ms)

theorem spreadCount_eq_of_skeleton (h : q.skeleton = p.skeleton) :
    q.spreadCount k = p.spreadCount k := by
  rw [spreadCount, spreadCount, trail_eq_of_skeleton h, trail_eq_of_skeleton h]

theorem demandedBy_eq_of_skeleton (h : q.skeleton = p.skeleton) :
    q.DemandedBy ms = p.DemandedBy ms := by
  funext v i
  simp only [DemandedBy, demands_iff_of_skeleton h]

theorem demandedBy_cons :
    p.DemandedBy (m :: ms) v i ↔ p.Demands m.owner v i ∨ p.DemandedBy ms v i := by
  simp [DemandedBy]

/-- Regions can be treated if the first can, and then the others. -/
theorem treatable_cons (hp : Coherent p) (hm : m ∈ p.live) : p.Treatable (m :: ms) ↔
    (¬ m.templates.isEmpty ∧ p.Settles (p.Demands m.owner)) ∧ (p.treat m).Treatable ms := by
  rw [Treatable, Treatable, List.forall_mem_cons, settles_congr fun v i => demandedBy_cons,
    settles_or_iff (fun v i => ne_unset_of_demands) fun h => settled_treat hp hm h,
    demandedBy_eq_of_skeleton skeleton_treat]
  tauto

theorem evolves_foldl_treat (p : Program) (ms : List Marker) : Evolves p (ms.foldl treat p) := by
  induction ms generalizing p with
  | nil => exact .refl p
  | cons m ms ih => exact (evolves_treat p m).trans (ih _)

/-- Treating regions consumes their markers and no others. -/
theorem mem_live_foldl_treat (hp : Coherent p) {m' : Marker} :
    m' ∈ (ms.foldl treat p).live ↔ m' ∈ p.live ∧ m'.id ∉ ms.map Marker.id := by
  induction ms generalizing p with
  | nil => simp
  | cons m ms ih =>
    rw [List.foldl_cons, ih ((evolves_treat p m).coherent hp), mem_live_treat hp, List.map_cons,
      List.mem_cons, not_or, and_assoc]

/-- After the regions of the first markers have been treated, those of the others are left. -/
theorem live_foldl_treat {before : List Marker} (hp : Coherent p) (h : p.live = before ++ ms) :
    (before.foldl treat p).live = ms := by
  have hq : Coherent (before.foldl treat p) := (evolves_foldl_treat p before).coherent hp
  have hsorted := hp.pairwise_live
  rw [h, List.pairwise_append] at hsorted
  obtain ⟨-, hms, hless⟩ := hsorted
  apply hq.live_eq_of_mem_iff hms
  intro m
  rw [mem_live_foldl_treat hp, h, List.mem_append]
  constructor
  · rintro ⟨hm | hm, hnot⟩
    · exact absurd (List.mem_map_of_mem hm) hnot
    · exact hm
  · intro hm
    refine ⟨Or.inr hm, fun hmem => ?_⟩
    obtain ⟨m', hm', hid⟩ := List.mem_map.mp hmem
    exact absurd (hless m' hm' m hm) (by omega)

/-- After the first region has been treated, the markers of the others are still there. -/
theorem mem_live_treat_of_mem (hp : Coherent p) (hlive : ∀ m' ∈ m :: ms, m' ∈ p.live)
    (hnodup : ((m :: ms).map Marker.id).Nodup) : ∀ m' ∈ ms, m' ∈ (p.treat m).live := by
  intro m' hm'
  rw [List.map_cons, List.nodup_cons] at hnodup
  refine (mem_live_treat hp).mpr ⟨hlive m' (List.mem_cons_of_mem _ hm'), fun heq => ?_⟩
  exact hnodup.1 (heq ▸ List.mem_map_of_mem hm')

/-- A run meets the demands of all its kernels. -/
theorem settled_foldl_treat (hp : Coherent p) (hlive : ∀ m ∈ ms, m ∈ p.live)
    (hnodup : (ms.map Marker.id).Nodup) (h : p.Treatable ms) :
    Settled p (p.DemandedBy ms) (ms.foldl treat p) := by
  -- by induction on the run: what the first region was about stays met, as the others ask for
  -- nothing else of the same routines
  induction ms generalizing p with
  | nil => exact ⟨fun v i hv => by simp [DemandedBy] at hv, fun _ _ => rfl⟩
  | cons m ms ih =>
    have hm := hlive m List.mem_cons_self
    have hone := ((settles_congr fun v i => demandedBy_cons).mp h.2).1
    obtain ⟨⟨-, hfirst⟩, hrest⟩ := (treatable_cons hp hm).mp h
    have hnodup' : (ms.map Marker.id).Nodup := (List.nodup_cons.mp hnodup).2
    have hend := ih ((evolves_treat p m).coherent hp) (mem_live_treat_of_mem hp hlive hnodup)
      hnodup' hrest
    rw [demandedBy_eq_of_skeleton skeleton_treat] at hend
    have hall := (settled_treat hp hm hfirst).or hend fun i v w hv hw =>
      hone i v w (Or.inl hv) (Or.inr hw)
    exact hall.congr fun v i => demandedBy_cons.symm

/-- How treating the regions of markers one after another ends: all have been treated, or those
before one whose treatment stopped. -/
inductive RunEnd (catalog : Catalog) (platform : Platform) (p : Program) (ms : List Marker) :
    Except AnalysisError Report × Program → Prop
  | done (report : Report) (htreatable : p.Treatable ms) (hkernels : report.kernels = ms.length)
    (hassignments : report.assignments = (ms.map fun m => p.spreadCount m.owner).sum) :
    RunEnd catalog platform p ms (.ok report, ms.foldl treat p)
  | stopped (before : List Marker) (m : Marker) (after : List Marker) (n : Nat)
    (reported : Reported) (e : AnalysisError) (q : Program) (hms : ms = before ++ m :: after)
    (hbefore : p.Treatable before) (htreatable : ¬ p.Treatable ms)
    (hrun : (analyseRegion (.build p.calls) catalog platform ⟨m.id, m.owner⟩ n m reported
      (before.foldl treat p)).effect = (.error e, q))
    (hend : RegionEnd (before.foldl treat p) m (.error e, q)) :
    RunEnd catalog platform p ms (.error e, q)

theorem treatable_nil : p.Treatable [] :=
  ⟨by simp, fun _ _ _ hv => by simp [DemandedBy] at hv, fun _ _ hv => by simp [DemandedBy] at hv⟩

/-- A run that treats one region first, and then others. -/
theorem RunEnd.cons {catalog : Catalog} {platform : Platform}
    {o : Except AnalysisError Report × Program} (hp : Coherent p) (hm : m ∈ p.live)
    (htemplates : ¬ m.templates.isEmpty) (hsettles : p.Settles (p.Demands m.owner))
    (findings : List Diagnostic) (h : RunEnd catalog platform (p.treat m) ms o) :
    RunEnd catalog platform p (m :: ms)
      (o.1.map (·.cons (p.spreadCount m.owner) findings), o.2) := by
  cases h with
  | done report htreatable hkernels hassignments =>
    have hall := (treatable_cons hp hm).mpr ⟨⟨htemplates, hsettles⟩, htreatable⟩
    refine @RunEnd.done catalog platform p (m :: ms) _ hall ?_ ?_
    · simp only [Report.cons, hkernels, List.length_cons]
    · simp only [Report.cons, hassignments, List.map_cons, List.sum_cons,
        spreadCount_eq_of_skeleton (skeleton_treat (p := p) (m := m))]
  | stopped before m' after n reported e q hms hbefore htreatable hrun hend =>
    rw [calls_eq_of_skeleton skeleton_treat] at hrun
    refine .stopped (m :: before) m' after n reported e q (by rw [hms]; rfl) ?_ (fun hall => ?_)
      hrun hend
    · exact (treatable_cons hp hm).mpr ⟨⟨htemplates, hsettles⟩, hbefore⟩
    · exact htreatable ((treatable_cons hp hm).mp hall).2

/-- A run over catalog entries treats the regions of their markers one after another. -/
theorem runEnd_analyseEntries (catalog : Catalog) (platform : Platform) (n : Nat)
    (reported : Reported) (hp : Coherent p) (hlive : ∀ m ∈ ms, m ∈ p.live)
    (hnodup : (ms.map Marker.id).Nodup) (hnamed : ∀ m ∈ ms, p.nameOf m.owner ≠ "") :
    RunEnd catalog platform p ms (analyseEntries (.build p.calls) catalog platform
      ((ms.map fun m => ⟨m.id, m.owner⟩).zipIdx n) reported p).effect := by
  induction ms generalizing p n reported with
  | nil => exact .done .empty treatable_nil rfl rfl
  | cons m ms ih =>
    have hm := hlive m List.mem_cons_self
    have hrest := mem_live_treat_of_mem hp hlive hnodup
    rw [List.map_cons, List.zipIdx_cons, analyseEntries, Action.effect_look_bind, hp.marker?_id hm]
    dsimp only
    have hend := regionEnd_analyseRegion catalog platform n reported hp hm
      (hnamed m List.mem_cons_self)
    rcases hrun : (analyseRegion (.build p.calls) catalog platform ⟨m.id, m.owner⟩ n m reported
      p).effect with ⟨e | ⟨count, findings, reported'⟩, q⟩
    -- the first region was not treated, or it was and the run goes on from there
    · rw [Action.effect_bind_error hrun]
      rw [hrun] at hend
      refine .stopped [] m ms n reported e q rfl treatable_nil (fun h => ?_) hrun hend
      exact hend.not_treatable ((treatable_cons hp hm).mp h).1
    · rw [Action.effect_bind_ok hrun]
      rw [hrun] at hend
      obtain ⟨htemplates, hsettles, rfl, rfl⟩ := hend.of_ok
      have hafter := ih (n + 1) reported' ((evolves_treat p m).coherent hp) hrest
        (List.nodup_cons.mp hnodup).2 fun m' hm' => by
          rw [nameOf_eq_of_skeleton skeleton_treat]
          exact hnamed m' (List.mem_cons_of_mem _ hm')
      have hcons := hafter.cons hp hm htemplates hsettles findings
      rw [calls_eq_of_skeleton skeleton_treat] at hcons
      rw [Action.effect_bind_pure]
      exact hcons

/-- A run over the first markers treats them all, if they can be treated. -/
theorem exists_effect_analyseEntries (catalog : Catalog) (platform : Platform) (n : Nat)
    (reported : Reported) (hp : Coherent p) {rest : List Marker} (hms : p.live = ms ++ rest)
    (hnamed : ∀ m ∈ p.live, p.nameOf m.owner ≠ "") (h : p.Treatable ms) :
    ∃ report, (analyseEntries (.build p.calls) catalog platform
      ((ms.map fun m => ⟨m.id, m.owner⟩).zipIdx n) reported p).effect =
        (.ok report, ms.foldl treat p) := by
  have hsublist : List.Sublist ms p.live := hms ▸ List.sublist_append_left ms rest
  have hend := runEnd_analyseEntries catalog platform n reported hp (fun m hm => hsublist.subset hm)
    (hp.nodup_map_id_live.sublist (hsublist.map _)) fun m hm => hnamed m (hsublist.subset hm)
  generalize (analyseEntries _ catalog platform _ reported p).effect = o at hend
  cases hend with
  | done report _ _ _ => exact ⟨report, rfl⟩
  | stopped _ _ _ _ _ _ _ _ _ htreatable _ _ => exact absurd h htreatable

end Program

end KernelGraph
