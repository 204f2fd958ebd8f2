import KernelGraph.Proofs.Analysis.Kernels

/-!
# How templates flow

When the region of a marker is treated, its kernel hands the templates of its markers on along the
trails upwards and downwards, and each routine on the way hands on what it has. So a routine ends up
with what kernels that it is related to have, and with what was in the containers of routines from
which a trail leads to it.

## Main definitions

* `Program.Related` — a kernel demands a position of a routine
* `Program.kernelTrail`, `Program.trails` — the edges along which kernels hand templates on
* `Program.Pending` — what holds between the treatments of a run

## Main results

* `mem_activeOf_treat` — the templates of a routine after one region has been treated
* `Pending.tail` — the step of a run
* `Pending.mem_activeOf_foldl_treat`, `Pending.mem_activeOf_foldl_treat_kernel` — the templates of a
  routine after a run
-/

namespace KernelGraph

open Relation

namespace Program

/-- A kernel is related to its own routine, to those that call it, directly or not, and to those
called from inside its region, directly or not. -/
def Related (p : Program) (k i : Nat) : Prop :=
  i = k ∨ TransGen p.Calls i k ∨ ∃ d, p.CallsInside k d ∧ ReflTransGen p.Calls d i

/-- The edges along which a kernel hands templates on, in their order. -/
def kernelTrail (p : Program) (k : Nat) : List (Nat × Nat) :=
  p.trail .upward true k ++ p.trail .downward true k

/-- The edges along which the kernels of several markers hand templates on, in their order. -/
def trails (p : Program) (ms : List Marker) : List (Nat × Nat) :=
  ms.flatMap fun m => p.kernelTrail m.owner

variable {p q : Program} {m : Marker} {ms : List Marker} {v : Position} {i k c u : Nat}
  {id : String} {direction : Direction} {e : Nat × Nat}

theorem related_iff : p.Related k i ↔ ∃ v, p.Demands k v i := by
  constructor
  · rintro (rfl | houtside | hinside)
    · exact ⟨.within, rfl⟩
    · exact ⟨.outside, houtside⟩
    · exact ⟨.inside, hinside⟩
  · rintro ⟨v, hv⟩
    cases v with
    | unset => exact hv.elim
    | within => exact Or.inl hv
    | outside => exact Or.inr (Or.inl hv)
    | inside => exact Or.inr (Or.inr hv)

theorem related_iff_of_skeleton (h : q.skeleton = p.skeleton) : q.Related k i ↔ p.Related k i := by
  simp only [related_iff, demands_iff_of_skeleton h]

theorem kernelTrail_eq_of_skeleton (h : q.skeleton = p.skeleton) :
    q.kernelTrail k = p.kernelTrail k := by
  rw [kernelTrail, kernelTrail, trail_eq_of_skeleton h, trail_eq_of_skeleton h]

theorem trails_eq_of_skeleton (h : q.skeleton = p.skeleton) : q.trails ms = p.trails ms := by
  simp only [trails, kernelTrail_eq_of_skeleton h]

theorem trails_cons : p.trails (m :: ms) = p.kernelTrail m.owner ++ p.trails ms :=
  List.flatMap_cons

/-! ## The edges of a trail -/

/-- Every edge of a trail upwards is a call of its first routine by its second, which is asked to be
`outside`, as the first is unless it is the kernel's own. -/
theorem upward_of_mem_trail (hp : Coherent p) (he : e ∈ p.trail .upward true k) :
    p.Calls e.2 e.1 ∧ p.Demands k .outside e.2 ∧ (e.1 = k ∨ p.Demands k .outside e.1) := by
  have hend := demands_of_mem_trail hp (by simp) (List.mem_map_of_mem he)
  rcases origin_or_discovered_of_mem_trail he with ⟨hk, hcall⟩ | ⟨hfound, hcall⟩
  · exact ⟨hk ▸ mem_targets_upward.mp hcall, hend, Or.inl hk⟩
  · exact ⟨mem_targets_upward.mp hcall, hend, Or.inr (demands_of_mem_trail hp (by simp) hfound)⟩

/-- Every edge of a trail downwards is a call of its second routine by its first, which is asked to
be `inside`, as the first is unless it is the kernel's own. -/
theorem downward_of_mem_trail (hp : Coherent p) (he : e ∈ p.trail .downward true k) :
    p.Calls e.1 e.2 ∧ p.Demands k .inside e.2 ∧ (e.1 = k ∨ p.Demands k .inside e.1) := by
  have hend := demands_of_mem_trail hp (by simp) (List.mem_map_of_mem he)
  rcases origin_or_discovered_of_mem_trail he with ⟨hk, hcall⟩ | ⟨hfound, hcall⟩
  · exact ⟨hk ▸ (mem_targets_region.mp hcall).calls, hend, Or.inl hk⟩
  · exact ⟨mem_targets_downward.mp hcall, hend, Or.inr (demands_of_mem_trail hp (by simp) hfound)⟩

theorem mem_kernelTrail_cases (hp : Coherent p) (he : e ∈ p.kernelTrail k) :
    (p.Calls e.2 e.1 ∧ p.Demands k .outside e.2 ∧ (e.1 = k ∨ p.Demands k .outside e.1)) ∨
      (p.Calls e.1 e.2 ∧ p.Demands k .inside e.2 ∧ (e.1 = k ∨ p.Demands k .inside e.1)) :=
  (List.mem_append.mp he).imp (upward_of_mem_trail hp) (downward_of_mem_trail hp)

/-! ## What one kernel hands on -/

/-- Something gets from a kernel to every routine that it is related to. -/
theorem passes_kernelTrail (hp : Coherent p) (h : p.Settles (p.Demands k)) (hi : p.Related k i) :
    Passes (p.kernelTrail k) k i := by
  -- no trail leads back to the kernel, so each discovers all that is demanded in its direction
  have hnone : ∀ {direction : Direction}, direction ≠ .kernel →
      ¬ p.Demands k direction.position k := by
    intro direction hdirection hk
    have hwithin := h.1 k _ .within hk rfl
    cases direction <;> simp_all [Direction.position]
  have hpass : ∀ direction, direction ≠ .kernel → p.Demands k direction.position i →
      Passes (p.trail direction true k) k i := by
    intro direction hdirection hi
    have hfound := (mem_trail_iff hp hdirection (hnone hdirection)).mpr hi
    obtain ⟨x, hx, hpass⟩ := passes_discover hfound
    obtain ⟨b, _, rfl⟩ := List.mem_map.mp hx
    exact hpass
  -- the trail upwards comes first, and what it has brought stays
  rw [kernelTrail, passes_append]
  rcases hi with rfl | houtside | hinside
  · exact ⟨_, .refl _ _, .refl _ _⟩
  · exact ⟨i, hpass .upward (by simp) houtside, .refl _ _⟩
  · exact ⟨k, .refl _ _, hpass .downward (by simp) hinside⟩

/-- What gets along the trails of a kernel to another routine gets to one that it is related to,
from itself or from one that it is related to. -/
theorem related_of_passes (hp : Coherent p) (h : Passes (p.kernelTrail k) u i) (hne : u ≠ i) :
    p.Related k u ∧ p.Related k i := by
  have hrelated : ∀ e ∈ p.kernelTrail k, p.Related k e.1 ∧ p.Related k e.2 := by
    intro e he
    simp only [related_iff]
    rcases mem_kernelTrail_cases hp he with ⟨-, hend, hk | hstart⟩ | ⟨-, hend, hk | hstart⟩
    · exact ⟨⟨.within, hk⟩, ⟨_, hend⟩⟩
    · exact ⟨⟨_, hstart⟩, ⟨_, hend⟩⟩
    · exact ⟨⟨.within, hk⟩, ⟨_, hend⟩⟩
    · exact ⟨⟨_, hstart⟩, ⟨_, hend⟩⟩
  have hpath := h.reflTransGen
  constructor
  · obtain heq | ⟨b, hstep, _⟩ := hpath.cases_head
    · exact absurd heq hne
    · exact (hrelated _ hstep).1
  · obtain heq | ⟨b, _, hstep⟩ := hpath.cases_tail
    · exact absurd heq.symm hne
    · exact (hrelated _ hstep).2

theorem container?_host : (p.host k).container? i = p.container? i := by
  rw [container?, container?, host, routine?_modifyRoutine]
  split
  · cases p.routine? i <;> rfl
  · rfl

theorem relationsOf_host : (p.host k).relationsOf i = p.relationsOf i := by
  have hcontainer : ((p.host k).routine? i).bind Routine.active =
      (p.routine? i).bind Routine.active := container?_host
  rw [relationsOf, relationsOf, hcontainer]
  rfl

/-- After the spread of a kernel, a routine hands on what the routines did from which something gets
to it, when none that the trails lead to has a marker. -/
theorem mem_relationsOf_spreadAll
    (hmarker : ∀ e ∈ p.kernelTrail k, ∀ m ∈ p.live, m.owner ≠ e.2) :
    id ∈ (p.spreadAll k).relationsOf i ↔
      ∃ u, Passes (p.kernelTrail k) u i ∧ id ∈ p.relationsOf u := by
  have hlength : ∀ {q : Program}, q.skeleton = p.skeleton → ∀ {direction : Direction},
      ∀ e ∈ p.trail direction true k, e.2 < q.routines.length := by
    intro q hq direction e he
    rw [length_routines_eq_of_skeleton hq]
    exact lt_of_mem_trail he
  have hup : ∀ w, id ∈ (p.climb k).relationsOf w ↔
      ∃ u, Passes (p.trail .upward true k) u w ∧ id ∈ p.relationsOf u := by
    intro w
    rw [climb, mem_relationsOf_handOn (hlength skeleton_host) fun e he =>
      hmarker e (List.mem_append_left _ he)]
    simp only [relationsOf_host]
  rw [spreadAll, mem_relationsOf_handOn (hlength skeleton_climb)]
  · simp only [hup, kernelTrail, passes_append]
    constructor
    · rintro ⟨w, hpass, u, hpass', hid⟩
      exact ⟨u, ⟨w, hpass', hpass⟩, hid⟩
    · rintro ⟨u, ⟨w, hpass', hpass⟩, hid⟩
      exact ⟨w, hpass, u, hpass', hid⟩
  · intro e he m hm
    rw [live, regions_climb] at hm
    exact hmarker e (List.mem_append_right _ he) m hm

/-- The container of a routine that no trail leads to has not changed. -/
theorem container?_spreadAll_of_notMem (hi : i ∉ (p.kernelTrail k).map Prod.snd) :
    (p.spreadAll k).container? i = p.container? i := by
  rw [kernelTrail, List.map_append, List.mem_append, not_or] at hi
  rw [spreadAll, container?_handOn_of_notMem hi.2, climb, container?_handOn_of_notMem hi.1,
    container?_host]

/-! ## One step of a run -/

/-- In the middle of a run: the markers that are left are those of the list, they can be treated,
and all their owners are among the kernels, which are not asked to be anything but `within`. -/
structure Pending (p : Program) (K : Set Nat) (ms : List Marker) : Prop where
  coherent : Coherent p
  mem_live : ∀ m, m ∈ p.live ↔ m ∈ ms
  nodup : (ms.map Marker.id).Nodup
  treatable : p.Treatable ms
  owner_mem : ∀ m ∈ ms, m.owner ∈ K
  within : ∀ m ∈ ms, ∀ v, ∀ k ∈ K, p.Demands m.owner v k → v = .within

namespace Pending

variable {K : Set Nat}

theorem live (h : Pending p K ms) (hm : m ∈ ms) : m ∈ p.live := (h.mem_live m).mpr hm

theorem settles (h : Pending p K ms) (hm : m ∈ ms) : p.Settles (p.Demands m.owner) :=
  ⟨fun i v w hv hw => h.treatable.2.1 i v w ⟨m, hm, hv⟩ ⟨m, hm, hw⟩,
    fun v i hv => h.treatable.2.2 v i ⟨m, hm, hv⟩⟩

/-- No trail leads to a kernel. -/
theorem notMem_of_mem_kernelTrail (h : Pending p K ms) (hm : m ∈ ms)
    (he : e ∈ p.kernelTrail m.owner) : e.2 ∉ K := by
  intro hmem
  rcases mem_kernelTrail_cases h.coherent he with ⟨-, hend, -⟩ | ⟨-, hend, -⟩
  · simpa using h.within m hm _ _ hmem hend
  · simpa using h.within m hm _ _ hmem hend

theorem marker?_spreadAll_id (h : Pending p K ms) (hm : m ∈ ms) :
    (p.spreadAll m.owner).marker? m.id = some m := by
  rw [marker?_spreadAll, h.coherent.marker?_id (h.live hm)]

theorem owner_lt (h : Pending p K ms) (hm : m ∈ ms) :
    m.owner < (p.spreadAll m.owner).routines.length := by
  rw [length_routines_eq_of_skeleton skeleton_spreadAll]
  exact h.coherent.owner_lt_of_mem (h.live hm)

/-- The step of a run leaves the others to be treated. -/
theorem tail (h : Pending p K (m :: ms)) : Pending (p.treat m) K ms where
  coherent := (evolves_treat p m).coherent h.coherent
  mem_live m' := by
    rw [mem_live_treat h.coherent, h.mem_live]
    have hnodup := h.nodup
    rw [List.map_cons, List.nodup_cons] at hnodup
    constructor
    · rintro ⟨hm', hne⟩
      rcases List.mem_cons.mp hm' with rfl | hm'
      · exact absurd rfl hne
      · exact hm'
    · exact fun hm' => ⟨List.mem_cons_of_mem _ hm',
        fun heq => hnodup.1 (heq ▸ List.mem_map_of_mem hm')⟩
  nodup := (List.nodup_cons.mp h.nodup).2
  treatable := ((treatable_cons h.coherent (h.live List.mem_cons_self)).mp h.treatable).2
  owner_mem m' hm' := h.owner_mem m' (List.mem_cons_of_mem _ hm')
  within m' hm' v k hk hdemands :=
    h.within m' (List.mem_cons_of_mem _ hm') v k hk
      ((demands_iff_of_skeleton skeleton_treat).mp hdemands)

/-- A routine that is no kernel has no marker. -/
theorem owner_ne (h : Pending p K ms) (hu : u ∉ K) : ∀ m ∈ p.live, m.owner ≠ u := by
  intro m hm heq
  exact hu (heq ▸ h.owner_mem m ((h.mem_live m).mp hm))

/-- A kernel of which a marker is left hands on what its markers hold. -/
theorem mem_relationsOf_owner (h : Pending p K ms) (hm : m ∈ ms) :
    id ∈ p.relationsOf m.owner ↔ ∃ m' ∈ ms, m'.owner = m.owner ∧ id ∈ m'.templates := by
  rw [mem_relationsOf_iff_of_live ⟨m, h.live hm, rfl⟩]
  simp only [h.mem_live]

/-- What a routine that is no kernel has after a step is what it would hand on before the marker is
promoted. -/
theorem mem_activeOf_treat_iff_relationsOf (h : Pending p K ms) (hm : m ∈ ms) (hc : c ∉ K) :
    id ∈ (p.treat m).activeOf c ↔ id ∈ (p.spreadAll m.owner).relationsOf c := by
  have hne : m.owner ≠ c := fun heq => hc (heq ▸ h.owner_mem m hm)
  rw [treat, mem_activeOf_promote (h.marker?_spreadAll_id hm) (h.owner_lt hm),
    relationsOf_eq_activeOf]
  · simp [hne]
  · rw [Program.live, regions_spreadAll]
    exact h.owner_ne hc

/-- What a routine other than a kernel has after a step: what it gets from the containers of such
routines, and what the kernel's markers hold, if it is related to it. -/
theorem mem_activeOf_treat (h : Pending p K ms) (hm : m ∈ ms) (hc : c ∉ K) :
    id ∈ (p.treat m).activeOf c ↔
      (∃ u ∉ K, Passes (p.kernelTrail m.owner) u c ∧ id ∈ p.activeOf u) ∨
        p.Related m.owner c ∧ ∃ m' ∈ ms, m'.owner = m.owner ∧ id ∈ m'.templates := by
  have hp := h.coherent
  rw [h.mem_activeOf_treat_iff_relationsOf hm hc, mem_relationsOf_spreadAll fun e he =>
    h.owner_ne (h.notMem_of_mem_kernelTrail hm he), ← h.mem_relationsOf_owner hm]
  constructor
  · rintro ⟨u, hpass, hid⟩
    -- of the kernels, only the one that is treated can be where something comes from
    by_cases hu : u ∈ K
    · obtain ⟨hstart, hend⟩ := related_of_passes hp hpass fun heq => hc (heq ▸ hu)
      obtain ⟨v, hv⟩ := related_iff.mp hstart
      obtain rfl := h.within m hm v u hu hv
      obtain rfl : u = m.owner := hv
      exact Or.inr ⟨hend, hid⟩
    · rw [relationsOf_eq_activeOf (h.owner_ne hu)] at hid
      exact Or.inl ⟨u, hu, hpass, hid⟩
  · rintro (⟨u, hu, hpass, hid⟩ | ⟨hrelated, hid⟩)
    · exact ⟨u, hpass, by rwa [relationsOf_eq_activeOf (h.owner_ne hu)]⟩
    · exact ⟨m.owner, passes_kernelTrail hp (h.settles hm) hrelated, hid⟩

/-- A kernel has what it had after a step, and what the marker held if it was its own. -/
theorem mem_activeOf_treat_kernel (h : Pending p K ms) (hm : m ∈ ms) (hk : k ∈ K) :
    id ∈ (p.treat m).activeOf k ↔ id ∈ p.activeOf k ∨ m.owner = k ∧ id ∈ m.templates := by
  have hnot : k ∉ (p.kernelTrail m.owner).map Prod.snd := by
    intro hmem
    obtain ⟨e, he, rfl⟩ := List.mem_map.mp hmem
    exact h.notMem_of_mem_kernelTrail hm he hk
  rw [treat, mem_activeOf_promote (h.marker?_spreadAll_id hm) (h.owner_lt hm), activeOf,
    container?_spreadAll_of_notMem hnot, ← activeOf]

/-- The container of a routine that the kernel is not related to has not changed after a step. -/
theorem container?_treat (h : Pending p K ms) (hm : m ∈ ms) (hc : ¬ p.Related m.owner c) :
    (p.treat m).container? c = p.container? c := by
  have hnot : c ∉ (p.kernelTrail m.owner).map Prod.snd := by
    intro hmem
    obtain ⟨e, he, rfl⟩ := List.mem_map.mp hmem
    rcases mem_kernelTrail_cases h.coherent he with ⟨-, hend, -⟩ | ⟨-, hend, -⟩
    · exact hc (related_iff.mpr ⟨_, hend⟩)
    · exact hc (related_iff.mpr ⟨_, hend⟩)
  have hne : m.owner ≠ c := fun heq => hc (Or.inl heq.symm)
  rw [treat, container?_promote (h.marker?_spreadAll_id hm) (h.owner_lt hm), if_neg hne,
    container?_spreadAll_of_notMem hnot]

/-! ## A whole run -/

/-- Along an edge of a trail, from a routine that is no kernel, what is related to a kernel leads to
what is related to it. -/
theorem related_of_mem_trails (h : Pending p K ms) {m' : Marker} (hm : m ∈ ms) (hm' : m' ∈ ms)
    (he : e ∈ p.kernelTrail m'.owner) (hstart : e.1 ∉ K) (hrelated : p.Related m.owner e.1) :
    p.Related m.owner e.2 := by
  have hne : ∀ m ∈ ms, e.1 ≠ m.owner := fun m hm heq => hstart (heq ▸ h.owner_mem m hm)
  obtain ⟨v, hv⟩ := related_iff.mp hrelated
  rcases mem_kernelTrail_cases h.coherent he with ⟨hcall, -, howner | hdemands⟩ |
    ⟨hcall, -, howner | hdemands⟩
  · exact absurd howner (hne m' hm')
  -- no routine is asked for two positions, so both kernels have it in the same direction
  · obtain rfl := h.treatable.2.1 e.1 v .outside ⟨m, hm, hv⟩ ⟨m', hm', hdemands⟩
    exact Or.inr (Or.inl (.head hcall hv))
  · exact absurd howner (hne m' hm')
  · obtain rfl := h.treatable.2.1 e.1 v .inside ⟨m, hm, hv⟩ ⟨m', hm', hdemands⟩
    obtain ⟨d, hd, hpath⟩ := hv
    exact Or.inr (Or.inr ⟨d, hd, hpath.tail hcall⟩)

/-- What gets from a routine that is no kernel to another gets to no kernel. -/
theorem notMem_of_passes (h : Pending p K ms) (hm : m ∈ ms) (hu : u ∉ K)
    (hpass : Passes (p.kernelTrail m.owner) u c) : c ∉ K := by
  rcases hpass.reflTransGen.cases_tail with rfl | ⟨b, _, hstep⟩
  · exact hu
  · exact h.notMem_of_mem_kernelTrail hm hstep

/-- What is related to a kernel leads, along the trails of kernels, to what is related to it. -/
theorem related_of_path (h : Pending p K ms) {others : List Marker} (hothers : ∀ m ∈ others, m ∈ ms)
    (hm : m ∈ ms) (hu : u ∉ K) (hrelated : p.Related m.owner u)
    (hpath : ReflTransGen (fun a b => (a, b) ∈ p.trails others) u c) :
    c ∉ K ∧ p.Related m.owner c := by
  induction hpath with
  | refl => exact ⟨hu, hrelated⟩
  | tail _ hstep ih =>
    obtain ⟨m', hm', he⟩ := List.mem_flatMap.mp hstep
    exact ⟨h.notMem_of_mem_kernelTrail (hothers m' hm') he,
      h.related_of_mem_trails hm (hothers m' hm') he ih.1 ih.2⟩

/-- What a routine other than a kernel has after a run: what it gets from the containers of such
routines, and what the markers of kernels that it is related to hold. -/
theorem mem_activeOf_foldl_treat (h : Pending p K ms) (hc : c ∉ K) :
    id ∈ (ms.foldl treat p).activeOf c ↔
      (∃ u ∉ K, Passes (p.trails ms) u c ∧ id ∈ p.activeOf u) ∨
        ∃ m ∈ ms, p.Related m.owner c ∧ id ∈ m.templates := by
  -- by induction on the run: what the others hand on is what is there after the first step
  induction ms generalizing p with
  | nil => simp [trails, hc]
  | cons m ms ih =>
    have hm : m ∈ m :: ms := List.mem_cons_self
    have hrest : ∀ m' ∈ ms, m' ∈ m :: ms := fun m' hm' => List.mem_cons_of_mem _ hm'
    rw [List.foldl_cons, ih h.tail, trails_eq_of_skeleton skeleton_treat, trails_cons]
    simp only [related_iff_of_skeleton (skeleton_treat (p := p) (m := m)), passes_append]
    constructor
    · rintro (⟨w, hw, hpass, hid⟩ | ⟨m', hm', hrelated, hid⟩)
      · rcases (h.mem_activeOf_treat hm hw).mp hid with
          ⟨u, hu, hpass', hid⟩ | ⟨hrelated, m', hm', howner, hid⟩
        · exact Or.inl ⟨u, hu, ⟨w, hpass', hpass⟩, hid⟩
        -- what the first kernel gave is carried on only to what it is related to
        · have hend := (h.related_of_path hrest hm hw hrelated hpass.reflTransGen).2
          exact Or.inr ⟨m', hm', howner ▸ hend, hid⟩
      · exact Or.inr ⟨m', hrest m' hm', hrelated, hid⟩
    · rintro (⟨u, hu, ⟨w, hpass', hpass⟩, hid⟩ | ⟨m', hm', hrelated, hid⟩)
      · have hw := h.notMem_of_passes hm hu hpass'
        exact Or.inl ⟨w, hw, hpass, (h.mem_activeOf_treat hm hw).mpr (Or.inl ⟨u, hu, hpass', hid⟩)⟩
      · rcases List.mem_cons.mp hm' with rfl | hm''
        · refine Or.inl ⟨c, hc, .refl _ _, (h.mem_activeOf_treat hm hc).mpr (Or.inr ⟨hrelated, ?_⟩)⟩
          exact ⟨_, hm, rfl, hid⟩
        · exact Or.inr ⟨m', hm'', hrelated, hid⟩

/-- A kernel has what it had after a run, and what its markers held. -/
theorem mem_activeOf_foldl_treat_kernel (h : Pending p K ms) (hk : k ∈ K) :
    id ∈ (ms.foldl treat p).activeOf k ↔
      id ∈ p.activeOf k ∨ ∃ m ∈ ms, m.owner = k ∧ id ∈ m.templates := by
  induction ms generalizing p with
  | nil => simp
  | cons m ms ih =>
    rw [List.foldl_cons, ih h.tail, h.mem_activeOf_treat_kernel List.mem_cons_self hk, or_assoc]
    simp only [List.exists_mem_cons_iff]

/-- The container of a routine that no kernel is related to has not changed after a run. -/
theorem container?_foldl_treat (h : Pending p K ms) (hc : ∀ m ∈ ms, ¬ p.Related m.owner c) :
    (ms.foldl treat p).container? c = p.container? c := by
  induction ms generalizing p with
  | nil => rfl
  | cons m ms ih =>
    rw [List.foldl_cons, ih h.tail, h.container?_treat List.mem_cons_self (hc m List.mem_cons_self)]
    intro m' hm'
    rw [related_iff_of_skeleton skeleton_treat]
    exact hc m' (List.mem_cons_of_mem _ hm')

end Pending

end Program

end KernelGraph
