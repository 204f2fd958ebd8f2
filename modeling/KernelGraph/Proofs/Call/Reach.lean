import KernelGraph.Proofs.Discovery
import KernelGraph.Proofs.Graph.Coherence

/-!
# What is reached along calls

Only a call between two routines that exist leads anywhere. A kernel demands a position of the
routine that hosts it, of those that call it and of those called from inside its region, directly
or not. A search along the calls finds the latter two.

## Main definitions

* `Program.Calls`, `Program.CallsInside` — one routine calls another, from inside its region
* `Program.Demands` — the positions that a kernel demands of routines
* `Program.targets` — the routines to which the calls of a routine lead
* `Program.trail`, `Program.meets` — the calls along which a search discovers routines, and the
  routines that it meets

## Main results

* `demands_iff` — what a kernel demands is what the calls of its routine lead to
* `mem_trail_iff` — a search discovers the routines of which a position is demanded, unless they
  lead back to the kernel
* `forall_meets_iff` — what holds of these routines and not of the kernel's own can be checked on
  what a search meets
-/

namespace KernelGraph

open Relation

namespace Program

/-- A call names two routines that exist. -/
def Calls (p : Program) (a b : Nat) : Prop :=
  ∃ c ∈ p.calls, p.idOf? c.caller = some a ∧ p.idOf? c.callee = some b

/-- A call inside the region of its caller names two routines that exist. -/
def CallsInside (p : Program) (a b : Nat) : Prop :=
  ∃ c ∈ p.calls, c.isSurround ∧ p.idOf? c.caller = some a ∧ p.idOf? c.callee = some b

/-- A kernel in routine `k` demands a position of routine `i`: `within` of its own routine,
`outside` of the routines that call it, directly or not, and `inside` of those called from inside
its region, directly or not. -/
def Demands (p : Program) (k : Nat) : Position → Nat → Prop
  | .within, i => i = k
  | .outside, i => TransGen p.Calls i k
  | .inside, i => ∃ d, p.CallsInside k d ∧ ReflTransGen p.Calls d i
  | .unset, _ => False

/-- The routines to which the calls of a routine lead in a direction, in the order of the calls.
Downwards they may be only those inside the region of the routine. -/
def targets (p : Program) (direction : Direction) (regionOnly : Bool) (a : Nat) : List Nat :=
  p.calls.filterMap fun c =>
    match direction with
    | .upward => if p.idOf? c.callee = some a then p.idOf? c.caller else none
    | .downward | .kernel =>
      if p.idOf? c.caller = some a ∧ (regionOnly → c.isSurround) then p.idOf? c.callee else none

/-- The calls along which a search from a routine discovers others, each as the two routines in the
direction of the search. -/
def trail (p : Program) (direction : Direction) (regionOnly : Bool) (a : Nat) : List (Nat × Nat) :=
  discover (p.targets direction false) p.routines.length [a]
    ((p.targets direction regionOnly a).map (a, ·))

/-- The routines that a search from a routine meets. -/
def meets (p : Program) (direction : Direction) (regionOnly : Bool) (a : Nat) : List Nat :=
  met (p.targets direction false) ((p.targets direction regionOnly a).map (a, ·))
    (p.trail direction regionOnly a)

variable {p q : Program} {a b i k : Nat} {direction : Direction} {regionOnly : Bool} {v : Position}

/-! ## The same in every program of one skeleton -/

theorem calls_iff_of_skeleton (h : q.skeleton = p.skeleton) : q.Calls a b ↔ p.Calls a b := by
  simp only [Calls, calls_eq_of_skeleton h, idOf?_eq_of_skeleton h]

theorem demands_iff_of_skeleton (h : q.skeleton = p.skeleton) :
    q.Demands k v i ↔ p.Demands k v i := by
  have hcalls : q.Calls = p.Calls := by
    funext a b
    exact propext (calls_iff_of_skeleton h)
  cases v <;>
    simp only [Demands, CallsInside, hcalls, calls_eq_of_skeleton h, idOf?_eq_of_skeleton h]

theorem targets_eq_of_skeleton (h : q.skeleton = p.skeleton) :
    q.targets direction regionOnly a = p.targets direction regionOnly a := by
  simp only [targets, calls_eq_of_skeleton h, idOf?_eq_of_skeleton h]

theorem trail_eq_of_skeleton (h : q.skeleton = p.skeleton) :
    q.trail direction regionOnly a = p.trail direction regionOnly a := by
  have hnext : q.targets direction false = p.targets direction false :=
    funext fun _ => targets_eq_of_skeleton h
  rw [trail, trail, hnext, targets_eq_of_skeleton h, length_routines_eq_of_skeleton h]

/-! ## Calls and where they lead -/

@[simp] theorem mem_targets_upward : b ∈ p.targets .upward regionOnly a ↔ p.Calls b a := by
  simp only [targets, List.mem_filterMap, Calls]
  refine exists_congr fun c => and_congr_right fun _ => ?_
  split <;> simp_all

@[simp] theorem mem_targets_downward : b ∈ p.targets .downward false a ↔ p.Calls a b := by
  simp only [targets, List.mem_filterMap, Calls]
  refine exists_congr fun c => and_congr_right fun _ => ?_
  split <;> simp_all

@[simp] theorem mem_targets_region : b ∈ p.targets .downward true a ↔ p.CallsInside a b := by
  simp only [targets, List.mem_filterMap, CallsInside]
  refine exists_congr fun c => and_congr_right fun _ => ?_
  by_cases hinside : c.isSurround <;> by_cases hcaller : p.idOf? c.caller = some a <;>
    simp [hinside, hcaller]

theorem lt_of_mem_targets (hp : Coherent p) (hb : b ∈ p.targets direction regionOnly a) :
    b < p.routines.length := by
  obtain ⟨c, _, hc⟩ := List.mem_filterMap.mp hb
  cases direction <;> simp only at hc <;> split at hc
  · exact hp.lt_of_idOf? hc
  · simp at hc
  · exact hp.lt_of_idOf? hc
  · simp at hc
  · exact hp.lt_of_idOf? hc
  · simp at hc

theorem Calls.caller_lt (hp : Coherent p) (h : p.Calls a b) : a < p.routines.length := by
  obtain ⟨c, -, hcaller, -⟩ := h
  exact hp.lt_of_idOf? hcaller

theorem Calls.callee_lt (hp : Coherent p) (h : p.Calls a b) : b < p.routines.length := by
  obtain ⟨c, -, -, hcallee⟩ := h
  exact hp.lt_of_idOf? hcallee

theorem CallsInside.calls (h : p.CallsInside a b) : p.Calls a b := by
  obtain ⟨c, hc, _, hcaller, hcallee⟩ := h
  exact ⟨c, hc, hcaller, hcallee⟩

/-- What a kernel demands in a direction is what the calls of its routine lead to. -/
theorem demands_iff (hdirection : direction ≠ .kernel) :
    p.Demands k direction.position i ↔
      ∃ b ∈ p.targets direction true k,
        ReflTransGen (fun a b => b ∈ p.targets direction false a) b i := by
  cases direction with
  | upward =>
    -- upwards the last call of a path to the kernel is the first of the search
    simp only [Direction.position, Demands, mem_targets_upward, TransGen.tail'_iff]
    constructor
    · rintro ⟨b, hpath, hlast⟩
      exact ⟨b, hlast, reflTransGen_swap.mp hpath⟩
    · rintro ⟨b, hlast, hpath⟩
      exact ⟨b, reflTransGen_swap.mp hpath, hlast⟩
  | downward => simp only [Direction.position, Demands, mem_targets_region, mem_targets_downward]
  | kernel => exact absurd rfl hdirection

/-! ## Searching from a kernel -/

/-- From its origin, a search meets what the calls lead to without leaving the origin again. -/
theorem mem_meets_iff (hp : Coherent p) :
    i ∈ p.meets direction regionOnly k ↔ ∃ b ∈ p.targets direction regionOnly k,
      ReflTransGen (Onward (p.targets direction false) k) b i :=
  mem_met_iff (fun _ => lt_of_mem_targets hp) fun _ _ => lt_of_mem_targets hp

/-- A position is demanded of all that a search meets. -/
theorem demands_of_mem_meets (hp : Coherent p) (hdirection : direction ≠ .kernel)
    (hi : i ∈ p.meets direction true k) : p.Demands k direction.position i := by
  obtain ⟨b, hb, hpath⟩ := (mem_meets_iff hp).mp hi
  exact (demands_iff hdirection).mpr
    ⟨b, hb, ReflTransGen.mono (fun _ _ hstep => hstep.2) _ _ hpath⟩

/-- A search meets all of which a position is demanded, or it comes back to its origin. -/
theorem mem_meets_or_origin (hp : Coherent p) (hdirection : direction ≠ .kernel)
    (hi : p.Demands k direction.position i) :
    i ∈ p.meets direction true k ∨ k ∈ p.meets direction true k := by
  rw [mem_meets_iff hp, mem_meets_iff hp]
  exact onward_or_onward_origin ((demands_iff hdirection).mp hi)

/-- What holds of the routines of which a kernel demands a position, and does not hold of its own
routine, can be checked on what a search meets. -/
theorem forall_meets_iff (hp : Coherent p) (hdirection : direction ≠ .kernel) {holds : Nat → Prop}
    (hk : ¬ holds k) :
    (∀ i ∈ p.meets direction true k, holds i) ↔
      ∀ i, p.Demands k direction.position i → holds i := by
  constructor
  · intro h i hi
    rcases mem_meets_or_origin hp hdirection hi with hmem | horigin
    · exact h i hmem
    -- a search that comes back to the kernel meets it, of which this does not hold
    · exact absurd (h k horigin) hk
  · exact fun h i hi => h i (demands_of_mem_meets hp hdirection hi)

/-- A search discovers what it meets, but for its origin. -/
theorem mem_trail_iff_mem_meets (hp : Coherent p) :
    i ∈ (p.trail direction regionOnly k).map Prod.snd ↔
      i ≠ k ∧ i ∈ p.meets direction regionOnly k := by
  rw [trail, mem_discovered_iff (fun _ => lt_of_mem_targets hp) fun _ _ => lt_of_mem_targets hp,
    mem_meets_iff hp]

/-- A position is demanded of all that a search discovers. -/
theorem demands_of_mem_trail (hp : Coherent p) (hdirection : direction ≠ .kernel)
    (hi : i ∈ (p.trail direction true k).map Prod.snd) : p.Demands k direction.position i :=
  demands_of_mem_meets hp hdirection ((mem_trail_iff_mem_meets hp).mp hi).2

/-- A search discovers the routines of which a position is demanded, if none is demanded of the
kernel's own. -/
theorem mem_trail_iff (hp : Coherent p) (hdirection : direction ≠ .kernel)
    (hk : ¬ p.Demands k direction.position k) :
    i ∈ (p.trail direction true k).map Prod.snd ↔ p.Demands k direction.position i := by
  refine ⟨demands_of_mem_trail hp hdirection, fun hi => (mem_trail_iff_mem_meets hp).mpr ?_⟩
  refine ⟨fun heq => hk (heq ▸ hi), ?_⟩
  rcases mem_meets_or_origin hp hdirection hi with hmem | horigin
  · exact hmem
  · exact absurd (demands_of_mem_meets hp hdirection horigin) hk

/-- No search discovers its own origin. -/
theorem notMem_trail : k ∉ (p.trail direction regionOnly k).map Prod.snd := by
  intro hk
  obtain ⟨e, he, heq⟩ := List.mem_map.mp hk
  exact (lt_and_notMem_of_mem_discover he).2 (heq ▸ List.mem_singleton_self _)

theorem lt_of_mem_trail {e : Nat × Nat} (he : e ∈ p.trail direction regionOnly k) :
    e.2 < p.routines.length :=
  (lt_and_notMem_of_mem_discover he).1

/-- An edge of a trail leaves the origin, or a routine that has been discovered. -/
theorem origin_or_discovered_of_mem_trail {e : Nat × Nat}
    (he : e ∈ p.trail direction regionOnly k) :
    e.1 = k ∧ e.2 ∈ p.targets direction regionOnly k ∨
      e.1 ∈ (p.trail direction regionOnly k).map Prod.snd ∧
        e.2 ∈ p.targets direction false e.1 := by
  rcases mem_pending_or_next_of_mem_discover he with hpending | ⟨hnext, hfound⟩
  · obtain ⟨b, hb, rfl⟩ := List.mem_map.mp hpending
    exact Or.inl ⟨rfl, hb⟩
  · exact Or.inr ⟨hfound, hnext⟩

end Program

end KernelGraph
