import KernelGraph.Proofs.Analysis.Positions
import KernelGraph.Proofs.Analysis.Traversal

/-!
# What an analysis counts

An analysis that succeeds counts as kernels the markers that survive narrowing. For each of them it
counts the routines that call the kernel, directly or not, and those in the body of its region. A
routine counts once for each marker, however many calls lead to it, and counts again for the next
marker, which finds it with the position that it needs.

## Main definitions

* `Program.callers`, `Program.body` — the routines to which a kernel gives a position

## Main results

* `spreadCount_eq_ncard` — a kernel gives a position to its callers and its body, each once
* `counts_of_analyse` — the numbers in the report of an analysis
-/

namespace KernelGraph

open Relation

namespace Program

/-- The routines that call a routine, directly or not. -/
def callers (p : Program) (k : Nat) : Set Nat := {i | TransGen p.Calls i k}

/-- The body of the region of a routine: the routines called from inside it, directly or not. -/
def body (p : Program) (k : Nat) : Set Nat :=
  {i | ∃ d, p.CallsInside k d ∧ ReflTransGen p.Calls d i}

variable {d : Document} {p : Program} {platform : Platform} {report : Report} {k : Nat}

/-! ## Callers and bodies are finite -/

theorem finite_callers (hp : Coherent p) (k : Nat) : (p.callers k).Finite := by
  refine (Set.finite_lt_nat p.routines.length).subset fun i hi => ?_
  obtain ⟨b, hfirst, -⟩ := TransGen.head'_iff.mp hi
  exact hfirst.caller_lt hp

theorem finite_body (hp : Coherent p) (k : Nat) : (p.body k).Finite := by
  refine (Set.finite_lt_nat p.routines.length).subset fun i hi => ?_
  obtain ⟨d, hinside, hpath⟩ := hi
  -- the last step of a path from the kernel is a call
  obtain ⟨b, -, hlast⟩ := TransGen.tail'_iff.mp (TransGen.head' hinside.calls hpath)
  exact hlast.callee_lt hp

/-! ## One kernel -/

/-- A kernel that neither calls itself nor is in its own body gives a position to its callers and to
its body, and to each of these routines once. -/
theorem spreadCount_eq_ncard (hp : Coherent p) (hcallers : k ∉ p.callers k)
    (hbody : k ∉ p.body k) : p.spreadCount k = (p.callers k).ncard + (p.body k).ncard := by
  have hupward : (p.callers k).ncard = (p.trail .upward true k).length :=
    ncard_eq_length_trail fun _ => mem_trail_iff hp (by simp) hcallers
  have hdownward : (p.body k).ncard = (p.trail .downward true k).length :=
    ncard_eq_length_trail fun _ => mem_trail_iff hp (by simp) hbody
  rw [spreadCount, hupward, hdownward]

/-- No kernel of an analysis that succeeds is among its own callers or in its own body. -/
theorem Apart.notMem (h : p.Apart platform) (hk : k ∈ p.hosts platform) :
    k ∉ p.callers k ∧ k ∉ p.body k :=
  ⟨fun hcaller => Set.disjoint_left.mp h.1 hk ⟨k, hk, hcaller⟩,
    fun hbody => Set.disjoint_left.mp h.2.1 hk ⟨k, hk, hbody⟩⟩

/-! ## All kernels -/

theorem owner_mem_hosts {m : Marker} (hm : m ∈ p.survivors platform) :
    m.owner ∈ p.hosts platform := by
  obtain ⟨hlive, hsurvives⟩ := List.mem_filter.mp hm
  exact ⟨m, hlive, of_decide_eq_true hsurvives, rfl⟩

/-- An analysis that succeeds counts the markers that survive narrowing, and for each of them, in
turn, the callers of its routine and the routines in the body of its region. Of both there are
finitely many. -/
theorem counts_of_analyse (h : ofDocument d = .ok p)
    (hok : (analyse platform p).result = .ok report) :
    report.kernels = (p.survivors platform).length ∧
      report.assignments = ((p.survivors platform).map fun m =>
        (p.callers m.owner).ncard + (p.body m.owner).ncard).sum ∧
      ∀ k, (p.callers k).Finite ∧ (p.body k).Finite := by
  have hp := coherent_ofDocument h
  obtain ⟨hkernels, hassignments⟩ := counts_analyse hp hok
  have hapart := (analysable_of_analyse hp hok).1.apart
  refine ⟨?_, ?_, fun k => ⟨finite_callers hp k, finite_body hp k⟩⟩
  · rw [hkernels, ← List.length_map (f := Marker.owner), map_owner_live_narrow, List.length_map]
  · rw [hassignments, map_owner_live_narrow, List.map_map]
    congr 1
    refine List.map_congr_left fun m hm => ?_
    obtain ⟨hcallers, hbody⟩ := hapart.notMem (owner_mem_hosts hm)
    exact spreadCount_eq_ncard hp hcallers hbody

/-- A kernel with three markers, of which one is only for another platform, is called twice by
`left` and once by `right`, which call each other, and calls a `leaf` twice from inside its region
and `aside` from outside it. The leaf is on a cycle, and also in the body of another kernel. -/
def woven : Document where
  routines :=
    [⟨"top", .unset, [], none, []⟩, ⟨"left", .unset, [], none, []⟩,
      ⟨"right", .unset, [], none, []⟩,
      ⟨"kernel", .unset, [⟨["t"], []⟩, ⟨["u"], []⟩, ⟨["u", "t"], []⟩], none, []⟩,
      ⟨"leaf", .unset, [], none, []⟩, ⟨"twig", .unset, [], none, []⟩,
      ⟨"other", .unset, [⟨["t"], []⟩], none, []⟩, ⟨"aside", .unset, [], none, []⟩]
  calls :=
    [⟨"top", "left", none, []⟩, ⟨"top", "right", none, []⟩, ⟨"left", "right", none, []⟩,
      ⟨"right", "left", none, []⟩, ⟨"left", "kernel", none, []⟩, ⟨"right", "kernel", none, []⟩,
      ⟨"left", "kernel", none, []⟩, ⟨"kernel", "leaf", some "surround", []⟩,
      ⟨"kernel", "leaf", some "surround", []⟩, ⟨"kernel", "aside", none, []⟩,
      ⟨"kernel", "nobody", some "surround", []⟩, ⟨"leaf", "twig", none, []⟩,
      ⟨"twig", "leaf", none, []⟩, ⟨"leaf", "leaf", none, []⟩, ⟨"top", "other", none, []⟩,
      ⟨"other", "leaf", some "surround", []⟩]
  templates := [⟨"t", [], []⟩, ⟨"u", ["GPU"], []⟩]
  extra := []

/-- Three markers survive. The kernel counts for two of them, with three callers and a body of two
each time, and the other kernel for one, with one caller and the same body. -/
theorem counts_of_analyse_woven : ∃ p report, ofDocument woven = .ok p ∧
    (analyse .cpu p).result = .ok report ∧ report.kernels = 3 ∧ report.assignments = 13 ∧
      13 = ([3, 3, 6].map fun k => (p.callers k).ncard + (p.body k).ncard).sum ∧
      ∀ k, (p.callers k).Finite ∧ (p.body k).Finite := by
  obtain ⟨p, hp, hok, howners⟩ : ∃ p, ofDocument woven = .ok p ∧
      (analyse .cpu p).result = .ok ⟨3, 13, []⟩ ∧
      (p.survivors .cpu).map Marker.owner = [3, 3, 6] :=
    ⟨_, rfl, by decide +kernel, by decide +kernel⟩
  obtain ⟨-, hassignments, hfinite⟩ := counts_of_analyse hp hok
  refine ⟨p, _, hp, hok, rfl, rfl, ?_, hfinite⟩
  rw [← howners, List.map_map]
  exact hassignments

end Program

end KernelGraph
