import KernelGraph.Proofs.Graph.Lowering
import Mathlib.Data.List.Perm.Basic
import Mathlib.Data.List.Sigma
import Mathlib.Logic.Equiv.Basic

/-!
# Routines under other numbers

A routine and a call have no number in a document but their place in a list. When the lists are put
in another order, the program of the document has the same routines under other numbers, the same
calls in another order, and markers that have been numbered anew.

## Main definitions

* `Document.Reorders` — a document with its routines and calls in another order
* `Renumbers` — a program with its routines under other numbers

## Main results

* `Document.Reorders.exists_renumbers` — a reordered document lowers if the document does, to the
  program with the routines under other numbers
* `Renumbers.idOf?_iff`, `Renumbers.exists_call_iff`, `Renumbers.exists_live_iff` — what is found in
  the two programs
-/

namespace KernelGraph

/-- `d'` is `d` with the routines and the calls in another order. The routine at place `i` of `d` is
at place `σ i` of `d'`. -/
structure Document.Reorders (σ : Equiv.Perm Nat) (d d' : Document) : Prop where
  routines : ∀ i, d'.routines[σ i]? = d.routines[i]?
  calls : d'.calls.Perm d.calls
  templates : d'.templates = d.templates
  extra : d'.extra = d.extra

/-- A routine without its number. -/
def Routine.unnumbered (r : Routine) : Routine := { r with id := 0 }

/-- `q` is `p` with the routines under other numbers: routine `i` of `p` is routine `σ i` of `q`.
The calls and the markers may come in another order. -/
structure Renumbers (σ : Equiv.Perm Nat) (p q : Program) : Prop where
  routines : ∀ i,
    (q.routine? (σ i)).map Routine.unnumbered = (p.routine? i).map Routine.unnumbered
  calls : (q.calls.map Call.toDocument).Perm (p.calls.map Call.toDocument)
  templates : q.templates = p.templates
  holdings :
    (q.live.map Marker.holding).Perm ((p.live.map Marker.holding).map (Prod.map σ id))

variable {σ : Equiv.Perm Nat} {d d' : Document} {p q : Program} {i : Nat} {name : String}

/-! ## Lowering -/

/-- The entries of a list with their places, when they have been put at other places. -/
theorem perm_zipIdx {α : Type} {l l' : List α} (h : ∀ i, l'[σ i]? = l[i]?) :
    l'.zipIdx.Perm (l.zipIdx.map (Prod.map id σ)) := by
  have hnodup : ∀ l : List α, l.zipIdx.Nodup := fun l =>
    (List.nodup_zipIdx_map_snd l).of_map _
  have hinjective : (Prod.map id σ : α × Nat → α × Nat).Injective :=
    Function.injective_id.prodMap σ.injective
  rw [List.perm_ext_iff_of_nodup (hnodup l') ((hnodup l).map hinjective)]
  rintro ⟨a, j⟩
  simp only [List.mem_map, Prod.exists, List.mem_zipIdx_iff_getElem?, Prod.map_apply, id_eq,
    Prod.mk.injEq]
  constructor
  · intro ha
    exact ⟨a, σ.symm j, by rw [← h, σ.apply_symm_apply, ha], rfl, σ.apply_symm_apply j⟩
  · rintro ⟨_, i, ha, rfl, rfl⟩
    rw [h, ha]

theorem ownedRegions_eq_flatMap (k : Nat) (routines : List Document.Routine) :
    Program.ownedRegions k routines =
      (routines.zipIdx k).flatMap fun e => e.1.regions.map (e.2, ·) := by
  induction routines generalizing k with
  | nil => rfl
  | cons r routines ih => rw [Program.ownedRegions, ih, List.zipIdx_cons, List.flatMap_cons]

namespace Document.Reorders

theorem perm_routines (h : d.Reorders σ d') : d'.routines.Perm d.routines := by
  have hperm := (perm_zipIdx h.routines).map Prod.fst
  rw [List.map_map] at hperm
  have hfst : (Prod.fst ∘ Prod.map id σ : Document.Routine × Nat → Document.Routine) = Prod.fst :=
    rfl
  rwa [hfst, List.zipIdx_map_fst, List.zipIdx_map_fst] at hperm

/-- The regions of a reordered document have the same owners, under other numbers. -/
theorem perm_ownedRegions (h : d.Reorders σ d') : (Program.ownedRegions 0 d'.routines).Perm
    ((Program.ownedRegions 0 d.routines).map (Prod.map σ id)) := by
  rw [ownedRegions_eq_flatMap, ownedRegions_eq_flatMap]
  refine ((perm_zipIdx h.routines).flatMap_right _).trans (.of_eq ?_)
  rw [List.flatMap_map, List.map_flatMap]
  apply List.flatMap_congr
  rintro ⟨r, i⟩ _
  rw [List.map_map]
  rfl

/-- A reordered document lowers if the document does, to the program with the routines under other
numbers. -/
theorem exists_renumbers (h : d.Reorders σ d') (hp : Program.ofDocument d = .ok p) :
    ∃ q, Program.ofDocument d' = .ok q ∧ Renumbers σ p q := by
  have hrepeat : Program.firstRepeated [] (d'.routines.map Document.Routine.name) = none := by
    have hnames := (firstRepeated_eq_none_iff.mp (ofDocument_eq_ok_iff.mp hp).1).1
    refine firstRepeated_eq_none_iff.mpr ⟨?_, by simp⟩
    exact ((h.perm_routines.map _).filter _).nodup_iff.mpr hnames
  obtain ⟨q, hq⟩ : ∃ q, Program.ofDocument d' = .ok q :=
    ⟨_, ofDocument_eq_ok_iff.mpr ⟨hrepeat, rfl⟩⟩
  have hcalls : ∀ {d : Document} {p}, Program.ofDocument d = .ok p →
      p.calls.map Call.toDocument = d.calls := by
    intro d p hp
    rw [(ofDocument_eq_ok_iff.mp hp).2, map_mapIdx]
    exact (mapIdx_const d.calls id).trans (List.map_id _)
  refine ⟨q, hq, fun i => ?_, ?_, ?_, ?_⟩
  · rw [Program.routine?_ofDocument hq, Program.routine?_ofDocument hp, h.routines, Option.map_map,
      Option.map_map]
    rfl
  · rw [hcalls hq, hcalls hp]
    exact h.calls
  · rw [(ofDocument_eq_ok_iff.mp hq).2, (ofDocument_eq_ok_iff.mp hp).2, h.templates]
  · rw [Program.map_holding_live hq, Program.map_holding_live hp]
    refine (h.perm_ownedRegions.map _).trans (.of_eq ?_)
    rw [List.map_map, List.map_map]
    rfl

end Document.Reorders

/-! ## What is found under other numbers -/

namespace Renumbers

variable {α : Type}

/-- What is read off a routine without its number is read off both programs. -/
theorem map_routine?_eq (h : Renumbers σ p q) (f : Routine → α) (i : Nat) :
    (q.routine? (σ i)).map (f ∘ Routine.unnumbered) =
      (p.routine? i).map (f ∘ Routine.unnumbered) := by
  rw [← Option.map_map, h.routines i, Option.map_map]

theorem position?_eq (h : Renumbers σ p q) (i : Nat) : q.position? (σ i) = p.position? i :=
  h.map_routine?_eq Routine.position i

theorem nameOf_eq (h : Renumbers σ p q) (i : Nat) : q.nameOf (σ i) = p.nameOf i := by
  have hname : (q.routine? (σ i)).map Routine.name = (p.routine? i).map Routine.name :=
    h.map_routine?_eq Routine.name i
  rw [Program.nameOf, Program.nameOf, hname]

theorem activeOf_eq (h : Renumbers σ p q) (i : Nat) : q.activeOf (σ i) = p.activeOf i := by
  have hactive : (q.routine? (σ i)).map Routine.active = (p.routine? i).map Routine.active :=
    h.map_routine?_eq Routine.active i
  have hcontainer : ∀ x : Program, ∀ j,
      x.container? j = ((x.routine? j).map Routine.active).join := by
    intro x j
    rw [Program.container?]
    cases x.routine? j <;> rfl
  rw [Program.activeOf, Program.activeOf, hcontainer, hcontainer, hactive]

theorem idOf?_iff (h : Renumbers σ p q) (hp : Coherent p) (hq : Coherent q) :
    q.idOf? name = some (σ i) ↔ p.idOf? name = some i := by
  have hname : (q.routine? (σ i)).map Routine.name = (p.routine? i).map Routine.name :=
    h.map_routine?_eq Routine.name i
  rw [hq.idOf?_iff, hp.idOf?_iff, ← Option.map_eq_some_iff, hname, Option.map_eq_some_iff]

/-- What holds of a call holds of one in the other program. -/
theorem exists_call_iff (h : Renumbers σ p q) (holds : String → String → Option String → Prop) :
    (∃ c ∈ q.calls, holds c.caller c.callee c.site) ↔
      ∃ c ∈ p.calls, holds c.caller c.callee c.site := by
  have hmap : ∀ x : Program, (∃ c ∈ x.calls, holds c.caller c.callee c.site) ↔
      ∃ c ∈ x.calls.map Call.toDocument, holds c.caller c.callee c.site := by
    intro x
    simp [Call.toDocument]
  simp only [hmap, h.calls.mem_iff]

/-- What holds of all markers holds of all in the other program, but for the numbers of their
owners. -/
theorem forall_live_iff (h : Renumbers σ p q) (holds : Nat × TemplateSet → Prop) :
    (∀ m ∈ q.live, holds m.holding) ↔ ∀ m ∈ p.live, holds (σ m.owner, m.templates) := by
  have hmap : (∀ m ∈ q.live, holds m.holding) ↔ ∀ x ∈ q.live.map Marker.holding, holds x :=
    List.forall_mem_map.symm
  rw [hmap]
  simp only [h.holdings.mem_iff, List.forall_mem_map]
  rfl

/-- What holds of a marker holds of one in the other program, but for the number of its owner. -/
theorem exists_live_iff (h : Renumbers σ p q) (holds : Nat × TemplateSet → Prop) :
    (∃ m ∈ q.live, holds m.holding) ↔ ∃ m ∈ p.live, holds (σ m.owner, m.templates) := by
  simpa using not_congr (h.forall_live_iff fun x => ¬ holds x)

theorem perm_map_owner (h : Renumbers σ p q) :
    (q.live.map Marker.owner).Perm ((p.live.map Marker.owner).map σ) := by
  have hperm := h.holdings.map Prod.fst
  rw [List.map_map, List.map_map, List.map_map] at hperm
  rwa [List.map_map]

end Renumbers

end KernelGraph
