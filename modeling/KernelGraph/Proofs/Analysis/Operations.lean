import KernelGraph.Analysis.Run
import KernelGraph.Proofs.Call.Steps
import KernelGraph.Proofs.Graph.Annotation

/-!
# What operations do to a program

Whatever is done to a program, with whatever index, catalog and numbers, and whether it succeeds or
not, is done in three kinds of steps: a routine receives a position that it can take, a marker is
narrowed, or a marker is promoted. Each of them annotates the program, so nothing that has been
assigned is ever overwritten.

## Main definitions

* `Program.Step` — one step
* `Operation`, `Operation.perform`, `Program.performAll` — the operations, one or several

## Main results

* `annotates_of_step`, `annotates_of_steps` — steps annotate a program
* `follows_analyse`, `reflTransGen_perform` — an analysis, and any other operation, takes such steps
* `annotates_performAll` — so does any sequence of operations
-/

namespace KernelGraph

open Relation

namespace Program

/-- One step: a routine receives a position that it can take, or some ids of a marker are kept, or
the marker at a place is promoted. -/
inductive Step (p : Program) : Program → Prop
  | receive (v : Position) (i : Nat) (s : TemplateSet) (htake : p.CanTake v i) :
    Step p (p.receive v i s)
  | narrow (place : Nat) (m : Marker) (kept : List String) (hm : p.marker? place = some m) :
    Step p (p.setMarker place (narrowed m kept))
  | promote (place : Nat) : Step p (p.promote place).1

variable {p q : Program} {v : Position} {i : Nat} {s : TemplateSet} {index : CallIndex}
  {catalog : Catalog} {platform : Platform}

/-! ## Steps annotate a program -/

theorem annotates_receive (htake : p.CanTake v i) : Annotates p (p.receive v i s) := by
  refine Annotates.modifyRoutine (fun _ => rfl) (fun r hr => ?_) fun r c hc => ?_
  · exact htake r.position (by rw [position?, hr, Option.map_some])
  · by_cases hs : s.isEmpty
    · exact ⟨c, by simp [Routine.receive, hs, hc], .refl c⟩
    · refine ⟨{ c with templates := c.templates ∪ s }, ?_, ?_⟩
      · simp [Routine.receive, hs, hc]
      · exact ⟨TemplateSet.ids_prefix_union, fun _ _ h => h⟩

theorem annotates_narrow {place : Nat} {m : Marker} (kept : List String)
    (hm : p.marker? place = some m) : Annotates p (p.setMarker place (narrowed m kept)) := by
  apply Annotates.setMarker
  intro m' hm'
  refine ⟨m, hm, ?_⟩
  rw [narrowed] at hm'
  split at hm'
  · simp at hm'
  · obtain rfl := Option.some.inj hm'
    exact ⟨rfl, rfl, rfl, List.filter_sublist⟩

theorem annotates_promote (p : Program) (place : Nat) : Annotates p (p.promote place).1 := by
  have hempty : Annotates p (p.setMarker place none) := .setMarker (by simp)
  unfold promote
  split
  · exact .refl p
  · rename_i m _
    dsimp only
    split
    · exact hempty
    · refine hempty.trans (.modifyRoutine (fun _ => rfl) (fun r _ => Or.inr rfl) fun r c hc => ?_)
      exact ⟨c.receive m, by rw [hc, Option.getD_some], .receive c m⟩

/-- A step annotates a program. -/
theorem annotates_of_step (h : Step p q) : Annotates p q := by
  cases h with
  | receive v i s htake => exact annotates_receive htake
  | narrow place m kept hm => exact annotates_narrow kept hm
  | promote place => exact annotates_promote p place

/-- Steps annotate a program. -/
theorem annotates_of_steps (h : ReflTransGen Step p q) : Annotates p q := by
  induction h with
  | refl => exact .refl p
  | tail _ hstep ih => exact ih.trans (annotates_of_step hstep)

/-- An action that is done in steps leaves a program annotated further. -/
theorem annotates_of_follows {α : Type} {x : Action α} {o : Except AnalysisError α}
    (hx : Action.Follows Step x) (h : (x p).effect = (o, q)) : Annotates p q := by
  obtain ⟨-, rfl⟩ := Prod.mk.inj h
  exact annotates_of_steps (hx p)

/-- What is done in steps keeps a program coherent. -/
theorem coherent_of_follows {α : Type} {x : Action α} {o : Except AnalysisError α}
    (hx : Action.Follows Step x) (h : (x p).effect = (o, q)) (hp : Coherent p) : Coherent q :=
  (annotates_of_follows hx h).evolves.coherent hp

/-! ## What is done in steps -/

theorem follows_narrowMarker (platform : Platform) (place : Nat) :
    Action.Follows Step (narrowMarker platform place) := by
  intro p
  unfold narrowMarker
  split
  · exact .refl
  · rename_i m hm
    split
    · exact .refl
    · split
      · exact .refl
      · exact .single (.narrow place m _ hm)

theorem follows_narrowRoutine (platform : Platform) (routine : Nat) :
    Action.Follows Step (narrowRoutine platform routine) :=
  (Action.follows_look _).bind fun places =>
    Action.follows_forM (follows_narrowMarker platform) places

theorem follows_narrowEach (platform : Platform) (total : Nat) (routines : List Nat) :
    Action.Follows Step (narrowEach platform total routines) := by
  induction routines with
  | nil => exact Action.follows_pure ()
  | cons i rest ih =>
    exact (follows_narrowRoutine platform i).bind fun _ => (Action.follows_tell _).bind fun _ => ih

theorem follows_narrowAll (platform : Platform) : Action.Follows Step (narrowAll platform) :=
  (Action.follows_look _).bind fun total => follows_narrowEach platform total _

theorem follows_spreadFrom (index : CallIndex) (direction : Direction) (origin : Nat) :
    Action.Follows Step (spreadFrom index direction origin) := by
  intro p
  refine ReflTransGen.mono ?_ _ _ (reflTransGen_spreadFrom index direction origin p)
  rintro p q ⟨i, s, -, htake, rfl⟩
  exact .receive _ i s htake

/-- A routine that is entered as a kernel's receives a position, and no templates. -/
theorem follows_enterKernel (entry : CatalogEntry) (m : Marker) :
    Action.Follows Step (enterKernel entry m) := by
  intro p
  unfold enterKernel
  split
  · exact .refl
  · split
    · exact .refl
    · rename_i r hr
      split
      · rename_i haccepts
        refine .single (.receive .within entry.routine ∅ fun u hu => ?_)
        rw [position?, hr] at hu
        exact Option.some.inj hu ▸ haccepts
      · exact .refl

theorem follows_checkMixing (index : CallIndex) (catalog : Catalog) (platform : Platform)
    (kernel : String) (reported : Reported) :
    Action.Follows Step (checkMixing index catalog platform kernel reported) := by
  unfold checkMixing
  split
  · refine (Action.follows_look _).bind fun p => ?_
    split
    · exact Action.follows_pure _
    · exact Action.follows_fail _
  · exact Action.follows_pure _

theorem follows_analyseRegion (index : CallIndex) (catalog : Catalog) (platform : Platform)
    (entry : CatalogEntry) (n : Nat) (m : Marker) (reported : Reported) :
    Action.Follows Step (analyseRegion index catalog platform entry n m reported) := by
  refine (follows_enterKernel entry m).bind fun kernel => ?_
  refine (follows_spreadFrom index .upward entry.routine).bind fun upward => ?_
  refine (follows_spreadFrom index .downward entry.routine).bind fun downward => ?_
  refine (Action.follows_modify fun p => .single (.promote entry.region)).bind fun _ => ?_
  refine (Action.follows_tell _).bind fun _ => ?_
  exact (follows_checkMixing index catalog platform kernel reported).bind fun _ =>
    Action.follows_pure _

theorem follows_analyseEntries (index : CallIndex) (catalog : Catalog) (platform : Platform)
    (entries : List (CatalogEntry × Nat)) (reported : Reported) :
    Action.Follows Step (analyseEntries index catalog platform entries reported) := by
  induction entries generalizing reported with
  | nil => exact Action.follows_pure _
  | cons first rest ih =>
    obtain ⟨entry, n⟩ := first
    refine (Action.follows_look _).bind fun found => ?_
    cases found with
    | none => exact ih reported
    | some m =>
      exact (follows_analyseRegion index catalog platform entry n m reported).bind fun result =>
        (ih result.2.2).bind fun _ => Action.follows_pure _

theorem follows_analyseRegions (index : CallIndex) (catalog : Catalog) (platform : Platform) :
    Action.Follows Step (analyseRegions index catalog platform) :=
  (Action.follows_tell _).bind fun _ => follows_analyseEntries index catalog platform _ _

/-- An analysis is done in steps, wherever it stops. -/
theorem follows_analyse (platform : Platform) : Action.Follows Step (analyse platform) := by
  refine (Action.follows_tell _).bind fun _ => (follows_narrowAll platform).bind fun _ => ?_
  refine (Action.follows_look _).bind fun index => (Action.follows_tell _).bind fun _ => ?_
  refine (Action.follows_ofExcept _).bind fun catalog => ?_
  exact follows_analyseRegions index catalog platform

theorem reflTransGen_promoteEach (p : Program) (places : List Nat) :
    ReflTransGen Step p (p.promoteEach places).1 := by
  induction places generalizing p with
  | nil => exact .refl
  | cons place places ih => exact .head (.promote place) (ih _)

end Program

/-! ## Operations -/

/-- The operations that change a program, each with its arguments. -/
inductive Operation
  /-- Narrows the markers of a routine. -/
  | narrowRoutine (platform : Platform) (routine : Nat)
  /-- Narrows all markers. -/
  | narrowAll (platform : Platform)
  /-- Spreads `outside` to the callers of a routine. -/
  | spreadUp (index : CallIndex) (origin : Nat)
  /-- Spreads `inside` to the callees of a routine. -/
  | spreadDown (index : CallIndex) (origin : Nat)
  /-- Promotes the marker at a place. -/
  | promote (place : Nat)
  /-- Promotes the markers of a routine. -/
  | promoteRoutine (routine : Nat)
  /-- Treats the regions of a catalog. -/
  | analyseRegions (index : CallIndex) (catalog : Catalog) (platform : Platform)
  /-- Narrows the markers and treats the regions that are left. -/
  | analyse (platform : Platform)

/-- The program that an operation leaves, whether it succeeds or not. -/
def Operation.perform (p : Program) : Operation → Program
  | .narrowRoutine platform routine => (Program.narrowRoutine platform routine p).program
  | .narrowAll platform => (Program.narrowAll platform p).program
  | .spreadUp index origin => (Program.spreadFrom index .upward origin p).program
  | .spreadDown index origin => (Program.spreadFrom index .downward origin p).program
  | .promote place => (p.promote place).1
  | .promoteRoutine routine => (p.promoteRoutine routine).1
  | .analyseRegions index catalog platform =>
    (Program.analyseRegions index catalog platform p).program
  | .analyse platform => (Program.analyse platform p).program

namespace Program

/-- The program after operations have been performed one after another. -/
def performAll (p : Program) (operations : List Operation) : Program :=
  operations.foldl Operation.perform p

/-- Every operation is done in steps. -/
theorem reflTransGen_perform (p : Program) (operation : Operation) :
    ReflTransGen Step p (operation.perform p) := by
  cases operation with
  | narrowRoutine platform routine => exact follows_narrowRoutine platform routine p
  | narrowAll platform => exact follows_narrowAll platform p
  | spreadUp index origin => exact follows_spreadFrom index .upward origin p
  | spreadDown index origin => exact follows_spreadFrom index .downward origin p
  | promote place => exact .single (.promote place)
  | promoteRoutine routine => exact reflTransGen_promoteEach p _
  | analyseRegions index catalog platform => exact follows_analyseRegions index catalog platform p
  | analyse platform => exact follows_analyse platform p

theorem reflTransGen_performAll (p : Program) (operations : List Operation) :
    ReflTransGen Step p (p.performAll operations) := by
  induction operations generalizing p with
  | nil => exact .refl
  | cons operation operations ih => exact (reflTransGen_perform p operation).trans (ih _)

/-- Whatever is done to a coherent program, it stays coherent. -/
theorem coherent_performAll (hp : Coherent p) (operations : List Operation) :
    Coherent (p.performAll operations) :=
  (annotates_of_steps (reflTransGen_performAll p operations)).evolves.coherent hp

/-- Over any sequence of operations, whatever their arguments and whether they succeed or not, each
program annotates all that came before it. -/
theorem annotates_performAll (p : Program) (before after : List Operation) :
    Annotates (p.performAll before) (p.performAll (before ++ after)) := by
  rw [performAll, performAll, List.foldl_append]
  exact annotates_of_steps (reflTransGen_performAll (p.performAll before) after)

end Program

end KernelGraph
