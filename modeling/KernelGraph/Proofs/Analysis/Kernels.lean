import KernelGraph.Proofs.Analysis.Treatment
import KernelGraph.Proofs.Region.Catalog
import KernelGraph.Proofs.Region.Narrowing
import Mathlib.Data.Set.BooleanAlgebra
import Mathlib.Data.Set.Disjoint
import Mathlib.Order.CompletePartialOrder

/-!
# Kernels and what surrounds them

The kernels of a program are the routines that own a marker which survives narrowing. Around them
are their outer routines, which call one of them, directly or not, and their inner routines, which
are called from inside one of their regions, directly or not. Whether an analysis succeeds, and
which program it leaves then, is told from these.

## Main definitions

* `Program.Survives`, `Program.survivors` — a marker is left after narrowing, and all that are
* `Program.hosts`, `Program.outer`, `Program.inner` — the kernels, and what surrounds them
* `Program.Analysable` — an analysis succeeds
* `Program.analysed` — the program that it leaves
* `Program.AnalysisEnd` — how an analysis ends

## Main results

* `analyse_cases` — an analysis treats every region that is left, or fails
-/

namespace KernelGraph

open Relation

namespace Program

/-- A marker survives narrowing if a template of it applies to the platform, or if it has none to
lose. -/
def Survives (p : Program) (platform : Platform) (m : Marker) : Prop :=
  m.templates.isEmpty ∨ ∃ id ∈ m.templates, p.applies platform id

instance (p : Program) (platform : Platform) (m : Marker) : Decidable (p.Survives platform m) :=
  inferInstanceAs (Decidable (_ ∨ ∃ id ∈ m.templates.ids, _))

/-- The markers that survive narrowing, in their order. -/
def survivors (p : Program) (platform : Platform) : List Marker :=
  p.live.filter fun m => p.Survives platform m

/-- The kernels: the routines that own a marker which survives narrowing. -/
def hosts (p : Program) (platform : Platform) : Set Nat :=
  {k | ∃ m ∈ p.live, p.Survives platform m ∧ m.owner = k}

/-- The routines that call a kernel, directly or not. -/
def outer (p : Program) (platform : Platform) : Set Nat :=
  {i | ∃ k ∈ p.hosts platform, TransGen p.Calls i k}

/-- The routines called from inside the region of a kernel, directly or not. -/
def inner (p : Program) (platform : Platform) : Set Nat :=
  {i | ∃ k ∈ p.hosts platform, ∃ d, p.CallsInside k d ∧ ReflTransGen p.Calls d i}

/-- What an analysis needs in order to succeed. -/
structure Analysable (p : Program) (platform : Platform) : Prop where
  known : ∀ m ∈ p.live, ∀ id ∈ m.templates, (p.template? id).isSome
  named : ∀ m ∈ (p.narrow platform).live, p.nameOf m.owner ≠ ""
  single : platform.isGpu → ((p.narrow platform).live.map Marker.owner).Nodup
  treatable : (p.narrow platform).Treatable (p.narrow platform).live

/-- The program that an analysis leaves when it succeeds. -/
def analysed (p : Program) (platform : Platform) : Program :=
  (p.narrow platform).live.foldl treat (p.narrow platform)

variable {p : Program} {platform : Platform} {m m' : Marker} {v : Position} {i k : Nat}
  {report : Report}

/-! ## Survivors -/

theorem survives_iff : p.Survives platform m ↔ ∃ m', p.kept? platform m = some m' := by
  rw [Survives, kept?]
  by_cases hempty : m.templates.isEmpty
  · simp [hempty]
  · simp only [hempty, if_false, false_or, Bool.false_eq_true]
    have hkept : (m.templates.retain (p.applies platform)).isEmpty ↔
        ¬ ∃ id ∈ m.templates, p.applies platform id := by
      simp only [TemplateSet.isEmpty_iff, TemplateSet.mem_retain, not_exists]
    by_cases hnone : (m.templates.retain (p.applies platform)).isEmpty
    · rw [if_pos hnone]
      exact iff_of_false (hkept.mp hnone) (by simp)
    · rw [if_neg hnone]
      exact iff_of_true (not_not.mp (mt hkept.mpr hnone)) ⟨_, rfl⟩

/-- The markers left after narrowing are what is kept of those that survive. -/
theorem mem_live_narrow :
    m' ∈ (p.narrow platform).live ↔ ∃ m ∈ p.live, p.kept? platform m = some m' := by
  rw [live_narrow, List.mem_filterMap]

/-- What narrowing keeps of a marker is told of the markers left in the same order as of the
survivors. -/
theorem map_live_narrow {α : Type} {f : Marker → α}
    (hf : ∀ {m m'}, p.kept? platform m = some m' → f m' = f m) :
    (p.narrow platform).live.map f = (p.survivors platform).map f := by
  rw [live_narrow, survivors, List.map_filterMap, ← List.filterMap_eq_map, List.filterMap_filter]
  apply List.filterMap_congr
  intro m _
  cases hkept : p.kept? platform m with
  | none =>
    rw [if_neg, Option.map_none]
    rw [decide_eq_true_eq, survives_iff, hkept]
    simp
  | some m' =>
    rw [if_pos (decide_eq_true (survives_iff.mpr ⟨m', hkept⟩)), Option.map_some, hf hkept]
    rfl

/-- The markers left after narrowing belong to the routines of the survivors, in the same order. -/
theorem map_owner_live_narrow :
    (p.narrow platform).live.map Marker.owner = (p.survivors platform).map Marker.owner :=
  map_live_narrow fun hkept => (kept?_eq_some hkept).2.1

theorem coherent_narrow (hp : Coherent p) (platform : Platform) : Coherent (p.narrow platform) :=
  (evolves_narrow p platform).coherent hp

/-! ## The whole analysis -/

theorem skeleton_narrow (p : Program) (platform : Platform) :
    (p.narrow platform).skeleton = p.skeleton := rfl

/-- The run by the catalog of a program is one over all its markers. -/
theorem runEnd_analyseRegions (hp : Coherent p) {catalog : Catalog}
    (hbuild : Catalog.build p platform = .ok catalog) :
    RunEnd catalog platform p p.live
      (analyseRegions (.build p.calls) catalog platform p).effect := by
  obtain ⟨hnamed, -, hcatalog⟩ := (Catalog.build_eq_ok_iff hp).mp hbuild
  have hentries : catalog.entries = p.live.map fun m => ⟨m.id, m.owner⟩ := by rw [hcatalog]; rfl
  rw [analyseRegions, Action.effect_tell_bind, hentries]
  exact runEnd_analyseEntries catalog platform 0 .none hp (fun _ hm => hm) hp.nodup_map_id_live
    hnamed

/-- How an analysis ends: it stops while it narrows, or because the catalog cannot be built, or it
ends as its run over the regions that are left. -/
inductive AnalysisEnd (p : Program) (platform : Platform) :
    Except AnalysisError Report × Program → Prop
  | unknown (e : AnalysisError) (q : Program)
    (hnarrow : (narrowAll platform p).effect = (.error e, q)) :
    AnalysisEnd p platform (.error e, q)
  | refused (e : AnalysisError)
    (hnarrow : (narrowAll platform p).effect = (.ok (), p.narrow platform))
    (hbuild : Catalog.build (p.narrow platform) platform = .error e) :
    AnalysisEnd p platform (.error e, p.narrow platform)
  | run (catalog : Catalog) (o : Except AnalysisError Report × Program)
    (hnarrow : (narrowAll platform p).effect = (.ok (), p.narrow platform))
    (hbuild : Catalog.build (p.narrow platform) platform = .ok catalog)
    (hend : RunEnd catalog platform (p.narrow platform) (p.narrow platform).live o) :
    AnalysisEnd p platform o

theorem analysisEnd_analyse (hp : Coherent p) (platform : Platform) :
    AnalysisEnd p platform (analyse platform p).effect := by
  have hq := coherent_narrow hp platform
  rw [analyse, Action.effect_tell_bind]
  rcases narrowAll_cases hp platform with hnarrow | ⟨e, q, hnarrow⟩
  swap
  · rw [Action.effect_bind_error hnarrow]
    exact .unknown e q hnarrow
  rw [Action.effect_bind_ok hnarrow, Action.effect_look_bind, Action.effect_tell_bind]
  cases hbuild : Catalog.build (p.narrow platform) platform with
  | error e =>
    rw [Action.effect_bind_error (by rw [Action.effect_ofExcept, hbuild])]
    exact .refused e hnarrow hbuild
  | ok catalog =>
    rw [Action.effect_bind_ok (by rw [Action.effect_ofExcept, hbuild])]
    exact .run catalog _ hnarrow hbuild (runEnd_analyseRegions hq hbuild)

/-- An analysis treats every region that is left, or fails. -/
theorem analyse_cases (hp : Coherent p) (platform : Platform) :
    (p.Analysable platform ∧ ∃ report, (analyse platform p).effect =
      (.ok report, p.analysed platform)) ∨
    (¬ p.Analysable platform ∧ ∃ e q, (analyse platform p).effect = (.error e, q)) := by
  have hq := coherent_narrow hp platform
  have hend := analysisEnd_analyse hp platform
  generalize (analyse platform p).effect = o at hend
  cases hend with
  | unknown e q hnarrow =>
    refine Or.inr ⟨fun h => ?_, e, q, rfl⟩
    simp [effect_narrowAll hp h.known] at hnarrow
  | refused e hnarrow hbuild =>
    refine Or.inr ⟨fun h => ?_, e, p.narrow platform, rfl⟩
    have hok := (Catalog.build_eq_ok_iff hq).mpr ⟨h.named, h.single, rfl⟩
    simp [hbuild] at hok
  | run catalog o hnarrow hbuild hend =>
    cases hend with
    | done report htreatable _ _ =>
      obtain ⟨hnamed, hsingle, -⟩ := (Catalog.build_eq_ok_iff hq).mp hbuild
      exact Or.inl ⟨⟨known_of_narrowAll hp hnarrow, hnamed, hsingle, htreatable⟩, report, rfl⟩
    | stopped before m after n reported e q _ _ htreatable _ _ =>
      exact Or.inr ⟨fun h => htreatable h.treatable, e, q, rfl⟩

/-- When an analysis succeeds, it needed no more than it had, and left every region treated. -/
theorem analysable_of_analyse (hp : Coherent p) (h : (analyse platform p).result = .ok report) :
    p.Analysable platform ∧ (analyse platform p).program = p.analysed platform := by
  rcases analyse_cases hp platform with
    ⟨hanalysable, report', heffect⟩ | ⟨_, e, q, heffect⟩
  · exact ⟨hanalysable, (Prod.mk.inj heffect).2⟩
  · have herror := (Prod.mk.inj heffect).1
    simp [h] at herror

theorem exists_analyse_eq_ok (hp : Coherent p) :
    (∃ report, (analyse platform p).result = .ok report) ↔ p.Analysable platform := by
  constructor
  · rintro ⟨report, h⟩
    exact (analysable_of_analyse hp h).1
  · intro h
    rcases analyse_cases hp platform with ⟨_, report, heffect⟩ | ⟨hnot, _⟩
    · exact ⟨report, (Prod.mk.inj heffect).1⟩
    · exact absurd h hnot

/-- That a document lowers and its analysis succeeds can be found out by running it. -/
theorem exists_analyse_of_isOk {d : Document}
    (h : ((ofDocument d).map fun p => (analyse platform p).result.isOk) = .ok true) :
    ∃ p report, ofDocument d = .ok p ∧ (analyse platform p).result = .ok report := by
  cases hp : ofDocument d with
  | error e => simp [hp, Except.map] at h
  | ok p =>
    cases hok : (analyse platform p).result with
    | error e => simp [hp, hok, Except.map, Except.isOk, Except.toBool] at h
    | ok report => exact ⟨p, report, rfl, hok⟩

/-- An analysis that succeeds counts the markers left by narrowing, and the routines that received a
position from their kernels. -/
theorem counts_analyse (hp : Coherent p) (h : (analyse platform p).result = .ok report) :
    report.kernels = (p.narrow platform).live.length ∧
      report.assignments =
        (((p.narrow platform).live.map Marker.owner).map p.spreadCount).sum := by
  have hend := analysisEnd_analyse hp platform
  have heffect : (analyse platform p).effect = (.ok report, (analyse platform p).program) :=
    congrArg (·, (analyse platform p).program) h
  rw [heffect] at hend
  generalize (analyse platform p).program = q at hend
  cases hend with
  | run catalog _ hnarrow hbuild hend =>
    cases hend with
    | done report htreatable hkernels hassignments =>
      refine ⟨hkernels, hassignments.trans ?_⟩
      rw [List.map_map]
      simp only [spreadCount_eq_of_skeleton (skeleton_narrow p platform), Function.comp_def]

theorem skeleton_analysed (p : Program) (platform : Platform) :
    (p.analysed platform).skeleton = p.skeleton :=
  (evolves_foldl_treat _ _).skeleton.trans (skeleton_narrow p platform)

/-- An analysis that succeeds consumes every marker. -/
theorem live_analysed (hp : Coherent p) : (p.analysed platform).live = [] := by
  rw [List.eq_nil_iff_forall_not_mem]
  intro m hm
  rw [analysed, mem_live_foldl_treat (coherent_narrow hp platform)] at hm
  exact hm.2 (List.mem_map_of_mem hm.1)

end Program

end KernelGraph
