import KernelGraph.Proofs.Analysis.Agreement

/-!
# Findings about the analysis itself

Some errors are not about a program but about the analysis: an index that lists a call under a name
that the call does not have, a catalog with a region of no routine, an analysis without an index or
a catalog. A staged analysis keeps what runs have produced, also those that failed, while its
program changes under it. But no run uses what an earlier one has produced, as the last stage comes
after both an index and a catalog of its own run. So however often the analysis of a lowered program
is attempted, there are no such errors.

## Main definitions

* `Diagnostic.IsInternal` — a finding about the analysis itself
* `Attempt`, `Progress.attempt`, `Progress.attemptAll` — attempts at an analysis
* `Progress.Sound` — what every attempt keeps

## Main results

* `Progress.sound_attempt`, `Progress.not_isInternal_attempt` — one attempt
* `Progress.not_isInternal_attemptAll` — any attempts, one after another
-/

namespace KernelGraph

/-- A finding about the analysis itself: an index that disagrees with a call, a region of no
routine, or an artifact that is missing. -/
def Diagnostic.IsInternal (w : Diagnostic) : Prop :=
  w.code = some .malformedEdge ∨ w.code = some .detachedRegion ∨ w = missingArtifact

theorem Diagnostic.not_isInternal_of_code {w : Diagnostic} {c : DiagnosticCode}
    (hw : w.code = some c) (hmalformed : c ≠ .malformedEdge) (hdetached : c ≠ .detachedRegion) :
    ¬ w.IsInternal := by
  rintro (h | h | h)
  · exact hmalformed (Option.some.inj (hw.symm.trans h))
  · exact hdetached (Option.some.inj (hw.symm.trans h))
  · rw [h] at hw
    cases hw

/-- An error that a stage finds is not about the analysis itself. -/
theorem AnalysisError.not_isInternal_of_stage? {e : AnalysisError} {s : Stage}
    (h : e.code.stage? = some s) : ¬ e.toDiagnostic.IsInternal := by
  apply Diagnostic.not_isInternal_of_code rfl <;>
  · intro hcode
    rw [hcode] at h
    cases h

namespace Mixed

theorem not_isInternal_of_mem_warnings {before : Nat} {xs : List Mixed} {w : Diagnostic}
    (hw : w ∈ warnings before xs) : ¬ w.IsInternal := by
  obtain ⟨i, hi, rfl⟩ := List.mem_mapIdx.mp hw
  rw [warning]
  split <;> exact Diagnostic.not_isInternal_of_code rfl (by decide) (by decide)

end Mixed

/-! ## Attempts -/

/-- An attempt at an analysis: up to a stage, or all at once and for any platform. -/
inductive Attempt
  | upTo (target : Stage)
  | atOnce (platform : Platform)
  deriving DecidableEq, Repr

/-- The findings of an analysis at once: those of its report, or its error. -/
def resultFindings : Except AnalysisError Report → List Diagnostic
  | .ok report => report.diagnostics
  | .error e => [e.toDiagnostic]

theorem resultFindings_mapError (o : Except (Stage × AnalysisError) Report) :
    resultFindings (o.mapError Prod.snd) = findingsOf o := by
  cases o <;> rfl

namespace Progress

/-- What an attempt leaves and finds. An analysis at once leaves a program and no artifacts. -/
def attempt (g : Progress) : Attempt → Progress × List Diagnostic
  | .upTo target =>
    let run := g.run target
    (run.progress, run.findings)
  | .atOnce platform =>
    let o := Program.analyse platform g.program
    ({ g with program := o.program }, resultFindings o.result)

/-- What several attempts leave and find, one after another and whether they fail or not. -/
def attemptAll (g : Progress) : List Attempt → Progress × List Diagnostic
  | [] => (g, [])
  | a :: rest =>
    let (after, found) := g.attempt a
    let (last, others) := after.attemptAll rest
    (last, found ++ others)

/-- The program is coherent, and no finding so far is about the analysis itself. Nothing is said
about the artifacts. -/
structure Sound (g : Progress) : Prop where
  coherent : Coherent g.program
  findings : ∀ w ∈ g.diagnostics, ¬ w.IsInternal

variable {g : Progress} {w : Diagnostic}

/-! ## One stage -/

/-- Whatever artifacts there are, the work of a stage leaves a coherent program. -/
theorem coherent_work (hg : Coherent g.program) (s : Stage) :
    Coherent (g.work s).1.program := by
  cases s with
  | narrow => exact Program.coherent_of_follows (Program.follows_narrowAll _) rfl hg
  | index => exact hg
  | catalog =>
    rw [work, performCatalog]
    split <;> exact hg
  | analyse =>
    rw [work, performAnalyse]
    split
    · rename_i index catalog _ _
      have hafter := Program.coherent_of_follows
        (Program.follows_analyseRegions index catalog g.platform) rfl hg
      dsimp only
      split <;> exact hafter
    · exact hg

/-- The stages before the last need no artifacts. -/
theorem not_isInternal_work (hg : Coherent g.program) (hs : s ≠ .analyse)
    (hw : w ∈ (g.work s).2.1) : ¬ w.IsInternal := by
  cases s with
  | narrow =>
    rw [work, performNarrow] at hw
    dsimp only at hw
    split at hw
    · cases hw
    · rename_i e hresult
      obtain rfl := List.mem_singleton.mp hw
      have hcode := (Program.code_of_narrowAll_eq_error hg (congrArg (·, _) hresult)).1
      apply AnalysisError.not_isInternal_of_stage?
      rw [hcode]
      rfl
  | index => cases hw
  | catalog =>
    rw [work, performCatalog] at hw
    split at hw
    · cases hw
    · rename_i e hbuild
      obtain rfl := List.mem_singleton.mp hw
      apply AnalysisError.not_isInternal_of_stage?
      rcases Catalog.code_of_build_eq_error hg hbuild with hcode | hcode <;> rw [hcode] <;> rfl
  | analyse => exact absurd rfl hs

/-! ## One run -/

theorem coherent_run (hg : Coherent g.program) (target : Stage) :
    Coherent (g.run target).progress.program :=
  performAll_induction (P := fun g => Coherent g.program)
    (fun _ s _ h => coherent_work h s) hg

/-- So do runs of such stages. -/
theorem not_isInternal_performAll {stages : List Stage} (hg : Coherent g.program)
    (hstages : .analyse ∉ stages) (hw : w ∈ (g.performAll stages).findings) :
    ¬ w.IsInternal := by
  induction stages generalizing g with
  | nil => cases hw
  | cons s rest ih =>
    obtain ⟨hs, hrest⟩ := List.ne_and_not_mem_of_not_mem_cons hstages
    have hcoherent := coherent_work hg s
    have hfirst : w ∈ (g.work s).2.1 → ¬ w.IsInternal := not_isInternal_work hg (Ne.symm hs)
    rcases hwork : g.work s with ⟨after, found, log⟩
    rw [hwork] at hcoherent hfirst
    rw [performAll_cons hwork] at hw
    split at hw
    · exact hfirst (by simpa [StagedRun.findings] using hw)
    · rcases List.mem_append.mp hw with hw | hw
      · exact hfirst hw
      · exact ih (g := after.add found) hcoherent hrest hw

end Progress

/-- What the work of all stages finds is not about the analysis itself. -/
theorem Program.not_isInternal_staged {p : Program} {platform : Platform} {w : Diagnostic}
    (hp : Coherent p) (hw : w ∈ findingsOf (staged platform p).1) : ¬ w.IsInternal := by
  have heffect := effect_analyse platform p
  rcases hstaged : (staged platform p).1 with ⟨s, e⟩ | report
  · rw [hstaged] at hw
    obtain rfl : w = e.toDiagnostic := List.mem_singleton.mp hw
    exact AnalysisError.not_isInternal_of_stage? (stage?_of_staged hp hstaged)
  · rw [hstaged] at hw heffect
    have hw' : w ∈ report.diagnostics := hw
    rw [diagnostics_analyse hp (Prod.mk.inj heffect).1] at hw'
    split at hw'
    · exact Mixed.not_isInternal_of_mem_warnings hw'
    · cases hw'

namespace Progress

variable {g : Progress} {p : Program} {w : Diagnostic}

/-- A run finds nothing about the analysis itself, whatever artifacts there are. -/
theorem not_isInternal_run (hg : Coherent g.program) {target : Stage}
    (hw : w ∈ (g.run target).findings) : ¬ w.IsInternal := by
  by_cases htarget : target = .analyse
  · rw [htarget, (ends_run_analyse g).findings] at hw
    exact Program.not_isInternal_staged hg hw
  · refine not_isInternal_performAll hg ?_ hw
    rw [Stage.required_eq]
    cases target <;> simp_all

/-! ## Attempts -/

/-- An attempt finds nothing about the analysis itself, whatever artifacts there are. -/
theorem not_isInternal_attempt (hg : Coherent g.program) (a : Attempt)
    (hw : w ∈ (g.attempt a).2) : ¬ w.IsInternal := by
  cases a with
  | upTo target => exact not_isInternal_run hg hw
  | atOnce platform =>
    have hresult := (Prod.mk.inj (Program.effect_analyse platform g.program)).1
    rw [attempt, hresult, resultFindings_mapError] at hw
    exact Program.not_isInternal_staged hg hw

/-- What is sound stays so with every attempt. -/
theorem sound_attempt (hg : g.Sound) (a : Attempt) : (g.attempt a).1.Sound := by
  cases a with
  | upTo target =>
    refine ⟨coherent_run hg.coherent target, fun w hw => ?_⟩
    rw [attempt, run, diagnostics_performAll] at hw
    rcases List.mem_append.mp hw with hw | hw
    · exact hg.findings w hw
    · exact not_isInternal_run hg.coherent hw
  | atOnce platform =>
    exact ⟨Program.coherent_of_follows (Program.follows_analyse platform) rfl hg.coherent,
      hg.findings⟩

/-- However often the analysis of the program of a document is attempted, at once or up to a stage,
on the program, the artifacts and the findings that the attempts before have left, failed ones
among them: none finds anything about the analysis itself, and none has been kept. -/
theorem not_isInternal_attemptAll {d : Document} (h : Program.ofDocument d = .ok p)
    (platform : Platform) (attempts : List Attempt) :
    let (g, found) := (start p platform).attemptAll attempts
    ∀ w, w ∈ found ∨ w ∈ g.diagnostics → ¬ w.IsInternal := by
  have hstart : (start p platform).Sound :=
    ⟨coherent_ofDocument h, fun w hw => absurd hw List.not_mem_nil⟩
  suffices hall : ∀ {g : Progress}, g.Sound → (g.attemptAll attempts).1.Sound ∧
      ∀ w ∈ (g.attemptAll attempts).2, ¬ w.IsInternal by
    obtain ⟨hsound, hfound⟩ := hall hstart
    exact fun w hw => hw.elim (hfound w) (hsound.findings w)
  induction attempts with
  | nil => exact fun hg => ⟨hg, fun w hw => absurd hw List.not_mem_nil⟩
  | cons a rest ih =>
    intro g hg
    obtain ⟨hsound, hfound⟩ := ih (sound_attempt hg a)
    refine ⟨hsound, fun w hw => ?_⟩
    rcases List.mem_append.mp hw with hw | hw
    · exact not_isInternal_attempt hg.coherent a hw
    · exact hfound w hw

/-- Attempts that stop at a conflict, in stages and at once, and one for another platform that does
not, after which the regions are gone. -/
theorem not_isInternal_attemptAll_clash : ∃ p, Program.ofDocument Program.clash = .ok p ∧
    let (g, found) := (start p .cpu).attemptAll
      [.upTo .analyse, .atOnce .cpu, .upTo .catalog, .upTo .analyse, .atOnce .gpu, .upTo .analyse]
    found.map Diagnostic.code = List.replicate 3 (some .conflictingPosition) ∧
      g.diagnostics.length = 2 ∧ g.report = some .empty ∧
      ∀ w, w ∈ found ∨ w ∈ g.diagnostics → ¬ w.IsInternal := by
  refine ⟨_, rfl, ?_, ?_, ?_, not_isInternal_attemptAll (d := Program.clash) rfl .cpu
    [.upTo .analyse, .atOnce .cpu, .upTo .catalog, .upTo .analyse, .atOnce .gpu, .upTo .analyse]⟩
  all_goals decide +kernel

end Progress

end KernelGraph
