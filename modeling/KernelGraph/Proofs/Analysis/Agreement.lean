import KernelGraph.Proofs.Analysis.Failure
import KernelGraph.Proofs.Analysis.Stages
import KernelGraph.Proofs.Analysis.Warnings

/-!
# An analysis at once and in stages

An analysis is done at once, or in stages, which build the index before they narrow. Both leave the
same program. If the analysis succeeds, so do the stages, with the same counts, and its warnings are
the findings of the stages; if it fails, its error is all that the stages find, and the stage that
fails can be told from the error.

## Main definitions

* `DiagnosticCode.stage?` — the stage that finds errors of a kind

## Main results

* `stage?_of_staged` — the stage that fails
* `diagnostics_performAll` — findings are kept as they are found
* `run_analyse_agrees` — an analysis at once and in stages
-/

namespace KernelGraph

/-- The stage that finds errors of a kind, if there is one. -/
def DiagnosticCode.stage? : DiagnosticCode → Option Stage
  | .unknownTemplate => some .narrow
  | .unnamedKernel | .duplicateKernelRegion => some .catalog
  | .missingTemplate | .conflictingPosition => some .analyse
  -- the index is that of the calls, and a document that is lowered has owners and single names
  | .malformedEdge | .detachedRegion | .duplicateRoutine => none
  | .mixedCalls | .mixedCallsAgain => none

namespace Program

variable {p q : Program} {platform : Platform} {catalog : Catalog} {m : Marker} {ms : List Marker}
  {s : Stage} {e : AnalysisError}

theorem RegionEnd.stage? (h : RegionEnd p m (.error e, q)) : e.code.stage? = some .analyse := by
  cases h with
  | missing htemplates => rfl
  | conflict direction t r q hsettles ht hr hconflict hq => rfl

theorem RunEnd.stage? (h : RunEnd catalog platform p ms (.error e, q)) :
    e.code.stage? = some .analyse := by
  cases h with
  | stopped before m after n reported e q hms hbefore htreatable hrun hend => exact hend.stage?

/-- The stage that fails can be told from the error. -/
theorem stage?_of_staged (hp : Coherent p) (h : (staged platform p).1 = .error (s, e)) :
    e.code.stage? = some s := by
  have hend := stagedEnd_staged platform p
  generalize staged platform p = o at h hend
  cases hend with
  | narrow e' q hnarrow =>
    obtain ⟨rfl, rfl⟩ := Prod.mk.inj (Except.error.inj h)
    rw [(code_of_narrowAll_eq_error hp hnarrow).1]
    rfl
  | catalog e' q hnarrow hbuild =>
    obtain ⟨rfl, rfl⟩ := Prod.mk.inj (Except.error.inj h)
    have hq := coherent_of_follows (follows_narrowAll platform) hnarrow hp
    rcases Catalog.code_of_build_eq_error hq hbuild with hcode | hcode <;> rw [hcode] <;> rfl
  | analyse q catalog o hnarrow hbuild hrun =>
    have hq := coherent_of_follows (follows_narrowAll platform) hnarrow hp
    have hend := runEnd_analyseRegions hq hbuild
    rw [hrun] at hend
    rcases o with ⟨e' | report, r⟩
    · obtain ⟨rfl, rfl⟩ := Prod.mk.inj (Except.error.inj h)
      exact hend.stage?
    · cases h

end Program

namespace Progress

variable {p : Program}

/-- Findings are kept as they are found. -/
theorem diagnostics_performAll (g : Progress) (stages : List Stage) :
    (g.performAll stages).progress.diagnostics =
      g.diagnostics ++ (g.performAll stages).findings := by
  induction stages generalizing g with
  | nil => exact (List.append_nil _).symm
  | cons s rest ih =>
    have hkeeps := (work_keeps g s).2.1
    rcases hwork : g.work s with ⟨after, found, log⟩
    rw [hwork] at hkeeps
    have hadd : (after.add found).diagnostics = g.diagnostics ++ found :=
      congrArg (· ++ found) hkeeps
    rw [performAll_cons hwork]
    by_cases herror : hasErrors found
    · rw [if_pos herror]
      exact hadd.trans (congrArg (g.diagnostics ++ ·) (List.append_nil found).symm)
    · rw [if_neg herror]
      exact (ih _).trans (by rw [hadd, List.append_assoc]; rfl)

/-- An analysis at once and in stages: the programs that are left are the same, and the stages keep
what each of them finds. Without an error, the stages keep the report, but for its warnings, which
they have found; otherwise the error is all that they find, at the stage that its kind tells, and
there is no report. -/
theorem run_analyse_agrees {d : Document} (h : Program.ofDocument d = .ok p) (platform : Platform) :
    let run := (start p platform).run .analyse
    run.progress.program = (Program.analyse platform p).program ∧
      run.stages.flatMap StageRun.diagnostics = run.progress.diagnostics ∧
      (∀ report, (Program.analyse platform p).result = .ok report →
        run.failing = none ∧ run.progress.hasError = false ∧
          run.progress.report = some { report with diagnostics := [] } ∧
          run.progress.diagnostics = report.diagnostics) ∧
      ∀ e, (Program.analyse platform p).result = .error e →
        ∃ s, e.code.stage? = some s ∧ run.failing = some s ∧ run.progress.hasError = true ∧
          run.progress.report = none ∧ run.progress.diagnostics = [e.toDiagnostic] := by
  have hends : ((start p platform).run .analyse).Ends none (Program.staged platform p) :=
    ends_run_analyse (start p platform)
  have hdiagnostics : ((start p platform).run .analyse).progress.diagnostics =
      ((start p platform).run .analyse).findings := diagnostics_performAll (start p platform) _
  have herror : ((start p platform).run .analyse).progress.hasError =
      hasErrors ((start p platform).run .analyse).progress.diagnostics :=
    hasError_runAll (g := start p platform) rfl [.analyse]
  obtain ⟨hresult, hprogram⟩ := Prod.mk.inj (Program.effect_analyse platform p)
  generalize (start p platform).run .analyse = run at hends hdiagnostics herror
  dsimp only
  rw [herror, hdiagnostics, hresult, hprogram, hends.program, hends.failing, hends.report,
    hends.findings]
  refine ⟨rfl, hends.findings, ?_⟩
  rcases hstaged : (Program.staged platform p).1 with ⟨s, e⟩ | report
  · constructor
    · rintro report ⟨⟩
    · rintro _ ⟨⟩
      exact ⟨s, Program.stage?_of_staged (coherent_ofDocument h) hstaged, rfl, rfl, rfl, rfl⟩
  · constructor
    · rintro _ ⟨⟩
      exact ⟨rfl, Program.hasErrors_staged hstaged, rfl, rfl⟩
    · rintro e ⟨⟩

/-- An analysis with two warnings, and one that stops at a conflict. -/
theorem run_analyse_agrees_mixing_nested :
    (∃ p report, Program.ofDocument Program.mixing = .ok p ∧
      (Program.analyse .gpu p).result = .ok report ∧ report.diagnostics.length = 2 ∧
      ((start p .gpu).run .analyse).failing = none ∧
      ((start p .gpu).run .analyse).progress.diagnostics = report.diagnostics) ∧
    ∃ p e, Program.ofDocument nested = .ok p ∧ (Program.analyse .cpu p).result = .error e ∧
      ((start p .cpu).run .analyse).failing = some .analyse ∧
      ((start p .cpu).run .analyse).progress.diagnostics = [e.toDiagnostic] := by
  constructor
  · have hcount : ∃ p, Program.ofDocument Program.mixing = .ok p ∧
        (Program.analyse .gpu p).result.map (·.diagnostics.length) = .ok 2 :=
      ⟨_, rfl, by decide +kernel⟩
    obtain ⟨p, hp, hcount⟩ := hcount
    cases hok : (Program.analyse .gpu p).result with
    | error e =>
      rw [hok] at hcount
      cases hcount
    | ok report =>
      rw [hok] at hcount
      obtain ⟨hfailing, -, -, hdiagnostics⟩ := (run_analyse_agrees hp .gpu).2.2.1 report hok
      exact ⟨p, report, hp, hok, Except.ok.inj hcount, hfailing, hdiagnostics⟩
  · have hstops : ∃ p, Program.ofDocument nested = .ok p ∧ (Program.analyse .cpu p).result =
        .error (.conflictingPosition "upper" .within .outside .upward) :=
      ⟨_, rfl, by decide +kernel⟩
    obtain ⟨p, hp, hfails⟩ := hstops
    obtain ⟨s, hs, hfailing, -, -, hdiagnostics⟩ := (run_analyse_agrees hp .cpu).2.2.2 _ hfails
    obtain rfl : Stage.analyse = s := Option.some.inj hs
    exact ⟨p, _, hp, hfails, hfailing, hdiagnostics⟩

end Progress

end KernelGraph
