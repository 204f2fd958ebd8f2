import KernelGraph.Analysis.Staged
import KernelGraph.Proofs.Analysis.Positions
import KernelGraph.Proofs.Analysis.Repetition
import Mathlib.Data.List.Induction

/-!
# Runs to stages

Runs to stages can follow one another in any order, each on what the runs before have left. Once
one of them has been a run of the whole analysis, none changes the program any more; and every run
of the whole analysis, sooner or later, fails as the first one does, or succeeds like it and finds
nothing to do.

## Main definitions

* `StagedRun.findings`, `StagedRun.errors` — what a run has found
* `StagedRun.Ends`, `StagedRun.Shows` — a run ends as the work of the stages does
* `Progress.runAll` — runs to several stages, one after another

## Main results

* `ends_run_analyse`, `shows_run_analyse` — a run of the whole analysis
* `performAll_induction` — what every stage keeps, every run keeps
* `runAll_analyse` — analyses among other runs
-/

namespace KernelGraph

namespace Program

/-! ## What an analysis finds are warnings -/

variable {index : CallIndex} {catalog : Catalog} {platform : Platform} {p : Program}

theorem gives_checkMixing (kernel : String) (reported : Reported) :
    Action.Gives (fun x => hasErrors x.1 = false)
      (checkMixing index catalog platform kernel reported) := by
  unfold checkMixing
  split
  · refine (Action.gives_any _).bind fun p _ => ?_
    split
    · rename_i findings reported' hcheck
      exact Action.gives_pure (hasErrors_check (congrArg Prod.fst hcheck))
    · exact Action.gives_fail _
  · exact Action.gives_pure rfl

theorem gives_analyseRegion (entry : CatalogEntry) (n : Nat) (m : Marker) (reported : Reported) :
    Action.Gives (fun x => hasErrors x.2.1 = false)
      (analyseRegion index catalog platform entry n m reported) := by
  refine (Action.gives_any _).bind fun kernel _ => ?_
  refine (Action.gives_any _).bind fun upward _ => ?_
  refine (Action.gives_any _).bind fun downward _ => ?_
  refine (Action.gives_any _).bind fun _ _ => ?_
  refine (Action.gives_any _).bind fun _ _ => ?_
  exact (gives_checkMixing kernel reported).bind fun x hx => Action.gives_pure hx

theorem gives_analyseEntries (entries : List (CatalogEntry × Nat)) (reported : Reported) :
    Action.Gives (fun report => hasErrors report.diagnostics = false)
      (analyseEntries index catalog platform entries reported) := by
  induction entries generalizing reported with
  | nil => exact Action.gives_pure rfl
  | cons first rest ih =>
    obtain ⟨entry, n⟩ := first
    refine (Action.gives_any _).bind fun found _ => ?_
    cases found with
    | none => exact ih reported
    | some m =>
      refine (gives_analyseRegion entry n m reported).bind fun x hx => ?_
      refine (ih x.2.2).bind fun report hreport => Action.gives_pure ?_
      rw [Report.cons, hasErrors, List.any_append]
      exact Bool.or_eq_false_iff.mpr ⟨hx, hreport⟩

/-- An analysis that succeeds has found no errors. -/
theorem gives_analyseRegions :
    Action.Gives (fun report => hasErrors report.diagnostics = false)
      (analyseRegions index catalog platform) :=
  (Action.gives_any _).bind fun _ _ => gives_analyseEntries _ _

/-- What the work of the stages finds, if none of them fails, are no errors. -/
theorem hasErrors_staged {report : Report} (h : (staged platform p).1 = .ok report) :
    hasErrors report.diagnostics = false := by
  have hend := stagedEnd_staged platform p
  generalize staged platform p = o at h hend
  cases hend with
  | narrow e q hnarrow => cases h
  | catalog e q hnarrow hbuild => cases h
  | analyse q catalog o hnarrow hbuild hrun =>
    rcases o with ⟨e | report', r⟩
    · cases h
    · obtain rfl : report' = report := Except.ok.inj h
      exact gives_analyseRegions q report' (Prod.mk.inj hrun).1

end Program

/-! ## The work of the stages -/

/-- The findings of the stages of a run. -/
def StagedRun.findings (run : StagedRun) : List Diagnostic :=
  run.stages.flatMap StageRun.diagnostics

/-- The errors among the findings of a run. -/
def StagedRun.errors (run : StagedRun) : List Diagnostic :=
  (run.stages.flatMap StageRun.diagnostics).filter Diagnostic.isError

/-- The stage at which the work of the stages has failed, and why. -/
def failureOf {α : Type} : Except (Stage × AnalysisError) α → Option (Stage × AnalysisError)
  | .ok _ => none
  | .error failure => some failure

theorem failureOf_map {α β : Type} (f : α → β) (o : Except (Stage × AnalysisError) α) :
    failureOf (o.map f) = failureOf o := by
  cases o <;> rfl

/-- What the work of the stages has found: the findings of the report, or the error. -/
def findingsOf : Except (Stage × AnalysisError) Report → List Diagnostic
  | .ok report => report.diagnostics
  | .error failure => [failure.2.toDiagnostic]

/-- The report that is kept, without findings; an earlier one stays if a stage has failed. -/
def reportOf (earlier : Option Report) : Except (Stage × AnalysisError) Report → Option Report
  | .ok report => some { report with diagnostics := [] }
  | .error _ => earlier

/-- A run ends as the work of the stages does: with the program that is left, the stage that failed,
what has been found, and the report. -/
structure StagedRun.Ends (run : StagedRun) (earlier : Option Report)
    (o : Except (Stage × AnalysisError) Report × Program) : Prop where
  program : run.progress.program = o.2
  failing : run.failing = (failureOf o.1).map Prod.fst
  findings : run.findings = findingsOf o.1
  report : run.progress.report = reportOf earlier o.1

/-- A run shows what the work of the stages has come to: the program that is left, the stage that
failed, its error as the only one that was found, and a report without findings. -/
structure StagedRun.Shows (run : StagedRun)
    (o : Except (Stage × AnalysisError) Report × Program) : Prop where
  program : run.progress.program = o.2
  failing : run.failing = (failureOf o.1).map Prod.fst
  errors : run.errors = (failureOf o.1).toList.map fun failure => failure.2.toDiagnostic
  report : ∀ report, o.1 = .ok report →
    run.progress.report = some { report with diagnostics := [] }

/-- If no report has errors among its findings, the only error of a run is that of the stage that
has failed. -/
theorem StagedRun.Ends.shows {run : StagedRun} {earlier : Option Report}
    {o : Except (Stage × AnalysisError) Report × Program} (h : run.Ends earlier o)
    (hwarnings : ∀ report, o.1 = .ok report → hasErrors report.diagnostics = false) :
    run.Shows o where
  program := h.program
  failing := h.failing
  errors := by
    have hfindings : run.stages.flatMap StageRun.diagnostics = findingsOf o.1 := h.findings
    rw [errors, hfindings]
    rcases ho : o.1 with failure | report
    · rfl
    · have hnone := hwarnings report ho
      rw [hasErrors, List.any_eq_false] at hnone
      exact List.filter_eq_nil_iff.mpr hnone
  report report ho := by rw [h.report, ho]; rfl

theorem Stage.required_eq (s : Stage) : s.required =
    match s with
    | .narrow => [.narrow]
    | .index => [.index]
    | .catalog => [.narrow, .catalog]
    | .analyse => [.index, .narrow, .catalog, .analyse] := by
  cases s <;> decide +kernel

namespace Progress

/-- The findings of a stage are added to those so far. -/
def add (g : Progress) (found : List Diagnostic) : Progress :=
  { g with
    diagnostics := g.diagnostics ++ found
    hasError := g.hasError || hasErrors found }

variable {g after : Progress} {s : Stage} {rest : List Stage} {found : List Diagnostic} {log : Log}
  {e : AnalysisError} {o : Except (Stage × AnalysisError) Report × Program} {q : Program}
  {p : Program} {index : CallIndex} {catalog : Catalog} {report : Report}

theorem performAll_cons (hwork : g.work s = (after, found, log)) :
    g.performAll (s :: rest) =
      if hasErrors found then ⟨after.add found, [⟨s, found, log⟩], some s⟩
      else
        let run := (after.add found).performAll rest
        { run with stages := ⟨s, found, log⟩ :: run.stages } := by
  rw [performAll, perform, hwork]
  rfl

/-- A stage with an error is the last. -/
theorem ends_performAll_error (hwork : g.work s = (after, [e.toDiagnostic], log))
    (hreport : after.report = g.report) :
    (g.performAll (s :: rest)).Ends g.report (.error (s, e), after.program) := by
  have herror : hasErrors [e.toDiagnostic] = true := rfl
  rw [performAll_cons hwork, if_pos herror]
  exact ⟨rfl, rfl, rfl, hreport⟩

/-- A stage that finds nothing is followed by the others. -/
theorem ends_performAll_cons (hwork : g.work s = (after, [], log))
    (h : ((after.add []).performAll rest).Ends g.report o) :
    (g.performAll (s :: rest)).Ends g.report o := by
  have hnone : hasErrors [] ≠ true := Bool.false_ne_true
  rw [performAll_cons hwork, if_neg hnone]
  exact ⟨h.program, h.failing, h.findings, h.report⟩

/-- The stage that treats the regions ends as the treatment does. -/
theorem ends_performAll_analyse (hindex : g.index = some index)
    (hcatalog : g.catalog = some catalog) :
    (g.performAll [.analyse]).Ends g.report
      (let o := (Program.analyseRegions index catalog g.platform g.program).effect
      (o.1.mapError (Prod.mk .analyse), o.2)) := by
  have hgives : Action.Gives (fun report => hasErrors report.diagnostics = false)
    (Program.analyseRegions index catalog g.platform) := Program.gives_analyseRegions
  rcases hrun : Program.analyseRegions index catalog g.platform g.program with
    ⟨e | report, q, log⟩
  · have hwork : g.work .analyse = ({ g with program := q }, [e.toDiagnostic], log) := by
      simp only [work, performAnalyse, hindex, hcatalog, hrun]
    exact ends_performAll_error hwork rfl
  · have hwork : g.work .analyse =
        ({ g with program := q, report := some { report with diagnostics := [] } },
          report.diagnostics, log) := by
      simp only [work, performAnalyse, hindex, hcatalog, hrun]
    have hwarnings : hasErrors report.diagnostics = false :=
      hgives g.program report (by rw [hrun])
    rw [performAll_cons hwork, if_neg (by rw [hwarnings]; exact Bool.false_ne_true)]
    exact ⟨rfl, rfl, List.append_nil _, rfl⟩

/-- The stages after narrowing, by an index of the calls. -/
theorem ends_performAll_catalog (hindex : g.index = some (.build g.program.calls)) :
    (g.performAll [.catalog, .analyse]).Ends g.report
      (Program.stagedAfter g.platform (.ok (), g.program)) := by
  rw [Program.stagedAfter]
  cases hbuild : Catalog.build g.program g.platform with
  | error e =>
    have hwork : g.work .catalog = (g, [e.toDiagnostic], [Program.catalogRecord]) := by
      simp only [work, performCatalog, hbuild]
    exact ends_performAll_error hwork rfl
  | ok catalog =>
    have hwork : g.work .catalog =
        ({ g with catalog := some catalog }, [], [Program.catalogRecord]) := by
      simp only [work, performCatalog, hbuild]
    refine ends_performAll_cons hwork ?_
    exact ends_performAll_analyse (g := add { g with catalog := some catalog } []) hindex rfl

/-- Narrowing, and the stages after it. -/
theorem ends_performAll_narrow (hindex : g.index = some (.build g.program.calls)) :
    (g.performAll [.narrow, .catalog, .analyse]).Ends g.report
      (Program.staged g.platform g.program) := by
  rw [Program.staged]
  rcases hrun : Program.narrowAll g.platform g.program with ⟨e | _, q, log⟩
  · have hwork : g.work .narrow = ({ g with program := q }, [e.toDiagnostic],
        Program.narrowingRecord g.platform :: log) := by
      simp only [work, performNarrow, hrun]
    exact ends_performAll_error hwork rfl
  · have hwork : g.work .narrow =
        ({ g with program := q }, [], Program.narrowingRecord g.platform :: log) := by
      simp only [work, performNarrow, hrun]
    have hcalls : q.calls = g.program.calls := Program.calls_eq_of_skeleton
      (Program.annotates_of_follows (Program.follows_narrowAll _)
        (congrArg Outcome.effect hrun)).skeleton
    rw [← hcalls] at hindex
    refine ends_performAll_cons hwork ?_
    exact ends_performAll_catalog (g := add { g with program := q } []) hindex

/-- A run of the whole analysis ends as the work of its stages does. -/
theorem ends_run_analyse (g : Progress) :
    (g.run .analyse).Ends g.report (Program.staged g.platform g.program) := by
  rw [run, Stage.required_eq]
  -- the index is built first, from the calls that narrowing does not change
  refine ends_performAll_cons rfl ?_
  exact ends_performAll_narrow
    (g := add { g with index := some (.build g.program.calls) } []) rfl

/-- A run of the whole analysis shows what the work of its stages comes to. -/
theorem shows_run_analyse (g : Progress) :
    (g.run .analyse).Shows (Program.staged g.platform g.program) :=
  (ends_run_analyse g).shows fun _ => Program.hasErrors_staged

/-! ## What every run keeps -/

/-- What each of the stages keeps, their run keeps, wherever it ends. -/
theorem performAll_induction {P : Progress → Prop} {stages : List Stage}
    (hstep : ∀ g, ∀ s ∈ stages, P g → P (g.perform s).1) (h : P g) :
    P (g.performAll stages).progress := by
  induction stages generalizing g with
  | nil => exact h
  | cons s rest ih =>
    have hfirst := hstep g s List.mem_cons_self h
    rw [performAll]
    dsimp only
    split
    · exact hfirst
    · exact ih (fun g s hs => hstep g s (List.mem_cons_of_mem _ hs)) hfirst

/-- The work of a stage concerns neither the platform nor the findings so far. -/
theorem work_keeps (g : Progress) (s : Stage) :
    (g.work s).1.platform = g.platform ∧ (g.work s).1.diagnostics = g.diagnostics ∧
      (g.work s).1.hasError = g.hasError := by
  cases s with
  | narrow => exact ⟨rfl, rfl, rfl⟩
  | index => exact ⟨rfl, rfl, rfl⟩
  | catalog =>
    rw [work, performCatalog]
    split <;> exact ⟨rfl, rfl, rfl⟩
  | analyse =>
    rw [work, performAnalyse]
    split
    · dsimp only
      split <;> exact ⟨rfl, rfl, rfl⟩
    · exact ⟨rfl, rfl, rfl⟩

theorem perform_fst (g : Progress) (s : Stage) :
    (g.perform s).1 = (g.work s).1.add (g.work s).2.1 := rfl

/-- Runs to several stages, one after another, whether they fail or not. -/
def runAll (g : Progress) (targets : List Stage) : Progress :=
  targets.foldl (fun g target => (g.run target).progress) g

theorem runAll_concat (g : Progress) (targets : List Stage) (target : Stage) :
    g.runAll (targets ++ [target]) = ((g.runAll targets).run target).progress := by
  rw [runAll, List.foldl_append]
  rfl

theorem runAll_induction {P : Progress → Prop} (hstep : ∀ g s, P g → P (g.perform s).1)
    (targets : List Stage) (h : P g) : P (g.runAll targets) := by
  induction targets generalizing g with
  | nil => exact h
  | cons target targets ih => exact ih (performAll_induction (fun g s _ => hstep g s) h)

theorem platform_runAll (g : Progress) (targets : List Stage) :
    (g.runAll targets).platform = g.platform := by
  refine runAll_induction (P := fun g' => g'.platform = g.platform) (fun g' s h => ?_) targets rfl
  rw [perform_fst, add, (work_keeps g' s).1, h]

/-- Errors are noted as they are found. -/
theorem hasError_runAll (h : g.hasError = hasErrors g.diagnostics) (targets : List Stage) :
    (g.runAll targets).hasError = hasErrors (g.runAll targets).diagnostics := by
  refine runAll_induction (P := fun g => g.hasError = hasErrors g.diagnostics) (fun g s h => ?_)
    targets h
  obtain ⟨-, hdiagnostics, hhasError⟩ := work_keeps g s
  rw [perform_fst, add, hdiagnostics, hhasError, h]
  exact List.any_append.symm

/-! ## Runs among other runs -/

/-- A run to an earlier stage narrows the program or leaves it as it is. -/
theorem program_run_of_ne (g : Progress) {target : Stage} (htarget : target ≠ .analyse) :
    (g.run target).progress.program = g.program ∨
      (g.run target).progress.program = (Program.narrowAll g.platform g.program).program := by
  have hcatalog : ∀ g : Progress, (g.perform .catalog).1.program = g.program := by
    intro g
    rw [perform_fst, work, performCatalog]
    split <;> rfl
  rw [run, Stage.required_eq]
  cases target with
  | narrow =>
    right
    rw [performAll]
    dsimp only
    split <;> rfl
  | index => exact Or.inl rfl
  | catalog =>
    right
    rw [performAll]
    dsimp only
    split
    · rfl
    · refine performAll_induction (P := fun g' => g'.program =
        (Program.narrowAll g.platform g.program).program) (fun g' s hs h => ?_) rfl
      rw [List.mem_singleton.mp hs, hcatalog, h]
  | analyse => exact absurd rfl htarget

/-- Before there has been an analysis, the program may have been narrowed or not. -/
theorem program_run_of_narrowed (hp : Coherent p) {target : Stage} (htarget : target ≠ .analyse)
    (h : g.program = p ∨ g.program = (Program.narrowAll g.platform p).program) :
    (g.run target).progress.program = p ∨
      (g.run target).progress.program = (Program.narrowAll g.platform p).program := by
  have hagain := (Prod.mk.inj (Program.effect_narrowAll_again hp g.platform)).2
  rcases h with h | h <;> rcases program_run_of_ne g htarget with hrun | hrun <;>
    rw [hrun, h]
  · exact Or.inl rfl
  · exact Or.inr rfl
  · exact Or.inr rfl
  · exact Or.inr hagain

/-- Whether the program has been narrowed or not makes no difference to an analysis. -/
theorem staged_of_narrowed (hp : Coherent p)
    (h : g.program = p ∨ g.program = (Program.narrowAll g.platform p).program) :
    Program.staged g.platform g.program = Program.staged g.platform p := by
  rcases h with h | h
  · rw [h]
  · rw [h, Program.staged_narrowAll hp]

/-- After an analysis, no run changes the program. -/
theorem program_run_of_staged (hp : Coherent p)
    (h : g.program = (Program.staged g.platform p).2) (target : Stage) :
    (g.run target).progress.program = g.program := by
  obtain ⟨hnarrow, hstaged⟩ := Program.staged_again hp g.platform
  rw [← h] at hnarrow hstaged
  by_cases htarget : target = .analyse
  · rw [htarget, (shows_run_analyse g).program, hstaged]
  · rcases program_run_of_ne g htarget with hrun | hrun
    · exact hrun
    · exact hrun.trans hnarrow

/-- The program is as the first analysis has left it, or there has been none. -/
theorem program_runAll (hp : Coherent p) (platform : Platform) (targets : List Stage) :
    let q := ((start p platform).runAll targets).program
    (.analyse ∈ targets ∧ q = (Program.staged platform p).2) ∨
      (.analyse ∉ targets ∧ (q = p ∨ q = (Program.narrowAll platform p).program)) := by
  induction targets using List.reverseRecOn with
  | nil => exact Or.inr ⟨by simp, Or.inl rfl⟩
  | append_singleton targets target ih =>
    have hplatform := platform_runAll (start p platform) targets
    rw [runAll_concat]
    generalize (start p platform).runAll targets = g at ih hplatform
    obtain rfl : g.platform = platform := hplatform
    rcases ih with ⟨hmem, hprogram⟩ | ⟨hmem, hprogram⟩
    · refine Or.inl ⟨List.mem_append_left _ hmem, ?_⟩
      exact (program_run_of_staged hp hprogram target).trans hprogram
    by_cases htarget : target = .analyse
    · refine Or.inl ⟨by simp [htarget], ?_⟩
      rw [htarget, (shows_run_analyse g).program, staged_of_narrowed hp hprogram]
    · refine Or.inr ⟨?_, program_run_of_narrowed hp htarget hprogram⟩
      simp [hmem, Ne.symm htarget]

/-- Among runs to any stages, whether they fail or not, all runs of the whole analysis leave the
same program, which no other run changes any more, and all fail at the same stage with the same
error, or succeed; after the first, there is nothing left to report. Errors are noted as they are
found. -/
theorem runAll_analyse {d : Document} (h : Program.ofDocument d = .ok p) (platform : Platform)
    (targets : List Stage) :
    let first := (start p platform).run .analyse
    let g := (start p platform).runAll targets
    (.analyse ∈ targets → g.program = first.progress.program) ∧
      (g.run .analyse).failing = first.failing ∧ (g.run .analyse).errors = first.errors ∧
      (.analyse ∈ targets → first.failing = none →
        (g.run .analyse).progress.report = some .empty) ∧
      g.hasError = hasErrors g.diagnostics := by
  have hp := coherent_ofDocument h
  have hprogram := program_runAll hp platform targets
  have hplatform := platform_runAll (start p platform) targets
  have herror := hasError_runAll (g := start p platform) rfl targets
  have hfirst : ((start p platform).run .analyse).Shows (Program.staged platform p) :=
    shows_run_analyse (start p platform)
  generalize (start p platform).runAll targets = g at hprogram hplatform herror
  obtain rfl : g.platform = platform := hplatform
  have hagain := shows_run_analyse g
  dsimp only at hprogram ⊢
  rw [hfirst.program, hfirst.failing, hfirst.errors, hagain.failing, hagain.errors]
  rcases hprogram with ⟨hmem, hprogram⟩ | ⟨hmem, hprogram⟩
  · have hstaged := (Program.staged_again hp g.platform).2
    rw [← hprogram] at hstaged
    rw [hstaged, failureOf_map]
    refine ⟨fun _ => hprogram, rfl, rfl, fun _ hnone => ?_, herror⟩
    cases hok : (Program.staged g.platform p).1 with
    | error failure => simp [hok, failureOf] at hnone
    | ok report => exact hagain.report .empty (by rw [hstaged, hok]; rfl)
  · rw [staged_of_narrowed hp hprogram]
    exact ⟨fun h => absurd h hmem, rfl, rfl, fun h => absurd h hmem, herror⟩

/-- The second kernel has put `middle` outside when it meets the first one. -/
def nested : Document where
  routines :=
    [⟨"upper", .unset, [⟨["t"], []⟩], none, []⟩, ⟨"middle", .unset, [], none, []⟩,
      ⟨"lower", .unset, [⟨["t"], []⟩], none, []⟩]
  calls := [⟨"upper", "middle", none, []⟩, ⟨"middle", "lower", none, []⟩]
  templates := [⟨"t", [], []⟩]
  extra := []

/-- Analyses that succeed, with nothing left for the later ones, and analyses that all fail. -/
theorem runAll_analyse_chain_nested :
    (∃ p, Program.ofDocument Program.chain = .ok p ∧
      ((start p .cpu).runAll [.catalog, .analyse, .narrow]).program =
        ((start p .cpu).run .analyse).progress.program ∧
      (((start p .cpu).runAll [.catalog, .analyse, .narrow]).run .analyse).progress.report =
        some .empty) ∧
    ∃ p, Program.ofDocument nested = .ok p ∧
      (((start p .cpu).runAll [.catalog, .analyse, .narrow]).run .analyse).failing =
        some .analyse := by
  constructor
  · have hrun := runAll_analyse (d := Program.chain) rfl .cpu [.catalog, .analyse, .narrow]
    refine ⟨_, rfl, hrun.1 (by decide), hrun.2.2.2.1 (by decide) ?_⟩
    decide +kernel
  · have hrun := runAll_analyse (d := nested) rfl .cpu [.catalog, .analyse, .narrow]
    refine ⟨_, rfl, hrun.2.1.trans ?_⟩
    decide +kernel

end Progress

end KernelGraph
