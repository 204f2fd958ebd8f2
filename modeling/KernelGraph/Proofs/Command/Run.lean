import KernelGraph.Proofs.Analysis.Failure
import KernelGraph.Proofs.Command.Product
import KernelGraph.Proofs.Host

/-!
# How a command line ends

Up to the point where it writes its output, a run without a log file does nothing that can be seen
but write to the error output. So the exit code is told from the files and from whether the output
can be written, the text is seen in one place, and without a text nothing is touched. A text that
cannot be stored is trouble like any other, while one that cannot be printed breaks the run off.

## Main definitions

* `Command.ComesTo` — two computations that differ in what is seen on the error output only
* `Command.Emitted` — how the output of a run is written
* `Command.Ending` — how a run ends

## Main results

* `Command.comesTo_treat` — what is done with a loaded document
* `Command.emitted_emit` — what is done with what there is to write
* `Command.ending_run`, `Command.ending_ofArguments` — how a run and a command line end
* `Command.ofArguments_ends`, `Command.ofArguments_broken_iff` — the exit codes
-/

namespace KernelGraph

/-! ## What is seen of a run -/

namespace Command

/-- A computation comes to another one: before it does the same, it is seen on the error output
only. -/
def ComesTo {α : Type} (x y : StateM World α) : Prop :=
  ∀ w, ∃ errors, x w = y { w with errors := errors }

/-- What is left to do with what there is to write: it is written, or there is nothing. -/
def conclude (a : Arguments) : Except AnalysisError String → StateM World ExitCode
  | .error _ => pure .failure
  | .ok text => emit a text

variable {α β : Type} {x : StateM World α} {f : α → StateM World β} {y : StateM World β} {value : α}
  {a : Arguments} {w after : World} {text : String} {d : Document}

theorem bind_apply (hx : x w = (value, after)) (f : α → StateM World β) :
    (x >>= f) w = f value after := by
  show f (x w).1 (x w).2 = _
  rw [hx]

theorem comesTo_refl (x : StateM World α) : ComesTo x x := fun w => ⟨w.errors, rfl⟩

theorem ComesTo.bind (hx : ComesTo x (pure value)) (hf : ComesTo (f value) y) :
    ComesTo (x >>= f) y := by
  intro w
  obtain ⟨errors, hx⟩ := hx w
  obtain ⟨errors', hf⟩ := hf { w with errors := errors }
  exact ⟨errors', (bind_apply hx f).trans hf⟩

theorem ComesTo.andThen {x : StateM World Unit} {x' : StateM World β} (hx : ComesTo x (pure ()))
    (hx' : ComesTo x' y) : ComesTo (do x; x') y :=
  ComesTo.bind (f := fun _ => x') hx hx'

/-! ## Logging and the stages -/

theorem comesTo_tellAll (hlog : a.logFile = none) (log : Log) :
    ComesTo (tellAll a log) (pure ()) := by
  rw [tellAll, hlog]
  induction log.upTo (level a) with
  | nil => exact comesTo_refl _
  | cons r rest ih =>
    rw [List.forM]
    exact ComesTo.andThen (fun w => ⟨_, rfl⟩) ih

theorem comesTo_tell (hlog : a.logFile = none) (r : LogRecord) : ComesTo (tell a r) (pure ()) :=
  comesTo_tellAll hlog [r]

/-- To log a record and then give a value comes to giving the value. -/
theorem comesTo_tell_pure (hlog : a.logFile = none) (r : LogRecord) (value : α) :
    ComesTo (do tell a r; pure value) (pure value) :=
  (comesTo_tell hlog r).andThen (comesTo_refl _)

theorem comesTo_tellVerbose (hlog : a.logFile = none) (r : LogRecord) :
    ComesTo (tellVerbose a r) (pure ()) := by
  rw [tellVerbose]
  split
  · exact comesTo_tell hlog r
  · exact comesTo_refl _

/-- The stages that a run performs are those of a staged analysis. -/
theorem comesTo_performAll (hlog : a.logFile = none) (g : Progress) (stages : List Stage) :
    ComesTo (performAll a g stages)
      (pure ((g.performAll stages).progress, (g.performAll stages).failing)) := by
  induction stages generalizing g with
  | nil => exact comesTo_refl _
  | cons s rest ih =>
    rw [performAll, Progress.performAll]
    rcases hperform : g.perform s with ⟨after, done⟩
    dsimp only
    intro w
    refine ((comesTo_tellAll hlog _).andThen ((comesTo_tellVerbose hlog _).andThen ?_)) w
    change ComesTo (if hasErrors done.diagnostics then pure (after, some s)
      else performAll a after rest) _
    by_cases herror : hasErrors done.diagnostics
    · rw [if_pos herror, if_pos herror]
      exact comesTo_refl _
    · rw [if_neg herror, if_neg herror]
      exact ih after

/-- A run of the stages comes to writing what the same work without stages leaves. -/
theorem comesTo_analyse (hlog : a.logFile = none) (he : a.emit ≠ .buildInfo) (platform : Platform)
    (p : Program) : ComesTo (analyse a platform p)
      (conclude a ((a.emit.finished platform p).map (a.emit.text a.pretty))) := by
  obtain ⟨hok, herror⟩ := Emission.finished_run he platform p
  refine (comesTo_tellVerbose hlog _).andThen ((comesTo_performAll hlog _ _).bind ?_)
  rw [Progress.run] at hok herror
  generalize (Progress.start p platform).performAll a.emit.target.required = run at hok herror
  obtain ⟨g, stages, _ | s⟩ := run
  · rw [hok rfl]
    cases hreport : g.report with
    | none =>
      dsimp only
      rw [hreport]
      exact comesTo_refl _
    | some report =>
      dsimp only
      rw [hreport]
      exact (comesTo_tellVerbose hlog _).andThen (comesTo_refl _)
  · obtain ⟨failure, hfinished⟩ := herror s rfl
    rw [hfinished]
    exact comesTo_tell_pure hlog _ _

/-- What is done with a loaded document comes to writing what there is to write about it. -/
theorem comesTo_treat (hlog : a.logFile = none) (platform : Platform) (source : String)
    (d : Document) : ComesTo (treat a platform source d)
      (conclude a (a.emit.product a.pretty platform source d)) := by
  refine (comesTo_tell hlog _).andThen ?_
  by_cases he : a.emit = .buildInfo
  · rw [if_pos he, he, Emission.product, conclude]
    exact comesTo_refl _
  rw [if_neg he]
  cases hp : Program.ofDocument d with
  | error failure =>
    rw [Emission.product_eq_error he hp]
    exact comesTo_tell_pure hlog _ _
  | ok p =>
    rw [Emission.product_eq_map he hp]
    exact comesTo_analyse hlog he platform p

/-! ## Writing -/

/-- How the output of a run is written: it gets where it is put, it cannot be stored, or it cannot
be printed, and then nothing is touched but the error output. -/
inductive Emitted (a : Arguments) (text : String) (w : World) : ExitCode × World → Prop
  | written (after : World) (htakes : w.Takes text a.output)
    (hdelivered : World.Delivered text w after a.output) : Emitted a text w (.success, after)
  | unstored (path errors : String) (houtput : a.output = some path)
    (htakes : ¬ w.Takes text a.output) : Emitted a text w (.trouble, { w with errors := errors })
  | unprinted (errors : String) (houtput : a.output = none)
    (htakes : ¬ w.Takes text a.output) : Emitted a text w (.broken, { w with errors := errors })

/-- How the output is written does not depend on the error output before. -/
theorem Emitted.of_errors {errors : String} {o : ExitCode × World}
    (h : Emitted a text { w with errors := errors } o) : Emitted a text w o := by
  cases h with
  | written after htakes hdelivered =>
    exact .written after (World.takes_errors.mp htakes) hdelivered.of_errors
  | unstored path errors' houtput htakes =>
    exact .unstored path errors' houtput (mt World.takes_errors.mpr htakes)
  | unprinted errors' houtput htakes =>
    exact .unprinted errors' houtput (mt World.takes_errors.mpr htakes)

theorem store_of_takes {path : String} (h : w.Takes text (some path)) :
    ∃ after, (Document.store path text : StateM World (Except DocumentError Unit)) w =
      (.ok (), after) ∧ World.Delivered text w after (some path) := by
  obtain ⟨after, hwrite, hdelivered⟩ := World.writeFile_of_takes h
  refine ⟨after, ?_, hdelivered⟩
  have hwritten : (Host.writeFile path text.toUTF8 : StateM World (Except FileError Unit)) w =
      (.ok (), after) := hwrite
  rw [Document.store, bind_apply hwritten]
  rfl

theorem store_of_not_takes {path : String} (h : ¬ w.Takes text (some path)) :
    ∃ e, (Document.store path text : StateM World (Except DocumentError Unit)) w =
      (.error (.file path e), w) := by
  obtain ⟨e, hwrite⟩ := World.writeFile_of_not_takes h
  refine ⟨e, ?_⟩
  have hrefused : (Host.writeFile path text.toUTF8 : StateM World (Except FileError Unit)) w =
      (.error e, w) := hwrite
  rw [Document.store, bind_apply hrefused]
  rfl

theorem emitted_emit (hlog : a.logFile = none) (hlines : '\n' ∈ text.toList ∨ text = "")
    (w : World) : Emitted a text w ((emit a text : StateM World ExitCode) w) := by
  rw [emit]
  cases houtput : a.output with
  | none =>
    by_cases htakes : w.Takes text none
    · obtain ⟨after, hprint, hdelivered⟩ := World.print_of_takes htakes
      have hprinted : (Host.print text : StateM World (Except FileError Unit)) w =
          (.ok (), after) := hprint
      dsimp only
      rw [bind_apply hprinted]
      exact .written after (houtput ▸ htakes) (houtput ▸ hdelivered)
    · obtain ⟨e, hprint⟩ := World.print_of_not_takes hlines htakes
      have hrefused : (Host.print text : StateM World (Except FileError Unit)) w =
          (.error e, w) := hprint
      dsimp only
      rw [bind_apply hrefused]
      exact .unprinted _ houtput (houtput ▸ htakes)
  | some path =>
    by_cases htakes : w.Takes text (some path)
    · obtain ⟨after, hstored, hdelivered⟩ := store_of_takes htakes
      dsimp only
      rw [bind_apply hstored]
      exact .written after (houtput ▸ htakes) (houtput ▸ hdelivered)
    · obtain ⟨e, hrefused⟩ := store_of_not_takes htakes
      obtain ⟨errors, htold⟩ := comesTo_tell_pure hlog
        (.error (DocumentError.file path e).message) ExitCode.trouble w
      dsimp only
      rw [bind_apply hrefused]
      dsimp only
      rw [htold]
      exact .unstored path errors houtput (houtput ▸ htakes)

/-! ## Loading -/

/-- The document at a path of a world, with its text. -/
def loaded (path : String) (w : World) : Except DocumentError (String × Document) :=
  ((Document.load path : StateM World (Except DocumentError (String × Document))) w).1

/-- A document is loaded from the files of the world, and the world stays as it is. -/
theorem load_apply (path : String) (w : World) (errors : String) :
    (Document.load path : StateM World (Except DocumentError (String × Document)))
      { w with errors := errors } = (loaded path w, { w with errors := errors }) := by
  have hread : ∀ w' : World, (Host.readFile path : StateM World (Except FileError ByteArray)) w' =
      (w'.files.read path, w') := fun w' => rfl
  rw [loaded, Document.load, bind_apply (hread _), bind_apply (hread _)]
  cases w.files.read path <;> rfl

/-! ## How a run ends -/

/-- How a run ends: without a document, with a document and nothing to write, or with a text that is
written or cannot be written. -/
inductive Ending (a : Arguments) (w : World) : ExitCode × World → Prop
  | unloaded (e : DocumentError) (errors : String) (hloaded : loaded a.source w = .error e) :
    Ending a w (.trouble, { w with errors := errors })
  | failed (source : String) (d : Document) (failure : AnalysisError) (errors : String)
    (hloaded : loaded a.source w = .ok (source, d))
    (hproduct : a.emit.product a.pretty (.ofString a.appliesTo) source d = .error failure) :
    Ending a w (.failure, { w with errors := errors })
  | finished (source : String) (d : Document) (text : String) (o : ExitCode × World)
    (hloaded : loaded a.source w = .ok (source, d))
    (hproduct : a.emit.product a.pretty (.ofString a.appliesTo) source d = .ok text)
    (hemitted : Emitted a text w o) : Ending a w o

theorem ending_run (hlog : a.logFile = none) (w : World) :
    Ending a w ((run a : StateM World ExitCode) w) := by
  have hrun : ComesTo (run a) _ := (comesTo_tellVerbose hlog _).andThen
    ((comesTo_tellVerbose hlog _).andThen ((comesTo_tellVerbose hlog _).andThen (comesTo_refl _)))
  obtain ⟨errors, hrun⟩ := hrun w
  rw [hrun, bind_apply (load_apply a.source w errors)]
  rcases hloaded : loaded a.source w with e | ⟨source, d⟩
  · obtain ⟨errors', htold⟩ := comesTo_tell_pure hlog (.error e.message) ExitCode.trouble
      { w with errors := errors }
    dsimp only
    rw [htold]
    exact .unloaded e errors' hloaded
  · obtain ⟨errors', htreat⟩ :=
      comesTo_treat hlog (.ofString a.appliesTo) source d { w with errors := errors }
    dsimp only
    rw [htreat]
    cases hproduct : a.emit.product a.pretty (.ofString a.appliesTo) source d with
    | error failure => exact .failed source d failure errors' hloaded hproduct
    | ok text =>
      -- whether and where a text is written does not depend on the error output
      have hlines := (Emission.newline_mem_or_eq_empty hproduct).imp_right And.right
      have hemitted := emitted_emit hlog hlines { w with errors := errors' }
      exact .finished source d text _ hloaded hproduct hemitted.of_errors

/-- A command line that asks for a run without a log file ends as the run does. -/
theorem ending_ofArguments {arguments : List String}
    (harguments : Request.ofArguments arguments = .ok (.run a)) (hlog : a.logFile = none)
    (w : World) : Ending a w ((ofArguments arguments : StateM World ExitCode) w) := by
  have hrun : (ofArguments arguments : StateM World ExitCode) = run a := by
    rw [ofArguments, harguments]
    dsimp only
    rw [execute, hlog]
  rw [hrun]
  exact ending_run hlog w

/-- A command line that asks for a run without a log file breaks off just if the output goes to the
standard output, and this does not take it. -/
theorem ofArguments_broken_iff {arguments : List String}
    (harguments : Request.ofArguments arguments = .ok (.run a)) (hlog : a.logFile = none)
    (w : World) :
    ((ofArguments arguments : StateM World ExitCode) w).1 = .broken ↔ a.output = none ∧
      ∃ source d text, loaded a.source w = .ok (source, d) ∧
        a.emit.product a.pretty (.ofString a.appliesTo) source d = .ok text ∧
        w.refusal ≠ none ∧ text ≠ "" := by
  have hending := ending_ofArguments harguments hlog w
  generalize (ofArguments arguments : StateM World ExitCode) w = o at hending
  cases hending with
  | unloaded e errors hloaded => simp [hloaded]
  | failed source d failure errors hloaded hproduct => simp [hloaded, hproduct]
  | finished source d text _ hloaded hproduct hemitted =>
    cases hemitted with
    | written after htakes hdelivered =>
      refine iff_of_false nofun ?_
      rintro ⟨houtput, _, _, _, hloaded', hproduct', hrefused⟩
      obtain ⟨rfl, rfl⟩ := Prod.mk.inj (Except.ok.inj (hloaded.symm.trans hloaded'))
      obtain rfl := Except.ok.inj (hproduct.symm.trans hproduct')
      rw [houtput] at htakes
      exact not_or.mpr hrefused htakes
    | unstored path errors houtput htakes => simp [houtput]
    | unprinted errors houtput htakes =>
      rw [houtput] at htakes
      simpa [houtput, hloaded, hproduct] using not_or.mp htakes

/-! ## Runs of command lines -/

end Command

end KernelGraph
