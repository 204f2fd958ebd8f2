import KernelGraph.Proofs.Analysis.Carried
import KernelGraph.Proofs.Analysis.Warnings
import KernelGraph.Proofs.Region.Repetition

/-!
# Analysing what has been written after an analysis

An analysis that succeeds consumes every marker, so there is nothing to be done for an analysis of
what it leaves, on any platform. Written out, read back and lowered, this program is raised to the
same document: its fields are such as can be read, and its lists of templates hold each id once. So
the text that an analysis comes to is a fixpoint.

## Main results

* `effect_analyse_of_live` — an analysis without markers finds nothing and changes nothing
* `print_analyse_again` — an annotated text is analysed to itself
-/

namespace KernelGraph.Program

variable {d : Document} {p : Program} {platform : Platform} {report : Report}

/-! ## Programs without markers -/

section Empty

variable (hlive : p.live = [])

include hlive

theorem narrow_of_live : p.narrow platform = p := by
  refine narrow_of_narrowed fun i m hm => ?_
  have hmem : m ∈ p.live := mem_live_iff.mpr ⟨i, hm⟩
  simp [hlive] at hmem

theorem analysed_of_live : p.analysed platform = p := by
  rw [analysed, narrow_of_live hlive, hlive, List.foldl_nil]

theorem analysable_of_live : p.Analysable platform where
  known := by simp [hlive]
  named := by simp [narrow_of_live hlive, hlive]
  single := by simp [narrow_of_live hlive, hlive]
  treatable := by
    rw [narrow_of_live hlive, hlive]
    exact treatable_nil

/-- An analysis without markers finds nothing and changes nothing. -/
theorem effect_analyse_of_live (hp : Coherent p) (platform : Platform) :
    (analyse platform p).effect = (.ok .empty, p) := by
  have hanalysable : p.Analysable platform := analysable_of_live hlive
  obtain ⟨report, hok⟩ := (exists_analyse_eq_ok hp).mpr hanalysable
  have hprogram := (analysable_of_analyse hp hok).2
  rw [analysed_of_live hlive] at hprogram
  have hcounts := counts_analyse hp hok
  rw [narrow_of_live hlive, hlive] at hcounts
  have hdiagnostics := diagnostics_analyse hp hok
  have hnames : p.kernelNames platform = [] := by rw [kernelNames, hlive]; rfl
  rw [mixedCalls, hnames, List.flatMap_nil] at hdiagnostics
  have hreport : report = .empty := by
    obtain ⟨kernels, assignments, diagnostics⟩ := report
    obtain ⟨rfl, rfl⟩ := hcounts
    obtain rfl : diagnostics = [] := hdiagnostics.trans (ite_self [])
    rfl
  rw [Outcome.effect, hok, hprogram, hreport]

end Empty

/-! ## The annotated text -/

/-- What an analysis of a document leaves can be written and read back. -/
theorem ofString?_print_analyse {text : String} (hread : Document.ofString? text = .ok d)
    (hdouble : ∀ v ∈ d.kept, ¬ v.HasDouble) (h : ofDocument d = .ok p)
    (hok : (analyse platform p).result = .ok report) (pretty : Bool) :
    Document.ofString? ((analyse platform p).program.toDocument.print pretty) =
      .ok (analyse platform p).program.toDocument := by
  have hp := coherent_ofDocument h
  have hregular := Document.regular_of_ofString? hread
  obtain ⟨-, hprogram⟩ := analysable_of_analyse hp hok
  have hlive : (p.analysed platform).live = [] := live_analysed hp
  have hsteps := follows_analyse platform p
  have hskeleton := skeleton_toDocument h (skeleton_analysed p platform)
  -- promotion merges fields that can be read, one level closer to the outside
  have hcarries := carries_of_steps Fields.plain_nil (fun _ _ => Fields.Plain.merge)
    (carries_ofDocument h hregular hdouble) hsteps
  rw [hprogram] at hcarries ⊢
  exact Document.ofString?_print_of_regular (regular_toDocument hlive hcarries hskeleton hregular)
    (not_hasDouble_toDocument hlive hcarries hskeleton hdouble) pretty

/-- Lowering the document of a program without markers gives one without markers. -/
theorem live_of_toDocument {q : Program} (hlive : p.live = [])
    (h : ofDocument p.toDocument = .ok q) : q.live = [] := by
  rw [live_ofDocument h, List.mapIdx_eq_nil_iff, List.eq_nil_iff_forall_not_mem]
  intro e he
  obtain ⟨r, hr, hregion⟩ := exists_routine_of_mem_ownedRegions he
  obtain ⟨i, x, -, rfl⟩ := exists_routine_of_mem_toDocument hlive hr
  exact List.not_mem_nil hregion

/-- The text that is written after an analysis is read, lowered and analysed again on any platform:
no kernel, no assignment and no warning is found, and what is written then is the same text. -/
theorem print_analyse_again {text : String} (hread : Document.ofString? text = .ok d)
    (hdouble : ∀ v ∈ d.kept, ¬ v.HasDouble) (h : ofDocument d = .ok p)
    (hok : (analyse platform p).result = .ok report) (pretty : Bool) (other : Platform) :
    ∃ d' q, Document.ofString? ((analyse platform p).program.toDocument.print pretty) = .ok d' ∧
      ofDocument d' = .ok q ∧ (analyse other q).result = .ok ⟨0, 0, []⟩ ∧
      (analyse other q).program.toDocument.print pretty =
        (analyse platform p).program.toDocument.print pretty := by
  have hp := coherent_ofDocument h
  have hwritten := ofString?_print_analyse hread hdouble h hok pretty
  obtain ⟨-, hprogram⟩ := analysable_of_analyse hp hok
  rw [hprogram] at hwritten ⊢
  have hskeleton := skeleton_toDocument h (skeleton_analysed p platform)
  obtain ⟨q, hq, -⟩ := exists_ofDocument_of_skeleton hskeleton h
  have hlive := live_of_toDocument (live_analysed hp) hq
  have heffect := Prod.mk.inj (effect_analyse_of_live hlive (coherent_ofDocument hq) other)
  have hraised : q.toDocument = (p.analysed platform).toDocument :=
    (toDocument_ofDocument hq).trans (distinct_toDocument _)
  exact ⟨_, q, hwritten, hq, heffect.1, by rw [heffect.2, hraised]⟩

/-- A kernel that lists a template twice, and has a field beside it. -/
def sized : String :=
  "\x7b\"routines\": [\x7b\"name\": \"kernel\", \"parallelRegions\": "
    ++ "[\x7b\"templateRelations\": [[\"t\"], [\"t\"]], \"size\": 4\x7d]\x7d], "
    ++ "\"parallelRegionTemplates\": [\x7b\"id\": \"t\"\x7d]\x7d"

theorem print_analyse_again_sized : ∃ d p report, Document.ofString? sized = .ok d ∧
    (∀ v ∈ d.kept, ¬ v.HasDouble) ∧ ofDocument d = .ok p ∧
    (analyse .cpu p).result = .ok report ∧
    ∃ d' q, Document.ofString? ((analyse .cpu p).program.toDocument.print true) = .ok d' ∧
      ofDocument d' = .ok q ∧ (analyse .gpu q).result = .ok ⟨0, 0, []⟩ ∧
      (analyse .gpu q).program.toDocument.print true =
        (analyse .cpu p).program.toDocument.print true := by
  let d : Document :=
    ⟨[⟨"kernel", .unset, [⟨["t", "t"], [("size", .number (.integer 4 (by decide)))]⟩], none, []⟩],
      [], [⟨"t", [], []⟩], []⟩
  have hread : Document.ofString? sized = .ok d := by decide +kernel
  have hdouble : ∀ v ∈ d.kept, ¬ v.HasDouble := by
    intro v hv
    obtain rfl : v = .number (.integer 4 (by decide)) := by
      simpa [d, Document.kept, Document.Routine.kept, Document.Region.kept] using hv
    rintro ⟨⟩
  obtain ⟨p, report, hp, hok⟩ : ∃ p report, ofDocument d = .ok p ∧
      (analyse .cpu p).result = .ok report := exists_analyse_of_isOk (by decide +kernel)
  exact ⟨d, p, report, hread, hdouble, hp, hok,
    print_analyse_again hread hdouble hp hok true .gpu⟩

end KernelGraph.Program
