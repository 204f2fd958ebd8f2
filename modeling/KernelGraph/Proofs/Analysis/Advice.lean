import KernelGraph.Proofs.Analysis.Failure
import KernelGraph.Proofs.Analysis.Places
import KernelGraph.Proofs.Analysis.Stages
import KernelGraph.Proofs.Analysis.Warnings

/-!
# The check for mixed calls is advice

On a GPU, and nowhere else, the callers of each kernel are checked for mixed calls in the midst of
treating the regions. By an index of the current calls the check never fails, and what it finds goes
into the report and nowhere else. So a run on another platform is the run on a GPU without its
findings.

## Main definitions

* `Report.silent` — a report without its findings

## Main results

* `analyseRegion_elsewhere`, `analyseEntries_elsewhere` — one region, and several
* `analyseRegions_elsewhere` — a whole run on a GPU and on another platform
-/

namespace KernelGraph

/-- A report without its findings. -/
def Report.silent (report : Report) : Report := { report with diagnostics := [] }

/-- Findings without errors are warnings. -/
theorem severity_of_hasErrors {found : List Diagnostic} (h : hasErrors found = false)
    {w : Diagnostic} (hw : w ∈ found) : w.severity = .warning := by
  rw [hasErrors, List.any_eq_false] at h
  have hnot : w.severity ≠ .error := by simpa [Diagnostic.isError] using h w hw
  cases hseverity : w.severity with
  | error => exact absurd hseverity hnot
  | warning => rfl

namespace Program

variable {p : Program} {catalog : Catalog} {other : Platform} {calls : List Call}

/-! ## One region -/

/-- By an index of the current calls, a check finds something or nothing, and does no more. -/
theorem exists_checkMixing_eq (p : Program) (catalog : Catalog) (platform : Platform)
    (kernel : String) (reported : Reported) :
    ∃ x, checkMixing (.build p.calls) catalog platform kernel reported p = ⟨.ok x, p, []⟩ := by
  rw [checkMixing]
  split
  · simp only [bind, Action.bind, Action.look, id_eq, check_build]
    exact ⟨_, rfl⟩
  · exact ⟨_, rfl⟩

/-- The treatment of a region on another platform than a GPU is that on a GPU without its findings,
whatever has been reported before. -/
theorem analyseRegion_elsewhere (hother : ¬ other.isGpu) (hcalls : p.calls = calls)
    (entry : CatalogEntry) (n : Nat) (m : Marker) (reported reported' : Reported) :
    analyseRegion (.build calls) catalog other entry n m reported' p =
      ((fun x => (x.1, [], reported')) <$>
        analyseRegion (.build calls) catalog .gpu entry n m reported) p := by
  rw [analyseRegion_eq, analyseRegion_eq, map_bind]
  refine Action.bind_apply_congr fun x q hspread => ?_
  obtain ⟨kernel, upward, downward⟩ := x
  simp only [map_bind]
  refine Action.bind_apply_congr fun _ promoted hpromote => ?_
  refine Action.bind_apply_congr fun _ r htell => ?_
  obtain rfl : promoted = r := (Prod.mk.inj htell).2
  -- neither the spread nor the promotion has changed the calls
  have hsame := sameMarkers_spreadRegion (.build calls) entry m p
  rw [(Prod.mk.inj hspread).2] at hsame
  have hpromoted : (q.promote entry.region).1 = promoted := (Prod.mk.inj hpromote).2
  have hcalls' : promoted.calls = calls := by
    rw [← hpromoted, calls_eq_of_skeleton (skeleton_promote.trans hsame.1), hcalls]
  obtain ⟨x, hcheck⟩ := exists_checkMixing_eq promoted catalog .gpu kernel reported
  rw [hcalls'] at hcheck
  rw [Action.bind_apply_ok hcheck, checkMixing, if_neg hother, pure_bind]
  rfl

/-! ## Several regions -/

/-- The treatment of several regions on another platform than a GPU is that on a GPU without its
findings, whatever has been reported before. -/
theorem analyseEntries_elsewhere (hother : ¬ other.isGpu) (hcalls : p.calls = calls)
    (entries : List (CatalogEntry × Nat)) (reported reported' : Reported) :
    analyseEntries (.build calls) catalog other entries reported' p =
      (Report.silent <$> analyseEntries (.build calls) catalog .gpu entries reported) p := by
  induction entries generalizing p reported reported' with
  | nil => rfl
  | cons first rest ih =>
    obtain ⟨entry, n⟩ := first
    rw [analyseEntries, analyseEntries, map_bind]
    refine Action.bind_apply_congr fun found q hlook => ?_
    obtain rfl : p = q := (Prod.mk.inj hlook).2
    cases found with
    | none => exact ih hcalls reported reported'
    | some m =>
      dsimp only
      rw [Action.bind_apply_eq (analyseRegion_elsewhere hother hcalls entry n m reported reported'),
        bind_map_left, map_bind]
      refine Action.bind_apply_congr fun x treated hregion => ?_
      obtain ⟨assignments, findings, after⟩ := x
      have hannotates := annotates_of_follows (follows_analyseRegion _ _ _ _ _ _ _) hregion
      have htreated : treated.calls = calls :=
        (calls_eq_of_skeleton hannotates.skeleton).trans hcalls
      -- what has been reported on the GPU does not matter for the rest
      dsimp only
      rw [Action.bind_apply_eq (ih htreated after reported'), bind_map_left, map_bind]
      rfl

/-! ## A whole run -/

/-- Whatever the program and the catalog, by an index of the current calls a run on another platform
than a GPU leaves the same program as a run on a GPU, tells the same, and ends with the same error
or the same counts. All findings on the GPU are warnings, and elsewhere there are none. -/
theorem analyseRegions_elsewhere (p : Program) (catalog : Catalog) (hother : ¬ other.isGpu) :
    let onGpu := analyseRegions (.build p.calls) catalog .gpu p
    let elsewhere := analyseRegions (.build p.calls) catalog other p
    elsewhere.program = onGpu.program ∧ elsewhere.log = onGpu.log ∧
      elsewhere.result = onGpu.result.map Report.silent ∧
      (∀ report, onGpu.result = .ok report → ∀ w ∈ report.diagnostics, w.severity = .warning) ∧
      ∀ report, elsewhere.result = .ok report → report.diagnostics = [] := by
  have hrun : analyseRegions (.build p.calls) catalog other p =
      (Report.silent <$> analyseRegions (.build p.calls) catalog .gpu) p := by
    rw [analyseRegions, analyseRegions, map_bind]
    refine Action.bind_apply_congr fun _ q htell => ?_
    obtain rfl : p = q := (Prod.mk.inj htell).2
    exact analyseEntries_elsewhere hother rfl _ .none .none
  rw [Action.map_apply] at hrun
  dsimp only
  rw [hrun]
  refine ⟨rfl, rfl, rfl, fun report hok w hw => ?_, fun report hok => ?_⟩
  · exact severity_of_hasErrors (gives_analyseRegions p report hok) hw
  · cases honGpu : (analyseRegions (.build p.calls) catalog .gpu p).result with
    | error e =>
      rw [honGpu] at hok
      cases hok
    | ok found =>
      rw [honGpu] at hok
      rw [← Except.ok.inj hok]
      rfl

/-- A run with two warnings on a GPU and none elsewhere, and one that stops at the same conflict on
both. -/
theorem analyseRegions_elsewhere_mixing_clash :
    (∃ p q catalog report, ofDocument mixing = .ok p ∧ (narrowAll .gpu p).effect = (.ok (), q) ∧
      Catalog.build q .gpu = .ok catalog ∧
      (analyseRegions (.build q.calls) catalog .gpu q).result = .ok report ∧
      report.diagnostics.length = 2 ∧
      (analyseRegions (.build q.calls) catalog .cpu q).result = .ok report.silent) ∧
    ∃ p q catalog e, ofDocument clash = .ok p ∧ (narrowAll .cpu p).effect = (.ok (), q) ∧
      Catalog.build q .cpu = .ok catalog ∧
      (analyseRegions (.build q.calls) catalog .gpu q).result = .error e ∧
      (analyseRegions (.build q.calls) catalog .cpu q).result = .error e := by
  have hother : ¬ Platform.cpu.isGpu := by decide
  constructor
  · obtain ⟨p, q, catalog, hp, hnarrow, hbuild, hcount⟩ : ∃ p q catalog,
        ofDocument mixing = .ok p ∧ (narrowAll .gpu p).effect = (.ok (), q) ∧
        Catalog.build q .gpu = .ok catalog ∧
        (analyseRegions (.build q.calls) catalog .gpu q).result.map (·.diagnostics.length) =
          .ok 2 :=
      ⟨_, _, _, rfl, rfl, rfl, by decide +kernel⟩
    cases hok : (analyseRegions (.build q.calls) catalog .gpu q).result with
    | error e =>
      rw [hok] at hcount
      cases hcount
    | ok report =>
      rw [hok] at hcount
      obtain ⟨-, -, hresult, -, -⟩ := analyseRegions_elsewhere q catalog hother
      rw [hok] at hresult
      exact ⟨p, q, catalog, report, hp, hnarrow, hbuild, hok, Except.ok.inj hcount, hresult⟩
  · obtain ⟨p, q, catalog, hp, hnarrow, hbuild, hstops⟩ : ∃ p q catalog,
        ofDocument clash = .ok p ∧ (narrowAll .cpu p).effect = (.ok (), q) ∧
        Catalog.build q .cpu = .ok catalog ∧
        (analyseRegions (.build q.calls) catalog .gpu q).result =
          .error (.conflictingPosition "first" .within .outside .upward) :=
      ⟨_, _, _, rfl, rfl, rfl, by decide +kernel⟩
    obtain ⟨-, -, hresult, -, -⟩ := analyseRegions_elsewhere q catalog hother
    rw [hstops] at hresult
    exact ⟨p, q, catalog, _, hp, hnarrow, hbuild, hstops, hresult⟩

end Program

end KernelGraph
