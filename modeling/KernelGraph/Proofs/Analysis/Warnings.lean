import KernelGraph.Proofs.Analysis.Kernels
import KernelGraph.Proofs.Analysis.Operations
import KernelGraph.Proofs.Call.Mixing

/-!
# The warnings of an analysis

On a GPU an analysis checks the callers of each kernel that it has treated. What it reports in the
end is told from the calls and the kernels alone: the first mixed call of each caller, in the order
of the kernels and then of the calls. Elsewhere nothing is reported.

## Main definitions

* `Program.kernelNames` — the names of the kernels, in the order of the catalog
* `Program.mixedCalls` — the mixed calls to all kernels

## Main results

* `diagnostics_analyse` — the warnings of an analysis on any platform
* `diagnostics_analyse_gpu` — those on a GPU, one by one
-/

namespace KernelGraph

namespace Program

/-- The names of the kernels, in the order of their markers. -/
def kernelNames (p : Program) (platform : Platform) : List String :=
  (p.live.filter fun m => p.Survives platform m).map fun m => p.nameOf m.owner

/-- The mixed calls to the kernels, in the order of the kernels and then of the calls. -/
def mixedCalls (p : Program) (platform : Platform) : List Mixed :=
  (p.kernelNames platform).flatMap
    (Mixed.ofKernel p.calls fun name => (p.kernelNames platform).contains name)

variable {d : Document} {p q r : Program} {platform : Platform} {catalog : Catalog}
  {entry : CatalogEntry} {n count : Nat} {m : Marker} {ms : List Marker}
  {reported reported' : Reported} {findings : List Diagnostic} {report : Report} {kernel : String}

/-! ## One region -/

theorem nameOf_of_enterKernel (h : (enterKernel entry m p).effect = (.ok kernel, q)) :
    kernel = p.nameOf entry.routine := by
  rw [enterKernel] at h
  split at h
  · simp [Outcome.effect] at h
  · split at h
    · simp [Outcome.effect] at h
    · rename_i r hr
      split at h
      · rw [nameOf, hr]
        exact (Except.ok.inj (Prod.mk.inj h).1).symm
      · simp [Outcome.effect] at h

/-- What is reported about a region is what a check of its kernel reports. -/
theorem checkMixing_of_analyseRegion
    (h : (analyseRegion (.build p.calls) catalog platform entry n m reported p).effect =
      (.ok (count, findings, reported'), q)) :
    (checkMixing (.build p.calls) catalog platform (p.nameOf entry.routine) reported q).effect =
      (.ok (findings, reported'), q) := by
  rw [analyseRegion] at h
  obtain ⟨kernel, entered, henter, h⟩ := Action.of_effect_bind_eq_ok h
  obtain ⟨up, climbed, hup, h⟩ := Action.of_effect_bind_eq_ok h
  obtain ⟨down, spread, hdown, h⟩ := Action.of_effect_bind_eq_ok h
  rw [Action.effect_modify_bind, Action.effect_tell_bind] at h
  obtain ⟨⟨found, after⟩, checked, hcheck, h⟩ := Action.of_effect_bind_eq_ok h
  rw [← nameOf_of_enterKernel henter]
  -- nothing before the check changes the calls, and the check itself changes nothing
  have hskeleton : (spread.promote entry.region).1.skeleton = p.skeleton := by
    rw [skeleton_promote, (annotates_of_follows (follows_spreadFrom _ _ _) hdown).skeleton,
      (annotates_of_follows (follows_spreadFrom _ _ _) hup).skeleton,
      (annotates_of_follows (follows_enterKernel _ _) henter).skeleton]
  obtain ⟨x, hsame⟩ := exists_effect_checkMixing (spread.promote entry.region).1 catalog platform
    reported kernel
  rw [calls_eq_of_skeleton hskeleton, hcheck] at hsame
  obtain rfl := (Prod.mk.inj hsame).2
  rw [Action.effect_pure] at h
  simp only [Prod.mk.injEq, Except.ok.injEq] at h
  obtain ⟨⟨-, rfl, rfl⟩, rfl⟩ := h
  exact hcheck

/-! ## A run over several regions -/

/-- What a run reports is found by its checks one after another. -/
theorem diagnostics_analyseEntries (hp : Coherent p) (hlive : ∀ m ∈ ms, m ∈ p.live)
    (hnodup : (ms.map Marker.id).Nodup) (hnamed : ∀ m ∈ ms, p.nameOf m.owner ≠ "")
    (h : (analyseEntries (.build p.calls) catalog platform
      ((ms.map fun m => ⟨m.id, m.owner⟩).zipIdx n) reported p).effect = (.ok report, q)) :
    report.diagnostics =
      if platform.isGpu then
        Mixed.warnings reported.size (Mixed.firsts reported.callers
          ((ms.map fun m => p.nameOf m.owner).flatMap
            (Mixed.ofKernel p.calls catalog.hostsKernel)))
      else [] := by
  induction ms generalizing p q n reported report with
  | nil =>
    obtain rfl : Report.empty = report := Except.ok.inj (Prod.mk.inj h).1
    split <;> rfl
  | cons m ms ih =>
    have hm := hlive m List.mem_cons_self
    rw [List.map_cons, List.zipIdx_cons, analyseEntries, Action.effect_look_bind, hp.marker?_id hm]
      at h
    dsimp only at h
    obtain ⟨⟨count, findings, reported'⟩, treated, hregion, h⟩ := Action.of_effect_bind_eq_ok h
    obtain ⟨others, after, hrest, h⟩ := Action.of_effect_bind_eq_ok h
    obtain rfl : others.cons count findings = report := Except.ok.inj (Prod.mk.inj h).1
    -- the program in which the first region has been treated has the calls and names of `p`
    have hend := regionEnd_analyseRegion catalog platform n reported hp hm
      (hnamed m List.mem_cons_self)
    rw [hregion] at hend
    obtain ⟨-, -, -, rfl⟩ := hend.of_ok
    have hcalls : (p.treat m).calls = p.calls := calls_eq_of_skeleton skeleton_treat
    have hname : ∀ i, (p.treat m).nameOf i = p.nameOf i := nameOf_eq_of_skeleton skeleton_treat
    rw [← hcalls] at hrest
    have hothers := ih ((evolves_treat p m).coherent hp) (mem_live_treat_of_mem hp hlive hnodup)
      (List.nodup_cons.mp hnodup).2
      (fun m' hm' => by rw [hname]; exact hnamed m' (List.mem_cons_of_mem _ hm')) hrest
    have hcheck := checkMixing_of_analyseRegion hregion
    rw [← hcalls, effect_checkMixing] at hcheck
    simp only [hcalls, hname] at hothers hcheck
    rw [Report.cons, hothers, List.map_cons, List.flatMap_cons]
    dsimp only
    split at hcheck
    · rename_i hgpu
      obtain ⟨rfl, rfl⟩ : _ = findings ∧ _ = reported' := by simpa using hcheck
      rw [if_pos hgpu, if_pos hgpu, Mixed.firsts_append, Mixed.warnings_append, size_addAll]
      rfl
    · rename_i hgpu
      obtain ⟨rfl, -⟩ : [] = findings ∧ reported = reported' := by simpa using hcheck
      rw [if_neg hgpu, if_neg hgpu]
      rfl

/-! ## The whole analysis -/

/-- The names of the kernels are those of the routines that own the markers left by narrowing. -/
theorem map_nameOf_live_narrow : ((p.narrow platform).live.map fun m => p.nameOf m.owner) =
    p.kernelNames platform := by
  have hnames := congrArg (List.map p.nameOf) (@map_owner_live_narrow p platform)
  rwa [List.map_map, List.map_map] at hnames

theorem hostsKernel_of_narrow :
    (Catalog.of (p.narrow platform) (p.narrow platform).live).hostsKernel =
      fun name => (p.kernelNames platform).contains name := by
  funext name
  rw [Bool.eq_iff_iff, Catalog.hostsKernel_of, List.contains_iff_mem, ← map_nameOf_live_narrow,
    List.mem_map]
  rfl

/-- The warnings of an analysis are about the first mixed call of each caller. -/
theorem diagnostics_analyse (hp : Coherent p) (hok : (analyse platform p).result = .ok report) :
    report.diagnostics =
      if platform.isGpu then Mixed.warnings 0 (Mixed.firsts [] (p.mixedCalls platform))
      else [] := by
  have hq := coherent_narrow hp platform
  have hanalysable := (analysable_of_analyse hp hok).1
  have hbuild : Catalog.build (p.narrow platform) platform =
      .ok (.of (p.narrow platform) (p.narrow platform).live) :=
    (Catalog.build_eq_ok_iff hq).mpr ⟨hanalysable.named, hanalysable.single, rfl⟩
  have heffect : (analyse platform p).effect = (.ok report, (analyse platform p).program) :=
    congrArg (·, (analyse platform p).program) hok
  rw [analyse, Action.effect_tell_bind,
    Action.effect_bind_ok (effect_narrowAll hp hanalysable.known), Action.effect_look_bind,
    Action.effect_tell_bind, Action.effect_bind_ok (by rw [Action.effect_ofExcept, hbuild]),
    analyseRegions, Action.effect_tell_bind] at heffect
  have hfound := diagnostics_analyseEntries hq (fun _ hm => hm) hq.nodup_map_id_live
    hanalysable.named heffect
  rw [hfound, hostsKernel_of_narrow]
  have hnames : ((p.narrow platform).live.map fun m => (p.narrow platform).nameOf m.owner) =
      p.kernelNames platform := map_nameOf_live_narrow (p := p)
  rw [hnames]
  rfl

/-- The callers that an analysis on a GPU warns about call a kernel and a kernel wrapper. -/
theorem exists_warning_iff {caller : String} :
    (∃ w ∈ Mixed.warnings 0 (Mixed.firsts [] (p.mixedCalls platform)), w.subject = some caller) ↔
      (∃ c ∈ p.calls, c.caller = caller ∧ c.callee ∈ p.kernelNames platform) ∧
      ∃ c ∈ p.calls, c.caller = caller ∧ ∃ inner ∈ p.calls, inner.caller = c.callee ∧
        inner.callee ∈ p.kernelNames platform := by
  rw [Mixed.exists_warnings_iff, mixedCalls, Mixed.mem_map_caller_flatMap_iff,
    Mixed.isSome_wrapperOf?_iff]
  simp

/-- The warnings of an analysis on a GPU that succeeds are about the first mixed call of each
caller, going through the kernels in the order of the catalog and through the calls to each of them.
The first has a code of its own and a hint. The message of each gives the caller, the kernel and the
kernel wrapper of its mixed call. No caller is warned twice, and those that are warned are the
callers that call both a kernel and a kernel wrapper. -/
theorem diagnostics_analyse_gpu (h : ofDocument d = .ok p)
    (hok : (analyse .gpu p).result = .ok report) :
    report.diagnostics = Mixed.warnings 0 (Mixed.firsts [] (p.mixedCalls .gpu)) ∧
      (∀ i w, report.diagnostics[i]? = some w → w.severity = .warning ∧
        w.code = some (if i = 0 then .mixedCalls else .mixedCallsAgain) ∧
        (w.hint.isSome ↔ i = 0)) ∧
      (∀ (i : Nat) w, report.diagnostics[i]? = some w →
        ∃ x, (Mixed.firsts [] (p.mixedCalls .gpu))[i]? = some x ∧ w.subject = some x.caller ∧
          w.Quotes x.caller ∧ w.Quotes x.kernel ∧ w.Quotes x.wrapper) ∧
      (report.diagnostics.map Diagnostic.subject).Nodup ∧
      ∀ caller, (∃ w ∈ report.diagnostics, w.subject = some caller) ↔
        (∃ c ∈ p.calls, c.caller = caller ∧ c.callee ∈ p.kernelNames .gpu) ∧
        ∃ c ∈ p.calls, c.caller = caller ∧ ∃ inner ∈ p.calls, inner.caller = c.callee ∧
          inner.callee ∈ p.kernelNames .gpu := by
  have hfound := diagnostics_analyse (coherent_ofDocument h) hok
  rw [if_pos (by decide)] at hfound
  rw [hfound]
  refine ⟨rfl, fun i w hw => ?code, fun i w hw => ?names,
    Mixed.nodup_map_subject_warnings Mixed.nodup_map_caller_firsts,
    fun caller => exists_warning_iff⟩
  all_goals
    rw [Mixed.warnings, List.getElem?_mapIdx, Nat.zero_add] at hw
    obtain ⟨x, hx, rfl⟩ := Option.map_eq_some_iff.mp hw
  case code =>
    rw [Mixed.warning]
    by_cases hi : i = 0
    · simp [hi, Reported.fullFinding]
    · simp [hi, Reported.shortFinding]
  case names => exact ⟨x, hx, Mixed.subject_warning, Mixed.quotes_warning⟩

/-- `main` and `other` call the kernel `left`, and the wrapper `wrapper` of the kernel `right`;
`other` calls `left` twice. -/
def mixing : Document where
  routines :=
    [⟨"left", .unset, [⟨["t"], []⟩], none, []⟩, ⟨"right", .unset, [⟨["t"], []⟩], none, []⟩,
      ⟨"wrapper", .unset, [], none, []⟩, ⟨"main", .unset, [], none, []⟩,
      ⟨"other", .unset, [], none, []⟩]
  calls :=
    [⟨"wrapper", "right", none, []⟩, ⟨"other", "left", none, []⟩, ⟨"main", "left", none, []⟩,
      ⟨"other", "left", none, []⟩, ⟨"other", "wrapper", none, []⟩, ⟨"main", "wrapper", none, []⟩]
  templates := [⟨"t", ["GPU"], []⟩]
  extra := []

theorem diagnostics_analyse_gpu_mixing : ∃ p report, ofDocument mixing = .ok p ∧
    (analyse .gpu p).result = .ok report ∧
    Mixed.firsts [] (p.mixedCalls .gpu) =
      [⟨"other", "left", "wrapper"⟩, ⟨"main", "left", "wrapper"⟩] ∧
    report.diagnostics = Mixed.warnings 0 (Mixed.firsts [] (p.mixedCalls .gpu)) ∧
      (∀ i w, report.diagnostics[i]? = some w → w.severity = .warning ∧
        w.code = some (if i = 0 then .mixedCalls else .mixedCallsAgain) ∧
        (w.hint.isSome ↔ i = 0)) ∧
      (∀ (i : Nat) w, report.diagnostics[i]? = some w →
        ∃ x, (Mixed.firsts [] (p.mixedCalls .gpu))[i]? = some x ∧ w.subject = some x.caller ∧
          w.Quotes x.caller ∧ w.Quotes x.kernel ∧ w.Quotes x.wrapper) ∧
      (report.diagnostics.map Diagnostic.subject).Nodup ∧
      ∀ caller, (∃ w ∈ report.diagnostics, w.subject = some caller) ↔
        (∃ c ∈ p.calls, c.caller = caller ∧ c.callee ∈ p.kernelNames .gpu) ∧
        ∃ c ∈ p.calls, c.caller = caller ∧ ∃ inner ∈ p.calls, inner.caller = c.callee ∧
          inner.callee ∈ p.kernelNames .gpu := by
  obtain ⟨p, report, hp, hok⟩ : ∃ p report, ofDocument mixing = .ok p ∧
      (analyse .gpu p).result = .ok report := exists_analyse_of_isOk (by decide +kernel)
  have hfirsts : ((ofDocument mixing).map fun p => Mixed.firsts [] (p.mixedCalls .gpu)) =
      .ok [⟨"other", "left", "wrapper"⟩, ⟨"main", "left", "wrapper"⟩] := by
    decide +kernel
  simp only [hp, Except.map, Except.ok.injEq] at hfirsts
  exact ⟨p, report, hp, hok, hfirsts, diagnostics_analyse_gpu hp hok⟩

end Program

end KernelGraph
