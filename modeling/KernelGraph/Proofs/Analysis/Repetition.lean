import KernelGraph.Analysis.Stage
import KernelGraph.Proofs.Analysis.Kernels
import KernelGraph.Proofs.Analysis.Operations
import KernelGraph.Proofs.Region.Repetition

/-!
# Analysing again

The program that an analysis leaves can be analysed again. If the analysis failed, the same error is
met at the same stage, for what has been done up to there need not be done again: what was narrowed
stays, the regions treated are gone, and a spread that has been gone through is gone through again.
If it succeeded, nothing is left to be done.

## Main definitions

* `Program.staged` — the work of the stages of an analysis, and the stage that fails
* `Program.StagedEnd` — how this work ends

## Main results

* `RegionStop.again` — a region whose treatment stopped
* `effect_analyse` — an analysis does the work of its stages
* `staged_again` — an analysis of the program that one has left
-/

namespace KernelGraph

open Relation

namespace Program

variable {p q : Program} {platform : Platform} {catalog : Catalog} {entry : CatalogEntry}
  {m : Marker} {n : Nat} {reported : Reported} {e : AnalysisError} {name : String}

/-! ## One region -/

theorem effect_enterKernel {r : Routine} (htemplates : ¬ m.templates.isEmpty)
    (hr : p.routine? entry.routine = some r) (haccepts : r.position.Accepts .within) :
    (enterKernel entry m p).effect = (.ok r.name, p.receive .within entry.routine ∅) := by
  rw [enterKernel, if_neg htemplates, hr]
  dsimp only
  rw [if_pos haccepts]
  rfl

/-- A kernel's routine is entered, or nothing changes. -/
theorem effect_enterKernel_cases (entry : CatalogEntry) (m : Marker) (p : Program) :
    (∃ r, ¬ m.templates.isEmpty ∧ p.routine? entry.routine = some r ∧
      (enterKernel entry m p).effect = (.ok r.name, p.receive .within entry.routine ∅)) ∨
    ∃ e, (enterKernel entry m p).effect = (.error e, p) := by
  by_cases htemplates : m.templates.isEmpty
  · exact Or.inr ⟨_, by rw [enterKernel, if_pos htemplates]; rfl⟩
  · cases hr : p.routine? entry.routine with
    | none => exact Or.inr ⟨_, by rw [enterKernel, if_neg htemplates, hr]; rfl⟩
    | some r =>
      by_cases haccepts : r.position.Accepts .within
      · exact Or.inl ⟨r, htemplates, rfl, effect_enterKernel htemplates hr haccepts⟩
      · refine Or.inr ⟨.conflictingPosition r.name r.position .within .kernel, ?_⟩
        rw [enterKernel, if_neg htemplates, hr]
        dsimp only
        rw [if_neg haccepts]
        rfl

/-- A routine that has been entered is entered again, which changes nothing. -/
theorem effect_enterKernel_again {entered : Program}
    (h : (enterKernel entry m p).effect = (.ok name, entered))
    (hk : q.routine? entry.routine = entered.routine? entry.routine) :
    (enterKernel entry m q).effect = (.ok name, q) := by
  rcases effect_enterKernel_cases entry m p with ⟨r, htemplates, hr, henter⟩ | ⟨e, henter⟩
  · obtain ⟨hname, rfl⟩ := Prod.mk.inj (henter.symm.trans h)
    have hsame : q.receive .within entry.routine ∅ = q := receive_eq_self hk
    rw [routine?_receive hr] at hk
    rw [effect_enterKernel htemplates hk (Or.inr rfl), hsame, ← hname]
    rfl
  · simp [henter] at h

/-- What has been given to a routine upwards is not changed by a spread downwards. -/
theorem keeps_of_spread_downward {index : CallIndex} {k count : Nat}
    (h : (spreadFrom index .upward k p).result = .ok count)
    (hsteps : ReflTransGen (Receives .inside [k]) (spreadFrom index .upward k p).program q) :
    Keeps (spreadFrom index .upward k p) .outside q where
  skeleton := skeleton_of_receives hsteps
  regions := regions_of_receives hsteps
  given i hi := by
    apply routine?_of_receives hsteps
    exact Or.inr (not_canTake hi (by simp) (by simp))
  stopped e he := by simp [h] at he

/-- The treatment of a region stops with an error and a program: its routine cannot be entered, or
one of the two spreads stops. -/
inductive RegionStop (index : CallIndex) (entry : CatalogEntry) (m : Marker) (p : Program)
    (e : AnalysisError) (q : Program) : Prop
  | enter (h : (enterKernel entry m p).effect = (.error e, q))
  | upward (name : String) (entered : Program)
    (henter : (enterKernel entry m p).effect = (.ok name, entered))
    (h : (spreadFrom index .upward entry.routine entered).effect = (.error e, q))
  | downward (name : String) (entered : Program) (up : Nat) (climbed : Program)
    (henter : (enterKernel entry m p).effect = (.ok name, entered))
    (hup : (spreadFrom index .upward entry.routine entered).effect = (.ok up, climbed))
    (h : (spreadFrom index .downward entry.routine climbed).effect = (.error e, q))

/-- By an index of the current calls, nothing else stops the treatment of a region. -/
theorem effect_analyseRegion_eq_error_iff :
    (analyseRegion (.build p.calls) catalog platform entry n m reported p).effect = (.error e, q) ↔
      RegionStop (.build p.calls) entry m p e q := by
  rw [analyseRegion]
  constructor
  · intro h
    rcases henter : (enterKernel entry m p).effect with ⟨e' | name, entered⟩
    · rw [Action.effect_bind_error henter] at h
      obtain ⟨rfl, rfl⟩ : e' = e ∧ entered = q := by simpa using h
      exact .enter henter
    rw [Action.effect_bind_ok henter] at h
    rcases hup : (spreadFrom (.build p.calls) .upward entry.routine entered).effect with
      ⟨e' | up, climbed⟩
    · rw [Action.effect_bind_error hup] at h
      obtain ⟨rfl, rfl⟩ : e' = e ∧ climbed = q := by simpa using h
      exact .upward name entered henter hup
    rw [Action.effect_bind_ok hup] at h
    rcases hdown : (spreadFrom (.build p.calls) .downward entry.routine climbed).effect with
      ⟨e' | down, spread⟩
    · rw [Action.effect_bind_error hdown] at h
      obtain ⟨rfl, rfl⟩ : e' = e ∧ spread = q := by simpa using h
      exact .downward name entered up climbed henter hup hdown
    -- after both spreads only the check for mixed calls is left, which stops nothing
    rw [Action.effect_bind_ok hdown, Action.effect_modify_bind, Action.effect_tell_bind] at h
    have hskeleton : (spread.promote entry.region).1.skeleton = p.skeleton := by
      rw [skeleton_promote, (annotates_of_follows (follows_spreadFrom _ _ _) hdown).skeleton,
        (annotates_of_follows (follows_spreadFrom _ _ _) hup).skeleton,
        (annotates_of_follows (follows_enterKernel _ _) henter).skeleton]
    obtain ⟨x, hmixing⟩ := exists_effect_checkMixing (spread.promote entry.region).1 catalog
      platform reported name
    rw [calls_eq_of_skeleton hskeleton] at hmixing
    rw [Action.effect_bind_ok hmixing] at h
    exact absurd (Prod.mk.inj h).1 (by simp)
  · intro h
    cases h with
    | enter h => rw [Action.effect_bind_error h]
    | upward name entered henter h =>
      rw [Action.effect_bind_ok henter, Action.effect_bind_error h]
    | downward name entered up climbed henter hup h =>
      rw [Action.effect_bind_ok henter, Action.effect_bind_ok hup, Action.effect_bind_error h]

/-- The treatment of a region that has stopped stops again, and changes nothing. -/
theorem RegionStop.again {index : CallIndex} (h : RegionStop index entry m p e q) :
    RegionStop index entry m q e q := by
  -- the routine that was entered is the origin of both spreads, so it stays as it was then
  have hself : ∀ {v p q}, ReflTransGen (Receives v [entry.routine]) p q →
      q.routine? entry.routine = p.routine? entry.routine :=
    fun hsteps => routine?_of_receives hsteps (Or.inl (List.mem_singleton_self _))
  cases h with
  | enter h =>
    rcases effect_enterKernel_cases entry m p with ⟨r, -, -, henter⟩ | ⟨e', henter⟩
    · simp [henter] at h
    · obtain ⟨-, rfl⟩ := Prod.mk.inj (henter.symm.trans h)
      exact .enter h
  | upward name entered henter h =>
    have hsteps := reflTransGen_spreadFrom index .upward entry.routine entered
    obtain ⟨hresult, rfl⟩ := Prod.mk.inj h
    refine .upward name _ (effect_enterKernel_again henter (hself hsteps)) ?_
    rw [effect_spreadFrom_again (Keeps.refl _ _) (hself hsteps), hresult]
  | downward name entered up climbed henter hup h =>
    have hsteps := reflTransGen_spreadFrom index .upward entry.routine entered
    have hsteps' := reflTransGen_spreadFrom index .downward entry.routine climbed
    obtain ⟨hupresult, rfl⟩ := Prod.mk.inj hup
    obtain ⟨hresult, hprogram⟩ := Prod.mk.inj h
    rw [hprogram] at hsteps'
    have hk := (hself hsteps').trans (hself hsteps)
    refine .downward name q up q (effect_enterKernel_again henter hk) ?_ ?_
    · rw [effect_spreadFrom_again (keeps_of_spread_downward hupresult hsteps') hk, hupresult]
    · rw [effect_spreadFrom_again (hprogram ▸ Keeps.refl _ _) (hself hsteps'), hresult]

/-! ## The whole analysis -/

/-- The work of the stages of an analysis after the first, with the stage that fails and the program
that is left. -/
def stagedAfter (platform : Platform) :
    Except AnalysisError Unit × Program → Except (Stage × AnalysisError) Report × Program
  | (.error e, q) => (.error (.narrow, e), q)
  | (.ok (), q) =>
    match Catalog.build q platform with
    | .error e => (.error (.catalog, e), q)
    | .ok catalog =>
      let o := (analyseRegions (.build q.calls) catalog platform q).effect
      (o.1.mapError (Prod.mk .analyse), o.2)

/-- The work of the stages of an analysis, with the stage that fails and the program that is
left. -/
def staged (platform : Platform) (p : Program) : Except (Stage × AnalysisError) Report × Program :=
  stagedAfter platform (narrowAll platform p).effect

/-- How the work of the stages ends: narrowing stops, or the catalog cannot be built, or the regions
are treated, to the last one or not. -/
inductive StagedEnd (platform : Platform) (p : Program) :
    Except (Stage × AnalysisError) Report × Program → Prop
  | narrow (e : AnalysisError) (q : Program)
    (hnarrow : (narrowAll platform p).effect = (.error e, q)) :
    StagedEnd platform p (.error (.narrow, e), q)
  | catalog (e : AnalysisError) (q : Program)
    (hnarrow : (narrowAll platform p).effect = (.ok (), q))
    (hbuild : Catalog.build q platform = .error e) : StagedEnd platform p (.error (.catalog, e), q)
  | analyse (q : Program) (catalog : Catalog) (o : Except AnalysisError Report × Program)
    (hnarrow : (narrowAll platform p).effect = (.ok (), q))
    (hbuild : Catalog.build q platform = .ok catalog)
    (hrun : (analyseRegions (.build q.calls) catalog platform q).effect = o) :
    StagedEnd platform p (o.1.mapError (Prod.mk .analyse), o.2)

theorem stagedEnd_staged (platform : Platform) (p : Program) :
    StagedEnd platform p (staged platform p) := by
  rw [staged]
  rcases hnarrow : (narrowAll platform p).effect with ⟨e | _, q⟩
  · exact .narrow e q hnarrow
  rw [stagedAfter]
  cases hbuild : Catalog.build q platform with
  | error e => exact .catalog e q hnarrow hbuild
  | ok catalog => exact .analyse q catalog _ hnarrow hbuild rfl

/-- An analysis does the work of its stages, and does not tell which of them fails. -/
theorem effect_analyse (platform : Platform) (p : Program) :
    (analyse platform p).effect =
      ((staged platform p).1.mapError Prod.snd, (staged platform p).2) := by
  have hend := stagedEnd_staged platform p
  generalize staged platform p = o at hend
  rw [analyse, Action.effect_tell_bind]
  cases hend with
  | narrow e q hnarrow => exact Action.effect_bind_error hnarrow
  | catalog e q hnarrow hbuild =>
    rw [Action.effect_bind_ok hnarrow, Action.effect_look_bind, Action.effect_tell_bind,
      Action.effect_bind_error (by rw [Action.effect_ofExcept, hbuild])]
    rfl
  | analyse q catalog o hnarrow hbuild hrun =>
    rw [Action.effect_bind_ok hnarrow, Action.effect_look_bind, Action.effect_tell_bind,
      Action.effect_bind_ok (by rw [Action.effect_ofExcept, hbuild]), hrun]
    rcases o with ⟨e | report, r⟩ <;> rfl

/-- Narrowing first makes no difference to the stages. -/
theorem staged_narrowAll (hp : Coherent p) :
    staged platform (narrowAll platform p).program = staged platform p := by
  rw [staged, effect_narrowAll_again hp platform, staged]

/-- A run that stopped stops again at the marker that is then the first, and changes nothing. -/
theorem effect_analyseRegions_again (hq : Coherent q) {after : List Marker}
    (hlive : q.live = m :: after) (hcatalog : catalog.entries = q.live.map fun m => ⟨m.id, m.owner⟩)
    (hstop : RegionStop (.build q.calls) ⟨m.id, m.owner⟩ m q e q) :
    (analyseRegions (.build q.calls) catalog platform q).effect = (.error e, q) := by
  have hm : q.marker? m.id = some m := hq.marker?_id (by rw [hlive]; exact List.mem_cons_self)
  rw [analyseRegions, Action.effect_tell_bind, hcatalog, hlive, List.map_cons, List.zipIdx_cons,
    analyseEntries, Action.effect_look_bind, hm]
  exact Action.effect_bind_error (effect_analyseRegion_eq_error_iff.mpr hstop)

/-- A program with some of the markers of a narrowed one, for which the catalog could be built, can
be narrowed and listed again, and what is done then is a run by the catalog. -/
theorem staged_of_sublist (hp : Coherent p) (hskeleton : q.skeleton = p.skeleton)
    (hq : Coherent q) (hlive : List.Sublist q.live (p.narrow platform).live)
    (hknown : ∀ m ∈ p.live, ∀ id ∈ m.templates, (p.template? id).isSome)
    (hbuild : Catalog.build (p.narrow platform) platform = .ok catalog) :
    (narrowAll platform q).program = q ∧ ∃ catalog' : Catalog,
      catalog'.entries = q.live.map (fun m => ⟨m.id, m.owner⟩) ∧
      staged platform q =
        let o := (analyseRegions (.build q.calls) catalog' platform q).effect
        (o.1.mapError (Prod.mk .analyse), o.2) := by
  have hnarrow := effect_narrowAll_of_live_subset hq hskeleton hknown fun m hm => hlive.subset hm
  obtain ⟨hnamed, hsingle, -⟩ := (Catalog.build_eq_ok_iff (coherent_narrow hp platform)).mp hbuild
  have hagain : Catalog.build q platform = .ok (Catalog.of q q.live) := by
    apply (Catalog.build_eq_ok_iff hq).mpr
    refine ⟨fun m hm => ?_, fun hgpu => (hsingle hgpu).sublist (hlive.map _), rfl⟩
    rw [nameOf_eq_of_skeleton hskeleton]
    exact hnamed m (hlive.subset hm)
  refine ⟨(Prod.mk.inj hnarrow).2, Catalog.of q q.live, rfl, ?_⟩
  rw [staged, hnarrow, stagedAfter, hagain]

/-- The run over the regions of a narrowed program has left nothing to change, and stops again where
it stopped. -/
theorem staged_of_runEnd {o : Except AnalysisError Report × Program} (hp : Coherent p)
    (hknown : ∀ m ∈ p.live, ∀ id ∈ m.templates, (p.template? id).isSome)
    (hbuild : Catalog.build (p.narrow platform) platform = .ok catalog)
    (hend : RunEnd catalog platform (p.narrow platform) (p.narrow platform).live o) :
    (narrowAll platform o.2).program = o.2 ∧ staged platform o.2 =
      ((o.1.mapError (Prod.mk .analyse)).map fun _ => .empty, o.2) := by
  have hq := coherent_narrow hp platform
  cases hend with
  | done report htreatable hkernels hassignments =>
    have hevolves := evolves_foldl_treat (p.narrow platform) (p.narrow platform).live
    have hlive : ((p.narrow platform).live.foldl treat (p.narrow platform)).live = [] :=
      live_foldl_treat hq (List.append_nil _).symm
    obtain ⟨hsame, catalog', hentries, hstaged⟩ := staged_of_sublist hp hevolves.skeleton
      (hevolves.coherent hq) (hlive ▸ List.nil_sublist _) hknown hbuild
    refine ⟨hsame, hstaged.trans ?_⟩
    rw [analyseRegions, Action.effect_tell_bind, hentries, hlive]
    rfl
  | stopped before m after k reported e q hms hbefore htreatable hrun hend =>
    have hevolves := evolves_foldl_treat (p.narrow platform) before
    have hskeleton : q.skeleton = p.skeleton := hend.touches.skeleton.trans hevolves.skeleton
    have hq' : Coherent q := (hevolves.coherent hq).of_regions_eq hend.touches.skeleton
      hend.touches.regions
    have hlive : q.live = m :: after := by
      rw [live, hend.touches.regions]
      exact live_foldl_treat hq hms
    obtain ⟨hsame, catalog', hentries, hstaged⟩ := staged_of_sublist hp hskeleton hq'
      (hlive ▸ hms ▸ List.sublist_append_right before (m :: after)) hknown hbuild
    -- the index is the same in the narrowed program, before the region, and in what is left
    have hbeforecalls := calls_eq_of_skeleton hevolves.skeleton
    have hcalls := calls_eq_of_skeleton hend.touches.skeleton
    rw [← hbeforecalls] at hrun
    have hstop := (effect_analyseRegion_eq_error_iff.mp hrun).again
    rw [← hcalls] at hstop
    refine ⟨hsame, hstaged.trans ?_⟩
    rw [effect_analyseRegions_again hq' hlive hentries hstop]
    rfl

/-- The stages of an analysis find nothing to change in the program that they have left, and fail
there as they did. -/
theorem staged_again (hp : Coherent p) (platform : Platform) :
    (narrowAll platform (staged platform p).2).program = (staged platform p).2 ∧
      staged platform (staged platform p).2 =
        ((staged platform p).1.map fun _ => .empty, (staged platform p).2) := by
  have hagain := effect_narrowAll_again hp platform
  rcases narrowAll_cases hp platform with hnarrow | ⟨e, q, hnarrow⟩
  · have hprogram : (narrowAll platform p).program = p.narrow platform := (Prod.mk.inj hnarrow).2
    rw [hnarrow, hprogram] at hagain
    have hstaged : ∀ {p'}, (narrowAll platform p').effect = (.ok (), p.narrow platform) →
        staged platform p' = stagedAfter platform (.ok (), p.narrow platform) := by
      intro p' hnarrow'
      rw [staged, hnarrow']
    rw [hstaged hnarrow, stagedAfter]
    cases hbuild : Catalog.build (p.narrow platform) platform with
    | error e =>
      refine ⟨(Prod.mk.inj hagain).2, (hstaged hagain).trans ?_⟩
      rw [stagedAfter, hbuild]
      rfl
    | ok catalog =>
      exact staged_of_runEnd hp (known_of_narrowAll hp hnarrow) hbuild
        (runEnd_analyseRegions (coherent_narrow hp platform) hbuild)
  · have hstaged : staged platform p = (.error (.narrow, e), q) := by rw [staged, hnarrow]; rfl
    obtain ⟨-, rfl⟩ := Prod.mk.inj hnarrow
    rw [hnarrow] at hagain
    rw [hstaged]
    exact ⟨(Prod.mk.inj hagain).2, by rw [staged, hagain]; rfl⟩

end Program

end KernelGraph
