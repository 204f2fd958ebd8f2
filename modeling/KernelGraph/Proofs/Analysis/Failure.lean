import KernelGraph.Proofs.Analysis.Flow
import KernelGraph.Proofs.Analysis.Operations

/-!
# Analyses that fail

An analysis that fails has done no more than it says. If an id of a marker has no template, or the
catalog cannot be built, no routine has been touched. Otherwise it stops at an entry of the catalog:
the markers of the entries before it are consumed, and of the routines only those that the entry's
kernel is related to may have changed since. A conflict that is reported is there to be seen in the
program that is left.

## Main definitions

* `Program.StopCause` — why the treatment of an entry stops
* `Program.StopsAt` — an analysis stops at an entry of its catalog

## Main results

* `stopsAt_of_analyse` — what an analysis that fails has done
-/

namespace KernelGraph

namespace Program

/-- Why the treatment of a catalog entry stops: its marker has no templates, or a routine of which
its kernel demands a position has another position in the program that is left. -/
inductive StopCause (p q : Program) (entry : CatalogEntry) (m : Marker) : AnalysisError → Prop
  | missing (htemplates : m.templates.isEmpty) :
    StopCause p q entry m (.missingTemplate (p.nameOf entry.routine))
  | conflict (direction : Direction) (name : String) (existing : Position) (t : Nat)
    (hname : p.idOf? name = some t) (hdemands : p.Demands entry.routine direction.position t)
    (hposition : q.position? t = some existing) (hunset : existing ≠ .unset)
    (hother : existing ≠ direction.position) :
    StopCause p q entry m (.conflictingPosition name existing direction.position direction)

/-- An analysis of `p` stops at the entry at place `j` of its catalog, with an error and the program
`q`; before it came to that entry, the program was `before`. -/
structure StopsAt (p : Program) (platform : Platform) (catalog : Catalog) (j : Nat)
    (entry : CatalogEntry) (before : Program) (e : AnalysisError) (q : Program) : Prop where
  /-- The catalog is that of the narrowed program. -/
  build : Catalog.build (narrowAll platform p).program platform = .ok catalog
  listed : catalog.entries[j]? = some entry
  /-- The entries before have been treated. -/
  treated : ∃ report, (analyseEntries (.build p.calls) catalog platform
    (catalog.entries.zipIdx.take j) .none (narrowAll platform p).program).effect =
      (.ok report, before)
  /-- The treatment of the entry raises the error. -/
  raised : ∃ m n reported, before.marker? entry.region = some m ∧ StopCause p q entry m e ∧
    (analyseRegion (.build p.calls) catalog platform entry n m reported before).effect =
      (.error e, q)
  /-- The markers of this entry and of those after it are left, as they were narrowed. -/
  live : q.live = (narrowAll platform p).program.live.drop j
  left : catalog.entries.drop j = q.live.map fun m => ⟨m.id, m.owner⟩
  /-- Only routines that the kernel is related to may differ from before. -/
  others : ∀ i, ¬ p.Related entry.routine i → q.routine? i = before.routine? i
  skeleton : q.skeleton = before.skeleton
  /-- A position that was not unset before is the same. -/
  position : ∀ i v, before.position? i = some v → v ≠ .unset → q.position? i = some v

variable {d : Document} {p q : Program} {platform : Platform} {m : Marker} {k t : Nat}
  {v : Position} {e : AnalysisError}

/-! ## Before the run -/

/-- An analysis that stops while it narrows has met an id without a template, and has changed no
routine. -/
theorem code_of_narrowAll_eq_error (hp : Coherent p)
    (h : (narrowAll platform p).effect = (.error e, q)) :
    e.code = .unknownTemplate ∧ q.routines = p.routines := by
  have hend := narrowEnd_narrowAll hp platform
  rw [h] at hend
  cases hend with
  | unknown before i after m id hplaces hknown hm hid => exact ⟨rfl, rfl⟩

/-! ## The entry at which a run stops -/

/-- A routine of which a kernel demands a position has a name, if the kernel has. -/
theorem exists_idOf?_of_demands (hp : Coherent p) (hk : p.nameOf k ≠ "") (h : p.Demands k v t) :
    ∃ name, p.idOf? name = some t := by
  cases v with
  | unset => exact h.elim
  | within =>
    obtain rfl : t = k := h
    exact ⟨_, hp.idOf?_nameOf hk⟩
  | outside =>
    obtain ⟨b, ⟨c, _, hcaller, _⟩, _⟩ := Relation.TransGen.head'_iff.mp h
    exact ⟨c.caller, hcaller⟩
  | inside =>
    obtain ⟨b, ⟨c, _, _, _, hcallee⟩, hpath⟩ := h
    rcases hpath.cases_tail with rfl | ⟨a, _, ⟨c', _, _, hcallee'⟩⟩
    · exact ⟨c.callee, hcallee⟩
    · exact ⟨c'.callee, hcallee'⟩

/-- When the treatment of a region stops, the cause is there to be seen. -/
theorem RegionEnd.stopCause {before : Program} (hp : Coherent p)
    (hskeleton : before.skeleton = p.skeleton) (hname : p.nameOf m.owner ≠ "")
    (h : RegionEnd before m (.error e, q)) : StopCause p q ⟨m.id, m.owner⟩ m e := by
  cases h with
  | missing htemplates =>
    rw [nameOf_eq_of_skeleton hskeleton]
    exact .missing htemplates
  | conflict direction t r q _ ht hr hconflict hq =>
    have hdemands := (demands_iff_of_skeleton hskeleton).mp ht
    obtain ⟨name, hid⟩ := exists_idOf?_of_demands hp hname hdemands
    -- the routine has its name in every program of one skeleton
    obtain ⟨-, r', hr', rfl⟩ := (hp.idOf?_iff name t).mp hid
    obtain ⟨r'', hr'', -, hsame⟩ :=
      exists_routine?_of_skeleton (hq.skeleton.trans hskeleton) hr
    obtain rfl : r' = r'' := Option.some.inj (hr'.symm.trans hr'')
    rw [Position.accepts_iff, not_or] at hconflict
    rw [← hsame]
    exact .conflict direction r'.name r.position t hid hdemands
      (by rw [position?, hr, Option.map_some]) hconflict.1 hconflict.2

/-- A run that stops does so at an entry of the catalog. -/
theorem exists_stopsAt (hp : Coherent p) {catalog : Catalog}
    (hnarrow : (narrowAll platform p).effect = (.ok (), p.narrow platform))
    (hbuild : Catalog.build (p.narrow platform) platform = .ok catalog)
    (hend : RunEnd catalog platform (p.narrow platform) (p.narrow platform).live (.error e, q)) :
    ∃ j entry before, StopsAt p platform catalog j entry before e q := by
  have hq := coherent_narrow hp platform
  have hprogram : (narrowAll platform p).program = p.narrow platform := (Prod.mk.inj hnarrow).2
  obtain ⟨hnamed, -, hcatalog⟩ := (Catalog.build_eq_ok_iff hq).mp hbuild
  cases hend with
  | stopped first m after n reported _ _ hms hfirst _ hrun hend =>
  have hskeleton : (first.foldl treat (p.narrow platform)).skeleton = p.skeleton :=
    (evolves_foldl_treat _ first).skeleton
  have hentries : catalog.entries =
      first.map (fun m => ⟨m.id, m.owner⟩) ++ (m :: after).map fun m => ⟨m.id, m.owner⟩ := by
    rw [hcatalog, ← List.map_append, ← hms]
    rfl
  have hlive : q.live = m :: after := by
    rw [live, hend.touches.regions]
    exact live_foldl_treat hq hms
  -- the run over the entries before ends well, as their regions can be treated
  have hbefore := exists_effect_analyseEntries catalog platform 0 .none hq hms hnamed hfirst
  refine ⟨first.length, ⟨m.id, m.owner⟩, first.foldl treat (p.narrow platform), ?_⟩
  constructor
  case build => rw [hprogram, hbuild]
  case listed => simp [hentries]
  case treated =>
    rw [hprogram, hentries, List.zipIdx_append, List.take_left' (by simp)]
    exact hbefore
  case raised =>
    refine ⟨m, n, reported, ?_, hend.stopCause hp hskeleton ?_, hrun⟩
    · have hm : m ∈ (first.foldl treat (p.narrow platform)).live := by
        rw [live_foldl_treat hq hms]
        exact List.mem_cons_self
      exact ((evolves_foldl_treat _ first).coherent hq).marker?_id hm
    · exact hnamed m (by simp [hms])
  case live => rw [hprogram, hms, List.drop_left, hlive]
  case left => rw [hentries, hlive, List.drop_left' (by simp)]
  case others =>
    intro i hi
    apply hend.touches.others
    intro v hv
    exact hi (related_iff.mpr ⟨v, (demands_iff_of_skeleton hskeleton).mp hv⟩)
  case skeleton => exact hend.touches.skeleton
  case position =>
    exact (annotates_of_follows (follows_analyseRegion _ _ _ _ _ _ _) hrun).position

/-- An analysis that fails either meets an id without a template or cannot build its catalog, and
has then changed no routine, or it stops at an entry of its catalog. -/
theorem stopsAt_of_analyse (h : ofDocument d = .ok p)
    (herror : (analyse platform p).result = .error e) :
    ((e.code = .unknownTemplate ∨ e.code = .unnamedKernel ∨ e.code = .duplicateKernelRegion) ∧
      (analyse platform p).program.routines = p.routines) ∨
    ∃ catalog j entry before,
      StopsAt p platform catalog j entry before e (analyse platform p).program := by
  have hp := coherent_ofDocument h
  have hend := analysisEnd_analyse hp platform
  have heffect : (analyse platform p).effect = (.error e, (analyse platform p).program) :=
    Prod.ext herror rfl
  rw [heffect] at hend
  generalize (analyse platform p).program = q at hend
  cases hend with
  | unknown _ _ hnarrow =>
    obtain ⟨hcode, hroutines⟩ := code_of_narrowAll_eq_error hp hnarrow
    exact Or.inl ⟨Or.inl hcode, hroutines⟩
  | refused _ _ hbuild =>
    have hcode := Catalog.code_of_build_eq_error (coherent_narrow hp platform) hbuild
    exact Or.inl ⟨Or.inr hcode, rfl⟩
  | run catalog _ hnarrow hbuild hend =>
    exact Or.inr ⟨catalog, exists_stopsAt hp hnarrow hbuild hend⟩

/-- A kernel calls another one, which is treated later and cannot put its caller `outside`. -/
def clash : Document where
  routines :=
    [⟨"first", .unset, [⟨["t"], []⟩], none, []⟩, ⟨"second", .unset, [⟨["t"], []⟩], none, []⟩]
  calls := [⟨"first", "second", none, []⟩]
  templates := [⟨"t", [], []⟩]
  extra := []

theorem stopsAt_of_analyse_clash : ∃ p e, ofDocument clash = .ok p ∧
    (analyse .cpu p).result = .error e ∧
    (((e.code = .unknownTemplate ∨ e.code = .unnamedKernel ∨ e.code = .duplicateKernelRegion) ∧
        (analyse .cpu p).program.routines = p.routines) ∨
      ∃ catalog j entry before,
        StopsAt p .cpu catalog j entry before e (analyse .cpu p).program) := by
  refine ⟨_, .conflictingPosition "first" .within .outside .upward, rfl, ?stopped,
    stopsAt_of_analyse (d := clash) rfl ?stopped⟩
  decide +kernel

end Program

end KernelGraph
