import KernelGraph.Proofs.Analysis.Repetition
import KernelGraph.Proofs.Region.Compaction

/-!
# Markers at other places

An analysis finds its markers by the numbers that its catalog lists, and lists them in their order.
So where they stand makes no difference to it: in two programs that differ in the numbers of their
markers only, the same regions are treated in the same order, with the same result, and the programs
that are left differ in the numbers of their markers only.

## Main definitions

* `Outcome.compact` — how an action ends, but for the places of the markers that are left
* `Program.spreadRegion` — the treatment of a region up to its promotion

## Main results

* `compact_bind` — one action after another, in two programs
* `effect_spread_compact` — a spread in a compact program
* `compact_analyseRegion`, `compact_analyseEntries` — treating regions in two programs
* `compact_analyse` — an analysis of a program, and of what narrowing leaves of it
-/

namespace KernelGraph

/-- How an action ends and the program that it leaves, made compact. -/
def Outcome.compact {α : Type} (o : Outcome α) : Except AnalysisError α × Program :=
  (o.result, o.program.compact)

theorem Outcome.program_of_compact {α : Type} {o o' : Outcome α}
    (h : o.compact = o'.compact) : o.program.compact = o'.program.compact :=
  (Prod.mk.inj h).2

theorem Outcome.compact_eq {α : Type} {o : Outcome α} {x : Except AnalysisError α × Program}
    (h : o.effect = x) : o.compact = (x.1, x.2.compact) := by
  rw [← h]
  rfl

namespace Program

variable {p q : Program} {platform : Platform} {m m' : Marker} {ms : List Marker}

/-! ## Actions in two programs -/

section Actions

variable {α β : Type} {x y : Action α} {f g : α → Action β}

/-- If the first actions end alike in two programs, and then the next ones do, so do both. -/
theorem compact_bind (h : (x q).compact = (y p).compact)
    (hnext : ∀ a, (x q).result = .ok a → (y p).result = .ok a →
      (f a (x q).program).compact = (g a (y p).program).compact) :
    ((x >>= f) q).compact = ((y >>= g) p).compact := by
  obtain ⟨hresult, hprogram⟩ := Prod.mk.inj h
  rcases hx : x q with ⟨r, q', log⟩
  rcases hy : y p with ⟨r', p', log'⟩
  rw [hx, hy] at hresult hprogram hnext
  dsimp only at hresult hprogram hnext
  subst hresult
  cases r with
  | error e =>
    rw [Action.bind_apply_error hx, Action.bind_apply_error hy]
    exact congrArg (Prod.mk _) hprogram
  | ok a =>
    rw [Action.bind_apply_ok hx, Action.bind_apply_ok hy]
    exact hnext a rfl rfl

theorem compact_pure (h : q.compact = p.compact) (a : α) :
    ((pure a : Action α) q).compact = ((pure a : Action α) p).compact :=
  congrArg (Prod.mk _) h

theorem compact_look_bind {γ : Type} {look : Program → γ} {f : γ → Action β} :
    ((Action.look look >>= f) p).compact = (f (look p) p).compact := rfl

theorem compact_modify_bind {change : Program → Program} {f : Unit → Action β} :
    ((Action.modify change >>= f) p).compact = (f () (change p)).compact := rfl

theorem compact_tell_bind {r : LogRecord} {f : Unit → Action β} :
    ((Action.tell r >>= f) p).compact = (f () p).compact := rfl

end Actions

/-! ## A spread -/

theorem advance_compact (p : Program) (direction : Direction) (visited : List Nat)
    (pending : List Handover) :
    p.compact.advance direction visited pending = p.advance direction visited pending := by
  induction pending with
  | nil => rfl
  | cons first rest ih =>
    rw [advance, advance, ih]
    rfl

theorem handovers_compact (p : Program) (index : CallIndex) (direction : Direction) (i : Nat) :
    p.compact.handovers index direction i = p.handovers index direction i := by
  rw [handovers, handovers, relationsOf_compact]
  rfl

theorem receive_compact (p : Program) (v : Position) (i : Nat) (s : TemplateSet) :
    p.compact.receive v i s = (p.receive v i s).compact := rfl

/-- A spread in a compact program. -/
theorem effect_spread_compact (index : CallIndex) (direction : Direction) (visited : List Nat)
    (pending : List Handover) (p : Program) :
    (spread index direction visited pending p.compact).effect =
      (spread index direction visited pending p).compact := by
  fun_induction spread index direction visited pending p with
  | case1 visited pending p log hmet => rw [effect_spread, advance_compact, hmet]; rfl
  | case2 visited pending p e log hmet => rw [effect_spread, advance_compact, hmet]; rfl
  | case3 visited pending p i s rest log hmet q log' e hnext =>
    have hnext : (p.receive direction.position i s).handovers index direction i = .error e := hnext
    rw [effect_spread, advance_compact, hmet]
    simp only [proceed, receive_compact, handovers_compact, hnext]
    rfl
  | case4 visited pending p i s rest log hmet q log' next hnext o ih =>
    have hnext : (p.receive direction.position i s).handovers index direction i = .ok next := hnext
    obtain ⟨hresult, hprogram⟩ := Prod.mk.inj ih
    rw [effect_spread, advance_compact, hmet]
    simp only [proceed, receive_compact, handovers_compact, hnext]
    exact Prod.ext (congrArg (Except.map (· + 1)) hresult) hprogram

theorem effect_spreadFrom_compact (index : CallIndex) (direction : Direction) (k : Nat)
    (p : Program) :
    (spreadFrom index direction k p.compact).effect = (spreadFrom index direction k p).compact := by
  rw [spreadFrom, spreadFrom, handovers_compact]
  cases p.handovers index direction k with
  | error e => rfl
  | ok next => exact effect_spread_compact index direction [k] next p

/-- A spread in two programs with markers at different places. -/
theorem compact_spreadFrom (index : CallIndex) (direction : Direction) (k : Nat)
    (h : q.compact = p.compact) :
    (spreadFrom index direction k q).compact = (spreadFrom index direction k p).compact := by
  rw [← effect_spreadFrom_compact, ← effect_spreadFrom_compact, h]

/-! ## The treatment of a region -/

theorem modifyRoutine_compact (p : Program) (i : Nat) (f : Routine → Routine) :
    p.compact.modifyRoutine i f = (p.modifyRoutine i f).compact := rfl

/-- The routine of a marker is entered, whatever the number of the marker. -/
theorem compact_enterKernel {k : Nat} (i i' : Nat) (h : q.compact = p.compact)
    (htemplates : m'.templates = m.templates) (hk : k < p.routines.length) :
    (enterKernel ⟨i', k⟩ m' q).compact = (enterKernel ⟨i, k⟩ m p).compact := by
  obtain ⟨r, hr⟩ := Option.isSome_iff_exists.mp (isSome_routine?_iff.mpr hk)
  rw [enterKernel, enterKernel, htemplates, routine?_eq_of_compact h, hr,
    nameOf_eq_of_skeleton (skeleton_eq_of_compact h)]
  dsimp only
  by_cases hempty : m.templates.isEmpty
  · rw [if_pos hempty, if_pos hempty]
    exact congrArg (Prod.mk _) h
  · rw [if_neg hempty, if_neg hempty]
    by_cases haccepts : r.position.Accepts .within
    · rw [if_pos haccepts, if_pos haccepts, Outcome.compact, Outcome.compact]
      rw [← modifyRoutine_compact, ← modifyRoutine_compact, h]
    · rw [if_neg haccepts, if_neg haccepts]
      exact congrArg (Prod.mk _) h

/-- The treatment of a region up to its promotion: the routine is entered, and the kernel spreads in
both directions. -/
def spreadRegion (index : CallIndex) (entry : CatalogEntry) (m : Marker) :
    Action (String × Nat × Nat) := do
  let kernel ← enterKernel entry m
  let upward ← spreadFrom index .upward entry.routine
  let downward ← spreadFrom index .downward entry.routine
  return (kernel, upward, downward)

/-- A region is treated up to its promotion, then it is promoted, and its callers are checked. -/
theorem analyseRegion_eq (index : CallIndex) (catalog : Catalog) (platform : Platform)
    (entry : CatalogEntry) (n : Nat) (m : Marker) (reported : Reported) :
    analyseRegion index catalog platform entry n m reported = do
      let (kernel, upward, downward) ← spreadRegion index entry m
      Action.modify fun p => (p.promote entry.region).1
      Action.tell (analysedRecord n catalog.entries.length kernel upward downward)
      let (findings, reported) ← checkMixing index catalog platform kernel reported
      return (upward + downward, findings, reported) := by
  simp only [analyseRegion, spreadRegion, bind_assoc, pure_bind]

theorem compact_spreadRegion {k : Nat} (index : CallIndex) (i i' : Nat)
    (h : q.compact = p.compact) (htemplates : m'.templates = m.templates)
    (hk : k < p.routines.length) :
    (spreadRegion index ⟨i', k⟩ m' q).compact = (spreadRegion index ⟨i, k⟩ m p).compact := by
  have henter := compact_enterKernel i i' h htemplates hk
  refine compact_bind henter fun kernel _ _ => ?_
  have hup := compact_spreadFrom index .upward k (Outcome.program_of_compact henter)
  refine compact_bind hup fun upward _ _ => ?_
  have hdown := compact_spreadFrom index .downward k (Outcome.program_of_compact hup)
  exact compact_bind hdown fun downward _ _ => compact_pure (Outcome.program_of_compact hdown) _

/-- Two programs have the same skeleton and the same markers. -/
def SameMarkers (p q : Program) : Prop := q.skeleton = p.skeleton ∧ q.regions = p.regions

/-- Until its promotion, the treatment of a region changes no marker. -/
theorem follows_spreadRegion (index : CallIndex) (entry : CatalogEntry) (m : Marker) :
    Action.Follows SameMarkers (spreadRegion index entry m) := by
  have henter : Action.Follows SameMarkers (enterKernel entry m) := by
    intro p
    rcases effect_enterKernel_cases entry m p with ⟨r, -, -, h⟩ | ⟨e, h⟩
    · rw [(Prod.mk.inj h).2]
      exact .single ⟨skeleton_receive, regions_receive⟩
    · rw [(Prod.mk.inj h).2]
  have hspread : ∀ direction,
      Action.Follows SameMarkers (spreadFrom index direction entry.routine) := by
    intro direction p
    have hsteps := reflTransGen_spreadFrom index direction entry.routine p
    exact .single ⟨skeleton_of_receives hsteps, regions_of_receives hsteps⟩
  exact henter.bind fun _ => (hspread _).bind fun _ => (hspread _).bind fun _ =>
    Action.follows_pure _

theorem sameMarkers_spreadRegion (index : CallIndex) (entry : CatalogEntry) (m : Marker)
    (p : Program) : SameMarkers p (spreadRegion index entry m p).program := by
  have hsteps := follows_spreadRegion index entry m p
  generalize (spreadRegion index entry m p).program = q at hsteps
  induction hsteps with
  | refl => exact ⟨rfl, rfl⟩
  | tail _ hstep ih => exact ⟨hstep.1.trans ih.1, hstep.2.trans ih.2⟩

theorem SameMarkers.live_eq (h : SameMarkers p q) : q.live = p.live := by rw [live, h.2, live]

theorem SameMarkers.coherent (h : SameMarkers p q) (hp : Coherent p) : Coherent q :=
  hp.of_regions_eq h.1 h.2

section Region

variable {catalog catalog' : Catalog} {reported : Reported} {ms' : List Marker} {n n' : Nat}

/-- A check for mixed calls asks a catalog for names only. -/
theorem compact_checkMixing (platform : Platform) (reported : Reported)
    (h : q.compact = p.compact) (hhosts : catalog'.hostsKernel = catalog.hostsKernel)
    (kernel : String) :
    (checkMixing (.build q.calls) catalog' platform kernel reported q).compact =
      (checkMixing (.build p.calls) catalog platform kernel reported p).compact := by
  rw [Outcome.compact_eq (effect_checkMixing ..), Outcome.compact_eq (effect_checkMixing ..),
    calls_eq_of_skeleton (skeleton_eq_of_compact h), hhosts]
  split <;> exact congrArg (Prod.mk _) h

/-- What the treatment of the first region leaves are the other markers. -/
theorem live_analyseRegion (hp : Coherent p) (hlive : p.live = m :: ms)
    {x : Nat × List Diagnostic × Reported}
    (h : (analyseRegion (.build p.calls) catalog platform ⟨m.id, m.owner⟩ n m reported p).result =
      .ok x) :
    (analyseRegion (.build p.calls) catalog platform ⟨m.id, m.owner⟩ n m reported p).program.live =
      ms := by
  obtain ⟨q, hq⟩ : ∃ q, (analyseRegion (.build p.calls) catalog platform ⟨m.id, m.owner⟩ n m
    reported p).effect = (.ok x, q) := ⟨_, Prod.ext h rfl⟩
  have hprogram : (analyseRegion (.build p.calls) catalog platform ⟨m.id, m.owner⟩ n m
    reported p).program = q := (Prod.mk.inj hq).2
  have hsame := sameMarkers_spreadRegion (.build p.calls) ⟨m.id, m.owner⟩ m p
  rw [hprogram]
  rw [analyseRegion_eq] at hq
  obtain ⟨⟨kernel, upward, downward⟩, p', hspread, hrest⟩ := Action.of_effect_bind_eq_ok hq
  rw [(Prod.mk.inj hspread).2] at hsame
  -- after the promotion, the check for mixed calls changes nothing
  obtain ⟨y, hmixing⟩ := exists_effect_checkMixing (p'.promote m.id).1 catalog platform reported
    kernel
  rw [calls_eq_of_skeleton (skeleton_promote.trans hsame.1)] at hmixing
  rw [Action.effect_modify_bind, Action.effect_tell_bind, Action.effect_bind_ok hmixing] at hrest
  obtain ⟨-, rfl⟩ := Prod.mk.inj hrest
  exact (hsame.coherent hp).live_promote (hsame.live_eq.trans hlive)

/-- The first regions of two programs with markers at different places are treated alike. -/
theorem compact_analyseRegion (platform : Platform) (n n' : Nat) (reported : Reported)
    (hp : Coherent p) (hq : Coherent q) (h : q.compact = p.compact)
    (hlive : p.live = m :: ms) (hlive' : q.live = m' :: ms')
    (hhosts : catalog'.hostsKernel = catalog.hostsKernel) :
    (analyseRegion (.build q.calls) catalog' platform ⟨m'.id, m'.owner⟩ n' m' reported q).compact =
      (analyseRegion (.build p.calls) catalog platform ⟨m.id, m.owner⟩ n m reported p).compact := by
  obtain ⟨-, hmarkers⟩ := compact_eq_iff.mp h
  rw [hlive, hlive', List.map_cons, List.map_cons, List.cons.injEq] at hmarkers
  have howner : m'.owner = m.owner := (congrArg Marker.owner hmarkers.1 :)
  have htemplates : m'.templates = m.templates := (congrArg Marker.templates hmarkers.1 :)
  have hk : m.owner < p.routines.length := hp.owner_lt_of_mem (hlive ▸ List.mem_cons_self)
  rw [analyseRegion_eq, analyseRegion_eq, howner,
    calls_eq_of_skeleton (skeleton_eq_of_compact h)]
  have hspread := compact_spreadRegion (.build p.calls) m.id m'.id h htemplates hk
  refine compact_bind hspread fun ⟨kernel, upward, downward⟩ _ _ => ?_
  have hsame := sameMarkers_spreadRegion (.build p.calls) ⟨m.id, m.owner⟩ m p
  have hsame' := sameMarkers_spreadRegion (.build p.calls) ⟨m'.id, m.owner⟩ m' q
  -- the markers are the same as before, so the first ones are promoted
  have hpromote := compact_promote (Outcome.program_of_compact hspread) (hsame.coherent hp)
    (hsame'.coherent hq) (hsame.live_eq.trans hlive) (hsame'.live_eq.trans hlive')
  have hmixing := compact_checkMixing platform reported hpromote hhosts kernel
  rw [calls_eq_of_skeleton (skeleton_eq_of_compact hpromote),
    calls_eq_of_skeleton (skeleton_promote.trans hsame.1)] at hmixing
  dsimp only
  rw [compact_modify_bind, compact_modify_bind, compact_tell_bind, compact_tell_bind]
  exact compact_bind hmixing fun _ _ _ => compact_pure (Outcome.program_of_compact hmixing) _

/-- All regions of two programs with markers at different places are treated alike. -/
theorem compact_analyseEntries (platform : Platform) (n n' : Nat) (reported : Reported)
    (hp : Coherent p) (hq : Coherent q) (h : q.compact = p.compact)
    (hhosts : catalog'.hostsKernel = catalog.hostsKernel) :
    (analyseEntries (.build q.calls) catalog' platform
      ((q.live.map fun m => ⟨m.id, m.owner⟩).zipIdx n') reported q).compact =
    (analyseEntries (.build p.calls) catalog platform
      ((p.live.map fun m => ⟨m.id, m.owner⟩).zipIdx n) reported p).compact := by
  have hmarkers := (compact_eq_iff.mp h).2
  generalize hms : p.live = ms at hmarkers ⊢
  generalize hms' : q.live = ms' at hmarkers ⊢
  -- by induction on the markers that are left: the first region is treated, then the others
  induction ms generalizing p q ms' n n' reported with
  | nil =>
    rw [List.map_eq_nil_iff.mp hmarkers]
    exact compact_pure h _
  | cons m ms ih =>
    obtain ⟨m', ms', rfl, -, -⟩ := List.map_eq_cons_iff.mp hmarkers
    have hm : p.marker? m.id = some m := hp.marker?_id (hms ▸ List.mem_cons_self)
    have hm' : q.marker? m'.id = some m' := hq.marker?_id (hms' ▸ List.mem_cons_self)
    have hregion := compact_analyseRegion platform n n' reported hp hq h hms hms' hhosts
    rw [List.map_cons, List.map_cons, List.zipIdx_cons, List.zipIdx_cons, analyseEntries,
      analyseEntries, compact_look_bind, compact_look_bind, hm, hm']
    refine compact_bind hregion fun treated hok' hok => ?_
    obtain ⟨assignments, findings, reported'⟩ := treated
    -- the other regions are treated in the programs that are left, by the same index
    have hannotates := annotates_of_steps
      (follows_analyseRegion (.build p.calls) catalog platform ⟨m.id, m.owner⟩ n m reported p)
    have hannotates' := annotates_of_steps
      (follows_analyseRegion (.build q.calls) catalog' platform ⟨m'.id, m'.owner⟩ n' m' reported q)
    have hlive := live_analyseRegion hp hms hok
    have hlive' := live_analyseRegion hq hms' hok'
    have hrest := ih (n + 1) (n' + 1) reported'
      (hannotates.evolves.coherent hp) (hannotates'.evolves.coherent hq)
      (Outcome.program_of_compact hregion) hlive ms' hlive' (List.tail_eq_of_cons_eq hmarkers)
    rw [calls_eq_of_skeleton hannotates.skeleton,
      calls_eq_of_skeleton hannotates'.skeleton] at hrest
    exact compact_bind hrest fun _ _ _ => compact_pure (Outcome.program_of_compact hrest) _

/-- The catalogs of two programs with markers at different places, and the analyses by them. -/
theorem compact_build_bind (hp : Coherent p) (hq : Coherent q) (h : q.compact = p.compact) :
    ((Action.ofExcept (Catalog.build · platform) >>= fun catalog =>
      analyseRegions (.build q.calls) catalog platform) q).compact =
    ((Action.ofExcept (Catalog.build · platform) >>= fun catalog =>
      analyseRegions (.build p.calls) catalog platform) p).compact := by
  have howners : q.live.map Marker.owner = p.live.map Marker.owner := by
    have hmarkers := congrArg (List.map Marker.owner) (compact_eq_iff.mp h).2
    rwa [List.map_map, List.map_map] at hmarkers
  have hhosts := Catalog.build_map_hostsKernel (routine?_eq_of_compact h) platform hp howners
  rcases hbuild : Catalog.build p platform with e | catalog <;>
    rcases hbuild' : Catalog.build q platform with e' | catalog' <;>
    rw [hbuild, hbuild'] at hhosts
  · rw [Outcome.compact_eq (Action.effect_bind_error (by rw [Action.effect_ofExcept, hbuild'])),
      Outcome.compact_eq (Action.effect_bind_error (by rw [Action.effect_ofExcept, hbuild])), h,
      Except.error.inj hhosts]
  · cases hhosts
  · cases hhosts
  · rw [Outcome.compact_eq (Action.effect_bind_ok (by rw [Action.effect_ofExcept, hbuild'])),
      Outcome.compact_eq (Action.effect_bind_ok (by rw [Action.effect_ofExcept, hbuild]))]
    have hentries := ((Catalog.build_eq_ok_iff hp).mp hbuild).2.2
    have hentries' := ((Catalog.build_eq_ok_iff hq).mp hbuild').2.2
    have hrun := compact_analyseEntries platform 0 0 .none hp hq h (Except.ok.inj hhosts)
    rw [analyseRegions, analyseRegions, Action.effect_tell_bind, Action.effect_tell_bind]
    rw [hentries, hentries'] at hrun ⊢
    exact hrun

end Region

/-- An analysis ends alike in a program and in what is left of it after narrowing, with its markers
at other places. -/
theorem compact_analyse {p' : Program} (hp : Coherent p) (hq : Coherent q)
    (hnarrow : (narrowAll platform p).effect = (.ok (), p')) (h : q.compact = p'.compact) :
    (analyse platform q).compact = (analyse platform p).compact := by
  have hp' := coherent_of_follows (follows_narrowAll platform) hnarrow hp
  obtain ⟨hresult, rfl⟩ := Prod.mk.inj hnarrow
  have hagain : (narrowAll platform (narrowAll platform p).program).effect =
      (.ok (), (narrowAll platform p).program) := (effect_narrowAll_again hp platform).trans hnarrow
  have hnarrow' := effect_narrowAll_of_compact h hp' hq hagain
  have hsame : (narrowAll platform q).compact = (narrowAll platform p).compact := by
    rw [Outcome.compact_eq hnarrow', Outcome.compact_eq hnarrow, h]
  have hprogram : (narrowAll platform q).program = q := (Prod.mk.inj hnarrow').2
  rw [analyse, compact_tell_bind, compact_tell_bind]
  refine compact_bind hsame fun _ _ _ => ?_
  rw [compact_look_bind, compact_look_bind, compact_tell_bind, compact_tell_bind, hprogram]
  exact compact_build_bind hp' hq h

end Program

end KernelGraph
