import KernelGraph.Proofs.Call.Spread

/-!
# A spread, step by step

By whatever index, a spread is a sequence of steps, in each of which a routine that has not been
visited receives a position that it can take. So a routine stays as it is if it has been visited, or
if it cannot take the position. A spread repeated in the program that it left ends as it did, and
changes nothing.

## Main definitions

* `Program.Receives` — one step of a spread
* `Program.Keeps` — what a spread has given is still there

## Main results

* `reflTransGen_spread`, `reflTransGen_spreadFrom` — a spread is a sequence of steps
* `routine?_of_receives` — what no step changes
* `effect_spread_again`, `effect_spreadFrom_again` — a spread repeated
-/

namespace KernelGraph

open Relation

/-- What a routine has received it need not receive again. -/
theorem Routine.receive_receive (r : Routine) (v : Position) (s : TemplateSet) :
    (r.receive v s).receive v s = r.receive v s := by
  by_cases hs : s.isEmpty
  · simp [Routine.receive, hs]
  · have hunion : ∀ t : TemplateSet, t ∪ s ∪ s = t ∪ s := by
      intro t
      apply TemplateSet.union_eq_left
      intro x hx
      exact TemplateSet.mem_union.mpr (Or.inr hx)
    simp [Routine.receive, hs, hunion]

namespace Program

/-- A routine that has not been visited receives a position that it can take, with some
templates. -/
def Receives (v : Position) (visited : List Nat) (p q : Program) : Prop :=
  ∃ i s, i ∉ visited ∧ p.CanTake v i ∧ q = p.receive v i s

variable {p q : Program} {v : Position} {i : Nat} {s : TemplateSet} {index : CallIndex}
  {direction : Direction} {visited : List Nat} {pending rest : List Handover} {log : Log}

/-! ## The steps of a spread -/

/-- A routine that is met as not visited can take the position. -/
theorem canTake_of_advance (h : p.advance direction visited pending = (.fresh i s rest, log)) :
    p.CanTake direction.position i := by
  induction pending generalizing log with
  | nil => simp [advance] at h
  | cons first others ih =>
    rw [advance] at h
    split at h
    · simp only [Prod.mk.injEq] at h
      exact ih (Prod.ext h.1 rfl)
    · split at h
      · simp at h
      · rename_i htake
        split at h
        · exact ih h
        · simp only [Prod.mk.injEq, Advance.fresh.injEq] at h
          obtain ⟨⟨rfl, -, -⟩, -⟩ := h
          exact conflict?_eq_none_iff.mp htake

theorem receives_of_advance (h : p.advance direction visited pending = (.fresh i s rest, log)) :
    Receives direction.position visited p (p.receive direction.position i s) :=
  ⟨i, s, (fresh_of_advance h).2, canTake_of_advance h, rfl⟩

theorem Receives.of_cons (h : Receives v (i :: visited) p q) : Receives v visited p q := by
  obtain ⟨j, s, hj, htake, rfl⟩ := h
  exact ⟨j, s, fun hmem => hj (List.mem_cons_of_mem _ hmem), htake, rfl⟩

/-- A spread is a sequence of steps. -/
theorem reflTransGen_spread (index : CallIndex) (direction : Direction) (visited : List Nat)
    (pending : List Handover) (p : Program) :
    ReflTransGen (Receives direction.position visited) p
      (spread index direction visited pending p).program := by
  fun_induction spread index direction visited pending p with
  | case1 => exact .refl
  | case2 => exact .refl
  | case3 visited pending p i s rest log h => exact .single (receives_of_advance h)
  | case4 visited pending p i s rest log h q log' next hnext o ih =>
    exact .head (receives_of_advance h) (ReflTransGen.mono (fun _ _ => Receives.of_cons) _ _ ih)

/-- A spread from a routine is a sequence of steps, none of which changes that routine. -/
theorem reflTransGen_spreadFrom (index : CallIndex) (direction : Direction) (k : Nat)
    (p : Program) :
    ReflTransGen (Receives direction.position [k]) p (spreadFrom index direction k p).program := by
  rw [spreadFrom]
  split
  · exact .refl
  · exact reflTransGen_spread ..

/-! ## What no step changes -/

theorem skeleton_of_receives (h : ReflTransGen (Receives v visited) p q) :
    q.skeleton = p.skeleton := by
  induction h with
  | refl => rfl
  | tail _ hstep ih =>
    obtain ⟨i, s, -, -, rfl⟩ := hstep
    rw [skeleton_receive, ih]

theorem regions_of_receives (h : ReflTransGen (Receives v visited) p q) :
    q.regions = p.regions := by
  induction h with
  | refl => rfl
  | tail _ hstep ih =>
    obtain ⟨i, s, -, -, rfl⟩ := hstep
    rw [regions_receive, ih]

/-- A routine stays as it is if it has been visited, or if it cannot take the position. -/
theorem routine?_of_receives (h : ReflTransGen (Receives v visited) p q)
    (hi : i ∈ visited ∨ ¬ p.CanTake v i) : q.routine? i = p.routine? i := by
  induction h with
  | refl => rfl
  | @tail q r _ hstep ih =>
    obtain ⟨j, s, hj, htake, rfl⟩ := hstep
    rw [routine?_receive_of_ne, ih]
    rintro rfl
    rcases hi with hi | hi
    · exact hj hi
    -- until now the routine is as it was at the start
    · rw [CanTake, position?, ih, ← position?] at htake
      exact hi htake

/-! ## A spread repeated -/

theorem conflict?_congr (h : q.routine? i = p.routine? i) :
    q.conflict? direction i = p.conflict? direction i := by
  rw [conflict?, conflict?, h]

/-- What is met next is the same in a program that agrees on the routines visited, unless it is a
routine in conflict, or one that cannot take the position there. -/
theorem advance_congr (hnames : q.names = p.names)
    (hvisited : ∀ j ∈ visited, q.routine? j = p.routine? j)
    (hconflict : ∀ e, (p.advance direction visited pending).1 ≠ .conflict e)
    (hfresh : ∀ i s rest, (p.advance direction visited pending).1 = .fresh i s rest →
      q.CanTake direction.position i) :
    (q.advance direction visited pending).1 = (p.advance direction visited pending).1 := by
  induction pending with
  | nil => rfl
  | cons first others ih =>
    have hid : q.idOf? first.target = p.idOf? first.target := by rw [idOf?, idOf?, hnames]
    rw [advance] at hconflict hfresh
    rw [advance, advance, hid]
    cases ht : p.idOf? first.target with
    | none =>
      simp only [ht] at hconflict hfresh ⊢
      exact ih hconflict hfresh
    | some t =>
      cases hmet : p.conflict? direction t with
      | some e => simp [ht, hmet] at hconflict
      | none =>
        by_cases hmem : t ∈ visited
        · have hsame : q.conflict? direction t = none :=
            (conflict?_congr (hvisited t hmem)).trans hmet
          simp only [ht, hmet, hmem, if_true] at hconflict hfresh
          simp only [hsame, hmet, hmem, if_true]
          exact ih hconflict hfresh
        · have htake : q.conflict? direction t = none := by
            apply conflict?_eq_none_iff.mpr
            apply hfresh t first.relations others
            simp only [ht, hmet, hmem, if_false]
          simp only [htake, hmet, hmem, if_false]

/-- What a routine hands over depends on that routine, the calls and the markers. -/
theorem handovers_congr (hcalls : q.calls = p.calls) (hregions : q.regions = p.regions)
    (hroutine : q.routine? i = p.routine? i) :
    q.handovers index direction i = p.handovers index direction i := by
  have hsuccessors : ∀ r, q.successors index direction r = p.successors index direction r := by
    intro r
    cases direction <;> simp only [successors, hcalls]
  have hrelations : q.relationsOf i = p.relationsOf i := by
    rw [relationsOf, relationsOf, live, live, hregions, hroutine]
  simp only [handovers, hroutine, hsuccessors, hrelations]

/-- A routine that has received already is left as it is. -/
theorem receive_eq_self (h : q.routine? i = (p.receive v i s).routine? i) :
    q.receive v i s = q := by
  rw [receive, routine?_modifyRoutine, if_pos rfl] at h
  have hroutines : q.routines.modify i (·.receive v s) = q.routines := by
    apply List.ext_getElem?
    intro j
    rw [List.getElem?_modify]
    by_cases hij : i = j
    · subst hij
      rw [routine?] at h
      rw [h]
      cases p.routine? i with
      | none => rfl
      | some r => simp [Routine.receive_receive]
    · simp [hij]
  rw [receive, modifyRoutine, hroutines]

/-- A routine that has received can take the position. -/
theorem canTake_of_received (h : q.routine? i = (p.receive v i s).routine? i) :
    q.CanTake v i := by
  intro u hu
  rw [position?, h, receive, routine?_modifyRoutine, if_pos rfl, Option.map_map] at hu
  obtain ⟨r, -, rfl⟩ := Option.map_eq_some_iff.mp hu
  exact Or.inr rfl

/-- A program after a spread: it agrees with the program that the spread left on the routines that
have the position, and on all of them if the spread stopped. -/
structure Keeps (o : Outcome Nat) (v : Position) (q : Program) : Prop where
  skeleton : q.skeleton = o.program.skeleton
  regions : q.regions = o.program.regions
  given : ∀ i, o.program.position? i = some v → q.routine? i = o.program.routine? i
  stopped : ∀ e, o.result = .error e → q = o.program

theorem Keeps.refl (o : Outcome Nat) (v : Position) : Keeps o v o.program :=
  ⟨rfl, rfl, fun _ _ => rfl, fun _ _ => rfl⟩

/-- What has been given to a routine it keeps. -/
theorem Keeps.routine?_eq {o : Outcome Nat} (h : Keeps o v q)
    (hroutine : o.program.routine? i = (p.receive v i s).routine? i) :
    q.routine? i = (p.receive v i s).routine? i := by
  cases hr : p.routine? i with
  | none =>
    have hnone : (p.receive v i s).routine? i = none := by
      rw [receive, routine?_modifyRoutine, if_pos rfl, hr, Option.map_none]
    have hlength := length_routines_eq_of_skeleton h.skeleton
    rw [hnone] at hroutine ⊢
    rw [routine?, List.getElem?_eq_none_iff] at hroutine ⊢
    omega
  | some r =>
    rw [← hroutine]
    apply h.given
    rw [position?, hroutine, routine?_receive hr]
    rfl

/-- A routine that received is met again, and receives nothing new. -/
theorem effect_spread_received
    (hmet : (p.advance direction visited pending).1 = .fresh i s rest)
    (hnames : q.names = p.names) (hvisited : ∀ j ∈ visited, q.routine? j = p.routine? j)
    (hi : q.routine? i = (p.receive direction.position i s).routine? i) :
    (spread index direction visited pending q).effect =
      match q.handovers index direction i with
      | .error e => (.error e, q)
      | .ok next =>
        let o := spread index direction (i :: visited) (next ++ rest) q
        (o.result.map (· + 1), o.program) := by
  have hsame : (q.advance direction visited pending).1 = .fresh i s rest := by
    rw [advance_congr hnames hvisited, hmet]
    · simp [hmet]
    · intro j s' rest' hj
      simp only [hmet, Advance.fresh.injEq] at hj
      exact hj.1 ▸ canTake_of_received hi
  have hproceed : (spread index direction visited pending q).effect = _ := effect_spread
  rw [hsame, proceed, receive_eq_self hi] at hproceed
  exact hproceed

/-- A spread repeated ends as it did, and changes nothing. -/
theorem effect_spread_again (index : CallIndex) (direction : Direction) (visited : List Nat)
    (pending : List Handover) (p : Program)
    (h : Keeps (spread index direction visited pending p) direction.position q)
    (hvisited : ∀ j ∈ visited, q.routine? j = p.routine? j) :
    (spread index direction visited pending q).effect =
      ((spread index direction visited pending p).result, q) := by
  fun_induction spread index direction visited pending p with
  | case1 visited pending p log hmet =>
    have hsame : (q.advance direction visited pending).1 = .done := by
      rw [advance_congr (names_eq_of_skeleton h.skeleton) hvisited, hmet]
      · simp [hmet]
      · simp [hmet]
    rw [effect_spread, hsame]
    rfl
  | case2 visited pending p e log hmet =>
    obtain rfl := h.stopped e rfl
    rw [effect_spread, hmet]
    rfl
  | case3 visited pending p i s rest log hmet q' log' e hnext =>
    obtain rfl := h.stopped e rfl
    change (spread index direction visited pending q').effect = (.error e, q')
    rw [effect_spread_received (q := q') (congrArg Prod.fst hmet) rfl hvisited rfl, hnext]
  | case4 visited pending p i s rest log hmet q' log' next hnext o ih =>
    have hsteps := reflTransGen_spread index direction (i :: visited) (next ++ rest) q'
    have hskeleton : q.skeleton = q'.skeleton :=
      h.skeleton.trans (skeleton_of_receives hsteps)
    have hi : q.routine? i = q'.routine? i :=
      h.routine?_eq (routine?_of_receives hsteps (Or.inl List.mem_cons_self))
    have hnext' : q.handovers index direction i = .ok next := by
      rw [← hnext]
      exact handovers_congr (calls_eq_of_skeleton hskeleton)
        (h.regions.trans (regions_of_receives hsteps)) hi
    -- the new routine was not among those visited, which are as they were
    have hvisited' : ∀ j ∈ i :: visited, q.routine? j = q'.routine? j := by
      intro j hj
      rcases List.mem_cons.mp hj with rfl | hj
      · exact hi
      · rw [hvisited j hj]
        refine (routine?_receive_of_ne ?_).symm
        rintro rfl
        exact (fresh_of_advance hmet).2 hj
    have hkeeps : Keeps o direction.position q := by
      refine ⟨h.skeleton, h.regions, h.given, fun e he => h.stopped e ?_⟩
      dsimp only
      rw [he]
      rfl
    obtain ⟨hresult, hprogram⟩ := Prod.mk.inj (ih hkeeps hvisited')
    have hnames : q.names = p.names := names_eq_of_skeleton (hskeleton.trans skeleton_receive)
    rw [effect_spread_received (congrArg Prod.fst hmet) hnames hvisited hi, hnext']
    dsimp only
    rw [hresult, hprogram]

/-- A spread from a routine repeated ends as it did, and changes nothing, if that routine is as it
was. -/
theorem effect_spreadFrom_again {k : Nat}
    (h : Keeps (spreadFrom index direction k p) direction.position q)
    (hk : q.routine? k = p.routine? k) :
    (spreadFrom index direction k q).effect = ((spreadFrom index direction k p).result, q) := by
  have hsteps := reflTransGen_spreadFrom index direction k p
  have hnext : q.handovers index direction k = p.handovers index direction k :=
    handovers_congr (calls_eq_of_skeleton (h.skeleton.trans (skeleton_of_receives hsteps)))
      (h.regions.trans (regions_of_receives hsteps)) hk
  rw [spreadFrom] at h ⊢
  rw [spreadFrom, hnext]
  cases hnext : p.handovers index direction k with
  | error e => rfl
  | ok next =>
    rw [hnext] at h
    exact effect_spread_again index direction [k] next p h (by simpa using hk)

end Program

end KernelGraph
