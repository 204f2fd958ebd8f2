import KernelGraph.Proofs.Call.Index
import KernelGraph.Proofs.Call.Reach
import KernelGraph.Proofs.Graph.Action

/-!
# Spreading along a trail

A spread by an index of the current calls goes along the trail of its direction: every routine that
the trail discovers receives the position and the templates of the routine before it. The spread
succeeds if and only if every routine that it meets can take the position; otherwise it has gone
along a part of the trail when it stops.

## Main definitions

* `Program.CanTake` — a routine may be given a position
* `Program.handOn` — edges are gone along, each handing templates on
* `Program.TrailEnd` — how a spread along edges ends

## Main results

* `trailEnd_spreadFrom` — a spread goes along the trail, to its end or to a routine in conflict
* `position?_handOn`, `mem_relationsOf_handOn` — positions and templates after a trail
-/

namespace KernelGraph

namespace Program

/-- A routine may be given a position, if it exists. -/
def CanTake (p : Program) (v : Position) (i : Nat) : Prop :=
  ∀ u, p.position? i = some u → u.Accepts v

/-- The program after edges have been gone along: each gives its second routine a position, and the
templates of its first. -/
def handOn (v : Position) (p : Program) (edges : List (Nat × Nat)) : Program :=
  edges.foldl (fun q e => q.receive v e.2 (q.relationsOf e.1)) p

variable {p q : Program} {v : Position} {i j : Nat} {id : String} {s : TemplateSet}
  {edges : List (Nat × Nat)} {a b : Nat}

/-! ## What a routine hands on -/

/-- Without markers, a routine hands on what is in its container. -/
theorem relationsOf_eq_activeOf (h : ∀ m ∈ p.live, m.owner ≠ i) :
    p.relationsOf i = p.activeOf i := by
  have hnone : p.live.filter (·.owner = i) = [] :=
    List.filter_eq_nil_iff.mpr fun m hm => by simpa using h m hm
  rw [relationsOf, hnone]
  rfl

theorem mem_foldl_union {owned : List Marker} :
    id ∈ owned.foldl (fun acc m => acc ∪ m.templates) s ↔
      id ∈ s ∨ ∃ m ∈ owned, id ∈ m.templates := by
  induction owned generalizing s with
  | nil => simp
  | cons m owned ih => simp [ih, or_assoc]

/-- With markers, a routine hands on what they hold. -/
theorem mem_relationsOf_iff_of_live (h : ∃ m ∈ p.live, m.owner = i) :
    id ∈ p.relationsOf i ↔ ∃ m ∈ p.live, m.owner = i ∧ id ∈ m.templates := by
  obtain ⟨m, hm, howner⟩ := h
  have hmem : m ∈ p.live.filter (·.owner = i) := List.mem_filter.mpr ⟨hm, by simpa using howner⟩
  rw [relationsOf]
  split
  · rename_i hnil
    simp [hnil] at hmem
  · rw [mem_foldl_union]
    simp [and_assoc]

theorem relationsOf_receive_of_ne (hij : i ≠ j) :
    (p.receive v i s).relationsOf j = p.relationsOf j := by
  have hcontainer : ((p.receive v i s).routine? j).bind Routine.active =
      (p.routine? j).bind Routine.active := container?_receive_of_ne hij
  rw [relationsOf, relationsOf, hcontainer]
  rfl

/-- A routine without markers that receives hands on what it is handed too. -/
theorem mem_relationsOf_receive (hi : i < p.routines.length) (h : ∀ m ∈ p.live, m.owner ≠ i) :
    id ∈ (p.receive v i s).relationsOf i ↔ id ∈ p.relationsOf i ∨ id ∈ s := by
  rw [relationsOf_eq_activeOf (p := p.receive v i s) h, relationsOf_eq_activeOf h,
    mem_activeOf_receive hi]

/-! ## Going along edges -/

@[simp] theorem handOn_nil : p.handOn v [] = p := rfl

@[simp] theorem handOn_cons :
    p.handOn v ((a, b) :: edges) = (p.receive v b (p.relationsOf a)).handOn v edges := rfl

@[simp] theorem skeleton_handOn : (p.handOn v edges).skeleton = p.skeleton := by
  induction edges generalizing p with
  | nil => rfl
  | cons e edges ih => rw [handOn_cons, ih, skeleton_receive]

@[simp] theorem regions_handOn : (p.handOn v edges).regions = p.regions := by
  induction edges generalizing p with
  | nil => rfl
  | cons e edges ih => rw [handOn_cons, ih, regions_receive]

/-- The routines that the edges lead to have the position then, and no other has changed. -/
theorem position?_handOn (h : ∀ e ∈ edges, e.2 < p.routines.length) :
    (p.handOn v edges).position? i =
      if i ∈ edges.map Prod.snd then some v else p.position? i := by
  induction edges generalizing p with
  | nil => simp
  | cons e edges ih =>
    obtain ⟨a, b⟩ := e
    have hlt : b < p.routines.length := h _ List.mem_cons_self
    have hrest : ∀ e ∈ edges, e.2 < (p.receive v b (p.relationsOf a)).routines.length := by
      intro e he
      rw [length_routines_eq_of_skeleton skeleton_receive]
      exact h e (List.mem_cons_of_mem _ he)
    rw [handOn_cons, ih hrest, position?_receive hlt]
    rw [List.map_cons]
    by_cases hb : b = i
    · simp [hb]
    · simp only [List.mem_cons, hb, Ne.symm hb, false_or, if_false]

/-- A routine that cannot take the position after edges have been gone along had its own before. -/
theorem position?_of_handOn {r : Routine} (h : ∀ e ∈ edges, e.2 < p.routines.length)
    (hr : (p.handOn v edges).routine? i = some r) (hconflict : ¬ r.position.Accepts v) :
    p.position? i = some r.position := by
  have hposition := position?_handOn (v := v) (i := i) h
  rw [position?, hr, Option.map_some] at hposition
  split at hposition
  · exact absurd (Or.inr (Option.some.inj hposition)) hconflict
  · exact hposition.symm

/-- A routine that no edge leads to has not changed. -/
theorem routine?_handOn_of_notMem (h : i ∉ edges.map Prod.snd) :
    (p.handOn v edges).routine? i = p.routine? i := by
  induction edges generalizing p with
  | nil => rfl
  | cons e edges ih =>
    obtain ⟨a, b⟩ := e
    rw [List.map_cons, List.mem_cons, not_or] at h
    rw [handOn_cons, ih h.2, routine?_receive_of_ne (Ne.symm h.1)]

/-- The container of a routine that no edge leads to has not changed. -/
theorem container?_handOn_of_notMem (h : i ∉ edges.map Prod.snd) :
    (p.handOn v edges).container? i = p.container? i := by
  rw [container?, container?, routine?_handOn_of_notMem h]

/-- After edges have been gone along, a routine hands on what the routines did from which something
gets to it, when none that the edges lead to has a marker. -/
theorem mem_relationsOf_handOn (hlt : ∀ e ∈ edges, e.2 < p.routines.length)
    (hmarker : ∀ e ∈ edges, ∀ m ∈ p.live, m.owner ≠ e.2) :
    id ∈ (p.handOn v edges).relationsOf i ↔ ∃ u, Passes edges u i ∧ id ∈ p.relationsOf u := by
  induction edges generalizing p with
  | nil => simp
  | cons e edges ih =>
    obtain ⟨a, b⟩ := e
    -- the first edge adds to `b` what `a` hands on, and the others see the result
    have hstep : ∀ u, id ∈ (p.receive v b (p.relationsOf a)).relationsOf u ↔
        id ∈ p.relationsOf u ∨ u = b ∧ id ∈ p.relationsOf a := by
      intro u
      by_cases hu : u = b
      · subst hu
        rw [mem_relationsOf_receive (hlt _ List.mem_cons_self) (hmarker _ List.mem_cons_self)]
        simp
      · rw [relationsOf_receive_of_ne (Ne.symm hu)]
        simp [hu]
    rw [handOn_cons, ih]
    · simp only [hstep, passes_cons]
      constructor
      · rintro ⟨u, hpass, hid | ⟨rfl, hid⟩⟩
        · exact ⟨u, Or.inl hpass, hid⟩
        · exact ⟨a, Or.inr ⟨rfl, hpass⟩, hid⟩
      · rintro ⟨u, hpass | ⟨rfl, hpass⟩, hid⟩
        · exact ⟨u, hpass, Or.inl hid⟩
        · exact ⟨b, hpass, Or.inr ⟨rfl, hid⟩⟩
    · intro e he
      rw [length_routines_eq_of_skeleton skeleton_receive]
      exact hlt e (List.mem_cons_of_mem _ he)
    · exact fun e he => hmarker e (List.mem_cons_of_mem _ he)

/-! ## One step of a spread -/

section Step

variable {index : CallIndex} {direction : Direction} {visited : List Nat} {h : Handover}
  {pending rest : List Handover} {t : Nat} {r : Routine} {e : AnalysisError}

/-- What a spread does once it is known what is met next. -/
def proceed (index : CallIndex) (direction : Direction) (visited : List Nat) (p : Program) :
    Advance → Except AnalysisError Nat × Program
  | .done => (.ok 0, p)
  | .conflict e => (.error e, p)
  | .fresh id relations rest =>
    let q := p.receive direction.position id relations
    match q.handovers index direction id with
    | .error e => (.error e, q)
    | .ok next =>
      let o := spread index direction (id :: visited) (next ++ rest) q
      (o.result.map (· + 1), o.program)

theorem effect_spread :
    (spread index direction visited pending p).effect =
      p.proceed index direction visited (p.advance direction visited pending).1 := by
  rw [spread]
  split
  · rename_i hadvance
    rw [hadvance]
    rfl
  · rename_i hadvance
    rw [hadvance]
    rfl
  · rename_i id relations rest log hadvance
    rw [hadvance, proceed]
    dsimp only
    cases (p.receive direction.position id relations).handovers index direction id <;> rfl

theorem conflict?_eq_none_iff :
    p.conflict? direction t = none ↔ p.CanTake direction.position t := by
  rw [conflict?, CanTake, position?]
  cases p.routine? t with
  | none => simp
  | some r =>
    dsimp only [Option.map_some]
    split
    · rename_i hr
      exact iff_of_true rfl fun u hu => Option.some.inj hu ▸ hr
    · rename_i hr
      exact iff_of_false (by simp) fun h => hr (h _ rfl)

theorem effect_spread_unknown (ht : p.idOf? h.target = none) :
    (spread index direction visited (h :: rest) p).effect =
      (spread index direction visited rest p).effect := by
  have hadvance : (p.advance direction visited (h :: rest)).1 =
      (p.advance direction visited rest).1 := by
    rw [advance, ht]
  rw [effect_spread, effect_spread, hadvance]

theorem effect_spread_conflict (ht : p.idOf? h.target = some t) (hr : p.routine? t = some r)
    (hconflict : ¬ r.position.Accepts direction.position) :
    (spread index direction visited (h :: rest) p).effect =
      (.error (.conflictingPosition r.name r.position direction.position direction), p) := by
  have he : p.conflict? direction t =
      some (.conflictingPosition r.name r.position direction.position direction) := by
    simp only [conflict?, hr, if_neg hconflict]
  rw [effect_spread, advance, ht]
  simp only [he, proceed]

theorem effect_spread_visited (ht : p.idOf? h.target = some t)
    (htake : p.CanTake direction.position t) (hvisited : t ∈ visited) :
    (spread index direction visited (h :: rest) p).effect =
      (spread index direction visited rest p).effect := by
  have hadvance : (p.advance direction visited (h :: rest)).1 =
      (p.advance direction visited rest).1 := by
    rw [advance, ht]
    simp only [conflict?_eq_none_iff.mpr htake, if_pos hvisited]
  rw [effect_spread, effect_spread, hadvance]

theorem effect_spread_fresh (ht : p.idOf? h.target = some t)
    (htake : p.CanTake direction.position t) (hvisited : t ∉ visited) {next : List Handover}
    (hnext : (p.receive direction.position t h.relations).handovers index direction t = .ok next) :
    (spread index direction visited (h :: rest) p).effect =
      let o := spread index direction (t :: visited) (next ++ rest)
        (p.receive direction.position t h.relations)
      (o.result.map (· + 1), o.program) := by
  rw [effect_spread, advance, ht]
  simp only [conflict?_eq_none_iff.mpr htake, if_neg hvisited, proceed, hnext]

end Step

/-! ## A whole spread -/

section Trail

variable {direction : Direction} {r : Routine} {names : List String} {visited : List Nat}
  {pending : List (Nat × String)}

/-- Handovers to the routines of some names, each from a routine. -/
def handed (p : Program) (pending : List (Nat × String)) : List Handover :=
  pending.map fun x => ⟨x.2, p.relationsOf x.1⟩

/-- The edges of the handovers whose names stand for routines. -/
def known (p : Program) (pending : List (Nat × String)) : List (Nat × Nat) :=
  pending.filterMap fun x => (p.idOf? x.2).map (x.1, ·)

theorem known_map : p.known (names.map (a, ·)) = (names.filterMap p.idOf?).map (a, ·) := by
  simp only [known, List.filterMap_map, List.map_filterMap]
  rfl

theorem known_append {more : List (Nat × String)} :
    p.known (pending ++ more) = p.known pending ++ p.known more :=
  List.filterMap_append

theorem known_eq_of_skeleton (h : q.skeleton = p.skeleton) : q.known pending = p.known pending := by
  simp only [known, idOf?_eq_of_skeleton h]

/-- By an index of the current calls, a routine with a name hands on to the targets of its calls. -/
theorem handovers_build (direction : Direction) (hp : Coherent p) (hr : p.routine? a = some r)
    (hname : r.name ≠ "") :
    ∃ names : List String,
      p.handovers (.build p.calls) direction a = .ok (p.handed (names.map (a, ·))) ∧
        names.filterMap p.idOf? = p.targets direction (r.position = .within) a := by
  have hfound : ∀ name, p.idOf? name = some a ↔ name = r.name :=
    fun _ => hp.idOf?_eq_some_iff hr hname
  have hdown : ((p.calls.filter (·.caller = r.name)).filter (leadsDown r.position)).filterMap
      (p.idOf? ·.callee) = p.targets .downward (r.position = .within) a := by
    simp only [targets, List.filter_filter, List.filterMap_filter, hfound]
    congr 1
    funext c
    by_cases hwithin : r.position = .within <;> by_cases hcaller : c.caller = r.name <;>
      simp [leadsDown, hwithin, hcaller]
  simp only [handovers, hr]
  cases direction with
  | upward =>
    refine ⟨(p.calls.filter (·.callee = r.name)).map Call.caller, ?_, ?_⟩
    · simp [successors, callersOf_build, handed, Except.map]
    · simp only [targets, List.filterMap_map, List.filterMap_filter, hfound]
      congr 1
      funext c
      by_cases hcallee : c.callee = r.name <;> simp [hcallee]
  | downward | kernel =>
    refine ⟨((p.calls.filter (·.caller = r.name)).filter (leadsDown r.position)).map Call.callee,
      ?_, ?_⟩
    · simp [successors, calleesOf_build, handed, Except.map]
    · rw [List.filterMap_map]
      exact hdown

/-- How a spread along edges ends: all that it meets can take the position and the edges have been
gone along, or the first of the edges have, and then it met a routine in conflict. -/
inductive TrailEnd (p : Program) (direction : Direction) (edges : List (Nat × Nat))
    (met : List Nat) : Except AnalysisError Nat × Program → Prop
  | done (htake : ∀ t ∈ met, p.CanTake direction.position t) :
    TrailEnd p direction edges met (.ok edges.length, p.handOn direction.position edges)
  | conflict (n t : Nat) (r : Routine) (ht : t ∈ met)
    (hr : (p.handOn direction.position (edges.take n)).routine? t = some r)
    (hconflict : ¬ r.position.Accepts direction.position) :
    TrailEnd p direction edges met
      (.error (.conflictingPosition r.name r.position direction.position direction),
        p.handOn direction.position (edges.take n))

/-- A spread along edges ends alike if it also meets routines that can take the position. -/
theorem TrailEnd.of_met {met met' : List Nat} {o : Except AnalysisError Nat × Program}
    (h : TrailEnd p direction edges met o) (hmet : ∀ t ∈ met, t ∈ met')
    (htake : ∀ t ∈ met', t ∈ met ∨ p.CanTake direction.position t) :
    TrailEnd p direction edges met' o := by
  cases h with
  | done hall => exact .done fun t ht => (htake t ht).elim (hall t) id
  | conflict n t r ht hr hconflict => exact .conflict n t r (hmet t ht) hr hconflict

theorem canTake_of_receive (hlt : b < p.routines.length) (hb : p.CanTake v b)
    (h : (p.receive v b s).CanTake v i) : p.CanTake v i := by
  by_cases hi : b = i
  · exact hi ▸ hb
  · rw [CanTake, position?_receive hlt, if_neg hi] at h
    exact h

/-- A spread along edges whose first hands on to a routine ends as the spread along the others from
the program in which that routine has received. -/
theorem TrailEnd.cons {met met' : List Nat} {o : Except AnalysisError Nat × Program}
    (hlt : b < p.routines.length) (htake : p.CanTake direction.position b)
    (hmet : ∀ t, t ∈ met' ↔ t = b ∨ t ∈ met)
    (h : TrailEnd (p.receive direction.position b (p.relationsOf a)) direction edges met o) :
    TrailEnd p direction ((a, b) :: edges) met' (o.1.map (· + 1), o.2) := by
  cases h with
  | done hall =>
    change TrailEnd p direction ((a, b) :: edges) met'
      (.ok ((a, b) :: edges).length, p.handOn direction.position ((a, b) :: edges))
    refine .done fun t ht => ?_
    rcases (hmet t).mp ht with rfl | ht
    · exact htake
    · exact canTake_of_receive hlt htake (hall t ht)
  | conflict n t r ht hr hconflict =>
    exact @TrailEnd.conflict p direction ((a, b) :: edges) met' (n + 1) t r
      ((hmet t).mpr (Or.inr ht)) hr hconflict

/-- A spread of what some routines hand on to others goes along the edges that a search discovers
from there. -/
def SpreadsAlong (p : Program) (direction : Direction) (visited : List Nat)
    (pending : List (Nat × String)) : Prop :=
  let edges := discover (p.targets direction false) p.routines.length visited (p.known pending)
  TrailEnd p direction edges (met (p.targets direction false) (p.known pending) edges)
    (spread (.build p.calls) direction visited (p.handed pending) p).effect

section Step

variable {name : String} {t : Nat} {rest : List (Nat × String)}

theorem spreadsAlong_nil : p.SpreadsAlong direction visited [] := by
  have heffect : (spread (.build p.calls) direction visited [] p).effect = (.ok 0, p) := by
    rw [effect_spread]
    rfl
  have hnone : TrailEnd p direction [] [] (.ok 0, p) :=
    .done fun t ht => absurd ht List.not_mem_nil
  simpa [SpreadsAlong, known, handed, met, heffect] using hnone

/-- A name that no routine has is passed over. -/
theorem SpreadsAlong.cons_unknown (ht : p.idOf? name = none)
    (h : p.SpreadsAlong direction visited rest) :
    p.SpreadsAlong direction visited ((a, name) :: rest) := by
  have hknown : p.known ((a, name) :: rest) = p.known rest := by simp [known, ht]
  have heffect :
      (spread (.build p.calls) direction visited (p.handed ((a, name) :: rest)) p).effect =
        (spread (.build p.calls) direction visited (p.handed rest) p).effect :=
    effect_spread_unknown ht
  rw [SpreadsAlong, hknown, heffect]
  exact h

theorem known_cons (ht : p.idOf? name = some t) :
    p.known ((a, name) :: rest) = (a, t) :: p.known rest := by
  simp [known, ht]

/-- A routine that has been visited is met once more. -/
theorem SpreadsAlong.cons_visited (ht : p.idOf? name = some t)
    (htake : p.CanTake direction.position t) (hvisited : t ∈ visited)
    (h : p.SpreadsAlong direction visited rest) :
    p.SpreadsAlong direction visited ((a, name) :: rest) := by
  have heffect :
      (spread (.build p.calls) direction visited (p.handed ((a, name) :: rest)) p).effect =
        (spread (.build p.calls) direction visited (p.handed rest) p).effect :=
    effect_spread_visited ht htake hvisited
  rw [SpreadsAlong, known_cons ht, discover_visited hvisited, heffect]
  refine TrailEnd.of_met h (fun i hi => List.mem_cons_of_mem _ hi) fun i hi => ?_
  rcases List.mem_cons.mp hi with rfl | hi
  · exact Or.inr htake
  · exact Or.inl hi

/-- A routine that cannot take the position ends the spread. -/
theorem spreadsAlong_conflict (ht : p.idOf? name = some t)
    (htake : ¬ p.CanTake direction.position t) :
    p.SpreadsAlong direction visited ((a, name) :: rest) := by
  simp only [CanTake, position?, Option.map_eq_some_iff] at htake
  push Not at htake
  obtain ⟨_, ⟨r, hr, rfl⟩, hconflict⟩ := htake
  have heffect :
      (spread (.build p.calls) direction visited (p.handed ((a, name) :: rest)) p).effect =
        (.error (.conflictingPosition r.name r.position direction.position direction), p) :=
    effect_spread_conflict ht hr hconflict
  rw [SpreadsAlong, known_cons ht, heffect]
  exact .conflict 0 t r List.mem_cons_self hr hconflict

/-- A routine that receives is followed by what it leads to, and then by what was pending. -/
theorem exists_effect_spread_fresh (hdirection : direction ≠ .kernel) (hp : Coherent p)
    (ht : p.idOf? name = some t) (htake : p.CanTake direction.position t) (hvisited : t ∉ visited)
    (hrest : ∀ x ∈ rest, x.1 ∈ visited) :
    let q := p.receive direction.position t (p.relationsOf a)
    ∃ pending, (∀ x ∈ pending, x.1 ∈ t :: visited) ∧
      q.known pending = (p.targets direction false t).map (t, ·) ++ p.known rest ∧
      (spread (.build p.calls) direction visited (p.handed ((a, name) :: rest)) p).effect =
        let o := (spread (.build q.calls) direction (t :: visited) (q.handed pending) q).effect
        (o.1.map (· + 1), o.2) := by
  intro q
  obtain ⟨hne, r, hr, hname⟩ := (hp.idOf?_iff name t).mp ht
  have hskeleton : q.skeleton = p.skeleton := skeleton_receive
  have hq : Coherent q := hp.receive
  obtain ⟨names, hnext, hnames⟩ := handovers_build direction hq (routine?_receive hr) (hname ▸ hne)
  have hwithin : direction.position ≠ .within := by
    cases direction <;> simp_all [Direction.position]
  have htargets : names.filterMap q.idOf? = p.targets direction false t := by
    rw [hnames, targets_eq_of_skeleton hskeleton]
    simp [Routine.receive, hwithin]
  -- what is pending comes from visited routines, and what these hand on has not changed
  have hhanded : q.handed (names.map (t, ·) ++ rest) =
      q.handed (names.map (t, ·)) ++ p.handed rest := by
    rw [handed, List.map_append, handed, handed, List.append_cancel_left_eq]
    refine List.map_congr_left fun x hx => ?_
    have hx' : t ≠ x.1 := fun heq => hvisited (heq ▸ hrest x hx)
    rw [relationsOf_receive_of_ne hx']
  refine ⟨names.map (t, ·) ++ rest, fun x hx => ?_, ?_, ?_⟩
  · rcases List.mem_append.mp hx with hx | hx
    · obtain ⟨_, _, rfl⟩ := List.mem_map.mp hx
      exact List.mem_cons_self
    · exact List.mem_cons_of_mem _ (hrest x hx)
  · rw [known_append, known_map, htargets, known_eq_of_skeleton hskeleton]
  · rw [hhanded]
    exact effect_spread_fresh (h := ⟨name, p.relationsOf a⟩) ht htake hvisited hnext

/-- A routine that receives is discovered, and the spread goes on from the program in which it has
received. -/
theorem SpreadsAlong.cons_fresh (hdirection : direction ≠ .kernel) (hp : Coherent p)
    (ht : p.idOf? name = some t) (htake : p.CanTake direction.position t) (hvisited : t ∉ visited)
    (hrest : ∀ x ∈ rest, x.1 ∈ visited)
    (h : ∀ pending, (∀ x ∈ pending, x.1 ∈ t :: visited) →
      (p.receive direction.position t (p.relationsOf a)).SpreadsAlong direction (t :: visited)
        pending) :
    p.SpreadsAlong direction visited ((a, name) :: rest) := by
  have hlt : t < p.routines.length := hp.lt_of_idOf? ht
  have hskeleton := skeleton_receive (p := p) (v := direction.position) (i := t)
    (s := p.relationsOf a)
  have htargets : (p.receive direction.position t (p.relationsOf a)).targets direction false =
      p.targets direction false := funext fun _ => targets_eq_of_skeleton hskeleton
  obtain ⟨pending, hmem, hedges, heffect⟩ :=
    exists_effect_spread_fresh (a := a) hdirection hp ht htake hvisited hrest
  have hend := h pending hmem
  rw [SpreadsAlong, htargets, length_routines_eq_of_skeleton hskeleton, hedges] at hend
  rw [SpreadsAlong, known_cons ht, discover_fresh hlt hvisited, heffect]
  exact hend.cons hlt htake fun _ => mem_met_fresh

end Step

/-- A spread goes along the edges that a search discovers, if only visited routines hand on. -/
theorem spreadsAlong (hdirection : direction ≠ .kernel) (p : Program) (hp : Coherent p)
    (visited : List Nat) (pending : List (Nat × String)) (hpending : ∀ x ∈ pending, x.1 ∈ visited) :
    p.SpreadsAlong direction visited pending := by
  -- visiting a routine leaves fewer to visit, and among the pending ones each step takes one
  induction hn : (unvisitedBelow p.routines.length visited).length using Nat.strongRecOn
    generalizing p visited pending with
  | _ n ih =>
  induction pending with
  | nil => exact spreadsAlong_nil
  | cons x rest ihrest =>
    obtain ⟨a, name⟩ := x
    have hrest : ∀ x ∈ rest, x.1 ∈ visited := fun x hx => hpending x (List.mem_cons_of_mem _ hx)
    cases ht : p.idOf? name with
    | none => exact (ihrest hrest).cons_unknown ht
    | some t =>
      by_cases htake : p.CanTake direction.position t
      · by_cases hvisited : t ∈ visited
        · exact (ihrest hrest).cons_visited ht htake hvisited
        · refine .cons_fresh hdirection hp ht htake hvisited hrest fun next hnext => ?_
          have hless := length_unvisitedBelow_cons_lt (hp.lt_of_idOf? ht) hvisited
          exact ih _ (hn ▸ hless) _ hp.receive _ next hnext
            (by rw [length_routines_eq_of_skeleton skeleton_receive])
      · exact spreadsAlong_conflict ht htake

/-- A spread from a routine with a name goes along the trail of its direction, which begins with the
calls inside a region if the routine hosts one. -/
theorem trailEnd_spreadFrom (hdirection : direction ≠ .kernel) (hp : Coherent p) {k : Nat}
    (hr : p.routine? k = some r) (hname : r.name ≠ "") :
    TrailEnd p direction (p.trail direction (r.position = .within) k)
      (p.meets direction (r.position = .within) k)
      (spreadFrom (.build p.calls) direction k p).effect := by
  obtain ⟨names, hnext, hnames⟩ := handovers_build direction hp hr hname
  have hedges : p.known (names.map (k, ·)) =
      (p.targets direction (r.position = .within) k).map (k, ·) := by
    rw [known_map, hnames]
  have hend := spreadsAlong hdirection p hp [k] (names.map (k, ·)) (by simp)
  rw [SpreadsAlong, hedges] at hend
  rw [spreadFrom, hnext]
  exact hend

end Trail

end Program

end KernelGraph
