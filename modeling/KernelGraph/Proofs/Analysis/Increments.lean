import KernelGraph.Proofs.Analysis.Portions

/-!
# Analyses in two parts

A document can be analysed in two parts: first without the regions of some routines, and then again,
after these have been put back into the document that the first analysis has left. This succeeds
when an analysis of the whole does, and gives the same positions and the same templates, although
the second part meets routines that already have both.

## Main definitions

* `Document.restrict`, `Document.restore` — regions taken out, and put back
* `Document.analyse`, `Document.analyseInParts` — an analysis of a document, at once or in two parts

## Main results

* `analyseInParts_iff_analyse` — the two succeed together, and come to the same
-/

namespace KernelGraph

namespace Document

/-- The document with regions at the chosen routines only. -/
def restrict (d : Document) (chosen : Nat → Bool) : Document :=
  { d with routines := d.routines.mapIdx fun i r =>
      if chosen i then r else { r with regions := [] } }

/-- The document with the regions that the routines which are not chosen have in another. -/
def restore (d original : Document) (chosen : Nat → Bool) : Document :=
  { d with routines := d.routines.mapIdx fun i r =>
      if chosen i then r
      else { r with regions := (original.routines[i]?).elim [] Document.Routine.regions } }

/-- The program that an analysis of a document leaves, if it succeeds. -/
def analyse (d : Document) (platform : Platform) : Except AnalysisError Program := do
  let p ← Program.ofDocument d
  let o := Program.analyse platform p
  o.result.map fun _ => o.program

/-- Analyses a document without the regions of the routines that are not chosen, and then with them
the document that has been left. -/
def analyseInParts (d : Document) (chosen : Nat → Bool) (platform : Platform) :
    Except AnalysisError Program := do
  let q ← (d.restrict chosen).analyse platform
  (q.toDocument.restore d chosen).analyse platform

end Document

namespace Program

variable {d d' : Document} {p q r x : Program} {chosen : Nat → Bool} {platform : Platform}
  {i k : Nat} {id : String} {routines : List Document.Routine}

/-- An analysis of a document ends as that of its program. -/
theorem analyse_eq_ok_iff (h : ofDocument d = .ok p) :
    d.analyse platform = .ok x ↔ p.Analysable platform ∧ x = p.analysed platform := by
  have hrun : d.analyse platform =
      (analyse platform p).effect.1.map fun _ => (analyse platform p).effect.2 := by
    rw [Document.analyse, h]
    rfl
  rw [hrun]
  rcases analyse_cases (coherent_ofDocument h) platform with
    ⟨hanalysable, report, heffect⟩ | ⟨hnot, e, q, heffect⟩
  · rw [heffect]
    simp [Except.map, hanalysable, eq_comm]
  · rw [heffect]
    simp [Except.map, hnot]

/-! ## Documents with fewer regions -/

theorem skeleton_mapIdx {f : Nat → Document.Routine → Document.Routine}
    (hf : ∀ i r, (f i r).skeleton = r.skeleton) :
    { d with routines := d.routines.mapIdx f }.skeleton = d.skeleton := by
  have hroutines : (d.routines.mapIdx f).map Document.Routine.skeleton =
      d.routines.map Document.Routine.skeleton := by
    rw [map_mapIdx]
    simp only [hf]
    exact mapIdx_const _ _
  rw [Document.skeleton, hroutines, Document.skeleton]

theorem skeleton_restrict : (d.restrict chosen).skeleton = d.skeleton := by
  apply skeleton_mapIdx
  intro i r
  split <;> rfl

theorem skeleton_restore : (d.restore d' chosen).skeleton = d.skeleton := by
  apply skeleton_mapIdx
  intro i r
  split <;> rfl

/-- Taking regions out leaves those of the chosen routines, in their order. -/
theorem ownedRegions_mapIdx :
    ownedRegions k (routines.mapIdx fun i r =>
      if chosen (k + i) then r else { r with regions := [] }) =
      (ownedRegions k routines).filter fun e => chosen e.1 := by
  induction routines generalizing k with
  | nil => rfl
  | cons r routines ih =>
    -- the routines after the first are counted from the next number
    have hrest := ih (k := k + 1)
    simp only [Nat.add_assoc, Nat.add_comm 1] at hrest
    rw [List.mapIdx_cons, ownedRegions, ownedRegions, List.filter_append, hrest, List.filter_map]
    cases hk : chosen k with
    | true => simp [hk, Function.comp_def]
    | false => simp [hk, Function.comp_def]

theorem ownedRegions_restrict (d : Document) (chosen : Nat → Bool) :
    ownedRegions 0 (d.restrict chosen).routines =
      (ownedRegions 0 d.routines).filter fun e => chosen e.1 := by
  rw [← ownedRegions_mapIdx]
  simp only [Nat.zero_add]
  rfl

/-- A program of a document with only some of the regions has a portion of the markers. -/
theorem portion_of_ownedRegions (h : ofDocument d = .ok p) (hq : ofDocument d' = .ok q)
    (hskeleton : q.skeleton = p.skeleton)
    (howned : ownedRegions 0 d'.routines =
      (ownedRegions 0 d.routines).filter fun e => chosen e.1) : Portion p chosen q where
  coherent := coherent_ofDocument hq
  skeleton := hskeleton
  holdings := by
    rw [map_holding_live hq, howned, map_holding_live h, List.filter_map]
    rfl

/-- The first part: the markers of the chosen routines. -/
theorem exists_ofDocument_restrict (h : ofDocument d = .ok p) (chosen : Nat → Bool) :
    ∃ q, ofDocument (d.restrict chosen) = .ok q ∧ Portion p chosen q ∧
      (∀ i, q.position? i = p.position? i) ∧ ∀ i, q.container? i = p.container? i := by
  obtain ⟨q, hq, hskeleton⟩ := exists_ofDocument_of_skeleton skeleton_restrict h
  have hroutine : ∀ i, (d.restrict chosen).routines[i]? = (d.routines[i]?).map fun r =>
      if chosen i then r else { r with regions := [] } := by
    intro i
    rw [Document.restrict, List.getElem?_mapIdx]
  refine ⟨q, hq, portion_of_ownedRegions h hq hskeleton (ownedRegions_restrict d chosen),
    fun i => ?_, fun i => ?_⟩
  · rw [position?_ofDocument hq, position?_ofDocument h, hroutine, Option.map_map]
    cases chosen i <;> rfl
  · rw [container?_ofDocument hq, container?_ofDocument h, hroutine, Option.bind_map]
    cases chosen i <;> rfl

theorem getElem?_restore (hlive : x.live = []) (i : Nat) :
    (x.toDocument.restore d chosen).routines[i]? = (x.routine? i).map fun r =>
      { r.toDocument [] with
        regions := if chosen i then []
          else (d.routines[i]?).elim [] Document.Routine.regions } := by
  rw [Document.restore, List.getElem?_mapIdx, toDocument, List.getElem?_mapIdx, hlive,
    Option.map_map]
  cases chosen i <;> rfl

/-- When no marker is left, the regions that are put back are the only ones. -/
theorem ownedRegions_restore (hlive : x.live = [])
    (hlength : x.routines.length = d.routines.length) :
    ownedRegions 0 (x.toDocument.restore d chosen).routines =
      (ownedRegions 0 d.routines).filter fun e => !chosen e.1 := by
  refine Eq.trans (ownedRegions_congr ?_) (ownedRegions_restrict d fun k => !chosen k)
  apply List.ext_getElem?
  intro i
  rw [List.getElem?_map, List.getElem?_map, getElem?_restore hlive, Document.restrict,
    List.getElem?_mapIdx, Option.map_map, Option.map_map]
  by_cases hi : i < d.routines.length
  · rw [routine?, List.getElem?_eq_getElem hi, List.getElem?_eq_getElem (hlength ▸ hi)]
    cases chosen i <;> rfl
  · rw [routine?, List.getElem?_eq_none (Nat.not_lt.mp hi),
      List.getElem?_eq_none (hlength ▸ Nat.not_lt.mp hi)]
    rfl

/-- The second part: the markers of the others, with what the first part has assigned. -/
theorem exists_ofDocument_restore (h : ofDocument d = .ok p) (hskeleton : x.skeleton = p.skeleton)
    (hlive : x.live = []) (chosen : Nat → Bool) :
    ∃ r, ofDocument (x.toDocument.restore d chosen) = .ok r ∧
      Portion p (fun k => !chosen k) r ∧ (∀ i, r.position? i = x.position? i) ∧
        ∀ i id, id ∈ r.activeOf i ↔ id ∈ x.activeOf i := by
  have hdocument : (x.toDocument.restore d chosen).skeleton = d.skeleton :=
    skeleton_restore.trans (skeleton_toDocument h hskeleton)
  obtain ⟨r, hr, hrskeleton⟩ := exists_ofDocument_of_skeleton hdocument h
  have hlength : x.routines.length = d.routines.length := by
    rw [length_routines_eq_of_skeleton hskeleton, (ofDocument_eq_ok_iff.mp h).2, List.length_mapIdx]
  refine ⟨r, hr, portion_of_ownedRegions h hr hrskeleton (ownedRegions_restore hlive hlength),
    fun i => ?_, fun i id => ?_⟩
  · rw [position?_ofDocument hr, getElem?_restore hlive, Option.map_map]
    rfl
  · rw [mem_activeOf_ofDocument hr, getElem?_restore hlive, activeOf, container?]
    cases x.routine? i with
    | none => simp
    | some routine =>
      cases hactive : routine.active with
      | none => simp [Routine.toDocument, hactive]
      | some c => simp [Routine.toDocument, Container.toDocument, hactive, TemplateSet.mem_iff]

/-! ## The whole -/

/-- An analysis in two parts ends as the analyses of the two portions do. -/
theorem analyseInParts_eq_ok_iff (hq : ofDocument (d.restrict chosen) = .ok q)
    (hr : ofDocument ((q.analysed platform).toDocument.restore d chosen) = .ok r) :
    d.analyseInParts chosen platform = .ok x ↔
      q.Analysable platform ∧ r.Analysable platform ∧ x = r.analysed platform := by
  rw [Document.analyseInParts]
  constructor
  · intro h
    cases hfirst : (d.restrict chosen).analyse platform with
    | error e => simp [hfirst, bind, Except.bind] at h
    | ok y =>
      obtain ⟨hanalysable, rfl⟩ := (analyse_eq_ok_iff hq).mp hfirst
      rw [hfirst] at h
      exact ⟨hanalysable, (analyse_eq_ok_iff hr).mp h⟩
  · rintro ⟨hfirst, hsecond⟩
    rw [(analyse_eq_ok_iff hq).mpr ⟨hfirst, rfl⟩]
    exact (analyse_eq_ok_iff hr).mpr hsecond

/-- For a document without containers, an analysis in two parts succeeds if and only if an analysis
at once does, whatever the routines that are chosen for the first part; and both then come to the
same positions and the same templates. -/
theorem analyseInParts_iff_analyse (h : ofDocument d = .ok p)
    (hactive : ∀ routine ∈ d.routines, routine.active = none) (chosen : Nat → Bool)
    (platform : Platform) :
    ((∃ q, d.analyseInParts chosen platform = .ok q) ↔ ∃ q, d.analyse platform = .ok q) ∧
      ∀ q q', d.analyseInParts chosen platform = .ok q → d.analyse platform = .ok q' →
        ∀ i, q.position? i = q'.position? i ∧ ∀ id, id ∈ q.activeOf i ↔ id ∈ q'.activeOf i := by
  obtain ⟨q, hq, hqportion, hstart, hcontainer⟩ := exists_ofDocument_restrict h chosen
  obtain ⟨r, hr, hrportion, hnext, hheld⟩ := exists_ofDocument_restore h
    ((skeleton_analysed q platform).trans hqportion.skeleton) (live_analysed hqportion.coherent)
    chosen
  have hiff := analysable_iff_of_portions hqportion hrportion hstart hnext
  have hparts : ∀ x, d.analyseInParts chosen platform = .ok x ↔
      q.Analysable platform ∧ r.Analysable platform ∧ x = r.analysed platform :=
    fun x => analyseInParts_eq_ok_iff hq hr
  have hwhole : ∀ x, d.analyse platform = .ok x ↔
      p.Analysable platform ∧ x = p.analysed platform := fun x => analyse_eq_ok_iff h
  constructor
  · constructor
    · rintro ⟨x, hx⟩
      obtain ⟨hfirst, hsecond, -⟩ := (hparts x).mp hx
      exact ⟨_, (hwhole _).mpr ⟨hiff.mpr ⟨hfirst, hsecond⟩, rfl⟩⟩
    · rintro ⟨x, hx⟩
      obtain ⟨hfirst, hsecond⟩ := hiff.mp ((hwhole x).mp hx).1
      exact ⟨_, (hparts _).mpr ⟨hfirst, hsecond, rfl⟩⟩
  · intro x x' hx hx' i
    obtain ⟨-, -, rfl⟩ := (hparts x).mp hx
    obtain ⟨hanalysable, rfl⟩ := (hwhole x').mp hx'
    have hp := coherent_ofDocument h
    have hnone : ∀ i id, id ∉ p.activeOf i := fun i id => notMem_activeOf_ofDocument h hactive
    have hnone' : ∀ i id, id ∉ q.activeOf i := by
      intro i id
      rw [activeOf, hcontainer]
      exact hnone i id
    constructor
    · exact position?_analysed_of_portions hqportion hrportion hstart hnext hp hanalysable i
    · intro id
      exact mem_activeOf_analysed_of_portions hqportion hrportion hstart hnext hp hanalysable hnone
        hnone' hheld

/-- `main` calls two kernels. -/
def fork : Document where
  routines :=
    [⟨"left", .unset, [⟨["t"], []⟩], none, []⟩, ⟨"right", .unset, [⟨["u"], []⟩], none, []⟩,
      ⟨"main", .unset, [], none, []⟩]
  calls := [⟨"main", "left", none, []⟩, ⟨"main", "right", none, []⟩]
  templates := [⟨"t", [], []⟩, ⟨"u", [], []⟩]
  extra := []

theorem analyseInParts_iff_analyse_fork : ∃ p q q', ofDocument fork = .ok p ∧
    (∀ routine ∈ fork.routines, routine.active = none) ∧
    fork.analyseInParts (· == 0) .cpu = .ok q ∧ fork.analyse .cpu = .ok q' ∧
      ∀ i, q.position? i = q'.position? i ∧ ∀ id, id ∈ q.activeOf i ↔ id ∈ q'.activeOf i := by
  have hactive : ∀ routine ∈ fork.routines, routine.active = none := by decide
  obtain ⟨hiff, hsame⟩ := analyseInParts_iff_analyse (d := fork) rfl hactive (· == 0) .cpu
  have hok : (fork.analyse .cpu).isOk := by decide +kernel
  cases hq' : fork.analyse .cpu with
  | error e => simp [hq', Except.isOk, Except.toBool] at hok
  | ok q' =>
    obtain ⟨q, hq⟩ := hiff.mpr ⟨q', hq'⟩
    exact ⟨_, q, q', rfl, hactive, hq, rfl, hsame q q' hq hq'⟩

end Program

end KernelGraph
