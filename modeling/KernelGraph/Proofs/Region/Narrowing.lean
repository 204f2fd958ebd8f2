import KernelGraph.Proofs.Graph.Action
import KernelGraph.Proofs.Graph.Coherence
import KernelGraph.Region.Narrowing

/-!
# Narrowing to a platform

Narrowing looks at the markers one after another. It keeps of each the ids whose template applies to
the platform, and drops a marker of which nothing is kept, but it leaves a marker without ids alone.
It stops at the first id without a template.

## Main definitions

* `Program.applies` — the template of an id applies to the platform
* `Program.kept?` — what is left of a marker
* `Program.Known` — the ids of the marker at a place have templates
* `Program.narrowAt`, `Program.narrow` — the markers at some places, or all of them, are narrowed
* `Program.NarrowEnd` — how narrowing the markers at some places ends

## Main results

* `narrowEnd_narrowAll` — narrowing all markers goes along the markers in their order
* `effect_narrowAll` — narrowing succeeds if all ids have templates
* `known_of_narrowAll` — and only then
-/

namespace KernelGraph

namespace Program

/-- Does the template of an id apply to the platform? Of several templates the first counts. -/
def applies (p : Program) (platform : Platform) (id : String) : Bool :=
  (p.template? id).any fun t => platform.Admits t.appliesTo

/-- What narrowing leaves of a marker. -/
def kept? (p : Program) (platform : Platform) (m : Marker) : Option Marker :=
  if m.templates.isEmpty then some m
  else
    let kept := m.templates.retain (p.applies platform)
    if kept.isEmpty then none else some { m with templates := kept }

/-- Each id of the marker at a place has a template. -/
def Known (p : Program) (place : Nat) : Prop :=
  ∀ m, p.marker? place = some m → ∀ id ∈ m.templates, (p.template? id).isSome

/-- The program in which the markers at some places have been narrowed. -/
def narrowAt (p : Program) (platform : Platform) (places : List Nat) : Program :=
  { p with regions := p.regions.mapIdx fun i m =>
      if i ∈ places then m.bind (p.kept? platform) else m }

/-- The program in which all markers have been narrowed. -/
def narrow (p : Program) (platform : Platform) : Program :=
  { p with regions := p.regions.map (·.bind (p.kept? platform)) }

/-- How narrowing the markers at some places ends: all ids have templates and the markers have been
narrowed, or those before the first marker with an id that has none. -/
inductive NarrowEnd (p : Program) (platform : Platform) (places : List Nat) :
    Except AnalysisError Unit × Program → Prop
  | done (hknown : ∀ i ∈ places, p.Known i) :
    NarrowEnd p platform places (.ok (), p.narrowAt platform places)
  | unknown (before : List Nat) (i : Nat) (after : List Nat) (m : Marker) (id : String)
    (hplaces : places = before ++ i :: after) (hknown : ∀ i ∈ before, p.Known i)
    (hm : p.marker? i = some m)
    (hid : m.templates.ids.find? (fun id => (p.template? id).isNone) = some id) :
    NarrowEnd p platform places
      (.error (.unknownTemplate id (p.nameOf m.owner)), p.narrowAt platform before)

variable {p : Program} {platform : Platform} {i place owner : Nat} {m m' : Marker} {id : String}
  {ids : List String} {places more : List Nat}

/-! ## What is kept of a marker -/

theorem isSome_template?_iff : (p.template? id).isSome ↔ ∃ t ∈ p.templates, t.id = id := by
  simp [template?]

/-- The applicable ids are those whose template applies, unless there is an id without one. -/
theorem applicable_eq (p : Program) (platform : Platform) (owner : Nat) (ids : List String) :
    (p.applicable platform owner ids).1 =
      match ids.find? fun id => (p.template? id).isNone with
      | none => .ok (ids.filter (p.applies platform))
      | some id => .error (.unknownTemplate id (p.nameOf owner)) := by
  induction ids with
  | nil => rfl
  | cons id ids ih =>
    rw [applicable]
    cases ht : p.template? id with
    | none => simp [ht]
    | some t =>
      have happlies : p.applies platform id = decide (platform.Admits t.appliesTo) := by
        rw [applies, ht]
        rfl
      simp only [ht, Option.isNone_some, Bool.false_eq_true, not_false_eq_true,
        List.find?_cons_of_neg, List.filter_cons, happlies, decide_eq_true_eq]
      by_cases hadmits : platform.Admits t.appliesTo
      · simp only [hadmits, if_true, ih]
        split <;> rfl
      · simp only [hadmits, if_false, ih]

/-- Narrowing keeps of a marker the ids whose template applies. -/
theorem narrowed_eq_kept? (hm : m.templates.isEmpty = false) :
    narrowed m (m.templates.ids.filter (p.applies platform)) = p.kept? platform m := by
  have hretain : m.templates.retain (fun id =>
      (m.templates.ids.filter (p.applies platform)).contains id) =
        m.templates.retain (p.applies platform) := by
    ext1
    refine List.filter_congr fun id hid => ?_
    simp [hid]
  rw [narrowed, kept?, hretain, hm]
  rfl

theorem kept?_eq_some (h : p.kept? platform m = some m') :
    m'.id = m.id ∧ m'.owner = m.owner ∧ m'.extra = m.extra ∧
      ∀ id, id ∈ m'.templates ↔ id ∈ m.templates ∧ p.applies platform id := by
  rw [kept?] at h
  split at h
  · rename_i hempty
    obtain rfl := Option.some.inj h
    have hnone := TemplateSet.isEmpty_iff.mp hempty
    exact ⟨rfl, rfl, rfl, fun id => ⟨fun hid => absurd hid (hnone id), And.left⟩⟩
  · dsimp only at h
    split at h
    · simp at h
    · obtain rfl := Option.some.inj h
      exact ⟨rfl, rfl, rfl, fun id => TemplateSet.mem_retain⟩

/-- Of a marker without ids everything is kept. -/
theorem kept?_of_isEmpty (hm : m.templates.isEmpty) : p.kept? platform m = some m := if_pos hm

theorem isEmpty_of_kept? (h : p.kept? platform m = some m') (hm' : m'.templates.isEmpty) :
    m.templates.isEmpty := by
  rw [kept?] at h
  split at h
  · rename_i hempty
    exact hempty
  · dsimp only at h
    split at h
    · simp at h
    · rename_i hkept
      obtain rfl := Option.some.inj h
      exact absurd hm' hkept

theorem kept?_eq_of_skeleton {q : Program} (h : q.skeleton = p.skeleton) :
    q.kept? platform m = p.kept? platform m := by
  have happlies : q.applies platform = p.applies platform := by
    funext id
    rw [applies, applies, template?_eq_of_skeleton h]
  rw [kept?, kept?, happlies]

/-! ## Narrowing at several places -/

@[simp] theorem skeleton_narrowAt : (p.narrowAt platform places).skeleton = p.skeleton := rfl

theorem marker?_narrowAt : (p.narrowAt platform places).marker? i =
    if i ∈ places then (p.marker? i).bind (p.kept? platform) else p.marker? i := by
  simp only [marker?, narrowAt, List.getElem?_mapIdx]
  cases p.regions[i]? with
  | none => simp
  | some m => by_cases hi : i ∈ places <;> simp [hi]

theorem evolves_narrowAt (p : Program) (platform : Platform) (places : List Nat) :
    Evolves p (p.narrowAt platform places) := by
  refine ⟨skeleton_narrowAt, fun i m hm => ?_⟩
  rw [marker?_narrowAt] at hm
  split at hm
  · obtain ⟨m', hm', hkept⟩ := Option.bind_eq_some_iff.mp hm
    obtain ⟨hid, howner, -, -⟩ := kept?_eq_some hkept
    exact ⟨m', hm', hid.symm, howner.symm⟩
  · exact ⟨m, hm, rfl, rfl⟩

/-- Two programs are one if they have as many places, the same markers there, and the same rest. -/
theorem ext_marker? {q : Program} (hrest : { q with regions := p.regions } = p)
    (hlength : q.regions.length = p.regions.length) (h : ∀ i, q.marker? i = p.marker? i) :
    q = p := by
  have hregions : q.regions = p.regions := by
    apply List.ext_getElem hlength
    intro i hq hp
    have hi := h i
    rw [marker?, marker?, List.getElem?_eq_getElem hq, List.getElem?_eq_getElem hp] at hi
    simpa using hi
  rw [← hrest, ← hregions]

theorem narrowAt_narrowAt (hdisjoint : List.Disjoint places more) :
    (p.narrowAt platform places).narrowAt platform more = p.narrowAt platform (places ++ more) := by
  refine ext_marker? rfl (by simp [narrowAt]) fun i => ?_
  have hkept : (p.narrowAt platform places).kept? platform = p.kept? platform := rfl
  rw [marker?_narrowAt, marker?_narrowAt, marker?_narrowAt, hkept]
  by_cases hi : i ∈ places
  · have hi' : i ∉ more := hdisjoint hi
    simp [hi, hi']
  · simp [hi]

theorem known_narrowAt (hi : i ∉ places) : (p.narrowAt platform places).Known i ↔ p.Known i := by
  rw [Known, Known, marker?_narrowAt, if_neg hi]
  rfl

theorem narrowAt_nil : p.narrowAt platform [] = p := by
  refine ext_marker? rfl (by simp [narrowAt]) fun i => ?_
  simp [marker?_narrowAt]

/-- Narrowing at a place of which all is kept changes nothing. -/
theorem narrowAt_eq_self (h : (p.marker? i).bind (p.kept? platform) = p.marker? i) :
    p.narrowAt platform [i] = p := by
  refine ext_marker? rfl (by simp [narrowAt]) fun j => ?_
  rw [marker?_narrowAt]
  by_cases hj : j = i
  · simp [hj, h]
  · simp [hj]

theorem narrowAt_singleton (h : p.marker? i = some m) :
    p.narrowAt platform [i] = p.setMarker i (p.kept? platform m) := by
  have hlt : i < p.regions.length := by
    by_contra hge
    simp [marker?, hge] at h
  refine ext_marker? rfl (by simp [narrowAt, setMarker]) fun j => ?_
  rw [marker?_narrowAt, marker?_setMarker]
  by_cases hj : i = j
  · subst hj
    simp [hlt, h]
  · simp [hj, Ne.symm hj]

/-- Narrowing at some places, and then at others. -/
theorem NarrowEnd.append {o : Except AnalysisError Unit × Program}
    (hdisjoint : List.Disjoint places more) (hknown : ∀ i ∈ places, p.Known i)
    (h : NarrowEnd (p.narrowAt platform places) platform more o) :
    NarrowEnd p platform (places ++ more) o := by
  cases h with
  | done hmore =>
    rw [narrowAt_narrowAt hdisjoint]
    refine .done fun i hi => (List.mem_append.mp hi).elim (hknown i) fun hi => ?_
    exact (known_narrowAt fun hmem => hdisjoint hmem hi).mp (hmore i hi)
  | unknown before i after m id hplaces hbefore hm hid =>
    have hsub : ∀ j ∈ before, j ∈ more := fun j hj => hplaces ▸ List.mem_append_left _ hj
    have hi : i ∉ places := fun hmem => hdisjoint hmem (hplaces ▸ by simp)
    rw [narrowAt_narrowAt fun _ hmem hj => hdisjoint hmem (hsub _ hj)]
    -- what was narrowed first has no place among the others, which are as they were
    refine .unknown (places ++ before) i after m id (by simp [hplaces]) (fun j hj => ?_) ?_ hid
    · rcases List.mem_append.mp hj with hj | hj
      · exact hknown j hj
      · exact (known_narrowAt fun hmem => hdisjoint hmem (hsub j hj)).mp (hbefore j hj)
    · rwa [marker?_narrowAt, if_neg hi] at hm

/-- An action that narrows at some places, and then one that narrows at others. -/
theorem NarrowEnd.bind {x : Action Unit} {f : Unit → Action Unit}
    (hdisjoint : List.Disjoint places more) (hx : NarrowEnd p platform places (x p).effect)
    (hf : NarrowEnd (p.narrowAt platform places) platform more
      (f () (p.narrowAt platform places)).effect) :
    NarrowEnd p platform (places ++ more) ((x >>= f) p).effect := by
  generalize ho : (x p).effect = o at hx
  cases hx with
  | done hknown =>
    rw [Action.effect_bind_ok ho]
    exact hf.append hdisjoint hknown
  | unknown before i after m id hplaces hknown hm hid =>
    rw [Action.effect_bind_error ho]
    exact .unknown before i (after ++ more) m id (by simp [hplaces]) hknown hm hid

theorem narrowEnd_nil (p : Program) (platform : Platform) :
    NarrowEnd p platform [] (.ok (), p) := by
  have hend : NarrowEnd p platform [] (.ok (), p.narrowAt platform []) := .done (by simp)
  rwa [narrowAt_nil] at hend

theorem find?_isNone_eq_none_of_known (hknown : p.Known i) (hm : p.marker? i = some m) :
    m.templates.ids.find? (fun id => (p.template? id).isNone) = none := by
  rw [List.find?_eq_none]
  intro id hid
  rw [Bool.not_eq_true, Option.isNone_eq_false_iff]
  exact hknown m hm id hid

theorem known_of_find?_isNone_eq_none (hm : p.marker? i = some m)
    (h : m.templates.ids.find? (fun id => (p.template? id).isNone) = none) : p.Known i := by
  intro m' hm' id hid
  obtain rfl : m = m' := Option.some.inj (hm.symm.trans hm')
  have hsome := List.find?_eq_none.mp h id hid
  rwa [Bool.not_eq_true, Option.isNone_eq_false_iff] at hsome

/-- The marker at a place is narrowed if its ids have templates. -/
theorem effect_narrowMarker (hknown : p.Known i) :
    (narrowMarker platform i p).effect = (.ok (), p.narrowAt platform [i]) := by
  rw [narrowMarker]
  cases hm : p.marker? i with
  | none => rw [narrowAt_eq_self (by rw [hm, Option.bind_none])]; rfl
  | some m =>
    dsimp only
    by_cases hempty : m.templates.isEmpty
    · rw [if_pos hempty, narrowAt_eq_self (by rw [hm, Option.bind_some, kept?_of_isEmpty hempty])]
      rfl
    · have happlicable := applicable_eq p platform m.owner m.templates.ids
      rw [find?_isNone_eq_none_of_known hknown hm] at happlicable
      rw [if_neg hempty, narrowAt_singleton hm, ← narrowed_eq_kept? (by simpa using hempty)]
      rcases hrun : p.applicable platform m.owner m.templates.ids with ⟨result, log⟩
      rw [hrun] at happlicable
      obtain rfl : result = .ok (m.templates.ids.filter (p.applies platform)) := happlicable
      rfl

/-- An id without a template stops the narrowing of a marker. -/
theorem effect_narrowMarker_unknown (hm : p.marker? i = some m)
    (hid : m.templates.ids.find? (fun id => (p.template? id).isNone) = some id) :
    (narrowMarker platform i p).effect = (.error (.unknownTemplate id (p.nameOf m.owner)), p) := by
  have hempty : ¬ m.templates.isEmpty := fun hempty =>
    TemplateSet.isEmpty_iff.mp hempty id (List.mem_of_find?_eq_some hid)
  have happlicable := applicable_eq p platform m.owner m.templates.ids
  rw [hid] at happlicable
  rw [narrowMarker, hm]
  dsimp only
  rw [if_neg hempty]
  rcases hrun : p.applicable platform m.owner m.templates.ids with ⟨result, log⟩
  rw [hrun] at happlicable
  obtain rfl : result = .error (.unknownTemplate id (p.nameOf m.owner)) := happlicable
  rfl

theorem narrowEnd_narrowMarker (p : Program) (platform : Platform) (i : Nat) :
    NarrowEnd p platform [i] (narrowMarker platform i p).effect := by
  by_cases hknown : p.Known i
  · rw [effect_narrowMarker hknown]
    exact .done fun j hj => (List.mem_singleton.mp hj).symm ▸ hknown
  · -- the first id of the marker that has no template is the one that is reported
    have hunknown : ∃ m id, p.marker? i = some m ∧
        m.templates.ids.find? (fun id => (p.template? id).isNone) = some id := by
      by_contra hnone
      push Not at hnone
      refine hknown fun m hm id hid => ?_
      have hfind := Option.eq_none_iff_forall_ne_some.mpr (hnone m · hm)
      exact known_of_find?_isNone_eq_none hm hfind m hm id hid
    obtain ⟨m, id, hm, hid⟩ := hunknown
    have hend := @NarrowEnd.unknown p platform [i] [] i [] m id rfl (by simp) hm hid
    rwa [narrowAt_nil, ← effect_narrowMarker_unknown hm hid] at hend

theorem narrowEnd_forM (p : Program) (platform : Platform) (hnodup : places.Nodup) :
    NarrowEnd p platform places (places.forM (narrowMarker platform) p).effect := by
  induction places generalizing p with
  | nil => exact narrowEnd_nil p platform
  | cons i places ih =>
    rw [List.nodup_cons] at hnodup
    exact NarrowEnd.bind (by simpa using hnodup.1) (narrowEnd_narrowMarker p platform i)
      (ih _ hnodup.2)

/-- The markers of a routine, each at its place. -/
theorem filter_owner_live (p : Program) (i : Nat) : p.live.filter (·.owner = i) =
    (p.regions.map (Option.filter (·.owner = i))).filterMap fun m => m := by
  rw [live, List.filter_filterMap, List.filterMap_map]
  rfl

/-- Narrowing at other places leaves the markers of a routine as they are. -/
theorem markersOf_narrowAt
    (h : ∀ place ∈ places, ∀ m, p.marker? place = some m → m.owner ≠ i) :
    (p.narrowAt platform places).markersOf i = p.markersOf i := by
  have hregions : (p.narrowAt platform places).regions.map (Option.filter (·.owner = i)) =
      p.regions.map (Option.filter (·.owner = i)) := by
    apply List.ext_getElem?
    intro place
    have hplace := h place
    simp only [narrowAt, List.getElem?_map, List.getElem?_mapIdx]
    -- is there such a place, and a marker at it?
    rcases hm : p.regions[place]? with _ | _ | m
    · rfl
    · simp
    · by_cases hmem : place ∈ places
      · have howner : m.owner ≠ i := hplace hmem m (by simp [marker?, hm])
        have hkept : (p.kept? platform m).filter (·.owner = i) = none := by
          rw [Option.filter_eq_none_iff]
          intro m' hm'
          simpa [(kept?_eq_some hm').2.1] using howner
        have hnone : (some m).filter (·.owner = i) = none := by simp [howner]
        simp [hmem, hkept, hnone]
      · simp [hmem]
  rw [markersOf, markersOf, filter_owner_live, filter_owner_live, hregions]

theorem narrowEnd_narrowRoutine (hp : Coherent p) (platform : Platform) (i : Nat) :
    NarrowEnd p platform (p.markersOf i) (narrowRoutine platform i p).effect :=
  narrowEnd_forM p platform (hp.nodup_markersOf i)

theorem narrowEnd_narrowEach (hp : Coherent p) (platform : Platform) {total : Nat} {is : List Nat}
    (hnodup : is.Nodup) :
    NarrowEnd p platform (is.flatMap p.markersOf) (narrowEach platform total is p).effect := by
  induction is generalizing p with
  | nil => exact narrowEnd_nil p platform
  | cons i is ih =>
    rw [List.nodup_cons] at hnodup
    have hq : Coherent (p.narrowAt platform (p.markersOf i)) :=
      (evolves_narrowAt p platform _).coherent hp
    -- a marker has one owner, so the places of two routines are different
    have hdisjoint : ∀ j ∈ is, ∀ place ∈ p.markersOf i, ∀ m,
        p.marker? place = some m → m.owner ≠ j := by
      intro j hj place hplace m hm howner
      obtain ⟨m', hm', howner'⟩ := hp.mem_markersOf_iff.mp hplace
      obtain rfl : m = m' := Option.some.inj (hm.symm.trans hm')
      exact hnodup.1 (howner'.symm.trans howner ▸ hj)
    have hrest := ih hq hnodup.2
    rw [List.flatMap_congr fun j hj => markersOf_narrowAt (hdisjoint j hj)] at hrest
    refine NarrowEnd.bind ?_ (narrowEnd_narrowRoutine hp platform i) hrest
    intro place hplace hmem
    obtain ⟨j, hj, hplace'⟩ := List.mem_flatMap.mp hmem
    obtain ⟨m, hm, howner⟩ := hp.mem_markersOf_iff.mp hplace'
    exact hdisjoint j hj place hplace m hm howner

/-! ## Narrowing everything -/

/-- Narrowing everything narrows the markers of each routine in turn. -/
theorem narrowEnd_narrowAll (hp : Coherent p) (platform : Platform) :
    NarrowEnd p platform ((List.range p.routines.length).flatMap p.markersOf)
      (narrowAll platform p).effect :=
  narrowEnd_narrowEach hp platform List.nodup_range

theorem mem_flatMap_markersOf_iff (hp : Coherent p) :
    i ∈ (List.range p.routines.length).flatMap p.markersOf ↔ ∃ m, p.marker? i = some m := by
  simp only [List.mem_flatMap, List.mem_range, hp.mem_markersOf_iff]
  constructor
  · rintro ⟨_, _, m, hm, _⟩
    exact ⟨m, hm⟩
  · rintro ⟨m, hm⟩
    exact ⟨m.owner, hp.owner_lt i m hm, m, hm, rfl⟩

theorem marker?_narrow :
    (p.narrow platform).marker? i = (p.marker? i).bind (p.kept? platform) := by
  simp only [marker?, narrow, List.getElem?_map]
  cases p.regions[i]? <;> rfl

theorem evolves_narrow (p : Program) (platform : Platform) : Evolves p (p.narrow platform) := by
  refine ⟨rfl, fun i m hm => ?_⟩
  rw [marker?_narrow] at hm
  obtain ⟨m', hm', hkept⟩ := Option.bind_eq_some_iff.mp hm
  obtain ⟨hid, howner, -, -⟩ := kept?_eq_some hkept
  exact ⟨m', hm', hid.symm, howner.symm⟩

/-- The markers that narrowing leaves, in their order. -/
theorem live_narrow : (p.narrow platform).live = p.live.filterMap (p.kept? platform) := by
  rw [live, narrow, live, List.filterMap_map, List.filterMap_filterMap]
  rfl

/-- Narrowing everything succeeds if all ids of markers have templates. -/
theorem effect_narrowAll (hp : Coherent p)
    (hknown : ∀ m ∈ p.live, ∀ id ∈ m.templates, (p.template? id).isSome) :
    (narrowAll platform p).effect = (.ok (), p.narrow platform) := by
  have hend := narrowEnd_narrowAll hp platform
  generalize (narrowAll platform p).effect = o at hend
  cases hend with
  | done _ =>
    -- every marker belongs to a routine, so no place with a marker is left out
    have hall : p.narrowAt platform ((List.range p.routines.length).flatMap p.markersOf) =
        p.narrow platform := by
      refine ext_marker? rfl (by simp [narrowAt, narrow]) fun i => ?_
      rw [marker?_narrowAt, marker?_narrow]
      split
      · rfl
      · rename_i hi
        rw [mem_flatMap_markersOf_iff hp, not_exists] at hi
        rw [Option.eq_none_iff_forall_ne_some.mpr hi, Option.bind_none]
    rw [hall]
  | unknown before i after m id hplaces _ hm hid =>
    have hsome := hknown m (mem_live_iff.mpr ⟨i, hm⟩) id (List.mem_of_find?_eq_some hid)
    have hnone := List.find?_some hid
    simp_all

/-- An id of a marker without a template stops the narrowing. -/
theorem known_of_narrowAll (hp : Coherent p) {q : Program}
    (h : (narrowAll platform p).effect = (.ok (), q)) :
    ∀ m ∈ p.live, ∀ id ∈ m.templates, (p.template? id).isSome := by
  have hend := narrowEnd_narrowAll hp platform
  rw [h] at hend
  cases hend with
  | done hknown =>
    intro m hm
    obtain ⟨i, hi⟩ := mem_live_iff.mp hm
    exact hknown i ((mem_flatMap_markersOf_iff hp).mpr ⟨m, hi⟩) m hi

/-- Narrowing everything succeeds, or stops. -/
theorem narrowAll_cases (hp : Coherent p) (platform : Platform) :
    (narrowAll platform p).effect = (.ok (), p.narrow platform) ∨
      ∃ e q, (narrowAll platform p).effect = (.error e, q) := by
  rcases heffect : (narrowAll platform p).effect with ⟨e | _, q⟩
  · exact Or.inr ⟨e, q, rfl⟩
  · rw [← heffect]
    exact Or.inl (effect_narrowAll hp (known_of_narrowAll hp heffect))

end Program

end KernelGraph
