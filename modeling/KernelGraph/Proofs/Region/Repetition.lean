import KernelGraph.Proofs.Region.Narrowing

/-!
# Narrowing again

Narrowing goes along the markers in the order of their places, up to the first that has an id
without a template. What it has kept of a marker it keeps, so narrowed again, a program stays as it
is, and the same id is met.

## Main definitions

* `Program.Narrowed` — narrowing finds nothing to drop at a place
* `Program.FirstUnknown` — the first marker with an id that has no template

## Main results

* `narrowAll_eq_error_iff` — where narrowing stops
* `effect_narrowAll_of_live_subset` — narrowing where there is nothing to drop
* `effect_narrowAll_again` — narrowing a program that has been narrowed
-/

namespace KernelGraph

namespace Program

/-- Narrowing keeps all of the marker at a place. -/
def Narrowed (p : Program) (platform : Platform) (place : Nat) : Prop :=
  ∀ m, p.marker? place = some m → p.kept? platform m = some m

/-- The marker at a place is the first with an id that has no template, and `id` is the first such
id of it. -/
structure FirstUnknown (p : Program) (place : Nat) (m : Marker) (id : String) : Prop where
  marker : p.marker? place = some m
  unknown : m.templates.ids.find? (fun id => (p.template? id).isNone) = some id
  known : ∀ i < place, p.Known i

variable {p q : Program} {platform : Platform} {i : Nat} {m m' : Marker} {id : String}
  {places : List Nat} {e : AnalysisError}

/-! ## What has been narrowed -/

/-- What narrowing keeps of a marker it keeps. -/
theorem kept?_of_kept? (h : p.kept? platform m = some m') : p.kept? platform m' = some m' := by
  by_cases hempty : m.templates.isEmpty
  · rw [kept?_of_isEmpty hempty] at h
    exact Option.some.inj h ▸ kept?_of_isEmpty hempty
  · rw [kept?, if_neg hempty] at h
    dsimp only at h
    split at h
    · simp at h
    · rename_i hkept
      obtain rfl := Option.some.inj h
      have hagain : (m.templates.retain (p.applies platform)).retain (p.applies platform) =
          m.templates.retain (p.applies platform) := by
        ext1
        simp [TemplateSet.retain]
      rw [kept?, if_neg hkept]
      dsimp only
      rw [hagain, if_neg hkept]

theorem narrowed_narrowAt (hi : i ∈ places) :
    (p.narrowAt platform places).Narrowed platform i := by
  intro m hm
  rw [marker?_narrowAt, if_pos hi] at hm
  obtain ⟨m', -, hkept⟩ := Option.bind_eq_some_iff.mp hm
  exact kept?_of_kept? (p := p) hkept

theorem narrowed_narrow (i : Nat) : (p.narrow platform).Narrowed platform i := by
  intro m hm
  rw [marker?_narrow] at hm
  obtain ⟨m', -, hkept⟩ := Option.bind_eq_some_iff.mp hm
  exact kept?_of_kept? (p := p) hkept

/-- Narrowing at places where there is nothing to drop changes nothing. -/
theorem narrowAt_of_narrowed (h : ∀ i ∈ places, p.Narrowed platform i) :
    p.narrowAt platform places = p := by
  refine ext_marker? rfl (by simp [narrowAt]) fun i => ?_
  rw [marker?_narrowAt]
  split
  · rename_i hi
    cases hm : p.marker? i with
    | none => rfl
    | some m => exact h i hi m hm
  · rfl

theorem narrow_of_narrowed (h : ∀ i, p.Narrowed platform i) : p.narrow platform = p := by
  refine ext_marker? rfl (by simp [narrow]) fun i => ?_
  rw [marker?_narrow]
  cases hm : p.marker? i with
  | none => rfl
  | some m => exact h i m hm

/-- Narrowing where there is nothing to drop, and all ids have templates. -/
theorem effect_narrowAll_of_narrowed (hp : Coherent p)
    (hknown : ∀ m ∈ p.live, ∀ id ∈ m.templates, (p.template? id).isSome)
    (h : ∀ i, p.Narrowed platform i) : (narrowAll platform p).effect = (.ok (), p) := by
  rw [effect_narrowAll hp hknown, narrow_of_narrowed h]

/-! ## Where narrowing stops -/

/-- Narrowing everything goes along the markers in the order of their places. -/
theorem pairwise_flatMap_markersOf (hp : Coherent p) :
    ((List.range p.routines.length).flatMap p.markersOf).Pairwise (· < ·) := by
  rw [List.pairwise_flatMap]
  constructor
  · intro owner _
    rw [markersOf, List.pairwise_map]
    exact hp.pairwise_live.filter _
  · refine List.pairwise_lt_range.imp fun {owner owner'} hless i hi i' hi' => ?_
    obtain ⟨m, hm, rfl⟩ := hp.mem_markersOf_iff.mp hi
    obtain ⟨m', hm', rfl⟩ := hp.mem_markersOf_iff.mp hi'
    -- the markers stand in the order of their owners
    by_contra hle
    have hmono := hp.owner_mono i' i m' m (by omega) hm' hm
    omega

theorem FirstUnknown.not_known (h : p.FirstUnknown i m id) : ¬ p.Known i := by
  intro hknown
  have hnone := find?_isNone_eq_none_of_known hknown h.marker
  simp [h.unknown] at hnone

theorem FirstUnknown.unique {i' : Nat} {id' : String} (h : p.FirstUnknown i m id)
    (h' : p.FirstUnknown i' m' id') : i = i' ∧ m = m' ∧ id = id' := by
  have hplace : i = i' := by
    rcases Nat.lt_trichotomy i i' with hlt | heq | hgt
    · exact absurd (h'.known i hlt) h.not_known
    · exact heq
    · exact absurd (h.known i' hgt) h'.not_known
  subst hplace
  obtain rfl : m = m' := Option.some.inj (h.marker.symm.trans h'.marker)
  exact ⟨rfl, rfl, Option.some.inj (h.unknown.symm.trans h'.unknown)⟩

/-- Narrowing that stops has met the first marker with an id that has no template, and has narrowed
those before it. -/
theorem exists_firstUnknown (hp : Coherent p) (h : (narrowAll platform p).effect = (.error e, q)) :
    ∃ i m id, p.FirstUnknown i m id ∧ e = .unknownTemplate id (p.nameOf m.owner) ∧
      q = p.narrowAt platform (List.range i) := by
  have hend := narrowEnd_narrowAll hp platform
  rw [h] at hend
  cases hend with
  | unknown before i after m id hplaces hknown hm hid =>
    have hsorted := pairwise_flatMap_markersOf hp
    rw [hplaces, List.pairwise_append, List.pairwise_cons] at hsorted
    obtain ⟨-, ⟨hafter, -⟩, hbefore⟩ := hsorted
    -- the markers that come before are those at lower places
    have hmem : ∀ {j m}, p.marker? j = some m → (j ∈ before ↔ j < i) := by
      intro j m hj
      have hplace := (mem_flatMap_markersOf_iff hp).mpr ⟨m, hj⟩
      rw [hplaces, List.mem_append, List.mem_cons] at hplace
      constructor
      · exact fun hmem => hbefore j hmem i List.mem_cons_self
      · intro hlt
        rcases hplace with hmem | rfl | hmem
        · exact hmem
        · exact absurd hlt (Nat.lt_irrefl _)
        · exact absurd hlt (Nat.lt_asymm (hafter j hmem))
    refine ⟨i, m, id, ⟨hm, hid, fun j hj m' hm' => ?_⟩, rfl, ?_⟩
    · exact hknown j ((hmem hm').mpr hj) m' hm'
    · refine ext_marker? rfl (by simp [narrowAt]) fun j => ?_
      rw [marker?_narrowAt, marker?_narrowAt]
      cases hj : p.marker? j with
      | none => simp
      | some m' => simp only [hmem hj, List.mem_range]

/-- Where narrowing stops, and what it has done then. -/
theorem narrowAll_eq_error_iff (hp : Coherent p) :
    (narrowAll platform p).effect = (.error e, q) ↔
      ∃ i m id, p.FirstUnknown i m id ∧ e = .unknownTemplate id (p.nameOf m.owner) ∧
        q = p.narrowAt platform (List.range i) := by
  refine ⟨exists_firstUnknown hp, ?_⟩
  rintro ⟨i, m, id, hfirst, rfl, rfl⟩
  rcases hrun : (narrowAll platform p).effect with ⟨e | _, q⟩
  · obtain ⟨i', m', id', hfirst', rfl, rfl⟩ := exists_firstUnknown hp hrun
    obtain ⟨rfl, rfl, rfl⟩ := hfirst.unique hfirst'
    rfl
  · have hknown := known_of_narrowAll hp hrun
    exact absurd (fun m' hm' => hknown m' (mem_live_iff.mpr ⟨i, hm'⟩)) hfirst.not_known

/-! ## Narrowing again -/

theorem Known.narrowAt (h : p.Known i) : (p.narrowAt platform places).Known i := by
  intro m hm id hid
  rw [marker?_narrowAt] at hm
  split at hm
  · obtain ⟨m', hm', hkept⟩ := Option.bind_eq_some_iff.mp hm
    exact h m' hm' id (((kept?_eq_some hkept).2.2.2 id).mp hid).1
  · exact h m hm id hid

/-- What narrowing leaves has templates for all ids, if there were. -/
theorem known_narrow (h : ∀ m ∈ p.live, ∀ id ∈ m.templates, (p.template? id).isSome) :
    ∀ m ∈ (p.narrow platform).live, ∀ id ∈ m.templates,
      ((p.narrow platform).template? id).isSome := by
  intro m hm id hid
  rw [live_narrow, List.mem_filterMap] at hm
  obtain ⟨m', hm', hkept⟩ := hm
  exact h m' hm' id (((kept?_eq_some hkept).2.2.2 id).mp hid).1

/-- Narrowing changes nothing in a program whose markers are left over from a narrowed one. -/
theorem effect_narrowAll_of_live_subset (hq : Coherent q) (hskeleton : q.skeleton = p.skeleton)
    (hknown : ∀ m ∈ p.live, ∀ id ∈ m.templates, (p.template? id).isSome)
    (hlive : ∀ m ∈ q.live, m ∈ (p.narrow platform).live) :
    (narrowAll platform q).effect = (.ok (), q) := by
  apply effect_narrowAll_of_narrowed hq
  · intro m hm id hid
    rw [template?_eq_of_skeleton hskeleton]
    exact known_narrow hknown m (hlive m hm) id hid
  · intro i m hm
    obtain ⟨j, hj⟩ := mem_live_iff.mp (hlive m (mem_live_iff.mpr ⟨i, hm⟩))
    rw [kept?_eq_of_skeleton hskeleton]
    exact narrowed_narrow (p := p) j m hj

/-- Narrowing a program that has been narrowed ends as it did, and changes nothing. -/
theorem effect_narrowAll_again (hp : Coherent p) (platform : Platform) :
    (narrowAll platform (narrowAll platform p).program).effect = (narrowAll platform p).effect := by
  rcases narrowAll_cases hp platform with hrun | ⟨e, q, hrun⟩
  · have hprogram : (narrowAll platform p).program = p.narrow platform := (Prod.mk.inj hrun).2
    rw [hrun, hprogram]
    exact effect_narrowAll_of_narrowed ((evolves_narrow p platform).coherent hp)
      (known_narrow (known_of_narrowAll hp hrun)) narrowed_narrow
  · have hprogram : (narrowAll platform p).program = q := (Prod.mk.inj hrun).2
    obtain ⟨i, m, id, hfirst, rfl, rfl⟩ := exists_firstUnknown hp hrun
    rw [hrun, hprogram]
    apply (narrowAll_eq_error_iff ((evolves_narrowAt p platform _).coherent hp)).mpr
    refine ⟨i, m, id, ⟨?_, hfirst.unknown, fun j hj => (hfirst.known j hj).narrowAt⟩, rfl, ?_⟩
    · rw [marker?_narrowAt, if_neg (by simp), hfirst.marker]
    · exact (narrowAt_of_narrowed fun j hj => narrowed_narrowAt hj).symm

end Program

end KernelGraph
