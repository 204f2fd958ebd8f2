import KernelGraph.Graph.Lowering
import KernelGraph.Proofs.Graph.Skeleton
import Mathlib.Data.List.Nodup
import Mathlib.Data.List.Sort

/-!
# Coherent programs

In a coherent program every routine, call and marker has its own place as its number, every marker
belongs to a routine, and the table of names says what the routines are called. Programs made from
documents are coherent, and they stay so while they are analysed.

## Main definitions

* `Coherent` — the numbers, the owners and the names of a program fit together

## Main results

* `Evolves.coherent` — coherence is kept by what keeps the skeleton and adds no marker
* `Coherent.mem_live_promote`, `Coherent.live_promote` — the markers that promotion leaves
* `coherent_ofDocument` — the program of a document is coherent
-/

namespace KernelGraph

/-- The numbers, the owners and the names of a program fit together. -/
structure Coherent (p : Program) : Prop where
  routine_id : ∀ i r, p.routine? i = some r → r.id = i
  call_id : ∀ (i : Nat) (c : Call), p.calls[i]? = some c → c.id = i
  marker_id : ∀ i m, p.marker? i = some m → m.id = i
  owner_lt : ∀ i m, p.marker? i = some m → m.owner < p.routines.length
  owner_mono : ∀ i j m m', i ≤ j → p.marker? i = some m → p.marker? j = some m' →
    m.owner ≤ m'.owner
  idOf?_iff : ∀ name i, p.idOf? name = some i ↔
    name ≠ "" ∧ ∃ r, p.routine? i = some r ∧ r.name = name

namespace Coherent

variable {p : Program} {i j : Nat} {name : String} {m m' : Marker} {r : Routine}

theorem lt_of_idOf? (hp : Coherent p) (h : p.idOf? name = some i) : i < p.routines.length := by
  obtain ⟨_, r, hr, _⟩ := (hp.idOf?_iff name i).mp h
  exact Program.isSome_routine?_iff.mp (by simp [hr])

/-- A routine with a name is found by it. -/
theorem idOf?_name (hp : Coherent p) (hr : p.routine? i = some r) (hname : r.name ≠ "") :
    p.idOf? r.name = some i :=
  (hp.idOf?_iff r.name i).mpr ⟨hname, r, hr, rfl⟩

/-- A routine with a name is found by that name only. -/
theorem idOf?_eq_some_iff (hp : Coherent p) (hr : p.routine? i = some r) (hname : r.name ≠ "") :
    p.idOf? name = some i ↔ name = r.name := by
  constructor
  · intro h
    obtain ⟨-, r', hr', hname'⟩ := (hp.idOf?_iff name i).mp h
    rw [hr] at hr'
    rw [← hname', Option.some.inj hr']
  · rintro rfl
    exact hp.idOf?_name hr hname

theorem idOf?_nameOf (hp : Coherent p) (hi : p.nameOf i ≠ "") : p.idOf? (p.nameOf i) = some i := by
  rw [Program.nameOf] at hi ⊢
  cases hr : p.routine? i with
  | none => simp [hr] at hi
  | some r =>
    rw [hr] at hi
    exact hp.idOf?_name hr hi

/-- Two routines with one name are one, if the name is not empty. -/
theorem eq_of_nameOf_eq (hp : Coherent p) (hi : p.nameOf i ≠ "") (h : p.nameOf i = p.nameOf j) :
    i = j := by
  have hj := hp.idOf?_nameOf (h ▸ hi)
  rw [← h, hp.idOf?_nameOf hi] at hj
  exact Option.some.inj hj

/-- The marker with a number is found at that place. -/
theorem marker?_id (hp : Coherent p) (hm : m ∈ p.live) : p.marker? m.id = some m := by
  obtain ⟨i, hi⟩ := Program.mem_live_iff.mp hm
  rwa [hp.marker_id i m hi]

/-- The numbers of the markers left to a routine are their places. -/
theorem mem_markersOf_iff (hp : Coherent p) :
    i ∈ p.markersOf j ↔ ∃ m, p.marker? i = some m ∧ m.owner = j := by
  simp only [Program.markersOf, List.mem_map, List.mem_filter, decide_eq_true_eq]
  constructor
  · rintro ⟨m, ⟨hm, howner⟩, rfl⟩
    exact ⟨m, hp.marker?_id hm, howner⟩
  · rintro ⟨m, hm, howner⟩
    exact ⟨m, ⟨Program.mem_live_iff.mpr ⟨i, hm⟩, howner⟩, hp.marker_id i m hm⟩

/-- The markers that are left stand in the order of their numbers. -/
theorem pairwise_live (hp : Coherent p) : p.live.Pairwise fun m m' => m.id < m'.id := by
  rw [Program.live, List.pairwise_filterMap, List.pairwise_iff_getElem]
  rintro i j hi hj hij m hm m' hm'
  -- the number of a marker is the place at which it stands
  have hplace : ∀ {i : Nat} (hi : i < p.regions.length) {m : Marker},
      id p.regions[i] = some m → m.id = i := by
    intro i hi m hm
    refine hp.marker_id i m ?_
    rw [Program.marker?, List.getElem?_eq_getElem hi]
    exact Option.join_eq_some_iff.mpr (congrArg some hm)
  rw [hplace hi hm, hplace hj hm']
  exact hij

/-- Which markers are left tells in which order they stand. -/
theorem live_eq_of_mem_iff (hp : Coherent p) {ms : List Marker}
    (hms : ms.Pairwise fun m m' => m.id < m'.id) (h : ∀ m, m ∈ p.live ↔ m ∈ ms) : p.live = ms := by
  have hirrefl : Std.Irrefl fun m m' : Marker => m.id < m'.id := ⟨fun _ => Nat.lt_irrefl _⟩
  have hantisymm : Std.Antisymm fun m m' : Marker => m.id < m'.id :=
    ⟨fun _ _ hlt hgt => absurd hgt (Nat.lt_asymm hlt)⟩
  exact hp.pairwise_live.eq_of_mem_iff hms h

theorem nodup_map_id_live (hp : Coherent p) : (p.live.map Marker.id).Nodup := by
  rw [List.Nodup, List.pairwise_map]
  exact hp.pairwise_live.imp Nat.ne_of_lt

theorem nodup_markersOf (hp : Coherent p) (i : Nat) : (p.markersOf i).Nodup :=
  hp.nodup_map_id_live.sublist (List.filter_sublist.map _)

theorem owner_lt_of_mem (hp : Coherent p) (hm : m ∈ p.live) : m.owner < p.routines.length :=
  hp.owner_lt _ _ (hp.marker?_id hm)

/-- Two markers with one number are one. -/
theorem eq_of_id_eq (hp : Coherent p) (hm : m ∈ p.live) (hm' : m' ∈ p.live) (hid : m.id = m'.id) :
    m = m' := by
  have h := hp.marker?_id hm
  rw [hid, hp.marker?_id hm'] at h
  exact (Option.some.inj h).symm

end Coherent

/-- Coherence is kept by what keeps the skeleton and adds no marker. -/
theorem Evolves.coherent {p q : Program} (h : Evolves p q) (hp : Coherent p) : Coherent q where
  routine_id i r hr := by
    obtain ⟨r', hr', hid, -⟩ := Program.exists_routine?_of_skeleton h.skeleton hr
    rw [← hid, hp.routine_id i r' hr']
  call_id i c hc := hp.call_id i c (Program.calls_eq_of_skeleton h.skeleton ▸ hc)
  marker_id i m hm := by
    obtain ⟨m', hm', hid, -⟩ := h.marker i m hm
    rw [← hid, hp.marker_id i m' hm']
  owner_lt i m hm := by
    obtain ⟨m', hm', -, howner⟩ := h.marker i m hm
    rw [← howner, Program.length_routines_eq_of_skeleton h.skeleton]
    exact hp.owner_lt i m' hm'
  owner_mono i j m m' hij hm hm' := by
    obtain ⟨n, hn, -, hown⟩ := h.marker i m hm
    obtain ⟨n', hn', -, hown'⟩ := h.marker j m' hm'
    rw [← hown, ← hown']
    exact hp.owner_mono i j n n' hij hn hn'
  idOf?_iff name i := by
    -- the routines of the two programs have the same names, in both directions
    have hback := fun r => Program.exists_routine?_of_skeleton (i := i) (r := r) h.skeleton
    have hforth := fun r => Program.exists_routine?_of_skeleton (i := i) (r := r) h.skeleton.symm
    rw [Program.idOf?_eq_of_skeleton h.skeleton, hp.idOf?_iff]
    constructor
    · rintro ⟨hne, r, hr, hname⟩
      obtain ⟨r', hr', -, heq⟩ := hforth r hr
      exact ⟨hne, r', hr', heq.trans hname⟩
    · rintro ⟨hne, r, hr, hname⟩
      obtain ⟨r', hr', -, heq⟩ := hback r hr
      exact ⟨hne, r', hr', heq.trans hname⟩

theorem Coherent.of_regions_eq {p q : Program} (hp : Coherent p)
    (hskeleton : q.skeleton = p.skeleton) (hregions : q.regions = p.regions) : Coherent q :=
  (Evolves.of_regions_eq hskeleton hregions).coherent hp

theorem Coherent.receive {p : Program} {v : Position} {i : Nat} {s : TemplateSet}
    (hp : Coherent p) : Coherent (p.receive v i s) :=
  hp.of_regions_eq Program.skeleton_receive Program.regions_receive

/-! ## Promoting a marker -/

section Promotion

variable {p : Program} {i : Nat} {m : Marker} {ms : List Marker}

/-- Promoting at a place consumes the marker with that number and no other. -/
theorem Coherent.mem_live_promote (hp : Coherent p) :
    m ∈ (p.promote i).1.live ↔ m ∈ p.live ∧ m.id ≠ i := by
  have hq : Coherent (p.promote i).1 := (Evolves.promote p i).coherent hp
  constructor
  · intro h
    have hm := hq.marker?_id h
    rw [Program.marker?_promote] at hm
    split at hm
    · simp at hm
    · rename_i hne
      exact ⟨Program.mem_live_iff.mpr ⟨_, hm⟩, Ne.symm hne⟩
  · rintro ⟨h, hne⟩
    refine Program.mem_live_iff.mpr ⟨m.id, ?_⟩
    rw [Program.marker?_promote, if_neg (Ne.symm hne), hp.marker?_id h]

/-- Promoting the first marker leaves the others. -/
theorem Coherent.live_promote (hp : Coherent p) (hlive : p.live = m :: ms) :
    (p.promote m.id).1.live = ms := by
  have hsorted := hp.pairwise_live
  rw [hlive, List.pairwise_cons] at hsorted
  refine ((Evolves.promote p m.id).coherent hp).live_eq_of_mem_iff hsorted.2 fun m' => ?_
  rw [hp.mem_live_promote, hlive, List.mem_cons]
  constructor
  · rintro ⟨rfl | hm', hne⟩
    · exact absurd rfl hne
    · exact hm'
  · exact fun hm' => ⟨Or.inr hm', Nat.ne_of_gt (hsorted.1 m' hm')⟩

end Promotion

/-! ## Programs of documents -/

section Lowering

variable {d : Document} {p : Program} {k i : Nat} {name : String} {routines : List Document.Routine}

/-- No name is repeated if and only if the names that are not empty are all different. -/
theorem firstRepeated_eq_none_iff {seen names : List String} :
    Program.firstRepeated seen names = none ↔
      (names.filter (· ≠ "")).Nodup ∧ ∀ n ∈ names, n ≠ "" → n ∉ seen := by
  induction names generalizing seen with
  | nil => simp [Program.firstRepeated]
  | cons n names ih =>
    rw [Program.firstRepeated]
    by_cases hn : n = ""
    · subst hn
      simp [ih]
      grind
    · by_cases hseen : n ∈ seen
      · simp [hn, hseen]
      · simp [hn, hseen, ih]
        grind

/-- In a table whose keys are all different, an entry is what its key is found to stand for. -/
theorem lookup_eq_some_iff_mem {table : List (String × Nat)} (h : (table.map Prod.fst).Nodup) :
    table.lookup name = some i ↔ (name, i) ∈ table := by
  rw [List.lookup_eq_some_iff]
  constructor
  · rintro ⟨before, after, rfl, -⟩
    simp
  · intro hmem
    obtain ⟨before, after, rfl⟩ := List.append_of_mem hmem
    refine ⟨before, after, rfl, fun e he => ?_⟩
    rw [List.map_append, List.map_cons, List.nodup_append] at h
    simpa using (h.2.2 e.1 (List.mem_map_of_mem he) name List.mem_cons_self).symm

theorem mem_namesFrom_iff :
    (name, i) ∈ Program.namesFrom k routines ↔
      name ≠ "" ∧ ∃ j r, routines[j]? = some r ∧ r.name = name ∧ i = k + j := by
  induction routines generalizing k with
  | nil => simp [Program.namesFrom]
  | cons r routines ih =>
    -- an entry is of the first routine, or of the rest with its places moved by one
    have hsplit : (∃ j r', (r :: routines)[j]? = some r' ∧ r'.name = name ∧ i = k + j) ↔
        (r.name = name ∧ i = k) ∨
          ∃ j r', routines[j]? = some r' ∧ r'.name = name ∧ i = k + 1 + j := by
      constructor
      · rintro ⟨j, r', hr', hname, hi⟩
        cases j with
        | zero =>
          obtain rfl := Option.some.inj hr'
          exact Or.inl ⟨hname, by simpa using hi⟩
        | succ j => exact Or.inr ⟨j, r', hr', hname, by omega⟩
      · rintro (⟨hname, hi⟩ | ⟨j, r', hr', hname, hi⟩)
        · exact ⟨0, r, rfl, hname, by simpa using hi⟩
        · exact ⟨j + 1, r', hr', hname, by omega⟩
    rw [hsplit, Program.namesFrom]
    by_cases hempty : r.name = ""
    · rw [if_pos hempty, ih]
      grind
    · rw [if_neg hempty, List.mem_cons, ih, Prod.mk.injEq]
      grind

theorem map_fst_namesFrom :
    (Program.namesFrom k routines).map Prod.fst =
      (routines.map Document.Routine.name).filter (· ≠ "") := by
  induction routines generalizing k with
  | nil => rfl
  | cons r routines ih =>
    rw [Program.namesFrom]
    by_cases hempty : r.name = ""
    · simp [hempty, ih]
    · simp [hempty, ih]

theorem bounds_of_mem_ownedRegions {e : Nat × Document.Region}
    (he : e ∈ Program.ownedRegions k routines) : k ≤ e.1 ∧ e.1 < k + routines.length := by
  induction routines generalizing k with
  | nil => simp [Program.ownedRegions] at he
  | cons r routines ih =>
    rw [Program.ownedRegions, List.mem_append] at he
    rw [List.length_cons]
    rcases he with he | he
    · obtain ⟨region, _, rfl⟩ := List.mem_map.mp he
      simp
    · have := ih he
      omega

/-- The regions of a document are listed by their owners. -/
theorem pairwise_ownedRegions :
    (Program.ownedRegions k routines).Pairwise fun e e' => e.1 ≤ e'.1 := by
  induction routines generalizing k with
  | nil => exact List.Pairwise.nil
  | cons r routines ih =>
    rw [Program.ownedRegions, List.pairwise_append]
    refine ⟨?_, ih, fun e he e' he' => ?_⟩
    · rw [List.pairwise_map]
      exact List.pairwise_of_forall fun _ _ => Nat.le_refl _
    · obtain ⟨region, _, rfl⟩ := List.mem_map.mp he
      have := (bounds_of_mem_ownedRegions he').1
      simp only
      omega

/-- What a document that lowers consists of. -/
theorem ofDocument_eq_ok_iff :
    Program.ofDocument d = .ok p ↔
      Program.firstRepeated [] (d.routines.map Document.Routine.name) = none ∧
        p = { routines := d.routines.mapIdx Routine.ofDocument
              calls := d.calls.mapIdx Call.ofDocument
              templates := d.templates.map Template.ofDocument
              regions := (Program.ownedRegions 0 d.routines).mapIdx fun id owned =>
                some (Marker.ofDocument id owned.1 owned.2)
              names := Program.namesFrom 0 d.routines
              extra := d.extra } := by
  rw [Program.ofDocument]
  cases Program.firstRepeated [] (d.routines.map Document.Routine.name) with
  | some name => simp
  | none => simp [eq_comm]

theorem marker?_ofDocument (h : Program.ofDocument d = .ok p) {m : Marker} :
    p.marker? i = some m ↔ ∃ owned, (Program.ownedRegions 0 d.routines)[i]? = some owned ∧
      m = Marker.ofDocument i owned.1 owned.2 := by
  obtain ⟨-, rfl⟩ := ofDocument_eq_ok_iff.mp h
  simp only [Program.marker?, List.getElem?_mapIdx]
  cases (Program.ownedRegions 0 d.routines)[i]? with
  | none => simp
  | some owned => simp [eq_comm]

/-- The program of a document is coherent. -/
theorem coherent_ofDocument (h : Program.ofDocument d = .ok p) : Coherent p where
  routine_id i r hr := by
    obtain ⟨-, rfl⟩ := ofDocument_eq_ok_iff.mp h
    simp only [Program.routine?, List.getElem?_mapIdx, Option.map_eq_some_iff] at hr
    obtain ⟨_, _, rfl⟩ := hr
    rfl
  call_id i c hc := by
    obtain ⟨-, rfl⟩ := ofDocument_eq_ok_iff.mp h
    simp only [List.getElem?_mapIdx, Option.map_eq_some_iff] at hc
    obtain ⟨_, _, rfl⟩ := hc
    rfl
  marker_id i m hm := by
    obtain ⟨owned, _, rfl⟩ := (marker?_ofDocument h).mp hm
    rfl
  owner_lt i m hm := by
    obtain ⟨owned, hmem, rfl⟩ := (marker?_ofDocument h).mp hm
    obtain ⟨-, rfl⟩ := ofDocument_eq_ok_iff.mp h
    have := (bounds_of_mem_ownedRegions (List.mem_of_getElem? hmem)).2
    simpa [Marker.ofDocument] using this
  owner_mono i j m m' hij hm hm' := by
    obtain ⟨owned, hmem, rfl⟩ := (marker?_ofDocument h).mp hm
    obtain ⟨owned', hmem', rfl⟩ := (marker?_ofDocument h).mp hm'
    obtain ⟨hi, rfl⟩ := List.getElem?_eq_some_iff.mp hmem
    obtain ⟨hj, rfl⟩ := List.getElem?_eq_some_iff.mp hmem'
    -- regions are listed routine by routine
    rcases Nat.eq_or_lt_of_le hij with rfl | hlt
    · exact Nat.le_refl _
    · exact List.pairwise_iff_getElem.mp pairwise_ownedRegions i j hi hj hlt
  idOf?_iff name i := by
    obtain ⟨hrepeat, rfl⟩ := ofDocument_eq_ok_iff.mp h
    -- a document with a repeated name does not lower, so each key of the table stands once
    have hnodup := (firstRepeated_eq_none_iff.mp hrepeat).1
    rw [← map_fst_namesFrom (k := 0)] at hnodup
    rw [Program.idOf?, lookup_eq_some_iff_mem hnodup, mem_namesFrom_iff]
    simp only [Program.routine?, List.getElem?_mapIdx, Option.map_eq_some_iff, Nat.zero_add]
    constructor
    · rintro ⟨hne, j, r, hr, hname, rfl⟩
      exact ⟨hne, _, ⟨r, hr, rfl⟩, hname⟩
    · rintro ⟨hne, _, ⟨r, hr, rfl⟩, hname⟩
      exact ⟨hne, i, r, hr, hname, rfl⟩

end Lowering

end KernelGraph
