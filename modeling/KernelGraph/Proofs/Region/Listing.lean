import KernelGraph.Proofs.Analysis.Operations
import KernelGraph.Proofs.Region.Catalog

/-!
# The catalog of a reachable program

Operations leave places without markers, and routines with fewer markers than before. The catalog
skips such places. It keeps a list and a table by name, which are filled together and agree: the
table knows the routines of the markers in the list, and the last marker of each.

## Main results

* `regionOf?_of` — the table finds the last marker of a name
* `build_performAll` — when the catalog of a reachable program can be built, what it is then, and
  which marker is in the way otherwise
-/

namespace KernelGraph

namespace Catalog

variable {p : Program} {platform : Platform} {ms : List Marker} {c : Catalog} {name : String}

/-- Looking up a name in a table made from a list finds the first of the list with that name. -/
theorem lookup_map {α β : Type} (l : List α) (f : α → String) (g : α → β) :
    (l.map fun a => (f a, g a)).lookup name = (l.find? fun a => f a = name).map g := by
  induction l with
  | nil => rfl
  | cons a l ih =>
    rw [List.map_cons, List.lookup_cons, List.find?_cons, ih]
    by_cases ha : f a = name
    · simp [ha]
    · have hother : (name == f a) = false := beq_eq_false_iff_ne.mpr (Ne.symm ha)
      simp [ha, hother]

/-- The table finds the last marker whose routine has the name. -/
theorem regionOf?_of : (of p ms).regionOf? name =
    (ms.filter fun m => p.nameOf m.owner = name).getLast?.map Marker.id := by
  rw [regionOf?, of, ← List.map_reverse, lookup_map, List.getLast?_filter]

/-- If all markers belong to routines with names, the table finds the last marker of the routine
with a name. -/
theorem regionOf?_of_live (hp : Coherent p) (hnamed : ∀ m ∈ p.live, p.nameOf m.owner ≠ "") :
    (of p p.live).regionOf? name = (p.idOf? name).bind fun i => (p.markersOf i).getLast? := by
  have hfound : ∀ m ∈ p.live, p.nameOf m.owner = name ↔ p.idOf? name = some m.owner := by
    intro m hm
    constructor
    · rintro rfl
      exact hp.idOf?_nameOf (hnamed m hm)
    · intro hid
      obtain ⟨-, r, hr, hname⟩ := (hp.idOf?_iff name m.owner).mp hid
      simp [Program.nameOf, hr, hname]
  rw [regionOf?_of]
  cases hid : p.idOf? name with
  | none =>
    have hnone : (p.live.filter fun m => p.nameOf m.owner = name) = [] :=
      List.filter_eq_nil_iff.mpr fun m hm => by simp [hfound m hm, hid]
    rw [hnone]
    rfl
  | some i =>
    have hsame : (p.live.filter fun m => p.nameOf m.owner = name) =
        p.live.filter (·.owner = i) :=
      List.filter_congr fun m hm => by simp [hfound m hm, hid, eq_comm]
    rw [hsame, Option.bind_some, Program.markersOf, List.getLast?_map]

theorem exists_build_eq_ok_iff (hp : Coherent p) :
    (∃ c, build p platform = .ok c) ↔ Listable p platform p.live := by
  constructor
  · rintro ⟨c, h⟩
    obtain ⟨hnamed, hsingle, -⟩ := (build_eq_ok_iff hp).mp h
    exact ⟨fun m hm => exists_routine?_iff.mpr (hnamed m hm), hsingle⟩
  · intro h
    exact ⟨_, (build_eq_ok_iff hp).mpr
      ⟨fun m hm => exists_routine?_iff.mp (h.named m hm), h.single, rfl⟩⟩

end Catalog

namespace Program

variable {d : Document} {p : Program}

/-- Whatever has been done to the program of a document, its catalog can be built if and only if
every marker left belongs to a routine with a name and, on a GPU, no routine has two. It then lists
these markers with their routines in the order of their places, knows the names of these routines
and no others, and finds the last marker of each. Otherwise it reports the first marker that cannot
be listed after those before it. -/
theorem build_performAll (h : ofDocument d = .ok p) (operations : List Operation)
    (platform : Platform) :
    let q := p.performAll operations
    ((∃ c, Catalog.build q platform = .ok c) ↔
      (∀ m ∈ q.live, ∃ r, q.routine? m.owner = some r ∧ r.name ≠ "") ∧
        (platform.isGpu → (q.live.map Marker.owner).Nodup)) ∧
    (∀ c, Catalog.build q platform = .ok c →
      c.entries = q.live.map (fun m => ⟨m.id, m.owner⟩) ∧
      (∀ name, c.hostsKernel name ↔
        ∃ m ∈ q.live, ∃ r, q.routine? m.owner = some r ∧ r.name = name) ∧
      ∀ name, c.regionOf? name = (q.idOf? name).bind fun i => (q.markersOf i).getLast?) ∧
    ∀ e, Catalog.build q platform = .error e → ∃ before m after, q.live = before ++ m :: after ∧
      Catalog.Listable q platform before ∧ Catalog.Refused q platform before m e := by
  have hq := coherent_performAll (coherent_ofDocument h) operations
  generalize p.performAll operations = q at hq
  refine ⟨?_, fun c hc => ?_, fun e => Catalog.exists_refused_of_build hq⟩
  · rw [Catalog.exists_build_eq_ok_iff hq]
    exact ⟨fun h => ⟨h.named, h.single⟩, fun h => ⟨h.1, h.2⟩⟩
  · obtain ⟨hnamed, -, rfl⟩ := (Catalog.build_eq_ok_iff hq).mp hc
    refine ⟨rfl, fun name => ?_, fun name => Catalog.regionOf?_of_live hq hnamed⟩
    rw [Catalog.hostsKernel_of]
    refine exists_congr fun m => and_congr_right fun hm => ?_
    obtain ⟨r, hr, -⟩ := Catalog.exists_routine?_iff.mpr (hnamed m hm)
    simp [nameOf, hr]

/-- `twin` has three regions, of which one is for the CPU, and a routine without a name has one. -/
def crowded : Document where
  routines :=
    [⟨"plain", .unset, [], none, []⟩,
      ⟨"twin", .unset, [⟨["g"], []⟩, ⟨["c"], []⟩, ⟨["g", "c"], []⟩], none, []⟩,
      ⟨"", .unset, [⟨["g"], []⟩], none, []⟩, ⟨"last", .unset, [⟨["g"], []⟩], none, []⟩]
  calls := []
  templates := [⟨"g", ["GPU"], []⟩, ⟨"c", ["CPU"], []⟩]
  extra := []

/-- When the second region of `twin` has been dropped and the one without a name has been promoted,
`twin` is found by its third region, and is in the way on a GPU. -/
theorem build_performAll_crowded : ∃ p, ofDocument crowded = .ok p ∧
    let q := p.performAll [.narrowAll .gpu, .promoteRoutine 2]
    (∃ c, Catalog.build q .cpu = .ok c ∧ c.entries.map CatalogEntry.region = [0, 2, 4] ∧
      c.regionOf? "twin" = some 2) ∧
    ∃ before m after, q.live = before ++ m :: after ∧ Catalog.Listable q .gpu before ∧
      Catalog.Refused q .gpu before m (.duplicateKernelRegion "twin") := by
  obtain ⟨p, hp, hlive, htwin, ⟨c, hc⟩, herror⟩ : ∃ p, ofDocument crowded = .ok p ∧
      (p.performAll [.narrowAll .gpu, .promoteRoutine 2]).live.map Marker.id = [0, 2, 4] ∧
      (((p.performAll [.narrowAll .gpu, .promoteRoutine 2]).idOf? "twin").bind fun i =>
        ((p.performAll [.narrowAll .gpu, .promoteRoutine 2]).markersOf i).getLast?) = some 2 ∧
      (∃ c, Catalog.build (p.performAll [.narrowAll .gpu, .promoteRoutine 2]) .cpu = .ok c) ∧
      Catalog.build (p.performAll [.narrowAll .gpu, .promoteRoutine 2]) .gpu =
        .error (.duplicateKernelRegion "twin") :=
    ⟨_, rfl, by decide +kernel, by decide +kernel, ⟨_, rfl⟩, by decide +kernel⟩
  obtain ⟨-, hbuilt, -⟩ := build_performAll hp [.narrowAll .gpu, .promoteRoutine 2] .cpu
  obtain ⟨-, -, hrefused⟩ := build_performAll hp [.narrowAll .gpu, .promoteRoutine 2] .gpu
  obtain ⟨hentries, -, hregion⟩ := hbuilt c hc
  refine ⟨p, hp, ⟨c, hc, ?_, (hregion "twin").trans htwin⟩, hrefused _ herror⟩
  rw [hentries, List.map_map]
  exact hlive

end Program

end KernelGraph
