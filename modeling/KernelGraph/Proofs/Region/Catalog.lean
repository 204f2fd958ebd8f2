import KernelGraph.Proofs.Graph.Coherence
import KernelGraph.Region.Catalog

/-!
# Building a catalog

The catalog of a coherent program lists its markers in their order. It can be built if and only if
every marker belongs to a routine with a name and, on a GPU, no routine has two. Otherwise the first
marker that cannot be listed after those before it is reported.

## Main definitions

* `Catalog.of` — the catalog that lists some markers
* `Catalog.Listable` — markers can be listed together
* `Catalog.Refused` — a marker cannot be listed after others, and why

## Main results

* `build_eq_ok_iff` — when the catalog can be built, and what it is then
* `exists_refused_of_build`, `code_of_build_eq_error` — why it cannot be built
* `build_map_hostsKernel` — catalogs of programs whose markers have the same owners
-/

namespace KernelGraph

namespace Catalog

/-- The catalog that lists some markers of a program. -/
def of (p : Program) (ms : List Marker) : Catalog :=
  ⟨ms.map fun m => ⟨m.id, m.owner⟩, (ms.map fun m => (p.nameOf m.owner, m.id)).reverse⟩

/-- Markers can be listed together: each belongs to a routine with a name, and on a GPU no two
belong to one routine. -/
structure Listable (p : Program) (platform : Platform) (ms : List Marker) : Prop where
  named : ∀ m ∈ ms, ∃ r, p.routine? m.owner = some r ∧ r.name ≠ ""
  single : platform.isGpu → (ms.map Marker.owner).Nodup

/-- A marker cannot be listed after others: it belongs to no routine, or to one without a name, or
on a GPU to one of which a marker has been listed. -/
inductive Refused (p : Program) (platform : Platform) (before : List Marker) (m : Marker) :
    AnalysisError → Prop
  | detached (hr : p.routine? m.owner = none) :
    Refused p platform before m (.detachedRegion m.id)
  | unnamed (r : Routine) (hr : p.routine? m.owner = some r) (hname : r.name = "") :
    Refused p platform before m .unnamedKernel
  | repeated (r : Routine) (hr : p.routine? m.owner = some r) (hname : r.name ≠ "")
    (hgpu : platform.isGpu) (hlisted : m.owner ∈ before.map Marker.owner) :
    Refused p platform before m (.duplicateKernelRegion r.name)

variable {p : Program} {platform : Platform} {m : Marker} {before ms : List Marker} {c : Catalog}
  {name : String} {i : Nat} {e : AnalysisError}

theorem hostsKernel_of : (of p ms).hostsKernel name ↔ ∃ m ∈ ms, p.nameOf m.owner = name := by
  rw [hostsKernel, of, List.lookup_isSome_iff]
  constructor
  · rintro ⟨e, he, hname⟩
    obtain ⟨m, hm, rfl⟩ := List.mem_map.mp (List.mem_reverse.mp he)
    exact ⟨m, hm, (beq_iff_eq.mp hname).symm⟩
  · rintro ⟨m, hm, rfl⟩
    exact ⟨_, List.mem_reverse.mpr (List.mem_map_of_mem hm), by simp⟩

theorem exists_routine?_iff :
    (∃ r, p.routine? i = some r ∧ r.name ≠ "") ↔ p.nameOf i ≠ "" := by
  rw [Program.nameOf]
  cases p.routine? i with
  | none => simp
  | some r => simp

/-- The catalog knows routines by their names, and a name that is not empty is of one routine. -/
theorem hostsKernel_nameOf (hp : Coherent p) (hi : p.nameOf i ≠ "") :
    (of p before).hostsKernel (p.nameOf i) ↔ i ∈ before.map Marker.owner := by
  rw [hostsKernel_of, List.mem_map]
  refine exists_congr fun m => and_congr_right fun _ => ?_
  constructor
  · exact fun h => (hp.eq_of_nameOf_eq hi h.symm).symm
  · rintro rfl
    rfl

/-- Owners that are all different stay so with a marker of another routine. -/
theorem nodup_map_owner_concat (h : (before.map Marker.owner).Nodup)
    (hm : m.owner ∉ before.map Marker.owner) : ((before ++ [m]).map Marker.owner).Nodup := by
  rw [List.map_append, List.map_singleton, ← List.concat_eq_append]
  exact h.concat hm

/-- A marker is added if its routine has a name and, on a GPU, none of those listed is of that
routine. -/
theorem add_of_eq_ok_iff (hp : Coherent p) (hm : m ∈ p.live) :
    add p platform (of p before) m = .ok c ↔ p.nameOf m.owner ≠ "" ∧
      (platform.isGpu → m.owner ∉ before.map Marker.owner) ∧ c = of p (before ++ [m]) := by
  obtain ⟨r, hr⟩ := Option.isSome_iff_exists.mp
    (Program.isSome_routine?_iff.mpr (hp.owner_lt_of_mem hm))
  have hname : p.nameOf m.owner = r.name := by simp [Program.nameOf, hr]
  have hpush : (of p before).push m.id r = of p (before ++ [m]) := by
    simp [push, of, hname, hp.routine_id _ _ hr]
  have hhosts (hne : r.name ≠ "") :
      (of p before).hostsKernel r.name ↔ m.owner ∈ before.map Marker.owner :=
    hname ▸ hostsKernel_nameOf hp (hname.trans_ne hne)
  rw [add, hr, hname]
  dsimp only
  by_cases hne : r.name = ""
  · simp [hne]
  · by_cases hgpu : platform.isGpu
    · by_cases hmem : m.owner ∈ before.map Marker.owner
      · have hlisted : (of p before).hostsKernel r.name = true := (hhosts hne).mpr hmem
        simp only [hne, hgpu, hlisted, hmem, Bool.and_self, if_true, if_false, not_true,
          forall_const, false_and, and_false, reduceCtorEq]
      · have hlisted : (of p before).hostsKernel r.name = false := by
          rw [← Bool.not_eq_true, hhosts hne]
          exact hmem
        simp [hne, hgpu, hlisted, hmem, hpush, eq_comm]
    · simp [hne, hgpu, hpush, eq_comm]

theorem foldlM_add_of_eq_ok_iff (before : List Marker) (hp : Coherent p)
    (hms : ∀ m ∈ ms, m ∈ p.live)
    (hbefore : platform.isGpu → (before.map Marker.owner).Nodup) :
    ms.foldlM (add p platform) (of p before) = .ok c ↔ (∀ m ∈ ms, p.nameOf m.owner ≠ "") ∧
      (platform.isGpu → ((before ++ ms).map Marker.owner).Nodup) ∧ c = of p (before ++ ms) := by
  induction ms generalizing before with
  | nil =>
    simp only [List.foldlM_nil, pure, Except.pure, Except.ok.injEq, List.append_nil]
    exact ⟨fun h => ⟨by simp, hbefore, h.symm⟩, fun h => h.2.2.symm⟩
  | cons m ms ih =>
    have hrest : ∀ m ∈ ms, m ∈ p.live := fun m hm => hms m (List.mem_cons_of_mem _ hm)
    have hadd : ∀ c, add p platform (of p before) m = .ok c ↔ _ := fun c =>
      add_of_eq_ok_iff hp (hms m List.mem_cons_self)
    rw [List.foldlM_cons]
    by_cases hm : p.nameOf m.owner ≠ "" ∧ (platform.isGpu → m.owner ∉ before.map Marker.owner)
    · have hbefore' (hgpu : platform.isGpu) : ((before ++ [m]).map Marker.owner).Nodup :=
        nodup_map_owner_concat (hbefore hgpu) (hm.2 hgpu)
      rw [(hadd _).mpr ⟨hm.1, hm.2, rfl⟩]
      change ms.foldlM (add p platform) (of p (before ++ [m])) = .ok c ↔ _
      rw [ih _ hrest hbefore', List.append_assoc, List.singleton_append, List.forall_mem_cons,
        and_assoc, and_iff_right hm.1]
    -- the build stops at the first marker that is not added
    · have hfails : ∀ c, add p platform (of p before) m ≠ .ok c :=
        fun c h => hm ⟨((hadd c).mp h).1, ((hadd c).mp h).2.1⟩
      refine iff_of_false (fun h => ?_) fun h => ?_
      · cases hrun : add p platform (of p before) m with
        | ok c => exact hfails c hrun
        | error e => simp [hrun, bind, Except.bind] at h
      · refine hm ⟨h.1 m List.mem_cons_self, fun hgpu hmem => ?_⟩
        have hnodup := h.2.1 hgpu
        rw [List.map_append, List.nodup_append] at hnodup
        exact hnodup.2.2 _ hmem _ List.mem_cons_self rfl

/-- A marker that is not added is refused after those that are listed. -/
theorem refused_of_add (hp : Coherent p) (h : add p platform (of p before) m = .error e) :
    Refused p platform before m e := by
  rw [add] at h
  split at h
  · rename_i hr
    obtain rfl := Except.error.inj h
    exact .detached hr
  · rename_i r hr
    have hname : p.nameOf m.owner = r.name := by simp [Program.nameOf, hr]
    split at h
    · rename_i hempty
      obtain rfl := Except.error.inj h
      exact .unnamed r hr hempty
    · rename_i hne
      split at h
      · rename_i hlisted
        rw [Bool.and_eq_true, ← hname, hostsKernel_nameOf hp (hname.trans_ne hne)] at hlisted
        obtain rfl := Except.error.inj h
        exact .repeated r hr hne hlisted.1 hlisted.2
      · simp at h

/-- A marker that is added can be listed with those before it. -/
theorem Listable.concat (h : Listable p platform before) (hname : p.nameOf m.owner ≠ "")
    (hsingle : platform.isGpu → m.owner ∉ before.map Marker.owner) :
    Listable p platform (before ++ [m]) where
  named := by
    rw [List.forall_mem_append]
    exact ⟨h.named, by simpa using exists_routine?_iff.mpr hname⟩
  single hgpu := nodup_map_owner_concat (h.single hgpu) (hsingle hgpu)

/-- A build that stops has listed the markers before one that is refused. -/
theorem exists_refused_of_foldlM (before : List Marker) (hp : Coherent p)
    (hms : ∀ m ∈ ms, m ∈ p.live) (hbefore : Listable p platform before)
    (h : ms.foldlM (add p platform) (of p before) = .error e) :
    ∃ first m after, ms = first ++ m :: after ∧ Listable p platform (before ++ first) ∧
      Refused p platform (before ++ first) m e := by
  induction ms generalizing before with
  | nil => simp [pure, Except.pure] at h
  | cons m ms ih =>
    rw [List.foldlM_cons] at h
    cases hadd : add p platform (of p before) m with
    | error e' =>
      rw [hadd] at h
      obtain rfl : e' = e := Except.error.inj h
      rw [← List.append_nil before] at hadd hbefore
      exact ⟨[], m, ms, rfl, hbefore, refused_of_add hp hadd⟩
    | ok c =>
      obtain ⟨hname, hsingle, rfl⟩ := (add_of_eq_ok_iff hp (hms m List.mem_cons_self)).mp hadd
      rw [hadd] at h
      obtain ⟨first, m', after, rfl, hfirst, hrefused⟩ :=
        ih (before ++ [m]) (fun m' hm' => hms m' (List.mem_cons_of_mem _ hm'))
          (hbefore.concat hname hsingle) h
      rw [List.append_assoc, List.singleton_append] at hfirst hrefused
      exact ⟨m :: first, m', after, rfl, hfirst, hrefused⟩

/-- When the catalog of a program can be built, and what it is then. -/
theorem build_eq_ok_iff (hp : Coherent p) :
    build p platform = .ok c ↔ (∀ m ∈ p.live, p.nameOf m.owner ≠ "") ∧
      (platform.isGpu → (p.live.map Marker.owner).Nodup) ∧ c = of p p.live :=
  foldlM_add_of_eq_ok_iff [] hp (fun _ hm => hm) (by simp)

/-- If the catalog cannot be built, a marker is refused after those before it. -/
theorem exists_refused_of_build (hp : Coherent p) (h : build p platform = .error e) :
    ∃ before m after, p.live = before ++ m :: after ∧ Listable p platform before ∧
      Refused p platform before m e :=
  exists_refused_of_foldlM [] hp (fun _ hm => hm) ⟨by simp, by simp⟩ h

/-- If the catalog cannot be built, a routine has no name, or it has been listed. -/
theorem code_of_build_eq_error (hp : Coherent p) (h : build p platform = .error e) :
    e.code = .unnamedKernel ∨ e.code = .duplicateKernelRegion := by
  obtain ⟨before, m, after, hlive, -, hrefused⟩ := exists_refused_of_build hp h
  cases hrefused with
  | detached hr =>
    -- the markers of a coherent program belong to routines
    have hm : m ∈ p.live := hlive ▸ List.mem_append_right before List.mem_cons_self
    have hsome := Program.isSome_routine?_iff.mpr (hp.owner_lt_of_mem hm)
    simp [hr] at hsome
  | unnamed => exact Or.inl rfl
  | repeated => exact Or.inr rfl

/-! ## Catalogs of programs with the same routines -/

theorem hostsKernel_push (c : Catalog) (region : Nat) (r : Routine) :
    (c.push region r).hostsKernel name = (name == r.name || c.hostsKernel name) := by
  rw [hostsKernel, push, List.lookup_cons]
  cases name == r.name <;> rfl

section Same

variable {q : Program} {c' : Catalog} {m' : Marker} {ms' : List Marker}
  (hroutine : ∀ i, q.routine? i = p.routine? i)

include hroutine

/-- What becomes known about names, or the error, depends on the owner of a marker only. -/
theorem add_map_hostsKernel (platform : Platform) (hm : (p.routine? m.owner).isSome)
    (howner : m'.owner = m.owner) (hc : c'.hostsKernel = c.hostsKernel) :
    (add q platform c' m').map hostsKernel = (add p platform c m).map hostsKernel := by
  obtain ⟨r, hr⟩ := Option.isSome_iff_exists.mp hm
  have hpush : (c'.push m'.id r).hostsKernel = (c.push m.id r).hostsKernel := by
    funext name
    rw [hostsKernel_push, hostsKernel_push, hc]
  rw [add, add, howner, hroutine, hr]
  dsimp only
  rw [hc]
  split
  · rfl
  · split
    · rfl
    · exact congrArg Except.ok hpush

theorem foldlM_add_map_hostsKernel (hms : ∀ m ∈ ms, (p.routine? m.owner).isSome)
    (howners : ms'.map Marker.owner = ms.map Marker.owner)
    (hc : c'.hostsKernel = c.hostsKernel) :
    (ms'.foldlM (add q platform) c').map hostsKernel =
      (ms.foldlM (add p platform) c).map hostsKernel := by
  induction ms generalizing ms' c c' with
  | nil =>
    rw [List.map_eq_nil_iff.mp howners]
    exact congrArg Except.ok hc
  | cons m ms ih =>
    obtain ⟨m', rest, rfl, howner, hrest⟩ := List.map_eq_cons_iff.mp howners
    have hadd := add_map_hostsKernel hroutine platform (hms m List.mem_cons_self) howner hc
    rw [List.foldlM_cons, List.foldlM_cons]
    rcases hq : add q platform c' m' with e' | after' <;>
      rcases hp : add p platform c m with e | after <;> rw [hq, hp] at hadd
    · exact congrArg Except.error (Except.error.inj hadd)
    · cases hadd
    · cases hadd
    · exact ih (fun m hm => hms m (List.mem_cons_of_mem _ hm)) hrest (Except.ok.inj hadd)

/-- The catalogs of two programs whose markers have the same owners know the same names, or cannot
be built for the same reason. -/
theorem build_map_hostsKernel (platform : Platform) (hp : Coherent p)
    (howners : q.live.map Marker.owner = p.live.map Marker.owner) :
    (build q platform).map hostsKernel = (build p platform).map hostsKernel := by
  refine foldlM_add_map_hostsKernel hroutine (fun m hm => ?_) howners rfl
  exact Program.isSome_routine?_iff.mpr (hp.owner_lt_of_mem hm)

end Same

end Catalog

end KernelGraph
