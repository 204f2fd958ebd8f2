import KernelGraph.Proofs.Analysis.Kernels

/-!
# The positions that an analysis gives

An analysis puts the kernels `within`, their outer routines `outside` and their inner ones `inside`,
and leaves every other routine where it is. It succeeds if and only if its regions are well formed,
no routine is two of these, and each has a position that it may leave.

## Main results

* `position_analyse` — the position of every routine after an analysis that succeeds
* `exists_analyse_eq_ok_iff` — when an analysis succeeds
-/

namespace KernelGraph

open Relation

namespace Program

variable {d : Document} {p : Program} {platform : Platform} {m : Marker} {v : Position} {i k : Nat}
  {report : Report}

/-! ## What the kernels demand -/

theorem mem_hosts_iff :
    k ∈ p.hosts platform ↔ ∃ m ∈ (p.narrow platform).live, m.owner = k := by
  simp only [hosts, Set.mem_ofPred_eq, mem_live_narrow, survives_iff]
  constructor
  · rintro ⟨m, hm, ⟨m', hkept⟩, rfl⟩
    exact ⟨m', ⟨m, hm, hkept⟩, (kept?_eq_some hkept).2.1⟩
  · rintro ⟨m', ⟨m, hm, hkept⟩, rfl⟩
    exact ⟨m, hm, ⟨m', hkept⟩, (kept?_eq_some hkept).2.1.symm⟩

/-- The routines of which the kernels demand a position. -/
def demanded (p : Program) (platform : Platform) : Position → Set Nat
  | .within => p.hosts platform
  | .outside => p.outer platform
  | .inside => p.inner platform
  | .unset => ∅

theorem mem_demanded_iff :
    i ∈ p.demanded platform v ↔ ∃ k ∈ p.hosts platform, p.Demands k v i := by
  cases v <;> simp [demanded, Demands, outer, inner]

theorem demandedBy_iff :
    (p.narrow platform).DemandedBy (p.narrow platform).live v i ↔ i ∈ p.demanded platform v := by
  rw [mem_demanded_iff, demandedBy_eq_of_skeleton (skeleton_narrow p platform), DemandedBy]
  constructor
  · rintro ⟨m, hm, hdemands⟩
    exact ⟨m.owner, mem_hosts_iff.mpr ⟨m, hm, rfl⟩, hdemands⟩
  · rintro ⟨k, hk, hdemands⟩
    obtain ⟨m, hm, rfl⟩ := mem_hosts_iff.mp hk
    exact ⟨m, hm, hdemands⟩

/-- The kernels, their outer and their inner routines are all different. -/
def Apart (p : Program) (platform : Platform) : Prop :=
  Disjoint (p.hosts platform) (p.outer platform) ∧
    Disjoint (p.hosts platform) (p.inner platform) ∧
      Disjoint (p.outer platform) (p.inner platform)

/-- Every routine that is to be given a position has it already, or has none. -/
def Free (p : Program) (routines : Set Nat) (v : Position) : Prop :=
  ∀ i ∈ routines, ∀ r, p.routine? i = some r → r.position = .unset ∨ r.position = v

theorem apart_iff : p.Apart platform ↔
    ∀ i v w, i ∈ p.demanded platform v → i ∈ p.demanded platform w → v = w := by
  simp only [Apart, Set.disjoint_left]
  constructor
  · rintro ⟨hko, hki, hoi⟩ i v w hv hw
    -- of two different demands, one of the three sets is disjoint from the other
    cases v <;> cases w <;> first | rfl | simp only [demanded] at hv hw; grind
  · intro h
    refine ⟨fun i hi hj => ?_, fun i hi hj => ?_, fun i hi hj => ?_⟩
    · simpa using h i .within .outside hi hj
    · simpa using h i .within .inside hi hj
    · simpa using h i .outside .inside hi hj

theorem free_iff {routines : Set Nat} :
    p.Free routines v ↔ ∀ i ∈ routines, p.CanTake v i := by
  refine forall₂_congr fun i _ => ?_
  simp only [CanTake, position?, Option.map_eq_some_iff, Position.accepts_iff]
  constructor
  · rintro h u ⟨r, hr, rfl⟩
    exact h r hr
  · exact fun h r hr => h _ ⟨r, hr, rfl⟩

/-- The demands of all kernels can be met if these and what surrounds them are all different, and
none has another position. -/
theorem settles_iff : p.Settles (fun v i => i ∈ p.demanded platform v) ↔
    p.Apart platform ∧ p.Free (p.hosts platform) .within ∧ p.Free (p.outer platform) .outside ∧
      p.Free (p.inner platform) .inside := by
  rw [Settles, apart_iff, free_iff, free_iff, free_iff]
  refine and_congr_right fun _ => ⟨fun h => ⟨h .within, h .outside, h .inside⟩, ?_⟩
  rintro ⟨hkernels, houter, hinner⟩ v i hi
  cases v with
  | unset => exact absurd hi (Set.notMem_empty i)
  | within => exact hkernels i hi
  | inside => exact hinner i hi
  | outside => exact houter i hi

theorem settles_of_analysable (h : p.Analysable platform) :
    p.Settles fun v i => i ∈ p.demanded platform v :=
  (settles_congr fun _ _ => demandedBy_iff).mp h.treatable.2

theorem Analysable.apart (h : p.Analysable platform) : p.Apart platform :=
  (settles_iff.mp (settles_of_analysable h)).1

/-- An analysis that succeeds has met the demands of all kernels. -/
theorem settled_analysed (hp : Coherent p) (h : p.Analysable platform) :
    Settled p (fun v i => i ∈ p.demanded platform v) (p.analysed platform) := by
  have hq := coherent_narrow hp platform
  have hend := settled_foldl_treat hq (fun _ hm => hm) hq.nodup_map_id_live h.treatable
  have hall := hend.congr fun _ _ => demandedBy_iff
  exact ⟨hall.met, hall.left⟩

/-! ## The positions after an analysis -/

/-- After an analysis that succeeds, the kernels, their outer and their inner routines are all
different, no marker is left, the kernels are `within`, their outer routines `outside`, their inner
ones `inside`, and every other routine has the position that it had. -/
theorem position_analyse (h : ofDocument d = .ok p)
    (hok : (analyse platform p).result = .ok report) :
    p.Apart platform ∧ (analyse platform p).program.live = [] ∧
      (∀ i ∈ p.hosts platform, (analyse platform p).program.position? i = some .within) ∧
      (∀ i ∈ p.outer platform, (analyse platform p).program.position? i = some .outside) ∧
      (∀ i ∈ p.inner platform, (analyse platform p).program.position? i = some .inside) ∧
      ∀ i, i ∉ p.hosts platform → i ∉ p.outer platform → i ∉ p.inner platform →
        (analyse platform p).program.position? i = p.position? i := by
  have hp := coherent_ofDocument h
  obtain ⟨hanalysable, hprogram⟩ := analysable_of_analyse hp hok
  have hsettled := settled_analysed hp hanalysable
  rw [hprogram]
  refine ⟨hanalysable.apart, live_analysed hp, fun i hi => hsettled.met .within i hi,
    fun i hi => hsettled.met .outside i hi, fun i hi => hsettled.met .inside i hi,
    fun i hkernel houter hinner => hsettled.left i ?_⟩
  intro v hv
  cases v with
  | unset => exact hv
  | within => exact hkernel hv
  | inside => exact hinner hv
  | outside => exact houter hv

/-- `main` calls a kernel, which calls a `leaf` from inside its region; the leaf calls itself, and
something unknown. -/
def chain : Document where
  routines :=
    [⟨"main", .unset, [], none, []⟩, ⟨"kernel", .unset, [⟨["t"], []⟩], none, []⟩,
      ⟨"leaf", .unset, [], none, []⟩]
  calls :=
    [⟨"main", "kernel", none, []⟩, ⟨"kernel", "leaf", some "surround", []⟩,
      ⟨"leaf", "leaf", none, []⟩, ⟨"leaf", "unknown", none, []⟩]
  templates := [⟨"t", [], []⟩]
  extra := []

theorem position_analyse_chain : ∃ p report, ofDocument chain = .ok p ∧
    (analyse .cpu p).result = .ok report ∧ p.Apart .cpu ∧ (analyse .cpu p).program.live = [] ∧
      (∀ i ∈ p.hosts .cpu, (analyse .cpu p).program.position? i = some .within) ∧
      (∀ i ∈ p.outer .cpu, (analyse .cpu p).program.position? i = some .outside) ∧
      (∀ i ∈ p.inner .cpu, (analyse .cpu p).program.position? i = some .inside) ∧
      ∀ i, i ∉ p.hosts .cpu → i ∉ p.outer .cpu → i ∉ p.inner .cpu →
        (analyse .cpu p).program.position? i = p.position? i := by
  refine ⟨_, ⟨1, 2, []⟩, rfl, ?analysed, position_analyse (d := chain) rfl ?analysed⟩
  decide +kernel

/-! ## When an analysis succeeds -/

/-- Narrowing leaves no two markers of one routine if no two survivors belong to one. -/
theorem nodup_map_owner_narrow (hp : Coherent p) :
    ((p.narrow platform).live.map Marker.owner).Nodup ↔
      ∀ m ∈ p.live, ∀ m' ∈ p.live, p.Survives platform m → p.Survives platform m' →
        m.owner = m'.owner → m = m' := by
  have hnodup : (p.narrow platform).live.Nodup :=
    (coherent_narrow hp platform).nodup_map_id_live.of_map _
  rw [List.nodup_map_iff_inj_on hnodup]
  constructor
  · intro h m hm m' hm' hsurvives hsurvives' howner
    obtain ⟨n, hn⟩ := survives_iff.mp hsurvives
    obtain ⟨n', hn'⟩ := survives_iff.mp hsurvives'
    have hown : n.owner = n'.owner := by
      rw [(kept?_eq_some hn).2.1, (kept?_eq_some hn').2.1, howner]
    obtain rfl := h n (mem_live_narrow.mpr ⟨m, hm, hn⟩) n' (mem_live_narrow.mpr ⟨m', hm', hn'⟩) hown
    -- what is kept of a marker has its number
    exact hp.eq_of_id_eq hm hm' ((kept?_eq_some hn).1.symm.trans (kept?_eq_some hn').1)
  · intro h n hn n' hn' howner
    obtain ⟨m, hm, hkept⟩ := mem_live_narrow.mp hn
    obtain ⟨m', hm', hkept'⟩ := mem_live_narrow.mp hn'
    have hown : m.owner = m'.owner := by
      rw [← (kept?_eq_some hkept).2.1, ← (kept?_eq_some hkept').2.1, howner]
    obtain rfl := h m hm m' hm' (survives_iff.mpr ⟨n, hkept⟩) (survives_iff.mpr ⟨n', hkept'⟩) hown
    exact Option.some.inj (hkept.symm.trans hkept')

/-- Narrowing leaves no marker without templates if there was none. -/
theorem forall_live_narrow_not_isEmpty :
    (∀ m ∈ (p.narrow platform).live, ¬ m.templates.isEmpty) ↔
      ∀ m ∈ p.live, ¬ m.templates.isEmpty := by
  constructor
  · intro h m hm hempty
    exact h m (mem_live_narrow.mpr ⟨m, hm, kept?_of_isEmpty hempty⟩) hempty
  · intro h n hn hempty
    obtain ⟨m, hm, hkept⟩ := mem_live_narrow.mp hn
    exact h m hm (isEmpty_of_kept? hkept hempty)

theorem forall_live_narrow_owner (holds : Nat → Prop) :
    (∀ m ∈ (p.narrow platform).live, holds m.owner) ↔
      ∀ m ∈ p.live, p.Survives platform m → holds m.owner := by
  constructor
  · intro h m hm hsurvives
    obtain ⟨n, hn⟩ := survives_iff.mp hsurvives
    exact (kept?_eq_some hn).2.1 ▸ h n (mem_live_narrow.mpr ⟨m, hm, hn⟩)
  · intro h n hn
    obtain ⟨m, hm, hkept⟩ := mem_live_narrow.mp hn
    exact (kept?_eq_some hkept).2.1 ▸ h m hm (survives_iff.mpr ⟨n, hkept⟩)

theorem treatable_narrow_iff : (p.narrow platform).Treatable (p.narrow platform).live ↔
    (∀ m ∈ p.live, ¬ m.templates.isEmpty) ∧ p.Settles fun v i => i ∈ p.demanded platform v := by
  rw [Treatable, forall_live_narrow_not_isEmpty, settles_congr fun _ _ => demandedBy_iff]
  rfl

theorem analysable_iff : p.Analysable platform ↔
    (∀ m ∈ p.live, ∀ id ∈ m.templates, (p.template? id).isSome) ∧
      (∀ m ∈ (p.narrow platform).live, p.nameOf m.owner ≠ "") ∧
      (platform.isGpu → ((p.narrow platform).live.map Marker.owner).Nodup) ∧
      (p.narrow platform).Treatable (p.narrow platform).live :=
  ⟨fun h => ⟨h.known, h.named, h.single, h.treatable⟩, fun h => ⟨h.1, h.2.1, h.2.2.1, h.2.2.2⟩⟩

/-- An analysis succeeds if and only if every id of a marker has a template, every surviving marker
belongs to a routine with a name and on a GPU to one of its own, no marker is without templates, the
kernels, their outer and their inner routines are all different, and each of them has no position
yet or the one that it is to be given. -/
theorem exists_analyse_eq_ok_iff (h : ofDocument d = .ok p) (platform : Platform) :
    (∃ report, (analyse platform p).result = .ok report) ↔
      (∀ m ∈ p.live, ∀ id ∈ m.templates, ∃ t ∈ p.templates, t.id = id) ∧
      (∀ m ∈ p.live, p.Survives platform m → p.nameOf m.owner ≠ "") ∧
      (platform.isGpu → ∀ m ∈ p.live, ∀ m' ∈ p.live, p.Survives platform m →
        p.Survives platform m' → m.owner = m'.owner → m = m') ∧
      (∀ m ∈ p.live, ¬ m.templates.isEmpty) ∧
      p.Apart platform ∧ p.Free (p.hosts platform) .within ∧
        p.Free (p.outer platform) .outside ∧ p.Free (p.inner platform) .inside := by
  have hp := coherent_ofDocument h
  rw [exists_analyse_eq_ok hp, analysable_iff, nodup_map_owner_narrow hp, treatable_narrow_iff,
    settles_iff]
  simp only [isSome_template?_iff]
  rw [forall_live_narrow_owner fun i => p.nameOf i ≠ ""]

theorem exists_analyse_chain_eq_ok_iff : ∃ p, ofDocument chain = .ok p ∧
    ((∃ report, (analyse .cpu p).result = .ok report) ↔
      (∀ m ∈ p.live, ∀ id ∈ m.templates, ∃ t ∈ p.templates, t.id = id) ∧
      (∀ m ∈ p.live, p.Survives .cpu m → p.nameOf m.owner ≠ "") ∧
      (Platform.cpu.isGpu → ∀ m ∈ p.live, ∀ m' ∈ p.live, p.Survives .cpu m →
        p.Survives .cpu m' → m.owner = m'.owner → m = m') ∧
      (∀ m ∈ p.live, ¬ m.templates.isEmpty) ∧
      p.Apart .cpu ∧ p.Free (p.hosts .cpu) .within ∧ p.Free (p.outer .cpu) .outside ∧
        p.Free (p.inner .cpu) .inside) :=
  ⟨_, rfl, exists_analyse_eq_ok_iff (d := chain) rfl .cpu⟩

end Program

end KernelGraph
