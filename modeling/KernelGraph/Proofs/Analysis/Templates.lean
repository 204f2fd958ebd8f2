import KernelGraph.Proofs.Analysis.Flow
import KernelGraph.Proofs.Analysis.Positions

/-!
# The templates that an analysis hands on

After an analysis that succeeds, a routine has what was in its container and the templates of all
kernels that it is related to. What was in the container of another routine may reach it too, along
the trails of the kernels; but a trail passes over a routine that it has been to, so this need not
reach all of the routines that it could.

## Main definitions

* `Program.templatesFor` — the templates of a kernel that apply to the platform
* `Program.Gathers` — an id is among what an analysis collects for a routine

## Main results

* `mem_activeOf_analyse` — the templates of every routine, if only kernels had any before
* `activeOf_subset_of_analysable` — callers then have all that their outer callees have, and inner
  callees all that their callers have
* `activeOf_subset_iff` — when they have this in general
-/

namespace KernelGraph

open Relation

namespace Program

/-- The ids of a routine's markers whose template applies to the platform. -/
def templatesFor (p : Program) (platform : Platform) (k : Nat) : Set String :=
  {id | ∃ m ∈ p.live, m.owner = k ∧ id ∈ m.templates ∧ p.applies platform id}

/-- An id is among what an analysis collects for a routine that is no kernel: the trails of the
kernels lead to it from a routine that had the id, or it is related to a kernel with the id. -/
def Gathers (p : Program) (platform : Platform) (c : Nat) (id : String) : Prop :=
  (∃ u ∉ p.hosts platform,
      Passes (p.trails (p.narrow platform).live) u c ∧ id ∈ p.activeOf u) ∨
    ∃ k ∈ p.hosts platform, p.Related k c ∧ id ∈ p.templatesFor platform k

variable {d : Document} {p : Program} {platform : Platform} {m : Marker} {v : Position}
  {i k c u : Nat} {id : String} {report : Report}

/-! ## A run over all kernels -/

theorem pending_narrow (hp : Coherent p) (h : p.Analysable platform) :
    Pending (p.narrow platform) (p.hosts platform) (p.narrow platform).live where
  coherent := coherent_narrow hp platform
  mem_live _ := Iff.rfl
  nodup := (coherent_narrow hp platform).nodup_map_id_live
  treatable := h.treatable
  owner_mem m hm := mem_hosts_iff.mpr ⟨m, hm, rfl⟩
  within m hm v k hk hdemands := by
    obtain ⟨m', hm', rfl⟩ := mem_hosts_iff.mp hk
    exact h.treatable.2.1 _ v .within ⟨m, hm, hdemands⟩ ⟨m', hm', rfl⟩

theorem exists_live_narrow_iff (holds : Nat → Prop) :
    (∃ m ∈ (p.narrow platform).live, holds m.owner ∧ id ∈ m.templates) ↔
      ∃ k ∈ p.hosts platform, holds k ∧ id ∈ p.templatesFor platform k := by
  constructor
  · rintro ⟨n, hn, hholds, hid⟩
    obtain ⟨m, hm, hkept⟩ := mem_live_narrow.mp hn
    obtain ⟨-, howner, -, htemplates⟩ := kept?_eq_some hkept
    exact ⟨n.owner, mem_hosts_iff.mpr ⟨n, hn, rfl⟩, hholds, m, hm, howner.symm,
      (htemplates id).mp hid⟩
  · rintro ⟨k, -, hholds, m, hm, rfl, hid, happlies⟩
    obtain ⟨n, hkept⟩ := survives_iff.mp (Or.inr ⟨id, hid, happlies⟩)
    obtain ⟨-, howner, -, htemplates⟩ := kept?_eq_some hkept
    exact ⟨n, mem_live_narrow.mpr ⟨m, hm, hkept⟩, howner ▸ hholds,
      (htemplates id).mpr ⟨hid, happlies⟩⟩

/-- After an analysis, a routine that is no kernel has what the analysis collects for it. -/
theorem mem_activeOf_analysed (hp : Coherent p) (h : p.Analysable platform)
    (hc : c ∉ p.hosts platform) :
    id ∈ (p.analysed platform).activeOf c ↔ p.Gathers platform c id := by
  have hskeleton := skeleton_narrow p platform
  rw [analysed, (pending_narrow hp h).mem_activeOf_foldl_treat hc, trails_eq_of_skeleton hskeleton]
  simp only [related_iff_of_skeleton hskeleton]
  rw [exists_live_narrow_iff fun k => p.Related k c]
  rfl

/-- After an analysis, a kernel has what it had, and the templates of its markers. -/
theorem mem_activeOf_analysed_kernel (hp : Coherent p) (h : p.Analysable platform)
    (hk : k ∈ p.hosts platform) :
    id ∈ (p.analysed platform).activeOf k ↔ id ∈ p.activeOf k ∨ id ∈ p.templatesFor platform k := by
  rw [analysed, (pending_narrow hp h).mem_activeOf_foldl_treat_kernel hk,
    exists_live_narrow_iff fun j => j = k]
  refine or_congr_right ?_
  constructor
  · rintro ⟨_, _, rfl, hid⟩
    exact hid
  · exact fun hid => ⟨k, hk, rfl, hid⟩

/-- A kernel is related to no other kernel, if an analysis succeeds. -/
theorem eq_of_related (hp : Coherent p) (h : p.Analysable platform) {j : Nat}
    (hk : k ∈ p.hosts platform) (hj : j ∈ p.hosts platform) (hrelated : p.Related k j) :
    j = k := by
  obtain ⟨m, hm, rfl⟩ := mem_hosts_iff.mp hk
  obtain ⟨v, hv⟩ := related_iff.mp hrelated
  obtain rfl := (pending_narrow hp h).within m hm v j hj hv
  exact hv

/-- After an analysis, a routine has a template if it had it, or if it is related to a kernel with
it, provided that only kernels had templates before. -/
theorem mem_activeOf_analysed_iff (hp : Coherent p) (h : p.Analysable platform)
    (hempty : ∀ u ∉ p.hosts platform, ∀ id, id ∉ p.activeOf u) :
    id ∈ (p.analysed platform).activeOf c ↔ id ∈ p.activeOf c ∨
      ∃ k ∈ p.hosts platform, p.Related k c ∧ id ∈ p.templatesFor platform k := by
  by_cases hc : c ∈ p.hosts platform
  · rw [mem_activeOf_analysed_kernel hp h hc]
    refine or_congr_right ⟨fun hid => ⟨c, hc, Or.inl rfl, hid⟩, ?_⟩
    rintro ⟨k, hk, hrelated, hid⟩
    rwa [eq_of_related hp h hk hc hrelated]
  · rw [mem_activeOf_analysed hp h hc]
    constructor
    · rintro (⟨u, hu, _, hid⟩ | hid)
      · exact absurd hid (hempty u hu id)
      · exact Or.inr hid
    · rintro (hid | hid)
      · exact absurd hid (hempty c hc id)
      · exact Or.inr hid

theorem exists_mem_templatesFor (h : p.Analysable platform) (hk : k ∈ p.hosts platform) :
    ∃ id, id ∈ p.templatesFor platform k := by
  obtain ⟨m, hm, howner⟩ := mem_hosts_iff.mp hk
  have hsome := h.treatable.1 m hm
  rw [TemplateSet.isEmpty_iff] at hsome
  push Not at hsome
  obtain ⟨id, hid⟩ := hsome
  obtain ⟨_, _, rfl, hmem⟩ := (exists_live_narrow_iff (· = k)).mp ⟨m, hm, howner, hid⟩
  exact ⟨id, hmem⟩

theorem isSome_container?_of_mem (hid : id ∈ p.activeOf c) : (p.container? c).isSome := by
  rw [activeOf] at hid
  cases hc : p.container? c with
  | none => simp [hc] at hid
  | some container => rfl

/-- After an analysis, a routine that had no container has one if it is related to a kernel. -/
theorem isSome_container?_analysed (hp : Coherent p) (h : p.Analysable platform)
    (hnone : p.container? c = none) :
    ((p.analysed platform).container? c).isSome ↔ ∃ k ∈ p.hosts platform, p.Related k c := by
  constructor
  · intro hsome
    by_contra hnot
    have hunrelated : ∀ m ∈ (p.narrow platform).live, ¬ (p.narrow platform).Related m.owner c := by
      intro m hm hrelated
      exact hnot ⟨m.owner, mem_hosts_iff.mpr ⟨m, hm, rfl⟩,
        (related_iff_of_skeleton (skeleton_narrow p platform)).mp hrelated⟩
    have hsame := (pending_narrow hp h).container?_foldl_treat hunrelated
    have hbefore : (p.narrow platform).container? c = none := hnone
    rw [analysed, hsame, hbefore] at hsome
    simp at hsome
  · rintro ⟨k, hk, hrelated⟩
    -- a kernel has at least one template to give
    obtain ⟨id, hid⟩ := exists_mem_templatesFor h hk
    have hmem : id ∈ (p.analysed platform).activeOf c := by
      by_cases hc : c ∈ p.hosts platform
      · rw [mem_activeOf_analysed_kernel hp h hc, eq_of_related hp h hk hc hrelated]
        exact Or.inr hid
      · rw [mem_activeOf_analysed hp h hc]
        exact Or.inr ⟨k, hk, hrelated, hid⟩
    exact isSome_container?_of_mem hmem

/-- After an analysis that succeeds, if only kernels had templates before, each routine has those
that it had and those of all kernels that it is related to, each listed once; and a routine without
a container has been given one if and only if it is related to a kernel. -/
theorem mem_activeOf_analyse (h : ofDocument d = .ok p)
    (hempty : ∀ u ∉ p.hosts platform, ∀ id, id ∉ p.activeOf u)
    (hok : (analyse platform p).result = .ok report) (i : Nat) :
    (∀ id, id ∈ (analyse platform p).program.activeOf i ↔ id ∈ p.activeOf i ∨
      ∃ k ∈ p.hosts platform, p.Related k i ∧ id ∈ p.templatesFor platform k) ∧
    ((analyse platform p).program.activeOf i).ids.Nodup ∧
    (p.container? i = none → (((analyse platform p).program.container? i).isSome ↔
      ∃ k ∈ p.hosts platform, p.Related k i)) := by
  have hp := coherent_ofDocument h
  obtain ⟨hanalysable, hprogram⟩ := analysable_of_analyse hp hok
  rw [hprogram]
  exact ⟨fun _ => mem_activeOf_analysed_iff hp hanalysable hempty, TemplateSet.nodup _,
    isSome_container?_analysed hp hanalysable⟩

theorem notMem_activeOf (h : ∀ r ∈ p.routines, r.active = none) : id ∉ p.activeOf i := by
  have hnone : p.container? i = none := by
    rw [container?, Option.bind_eq_none_iff]
    exact fun r hr => h r (List.mem_of_getElem? hr)
  rw [activeOf, hnone]
  exact TemplateSet.not_mem_empty

theorem mem_activeOf_analyse_chain : ∃ p report, ofDocument chain = .ok p ∧
    (∀ u ∉ p.hosts .cpu, ∀ id, id ∉ p.activeOf u) ∧ (analyse .cpu p).result = .ok report ∧
    (∀ id, id ∈ (analyse .cpu p).program.activeOf 2 ↔ id ∈ p.activeOf 2 ∨
      ∃ k ∈ p.hosts .cpu, p.Related k 2 ∧ id ∈ p.templatesFor .cpu k) ∧
    ((analyse .cpu p).program.activeOf 2).ids.Nodup ∧
    (p.container? 2 = none → (((analyse .cpu p).program.container? 2).isSome ↔
      ∃ k ∈ p.hosts .cpu, p.Related k 2)) := by
  refine ⟨_, ⟨1, 2, []⟩, rfl, ?empty, ?analysed,
    mem_activeOf_analyse (d := chain) rfl ?empty ?analysed 2⟩
  · exact fun _ _ _ => notMem_activeOf (by decide)
  · decide +kernel

/-! ## Which templates go on -/

section Direction

variable {direction : Direction}

theorem demanded_of_mem_targets (hdirection : direction ≠ .kernel)
    (hi : i ∈ p.demanded platform direction.position) (hc : c ∈ p.targets direction false i) :
    c ∈ p.demanded platform direction.position := by
  obtain ⟨k, hk, hdemands⟩ := mem_demanded_iff.mp hi
  obtain ⟨b, hb, hpath⟩ := (demands_iff hdirection).mp hdemands
  exact mem_demanded_iff.mpr ⟨k, hk, (demands_iff hdirection).mpr ⟨b, hb, hpath.tail hc⟩⟩

/-- What is related to a kernel leads on, in its direction, to what is related to it. -/
theorem related_of_mem_targets (hdirection : direction ≠ .kernel) (hapart : p.Apart platform)
    (hk : k ∈ p.hosts platform) (hi : i ∈ p.demanded platform direction.position)
    (hrelated : p.Related k i) (hc : c ∈ p.targets direction false i) : p.Related k c := by
  obtain ⟨v, hv⟩ := related_iff.mp hrelated
  obtain rfl := apart_iff.mp hapart i v _ (mem_demanded_iff.mpr ⟨k, hk, hv⟩) hi
  obtain ⟨b, hb, hpath⟩ := (demands_iff hdirection).mp hv
  exact related_iff.mpr ⟨_, (demands_iff hdirection).mpr ⟨b, hb, hpath.tail hc⟩⟩

theorem notMem_hosts_of_demanded (hdirection : direction ≠ .kernel) (hapart : p.Apart platform)
    (hi : i ∈ p.demanded platform direction.position) : i ∉ p.hosts platform := by
  intro hk
  have hwithin := apart_iff.mp hapart i _ .within hi hk
  cases direction <;> simp_all [Direction.position]

/-- An edge that leads to a routine demanded in a direction leaves a kernel, or a routine demanded
in that direction from which it leads on. -/
theorem mem_hosts_or_demanded (hp : Coherent p) (hdirection : direction ≠ .kernel)
    (hapart : p.Apart platform) {e : Nat × Nat}
    (he : e ∈ p.trails (p.narrow platform).live)
    (hend : e.2 ∈ p.demanded platform direction.position) :
    e.1 ∈ p.hosts platform ∨
      e.1 ∈ p.demanded platform direction.position ∧ e.2 ∈ p.targets direction false e.1 := by
  obtain ⟨m, hm, he⟩ := List.mem_flatMap.mp he
  have hk := mem_hosts_iff.mpr ⟨m, hm, rfl⟩
  have hstep : ∀ other, other ≠ .kernel → e ∈ p.trail other true m.owner →
      e.1 ∈ p.hosts platform ∨
        e.1 ∈ p.demanded platform direction.position ∧ e.2 ∈ p.targets direction false e.1 := by
    intro other hother he
    have hsame := apart_iff.mp hapart e.2 _ _ (mem_demanded_iff.mpr
      ⟨m.owner, hk, demands_of_mem_trail hp hother (List.mem_map_of_mem he)⟩) hend
    -- an edge of a trail in the other direction would lead to a routine asked for two positions
    obtain rfl : other = direction := by
      cases other <;> cases direction <;> simp_all [Direction.position]
    rcases origin_or_discovered_of_mem_trail he with ⟨howner, -⟩ | ⟨hfound, hnext⟩
    · exact Or.inl (howner ▸ hk)
    · have hdemands := demands_of_mem_trail hp hother hfound
      exact Or.inr ⟨mem_demanded_iff.mpr ⟨m.owner, hk, hdemands⟩, hnext⟩
  rcases List.mem_append.mp he with he | he
  · exact hstep .upward (by simp) he
  · exact hstep .downward (by simp) he

/-- What gets to a routine demanded in a direction, from one that is no kernel, comes in that
direction. -/
theorem demanded_of_path (hp : Coherent p) (hdirection : direction ≠ .kernel)
    (h : p.Analysable platform) (hu : u ∉ p.hosts platform)
    (hpath : ReflTransGen (fun a b => (a, b) ∈ p.trails (p.narrow platform).live) u c)
    (hc : c ∈ p.demanded platform direction.position) :
    u ∈ p.demanded platform direction.position ∧
      ReflTransGen (fun a b => b ∈ p.targets direction false a) u c := by
  induction hpath with
  | refl => exact ⟨hc, .refl⟩
  | @tail b c hpath hstep ih =>
    rcases mem_hosts_or_demanded hp hdirection h.apart hstep hc with hkernel | ⟨hb, hnext⟩
    · -- no trail leads to a kernel, and the path does not begin at one
      rcases hpath.cases_tail with rfl | ⟨a, _, hlast⟩
      · exact absurd hkernel hu
      · obtain ⟨m, hm, he⟩ := List.mem_flatMap.mp hlast
        rw [← kernelTrail_eq_of_skeleton (skeleton_narrow p platform)] at he
        exact absurd hkernel ((pending_narrow hp h).notMem_of_mem_kernelTrail hm he)
    · obtain ⟨hdemanded, hpath'⟩ := ih hb
      exact ⟨hdemanded, hpath'.tail hnext⟩

/-- What the routines demanded in a direction have goes on in that direction if and only if what
they had in their containers does. -/
theorem forall_targets_iff (direction : Direction) (hp : Coherent p)
    (hdirection : direction ≠ .kernel) (h : p.Analysable platform) :
    (∀ m ∈ p.demanded platform direction.position, ∀ c ∈ p.targets direction false m,
      ∀ id ∈ (p.analysed platform).activeOf m, id ∈ (p.analysed platform).activeOf c) ↔
    ∀ m ∈ p.demanded platform direction.position, ∀ c,
      TransGen (fun a b => b ∈ p.targets direction false a) m c →
        ∀ id ∈ p.activeOf m, p.Gathers platform c id := by
  have hfinal : ∀ {i}, i ∈ p.demanded platform direction.position → ∀ {id},
      (id ∈ (p.analysed platform).activeOf i ↔ p.Gathers platform i id) := fun hi _ =>
    mem_activeOf_analysed hp h (notMem_hosts_of_demanded hdirection h.apart hi)
  constructor
  · intro hclosed m hm c hpath id hid
    -- along the path every routine has the id in the end, as closure says of each step
    have hstart : id ∈ (p.analysed platform).activeOf m := by
      refine (hfinal hm).mpr (Or.inl ⟨m, ?_, .refl _ _, hid⟩)
      exact notMem_hosts_of_demanded hdirection h.apart hm
    have hend : c ∈ p.demanded platform direction.position ∧
        id ∈ (p.analysed platform).activeOf c := by
      induction hpath with
      | single hstep =>
        exact ⟨demanded_of_mem_targets hdirection hm hstep, hclosed m hm _ hstep id hstart⟩
      | tail _ hstep ih =>
        exact ⟨demanded_of_mem_targets hdirection ih.1 hstep, hclosed _ ih.1 _ hstep id ih.2⟩
    exact (hfinal hend.1).mp hend.2
  · intro hgathers m hm c hc id hid
    refine (hfinal (demanded_of_mem_targets hdirection hm hc)).mpr ?_
    -- the id was in a container, from which a path leads here and on, or it is of a kernel
    rcases (hfinal hm).mp hid with ⟨u, hu, hpass, hid⟩ | ⟨k, hk, hrelated, hid⟩
    · obtain ⟨hdemanded, hpath⟩ := demanded_of_path hp hdirection h hu hpass.reflTransGen hm
      exact hgathers u hdemanded c (.tail' hpath hc) id hid
    · exact Or.inr ⟨k, hk, related_of_mem_targets hdirection h.apart hk hm hrelated hc, hid⟩

end Direction

theorem forall_callers_iff (hp : Coherent p) (h : p.Analysable platform) :
    (∀ m ∈ p.outer platform, ∀ c, p.Calls c m →
      ∀ id ∈ (p.analysed platform).activeOf m, id ∈ (p.analysed platform).activeOf c) ↔
    ∀ m ∈ p.outer platform, ∀ c, TransGen p.Calls c m →
      ∀ id ∈ p.activeOf m, p.Gathers platform c id := by
  have hiff := forall_targets_iff .upward hp (by simp) h
  -- upwards a path runs against the calls
  have hswap : ∀ m c, TransGen (fun a b => p.Calls b a) m c ↔ TransGen p.Calls c m :=
    fun _ _ => transGen_swap
  simp only [mem_targets_upward, hswap] at hiff
  exact hiff

theorem forall_callees_iff (hp : Coherent p) (h : p.Analysable platform) :
    (∀ m ∈ p.inner platform, ∀ c, p.Calls m c →
      ∀ id ∈ (p.analysed platform).activeOf m, id ∈ (p.analysed platform).activeOf c) ↔
    ∀ m ∈ p.inner platform, ∀ c, TransGen p.Calls m c →
      ∀ id ∈ p.activeOf m, p.Gathers platform c id := by
  have hiff := forall_targets_iff .downward hp (by simp) h
  simp only [mem_targets_downward] at hiff
  exact hiff

/-- If only kernels had templates before, every caller of an outer routine has all templates that
this has, and every callee of an inner routine all that this has. -/
theorem activeOf_subset_of_analysable (hp : Coherent p) (h : p.Analysable platform)
    (hempty : ∀ u ∉ p.hosts platform, ∀ id, id ∉ p.activeOf u) :
    (∀ m ∈ p.outer platform, ∀ c, p.Calls c m →
      ∀ id ∈ (p.analysed platform).activeOf m, id ∈ (p.analysed platform).activeOf c) ∧
    ∀ m ∈ p.inner platform, ∀ c, p.Calls m c →
      ∀ id ∈ (p.analysed platform).activeOf m, id ∈ (p.analysed platform).activeOf c := by
  obtain ⟨houter, hinner, -⟩ := h.apart
  constructor
  · refine (forall_callers_iff hp h).mpr fun m hm c _ id hid => absurd hid (hempty m ?_ id)
    exact Set.disjoint_right.mp houter hm
  · refine (forall_callees_iff hp h).mpr fun m hm c _ id hid => absurd hid (hempty m ?_ id)
    exact Set.disjoint_right.mp hinner hm

/-- After an analysis that succeeds, every caller of an outer routine has all templates that this
has, and every callee of an inner routine has all that this has, if and only if the ids that were in
the containers of outer routines are collected for all their callers, direct or not, and those of
inner routines for all their callees. -/
theorem activeOf_subset_iff (h : ofDocument d = .ok p)
    (hok : (analyse platform p).result = .ok report) :
    ((∀ m ∈ p.outer platform, ∀ c, p.Calls c m →
        ∀ id ∈ (analyse platform p).program.activeOf m,
          id ∈ (analyse platform p).program.activeOf c) ∧
      ∀ m ∈ p.inner platform, ∀ c, p.Calls m c →
        ∀ id ∈ (analyse platform p).program.activeOf m,
          id ∈ (analyse platform p).program.activeOf c) ↔
    (∀ m ∈ p.outer platform, ∀ c, TransGen p.Calls c m →
        ∀ id ∈ p.activeOf m, p.Gathers platform c id) ∧
      ∀ m ∈ p.inner platform, ∀ c, TransGen p.Calls m c →
        ∀ id ∈ p.activeOf m, p.Gathers platform c id := by
  have hp := coherent_ofDocument h
  obtain ⟨hanalysable, hprogram⟩ := analysable_of_analyse hp hok
  rw [hprogram]
  exact and_congr (forall_callers_iff hp hanalysable) (forall_callees_iff hp hanalysable)

theorem activeOf_subset_iff_chain : ∃ p report, ofDocument chain = .ok p ∧
    (analyse .cpu p).result = .ok report ∧
    (((∀ m ∈ p.outer .cpu, ∀ c, p.Calls c m →
        ∀ id ∈ (analyse .cpu p).program.activeOf m, id ∈ (analyse .cpu p).program.activeOf c) ∧
      ∀ m ∈ p.inner .cpu, ∀ c, p.Calls m c →
        ∀ id ∈ (analyse .cpu p).program.activeOf m, id ∈ (analyse .cpu p).program.activeOf c) ↔
    (∀ m ∈ p.outer .cpu, ∀ c, TransGen p.Calls c m →
        ∀ id ∈ p.activeOf m, p.Gathers .cpu c id) ∧
      ∀ m ∈ p.inner .cpu, ∀ c, TransGen p.Calls m c →
        ∀ id ∈ p.activeOf m, p.Gathers .cpu c id) := by
  refine ⟨_, ⟨1, 2, []⟩, rfl, ?analysed, activeOf_subset_iff (d := chain) rfl ?analysed⟩
  decide +kernel

/-- `top` calls a kernel through `left` and through `right`, which has a template of its own. -/
def diamond : Document where
  routines :=
    [⟨"kernel", .unset, [⟨["t"], []⟩], none, []⟩, ⟨"left", .unset, [], none, []⟩,
      ⟨"right", .unset, [], some ⟨["u"], []⟩, []⟩, ⟨"top", .unset, [], none, []⟩]
  calls :=
    [⟨"left", "kernel", none, []⟩, ⟨"right", "kernel", none, []⟩, ⟨"top", "left", none, []⟩,
      ⟨"top", "right", none, []⟩]
  templates := [⟨"t", [], []⟩]
  extra := []

/-- A caller need not have what its outer callee has: `top` is reached through `left` first, and
when `right` has been reached, `top` is passed over. -/
theorem not_activeOf_subset_diamond : ∃ p report, ofDocument diamond = .ok p ∧
    (analyse .cpu p).result = .ok report ∧
    ¬ ((∀ m ∈ p.outer .cpu, ∀ c, p.Calls c m →
        ∀ id ∈ (analyse .cpu p).program.activeOf m, id ∈ (analyse .cpu p).program.activeOf c) ∧
      ∀ m ∈ p.inner .cpu, ∀ c, p.Calls m c →
        ∀ id ∈ (analyse .cpu p).program.activeOf m, id ∈ (analyse .cpu p).program.activeOf c) := by
  refine ⟨_, ⟨1, 3, []⟩, rfl, by decide +kernel, fun hclosed => ?_⟩
  have htop := hclosed.1 2 ?outer 3 ⟨⟨3, "top", "right", none, []⟩, by decide⟩ "u"
    (by decide +kernel)
  · revert htop
    decide +kernel
  · refine ⟨0, ⟨⟨0, 0, .ofList ["t"], []⟩, by decide, Or.inr ⟨"t", by decide⟩, rfl⟩, .single ?_⟩
    exact ⟨⟨1, "right", "kernel", none, []⟩, by decide⟩

end Program

end KernelGraph
