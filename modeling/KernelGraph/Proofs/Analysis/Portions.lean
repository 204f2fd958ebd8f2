import KernelGraph.Proofs.Analysis.Templates
import KernelGraph.Proofs.Graph.Lowering

/-!
# Analyses of portions

The markers of a program can be divided between two by their owners. Each of the two then has a
portion of what an analysis of the whole program treats, and if the second is analysed where the
first one has been left, the two together come to what an analysis of the whole comes to.

## Main definitions

* `Program.Portion` — a program has those markers of another whose owners are chosen
* `Program.Formed` — what an analysis needs, besides that its demands can be met

## Main results

* `analysable_iff_of_portions` — when both portions can be analysed, one after the other
* `position?_analysed_of_portions`, `mem_activeOf_analysed_of_portions` — what they come to
-/

namespace KernelGraph

open Relation

namespace Program

/-- `q` has the skeleton of `p` and those of its markers whose owners are chosen, though perhaps
under other numbers. -/
structure Portion (p : Program) (chosen : Nat → Bool) (q : Program) : Prop where
  coherent : Coherent q
  skeleton : q.skeleton = p.skeleton
  holdings : q.live.map Marker.holding =
    (p.live.map Marker.holding).filter fun holding => chosen holding.1

/-- What an analysis needs in order to succeed, besides that the demands of its kernels can be
met. -/
structure Formed (p : Program) (platform : Platform) : Prop where
  known : ∀ m ∈ p.live, ∀ id ∈ m.templates, (p.template? id).isSome
  named : ∀ m ∈ (p.narrow platform).live, p.nameOf m.owner ≠ ""
  single : platform.isGpu → ((p.narrow platform).live.map Marker.owner).Nodup
  filled : ∀ m ∈ p.live, ¬ m.templates.isEmpty

variable {p q r : Program} {chosen : Nat → Bool} {platform : Platform} {m : Marker} {v : Position}
  {i k c : Nat} {id : String}

theorem formed_iff : p.Formed platform ↔
    (∀ m ∈ p.live, ∀ id ∈ m.templates, (p.template? id).isSome) ∧
      (∀ m ∈ (p.narrow platform).live, p.nameOf m.owner ≠ "") ∧
      (platform.isGpu → ((p.narrow platform).live.map Marker.owner).Nodup) ∧
      ∀ m ∈ p.live, ¬ m.templates.isEmpty :=
  ⟨fun h => ⟨h.known, h.named, h.single, h.filled⟩, fun h => ⟨h.1, h.2.1, h.2.2.1, h.2.2.2⟩⟩

/-- Where there have been no templates, a routine is given those of all kernels that it is related
to. -/
theorem mem_activeOf_analysed_of_none (hp : Coherent p) (h : p.Analysable platform)
    (hnone : ∀ i id, id ∉ p.activeOf i) : id ∈ (p.analysed platform).activeOf c ↔
      ∃ k ∈ p.hosts platform, p.Related k c ∧ id ∈ p.templatesFor platform k := by
  rw [mem_activeOf_analysed_iff hp h fun i _ => hnone i]
  exact or_iff_right (hnone c id)

theorem analysable_iff_formed : p.Analysable platform ↔
    p.Formed platform ∧ p.Settles fun v i => i ∈ p.demanded platform v := by
  rw [analysable_iff, treatable_narrow_iff]
  constructor
  · rintro ⟨hknown, hnamed, hsingle, hfilled, hsettles⟩
    exact ⟨⟨hknown, hnamed, hsingle, hfilled⟩, hsettles⟩
  · rintro ⟨⟨hknown, hnamed, hsingle, hfilled⟩, hsettles⟩
    exact ⟨hknown, hnamed, hsingle, hfilled, hsettles⟩

theorem ne_unset_of_mem_demanded (hi : i ∈ p.demanded platform v) : v ≠ .unset := by
  rintro rfl
  exact Set.notMem_empty i hi

/-! ## The markers of a portion -/

/-- What narrowing leaves of a marker with a holding. -/
def keptHolding? (p : Program) (platform : Platform) (holding : Nat × TemplateSet) :
    Option (Nat × TemplateSet) :=
  (p.kept? platform ⟨0, holding.1, holding.2, []⟩).map Marker.holding

theorem map_holding_kept? :
    (p.kept? platform m).map Marker.holding = p.keptHolding? platform m.holding := by
  by_cases hempty : m.templates.isEmpty
  · simp [keptHolding?, kept?, Marker.holding, hempty]
  · by_cases hkept : (m.templates.retain (p.applies platform)).isEmpty <;>
      simp [keptHolding?, kept?, Marker.holding, hempty, hkept]

theorem fst_of_keptHolding? {x y : Nat × TemplateSet} (h : p.keptHolding? platform x = some y) :
    y.1 = x.1 := by
  obtain ⟨m, hkept, rfl⟩ := Option.map_eq_some_iff.mp h
  exact (kept?_eq_some hkept).2.1

theorem map_holding_live_narrow : (p.narrow platform).live.map Marker.holding =
    (p.live.map Marker.holding).filterMap (p.keptHolding? platform) := by
  rw [live_narrow, List.map_filterMap, List.filterMap_map]
  exact List.filterMap_congr fun m _ => map_holding_kept?

namespace Portion

/-- What narrowing leaves of a portion is a portion of what it leaves. -/
theorem narrow (h : Portion p chosen q) (platform : Platform) :
    Portion (p.narrow platform) chosen (q.narrow platform) where
  coherent := coherent_narrow h.coherent platform
  skeleton := h.skeleton
  holdings := by
    have hkeep : q.keptHolding? platform = p.keptHolding? platform := by
      funext x
      rw [keptHolding?, keptHolding?, kept?_eq_of_skeleton h.skeleton]
    rw [map_holding_live_narrow, map_holding_live_narrow, h.holdings, hkeep, List.filterMap_filter,
      List.filter_filterMap]
    apply List.filterMap_congr
    intro x _
    cases hx : p.keptHolding? platform x with
    | none => simp
    | some y => rw [Option.filter_some, fst_of_keptHolding? hx]

/-- What holds of a marker of the portion holds of one of the whole, and the other way round. -/
theorem exists_live_iff (h : Portion p chosen q) (holds : Nat × TemplateSet → Prop) :
    (∃ m ∈ q.live, holds m.holding) ↔ ∃ m ∈ p.live, chosen m.owner ∧ holds m.holding := by
  have hmem : ∀ x, x ∈ q.live.map Marker.holding ↔
      x ∈ p.live.map Marker.holding ∧ chosen x.1 := by
    intro x
    rw [h.holdings, List.mem_filter]
  constructor
  · rintro ⟨m, hm, hholds⟩
    obtain ⟨hm', hchosen⟩ := (hmem m.holding).mp (List.mem_map_of_mem hm)
    obtain ⟨m', hm', heq⟩ := List.mem_map.mp hm'
    rw [← heq] at hchosen hholds
    exact ⟨m', hm', hchosen, hholds⟩
  · rintro ⟨m, hm, hchosen, hholds⟩
    obtain ⟨m', hm', heq⟩ := List.mem_map.mp
      ((hmem m.holding).mpr ⟨List.mem_map_of_mem hm, hchosen⟩)
    exact ⟨m', hm', heq ▸ hholds⟩

theorem mem_hosts_iff (h : Portion p chosen q) :
    k ∈ q.hosts platform ↔ k ∈ p.hosts platform ∧ chosen k := by
  rw [Program.mem_hosts_iff, Program.mem_hosts_iff]
  have hiff := (h.narrow platform).exists_live_iff fun holding => holding.1 = k
  simp only [Marker.holding] at hiff
  rw [hiff]
  constructor
  · rintro ⟨m, hm, hchosen, rfl⟩
    exact ⟨⟨m, hm, rfl⟩, hchosen⟩
  · rintro ⟨⟨m, hm, rfl⟩, hchosen⟩
    exact ⟨m, hm, hchosen, rfl⟩

theorem mem_templatesFor_iff (h : Portion p chosen q) :
    id ∈ q.templatesFor platform k ↔ id ∈ p.templatesFor platform k ∧ chosen k := by
  have happlies : q.applies platform id = p.applies platform id := by
    rw [applies, applies, template?_eq_of_skeleton h.skeleton]
  have hiff := h.exists_live_iff fun holding =>
    holding.1 = k ∧ id ∈ holding.2 ∧ p.applies platform id
  simp only [Marker.holding] at hiff
  simp only [templatesFor, Set.mem_ofPred_eq, happlies, hiff]
  constructor
  · rintro ⟨m, hm, hchosen, rfl, hid⟩
    exact ⟨⟨m, hm, rfl, hid⟩, hchosen⟩
  · rintro ⟨⟨m, hm, rfl, hid⟩, hchosen⟩
    exact ⟨m, hm, hchosen, rfl, hid⟩

/-- Kernels have in the portion the templates that they have in the whole. -/
theorem mem_templatesFor_iff_of_mem_hosts (h : Portion p chosen q) (hk : k ∈ q.hosts platform) :
    id ∈ q.templatesFor platform k ↔ id ∈ p.templatesFor platform k := by
  rw [h.mem_templatesFor_iff]
  exact and_iff_left (h.mem_hosts_iff.mp hk).2

theorem map_owner_live (h : Portion p chosen q) :
    q.live.map Marker.owner = (p.live.map Marker.owner).filter chosen := by
  have howner : ∀ x : Program, x.live.map Marker.owner =
      (x.live.map Marker.holding).map Prod.fst := by
    intro x
    rw [List.map_map]
    rfl
  rw [howner q, h.holdings, howner p]
  exact List.filter_map.symm

end Portion

/-! ## Trails of other kernels -/

/-- The trail of another kernel leads from what is related to a kernel to what is related to it. -/
theorem related_of_mem_kernelTrail (hp : Coherent p) (h : p.Analysable platform) {j : Nat}
    {e : Nat × Nat} (hk : k ∈ p.hosts platform) (hj : j ∈ p.hosts platform) (hne : j ≠ k)
    (hrelated : p.Related k e.1) (he : e ∈ p.kernelTrail j) : p.Related k e.2 := by
  have hstart : p.Related j e.1 := by
    rw [related_iff]
    rcases mem_kernelTrail_cases hp he with ⟨-, -, howner | hdemands⟩ | ⟨-, -, howner | hdemands⟩
    · exact ⟨.within, howner⟩
    · exact ⟨_, hdemands⟩
    · exact ⟨.within, howner⟩
    · exact ⟨_, hdemands⟩
  -- a kernel from which the trail led on would be both
  have hnot : e.1 ∉ p.hosts platform := fun hmem =>
    hne ((eq_of_related hp h hj hmem hstart).symm.trans (eq_of_related hp h hk hmem hrelated))
  have hskeleton := skeleton_narrow p platform
  obtain ⟨m, hm, rfl⟩ := mem_hosts_iff.mp hk
  obtain ⟨m', hm', rfl⟩ := mem_hosts_iff.mp hj
  rw [← related_iff_of_skeleton hskeleton] at hrelated ⊢
  rw [← kernelTrail_eq_of_skeleton hskeleton] at he
  exact (pending_narrow hp h).related_of_mem_trails hm hm' he hnot hrelated

/-! ## Two portions -/

section Both

variable (hq : Portion p chosen q) (hr : Portion p (fun k => !chosen k) r)

include hq hr

/-- What holds of all markers holds of all in both portions. -/
theorem forall_live_iff_of_portions (holds : Nat × TemplateSet → Prop) :
    (∀ m ∈ p.live, holds m.holding) ↔
      (∀ m ∈ q.live, holds m.holding) ∧ ∀ m ∈ r.live, holds m.holding := by
  have hmap : ∀ x : Program, (∀ m ∈ x.live, holds m.holding) ↔
      ∀ holding ∈ x.live.map Marker.holding, holds holding := fun x => List.forall_mem_map.symm
  rw [hmap p, hmap q, hmap r, hq.holdings, hr.holdings]
  simp only [List.mem_filter]
  constructor
  · exact fun h => ⟨fun x hx => h x hx.1, fun x hx => h x hx.1⟩
  · rintro ⟨hchosen, hother⟩ x hx
    cases hx' : chosen x.1 with
    | true => exact hchosen x ⟨hx, hx'⟩
    | false => exact hother x ⟨hx, by rw [hx']; rfl⟩

/-- The markers belong to different routines if those in both portions do. -/
theorem nodup_map_owner_iff_of_portions : (p.live.map Marker.owner).Nodup ↔
    (q.live.map Marker.owner).Nodup ∧ (r.live.map Marker.owner).Nodup := by
  rw [hq.map_owner_live, hr.map_owner_live]
  constructor
  · exact fun h => ⟨h.filter _, h.filter _⟩
  · simp only [List.nodup_iff_count_le_one]
    rintro ⟨hchosen, hother⟩ k
    -- an owner is counted in one of the two portions
    cases hk : chosen k with
    | true =>
      rw [← List.count_filter hk]
      exact hchosen k
    | false =>
      rw [← List.count_filter (p := fun k => !chosen k) (by rw [hk]; rfl)]
      exact hother k

theorem formed_iff_of_portions : p.Formed platform ↔ q.Formed platform ∧ r.Formed platform := by
  have hq' := hq.narrow platform
  have hr' := hr.narrow platform
  have hknown := forall_live_iff_of_portions hq hr fun x =>
    ∀ id ∈ x.2, (p.template? id).isSome
  have hnamed := forall_live_iff_of_portions hq' hr' fun x => p.nameOf x.1 ≠ ""
  have hsingle := nodup_map_owner_iff_of_portions hq' hr'
  have hfilled := forall_live_iff_of_portions hq hr fun x => ¬ x.2.isEmpty
  simp only [formed_iff, template?_eq_of_skeleton hq.skeleton, template?_eq_of_skeleton hr.skeleton,
    nameOf_eq_of_skeleton hq.skeleton, nameOf_eq_of_skeleton hr.skeleton]
  simp only [Marker.holding] at hknown hnamed hfilled
  rw [hknown, hnamed, hsingle, hfilled]
  constructor
  · rintro ⟨⟨hknown, hknown'⟩, ⟨hnamed, hnamed'⟩, hsingle, ⟨hfilled, hfilled'⟩⟩
    exact ⟨⟨hknown, hnamed, fun hgpu => (hsingle hgpu).1, hfilled⟩,
      ⟨hknown', hnamed', fun hgpu => (hsingle hgpu).2, hfilled'⟩⟩
  · rintro ⟨⟨hknown, hnamed, hsingle, hfilled⟩, ⟨hknown', hnamed', hsingle', hfilled'⟩⟩
    exact ⟨⟨hknown, hknown'⟩, ⟨hnamed, hnamed'⟩, fun hgpu => ⟨hsingle hgpu, hsingle' hgpu⟩,
      ⟨hfilled, hfilled'⟩⟩

theorem mem_hosts_iff_of_portions :
    k ∈ p.hosts platform ↔ k ∈ q.hosts platform ∨ k ∈ r.hosts platform := by
  rw [hq.mem_hosts_iff, hr.mem_hosts_iff]
  cases chosen k <;> simp

theorem mem_demanded_iff_of_portions :
    i ∈ p.demanded platform v ↔ i ∈ q.demanded platform v ∨ i ∈ r.demanded platform v := by
  simp only [mem_demanded_iff, demands_iff_of_skeleton hq.skeleton,
    demands_iff_of_skeleton hr.skeleton, mem_hosts_iff_of_portions hq hr, or_and_right, exists_or]

/-- The trails of the second portion lead from what is related to a kernel of the first to what is
related to it. -/
theorem related_of_passes_of_portions (hp : Coherent p) (h : p.Analysable platform) {u : Nat}
    (hk : k ∈ q.hosts platform) (hrelated : p.Related k u)
    (hpass : Passes (r.trails (r.narrow platform).live) u c) : p.Related k c := by
  obtain ⟨hk, hchosen⟩ := hq.mem_hosts_iff.mp hk
  have hpath := hpass.reflTransGen
  clear hpass
  induction hpath with
  | refl => exact hrelated
  | tail _ hstep ih =>
    obtain ⟨m, hm, he⟩ := List.mem_flatMap.mp hstep
    rw [kernelTrail_eq_of_skeleton hr.skeleton] at he
    obtain ⟨hj, hother⟩ := hr.mem_hosts_iff.mp (mem_hosts_iff.mpr ⟨m, hm, rfl⟩)
    refine related_of_mem_kernelTrail hp h hk hj ?_ ih he
    rintro rfl
    simp [hchosen] at hother

/-! ## One after the other -/

variable (hstart : ∀ i, q.position? i = p.position? i)
  (hnext : ∀ i, r.position? i = (q.analysed platform).position? i)

include hstart hnext

/-- If the second portion is analysed where the first one has been left, the whole can be analysed
if and only if both portions can. -/
theorem analysable_iff_of_portions :
    p.Analysable platform ↔ q.Analysable platform ∧ r.Analysable platform := by
  -- once the first portion has been analysed, the demands of the second are left to be met
  have hsettles : q.Analysable platform →
      (p.Settles (fun v i => i ∈ p.demanded platform v) ↔
        p.Settles (fun v i => i ∈ q.demanded platform v) ∧
          r.Settles fun v i => i ∈ r.demanded platform v) := by
    intro h
    have hmet := (settled_analysed hq.coherent h).of_position?_left hstart
    rw [settles_congr fun v i => mem_demanded_iff_of_portions hq hr,
      settles_or_iff (fun v i => ne_unset_of_mem_demanded) fun _ => hmet,
      settles_iff_of_position? hnext]
  constructor
  · intro h
    obtain ⟨hformed, hmet⟩ := analysable_iff_formed.mp h
    obtain ⟨hformed, hformed'⟩ := (formed_iff_of_portions hq hr).mp hformed
    have hfirst : q.Analysable platform := by
      refine analysable_iff_formed.mpr ⟨hformed, (settles_iff_of_position? hstart).mpr ?_⟩
      exact hmet.mono fun v i hi => (mem_demanded_iff_of_portions hq hr).mpr (Or.inl hi)
    exact ⟨hfirst, analysable_iff_formed.mpr ⟨hformed', ((hsettles hfirst).mp hmet).2⟩⟩
  · rintro ⟨hfirst, hsecond⟩
    obtain ⟨hformed, hmet⟩ := analysable_iff_formed.mp hfirst
    obtain ⟨hformed', hmet'⟩ := analysable_iff_formed.mp hsecond
    refine analysable_iff_formed.mpr ⟨(formed_iff_of_portions hq hr).mpr ⟨hformed, hformed'⟩, ?_⟩
    exact (hsettles hfirst).mpr ⟨(settles_iff_of_position? hstart).mp hmet, hmet'⟩

/-- The two portions have been given the positions that the whole is given. -/
theorem position?_analysed_of_portions (hp : Coherent p) (h : p.Analysable platform) (i : Nat) :
    (r.analysed platform).position? i = (p.analysed platform).position? i := by
  obtain ⟨hfirst, hsecond⟩ := (analysable_iff_of_portions hq hr hstart hnext).mp h
  have hmet := (settled_analysed hq.coherent hfirst).of_position?_left hstart
  have hmet' := (settled_analysed hr.coherent hsecond).of_position?_left hnext
  have hiff : ∀ v i, i ∈ p.demanded platform v ↔
      i ∈ q.demanded platform v ∨ i ∈ r.demanded platform v :=
    fun v i => mem_demanded_iff_of_portions hq hr
  have hone : ∀ i v w, i ∈ q.demanded platform v → i ∈ r.demanded platform w → v = w := by
    intro i v w hv hw
    exact apart_iff.mp h.apart i v w ((hiff v i).mpr (Or.inl hv)) ((hiff w i).mpr (Or.inr hw))
  have hboth := (hmet.or hmet' hone).congr fun v i => (hiff v i).symm
  exact hboth.position?_eq (settled_analysed hp h) i

/-- The two portions have been given the templates that the whole is given, if there were none. -/
theorem mem_activeOf_analysed_of_portions (hp : Coherent p) (h : p.Analysable platform)
    (hnone : ∀ i id, id ∉ p.activeOf i) (hnone' : ∀ i id, id ∉ q.activeOf i)
    (hheld : ∀ i id, id ∈ r.activeOf i ↔ id ∈ (q.analysed platform).activeOf i) :
    id ∈ (r.analysed platform).activeOf c ↔ id ∈ (p.analysed platform).activeOf c := by
  obtain ⟨hfirst, hsecond⟩ := (analysable_iff_of_portions hq hr hstart hnext).mp h
  have hbetween : ∀ i, id ∈ r.activeOf i ↔
      ∃ k ∈ q.hosts platform, p.Related k i ∧ id ∈ p.templatesFor platform k := by
    intro i
    rw [hheld, mem_activeOf_analysed_of_none hq.coherent hfirst hnone']
    simp only [related_iff_of_skeleton hq.skeleton]
    exact exists_congr fun k => and_congr_right fun hk => and_congr_right fun _ =>
      hq.mem_templatesFor_iff_of_mem_hosts hk
  rw [mem_activeOf_analysed_of_none hp h hnone]
  simp only [mem_hosts_iff_of_portions hq hr, or_and_right, exists_or]
  by_cases hc : c ∈ r.hosts platform
  · rw [mem_activeOf_analysed_kernel hr.coherent hsecond hc, hbetween,
      hr.mem_templatesFor_iff_of_mem_hosts hc]
    refine or_congr_right ⟨fun hid => ⟨c, hc, Or.inl rfl, hid⟩, ?_⟩
    rintro ⟨k, hk, hrelated, hid⟩
    rw [← related_iff_of_skeleton hr.skeleton] at hrelated
    rwa [eq_of_related hr.coherent hsecond hk hc hrelated]
  · rw [mem_activeOf_analysed hr.coherent hsecond hc]
    constructor
    · rintro (⟨u, hu, hpass, hid⟩ | ⟨k, hk, hrelated, hid⟩)
      · obtain ⟨k, hk, hrelated, hid⟩ := (hbetween u).mp hid
        exact Or.inl ⟨k, hk, related_of_passes_of_portions hq hr hp h hk hrelated hpass, hid⟩
      · exact Or.inr ⟨k, hk, (related_iff_of_skeleton hr.skeleton).mp hrelated,
          (hr.mem_templatesFor_iff_of_mem_hosts hk).mp hid⟩
    · rintro (hid | ⟨k, hk, hrelated, hid⟩)
      · exact Or.inl ⟨c, hc, .refl _ _, (hbetween c).mpr hid⟩
      · exact Or.inr ⟨k, hk, (related_iff_of_skeleton hr.skeleton).mpr hrelated,
          (hr.mem_templatesFor_iff_of_mem_hosts hk).mpr hid⟩

end Both

end Program

end KernelGraph
