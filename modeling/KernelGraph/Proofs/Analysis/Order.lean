import KernelGraph.Proofs.Analysis.Portions
import KernelGraph.Proofs.Analysis.Warnings
import KernelGraph.Proofs.Graph.Renumbering
import Mathlib.Algebra.BigOperators.Group.List.Basic

/-!
# The order of routines and calls

An analysis goes through the kernels and the calls in the order in which a document lists them, and
stops at the first thing that it cannot do. What it comes to does not depend on this order: whether
it succeeds, and then the positions, the counts and the callers that it warns about; and the sets of
templates too, if only kernels had any before.

## Main results

* `Renumbers.analysable_iff`, `Renumbers.position?_analysed`,
  `Renumbers.mem_activeOf_analysed_iff` — an analysis with the routines under other numbers
* `analyse_reorders` — an analysis of a document with its routines and calls in another order
-/

namespace KernelGraph

open Relation

variable {σ : Equiv.Perm Nat} {d d' : Document} {p q : Program} {platform : Platform}
  {direction : Direction} {regionOnly : Bool} {v : Position} {a b i k c : Nat} {id : String}
  {report report' : Report}

/-! ## Paths of a relation under other numbers -/

section Paths

variable {r s : Nat → Nat → Prop}

theorem reflTransGen_equiv_iff (h : ∀ a b, s (σ a) (σ b) ↔ r a b) :
    ReflTransGen s (σ a) (σ b) ↔ ReflTransGen r a b := by
  constructor
  · intro hpath
    have hback : ∀ x y, s x y → r (σ.symm x) (σ.symm y) := by
      intro x y hstep
      rwa [← h, σ.apply_symm_apply, σ.apply_symm_apply]
    simpa [Function.onFun] using ReflTransGen.lift σ.symm hback _ _ hpath
  · exact ReflTransGen.lift σ (fun a b => (h a b).mpr) _ _

theorem transGen_equiv_iff (h : ∀ a b, s (σ a) (σ b) ↔ r a b) :
    TransGen s (σ a) (σ b) ↔ TransGen r a b := by
  rw [TransGen.head'_iff, TransGen.head'_iff, σ.surjective.exists]
  exact exists_congr fun x => and_congr (h a x) (reflTransGen_equiv_iff h)

end Paths

namespace Renumbers

open Program

/-! ## Calls and what they lead to -/

section Coherent

variable (h : Renumbers σ p q) (hp : Coherent p) (hq : Coherent q)

include h hp hq

theorem calls_iff : q.Calls (σ a) (σ b) ↔ p.Calls a b := by
  have hiff := h.exists_call_iff fun caller callee _ =>
    q.idOf? caller = some (σ a) ∧ q.idOf? callee = some (σ b)
  simpa only [Calls, h.idOf?_iff hp hq] using hiff

theorem callsInside_iff : q.CallsInside (σ a) (σ b) ↔ p.CallsInside a b := by
  have hiff := h.exists_call_iff fun caller callee site => site = some "surround" ∧
    q.idOf? caller = some (σ a) ∧ q.idOf? callee = some (σ b)
  simpa only [CallsInside, Call.isSurround, decide_eq_true_eq, h.idOf?_iff hp hq] using hiff

theorem demands_iff : q.Demands (σ k) v (σ i) ↔ p.Demands k v i := by
  have hcalls : ∀ a b, q.Calls (σ a) (σ b) ↔ p.Calls a b := fun a b => h.calls_iff hp hq
  cases v with
  | unset => exact Iff.rfl
  | within => exact σ.injective.eq_iff
  | outside => exact transGen_equiv_iff hcalls
  | inside =>
    simp only [Demands]
    rw [σ.surjective.exists]
    exact exists_congr fun x => and_congr (h.callsInside_iff hp hq) (reflTransGen_equiv_iff hcalls)

theorem related_iff : q.Related (σ k) (σ i) ↔ p.Related k i := by
  rw [Program.related_iff, Program.related_iff]
  exact exists_congr fun v => h.demands_iff hp hq

theorem mem_targets_iff (hdirection : direction ≠ .kernel) :
    σ b ∈ q.targets direction regionOnly (σ a) ↔ b ∈ p.targets direction regionOnly a := by
  cases direction with
  | upward => rw [mem_targets_upward, mem_targets_upward, h.calls_iff hp hq]
  | downward =>
    cases regionOnly with
    | false => rw [mem_targets_downward, mem_targets_downward, h.calls_iff hp hq]
    | true => rw [mem_targets_region, mem_targets_region, h.callsInside_iff hp hq]
  | kernel => exact absurd rfl hdirection

theorem mem_trail_iff (hdirection : direction ≠ .kernel) :
    σ i ∈ (q.trail direction regionOnly (σ k)).map Prod.snd ↔
      i ∈ (p.trail direction regionOnly k).map Prod.snd := by
  have honward : ∀ a b, Onward (q.targets direction false) (σ k) (σ a) (σ b) ↔
      Onward (p.targets direction false) k a b := by
    intro a b
    rw [Onward, Onward, σ.injective.ne_iff, h.mem_targets_iff hp hq hdirection]
  rw [mem_trail_iff_mem_meets hq, mem_trail_iff_mem_meets hp, mem_meets_iff hq, mem_meets_iff hp,
    σ.injective.ne_iff, σ.surjective.exists]
  refine and_congr_right fun _ => exists_congr fun b => ?_
  rw [h.mem_targets_iff hp hq hdirection, reflTransGen_equiv_iff honward]

/-- A search discovers as many routines, though perhaps in another order. -/
theorem length_trail_eq (hdirection : direction ≠ .kernel) :
    (q.trail direction regionOnly (σ k)).length = (p.trail direction regionOnly k).length := by
  have hperm : ((q.trail direction regionOnly (σ k)).map Prod.snd).Perm
      (((p.trail direction regionOnly k).map Prod.snd).map σ) := by
    have hnodup : ∀ (x : Program) j, ((x.trail direction regionOnly j).map Prod.snd).Nodup :=
      fun _ _ => nodup_discover
    rw [List.perm_ext_iff_of_nodup (hnodup q _) ((hnodup p k).map σ.injective)]
    intro j
    obtain ⟨i, rfl⟩ := σ.surjective j
    rw [List.mem_map_of_injective σ.injective, h.mem_trail_iff hp hq hdirection]
  simpa using hperm.length_eq

theorem spreadCount_eq (k : Nat) : q.spreadCount (σ k) = p.spreadCount k := by
  rw [spreadCount, spreadCount, h.length_trail_eq hp hq (by simp),
    h.length_trail_eq hp hq (by simp)]

end Coherent

/-! ## The markers that narrowing leaves -/

theorem template?_eq (h : Renumbers σ p q) (id : String) : q.template? id = p.template? id := by
  rw [template?, template?, h.templates]

theorem applies_eq (h : Renumbers σ p q) (platform : Platform) :
    q.applies platform = p.applies platform := by
  funext id
  rw [applies, applies, h.template?_eq]

theorem keptHolding?_map (h : Renumbers σ p q) (x : Nat × TemplateSet) :
    q.keptHolding? platform (σ x.1, x.2) =
      (p.keptHolding? platform x).map fun y => (σ y.1, y.2) := by
  -- what is kept depends on the templates only, and the owner stays
  simp only [keptHolding?, kept?, h.applies_eq]
  split
  · rfl
  · split <;> rfl

theorem narrow (h : Renumbers σ p q) (platform : Platform) :
    Renumbers σ (p.narrow platform) (q.narrow platform) where
  routines := h.routines
  calls := h.calls
  templates := h.templates
  holdings := by
    rw [map_holding_live_narrow, map_holding_live_narrow, List.map_filterMap]
    refine (h.holdings.filterMap _).trans (.of_eq ?_)
    rw [List.filterMap_map]
    exact List.filterMap_congr fun x _ => h.keptHolding?_map x

theorem mem_hosts_iff (h : Renumbers σ p q) :
    σ k ∈ q.hosts platform ↔ k ∈ p.hosts platform := by
  rw [Program.mem_hosts_iff, Program.mem_hosts_iff]
  have hiff := (h.narrow platform).exists_live_iff fun x => x.1 = σ k
  simpa only [Marker.holding, σ.injective.eq_iff] using hiff

theorem mem_templatesFor_iff (h : Renumbers σ p q) :
    id ∈ q.templatesFor platform (σ k) ↔ id ∈ p.templatesFor platform k := by
  have hiff := h.exists_live_iff fun x => x.1 = σ k ∧ id ∈ x.2 ∧ q.applies platform id
  simpa only [templatesFor, Set.mem_ofPred_eq, Marker.holding, σ.injective.eq_iff, h.applies_eq]
    using hiff

theorem mem_kernelNames_iff {name : String} (h : Renumbers σ p q) :
    name ∈ q.kernelNames platform ↔ name ∈ p.kernelNames platform := by
  rw [← map_nameOf_live_narrow, ← map_nameOf_live_narrow, List.mem_map, List.mem_map]
  have hiff := (h.narrow platform).exists_live_iff fun x => q.nameOf x.1 = name
  simpa only [Marker.holding, h.nameOf_eq] using hiff

theorem formed_iff (h : Renumbers σ p q) : q.Formed platform ↔ p.Formed platform := by
  have hq := h.narrow platform
  have hknown := h.forall_live_iff fun x => ∀ id ∈ x.2, (q.template? id).isSome
  have hnamed := hq.forall_live_iff fun x => q.nameOf x.1 ≠ ""
  have hfilled := h.forall_live_iff fun x => ¬ x.2.isEmpty
  have hsingle : ((q.narrow platform).live.map Marker.owner).Nodup ↔
      ((p.narrow platform).live.map Marker.owner).Nodup := by
    rw [hq.perm_map_owner.nodup_iff, List.nodup_map_iff σ.injective]
  simp only [Marker.holding, h.template?_eq, h.nameOf_eq] at hknown hnamed hfilled
  rw [Program.formed_iff, Program.formed_iff, hsingle, hnamed, hfilled]
  simp only [h.template?_eq, hknown]

/-! ## Positions -/

theorem canTake_iff (h : Renumbers σ p q) : q.CanTake v (σ i) ↔ p.CanTake v i := by
  rw [CanTake, CanTake, h.position?_eq]

/-- Whether demands can be met does not depend on the numbers of the routines. -/
theorem settles_iff (h : Renumbers σ p q) {D E : Position → Nat → Prop}
    (hD : ∀ v i, E v (σ i) ↔ D v i) : q.Settles E ↔ p.Settles D := by
  refine and_congr (σ.surjective.forall.trans ?_)
    (forall_congr' fun v => σ.surjective.forall.trans ?_)
  · simp only [hD]
  · simp only [hD, h.canTake_iff]

section Coherent

variable (h : Renumbers σ p q) (hp : Coherent p) (hq : Coherent q)

include h hp hq

theorem mem_demanded_iff : σ i ∈ q.demanded platform v ↔ i ∈ p.demanded platform v := by
  rw [Program.mem_demanded_iff, Program.mem_demanded_iff, σ.surjective.exists]
  exact exists_congr fun k => and_congr h.mem_hosts_iff (h.demands_iff hp hq)

theorem analysable_iff : q.Analysable platform ↔ p.Analysable platform := by
  rw [analysable_iff_formed, analysable_iff_formed, h.formed_iff,
    h.settles_iff fun v i => h.mem_demanded_iff hp hq]

/-- An analysis gives the same positions. -/
theorem position?_analysed (hanalysable : p.Analysable platform) (i : Nat) :
    (q.analysed platform).position? (σ i) = (p.analysed platform).position? i := by
  have hsettled := settled_analysed hp hanalysable
  have hsettled' := settled_analysed hq ((h.analysable_iff hp hq).mpr hanalysable)
  by_cases hsome : ∃ v, i ∈ p.demanded platform v
  · obtain ⟨v, hv⟩ := hsome
    rw [hsettled.met v i hv, hsettled'.met v (σ i) ((h.mem_demanded_iff hp hq).mpr hv)]
  · have hnone := not_exists.mp hsome
    rw [hsettled.left i hnone, hsettled'.left (σ i) fun v hv =>
      hnone v ((h.mem_demanded_iff hp hq).mp hv), h.position?_eq]

/-- An analysis gives the same templates, if only kernels had any before. -/
theorem mem_activeOf_analysed_iff (hanalysable : p.Analysable platform)
    (hempty : ∀ u ∉ p.hosts platform, ∀ id, id ∉ p.activeOf u) :
    id ∈ (q.analysed platform).activeOf (σ i) ↔ id ∈ (p.analysed platform).activeOf i := by
  have hempty' : ∀ u ∉ q.hosts platform, ∀ id, id ∉ q.activeOf u := by
    rw [σ.surjective.forall]
    intro u hu
    rw [h.activeOf_eq]
    exact hempty u (mt h.mem_hosts_iff.mpr hu)
  rw [Program.mem_activeOf_analysed_iff hq ((h.analysable_iff hp hq).mpr hanalysable) hempty',
    Program.mem_activeOf_analysed_iff hp hanalysable hempty, h.activeOf_eq, σ.surjective.exists]
  refine or_congr_right (exists_congr fun k => ?_)
  rw [h.mem_hosts_iff, h.related_iff hp hq, h.mem_templatesFor_iff]

theorem kernels_eq (hok : (analyse platform p).result = .ok report)
    (hok' : (analyse platform q).result = .ok report') : report'.kernels = report.kernels := by
  have hlength := (h.narrow platform).perm_map_owner.length_eq
  simp only [List.length_map] at hlength
  rw [(counts_analyse hq hok').1, (counts_analyse hp hok).1, hlength]

theorem assignments_eq (hok : (analyse platform p).result = .ok report)
    (hok' : (analyse platform q).result = .ok report') :
    report'.assignments = report.assignments := by
  have hperm := (h.narrow platform).perm_map_owner.map q.spreadCount
  rw [(counts_analyse hq hok').2, (counts_analyse hp hok).2, hperm.sum_eq, List.map_map]
  simp only [Function.comp_def, h.spreadCount_eq hp hq]

/-- An analysis warns about the same callers. -/
theorem exists_warning_iff (hok : (analyse platform p).result = .ok report)
    (hok' : (analyse platform q).result = .ok report') {caller : String} :
    (∃ w ∈ report'.diagnostics, w.subject = some caller) ↔
      ∃ w ∈ report.diagnostics, w.subject = some caller := by
  rw [diagnostics_analyse hq hok', diagnostics_analyse hp hok]
  by_cases hgpu : platform.isGpu
  · rw [if_pos hgpu, if_pos hgpu, Program.exists_warning_iff, Program.exists_warning_iff]
    have hkernel := h.exists_call_iff fun c callee _ =>
      c = caller ∧ callee ∈ p.kernelNames platform
    have hinner : ∀ name, (∃ c ∈ q.calls, c.caller = name ∧ c.callee ∈ p.kernelNames platform) ↔
        ∃ c ∈ p.calls, c.caller = name ∧ c.callee ∈ p.kernelNames platform := fun name =>
      h.exists_call_iff fun c callee _ => c = name ∧ callee ∈ p.kernelNames platform
    have hwrapper := h.exists_call_iff fun c callee _ => c = caller ∧
      ∃ inner ∈ p.calls, inner.caller = callee ∧ inner.callee ∈ p.kernelNames platform
    simp only [h.mem_kernelNames_iff, hinner, hwrapper]
  · rw [if_neg hgpu, if_neg hgpu]

end Coherent

end Renumbers

namespace Program

/-- An analysis does not depend on the order in which a document lists its routines and its calls.
It succeeds in any order or in none. If it does, then in every order each routine gets the same
position, as many kernels and assignments are counted, the same callers are warned about, and each
routine gets the same templates, provided that only kernels had any before. -/
theorem analyse_reorders (h : ofDocument d = .ok p) (hreorders : d.Reorders σ d')
    (platform : Platform) :
    ∃ q, ofDocument d' = .ok q ∧
      ((∃ report, (analyse platform q).result = .ok report) ↔
        ∃ report, (analyse platform p).result = .ok report) ∧
      ∀ report report', (analyse platform p).result = .ok report →
        (analyse platform q).result = .ok report' →
        (∀ i, (analyse platform q).program.position? (σ i) =
          (analyse platform p).program.position? i) ∧
        report'.kernels = report.kernels ∧ report'.assignments = report.assignments ∧
        (∀ caller, (∃ w ∈ report'.diagnostics, w.subject = some caller) ↔
          ∃ w ∈ report.diagnostics, w.subject = some caller) ∧
        ((∀ u ∉ p.hosts platform, ∀ id, id ∉ p.activeOf u) → ∀ i id,
          id ∈ (analyse platform q).program.activeOf (σ i) ↔
            id ∈ (analyse platform p).program.activeOf i) := by
  obtain ⟨q, hd', hrenumbers⟩ := hreorders.exists_renumbers h
  have hp := coherent_ofDocument h
  have hq := coherent_ofDocument hd'
  refine ⟨q, hd', ?_, fun report report' hok hok' => ?_⟩
  · rw [exists_analyse_eq_ok hq, exists_analyse_eq_ok hp, hrenumbers.analysable_iff hp hq]
  · obtain ⟨hanalysable, hprogram⟩ := analysable_of_analyse hp hok
    rw [hprogram, (analysable_of_analyse hq hok').2]
    exact ⟨hrenumbers.position?_analysed hp hq hanalysable, hrenumbers.kernels_eq hp hq hok hok',
      hrenumbers.assignments_eq hp hq hok hok',
      fun caller => hrenumbers.exists_warning_iff hp hq hok hok',
      fun hempty i id => hrenumbers.mem_activeOf_analysed_iff hp hq hanalysable hempty⟩

/-- The document `mixing` with its kernels in the other order, and its calls backwards. -/
def mixingReordered : Document :=
  { mixing with
    routines :=
      ⟨"right", .unset, [⟨["t"], []⟩], none, []⟩ :: ⟨"left", .unset, [⟨["t"], []⟩], none, []⟩ ::
        mixing.routines.drop 2
    calls := mixing.calls.reverse }

theorem reorders_mixing : mixing.Reorders (.swap 0 1) mixingReordered where
  routines i := by
    match i with
    | 0 => rfl
    | 1 => rfl
    | i + 2 => rw [Equiv.swap_apply_of_ne_of_ne (by omega) (by omega)]; rfl
  calls := List.reverse_perm _
  templates := rfl
  extra := rfl

theorem analyse_reorders_mixing : ∃ p q report report', ofDocument mixing = .ok p ∧
    mixing.Reorders (.swap 0 1) mixingReordered ∧ ofDocument mixingReordered = .ok q ∧
    (analyse .gpu p).result = .ok report ∧ (analyse .gpu q).result = .ok report' ∧
    (∀ u ∉ p.hosts .gpu, ∀ id, id ∉ p.activeOf u) ∧
    (∀ i, (analyse .gpu q).program.position? (Equiv.swap 0 1 i) =
      (analyse .gpu p).program.position? i) ∧
    report'.kernels = report.kernels ∧ report'.assignments = report.assignments ∧
    (∀ caller, (∃ w ∈ report'.diagnostics, w.subject = some caller) ↔
      ∃ w ∈ report.diagnostics, w.subject = some caller) ∧
    ∀ i id, id ∈ (analyse .gpu q).program.activeOf (Equiv.swap 0 1 i) ↔
      id ∈ (analyse .gpu p).program.activeOf i := by
  obtain ⟨p, report, hp, hok⟩ : ∃ p report, ofDocument mixing = .ok p ∧
      (analyse .gpu p).result = .ok report := exists_analyse_of_isOk (by decide +kernel)
  obtain ⟨q, hq, hiff, hall⟩ := analyse_reorders hp reorders_mixing .gpu
  have hempty : ∀ u ∉ p.hosts .gpu, ∀ id, id ∉ p.activeOf u := fun _ _ _ =>
    notMem_activeOf_ofDocument hp (by decide)
  obtain ⟨report', hok'⟩ := hiff.mpr ⟨report, hok⟩
  obtain ⟨hpositions, hkernels, hassignments, hwarnings, hactive⟩ := hall report report' hok hok'
  exact ⟨p, q, report, report', hp, reorders_mixing, hq, hok, hok', hempty, hpositions, hkernels,
    hassignments, hwarnings, hactive hempty⟩

end Program

end KernelGraph
