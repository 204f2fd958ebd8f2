import KernelGraph.Proofs.Analysis.Flow
import KernelGraph.Proofs.Region.Promotion

/-!
# Fields after an analysis

An analysis hands templates on, but never fields: those of a marker end in the container of the
routine that owns it. Where several values meet there under one key, only one is left: that of the
container, or else that of the first marker with the key. So all fields are kept just if values that
meet under one key are the same.

## Main definitions

* `Program.FieldsAgree` — the values that meet under one key in an analysis are the same

## Main results

* `field?_treat`, `field?_foldl_treat` — the fields of containers after one region, or several,
  have been treated
* `field?_analysed` — the fields of containers after an analysis
* `field?_analyse_iff` — which fields they are, and when all are kept
-/

namespace KernelGraph

namespace Fields

variable {fields : Fields} {key : String} {value : Value}

theorem mem_keys_of_find? (h : fields.find? key = some value) : key ∈ fields.map Prod.fst := by
  induction fields with
  | nil => simp [find?] at h
  | cons member fields ih =>
    obtain ⟨k, v⟩ := member
    rw [find?_cons] at h
    rw [List.map_cons, List.mem_cons]
    by_cases hkey : key = k
    · exact Or.inl hkey
    · rw [if_neg hkey] at h
      exact Or.inr (ih h)

end Fields

namespace Program

/-- The values that meet under one key are the same: a marker that survives narrowing has under each
of its keys the value of the container of its routine, if that has one, and of every other such
marker of the routine that has one. -/
def FieldsAgree (p : Program) (platform : Platform) : Prop :=
  ∀ m ∈ p.survivors platform, ∀ key, ∀ value ∈ m.extra.find? key,
    (∀ other ∈ p.field? m.owner key, other = value) ∧
      ∀ m' ∈ p.survivors platform, m'.owner = m.owner →
        ∀ other ∈ m'.extra.find? key, other = value

instance (p : Program) (platform : Platform) : Decidable (p.FieldsAgree platform) :=
  decidable_of_iff
    (∀ m ∈ p.survivors platform, ∀ key ∈ m.extra.map Prod.fst, ∀ value ∈ m.extra.find? key,
      (∀ other ∈ p.field? m.owner key, other = value) ∧
        ∀ m' ∈ p.survivors platform, m'.owner = m.owner →
          ∀ other ∈ m'.extra.find? key, other = value)
    ⟨fun h m hm key value hvalue => h m hm key (Fields.mem_keys_of_find? hvalue) value hvalue,
      fun h m hm key _ => h m hm key⟩

variable {d : Document} {p : Program} {platform : Platform} {m : Marker} {ms : List Marker}
  {s : TemplateSet} {v : Position} {edges : List (Nat × Nat)} {i j k : Nat} {key : String}
  {report : Report}

/-! ## Handing on -/

/-- A routine that receives has the fields that it had. -/
@[simp] theorem field?_receive : (p.receive v i s).field? j key = p.field? j key := by
  by_cases hij : i = j
  · subst hij
    cases hr : p.routine? i with
    | none =>
      have hnone : (p.receive v i s).routine? i = none := by
        rw [receive, routine?_modifyRoutine, if_pos rfl, hr, Option.map_none]
      rw [field?, field?, container?, container?, hr, hnone]
    | some r =>
      -- a container that is made for the templates has no fields
      rw [field?, field?, container?, container?, hr, routine?_receive hr, Option.bind_some,
        Option.bind_some, Routine.receive]
      by_cases hs : s.isEmpty
      · simp only [hs, if_true]
      · cases hactive : r.active with
        | none => simp [hs, Container.empty, Fields.find?]
        | some c => simp [hs]
  · rw [field?, field?, container?_receive_of_ne hij]

@[simp] theorem field?_handOn : (p.handOn v edges).field? j key = p.field? j key := by
  induction edges generalizing p with
  | nil => rfl
  | cons e edges ih => rw [handOn_cons, ih, field?_receive]

@[simp] theorem field?_spreadAll : (p.spreadAll k).field? j key = p.field? j key := by
  rw [spreadAll, field?_handOn, climb, field?_handOn, field?, field?, container?_host]

/-! ## Treating regions -/

/-- Promotion adds the fields of a marker to those of the routine that owns it, which come first. -/
theorem field?_promote (hm : p.marker? k = some m) (howner : m.owner < p.routines.length) :
    (p.promote k).1.field? j key =
      if m.owner = j then (p.field? j key).or (m.extra.find? key) else p.field? j key := by
  rw [field?, field?, container?_promote hm howner]
  by_cases hj : m.owner = j
  · rw [if_pos hj, if_pos hj, Option.bind_some, Container.find?_receive]
  · rw [if_neg hj, if_neg hj]

theorem field?_treat (hp : Coherent p) (hm : m ∈ p.live) : (p.treat m).field? i key =
    if m.owner = i then (p.field? i key).or (m.extra.find? key) else p.field? i key := by
  have hplace : (p.spreadAll m.owner).marker? m.id = some m := by
    rw [marker?_spreadAll, hp.marker?_id hm]
  have howner : m.owner < (p.spreadAll m.owner).routines.length := by
    rw [length_routines_eq_of_skeleton skeleton_spreadAll]
    exact hp.owner_lt_of_mem hm
  rw [treat, field?_promote hplace howner, field?_spreadAll]

/-- After several regions have been treated, the first value under a key is that of the container,
and then come those of the markers in their order. -/
theorem field?_foldl_treat (hp : Coherent p) (hlive : ∀ m ∈ ms, m ∈ p.live)
    (hnodup : (ms.map Marker.id).Nodup) : (ms.foldl treat p).field? i key =
      (p.field? i key).or ((ms.filter (·.owner = i)).findSome? fun m => m.extra.find? key) := by
  -- by induction on the run: the first marker has its say before all others
  induction ms generalizing p with
  | nil => exact Option.or_none.symm
  | cons m ms ih =>
    have hrest := mem_live_treat_of_mem hp hlive hnodup
    rw [List.foldl_cons, ih ((evolves_treat p m).coherent hp) hrest (List.nodup_cons.mp hnodup).2,
      field?_treat hp (hlive m List.mem_cons_self)]
    by_cases howner : m.owner = i
    · rw [if_pos howner, List.filter_cons_of_pos (by simpa using howner), List.findSome?_cons,
        Option.or_assoc]
      cases m.extra.find? key <;> rfl
    · rw [if_neg howner, List.filter_cons_of_neg (by simpa using howner)]

/-! ## The whole analysis -/

/-- Narrowing takes no field from a marker that survives. -/
theorem findSome?_live_narrow :
    (((p.narrow platform).live.filter (·.owner = i)).findSome? fun m => m.extra.find? key) =
      ((p.survivors platform).filter (·.owner = i)).findSome? fun m => m.extra.find? key := by
  have hmap : (p.narrow platform).live.map (fun m => (m.owner, m.extra)) =
      (p.survivors platform).map fun m => (m.owner, m.extra) :=
    map_live_narrow fun hkept => by
      obtain ⟨-, howner, hextra, -⟩ := kept?_eq_some hkept
      rw [howner, hextra]
  -- only the owners and the fields of the markers count
  have hpairs : ∀ ms : List Marker,
      ((ms.filter (·.owner = i)).findSome? fun m => m.extra.find? key) =
        ((ms.map fun m => (m.owner, m.extra)).filter (·.1 = i)).findSome?
          fun e => e.2.find? key := by
    intro ms
    rw [List.filter_map, List.findSome?_map]
    rfl
  rw [hpairs, hpairs, hmap]

theorem field?_analysed (hp : Coherent p) : (p.analysed platform).field? i key =
    (p.field? i key).or
      (((p.survivors platform).filter (·.owner = i)).findSome? fun m => m.extra.find? key) := by
  have hq := coherent_narrow hp platform
  rw [analysed, field?_foldl_treat hq (fun _ hm => hm) hq.nodup_map_id_live, findSome?_live_narrow]
  rfl

/-- All fields are kept just if those that meet agree. -/
theorem forall_field?_analysed_iff (hp : Coherent p) :
    (∀ m ∈ p.survivors platform, ∀ key value, m.extra.find? key = some value →
      (p.analysed platform).field? m.owner key = some value) ↔ p.FieldsAgree platform := by
  constructor
  · intro hkept m hm key value hvalue
    have hend := hkept m hm key value hvalue
    refine ⟨fun other hother => ?_, fun m' hm' howner other hother => ?_⟩
    · rw [field?_analysed hp, hother, Option.some_or] at hend
      exact Option.some.inj hend
    · have hend' := hkept m' hm' key other hother
      rw [howner, hend] at hend'
      exact (Option.some.inj hend').symm
  · intro hagree m hm key value hvalue
    obtain ⟨hcontainer, hmarkers⟩ := hagree m hm key value hvalue
    rw [field?_analysed hp]
    cases hfield : p.field? m.owner key with
    | some other => rw [Option.some_or, hcontainer other hfield]
    | none =>
      -- the first marker with the key has the same value
      have hmem : m ∈ (p.survivors platform).filter (·.owner = m.owner) :=
        List.mem_filter.mpr ⟨hm, decide_eq_true rfl⟩
      have hsome : (((p.survivors platform).filter (·.owner = m.owner)).findSome?
          fun m => m.extra.find? key).isSome :=
        List.findSome?_isSome_iff.mpr ⟨m, hmem, by rw [hvalue, Option.isSome_some]⟩
      obtain ⟨other, hfirst⟩ := Option.isSome_iff_exists.mp hsome
      obtain ⟨m', hm', hother⟩ := List.exists_of_findSome?_eq_some hfirst
      rw [List.mem_filter, decide_eq_true_eq] at hm'
      rw [Option.none_or, hfirst, hmarkers m' hm'.1 hm'.2 other hother]

/-- When an analysis succeeds, the container of a routine has under each key the value that it had,
or else that of the first of the routine's markers with the key that survive narrowing. Each such
marker finds all its fields there, with their values, just if the values that meet under one key are
the same. -/
theorem field?_analyse_iff (h : ofDocument d = .ok p)
    (hok : (analyse platform p).result = .ok report) :
    (∀ i key, (analyse platform p).program.field? i key = (p.field? i key).or
      (((p.survivors platform).filter (·.owner = i)).findSome? fun m => m.extra.find? key)) ∧
    ((∀ m ∈ p.survivors platform, ∀ key value, m.extra.find? key = some value →
        (analyse platform p).program.field? m.owner key = some value) ↔
      p.FieldsAgree platform) := by
  have hp := coherent_ofDocument h
  rw [(analysable_of_analyse hp hok).2]
  exact ⟨fun i key => field?_analysed hp, forall_field?_analysed_iff hp⟩

/-- The regions of `kernel` and its container come from one file, but for a region for another
platform. -/
def located : Document where
  routines :=
    [⟨"kernel", .unset,
      [⟨["t"], [("bounds", .text "1:n"), ("file", .text "a.h90")]⟩,
        ⟨["t"], [("depth", .text "2"), ("file", .text "a.h90")]⟩,
        ⟨["g"], [("bounds", .text "1:m"), ("file", .text "b.h90")]⟩],
      some ⟨[], [("file", .text "a.h90")]⟩, []⟩]
  calls := []
  templates := [⟨"t", [], []⟩, ⟨"g", ["GPU"], []⟩]
  extra := []

theorem field?_analyse_iff_located : ∃ p report, ofDocument located = .ok p ∧
    (analyse .cpu p).result = .ok report ∧
    ((analyse .cpu p).program.field? 0 "bounds" = some (.text "1:n") ∧
      (analyse .cpu p).program.field? 0 "depth" = some (.text "2")) ∧
    ∀ m ∈ p.survivors .cpu, ∀ key value, m.extra.find? key = some value →
      (analyse .cpu p).program.field? m.owner key = some value := by
  obtain ⟨hfield, hagree⟩ :=
    @field?_analyse_iff located _ .cpu ⟨2, 0, []⟩ rfl (by decide +kernel)
  exact ⟨_, ⟨2, 0, []⟩, rfl, by decide +kernel, ⟨(hfield 0 "bounds").trans (by decide +kernel),
    (hfield 0 "depth").trans (by decide +kernel)⟩, hagree.mpr (by decide +kernel)⟩

/-- The region of `kernel` and its container have different bounds. -/
def bounded : Document where
  routines :=
    [⟨"kernel", .unset, [⟨["t"], [("loopBounds", .text "1:n")]⟩],
      some ⟨[], [("loopBounds", .text "1:m")]⟩, []⟩]
  calls := []
  templates := [⟨"t", [], []⟩]
  extra := []

/-- A field need not be kept: the container has bounds of its own, and those of the region are
lost. -/
theorem not_field?_analyse_bounded : ∃ p report, ofDocument bounded = .ok p ∧
    (analyse .cpu p).result = .ok report ∧
    ¬ ∀ m ∈ p.survivors .cpu, ∀ key value, m.extra.find? key = some value →
      (analyse .cpu p).program.field? m.owner key = some value := by
  refine ⟨_, ⟨1, 0, []⟩, rfl, by decide +kernel, fun hkept => ?_⟩
  have hbounds := hkept ⟨0, 0, .ofList ["t"], [("loopBounds", .text "1:n")]⟩ (by decide +kernel)
    "loopBounds" (.text "1:n") (by decide +kernel)
  revert hbounds
  decide +kernel

end Program

end KernelGraph
