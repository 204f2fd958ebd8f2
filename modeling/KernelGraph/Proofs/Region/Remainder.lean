import KernelGraph.Proofs.Graph.Lowering
import KernelGraph.Proofs.Region.Repetition

/-!
# What narrowing leaves

All markers of a program can be narrowed if every id has a template, whatever the platform. What is
left of a marker is told from it alone: a marker without ids is left as it is, and of any other the
ids are kept whose first template applies, in their order, or nothing if there are none. If an id
has no template, the first such id of the document is reported, the markers before it have been
narrowed, and its own marker and those after it are as they were.

## Main definitions

* `Document.references` — the ids that the regions of a document refer to
* `Program.NarrowedTo` — a program has at a place what is left of the marker there

## Main results

* `find?_references` — the first unknown id of a program is the first of its document
* `narrowAll_leaves` — when narrowing succeeds, and what it leaves
-/

namespace KernelGraph

/-- The ids that the regions of a document refer to, in their order. -/
def Document.references (d : Document) : List String :=
  d.routines.flatMap fun r => r.regions.flatMap Document.Region.templates

namespace TemplateSet

variable {s : TemplateSet} {ids : List String} {f : String → Bool}

/-- A repeated id is not the first with a property. -/
theorem find?_insertAll : (s.insertAll ids).1.ids.find? f = (s.ids ++ ids).find? f := by
  induction ids generalizing s with
  | nil => rw [insertAll, List.append_nil]
  | cons id ids ih =>
    rw [insertAll, ih]
    by_cases hid : id ∈ s
    · rw [insert_of_mem hid, List.find?_append, List.find?_append, List.find?_cons]
      cases hf : f id with
      | false => rfl
      | true =>
        -- an id of the set with the property comes first anyway
        obtain ⟨x, hx⟩ := Option.isSome_iff_exists.mp
          (List.find?_isSome.mpr ⟨id, mem_iff.mp hid, hf⟩)
        rw [hx]
        rfl
    · rw [ids_insert_of_not_mem hid, List.append_assoc, List.singleton_append]

theorem find?_ofList : (ofList ids).ids.find? f = ids.find? f := find?_insertAll

end TemplateSet

namespace Program

/-- At a place, `q` has what is left of the marker of `p` there when it is narrowed. -/
structure NarrowedTo (p : Program) (platform : Platform) (q : Program) (place : Nat) : Prop where
  /-- Where no marker was, none is. -/
  vacant : p.marker? place = none → q.marker? place = none
  /-- A marker without ids is left as it is. -/
  bare : ∀ m, p.marker? place = some m → m.templates.ids = [] → q.marker? place = some m
  /-- Of any other, the ids are left whose first template applies, in their order. -/
  kept : ∀ m, p.marker? place = some m → m.templates.ids.filter (p.applies platform) ≠ [] →
    ∃ m', q.marker? place = some m' ∧
      m'.templates.ids = m.templates.ids.filter (p.applies platform) ∧
      { m' with templates := m.templates } = m
  /-- If there are none, the marker is dropped. -/
  dropped : ∀ m, p.marker? place = some m → m.templates.ids ≠ [] →
    m.templates.ids.filter (p.applies platform) = [] → q.marker? place = none

variable {d : Document} {p q : Program} {platform : Platform} {i : Nat} {m : Marker} {id : String}

/-! ## What is left at a place -/

theorem kept?_eq_none (hids : m.templates.ids ≠ [])
    (hnone : m.templates.ids.filter (p.applies platform) = []) : p.kept? platform m = none := by
  have hempty : m.templates.isEmpty = false := by simpa [TemplateSet.isEmpty] using hids
  have hkept : (m.templates.retain (p.applies platform)).isEmpty := List.isEmpty_iff.mpr hnone
  simp [kept?, hempty, hkept]

theorem kept?_of_filter_ne_nil (hsome : m.templates.ids.filter (p.applies platform) ≠ []) :
    p.kept? platform m = some { m with templates := m.templates.retain (p.applies platform) } := by
  have hempty : m.templates.isEmpty = false := by
    rw [TemplateSet.isEmpty, List.isEmpty_eq_false_iff]
    rintro hnil
    exact hsome (by rw [hnil, List.filter_nil])
  have hkept : (m.templates.retain (p.applies platform)).isEmpty = false := by
    simpa [TemplateSet.isEmpty, TemplateSet.retain] using hsome
  simp [kept?, hempty, hkept]

/-- What narrowing keeps is what is left. -/
theorem NarrowedTo.of_marker? (h : q.marker? i = (p.marker? i).bind (p.kept? platform)) :
    p.NarrowedTo platform q i where
  vacant hm := by rw [h, hm, Option.bind_none]
  bare m hm hids := by
    rw [h, hm, Option.bind_some, kept?_of_isEmpty (by simp [TemplateSet.isEmpty, hids])]
  kept m hm hsome := by
    rw [hm, Option.bind_some, kept?_of_filter_ne_nil hsome] at h
    exact ⟨_, h, rfl, rfl⟩
  dropped m hm hids hnone := by rw [h, hm, Option.bind_some, kept?_eq_none hids hnone]

/-! ## The first unknown id -/

theorem findSome?_ownedRegions (k : Nat) (routines : List Document.Routine) (f : String → Bool) :
    (ownedRegions k routines).findSome? (fun e => e.2.templates.find? f) =
      (routines.flatMap fun r => r.regions.flatMap Document.Region.templates).find? f := by
  induction routines generalizing k with
  | nil => rfl
  | cons r routines ih =>
    rw [ownedRegions, List.findSome?_append, ih, List.findSome?_map, List.flatMap_cons,
      List.find?_append, List.find?_flatMap (f := Document.Region.templates)]
    rfl

/-- The ids of markers are met in the order in which the document refers to them. -/
theorem findSome?_live (h : ofDocument d = .ok p) (f : String → Bool) :
    (p.live.findSome? fun m => m.templates.ids.find? f) = d.references.find? f := by
  calc (p.live.findSome? fun m => m.templates.ids.find? f)
      = (p.live.map Marker.holding).findSome? fun x => x.2.ids.find? f := by
        rw [List.findSome?_map]
        rfl
    _ = (ownedRegions 0 d.routines).findSome? fun e => e.2.templates.find? f := by
        rw [map_holding_live h, List.findSome?_map]
        simp only [Function.comp_def, TemplateSet.find?_ofList]
    _ = d.references.find? f := findSome?_ownedRegions 0 d.routines f

/-- No template of the program has an id if and only if none of its document has. -/
theorem isNone_template?_ofDocument (h : ofDocument d = .ok p) (id : String) :
    (p.template? id).isNone = d.templates.all fun t => t.id ≠ id := by
  obtain ⟨-, rfl⟩ := ofDocument_eq_ok_iff.mp h
  rw [Bool.eq_iff_iff, Option.isNone_iff_eq_none, template?, List.find?_eq_none, List.all_eq_true]
  simp [Template.ofDocument]

/-- The first unknown id of the markers is the first unknown one that the document refers to. -/
theorem find?_references (h : ofDocument d = .ok p) (hfirst : p.FirstUnknown i m id) :
    d.references.find? (fun id => d.templates.all fun t => t.id ≠ id) = some id := by
  have hp := coherent_ofDocument h
  have hm : m ∈ p.live := mem_live_iff.mpr ⟨i, hfirst.marker⟩
  obtain ⟨before, after, hlive⟩ := List.append_of_mem hm
  have hsorted := hp.pairwise_live
  rw [hlive, List.pairwise_append] at hsorted
  simp only [← isNone_template?_ofDocument h]
  rw [← findSome?_live h, List.findSome?_eq_some_iff]
  refine ⟨before, m, after, hlive, hfirst.unknown, fun m' hm' => ?_⟩
  -- the markers before stand at lower places, where all ids have templates
  have hless := hsorted.2.2 m' hm' m List.mem_cons_self
  rw [hp.marker_id i m hfirst.marker] at hless
  have hplace : p.marker? m'.id = some m' :=
    hp.marker?_id (hlive ▸ List.mem_append_left _ hm')
  exact find?_isNone_eq_none_of_known (hfirst.known _ hless) hplace

/-! ## Narrowing everything -/

/-- Narrowing all markers of the program of a document succeeds if and only if every id of a marker
has a template. Nothing but markers is ever changed. If it succeeds, each place has what is left of
its marker, and narrowing again changes nothing. If it does not, it reports the first id of the
document that has no template, each place before that marker has what is left of its own, and no
other has changed. -/
theorem narrowAll_leaves (h : ofDocument d = .ok p) (platform : Platform) :
    let o := narrowAll platform p
    (o.result = .ok () ↔ ∀ m ∈ p.live, ∀ id ∈ m.templates, ∃ t ∈ p.templates, t.id = id) ∧
    { o.program with regions := p.regions } = p ∧ o.program.regions.length = p.regions.length ∧
    (o.result = .ok () → (∀ i, p.NarrowedTo platform o.program i) ∧
      (narrowAll platform o.program).effect = (.ok (), o.program)) ∧
    ∀ e, o.result = .error e → ∃ i m id, p.FirstUnknown i m id ∧
      d.references.find? (fun id => d.templates.all fun t => t.id ≠ id) = some id ∧
      e = .unknownTemplate id (p.nameOf m.owner) ∧
      (∀ j < i, p.NarrowedTo platform o.program j) ∧
      ∀ j, i ≤ j → o.program.marker? j = p.marker? j := by
  have hp := coherent_ofDocument h
  dsimp only
  rcases narrowAll_cases hp platform with hrun | ⟨e, q, hrun⟩
  · obtain ⟨hresult, hprogram⟩ := Prod.mk.inj hrun
    have hknown := known_of_narrowAll hp hrun
    have hagain := effect_narrowAll_again hp platform
    rw [hrun, hprogram] at hagain
    rw [hresult, hprogram]
    refine ⟨iff_of_true rfl fun m hm id hid => isSome_template?_iff.mp (hknown m hm id hid), rfl,
      by simp [narrow], fun _ => ⟨fun i => .of_marker? marker?_narrow, hagain⟩, ?_⟩
    rintro e ⟨⟩
  · obtain ⟨i, m, id, hfirst, rfl, rfl⟩ := exists_firstUnknown hp hrun
    obtain ⟨hresult, hprogram⟩ := Prod.mk.inj hrun
    rw [hresult, hprogram]
    refine ⟨iff_of_false (by simp) fun hknown => hfirst.not_known fun m' hm' id hid => ?_, rfl,
      by simp [narrowAt], by simp, ?_⟩
    · exact isSome_template?_iff.mpr (hknown m' (mem_live_iff.mpr ⟨i, hm'⟩) id hid)
    · rintro e ⟨⟩
      refine ⟨i, m, id, hfirst, find?_references h hfirst, rfl, fun j hj => ?_, fun j hj => ?_⟩
      · exact .of_marker? (by rw [marker?_narrowAt, if_pos (List.mem_range.mpr hj)])
      · rw [marker?_narrowAt, if_neg (by simpa using hj)]

/-- A region without ids, one that loses an id on the CPU, and one that loses its only one; the
first template `g` is for the GPU. -/
def thinned : Document where
  routines :=
    [⟨"bare", .unset, [⟨[], []⟩], none, []⟩,
      ⟨"mixed", .unset, [⟨["g", "c"], []⟩, ⟨["g"], []⟩], none, []⟩]
  calls := []
  templates := [⟨"g", ["GPU"], []⟩, ⟨"g", ["CPU"], []⟩, ⟨"c", [], []⟩]
  extra := []

/-- A region is dropped on the CPU before another is met that has an id without a template. -/
def misspelled : Document :=
  { thinned with
    routines :=
      [⟨"first", .unset, [⟨["g"], []⟩], none, []⟩,
        ⟨"second", .unset, [⟨["c", "x", "y"], []⟩, ⟨["g"], []⟩], none, []⟩] }

theorem narrowAll_leaves_thinned_misspelled :
    ∃ p q, ofDocument thinned = .ok p ∧ ofDocument misspelled = .ok q ∧
      (let o := narrowAll .cpu p
      o.result = .ok () ∧ (∀ i, p.NarrowedTo .cpu o.program i) ∧
        (narrowAll .cpu o.program).effect = (.ok (), o.program)) ∧
      let o := narrowAll .cpu q
      o.result = .error (.unknownTemplate "x" "second") ∧
        ∃ i m id, q.FirstUnknown i m id ∧
          misspelled.references.find? (fun id => misspelled.templates.all fun t => t.id ≠ id) =
            some id ∧
          AnalysisError.unknownTemplate "x" "second" = .unknownTemplate id (q.nameOf m.owner) ∧
          (∀ j < i, q.NarrowedTo .cpu o.program j) ∧
          ∀ j, i ≤ j → o.program.marker? j = q.marker? j := by
  obtain ⟨p, q, hp, hq, hok, herror⟩ : ∃ p q, ofDocument thinned = .ok p ∧
      ofDocument misspelled = .ok q ∧ (narrowAll .cpu p).result = .ok () ∧
      (narrowAll .cpu q).result = .error (.unknownTemplate "x" "second") :=
    ⟨_, _, rfl, rfl, by decide +kernel, by decide +kernel⟩
  obtain ⟨-, -, -, hleft, -⟩ := narrowAll_leaves hp .cpu
  obtain ⟨-, -, -, -, hstopped⟩ := narrowAll_leaves hq .cpu
  exact ⟨p, q, hp, hq, ⟨hok, hleft hok⟩, herror, hstopped _ herror⟩

end Program

end KernelGraph
