import KernelGraph.Proofs.Graph.Raising

/-!
# Names and ids that are repeated

A document is refused if two of its routines share a name that is not empty, and what is reported is
the name of the first routine that an earlier one shares it with. Any other document is lowered, and
what is raised from it differs from it in its lists of templates only: of an id that is listed more
than once, the first occurrence is left.

## Main definitions

* `Document.mapTemplates` — a document with its lists of templates changed
* `Document.SharesName`, `Document.RepeatsName` — routines that share a name

## Main results

* `firstRepeated_eq_some_iff` — the name that is reported
* `ids_ofList_eq_eraseDups` — the set of a list of ids keeps first occurrences
* `toDocument_ofDocument_or_repeats` — a document is refused, or comes back without repeated ids
-/

namespace KernelGraph

/-! ## Repeated names -/

/-- The name at a place is not empty, and it has been seen or stands at an earlier place. -/
def RepeatsAt (seen names : List String) (j : Nat) : Prop :=
  ∃ name ≠ "", names[j]? = some name ∧ (name ∈ seen ∨ ∃ i < j, names[i]? = some name)

namespace RepeatsAt

variable {seen names : List String} {name : String} {j : Nat}

theorem cons_zero_iff : RepeatsAt seen (name :: names) 0 ↔ name ≠ "" ∧ name ∈ seen := by
  simp [RepeatsAt]

/-- At a later place, the first name has been seen. -/
theorem cons_succ_iff : RepeatsAt seen (name :: names) (j + 1) ↔
    RepeatsAt (name :: seen) names j := by
  simp only [RepeatsAt, Nat.exists_lt_succ_left, List.getElem?_cons_zero,
    List.getElem?_cons_succ, List.mem_cons, Option.some.injEq, eq_comm (a := name), or_assoc,
    or_left_comm]

end RepeatsAt

namespace Program

variable {seen names : List String} {name : String}

/-- The name that is reported is that of the first place where one is repeated. -/
theorem firstRepeated_eq_some_iff : firstRepeated seen names = some name ↔
    ∃ j, names[j]? = some name ∧ RepeatsAt seen names j ∧ ∀ i < j, ¬ RepeatsAt seen names i := by
  induction names generalizing seen with
  | nil => simp [firstRepeated]
  | cons first names ih =>
    rw [firstRepeated]
    by_cases hfirst : first ≠ "" ∧ first ∈ seen
    -- the first name is repeated, so the place is the first one
    · have hzero : RepeatsAt seen (first :: names) 0 := RepeatsAt.cons_zero_iff.mpr hfirst
      rw [if_pos hfirst]
      constructor
      · rintro ⟨⟩
        exact ⟨0, rfl, hzero, by simp⟩
      · rintro ⟨j, hj, -, hbefore⟩
        obtain rfl : j = 0 := by
          by_contra hne
          exact hbefore 0 (Nat.pos_of_ne_zero hne) hzero
        exact hj
    · have hzero : ¬ RepeatsAt seen (first :: names) 0 := mt RepeatsAt.cons_zero_iff.mp hfirst
      rw [if_neg hfirst, ih]
      constructor
      · rintro ⟨j, hj, hrepeats, hbefore⟩
        refine ⟨j + 1, hj, RepeatsAt.cons_succ_iff.mpr hrepeats, fun i hi => ?_⟩
        cases i with
        | zero => exact hzero
        | succ i => exact mt RepeatsAt.cons_succ_iff.mp (hbefore i (by omega))
      · rintro ⟨j, hj, hrepeats, hbefore⟩
        cases j with
        | zero => exact absurd hrepeats hzero
        | succ j =>
          refine ⟨j, hj, RepeatsAt.cons_succ_iff.mp hrepeats, fun i hi => ?_⟩
          exact mt RepeatsAt.cons_succ_iff.mpr (hbefore (i + 1) (by omega))

/-- If none is reported, no name is repeated. -/
theorem not_repeatsAt_of_firstRepeated_eq_none (h : firstRepeated seen names = none) (j : Nat) :
    ¬ RepeatsAt seen names j := by
  intro hrepeats
  -- otherwise there is a first place where one is repeated, and its name is reported
  obtain ⟨i, ⟨name, hne, hname, hi⟩, hbefore⟩ : ∃ i, RepeatsAt seen names i ∧
      ∀ k < i, ¬ RepeatsAt seen names k := by
    classical
    exact ⟨Nat.find ⟨j, hrepeats⟩, Nat.find_spec ⟨j, hrepeats⟩, fun k => Nat.find_min ⟨j, hrepeats⟩⟩
  have hsome := firstRepeated_eq_some_iff.mpr ⟨i, hname, ⟨name, hne, hname, hi⟩, hbefore⟩
  simp [h] at hsome

end Program

namespace Document

/-- The name of the routine at a place. -/
def nameAt? (d : Document) (i : Nat) : Option String := (d.routines[i]?).map Routine.name

/-- The routine at a place has a name that is not empty and that an earlier routine has too. -/
def RepeatsName (d : Document) (j : Nat) : Prop :=
  ∃ name ≠ "", d.nameAt? j = some name ∧ ∃ i < j, d.nameAt? i = some name

/-- Two routines have the same name, which is not empty. -/
def SharesName (d : Document) : Prop :=
  ∃ i j, i ≠ j ∧ ∃ name ≠ "", d.nameAt? i = some name ∧ d.nameAt? j = some name

variable {d : Document} {i j : Nat}

theorem getElem?_map_name : (d.routines.map Routine.name)[i]? = d.nameAt? i := List.getElem?_map

theorem repeatsName_iff : d.RepeatsName j ↔ RepeatsAt [] (d.routines.map Routine.name) j := by
  simp only [RepeatsName, RepeatsAt, List.not_mem_nil, false_or, getElem?_map_name]

/-- Two routines share a name if and only if the later of them repeats it. -/
theorem sharesName_iff : d.SharesName ↔ ∃ j, d.RepeatsName j := by
  constructor
  · rintro ⟨i, j, hne, name, hname, hi, hj⟩
    rcases Nat.lt_or_gt_of_ne hne with hlt | hgt
    · exact ⟨j, name, hname, hj, i, hlt, hi⟩
    · exact ⟨i, name, hname, hi, j, hgt, hj⟩
  · rintro ⟨j, name, hname, hj, i, hlt, hi⟩
    exact ⟨i, j, Nat.ne_of_lt hlt, name, hname, hi, hj⟩

end Document

/-! ## Repeated ids -/

namespace TemplateSet

/-- Of the ids that are inserted, those that are there already are left out, and of the others the
first occurrences are added. -/
theorem ids_insertAll_eq (s : TemplateSet) (ids : List String) :
    (s.insertAll ids).1.ids = s.ids ++ (ids.filter fun id => id ∉ s).eraseDups := by
  induction ids generalizing s with
  | nil => simp [insertAll]
  | cons id ids ih =>
    rw [insertAll]
    dsimp only
    rw [ih]
    by_cases hid : id ∈ s
    · rw [insert_of_mem hid, List.filter_cons_of_neg (by simpa using hid)]
    · -- what is left of the others is without the ids of `s` and without `id`
      have hrest : (ids.filter fun x => x ∉ (s.insert id).1) =
          (ids.filter fun x => x ∉ s).filter fun x => !x == id := by
        rw [List.filter_filter]
        refine List.filter_congr fun x _ => ?_
        simp [Bool.and_comm, beq_eq_decide]
      rw [ids_insert_of_not_mem hid, List.filter_cons_of_pos (by simpa using hid),
        List.eraseDups_cons, hrest, List.append_assoc, List.singleton_append]

/-- The set of a list of ids keeps the first occurrence of each. -/
theorem ids_ofList_eq_eraseDups (ids : List String) : (ofList ids).ids = ids.eraseDups := by
  have hall : (ids.filter fun id => id ∉ empty) = ids :=
    List.filter_eq_self.mpr (by simp [empty, mem_iff])
  rw [ofList, ids_insertAll_eq, hall]
  rfl

end TemplateSet

namespace Document

/-- A region with its list of templates changed. -/
def Region.mapTemplates (f : List String → List String) (r : Region) : Region :=
  { r with templates := f r.templates }

/-- A routine with the lists of templates of its markers and its container changed. -/
def Routine.mapTemplates (f : List String → List String) (r : Routine) : Routine :=
  { r with
    regions := r.regions.map (Region.mapTemplates f)
    active := r.active.map (Region.mapTemplates f) }

/-- A document with the lists of templates of all markers and containers changed. -/
def mapTemplates (f : List String → List String) (d : Document) : Document :=
  { d with routines := d.routines.map (Routine.mapTemplates f) }

theorem distinct_eq_mapTemplates (d : Document) : d.distinct = d.mapTemplates List.eraseDups := by
  have hregion : Region.distinct = Region.mapTemplates List.eraseDups := by
    funext r
    rw [Region.distinct, TemplateSet.ids_ofList_eq_eraseDups, Region.mapTemplates]
  have hroutine : Routine.distinct = Routine.mapTemplates List.eraseDups := by
    funext r
    rw [Routine.distinct, hregion, Routine.mapTemplates]
  rw [distinct, hroutine, mapTemplates]

end Document

namespace Program

variable {d : Document}

/-- A document with two routines of one name is refused, with the first name that is repeated. Any
other is lowered, and raised again it is the same but for its lists of templates, in which the first
occurrence of each id is left. -/
theorem toDocument_ofDocument_or_repeats (d : Document) :
    (d.SharesName ∧ ∃ j name, d.nameAt? j = some name ∧ d.RepeatsName j ∧
      (∀ i < j, ¬ d.RepeatsName i) ∧ ofDocument d = .error (.duplicateRoutine name)) ∨
    (¬ d.SharesName ∧ ∃ p, ofDocument d = .ok p ∧
      p.toDocument = d.mapTemplates List.eraseDups) := by
  cases hrepeated : firstRepeated [] (d.routines.map Document.Routine.name) with
  | some name =>
    left
    obtain ⟨j, hname, hrepeats, hbefore⟩ := firstRepeated_eq_some_iff.mp hrepeated
    simp only [Document.getElem?_map_name, ← Document.repeatsName_iff] at hname hrepeats hbefore
    refine ⟨Document.sharesName_iff.mpr ⟨j, hrepeats⟩, j, name, hname, hrepeats, hbefore, ?_⟩
    rw [ofDocument, hrepeated]
  | none =>
    right
    have hnone := not_repeatsAt_of_firstRepeated_eq_none hrepeated
    simp only [← Document.repeatsName_iff] at hnone
    obtain ⟨p, hp⟩ : ∃ p, ofDocument d = .ok p := ⟨_, ofDocument_eq_ok_iff.mpr ⟨hrepeated, rfl⟩⟩
    refine ⟨fun hshares => ?_, p, hp, ?_⟩
    · obtain ⟨j, hj⟩ := Document.sharesName_iff.mp hshares
      exact hnone j hj
    · rw [toDocument_ofDocument hp, Document.distinct_eq_mapTemplates]

end Program

end KernelGraph
