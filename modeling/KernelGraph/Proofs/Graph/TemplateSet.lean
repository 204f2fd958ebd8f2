import KernelGraph.Proofs.Graph.Repeats

/-!
# The order of template ids

A set of template ids comes about by operations: it is made of a list, ids are inserted, other sets
are merged into it, and ids are dropped. Whatever has been done, the ids that it stores are a plain
list that can be told from the operations. An id that is there already is never added again, and
what is new goes to the end, in the order in which it comes. So it does not matter how merges are
grouped, and a set that has been merged has nothing more to add.

## Main definitions

* `TemplateSet.History` — the operations by which a set has come about
* `TemplateSet.History.set`, `TemplateSet.History.listed` — the set, and the list of its ids

## Main results

* `TemplateSet.ids_insert`, `TemplateSet.insert_snd` — inserting an id
* `TemplateSet.ids_union`, `TemplateSet.size_union` — merging a set
* `TemplateSet.merge_union`, `TemplateSet.union_assoc` — merging again, and one set after another
* `TemplateSet.History.ids_set` — the ids of a set from its history
* `TemplateSet.History.stores_in_order` — all of this for sets with any history
-/

namespace KernelGraph.TemplateSet

variable {s t u : TemplateSet} {id : String}

/-! ## Inserting -/

/-- An id is added at the end unless it is there. -/
theorem ids_insert : (s.insert id).1.ids = if id ∈ s then s.ids else s.ids ++ [id] := by
  split
  · rename_i hmem
    rw [insert_of_mem hmem]
  · rename_i hnew
    exact ids_insert_of_not_mem hnew

/-- Inserting tells whether the id was new. -/
theorem insert_snd : (s.insert id).2 ↔ id ∉ s := by
  by_cases hmem : id ∈ s
  · simp [insert_of_mem hmem, hmem]
  · rw [insert, dif_neg (mt mem_iff.mpr hmem)]
    exact iff_of_true rfl hmem

theorem size_insert : (s.insert id).1.size = s.size + (s.insert id).2.toNat := by
  by_cases hmem : id ∈ s
  · rw [insert_of_mem hmem]
    rfl
  · rw [size, ids_insert_of_not_mem hmem, insert_snd.mpr hmem, List.length_append]
    rfl

/-- What is counted when ids are inserted is how many more there are. -/
theorem size_insertAll {ids : List String} :
    (s.insertAll ids).1.size = s.size + (s.insertAll ids).2 := by
  induction ids generalizing s with
  | nil => rfl
  | cons id ids ih =>
    rw [insertAll]
    dsimp only
    rw [ih, size_insert, Nat.add_right_comm, Nat.add_assoc]

/-! ## Merging -/

/-- A union lists the ids of the first set, and then those of the second that the first has not. -/
theorem ids_union : (s ∪ t).ids = s.ids ++ t.ids.filter fun id => id ∉ s := by
  have hdistinct : (t.ids.filter fun id => id ∉ s).eraseDups = t.ids.filter fun id => id ∉ s := by
    rw [← ids_ofList_eq_eraseDups]
    exact ids_ofList (t.nodup.filter _)
  exact (ids_insertAll_eq s t.ids).trans (congrArg (s.ids ++ ·) hdistinct)

theorem size_union : (s ∪ t).size = s.size + (s.merge t).2 := size_insertAll

/-- A set that has been merged has nothing more to add. -/
theorem merge_union : (s ∪ t).merge t = (s ∪ t, 0) := by
  have hsame : (s ∪ t) ∪ t = s ∪ t := union_eq_left fun _ hx => mem_union.mpr (Or.inr hx)
  have hnone : ((s ∪ t).merge t).2 = 0 := by
    have hsize : ((s ∪ t) ∪ t).size = (s ∪ t).size + ((s ∪ t).merge t).2 := size_union
    rw [hsame] at hsize
    omega
  exact Prod.ext hsame hnone

/-- Merging one set after another is merging the union of the two. -/
theorem union_assoc : (s ∪ t) ∪ u = s ∪ (t ∪ u) := by
  -- on both sides, the ids of `u` that come in are those that neither `s` nor `t` has
  have hthird : (u.ids.filter fun id => id ∉ s ∪ t) =
      (u.ids.filter fun id => id ∉ t).filter fun id => id ∉ s := by
    rw [List.filter_filter]
    refine List.filter_congr fun id _ => ?_
    simp
  apply ext
  calc ((s ∪ t) ∪ u).ids
      = (s.ids ++ t.ids.filter fun id => id ∉ s) ++ u.ids.filter fun id => id ∉ s ∪ t := by
        rw [ids_union, ids_union]
    _ = s.ids ++ (t.ids ++ u.ids.filter fun id => id ∉ t).filter fun id => id ∉ s := by
        rw [hthird, List.append_assoc, List.filter_append]
    _ = (s ∪ (t ∪ u)).ids := by rw [ids_union, ids_union]

/-! ## Histories -/

/-- The operations by which a set has come about, the last outermost. A set that is merged has a
history of its own. -/
inductive History
  /-- The set of the ids of a list. -/
  | ofList (ids : List String)
  /-- One id is inserted. -/
  | insert (before : History) (id : String)
  /-- Another set is merged. -/
  | merge (before other : History)
  /-- The ids that do not satisfy a condition are dropped. Each is there once and is tested once, so
  the outcome of its test may be taken as a function of it. -/
  | retain (before : History) (keep : String → Bool)

namespace History

/-- The set that has come about. -/
def set : History → TemplateSet
  | .ofList ids => TemplateSet.ofList ids
  | .insert before id => (before.set.insert id).1
  | .merge before other => (before.set.merge other.set).1
  | .retain before keep => before.set.retain keep

/-- The ids that are stored after the operations, in their order. -/
def listed : History → List String
  | .ofList ids => ids.eraseDups
  | .insert before id => if id ∈ before.listed then before.listed else before.listed ++ [id]
  | .merge before other => before.listed ++ other.listed.filter fun id => id ∉ before.listed
  | .retain before keep => before.listed.filter keep

/-- A set stores the ids that its history tells. -/
theorem ids_set (h : History) : h.set.ids = h.listed := by
  induction h with
  | ofList ids => exact ids_ofList_eq_eraseDups ids
  | insert before id ih => rw [set, ids_insert, listed, ← ih]; rfl
  | merge before other ih ihother =>
    have hunion : (before.set ∪ other.set).ids =
        before.set.ids ++ other.set.ids.filter fun id => id ∉ before.set := ids_union
    rw [listed, ← ih, ← ihother]
    exact hunion
  | retain before keep ih => rw [set, listed, ← ih]; rfl

theorem mem_set {h : History} : id ∈ h.set ↔ id ∈ h.listed := by rw [mem_iff, ids_set]

/-- Whatever has been done to a set, it stores the ids that its history tells, each once, and these
are the ids it has. An insertion tells whether the id is new. Merging another set adds the new ids
of the other, in its order, after those that are there, and tells how many they are. Merging it
again adds nothing, and merging a third set after it is merging the union of the other two. -/
theorem stores_in_order (h other third : History) :
    h.set.ids = h.listed ∧ h.listed.Nodup ∧
    (∀ id, id ∈ h.set ↔ id ∈ h.listed) ∧
    (∀ id, (h.set.insert id).2 ↔ id ∉ h.listed) ∧
    (h.set ∪ other.set).ids = h.listed ++ other.listed.filter (fun id => id ∉ h.listed) ∧
    (h.set ∪ other.set).size = h.set.size + (h.set.merge other.set).2 ∧
    (h.set ∪ other.set).merge other.set = (h.set ∪ other.set, 0) ∧
    (h.set ∪ other.set) ∪ third.set = h.set ∪ (other.set ∪ third.set) := by
  refine ⟨h.ids_set, h.ids_set ▸ h.set.nodup, fun _ => mem_set, fun _ => ?_, ?_, size_union,
    merge_union, union_assoc⟩
  · rw [insert_snd, mem_set]
  · exact (merge h other).ids_set

end History

end KernelGraph.TemplateSet
