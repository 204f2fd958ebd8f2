/-!
# Sets of template ids

A set of template ids remembers the order in which the ids came, and holds each once.

## Main definitions

* `TemplateSet` — the ids in order, without repetition
* `TemplateSet.insert`, `TemplateSet.merge` — add one id, or those of another set; both tell what
  was new
* `TemplateSet.union`, `TemplateSet.retain`, `TemplateSet.ofList`

## Main results

* `TemplateSet.mem_insert`, `TemplateSet.mem_union`, `TemplateSet.mem_retain`,
  `TemplateSet.mem_ofList` — which ids a set holds after an operation
* `TemplateSet.ids_prefix_union`, `TemplateSet.union_eq_left` — a union adds ids at the end, and
  only new ones
-/

namespace KernelGraph

/-- Template ids in the order in which they came, each once. -/
structure TemplateSet where
  ids : List String
  nodup : ids.Nodup
  deriving DecidableEq, Repr

namespace TemplateSet

/-- The set without ids. -/
def empty : TemplateSet := ⟨[], List.nodup_nil⟩

instance : EmptyCollection TemplateSet := ⟨empty⟩

instance : Inhabited TemplateSet := ⟨empty⟩

instance : Membership String TemplateSet := ⟨fun s id => id ∈ s.ids⟩

variable {s t : TemplateSet} {id x : String}

theorem mem_iff : id ∈ s ↔ id ∈ s.ids := Iff.rfl

@[simp] theorem not_mem_empty : id ∉ (∅ : TemplateSet) := List.not_mem_nil

/-- Two sets with the same ids in the same order are one. -/
@[ext] theorem ext (h : s.ids = t.ids) : s = t := by
  cases s
  cases t
  simp_all

instance (s : TemplateSet) (id : String) : Decidable (id ∈ s) :=
  inferInstanceAs (Decidable (id ∈ s.ids))

/-- The set with `id` at its end unless it is there, and whether it was new. -/
def insert (s : TemplateSet) (id : String) : TemplateSet × Bool :=
  if h : id ∈ s.ids then (s, false)
  else
    (⟨s.ids ++ [id], List.nodup_append.2
      ⟨s.nodup, by simp, fun a ha b hb hab => h (by simp_all)⟩⟩, true)

theorem insert_of_mem (h : id ∈ s) : s.insert id = (s, false) := dif_pos h

theorem ids_insert_of_not_mem (h : id ∉ s) : (s.insert id).1.ids = s.ids ++ [id] := by
  rw [insert, dif_neg (mt mem_iff.2 h)]

@[simp] theorem mem_insert : x ∈ (s.insert id).1 ↔ x ∈ s ∨ x = id := by
  by_cases h : id ∈ s
  · rw [insert_of_mem h]
    exact ⟨Or.inl, fun hx => hx.elim (·) (· ▸ h)⟩
  · rw [mem_iff, ids_insert_of_not_mem h, List.mem_append, List.mem_singleton, mem_iff]

/-- Inserts each of the ids in turn, and counts those that were new. -/
def insertAll (s : TemplateSet) : List String → TemplateSet × Nat
  | [] => (s, 0)
  | id :: ids =>
    let (s, isNew) := s.insert id
    let (s, count) := s.insertAll ids
    (s, count + isNew.toNat)

@[simp] theorem mem_insertAll {ids : List String} :
    x ∈ (s.insertAll ids).1 ↔ x ∈ s ∨ x ∈ ids := by
  induction ids generalizing s with
  | nil => simp [insertAll]
  | cons id ids ih => rw [insertAll, ih, mem_insert, List.mem_cons, or_assoc]

/-- The set with the ids of `t` inserted in their order, and how many of them were new. -/
def merge (s t : TemplateSet) : TemplateSet × Nat := s.insertAll t.ids

/-- The set with the ids of `t` inserted in their order. -/
def union (s t : TemplateSet) : TemplateSet := (s.merge t).1

instance : Union TemplateSet := ⟨union⟩

@[simp] theorem mem_union : x ∈ s ∪ t ↔ x ∈ s ∨ x ∈ t := mem_insertAll

/-- The ids that satisfy a condition, in their order. -/
def retain (s : TemplateSet) (keep : String → Bool) : TemplateSet :=
  ⟨s.ids.filter keep, s.nodup.filter keep⟩

@[simp] theorem mem_retain {keep : String → Bool} : x ∈ s.retain keep ↔ x ∈ s ∧ keep x :=
  List.mem_filter

/-- The set of the ids of a list, in the order of their first occurrences. -/
def ofList (ids : List String) : TemplateSet := (empty.insertAll ids).1

@[simp] theorem mem_ofList {ids : List String} : x ∈ ofList ids ↔ x ∈ ids := by
  rw [ofList, mem_insertAll]
  exact ⟨fun h => h.elim (fun h => absurd h not_mem_empty) (·), Or.inr⟩

theorem ids_prefix_insert : s.ids <+: (s.insert id).1.ids := by
  by_cases h : id ∈ s
  · simp only [insert_of_mem h, List.prefix_rfl]
  · rw [ids_insert_of_not_mem h]
    exact List.prefix_append _ _

theorem ids_prefix_insertAll {ids : List String} : s.ids <+: (s.insertAll ids).1.ids := by
  induction ids generalizing s with
  | nil => exact List.prefix_rfl
  | cons id ids ih => exact ids_prefix_insert.trans ih

/-- A union begins with the ids of the first set. -/
theorem ids_prefix_union : s.ids <+: (s ∪ t).ids := ids_prefix_insertAll

theorem insertAll_of_subset {ids : List String} (h : ∀ x ∈ ids, x ∈ s) :
    (s.insertAll ids).1 = s := by
  induction ids with
  | nil => rfl
  | cons id ids ih =>
    rw [insertAll, insert_of_mem (h id List.mem_cons_self)]
    exact ih fun x hx => h x (List.mem_cons_of_mem _ hx)

/-- A union with ids that are there already is the first set. -/
theorem union_eq_left (h : ∀ x ∈ t, x ∈ s) : s ∪ t = s := insertAll_of_subset h

/-- The number of ids. -/
def size (s : TemplateSet) : Nat := s.ids.length

/-- Does the set hold no id? -/
def isEmpty (s : TemplateSet) : Bool := s.ids.isEmpty

theorem isEmpty_iff : s.isEmpty ↔ ∀ id, id ∉ s := by
  rw [isEmpty, List.isEmpty_iff, List.eq_nil_iff_forall_not_mem]
  rfl

/-- The ids between brackets. -/
def describe (s : TemplateSet) : String := "[" ++ ", ".intercalate s.ids ++ "]"

end TemplateSet

end KernelGraph
