import KernelGraph.Json.Reader
import Mathlib.Data.String.Basic

/-!
# Values as they are read

A value that has been read is regular: the members of its objects are sorted by key, each key once,
and its lists and objects do not nest deeper than the reader allows. The same is true of the fields
that a record keeps, none of which is a known one.

## Main definitions

* `Value.Regular`, `Fields.Regular` — values and fields as they are read
* `Reader.Gives` — all that a reader gives has a property

## Main results

* `gives_elements`, `gives_members` — what the loops for lists and objects give
* `Value.gives_read` — reading gives regular values
-/

namespace KernelGraph

/-- The members of an object are sorted by key, and no key occurs twice. -/
def Fields.Sorted (fields : Fields) : Prop := fields.Pairwise fun m m' => m.1 < m'.1

/-- A value whose lists and objects have a number of levels to nest in, and whose objects are
sorted. -/
inductive Value.Regular : Nat → Value → Prop
  | null {depth : Nat} : Regular depth .null
  | bool {depth : Nat} (b : Bool) : Regular depth (.bool b)
  | number {depth : Nat} (n : Number) : Regular depth (.number n)
  | text {depth : Nat} (s : String) : Regular depth (.text s)
  | list {depth : Nat} {vs : List Value} (values : ∀ v ∈ vs, Regular depth v) :
    Regular (depth + 1) (.list vs)
  | object {depth : Nat} {fields : List (String × Value)} (sorted : Fields.Sorted fields)
    (values : ∀ m ∈ fields, Regular depth m.2) : Regular (depth + 1) (.object fields)

/-- The fields that a record keeps: they are sorted, none of them is known, and their values are
regular. -/
structure Fields.Regular (known : List String) (depth : Nat) (fields : Fields) : Prop where
  sorted : fields.Sorted
  unknown : ∀ m ∈ fields, m.1 ∉ known
  values : ∀ m ∈ fields, m.2.Regular depth

namespace Fields

variable {fields others : Fields} {key : String} {value : Value} {m : String × Value}
  {known : List String} {depth : Nat}

theorem mem_insert (h : m ∈ insert key value fields) : m = (key, value) ∨ m ∈ fields := by
  induction fields with
  | nil => simpa [insert] using h
  | cons first rest ih =>
    obtain ⟨k, v⟩ := first
    rw [insert] at h
    split at h
    · exact List.mem_cons.mp h
    · split at h
      · exact (List.mem_cons.mp h).imp_right (List.mem_cons_of_mem _)
      · rcases List.mem_cons.mp h with rfl | h
        · exact Or.inr List.mem_cons_self
        · exact (ih h).imp_right (List.mem_cons_of_mem _)

/-- A member is set in its place in the order. -/
theorem Sorted.insert (h : fields.Sorted) : (insert key value fields).Sorted := by
  induction fields with
  | nil => exact List.pairwise_singleton _ _
  | cons first rest ih =>
    obtain ⟨k, v⟩ := first
    obtain ⟨hfirst, hrest⟩ := List.pairwise_cons.mp h
    rw [Fields.insert]
    split
    · rename_i hless
      refine List.pairwise_cons.mpr ⟨fun m hm => ?_, h⟩
      rcases List.mem_cons.mp hm with rfl | hm
      · exact hless
      · exact hless.trans (hfirst m hm)
    · rename_i hless
      split
      · rename_i hsame
        exact List.pairwise_cons.mpr ⟨hsame ▸ hfirst, hrest⟩
      · rename_i hne
        refine List.pairwise_cons.mpr ⟨fun m hm => ?_, ih hrest⟩
        rcases mem_insert hm with rfl | hm
        · exact lt_of_le_of_ne (not_lt.mp hless) (Ne.symm hne)
        · exact hfirst m hm

theorem regular_nil : Fields.Regular known depth [] :=
  ⟨List.Pairwise.nil, by simp, by simp⟩

/-- Fields stay regular when one more is set that is not known. -/
theorem Regular.insert (h : fields.Regular known depth) (hkey : key ∉ known)
    (hvalue : value.Regular depth) : (insert key value fields).Regular known depth where
  sorted := h.sorted.insert
  unknown m hm := by
    rcases mem_insert hm with rfl | hm
    · exact hkey
    · exact h.unknown m hm
  values m hm := by
    rcases mem_insert hm with rfl | hm
    · exact hvalue
    · exact h.values m hm

theorem mem_insertNew (h : m ∈ insertNew key value fields) : m = (key, value) ∨ m ∈ fields := by
  rw [insertNew] at h
  split at h
  · exact Or.inr h
  · exact mem_insert h

/-- The members of merged fields are all from one of the two. -/
theorem mem_merge (h : m ∈ merge fields others) : m ∈ fields ∨ m ∈ others := by
  induction others generalizing fields with
  | nil => exact Or.inl h
  | cons first rest ih =>
    rcases ih h with hnew | hrest
    · rcases mem_insertNew hnew with rfl | hm
      · exact Or.inr List.mem_cons_self
      · exact Or.inl hm
    · exact Or.inr (List.mem_cons_of_mem first hrest)

theorem Sorted.insertNew (h : fields.Sorted) : (insertNew key value fields).Sorted := by
  rw [Fields.insertNew]
  split
  · exact h
  · exact h.insert

theorem Sorted.merge (h : fields.Sorted) : (merge fields others).Sorted := by
  induction others generalizing fields with
  | nil => exact h
  | cons first rest ih => exact ih h.insertNew

/-- Regular fields are merged into regular ones. -/
theorem Regular.merge (h : fields.Regular known depth) (h' : others.Regular known depth) :
    (merge fields others).Regular known depth where
  sorted := h.sorted.merge
  unknown m hm := (mem_merge hm).elim (h.unknown m) (h'.unknown m)
  values m hm := (mem_merge hm).elim (h.values m) (h'.values m)

end Fields

/-- A value may stand where there is more room. -/
theorem Value.Regular.succ {v : Value} {depth : Nat} (h : v.Regular depth) :
    v.Regular (depth + 1) := by
  induction h with
  | null => exact .null
  | bool b => exact .bool b
  | number n => exact .number n
  | text s => exact .text s
  | list _ ih => exact .list ih
  | object sorted _ ih => exact .object sorted ih

theorem Fields.Regular.succ {fields : Fields} {known : List String} {depth : Nat}
    (h : fields.Regular known depth) : fields.Regular known (depth + 1) :=
  ⟨h.sorted, h.unknown, fun m hm => (h.values m hm).succ⟩

/-! ## What a reader gives -/

/-- All that a reader gives has a property. -/
def Reader.Gives {α : Type} (r : Reader α) (P : α → Prop) : Prop :=
  ∀ s a rest, r s = .ok (a, rest) → P a

theorem of_bind_eq_ok {α β : Type} {x : Except Fault α} {f : α → Except Fault β} {b : β}
    (h : x >>= f = .ok b) : ∃ a, x = .ok a ∧ f a = .ok b := by
  cases x with
  | error e => simp [bind, Except.bind] at h
  | ok a => exact ⟨a, rfl, h⟩

section Loops

variable {α κ σ : Type} {item : Reader α} {P : α → Prop} {key : Reader κ}
  {member : σ → κ → Reader σ} {I : σ → Prop} {start : σ}

theorem gives_moreElements (h : Reader.Gives item P) (bound : Nat) :
    Reader.Gives (moreElements item bound) fun as => ∀ a ∈ as, P a := by
  induction bound with
  | zero => intro s as rest hread; simp [moreElements] at hread
  | succ bound ih =>
    intro s as rest hread
    rw [moreElements] at hread
    split at hread
    · simp at hread
    · obtain ⟨rfl, -⟩ := Prod.mk.inj (Except.ok.inj hread)
      simp
    · split at hread
      · simp at hread
      · simp at hread
      · obtain ⟨⟨a, s₁⟩, hitem, hread⟩ := of_bind_eq_ok hread
        obtain ⟨⟨more, s₂⟩, hmore, hread⟩ := of_bind_eq_ok hread
        obtain ⟨rfl, -⟩ := Prod.mk.inj (Except.ok.inj hread)
        exact List.forall_mem_cons.mpr ⟨h _ _ _ hitem, ih _ _ _ hmore⟩
    · simp at hread

/-- What holds of each element that is read holds of all elements of a list. -/
theorem gives_elements (h : Reader.Gives item P) :
    Reader.Gives (elements item) fun as => ∀ a ∈ as, P a := by
  intro s as rest hread
  rw [elements] at hread
  split at hread
  · simp at hread
  · obtain ⟨rfl, -⟩ := Prod.mk.inj (Except.ok.inj hread)
    simp
  · obtain ⟨⟨a, s₁⟩, hitem, hread⟩ := of_bind_eq_ok hread
    obtain ⟨⟨more, s₂⟩, hmore, hread⟩ := of_bind_eq_ok hread
    obtain ⟨rfl, -⟩ := Prod.mk.inj (Except.ok.inj hread)
    exact List.forall_mem_cons.mpr ⟨h _ _ _ hitem, gives_moreElements h _ _ _ _ hmore⟩

theorem gives_moreMembers (h : ∀ state k, I state → Reader.Gives (member state k) I) (bound : Nat)
    (hstart : I start) : Reader.Gives (moreMembers key member bound start) I := by
  induction bound generalizing start with
  | zero => intro s state rest hread; simp [moreMembers] at hread
  | succ bound ih =>
    intro s state rest hread
    rw [moreMembers] at hread
    split at hread
    · simp at hread
    · obtain ⟨rfl, -⟩ := Prod.mk.inj (Except.ok.inj hread)
      exact hstart
    · split at hread
      · simp at hread
      · obtain ⟨⟨k, s₁⟩, _, hread⟩ := of_bind_eq_ok hread
        obtain ⟨⟨next, s₂⟩, hmember, hread⟩ := of_bind_eq_ok hread
        exact ih (h _ _ hstart _ _ _ hmember) _ _ _ hread
      · simp at hread
    · simp at hread

/-- What each member keeps is kept by all members of an object. -/
theorem gives_members (h : ∀ state k, I state → Reader.Gives (member state k) I)
    (hstart : I start) : Reader.Gives (members key member start) I := by
  intro s state rest hread
  rw [members] at hread
  split at hread
  · simp at hread
  · obtain ⟨rfl, -⟩ := Prod.mk.inj (Except.ok.inj hread)
    exact hstart
  · obtain ⟨⟨k, s₁⟩, _, hread⟩ := of_bind_eq_ok hread
    obtain ⟨⟨next, s₂⟩, hmember, hread⟩ := of_bind_eq_ok hread
    exact gives_moreMembers h _ (h _ _ hstart _ _ _ hmember) _ _ _ hread
  · simp at hread

end Loops

/-- A member that is kept is set among the fields. -/
theorem gives_keptMember {value : Reader Value} {P : Value → Prop} {Q : Fields → Prop}
    {fields : Fields} {key : String} (h : value.Gives P)
    (hinsert : ∀ v, P v → Q (fields.insert key v)) :
    Reader.Gives (keptMember value fields key) Q := by
  intro s after rest hread
  obtain ⟨s₁, _, hread⟩ := of_bind_eq_ok hread
  obtain ⟨⟨v, s₂⟩, hvalue, hread⟩ := of_bind_eq_ok hread
  obtain ⟨rfl, -⟩ := Prod.mk.inj (Except.ok.inj hread)
  exact hinsert v (h _ _ _ hvalue)

/-- Reading gives regular values. -/
theorem Value.gives_read (depth : Nat) : Reader.Gives (read depth) (Regular depth) := by
  intro s v rest hread
  unfold read at hread
  split at hread
  · simp at hread
  · obtain ⟨_, _, hread⟩ := of_bind_eq_ok hread
    obtain ⟨rfl, -⟩ := Prod.mk.inj (Except.ok.inj hread)
    exact .null
  · obtain ⟨_, _, hread⟩ := of_bind_eq_ok hread
    obtain ⟨rfl, -⟩ := Prod.mk.inj (Except.ok.inj hread)
    exact .bool true
  · obtain ⟨_, _, hread⟩ := of_bind_eq_ok hread
    obtain ⟨rfl, -⟩ := Prod.mk.inj (Except.ok.inj hread)
    exact .bool false
  · obtain ⟨_, _, hread⟩ := of_bind_eq_ok hread
    obtain ⟨rfl, -⟩ := Prod.mk.inj (Except.ok.inj hread)
    exact .text _
  · obtain ⟨_, _, hread⟩ := of_bind_eq_ok hread
    obtain ⟨rfl, -⟩ := Prod.mk.inj (Except.ok.inj hread)
    exact .number _
  · split at hread
    · simp at hread
    · rename_i depth
      obtain ⟨⟨vs, _⟩, hlist, hread⟩ := of_bind_eq_ok hread
      obtain ⟨rfl, -⟩ := Prod.mk.inj (Except.ok.inj hread)
      exact .list (gives_elements (gives_read depth) _ _ _ hlist)
  · split at hread
    · simp at hread
    · rename_i depth
      obtain ⟨⟨fields, _⟩, hobject, hread⟩ := of_bind_eq_ok hread
      obtain ⟨rfl, -⟩ := Prod.mk.inj (Except.ok.inj hread)
      have hmember : ∀ state key, state.Regular [] depth →
          Reader.Gives (keptMember (read depth) state key) (Fields.Regular [] depth) :=
        fun state key hstate => gives_keptMember (gives_read depth) fun v hv =>
          hstate.insert List.not_mem_nil hv
      have hfields : fields.Regular [] depth :=
        gives_members hmember Fields.regular_nil _ _ _ hobject
      exact .object hfields.sorted hfields.values
  · split at hread
    · obtain ⟨_, _, hread⟩ := of_bind_eq_ok hread
      obtain ⟨rfl, -⟩ := Prod.mk.inj (Except.ok.inj hread)
      exact .number _
    · simp at hread
termination_by depth

end KernelGraph
