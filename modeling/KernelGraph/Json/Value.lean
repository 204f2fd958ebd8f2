import KernelGraph.Decimal.Shortest

/-!
# JSON values

The values that a document keeps without interpreting them. Numbers keep the distinction that the
text makes: a whole number that fits 64 bits stays one, everything else is a double. The members
of an object are sorted by key, in the order of code points, and no key occurs twice.

## Main definitions

* `Number`, `Value` — the data
* `Fields` — the members of an object, with `Fields.insert`, `Fields.insertNew` and `Fields.find?`

## Main results

* `Fields.find?_insert` — what is found after a member has been set
* `Fields.find?_merge_of_some` — what is found stays so when new members are added
-/

namespace KernelGraph

/-- A JSON number: a whole number that fits a signed or an unsigned word of 64 bits, or a
double. -/
inductive Number
  | integer (i : Int) (fits : -0x8000000000000000 ≤ i ∧ i < 0x10000000000000000)
  | double (x : Binary64)
  deriving DecidableEq, Repr

/-- A JSON value. -/
inductive Value
  | null
  | bool (b : Bool)
  | number (n : Number)
  | text (s : String)
  | list (vs : List Value)
  | object (fields : List (String × Value))
  deriving Repr

/-- The members of an object, sorted by key. -/
abbrev Fields := List (String × Value)

namespace Value

mutual

/-- Equality of values is decided from the leaves up. -/
def decideEq : (v w : Value) → Decidable (v = w)
  | .null, w => by cases w <;> first | exact isTrue rfl | exact isFalse (by simp)
  | .bool b, w => by
    cases w with
    | bool c => exact decidable_of_iff (b = c) (by simp)
    | _ => exact isFalse (by simp)
  | .number m, w => by
    cases w with
    | number n => exact decidable_of_iff (m = n) (by simp)
    | _ => exact isFalse (by simp)
  | .text s, w => by
    cases w with
    | text t => exact decidable_of_iff (s = t) (by simp)
    | _ => exact isFalse (by simp)
  | .list vs, w =>
    match w with
    | .list ws =>
      match decideEqList vs ws with
      | isTrue h => isTrue (by rw [h])
      | isFalse h => isFalse (by simpa using h)
    | .null | .bool _ | .number _ | .text _ | .object _ => isFalse (by simp)
  | .object vs, w =>
    match w with
    | .object ws =>
      match decideEqFields vs ws with
      | isTrue h => isTrue (by rw [h])
      | isFalse h => isFalse (by simpa using h)
    | .null | .bool _ | .number _ | .text _ | .list _ => isFalse (by simp)

/-- Equality of lists of values. -/
def decideEqList : (vs ws : List Value) → Decidable (vs = ws)
  | [], [] => isTrue rfl
  | [], _ :: _ => isFalse (by simp)
  | _ :: _, [] => isFalse (by simp)
  | v :: vs, w :: ws =>
    match decideEq v w, decideEqList vs ws with
    | isTrue h, isTrue k => isTrue (by rw [h, k])
    | isFalse h, _ => isFalse (by simp [h])
    | _, isFalse k => isFalse (by simp [k])

/-- Equality of lists of members. -/
def decideEqFields : (vs ws : List (String × Value)) → Decidable (vs = ws)
  | [], [] => isTrue rfl
  | [], _ :: _ => isFalse (by simp)
  | _ :: _, [] => isFalse (by simp)
  | (k, v) :: vs, (l, w) :: ws =>
    if hk : k = l then
      match decideEq v w, decideEqFields vs ws with
      | isTrue h, isTrue i => isTrue (by rw [hk, h, i])
      | isFalse h, _ => isFalse (by simp [h])
      | _, isFalse i => isFalse (by simp [i])
    else isFalse (by simp [hk])

end

instance : DecidableEq Value := decideEq

end Value

namespace Fields

/-- The member with key `key` set to `value`, in its place in the order. -/
def insert (key : String) (value : Value) : Fields → Fields
  | [] => [(key, value)]
  | (k, v) :: rest =>
    -- the first greater key ends the search
    if key < k then (key, value) :: (k, v) :: rest
    else if key = k then (key, value) :: rest
    else (k, v) :: insert key value rest

/-- The value of the member with key `key`. -/
def find? (fields : Fields) (key : String) : Option Value := List.lookup key fields

/-- A look-up asks the first member and then the others. -/
theorem find?_cons (k key : String) (v : Value) (rest : Fields) :
    find? ((k, v) :: rest) key = if key = k then some v else rest.find? key := by
  by_cases h : key = k
  · simp [find?, h]
  · simp [find?, List.lookup_cons, beq_false_of_ne h, h]

/-- Setting a member changes what is found under its key and under no other. -/
theorem find?_insert (key other : String) (value : Value) (fields : Fields) :
    (insert key value fields).find? other
      = if other = key then some value else fields.find? other := by
  induction fields with
  | nil => rw [insert, find?_cons]
  | cons member rest ih =>
    obtain ⟨k, v⟩ := member
    rw [insert]
    split
    · rw [find?_cons]
    · split
      · rename_i hk
        rw [find?_cons, find?_cons, hk]
        split <;> rfl
      · rename_i hk
        -- the first member stays in front, and its key is not the one set
        rw [find?_cons, find?_cons, ih]
        by_cases h : other = k
        · rw [if_pos h, if_pos h, if_neg (h ▸ Ne.symm hk)]
        · rw [if_neg h, if_neg h]

/-- The member set if its key is new; a member that is there keeps its value. -/
def insertNew (key : String) (value : Value) (fields : Fields) : Fields :=
  if (fields.find? key).isSome then fields else insert key value fields

/-- Every member of `others` with a new key, added to `fields`. -/
def merge (fields others : Fields) : Fields :=
  others.foldl (fun acc member => insertNew member.1 member.2 acc) fields

variable {key other : String} {value found : Value} {fields others : Fields}

theorem find?_insertNew_of_some (h : fields.find? other = some found) :
    (insertNew key value fields).find? other = some found := by
  rw [insertNew]
  split
  · exact h
  · rename_i hnew
    -- the key that is found is not the one that is new
    rw [find?_insert, if_neg, h]
    rintro rfl
    simp [h] at hnew

/-- Merging leaves the members that are there as they are. -/
theorem find?_merge_of_some (h : fields.find? key = some found) :
    (merge fields others).find? key = some found := by
  induction others generalizing fields with
  | nil => exact h
  | cons member others ih => exact ih (find?_insertNew_of_some h)

end Fields

end KernelGraph
