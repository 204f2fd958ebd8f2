import KernelGraph.Call.Mixing

/-!
# Look-ups in an index of calls

The index of a list of calls lists, for each name, the places of the calls with that name at an end.
Looked up against the calls that it was built from, it never finds a call that is listed wrongly.

## Main definitions

* `placesFrom` — the places of the calls with a name at one end

## Main results

* `find?_byCaller_build`, `find?_byCallee_build` — what the index lists under a name
* `calleesOf_build`, `callersOf_build` — what a look-up gives when the calls have not changed
* `hasErrors_check` — what a check for mixed calls finds are warnings
-/

namespace KernelGraph

/-- The places of the calls with a name at one end, when the first call has the place `start`. -/
def placesFrom (role : CallEnd) (name : String) (start : Nat) : List Call → List Nat
  | [] => []
  | c :: calls =>
    if c.nameAt role = name then start :: placesFrom role name (start + 1) calls
    else placesFrom role name (start + 1) calls

variable {calls : List Call} {index : CallIndex} {name key : String} {place start : Nat}
  {role : CallEnd}

/-- A place is listed at the end of the places of its name, and nothing else changes. -/
theorem find?_add (table : Adjacency) : (Adjacency.add name place table).find? key =
    if name = key then some ((table.find? key).getD [] ++ [place]) else table.find? key := by
  induction table with
  | nil =>
    by_cases hkey : name = key
    · simp [Adjacency.add, Adjacency.find?, hkey]
    · have hkey' : (key == name) = false := beq_eq_false_iff_ne.mpr (Ne.symm hkey)
      simp [Adjacency.add, Adjacency.find?, hkey, List.lookup_cons, hkey']
  | cons entry rest ih =>
    obtain ⟨n, places⟩ := entry
    simp only [Adjacency.find?] at ih ⊢
    rw [Adjacency.add]
    -- whose entry is the first: the one that grows, the one looked for, or neither
    by_cases hn : n = name
    · by_cases hkey : name = key
      · simp [hn, hkey]
      · have hkey' : (key == name) = false := beq_eq_false_iff_ne.mpr (Ne.symm hkey)
        simp [hn, hkey, List.lookup_cons, hkey']
    · by_cases hkey : n = key
      · subst hkey
        simp [hn, Ne.symm hn]
      · have hkey' : (key == n) = false := beq_eq_false_iff_ne.mpr (Ne.symm hkey)
        simp [hn, List.lookup_cons, hkey', ih]

theorem find?_byCaller_addFrom :
    ((index.addFrom start calls).byCaller.find? name).getD [] =
      (index.byCaller.find? name).getD [] ++ placesFrom .caller name start calls := by
  induction calls generalizing index start with
  | nil => simp [CallIndex.addFrom, placesFrom]
  | cons c calls ih =>
    rw [CallIndex.addFrom, ih, CallIndex.add, find?_add, placesFrom, Call.nameAt]
    split <;> simp

theorem find?_byCallee_addFrom :
    ((index.addFrom start calls).byCallee.find? name).getD [] =
      (index.byCallee.find? name).getD [] ++ placesFrom .callee name start calls := by
  induction calls generalizing index start with
  | nil => simp [CallIndex.addFrom, placesFrom]
  | cons c calls ih =>
    rw [CallIndex.addFrom, ih, CallIndex.add, find?_add, placesFrom, Call.nameAt]
    split <;> simp

/-- Under a name the index lists the places of the calls with that caller. -/
theorem find?_byCaller_build :
    ((CallIndex.build calls).byCaller.find? name).getD [] = placesFrom .caller name 0 calls :=
  find?_byCaller_addFrom

/-- Under a name the index lists the places of the calls with that callee. -/
theorem find?_byCallee_build :
    ((CallIndex.build calls).byCallee.find? name).getD [] = placesFrom .callee name 0 calls :=
  find?_byCallee_addFrom

/-- The places of the last calls are resolved to those of them that have the name. -/
theorem resolve_placesFrom (before calls : List Call) :
    resolve (before ++ calls) name role (placesFrom role name before.length calls) =
      .ok (calls.filter (·.nameAt role = name)) := by
  induction calls generalizing before with
  | nil => rfl
  | cons c calls ih =>
    -- the places are counted from the start of all calls, so `c` joins those before
    have hrest := ih (before ++ [c])
    rw [List.append_assoc, List.singleton_append, List.length_append, List.length_singleton]
      at hrest
    rw [placesFrom]
    by_cases hname : c.nameAt role = name
    · rw [if_pos hname, resolve]
      simp [hname, hrest, Except.map]
    · rw [if_neg hname, hrest, List.filter_cons_of_neg (by simpa using hname)]

/-- The calls made under a name, when the calls have not changed. -/
theorem calleesOf_build :
    (CallIndex.build calls).calleesOf calls name = .ok (calls.filter (·.caller = name)) := by
  rw [CallIndex.calleesOf, find?_byCaller_build]
  exact resolve_placesFrom [] calls

/-- The calls to a name, when the calls have not changed. -/
theorem callersOf_build :
    (CallIndex.build calls).callersOf calls name = .ok (calls.filter (·.callee = name)) := by
  rw [CallIndex.callersOf, find?_byCallee_build]
  exact resolve_placesFrom [] calls

/-! ## Mixed calls -/

section Mixing

variable {catalog : Catalog} {reported : Reported} {findings : List Diagnostic}

theorem hasErrors_checkCalls {made : List Call}
    (h : (reported.checkCalls calls index catalog name made).1 = .ok findings) :
    hasErrors findings = false := by
  induction made generalizing reported findings with
  | nil => exact Except.ok.inj h ▸ rfl
  | cons c rest ih =>
    rw [Reported.checkCalls] at h
    split at h
    · simp at h
    · exact ih h
    · rename_i inner _
      split at h
      · exact ih h
      · -- the finding in front is a warning, told in full or for short
        have hwarning : ∀ k w, (reported.finding c.caller k w).isError = false := by
          intro k w
          rw [Reported.finding]
          split <;> rfl
        cases hrest : ((reported.add c.caller).checkCalls calls index catalog name rest).1 with
        | error e => simp [hrest, Except.map] at h
        | ok others =>
          simp only [hrest, Except.map, Except.ok.injEq] at h
          rw [← h, hasErrors, List.any_cons, hwarning, Bool.false_or]
          exact ih hrest

/-- A check for mixed calls finds no errors. -/
theorem hasErrors_check (h : (reported.check calls index catalog name).1 = .ok findings) :
    hasErrors findings = false := by
  rw [Reported.check] at h
  split at h
  · simp at h
  · exact hasErrors_checkCalls h

end Mixing

end KernelGraph
