import KernelGraph.Proofs.Call.Index
import Mathlib.Data.List.Nodup

/-!
# What checks for mixed calls find

A check of one kernel goes through the calls to it and asks of each caller whether it calls a kernel
wrapper too. Several checks one after another find for each caller the first of its mixed calls, in
the order of the kernels and then of the calls.

## Main definitions

* `Mixed` — a caller with a kernel and a kernel wrapper that it calls
* `Mixed.ofKernel` — the mixed calls to one kernel
* `Mixed.firsts` — of several mixed calls, the first of each caller
* `Mixed.warnings` — the findings about them
* `Diagnostic.Quotes` — a name stands in the message of a finding
* `Check`, `Check.mixed` — what a check is given, and the mixed calls that it comes to know of

## Main results

* `Mixed.quotes_warning` — the names that a finding gives
* `checkCalls_eq` — what a check finds, and which callers have been reported then
* `check_build` — the same by an index of the current calls
* `mem_map_caller_flatMap_iff` — the callers that are found
-/

namespace KernelGraph

/-- The message of a finding has a name in it, between quotation marks. -/
def Diagnostic.Quotes (w : Diagnostic) (name : String) : Prop :=
  ("'" ++ name ++ "'").toList <:+: w.message.toList

/-- A caller, a kernel that it calls, and a kernel wrapper that it calls. -/
structure Mixed where
  caller : String
  kernel : String
  wrapper : String
  deriving DecidableEq, Repr

namespace Mixed

/-- Does the call lead to a kernel wrapper? Its callee is one if it calls a routine that hosts a
kernel. -/
def leadsToWrapper (calls : List Call) (hosts : String → Bool) (c : Call) : Bool :=
  calls.any fun inner => inner.caller = c.callee && hosts inner.callee

/-- The kernel wrapper to which the first such call of a caller leads. -/
def wrapperOf? (calls : List Call) (hosts : String → Bool) (caller : String) : Option String :=
  (calls.find? fun c => c.caller = caller && leadsToWrapper calls hosts c).map Call.callee

/-- The mixed calls to a kernel: one for each call to it whose caller calls a kernel wrapper. -/
def ofKernel (calls : List Call) (hosts : String → Bool) (kernel : String) : List Mixed :=
  (calls.filter (·.callee = kernel)).filterMap fun c =>
    (wrapperOf? calls hosts c.caller).map fun wrapper => ⟨c.caller, kernel, wrapper⟩

/-- Of several mixed calls, the first of each caller that has not been seen. -/
def firsts (seen : List String) : List Mixed → List Mixed
  | [] => []
  | x :: xs => if x.caller ∈ seen then firsts seen xs else x :: firsts (x.caller :: seen) xs

/-- The finding about a mixed call when others have been reported before: the first says in full
what is wrong, and those after it refer to it. -/
def warning (before : Nat) (x : Mixed) : Diagnostic :=
  if before = 0 then Reported.fullFinding x.caller x.kernel x.wrapper
  else Reported.shortFinding x.caller x.kernel x.wrapper

/-- The findings about mixed calls that are reported one after another. -/
def warnings (before : Nat) (xs : List Mixed) : List Diagnostic :=
  xs.mapIdx fun i x => x.warning (before + i)

variable {calls : List Call} {hosts : String → Bool} {caller kernel : String}
  {kernels seen : List String} {x : Mixed} {xs ys : List Mixed} {before : Nat}

/-! ## The first of each caller -/

theorem firsts_append : firsts seen (xs ++ ys) =
    firsts seen xs ++ firsts (((firsts seen xs).map Mixed.caller).reverse ++ seen) ys := by
  induction xs generalizing seen with
  | nil => rfl
  | cons x xs ih =>
    rw [List.cons_append, firsts, firsts]
    split
    · exact ih
    · simp [ih]

theorem mem_map_caller_firsts : caller ∈ (firsts seen xs).map Mixed.caller ↔
    caller ∉ seen ∧ caller ∈ xs.map Mixed.caller := by
  induction xs generalizing seen with
  | nil => simp [firsts]
  | cons x xs ih =>
    rw [firsts]
    split
    · grind
    · grind

theorem nodup_map_caller_firsts : ((firsts seen xs).map Mixed.caller).Nodup := by
  induction xs generalizing seen with
  | nil => exact List.nodup_nil
  | cons x xs ih =>
    rw [firsts]
    split
    · exact ih
    · rw [List.map_cons, List.nodup_cons, mem_map_caller_firsts]
      exact ⟨fun h => h.1 List.mem_cons_self, ih⟩

theorem firsts_ne_nil_iff : firsts seen xs ≠ [] ↔ ∃ x ∈ xs, x.caller ∉ seen := by
  constructor
  · intro h
    obtain ⟨x, hx⟩ := List.exists_mem_of_ne_nil _ h
    obtain ⟨hnew, hmem⟩ := mem_map_caller_firsts.mp (List.mem_map_of_mem hx)
    obtain ⟨y, hy, hcaller⟩ := List.mem_map.mp hmem
    exact ⟨y, hy, hcaller ▸ hnew⟩
  · rintro ⟨x, hx, hnew⟩ hnil
    have hmem := mem_map_caller_firsts.mpr ⟨hnew, List.mem_map_of_mem hx⟩
    simp [hnil] at hmem

/-! ## The findings -/

theorem length_warnings : (warnings before xs).length = xs.length := List.length_mapIdx

theorem warnings_eq_nil_iff : warnings before xs = [] ↔ xs = [] := by
  rw [← List.length_eq_zero_iff, length_warnings, List.length_eq_zero_iff]

theorem warnings_cons :
    warnings before (x :: xs) = x.warning before :: warnings (before + 1) xs := by
  rw [warnings, List.mapIdx_cons, warnings]
  simp only [Nat.add_zero, Nat.add_assoc, Nat.add_comm 1]

theorem warnings_append : warnings before (xs ++ ys) =
    warnings before xs ++ warnings (before + xs.length) ys := by
  rw [warnings, List.mapIdx_append, warnings, warnings]
  simp only [Nat.add_assoc, Nat.add_comm xs.length]

theorem subject_warning : (x.warning before).subject = some x.caller := by
  rw [warning]
  split <;> rfl

theorem map_subject_warnings :
    (warnings before xs).map Diagnostic.subject = xs.map fun x => some x.caller := by
  apply List.ext_getElem?
  intro i
  rw [warnings, List.getElem?_map, List.getElem?_mapIdx, List.getElem?_map, Option.map_map]
  exact congrArg (fun f => Option.map f xs[i]?) (funext fun x => subject_warning)

/-- A message with three names between quotation marks quotes them. -/
theorem quotes_of_message {w : Diagnostic} {a b c e first second third : String}
    (h : w.message = a ++ ("'" ++ first ++ "'") ++ b ++ ("'" ++ second ++ "'") ++ c
      ++ ("'" ++ third ++ "'") ++ e) : w.Quotes first ∧ w.Quotes second ∧ w.Quotes third := by
  refine ⟨⟨a.toList, (b ++ ("'" ++ second ++ "'") ++ c ++ ("'" ++ third ++ "'") ++ e).toList, ?_⟩,
    ⟨(a ++ ("'" ++ first ++ "'") ++ b).toList, (c ++ ("'" ++ third ++ "'") ++ e).toList, ?_⟩,
    ⟨(a ++ ("'" ++ first ++ "'") ++ b ++ ("'" ++ second ++ "'") ++ c).toList, e.toList, ?_⟩⟩ <;>
    simp [h]

/-- A finding about a mixed call gives the caller, the kernel and the kernel wrapper. -/
theorem quotes_warning :
    (x.warning before).Quotes x.caller ∧ (x.warning before).Quotes x.kernel ∧
      (x.warning before).Quotes x.wrapper := by
  rw [warning]
  split
  · apply quotes_of_message (a := "routine ") (b := " calls at least one kernel (")
      (c := ") and at least one kernel wrapper (")
      (e := "); this may cause device attribute mismatch compiler errors")
    apply String.toList_injective
    simp [Reported.fullFinding]
  · apply quotes_of_message (a := "...same for ") (b := ": calls kernel ")
      (c := ", kernel wrapper ") (e := "")
    apply String.toList_injective
    simp [Reported.shortFinding]

/-- No caller is named by two of the findings about mixed calls of different callers. -/
theorem nodup_map_subject_warnings (h : (xs.map Mixed.caller).Nodup) :
    ((warnings before xs).map Diagnostic.subject).Nodup := by
  have hsome := h.map (f := some) fun _ _ => Option.some.inj
  rw [List.map_map] at hsome
  rw [map_subject_warnings]
  exact hsome

/-- What is reported after a first finding refers to it. -/
theorem code_of_mem_warnings (hbefore : 0 < before) :
    ∀ w ∈ warnings before xs, w.code = some .mixedCallsAgain := by
  intro w hw
  obtain ⟨i, hi, rfl⟩ := List.mem_mapIdx.mp hw
  rw [warning, if_neg (by omega)]
  rfl

/-- The findings about the first mixed calls name all callers that have not been seen. -/
theorem exists_warnings_iff :
    (∃ w ∈ warnings before (firsts seen xs), w.subject = some caller) ↔
      caller ∉ seen ∧ caller ∈ xs.map Mixed.caller := by
  rw [← List.mem_map, map_subject_warnings, ← mem_map_caller_firsts]
  simp

/-! ## The mixed calls to kernels -/

theorem isSome_wrapperOf?_iff : (wrapperOf? calls hosts caller).isSome ↔
    ∃ c ∈ calls, c.caller = caller ∧
      ∃ inner ∈ calls, inner.caller = c.callee ∧ hosts inner.callee := by
  simp [wrapperOf?, leadsToWrapper]

/-- The callers of mixed calls are those that call a kernel and a kernel wrapper. -/
theorem mem_map_caller_flatMap_iff :
    caller ∈ (kernels.flatMap (ofKernel calls hosts)).map Mixed.caller ↔
      (∃ c ∈ calls, c.caller = caller ∧ c.callee ∈ kernels) ∧
        (wrapperOf? calls hosts caller).isSome := by
  simp only [List.mem_map, List.mem_flatMap, ofKernel, List.mem_filterMap, List.mem_filter,
    Option.map_eq_some_iff, decide_eq_true_eq, Option.isSome_iff_exists]
  constructor
  · rintro ⟨x, ⟨kernel, hkernel, c, ⟨hc, rfl⟩, wrapper, hwrapper, rfl⟩, rfl⟩
    exact ⟨⟨c, hc, rfl, hkernel⟩, wrapper, hwrapper⟩
  · rintro ⟨⟨c, hc, rfl, hkernel⟩, wrapper, hwrapper⟩
    exact ⟨_, ⟨c.callee, hkernel, c, ⟨hc, rfl⟩, wrapper, hwrapper, rfl⟩, rfl⟩

end Mixed

/-! ## Checks -/

/-- What a check is given: the calls, an index of them that may be out of date, a catalog, and the
name of a kernel. -/
structure Check where
  calls : List Call
  index : CallIndex
  catalog : Catalog
  kernel : String

namespace Check

/-- The search for a kernel wrapper among the calls of the caller of a call. -/
def search (k : Check) (c : Call) : Except AnalysisError (Option Call) :=
  firstWrapperCall k.calls k.index k.catalog c.caller

/-- The mixed call that a search makes known. -/
def mixed? (k : Check) (c : Call) : Option Mixed :=
  match k.search c with
  | .ok (some inner) => some ⟨c.caller, k.kernel, inner.callee⟩
  | _ => none

/-- The mixed calls that are known of several calls to the kernel when a check of them ends. It
stops at the first search that fails. -/
def mixed (k : Check) (made : List Call) : List Mixed :=
  (made.takeWhile fun c => (k.search c).isOk).filterMap k.mixed?

variable {k : Check} {c inner : Call} {made : List Call} {e : AnalysisError}

theorem mixed_cons_of_error (h : k.search c = .error e) : k.mixed (c :: made) = [] := by
  rw [mixed, List.takeWhile_cons_of_neg (by simp [h, Except.isOk, Except.toBool]),
    List.filterMap_nil]

theorem mixed_cons_of_ok {inner? : Option Call} (h : k.search c = .ok inner?) :
    k.mixed (c :: made) =
      (inner?.map fun inner => ⟨c.caller, k.kernel, inner.callee⟩).toList ++ k.mixed made := by
  have hmixed : k.mixed? c = inner?.map fun inner => ⟨c.caller, k.kernel, inner.callee⟩ := by
    rw [mixed?, h]
    cases inner? <;> rfl
  rw [mixed, List.takeWhile_cons_of_pos (by simp [h, Except.isOk, Except.toBool]),
    List.filterMap_cons, hmixed]
  cases inner? <;> rfl

/-- The searches for several calls all succeed, or one of them fails. -/
theorem isOk_mapM_search : (made.mapM k.search).isOk ↔ ∀ c ∈ made, (k.search c).isOk := by
  induction made with
  | nil => exact iff_of_true rfl (by simp)
  | cons c made ih =>
    rw [List.mapM_cons, List.forall_mem_cons, ← ih]
    cases k.search c with
    | error e => exact iff_of_false Bool.false_ne_true fun h => Bool.false_ne_true h.1
    | ok inner? =>
      rw [and_iff_right (show (Except.ok inner? : Except AnalysisError _).isOk from rfl)]
      cases made.mapM k.search <;> rfl

end Check

section Check

variable {calls : List Call} {catalog : Catalog} {kernel caller : String} {reported : Reported}

/-- The callers reported, and those of further mixed calls. -/
def Reported.addAll (reported : Reported) (xs : List Mixed) : Reported :=
  ⟨(xs.map Mixed.caller).reverse ++ reported.callers⟩

theorem addAll_cons (x : Mixed) (xs : List Mixed) :
    reported.addAll (x :: xs) = (reported.add x.caller).addAll xs := by
  simp [Reported.addAll, Reported.add]

theorem size_addAll (xs : List Mixed) :
    (reported.addAll xs).size = reported.size + xs.length := by
  simp [Reported.addAll, Reported.size, Nat.add_comm]

theorem warning_size_eq_finding {wrapper : String} :
    Mixed.warning reported.size ⟨caller, kernel, wrapper⟩ =
      reported.finding caller kernel wrapper := by
  rw [Mixed.warning, Reported.finding, Reported.size]
  simp only [List.isEmpty_iff_length_eq_zero]

/-- Whatever it is given, a check counts the first mixed call of each new caller that it comes to
know of, and reports them all if no search fails. -/
theorem checkCalls_eq (k : Check) (made : List Call) :
    reported.checkCalls k.calls k.index k.catalog k.kernel made =
      let found := Mixed.firsts reported.callers (k.mixed made)
      ((made.mapM k.search).map fun _ => Mixed.warnings reported.size found,
        reported.addAll found) := by
  induction made generalizing reported with
  | nil => rfl
  | cons c rest ih =>
    rw [Reported.checkCalls, List.mapM_cons]
    cases hsearch : firstWrapperCall k.calls k.index k.catalog c.caller with
    | error e =>
      have hfail : k.search c = .error e := hsearch
      rw [Check.mixed_cons_of_error hfail, hfail]
      rfl
    | ok inner? =>
      have hfound : k.search c = .ok inner? := hsearch
      rw [Check.mixed_cons_of_ok hfound, hfound]
      cases inner? with
      | none =>
        rw [ih]
        cases rest.mapM k.search <;> rfl
      | some inner =>
        simp only [Option.map_some, Option.toList_some, List.singleton_append, Mixed.firsts]
        split
        · rw [ih]
          cases rest.mapM k.search <;> rfl
        · -- the finding in front counts as one more reported for those after it
          rw [@ih (reported.add c.caller), ← warning_size_eq_finding, Mixed.warnings_cons,
            addAll_cons]
          cases rest.mapM k.search <;> rfl

theorem firstToWrapper_build (made : List Call) : firstToWrapper calls (.build calls) catalog made =
    .ok (made.find? (Mixed.leadsToWrapper calls catalog.hostsKernel)) := by
  induction made with
  | nil => rfl
  | cons c rest ih =>
    have hcallee : (calls.filter (·.caller = c.callee)).any
        (fun inner => catalog.hostsKernel inner.callee) =
          Mixed.leadsToWrapper calls catalog.hostsKernel c := by
      rw [List.any_filter, Mixed.leadsToWrapper]
    rw [firstToWrapper, calleesOf_build, List.find?_cons]
    dsimp only
    rw [hcallee]
    cases Mixed.leadsToWrapper calls catalog.hostsKernel c with
    | true => rfl
    | false => exact ih

/-- By an index of the current calls, the search for a kernel wrapper finds the first. -/
theorem map_callee_firstWrapperCall_build (calls : List Call) (catalog : Catalog)
    (caller : String) :
    (firstWrapperCall calls (.build calls) catalog caller).map (·.map Call.callee) =
      .ok (Mixed.wrapperOf? calls catalog.hostsKernel caller) := by
  rw [firstWrapperCall, calleesOf_build]
  dsimp only
  rw [firstToWrapper_build, List.find?_filter, Mixed.wrapperOf?]
  simp [Except.map]

/-- By an index of the current calls, no search fails. -/
theorem search_build (c : Call) : ∃ inner?,
    Check.search ⟨calls, .build calls, catalog, kernel⟩ c = .ok inner? ∧
      inner?.map Call.callee = Mixed.wrapperOf? calls catalog.hostsKernel c.caller := by
  have hsearch := map_callee_firstWrapperCall_build calls catalog c.caller
  cases hfirst : firstWrapperCall calls (.build calls) catalog c.caller with
  | error e => simp [hfirst, Except.map] at hsearch
  | ok inner? =>
    rw [hfirst] at hsearch
    exact ⟨inner?, hfirst, Except.ok.inj hsearch⟩

theorem isOk_search_build (c : Call) :
    (Check.search ⟨calls, .build calls, catalog, kernel⟩ c).isOk := by
  obtain ⟨inner?, hsearch, -⟩ := @search_build calls catalog kernel c
  rw [hsearch, Except.isOk, Except.toBool]

theorem mixed_build (made : List Call) :
    Check.mixed ⟨calls, .build calls, catalog, kernel⟩ made = made.filterMap fun c =>
      (Mixed.wrapperOf? calls catalog.hostsKernel c.caller).map fun wrapper =>
        ⟨c.caller, kernel, wrapper⟩ := by
  induction made with
  | nil => rfl
  | cons c rest ih =>
    obtain ⟨inner?, hsearch, hwrapper⟩ := @search_build calls catalog kernel c
    rw [Check.mixed_cons_of_ok hsearch, ih, List.filterMap_cons, ← hwrapper]
    cases inner? <;> rfl

/-- By an index of the current calls, a check reports the first mixed call of each caller that has
not been reported before. -/
theorem check_build : reported.check calls (.build calls) catalog kernel =
    let found := Mixed.firsts reported.callers (Mixed.ofKernel calls catalog.hostsKernel kernel)
    (.ok (Mixed.warnings reported.size found), reported.addAll found) := by
  have hok : ((calls.filter (·.callee = kernel)).mapM
      (Check.search ⟨calls, .build calls, catalog, kernel⟩)).isOk :=
    Check.isOk_mapM_search.mpr fun c _ => isOk_search_build c
  rw [Reported.check, callersOf_build]
  dsimp only
  rw [checkCalls_eq ⟨calls, .build calls, catalog, kernel⟩, mixed_build]
  cases hsearches : (calls.filter (·.callee = kernel)).mapM
      (Check.search ⟨calls, .build calls, catalog, kernel⟩) with
  | error e => simp [hsearches, Except.isOk, Except.toBool] at hok
  | ok inners => rfl

end Check

end KernelGraph
