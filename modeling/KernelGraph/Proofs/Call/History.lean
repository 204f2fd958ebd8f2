import KernelGraph.Proofs.Call.Mixing

/-!
# Checks over a history

Checks are performed one after another. The callers reported are remembered from one to the next,
while the calls, the index, the catalog and the kernel may be others each time, and some checks may
fail. A check that fails returns nothing, but the callers that it has found by then count as
reported all the same. So the findings returned are some of those about new callers, and they are
all of them just if no check fails after it has found a new caller.

## Main definitions

* `Reported.performAll` — checks are performed one after another
* `returned` — the findings that checks return
* `Check.Loses` — a check fails after it has found a new caller
* `Reports` — new callers are counted, and some of the findings about them are returned

## Main results

* `exists_reports_perform` — one check
* `Reports.trans`, `exists_reports_performAll` — a history
* `returned_performAll` — what all checks of a history return
* `losesNothing_of_build` — with an index of the current calls, nothing is lost
-/

namespace KernelGraph

namespace Reported

/-- Performs a check. -/
def perform (r : Reported) (k : Check) : Except AnalysisError (List Diagnostic) × Reported :=
  r.check k.calls k.index k.catalog k.kernel

/-- Performs checks one after another, also after one that fails. -/
def performAll (r : Reported) :
    List Check → List (Except AnalysisError (List Diagnostic)) × Reported
  | [] => ([], r)
  | k :: ks =>
    let (result, after) := r.perform k
    let (results, last) := after.performAll ks
    (result :: results, last)

end Reported

/-- The findings that are returned when checks have ended: a check that fails returns none. -/
def returned (results : List (Except AnalysisError (List Diagnostic))) : List Diagnostic :=
  results.flatMap fun result => result.toOption.getD []

/-- A check loses what it has found: the search for one of the calls to the kernel fails, and of the
mixed calls known before there is one whose caller has not been reported. -/
def Check.Loses (k : Check) (r : Reported) : Prop :=
  ∃ made, k.index.callersOf k.calls k.kernel = .ok made ∧
    (∃ c ∈ made, ¬ (k.search c).isOk) ∧ ∃ x ∈ k.mixed made, x.caller ∉ r.callers

/-- No check of a history loses what it has found. -/
def Reported.LosesNothing (r : Reported) : List Check → Prop
  | [] => True
  | k :: ks => ¬ k.Loses r ∧ (r.perform k).2.LosesNothing ks

/-- The callers of several mixed calls, each of them new, have been counted as reported, and some of
the findings about them have been returned. -/
structure Reports (r : Reported) (xs : List Mixed) (found : List Diagnostic) (after : Reported) :
    Prop where
  new : ∀ x ∈ xs, x.caller ∉ r.callers
  nodup : (xs.map Mixed.caller).Nodup
  after_eq : after = r.addAll xs
  sublist : found.Sublist (Mixed.warnings r.size xs)

variable {r r' r'' : Reported} {k : Check} {checks : List Check} {xs ys : List Mixed}
  {found others : List Diagnostic} {made : List Call}

/-! ## One check -/

theorem returned_cons {result : Except AnalysisError (List Diagnostic)}
    {results : List (Except AnalysisError (List Diagnostic))} :
    returned (result :: results) = result.toOption.getD [] ++ returned results :=
  List.flatMap_cons

/-- What a check loses, once the calls to the kernel are known. -/
theorem loses_iff (hmade : k.index.callersOf k.calls k.kernel = .ok made) :
    k.Loses r ↔ ¬ (made.mapM k.search).isOk ∧ Mixed.firsts r.callers (k.mixed made) ≠ [] := by
  rw [Check.Loses, hmade, Check.isOk_mapM_search, Mixed.firsts_ne_nil_iff]
  simp

theorem Reports.refl (r : Reported) : Reports r [] [] r where
  new := by simp
  nodup := List.nodup_nil
  after_eq := rfl
  sublist := List.nil_sublist _

/-- A check counts new callers, and returns the findings about them unless it loses them. -/
theorem exists_reports_perform (r : Reported) (k : Check) : ∃ xs,
    Reports r xs ((r.perform k).1.toOption.getD []) (r.perform k).2 ∧
      ((r.perform k).1.toOption.getD [] = Mixed.warnings r.size xs ↔ ¬ k.Loses r) := by
  rw [Reported.perform, Reported.check]
  cases hmade : k.index.callersOf k.calls k.kernel with
  | error e =>
    refine ⟨[], .refl r, iff_of_true rfl ?_⟩
    rintro ⟨made, hfound, -⟩
    simp [hmade] at hfound
  | ok made =>
    have hnew : ∀ x ∈ Mixed.firsts r.callers (k.mixed made), x.caller ∉ r.callers :=
      fun x hx => (Mixed.mem_map_caller_firsts.mp (List.mem_map_of_mem hx)).1
    dsimp only
    rw [checkCalls_eq, loses_iff hmade]
    refine ⟨_, ⟨hnew, Mixed.nodup_map_caller_firsts, rfl, ?_⟩, ?_⟩
    · cases made.mapM k.search with
      | error e => exact List.nil_sublist _
      | ok inners => exact List.Sublist.refl _
    · cases made.mapM k.search with
      | error e =>
        have hfail : ¬ (Except.error e : Except AnalysisError (List (Option Call))).isOk :=
          Bool.false_ne_true
        rw [and_iff_right hfail, not_not]
        exact eq_comm.trans Mixed.warnings_eq_nil_iff
      | ok inners => exact iff_of_true rfl fun h => h.1 rfl

/-! ## A history -/

/-- Callers that are new after others have been counted are other callers. -/
theorem Reports.trans (h : Reports r xs found r') (h' : Reports r' ys others r'') :
    Reports r (xs ++ ys) (found ++ others) r'' := by
  obtain rfl := h.after_eq
  have hnew : ∀ y ∈ ys, y.caller ∉ xs.map Mixed.caller ∧ y.caller ∉ r.callers := by
    intro y hy
    have hnot := h'.new y hy
    rwa [Reported.addAll, List.mem_append, List.mem_reverse, not_or] at hnot
  refine ⟨fun x hx => ?_, ?_, ?_, ?_⟩
  · exact (List.mem_append.mp hx).elim (h.new x) fun hy => (hnew x hy).2
  · rw [List.map_append, List.nodup_append']
    refine ⟨h.nodup, h'.nodup, fun caller hcaller hmem => ?_⟩
    obtain ⟨y, hy, rfl⟩ := List.mem_map.mp hmem
    exact (hnew y hy).1 hcaller
  · rw [h'.after_eq, Reported.addAll, Reported.addAll, Reported.addAll]
    simp
  · rw [Mixed.warnings_append, ← size_addAll]
    exact h.sublist.append h'.sublist

/-- Parts of two lists are together the whole just if both are. -/
theorem append_eq_append_iff_of_sublist {α : Type} {as bs as' bs' : List α} (h : as.Sublist as')
    (h' : bs.Sublist bs') : as ++ bs = as' ++ bs' ↔ as = as' ∧ bs = bs' := by
  constructor
  · intro heq
    have hlength := congrArg List.length heq
    rw [List.length_append, List.length_append] at hlength
    have hfirst := h.length_le
    have hsecond := h'.length_le
    exact List.append_inj heq (by omega)
  · rintro ⟨rfl, rfl⟩
    rfl

/-- The checks of a history count new callers, and return the findings about all of them if none of
the checks loses any. -/
theorem exists_reports_performAll (r : Reported) (checks : List Check) : ∃ xs,
    Reports r xs (returned (r.performAll checks).1) (r.performAll checks).2 ∧
      (returned (r.performAll checks).1 = Mixed.warnings r.size xs ↔ r.LosesNothing checks) := by
  -- by induction on the history: each check goes on from the callers that those before it counted
  induction checks generalizing r with
  | nil => exact ⟨[], .refl r, iff_of_true rfl trivial⟩
  | cons k ks ih =>
    obtain ⟨xs, hfirst, hall⟩ := exists_reports_perform r k
    obtain ⟨ys, hrest, hothers⟩ := ih (r.perform k).2
    refine ⟨xs ++ ys, ?_, ?_⟩
    · rw [Reported.performAll, returned_cons]
      exact hfirst.trans hrest
    · have hsize : (r.perform k).2.size = r.size + xs.length := by
        rw [hfirst.after_eq, size_addAll]
      rw [Reported.performAll, returned_cons, Mixed.warnings_append, ← hsize,
        append_eq_append_iff_of_sublist hfirst.sublist hrest.sublist, hall, hothers]
      rfl

/-- Checks whose indexes are those of the calls that they are given lose nothing. -/
theorem losesNothing_of_build (h : ∀ k ∈ checks, k.index = .build k.calls) (r : Reported) :
    r.LosesNothing checks := by
  induction checks generalizing r with
  | nil => trivial
  | cons k ks ih =>
    refine ⟨?_, ih (fun k' hk' => h k' (List.mem_cons_of_mem _ hk')) _⟩
    rintro ⟨made, -, ⟨c, -, hfail⟩, -⟩
    obtain ⟨calls, index, catalog, kernel⟩ := k
    obtain rfl : index = .build calls := h _ List.mem_cons_self
    exact hfail (isOk_search_build c)

/-! ## What a history returns -/

/-- Of the findings returned by the checks of a history, whatever each of them was given and however
it ended, no two are about one caller, and all after the first refer to an earlier one. There are no
more than callers are counted. The first says in full what is wrong and there are as many as callers
are counted just if no check of the history loses what it has found. -/
theorem returned_performAll (checks : List Check) :
    let found := returned (Reported.none.performAll checks).1
    let after := (Reported.none.performAll checks).2
    (found.map Diagnostic.subject).Nodup ∧
      (∀ w ∈ found.tail, w.code = some .mixedCallsAgain) ∧ found.length ≤ after.size ∧
      ((∀ w ∈ found.head?, w.code = some .mixedCalls) ∧ after.size = found.length ↔
        Reported.none.LosesNothing checks) := by
  obtain ⟨xs, hreports, hall⟩ := exists_reports_performAll .none checks
  have hsize : (Reported.none.performAll checks).2.size = xs.length := by
    rw [hreports.after_eq, size_addAll]
    exact Nat.zero_add _
  have hlength := hreports.sublist.length_le
  rw [Mixed.length_warnings] at hlength
  dsimp only
  rw [hsize, ← hall]
  refine ⟨?_, fun w hw => ?_, hlength, fun h => ?_, fun h => ⟨fun w hw => ?_, ?_⟩⟩
  · exact (Mixed.nodup_map_subject_warnings hreports.nodup).sublist
      (hreports.sublist.map Diagnostic.subject)
  · have hmem := hreports.sublist.tail.subset hw
    cases xs with
    | nil => simp [Mixed.warnings] at hmem
    | cons x xs =>
      rw [Mixed.warnings_cons, List.tail_cons] at hmem
      exact Mixed.code_of_mem_warnings (Nat.succ_pos _) w hmem
  · exact hreports.sublist.eq_of_length (by rw [Mixed.length_warnings, h.2])
  · rw [h] at hw
    cases xs with
    | nil => simp [Mixed.warnings] at hw
    | cons x xs =>
      rw [Mixed.warnings_cons, List.head?_cons] at hw
      obtain rfl := Option.some.inj hw
      rfl
  · rw [h, Mixed.length_warnings]

/-- `main` and `other` call the kernel and a wrapper of it, as the index has it. -/
def listed : List Call :=
  [⟨0, "main", "kernel", none, []⟩, ⟨1, "other", "kernel", none, []⟩,
    ⟨2, "main", "wrapper", none, []⟩, ⟨3, "wrapper", "kernel", none, []⟩,
    ⟨4, "other", "wrapper", none, []⟩, ⟨5, "last", "kernel", none, []⟩,
    ⟨6, "last", "wrapper", none, []⟩]

/-- The call of the wrapper by `other` has been given to `nobody`. The kernel is checked with the
index from before, and then with a new one. -/
def stale : List Check :=
  let calls := listed.set 4 ⟨4, "nobody", "wrapper", none, []⟩
  let catalog : Catalog := ⟨[⟨0, 0⟩], [("kernel", 0)]⟩
  [⟨calls, .build listed, catalog, "kernel"⟩, ⟨calls, .build calls, catalog, "kernel"⟩]

/-- The first check fails at `other` after it has found `main`. The second returns a finding about
`last`, which refers to one that was never returned, when two callers are counted. -/
theorem not_returned_performAll_stale :
    let found := returned (Reported.none.performAll stale).1
    let after := (Reported.none.performAll stale).2
    ¬ ((found.map Diagnostic.subject).Nodup ∧ (∀ w ∈ found.head?, w.code = some .mixedCalls) ∧
      (∀ w ∈ found.tail, w.code = some .mixedCallsAgain) ∧ after.size = found.length) := by
  decide +kernel

end KernelGraph
