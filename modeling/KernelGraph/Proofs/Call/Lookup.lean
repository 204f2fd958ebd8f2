import KernelGraph.Proofs.Call.Index

/-!
# Look-ups after the calls have changed

An index lists the places of the calls that it was built from. Looked up against other calls, a name
is found if each place listed under it still has a call with that name, and the calls at these
places are the answer. Otherwise the first place that has none is reported, with the name that is
there now.

## Main definitions

* `NamedAt` — the call at a place has a name at one end
* `placesOf` — the places of the calls with a name at one end
* `CallIndex.lookUp` — a look-up of a name at one end
* `ResolveEnd` — how the look-up of some places ends

## Main results

* `resolveEnd` — the places are looked up in turn, up to the first without the name
* `lookUp_build` — what a look-up in the index of some calls gives against others
-/

namespace KernelGraph

/-- The call at a place has a name at one end. -/
def NamedAt (calls : List Call) (role : CallEnd) (name : String) (place : Nat) : Prop :=
  ∃ c, calls[place]? = some c ∧ c.nameAt role = name

instance (calls : List Call) (role : CallEnd) (name : String) (place : Nat) :
    Decidable (NamedAt calls role name place) :=
  decidable_of_iff ((calls[place]?).any (·.nameAt role = name)) (by
    rw [NamedAt]
    cases calls[place]? <;> simp)

/-- The places of the calls with a name at one end, in their order. -/
def placesOf (calls : List Call) (role : CallEnd) (name : String) : List Nat :=
  (List.range calls.length).filter fun place => NamedAt calls role name place

/-- The name that is at one end of the call at a place, empty if there is no such call. -/
def foundAt (calls : List Call) (role : CallEnd) (place : Nat) : String :=
  ((calls[place]?).map fun c => c.nameAt role).getD ""

/-- The calls with a name at one end, checked. -/
def CallIndex.lookUp (index : CallIndex) (role : CallEnd) (calls : List Call) (name : String) :
    Except AnalysisError (List Call) :=
  match role with
  | .caller => index.calleesOf calls name
  | .callee => index.callersOf calls name

/-- How looking up places ends: each has a call with the name and these calls are found, or the
first that has none is reported. -/
inductive ResolveEnd (calls : List Call) (name : String) (role : CallEnd) (places : List Nat) :
    Except AnalysisError (List Call) → Prop
  | found (made : List Call) (hnamed : ∀ i ∈ places, NamedAt calls role name i)
    (hmade : made.map some = places.map (calls[·]?)) :
    ResolveEnd calls name role places (.ok made)
  | malformed (before : List Nat) (i : Nat) (after : List Nat)
    (hplaces : places = before ++ i :: after) (hbefore : ∀ j ∈ before, NamedAt calls role name j)
    (hi : ¬ NamedAt calls role name i) :
    ResolveEnd calls name role places (.error (.malformedEdge i name role (foundAt calls role i)))

variable {calls listed : List Call} {index : CallIndex} {name : String} {role : CallEnd}
  {place start : Nat} {places : List Nat}

/-! ## The places of a name -/

theorem lt_of_namedAt (h : NamedAt calls role name place) : place < calls.length := by
  obtain ⟨c, hc, -⟩ := h
  exact (List.getElem?_eq_some_iff.mp hc).1

theorem mem_placesOf : place ∈ placesOf calls role name ↔ NamedAt calls role name place := by
  rw [placesOf, List.mem_filter, List.mem_range, decide_eq_true_eq]
  exact ⟨And.right, fun h => ⟨lt_of_namedAt h, h⟩⟩

theorem pairwise_placesOf : (placesOf calls role name).Pairwise (· < ·) :=
  List.pairwise_lt_range.filter _

/-- The places of the last calls are among those of all calls. -/
theorem placesFrom_eq_filter (before calls : List Call) :
    placesFrom role name before.length calls =
      (List.range' before.length calls.length).filter fun place =>
        NamedAt (before ++ calls) role name place := by
  induction calls generalizing before with
  | nil => rfl
  | cons c calls ih =>
    -- the places are counted from the start of all calls, so `c` joins those before
    have hrest := ih (before ++ [c])
    rw [List.append_assoc, List.singleton_append, List.length_append, List.length_singleton]
      at hrest
    have hfirst : NamedAt (before ++ c :: calls) role name before.length ↔
        c.nameAt role = name := by
      simp [NamedAt]
    rw [placesFrom, hrest, List.length_cons, List.range'_succ, List.filter_cons]
    simp only [decide_eq_true_eq, hfirst]

/-- What an index lists under a name are the places of the calls with that name. -/
theorem placesFrom_eq_placesOf : placesFrom role name 0 calls = placesOf calls role name := by
  rw [placesOf, List.range_eq_range']
  exact placesFrom_eq_filter [] calls

theorem lookUp_build_eq_resolve : (CallIndex.build listed).lookUp role calls name =
    resolve calls name role (placesOf listed role name) := by
  rw [← placesFrom_eq_placesOf]
  cases role with
  | caller => rw [CallIndex.lookUp, CallIndex.calleesOf, find?_byCaller_build]
  | callee => rw [CallIndex.lookUp, CallIndex.callersOf, find?_byCallee_build]

/-! ## Looking up places -/

/-- A place that has a call with the name adds that call to what is found after it. -/
theorem ResolveEnd.cons {i : Nat} {c : Call} {o : Except AnalysisError (List Call)}
    (h : ResolveEnd calls name role places o) (hi : NamedAt calls role name i)
    (hc : calls[i]? = some c) : ResolveEnd calls name role (i :: places) (o.map (c :: ·)) := by
  cases h with
  | found made hnamed hmade =>
    refine .found (c :: made) (List.forall_mem_cons.mpr ⟨hi, hnamed⟩) ?_
    rw [List.map_cons, List.map_cons, hc, hmade]
  | malformed before j after hplaces hbefore hj =>
    exact .malformed (i :: before) j after (by rw [hplaces]; rfl)
      (List.forall_mem_cons.mpr ⟨hi, hbefore⟩) hj

/-- Places are looked up in turn, up to the first that has no call with the name. -/
theorem resolveEnd (calls : List Call) (name : String) (role : CallEnd) (places : List Nat) :
    ResolveEnd calls name role places (resolve calls name role places) := by
  induction places with
  | nil => exact .found [] (by simp) rfl
  | cons i places ih =>
    rw [resolve]
    cases hc : calls[i]? with
    | none =>
      have hi : ¬ NamedAt calls role name i := by simp [NamedAt, hc]
      have hend := ResolveEnd.malformed [] i places rfl (by simp) hi
      simpa [foundAt, hc] using hend
    | some c =>
      dsimp only
      by_cases hname : c.nameAt role = name
      · rw [if_pos hname]
        exact ih.cons ⟨c, hc, hname⟩ hc
      · have hi : ¬ NamedAt calls role name i := by simp [NamedAt, hc, hname]
        have hend := ResolveEnd.malformed [] i places rfl (by simp) hi
        rw [if_neg hname]
        simpa [foundAt, hc] using hend

/-! ## Names that occur -/

/-- A name occurs in an index if and only if it has been added for a call. -/
theorem callsAnything_addFrom : (index.addFrom start calls).callsAnything name ↔
    index.callsAnything name ∨ ∃ c ∈ calls, c.caller = name := by
  induction calls generalizing index start with
  | nil => simp [CallIndex.addFrom]
  | cons c calls ih =>
    have hadd : (index.add start c).callsAnything name ↔
        index.callsAnything name ∨ c.caller = name := by
      rw [CallIndex.callsAnything, CallIndex.add, find?_add]
      by_cases hname : c.caller = name
      · simp [hname]
      · simp [hname, CallIndex.callsAnything]
    rw [CallIndex.addFrom, ih, hadd, or_assoc]
    simp

/-! ## Looking up by an index -/

/-- The index of some calls is looked up against others. It succeeds if and only if each place that
had a call with the name has one now, and gives the calls at these places in their order. Otherwise
it reports the first place that has none, and the name that is there now. Against the calls that it
was built from it gives all calls with the name; and a name calls anything if one of them has it as
its caller. -/
theorem lookUp_build (listed calls : List Call) (role : CallEnd) (name : String) :
    let o := (CallIndex.build listed).lookUp role calls name
    ((∃ made, o = .ok made) ↔ ∀ i, NamedAt listed role name i → NamedAt calls role name i) ∧
    (∀ made, o = .ok made → made.map some = (placesOf listed role name).map (calls[·]?)) ∧
    (∀ e, o = .error e → ∃ i, NamedAt listed role name i ∧ ¬ NamedAt calls role name i ∧
      (∀ j < i, NamedAt listed role name j → NamedAt calls role name j) ∧
      e = .malformedEdge i name role (foundAt calls role i)) ∧
    (CallIndex.build listed).lookUp role listed name =
      .ok (listed.filter fun c => c.nameAt role = name) ∧
    ((CallIndex.build listed).callsAnything name ↔ ∃ c ∈ listed, c.caller = name) := by
  have hown : (CallIndex.build listed).lookUp role listed name =
      .ok (listed.filter fun c => c.nameAt role = name) := by
    cases role with
    | caller => exact calleesOf_build
    | callee => exact callersOf_build
  have hoccurs : (CallIndex.build listed).callsAnything name ↔ ∃ c ∈ listed, c.caller = name := by
    rw [CallIndex.build, callsAnything_addFrom]
    simp [CallIndex.callsAnything, CallIndex.empty, Adjacency.find?]
  dsimp only
  simp only [← @mem_placesOf listed]
  have hend := resolveEnd calls name role (placesOf listed role name)
  rw [← lookUp_build_eq_resolve] at hend
  generalize (CallIndex.build listed).lookUp role calls name = o at hend
  cases hend with
  | found made hnamed hmade =>
    refine ⟨iff_of_true ⟨made, rfl⟩ hnamed, ?_, by simp, hown, hoccurs⟩
    rintro made' ⟨⟩
    exact hmade
  | malformed before i after hplaces hbefore hi =>
    have hmem : i ∈ placesOf listed role name := by simp [hplaces]
    refine ⟨iff_of_false (by simp) fun h => hi (h i hmem), by simp, ?_, hown, hoccurs⟩
    rintro e ⟨⟩
    refine ⟨i, hmem, hi, fun j hj hmem' => hbefore j ?_, rfl⟩
    -- the places stand in their order, so a smaller one comes before
    have hsorted : (placesOf listed role name).Pairwise (· < ·) := pairwise_placesOf
    rw [hplaces, List.pairwise_append, List.pairwise_cons] at hsorted
    rw [hplaces, List.mem_append, List.mem_cons] at hmem'
    rcases hmem' with hmem' | rfl | hmem'
    · exact hmem'
    · exact absurd hj (Nat.lt_irrefl _)
    · exact absurd hj (Nat.lt_asymm (hsorted.2.1.1 j hmem'))

end KernelGraph
