import KernelGraph.Document.Reader
import KernelGraph.Proofs.Json.Regular

/-!
# Documents as they are read

In a document that has been read, all fields that are kept are regular: they are sorted, none of
them is known, and their values do not nest deeper than the reader allows at their place.

## Main definitions

* `Document.Region.Regular`, `Document.Routine.Regular`, `Document.Call.Regular`,
  `Document.Template.Regular`, `Document.Regular` — records as they are read

## Main results

* `Document.regular_of_ofString?` — reading gives regular documents
-/

namespace KernelGraph.Document

/-! ## Records -/

/-- The known fields of a region. -/
def Region.known : List String := ["templateRelations"]

/-- The known fields of a routine. -/
def Routine.known : List String :=
  ["name", "parallelRegionPosition", "parallelRegions", "activeParallelRegions"]

/-- The known fields of a call. -/
def Call.known : List String := ["caller", "callee", "parallelRegionPosition"]

/-- The known fields of a template. -/
def Template.known : List String := ["id", "appliesTo"]

/-- The known fields of a document. -/
def known : List String := ["routines", "calls", "parallelRegionTemplates"]

/-- A region whose fields are regular, with a number of levels inside it. -/
structure Region.Regular (depth : Nat) (r : Region) : Prop where
  extra : r.extra.Regular Region.known depth

/-- A routine whose fields are regular, with a number of levels inside its markers. These stand in a
list, one level deeper than its container. -/
structure Routine.Regular (depth : Nat) (r : Routine) : Prop where
  regions : ∀ region ∈ r.regions, region.Regular depth
  active : ∀ region ∈ r.active, region.Regular (depth + 1)
  extra : r.extra.Regular Routine.known (depth + 2)

/-- A call whose fields are regular, with a number of levels inside it. -/
structure Call.Regular (depth : Nat) (c : Call) : Prop where
  extra : c.extra.Regular Call.known depth

/-- A template whose fields are regular, with a number of levels inside it. -/
structure Template.Regular (depth : Nat) (t : Template) : Prop where
  extra : t.extra.Regular Template.known depth

/-- A document whose fields are regular, with a number of levels inside the markers of its
routines. -/
structure Regular (depth : Nat) (d : Document) : Prop where
  routines : ∀ r ∈ d.routines, r.Regular depth
  calls : ∀ c ∈ d.calls, c.Regular (depth + 2)
  templates : ∀ t ∈ d.templates, t.Regular (depth + 2)
  extra : d.extra.Regular known (depth + 4)

/-! ## Reading records -/

section Record

variable {α σ : Type} {kind : RecordKind} {member : Nat → σ → String → Reader σ} {start : σ}
  {complete : σ → Except Fault α} {depth : Nat} {I : σ → Prop} {P : α → Prop}

/-- What each member keeps of the state, and what follows of it at the closing bracket. -/
theorem gives_readRecord (h : ∀ state key, I state → Reader.Gives (member depth state key) I)
    (hstart : I start) (hcomplete : ∀ state a, I state → complete state = .ok a → P a) :
    Reader.Gives (readRecord kind member start complete (depth + 1)) P := by
  intro s a rest hread
  rw [readRecord] at hread
  split at hread
  · obtain ⟨⟨state, s₁⟩, hmembers, hread⟩ := of_bind_eq_ok hread
    obtain ⟨b, hb, hread⟩ := of_bind_eq_ok hread
    obtain ⟨rfl, -⟩ := Prod.mk.inj (Except.ok.inj hread)
    exact hcomplete _ _ (gives_members h hstart _ _ _ hmembers) hb
  · simp at hread

theorem gives_readField {name : String} {before : Option α} {value : Reader α} {put : α → σ}
    (h : value.Gives P) (hput : ∀ a, P a → I (put a)) :
    Reader.Gives (readField name before value put) I := by
  intro s state rest hread
  rw [readField] at hread
  split at hread
  · simp at hread
  · obtain ⟨s₁, _, hread⟩ := of_bind_eq_ok hread
    obtain ⟨⟨a, s₂⟩, hvalue, hread⟩ := of_bind_eq_ok hread
    obtain ⟨rfl, -⟩ := Prod.mk.inj (Except.ok.inj hread)
    exact hput a (h _ _ _ hvalue)

/-- An unknown field is kept with the others. -/
theorem gives_readExtra {known : List String} {fields : Fields} {key : String} {put : Fields → σ}
    (h : fields.Regular known depth) (hkey : key ∉ known)
    (hput : ∀ extra : Fields, extra.Regular known depth → I (put extra)) :
    Reader.Gives (readExtra depth fields key put) I := by
  intro s state rest hread
  obtain ⟨⟨extra, s₁⟩, hkept, hread⟩ := of_bind_eq_ok hread
  obtain ⟨rfl, -⟩ := Prod.mk.inj (Except.ok.inj hread)
  refine hput extra (gives_keptMember (Value.gives_read depth) (fun v hv => ?_) _ _ _ hkept)
  exact h.insert hkey hv

theorem gives_readList {item : Nat → Reader α} (h : (item depth).Gives P) :
    Reader.Gives (readList (depth + 1) item) fun as => ∀ a ∈ as, P a := by
  intro s as rest hread
  rw [readList] at hread
  split at hread
  · exact gives_elements h _ _ _ hread
  · simp at hread

theorem gives_readOptional {value : Reader α} (h : value.Gives P) :
    Reader.Gives (readOptional value) fun o => ∀ a ∈ o, P a := by
  intro s o rest hread
  rw [readOptional] at hread
  split at hread
  · obtain ⟨_, _, hread⟩ := of_bind_eq_ok hread
    obtain ⟨rfl, -⟩ := Prod.mk.inj (Except.ok.inj hread)
    simp
  · obtain ⟨⟨a, s₁⟩, hvalue, hread⟩ := of_bind_eq_ok hread
    obtain ⟨rfl, -⟩ := Prod.mk.inj (Except.ok.inj hread)
    simpa using h _ _ _ hvalue

theorem gives_true (r : Reader α) : r.Gives fun _ => True := fun _ _ _ _ => trivial

end Record

/-! ## The records of a document -/

section Records

variable {depth : Nat}

theorem gives_readRegion (depth : Nat) :
    Reader.Gives (readRegion (depth + 1)) (Region.Regular depth) := by
  refine gives_readRecord (I := fun st => st.extra.Regular Region.known depth) (fun st key h => ?_)
    Fields.regular_nil fun st region h hcomplete => ?_
  · unfold regionMember
    split
    · exact gives_readField (gives_true _) fun _ _ => h
    · rename_i hkey
      exact gives_readExtra h (by simp [Region.known, hkey]) fun _ hextra => hextra
  · obtain rfl := Except.ok.inj hcomplete
    exact ⟨h⟩

/-- The fields of a routine read so far are regular. -/
structure RoutineFields.Regular (depth : Nat) (r : RoutineFields) : Prop where
  regions : ∀ regions ∈ r.regions, ∀ region ∈ regions, region.Regular depth
  active : ∀ active ∈ r.active, ∀ region ∈ active, region.Regular (depth + 1)
  extra : r.extra.Regular Routine.known (depth + 2)

theorem gives_routineMember {r : RoutineFields} (h : r.Regular depth) (key : String) :
    Reader.Gives (routineMember (depth + 2) r key) (RoutineFields.Regular depth) := by
  unfold routineMember
  split
  · exact gives_readField (gives_true _) fun _ _ => ⟨h.regions, h.active, h.extra⟩
  split
  · exact gives_readField (gives_true _) fun _ _ => ⟨h.regions, h.active, h.extra⟩
  split
  · refine gives_readField (gives_readList (gives_readRegion depth)) fun regions hregions => ?_
    exact ⟨by simpa using hregions, h.active, h.extra⟩
  split
  · refine gives_readField (gives_readOptional (gives_readRegion (depth + 1)))
      fun active hactive => ?_
    exact ⟨h.regions, by simpa using hactive, h.extra⟩
  · rename_i hname hposition hregions hactive
    refine gives_readExtra h.extra ?_ fun extra hextra => ⟨h.regions, h.active, hextra⟩
    simp [Routine.known, hname, hposition, hregions, hactive]

theorem gives_readRoutine (depth : Nat) :
    Reader.Gives (readRoutine (depth + 3)) (Routine.Regular depth) := by
  refine gives_readRecord (fun st key h => gives_routineMember h key)
    ⟨by simp, by simp, Fields.regular_nil⟩ fun st routine h hcomplete => ?_
  obtain rfl := Except.ok.inj hcomplete
  refine ⟨?_, ?_, h.extra⟩
  · cases hregions : st.regions with
    | none => simp
    | some regions => exact h.regions regions hregions
  · cases hactive : st.active with
    | none => simp
    | some active => exact h.active active hactive

theorem gives_readCall (depth : Nat) :
    Reader.Gives (readCall (depth + 1)) (Call.Regular depth) := by
  refine gives_readRecord (I := fun st => st.extra.Regular Call.known depth) (fun st key h => ?_)
    Fields.regular_nil fun st call h hcomplete => ?_
  · unfold callMember
    split
    · exact gives_readField (gives_true _) fun _ _ => h
    split
    · exact gives_readField (gives_true _) fun _ _ => h
    split
    · exact gives_readField (gives_true _) fun _ _ => h
    · rename_i hcaller hcallee hsite
      refine gives_readExtra h ?_ fun _ hextra => hextra
      simp [Call.known, hcaller, hcallee, hsite]
  · obtain ⟨caller, _, hcomplete⟩ := of_bind_eq_ok hcomplete
    obtain ⟨callee, _, hcomplete⟩ := of_bind_eq_ok hcomplete
    obtain rfl := Except.ok.inj hcomplete
    exact ⟨h⟩

theorem gives_readTemplate (depth : Nat) :
    Reader.Gives (readTemplate (depth + 1)) (Template.Regular depth) := by
  refine gives_readRecord (I := fun st => st.extra.Regular Template.known depth)
    (fun st key h => ?_) Fields.regular_nil fun st template h hcomplete => ?_
  · unfold templateMember
    split
    · exact gives_readField (gives_true _) fun _ _ => h
    split
    · exact gives_readField (gives_true _) fun _ _ => h
    · rename_i hid hplatforms
      refine gives_readExtra h ?_ fun _ hextra => hextra
      simp [Template.known, hid, hplatforms]
  · obtain ⟨id, _, hcomplete⟩ := of_bind_eq_ok hcomplete
    obtain rfl := Except.ok.inj hcomplete
    exact ⟨h⟩

/-- The fields of a document read so far are regular. -/
structure DocumentFields.Regular (depth : Nat) (d : DocumentFields) : Prop where
  routines : ∀ routines ∈ d.routines, ∀ r ∈ routines, r.Regular depth
  calls : ∀ calls ∈ d.calls, ∀ c ∈ calls, c.Regular (depth + 2)
  templates : ∀ templates ∈ d.templates, ∀ t ∈ templates, t.Regular (depth + 2)
  extra : d.extra.Regular known (depth + 4)

theorem gives_documentMember {d : DocumentFields} (h : d.Regular depth) (key : String) :
    Reader.Gives (documentMember (depth + 4) d key) (DocumentFields.Regular depth) := by
  unfold documentMember
  split
  · refine gives_readField (gives_readList (gives_readRoutine depth)) fun routines hroutines => ?_
    exact ⟨by simpa using hroutines, h.calls, h.templates, h.extra⟩
  split
  · refine gives_readField (gives_readList (gives_readCall (depth + 2))) fun calls hcalls => ?_
    exact ⟨h.routines, by simpa using hcalls, h.templates, h.extra⟩
  split
  · refine gives_readField (gives_readList (gives_readTemplate (depth + 2)))
      fun templates htemplates => ?_
    exact ⟨h.routines, h.calls, by simpa using htemplates, h.extra⟩
  · rename_i hroutines hcalls htemplates
    refine gives_readExtra h.extra ?_ fun _ hextra => ⟨h.routines, h.calls, h.templates, hextra⟩
    simp [known, hroutines, hcalls, htemplates]

/-- Reading gives regular documents: of all levels, five are used up around the inside of a
marker. -/
theorem gives_read : Reader.Gives read (Regular (maxDepth - 5)) := by
  change Reader.Gives (readRecord .document documentMember {} DocumentFields.complete
    (maxDepth - 5 + 4 + 1)) _
  refine gives_readRecord (fun st key h => gives_documentMember h key)
    ⟨by simp, by simp, by simp, Fields.regular_nil⟩ fun st d h hcomplete => ?_
  obtain rfl := Except.ok.inj hcomplete
  refine ⟨?_, ?_, ?_, h.extra⟩
  · cases hroutines : st.routines with
    | none => simp
    | some routines => exact h.routines routines hroutines
  · cases hcalls : st.calls with
    | none => simp
    | some calls => exact h.calls calls hcalls
  · cases htemplates : st.templates with
    | none => simp
    | some templates => exact h.templates templates htemplates

end Records

/-- A document that has been read is regular. -/
theorem regular_of_ofString? {text : String} {d : Document} (h : ofString? text = .ok d) :
    d.Regular (maxDepth - 5) := by
  obtain ⟨⟨d', s⟩, hread, h⟩ := of_bind_eq_ok h
  obtain ⟨_, _, h⟩ := of_bind_eq_ok h
  obtain rfl := Except.ok.inj h
  exact gives_read _ _ _ hread

end KernelGraph.Document
