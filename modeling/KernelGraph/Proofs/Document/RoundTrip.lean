import KernelGraph.Document.Printer
import KernelGraph.Proofs.Document.Regular
import KernelGraph.Proofs.Json.RoundTrip

/-!
# Reading written documents back

A document that has been read is read back as it was after it has been written, on one line or
indented, provided that no double occurs in what it keeps. Each record is read back member by
member; a member that has been left out stands for what its record has without it.

## Main definitions

* `Document.kept` — the values that a document keeps without interpreting them

## Main results

* `Document.reads_toValue` — regular documents are read back
* `Document.ofString?_print` — documents that have been read are read back
-/

namespace KernelGraph.Document

/-- The values that a region keeps. -/
def Region.kept (r : Region) : List Value := r.extra.map Prod.snd

/-- The values that a routine keeps, in its markers and its container too. -/
def Routine.kept (r : Routine) : List Value :=
  r.extra.map Prod.snd ++ r.regions.flatMap Region.kept ++ r.active.elim [] Region.kept

/-- The values that a document keeps without interpreting them. -/
def kept (d : Document) : List Value :=
  d.extra.map Prod.snd ++ d.routines.flatMap Routine.kept ++
    d.calls.flatMap (fun c => c.extra.map Prod.snd) ++
    d.templates.flatMap fun t => t.extra.map Prod.snd

/-! ## Members of records -/

section Members

variable {α σ : Type} {kind : RecordKind} {member : Nat → σ → String → Reader σ}
  {fold : σ → String → Reader σ} {start final before after : σ} {complete : σ → Except Fault α}
  {depth : Nat} {fields : Fields} {a : α} {v : Value} {value : Reader α} {put : α → σ}
  {known : List String} {key : String} {o : Option Value}

/-- A record is read back if its members are. -/
theorem reads_record (h : ReadsMembers (member depth) fields start final)
    (hcomplete : complete final = .ok a) :
    Reads (readRecord kind member start complete (depth + 1)) (.object fields) a := by
  refine ⟨opens_object fields, fun style blanks s hblanks _ => ?_⟩
  obtain ⟨inside, hprint, hread⟩ := exists_inside_object h style
  rw [hprint, readRecord, skipBlanks_append hblanks, List.cons_append, skipBlanks_cons (by decide)]
  dsimp only
  simp only [hread, hcomplete, bind, Except.bind, pure, Except.pure]

/-- A known field is read back if its value is, when it has not been read before. -/
theorem readsMember_field (put : α → σ) (hfield : fold before key = readField key none value put)
    (h : Reads value v a) (hafter : put a = after) : ReadsMember fold key v before after := by
  intro outer style s hs
  obtain ⟨blanks, hblanks, hcolon⟩ := exists_colon_eq outer
  rw [hfield, readField, afterColon_colon hcolon]
  simp [bind, Except.bind, h.read style blanks s hblanks hs, pure, Except.pure, hafter]

/-- The fields that a record keeps are read back. -/
theorem readsMembers_extra (put : Fields → σ)
    (hmember : ∀ before key, key ∉ known →
      fold (put before) key = readExtra depth before key put)
    (h : fields.Regular known depth) (hdouble : ∀ v ∈ fields.map Prod.snd, ¬ v.HasDouble)
    (hbefore : put [] = before) (hafter : put fields = after) :
    ReadsMembers fold fields before after := by
  rw [← hbefore, ← hafter]
  refine readsMembers_insert put [] h.sorted fun m hm before outer style s hs => ?_
  have hread := Value.reads_read (h.values m hm) (hdouble m.2 (List.mem_map_of_mem hm))
  rw [hmember before m.1 (h.unknown m hm), readExtra]
  simp only [bind, Except.bind, readsMember_keptMember hread before outer style s hs, pure,
    Except.pure]

/-- A list is read back if each element is. -/
theorem reads_list_map {item : Nat → Reader α} {encode : α → Value} {as : List α}
    (h : ∀ a ∈ as, Reads (item depth) (encode a) a) :
    Reads (readList (depth + 1) item) (.list (as.map encode)) as :=
  reads_list (List.forall₂_map_left_iff.mpr (List.forall₂_same.mpr h))

/-- A list that is left out if it is empty. -/
theorem readsMembers_unlessEmpty {item : Nat → Reader α} {encode : α → Value} {as : List α}
    (put : Option (List α) → σ)
    (hfield : fold (put none) key =
      readField key none (readList (depth + 1) item) fun as => put (some as))
    (h : ∀ a ∈ as, Reads (item depth) (encode a) a) (hbefore : put none = before)
    (hafter : put (if as.isEmpty then none else some as) = after) :
    ReadsMembers fold (optional key (unlessEmpty (as.map encode))) before after := by
  rw [← hbefore, ← hafter, unlessEmpty, List.isEmpty_map]
  by_cases hempty : as.isEmpty
  · rw [if_pos hempty, if_pos hempty]
    exact .nil _
  · rw [if_neg hempty, if_neg hempty]
    exact (readsMember_field (fun as => put (some as)) hfield (reads_list_map h) rfl).single

theorem getD_unlessEmpty (as : List α) : (if as.isEmpty then none else some as).getD [] = as := by
  cases as <;> rfl

/-- What is written of a value that may be missing is read back, unless it could be `null`. -/
theorem reads_optional (h : Reads value v a)
    (hopens : ∀ style, ∃ c cs, v.print style = c :: cs ∧ isBlank c = false ∧ c ≠ 'n') :
    Reads (readOptional value) v (some a) := by
  refine ⟨h.opens, fun style blanks s hblanks hs => ?_⟩
  obtain ⟨c, cs, hprint, hblank, hnull⟩ := hopens style
  have hread := h.read_here hs style
  rw [hprint, List.cons_append] at hread ⊢
  rw [readOptional, skipBlanks_append hblanks, skipBlanks_cons hblank]
  split
  · rename_i heq
    exact absurd (List.cons.inj heq).1 hnull
  · simp only [hread, bind, Except.bind, pure, Except.pure]

end Members

/-! ## The records of a document -/

section Records

variable {depth : Nat}

theorem reads_relation (id : String) :
    Reads (readRelation (depth + 1)) (.object [("id", .text id)]) id := by
  have hid : ReadsMember relationMember "id" (.text id) none (some id) :=
    readsMember_field some rfl (reads_text id) rfl
  have hrecord : Reads
      (readRecord .relation (fun _ => relationMember) none (required "id") (depth + 1))
      (.object [("id", .text id)]) id := reads_record hid.single rfl
  refine ⟨opens_object _, fun style blanks s hblanks hs => ?_⟩
  have hread := hrecord.read_here hs style
  obtain ⟨inside, hprint, -⟩ := exists_inside_object hid.single style
  rw [hprint, List.cons_append] at hread ⊢
  rw [readRelation, skipBlanks_append hblanks, skipBlanks_cons (by decide)]
  exact hread

theorem reads_region {r : Region} (h : r.Regular (depth + 2))
    (hdouble : ∀ v ∈ r.kept, ¬ v.HasDouble) : Reads (readRegion (depth + 3)) r.toValue r := by
  have htemplates : ReadsMember (regionMember (depth + 2)) "templateRelations"
      (.list (r.templates.map fun id => .object [("id", .text id)])) ⟨none, []⟩
      ⟨some r.templates, []⟩ :=
    readsMember_field (fun ids => ⟨some ids, []⟩) rfl
      (reads_list_map fun id _ => reads_relation id) rfl
  have hextra : ReadsMembers (regionMember (depth + 2)) r.extra ⟨some r.templates, []⟩
      ⟨some r.templates, r.extra⟩ := by
    refine readsMembers_extra (⟨some r.templates, ·⟩) ?_ h.extra hdouble rfl rfl
    intro before key hkey
    rw [regionMember, if_neg (by simpa [Region.known] using hkey)]
  exact reads_record (.cons htemplates hextra) rfl

theorem reads_position {p : Position} (hp : p ≠ .unset) (depth : Nat) :
    Reads (readPosition depth) (.text p.written) p := by
  refine ⟨opens_text _, fun style blanks s hblanks _ => ?_⟩
  have hname : positionNamed p.written = .ok p := by
    cases p with
    | unset => exact absurd rfl hp
    | within => rfl
    | inside => rfl
    | outside => rfl
  rw [print_text_append, readPosition, skipBlanks_append hblanks, skipBlanks_cons (by decide)]
  dsimp only
  simp only [Quoted.read_encode, hname, bind, Except.bind, pure, Except.pure]

theorem reads_routine {r : Routine} (h : r.Regular (depth + 2))
    (hdouble : ∀ v ∈ r.kept, ¬ v.HasDouble) : Reads (readRoutine (depth + 5)) r.toValue r := by
  simp only [Routine.kept, List.mem_append, or_imp, forall_and, List.mem_flatMap] at hdouble
  obtain ⟨⟨hextra, hregions⟩, hactive⟩ := hdouble
  -- what is left out stands for itself in the state too
  let position := if r.position = .unset then none else some r.position
  let regions := if r.regions.isEmpty then none else some r.regions
  have hname : ReadsMember (routineMember (depth + 4)) "name" (.text r.name) {}
      ⟨some r.name, none, none, none, []⟩ :=
    readsMember_field (fun name => ⟨some name, none, none, none, []⟩) rfl (reads_text r.name) rfl
  have hposition : ReadsMembers (routineMember (depth + 4))
      (optional "parallelRegionPosition"
        (if r.position = .unset then none else some (.text r.position.written)))
      ⟨some r.name, none, none, none, []⟩ ⟨some r.name, position, none, none, []⟩ := by
    by_cases hunset : r.position = .unset
    · simp only [position, if_pos hunset]
      exact .nil _
    · simp only [position, if_neg hunset]
      exact ReadsMember.single (readsMember_field (fun p => ⟨some r.name, some p, none, none, []⟩)
        rfl (reads_position hunset _) rfl)
  have hregions : ReadsMembers (routineMember (depth + 4))
      (optional "parallelRegions" (unlessEmpty (r.regions.map Region.toValue)))
      ⟨some r.name, position, none, none, []⟩ ⟨some r.name, position, regions, none, []⟩ := by
    refine readsMembers_unlessEmpty (⟨some r.name, position, ·, none, []⟩) rfl
      (fun region hregion => reads_region (h.regions region hregion) ?_) rfl rfl
    exact fun v hv => hregions v ⟨region, hregion, hv⟩
  have hactive : ReadsMembers (routineMember (depth + 4))
      (optional "activeParallelRegions" (r.active.map Region.toValue))
      ⟨some r.name, position, regions, none, []⟩
      ⟨some r.name, position, regions, r.active.map some, []⟩ := by
    cases hcontainer : r.active with
    | none => exact .nil _
    | some container =>
      rw [hcontainer] at hactive
      have hregion : Reads (readRegion (depth + 4)) container.toValue container :=
        reads_region (h.active container hcontainer) hactive
      refine ReadsMember.single (readsMember_field
        (fun a => ⟨some r.name, position, regions, some a, []⟩) rfl
        (reads_optional hregion fun _ => ?_) rfl)
      exact ⟨'\x7b', _, rfl, by decide, by decide⟩
  have hextra : ReadsMembers (routineMember (depth + 4)) r.extra
      ⟨some r.name, position, regions, r.active.map some, []⟩
      ⟨some r.name, position, regions, r.active.map some, r.extra⟩ := by
    refine readsMembers_extra (⟨some r.name, position, regions, r.active.map some, ·⟩) ?_ h.extra
      hextra rfl rfl
    intro before key hkey
    obtain ⟨hname, hposition, hregions, hactive⟩ : key ≠ "name" ∧ key ≠ "parallelRegionPosition" ∧
        key ≠ "parallelRegions" ∧ key ≠ "activeParallelRegions" := by
      simpa [Routine.known] using hkey
    rw [routineMember, if_neg hname, if_neg hposition, if_neg hregions, if_neg hactive]
  refine reads_record (.cons hname (((hposition.append hregions).append hactive).append hextra)) ?_
  have hpositions : position.getD .unset = r.position := by
    by_cases hunset : r.position = .unset <;> simp [position, hunset]
  have hcontainer : (r.active.map some).getD none = r.active := by cases r.active <;> rfl
  rw [RoutineFields.complete, hpositions, getD_unlessEmpty, hcontainer]
  rfl

theorem reads_call {c : Call} (h : c.Regular depth)
    (hdouble : ∀ v ∈ c.extra.map Prod.snd, ¬ v.HasDouble) :
    Reads (readCall (depth + 1)) c.toValue c := by
  have hcaller : ReadsMember (callMember depth) "caller" (.text c.caller) {}
      ⟨some c.caller, none, none, []⟩ :=
    readsMember_field (fun name => ⟨some name, none, none, []⟩) rfl (reads_text c.caller) rfl
  have hcallee : ReadsMember (callMember depth) "callee" (.text c.callee)
      ⟨some c.caller, none, none, []⟩ ⟨some c.caller, some c.callee, none, []⟩ :=
    readsMember_field (fun name => ⟨some c.caller, some name, none, []⟩) rfl
      (reads_text c.callee) rfl
  have hsite : ReadsMembers (callMember depth)
      (optional "parallelRegionPosition" (c.site.map Value.text))
      ⟨some c.caller, some c.callee, none, []⟩
      ⟨some c.caller, some c.callee, c.site.map some, []⟩ := by
    cases c.site with
    | none => exact .nil _
    | some site =>
      refine ReadsMember.single (readsMember_field
        (fun site => ⟨some c.caller, some c.callee, some site, []⟩) rfl
        (reads_optional (reads_text site) fun _ => ?_) rfl)
      exact ⟨'"', _, rfl, by decide, by decide⟩
  have hextra : ReadsMembers (callMember depth) c.extra
      ⟨some c.caller, some c.callee, c.site.map some, []⟩
      ⟨some c.caller, some c.callee, c.site.map some, c.extra⟩ := by
    refine readsMembers_extra (⟨some c.caller, some c.callee, c.site.map some, ·⟩) ?_ h.extra
      hdouble rfl rfl
    intro before key hkey
    obtain ⟨hcaller, hcallee, hsite⟩ : key ≠ "caller" ∧ key ≠ "callee" ∧
        key ≠ "parallelRegionPosition" := by simpa [Call.known] using hkey
    rw [callMember, if_neg hcaller, if_neg hcallee, if_neg hsite]
  refine reads_record (.cons hcaller (.cons hcallee (hsite.append hextra))) ?_
  cases c with
  | mk caller callee site extra => cases site <;> rfl

theorem reads_template {t : Template} (h : t.Regular (depth + 1))
    (hdouble : ∀ v ∈ t.extra.map Prod.snd, ¬ v.HasDouble) :
    Reads (readTemplate (depth + 2)) t.toValue t := by
  let platforms := if t.appliesTo.isEmpty then none else some t.appliesTo
  have hid : ReadsMember (templateMember (depth + 1)) "id" (.text t.id) {} ⟨some t.id, none, []⟩ :=
    readsMember_field (fun id => ⟨some id, none, []⟩) rfl (reads_text t.id) rfl
  have hplatforms : ReadsMembers (templateMember (depth + 1))
      (optional "appliesTo" (unlessEmpty (t.appliesTo.map Value.text)))
      ⟨some t.id, none, []⟩ ⟨some t.id, platforms, []⟩ :=
    readsMembers_unlessEmpty (⟨some t.id, ·, []⟩) rfl (fun name _ => reads_text name) rfl rfl
  have hextra : ReadsMembers (templateMember (depth + 1)) t.extra ⟨some t.id, platforms, []⟩
      ⟨some t.id, platforms, t.extra⟩ := by
    refine readsMembers_extra (⟨some t.id, platforms, ·⟩) ?_ h.extra hdouble rfl rfl
    intro before key hkey
    obtain ⟨hid, hplatforms⟩ : key ≠ "id" ∧ key ≠ "appliesTo" := by
      simpa [Template.known] using hkey
    rw [templateMember, if_neg hid, if_neg hplatforms]
  refine reads_record (.cons hid (hplatforms.append hextra)) ?_
  simp only [TemplateFields.complete, required, platforms, getD_unlessEmpty, bind, Except.bind,
    pure, Except.pure]

/-- Regular documents are read back. -/
theorem reads_toValue {d : Document} (h : d.Regular (depth + 2))
    (hdouble : ∀ v ∈ d.kept, ¬ v.HasDouble) :
    Reads (readRecord .document documentMember {} DocumentFields.complete (depth + 7)) d.toValue
      d := by
  simp only [kept, List.mem_append, or_imp, forall_and, List.mem_flatMap] at hdouble
  obtain ⟨⟨⟨hextra, hroutines⟩, hcalls⟩, htemplates⟩ := hdouble
  have hroutines : ReadsMember (documentMember (depth + 6)) "routines"
      (.list (d.routines.map Routine.toValue)) {} ⟨some d.routines, none, none, []⟩ := by
    refine readsMember_field (fun rs => ⟨some rs, none, none, []⟩) rfl
      (reads_list_map fun r hr => ?_) rfl
    exact reads_routine (h.routines r hr) fun v hv => hroutines v ⟨r, hr, hv⟩
  have hcalls : ReadsMember (documentMember (depth + 6)) "calls"
      (.list (d.calls.map Call.toValue)) ⟨some d.routines, none, none, []⟩
      ⟨some d.routines, some d.calls, none, []⟩ := by
    refine readsMember_field (fun cs => ⟨some d.routines, some cs, none, []⟩) rfl
      (reads_list_map fun c hc => ?_) rfl
    exact reads_call (h.calls c hc) fun v hv => hcalls v ⟨c, hc, hv⟩
  have htemplates : ReadsMember (documentMember (depth + 6)) "parallelRegionTemplates"
      (.list (d.templates.map Template.toValue)) ⟨some d.routines, some d.calls, none, []⟩
      ⟨some d.routines, some d.calls, some d.templates, []⟩ := by
    refine readsMember_field (fun ts => ⟨some d.routines, some d.calls, some ts, []⟩) rfl
      (reads_list_map fun t ht => ?_) rfl
    exact reads_template (h.templates t ht) fun v hv => htemplates v ⟨t, ht, hv⟩
  have hextra : ReadsMembers (documentMember (depth + 6)) d.extra
      ⟨some d.routines, some d.calls, some d.templates, []⟩
      ⟨some d.routines, some d.calls, some d.templates, d.extra⟩ := by
    refine readsMembers_extra (⟨some d.routines, some d.calls, some d.templates, ·⟩) ?_ h.extra
      hextra rfl rfl
    intro before key hkey
    obtain ⟨hroutines, hcalls, htemplates⟩ : key ≠ "routines" ∧ key ≠ "calls" ∧
        key ≠ "parallelRegionTemplates" := by simpa [known] using hkey
    rw [documentMember, if_neg hroutines, if_neg hcalls, if_neg htemplates]
  exact reads_record (.cons hroutines (.cons hcalls (.cons htemplates hextra))) rfl

end Records

/-- The text of a regular document is read back. -/
theorem ofString?_print_of_regular {d : Document} (h : d.Regular (maxDepth - 5))
    (hdouble : ∀ v ∈ d.kept, ¬ v.HasDouble) (pretty : Bool) :
    ofString? (d.print pretty) = .ok d := by
  have hinside : d.Regular (maxDepth - 7 + 2) := h
  have hread : ∀ style, read (d.toValue.print style ++ ['\n']) = .ok (d, ['\n']) := fun style =>
    (reads_toValue hinside hdouble).read_here (stops_cons (by decide)) style
  rw [ofString?, print, String.toList_ofList, printChars, ofChars?, hread]
  rfl

/-- A document that has been read, and that keeps no double, is written as a text from which it is
read back, on one line or indented. So the two texts hold the same document, and a text that has
been written is written again as it is. -/
theorem ofString?_print {text : String} {d : Document} (h : ofString? text = .ok d)
    (hdouble : ∀ v ∈ d.kept, ¬ v.HasDouble) (pretty : Bool) :
    ofString? (d.print pretty) = .ok d ∧
      (ofString? (d.print pretty)).map (print · pretty) = .ok (d.print pretty) := by
  have hread := ofString?_print_of_regular (regular_of_ofString? h) hdouble pretty
  exact ⟨hread, by rw [hread]; rfl⟩

/-- A document whose position is an object, which gives a field twice, and out of order. -/
def spelled : String :=
  "\x7b\"routines\": [\x7b\"name\": \"k\", \"parallelRegionPosition\": \x7b\"within\": null\x7d, "
    ++ "\"sizes\": [1, -2]\x7d], \"b\": 1, \"a\": \"\\u0007\", \"b\": \x7b\x7d\x7d"

theorem ofString?_print_spelled : ∃ d, ofString? spelled = .ok d ∧
    (∀ v ∈ d.kept, ¬ v.HasDouble) ∧ ofString? (d.print true) = .ok d ∧
      (ofString? (d.print true)).map (print · true) = .ok (d.print true) := by
  let sizes : Value :=
    .list [.number (.integer 1 (by decide)), .number (.integer (-2) (by decide))]
  let d : Document :=
    ⟨[⟨"k", .within, [], none, [("sizes", sizes)]⟩], [], [],
      [("a", .text "\x07"), ("b", .object [])]⟩
  have hread : ofString? spelled = .ok d := by decide +kernel
  have hsizes : ¬ Value.HasDouble (.list [.number (.integer 1 (by decide)),
      .number (.integer (-2) (by decide))]) := by
    rintro (_ | ⟨hmem, h⟩ | _)
    simp only [List.mem_cons, List.not_mem_nil, or_false] at hmem
    rcases hmem with rfl | rfl <;> cases h
  have hdouble : ∀ v ∈ d.kept, ¬ v.HasDouble := by
    intro v hv
    have hcases : v = .text "\x07" ∨ v = .object [] ∨ v = sizes := by
      simpa [d, kept, Routine.kept] using hv
    rcases hcases with rfl | rfl | hv
    · rintro ⟨⟩
    · rintro (_ | _ | ⟨⟨⟩, _⟩)
    · exact hv ▸ hsizes
  exact ⟨d, hread, hdouble, ofString?_print hread hdouble true⟩

end KernelGraph.Document
