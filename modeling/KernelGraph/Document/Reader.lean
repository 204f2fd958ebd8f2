import KernelGraph.Document.Basic

/-!
# Reading a document

Every record is read member by member, in the order of the text. A known field may stand once; it
is refused at its key the second time. Unknown fields are kept, with the last value of a repeated
key. What is missing is noticed at the closing bracket.

## Main definitions

* `Document.read` — a reader of documents
* `Document.ofString?` — the document that a text holds, or its first fault
-/

namespace KernelGraph.Document

/-- Reads a record: an object whose members are folded into a state, which is completed at the
closing bracket. -/
def readRecord {σ α : Type} (kind : RecordKind) (member : Nat → σ → String → Reader σ) (start : σ)
    (complete : σ → Except Fault α) (depth : Nat) : Reader α := fun s =>
  match skipBlanks s with
  | '\x7b' :: s =>
    match depth with
    | 0 => .error .illFormed
    | depth + 1 => do
      let (state, s) ← members Quoted.read (member depth) start s
      return (← complete state, s)
  | s => .error (wrongKind (.record kind) s)

/-- Reads the value of a known field after its key, unless the field has been read before. -/
def readField {σ α : Type} (name : String) (before : Option α) (value : Reader α) (put : α → σ) :
    Reader σ := fun s =>
  -- the key alone is the fault: neither colon nor value is looked at
  if before.isSome then .error (.mismatch (.repeatedField name))
  else do
    let s ← afterColon s
    let (a, s) ← value s
    return (put a, s)

/-- Reads the value of an unknown field after its key. -/
def readExtra {σ : Type} (depth : Nat) (fields : Fields) (key : String) (put : Fields → σ) :
    Reader σ := fun s => do
  let (fields, s) ← keptMember (Value.read depth) fields key s
  return (put fields, s)

/-- The value of a field that must be there. -/
def required {α : Type} (name : String) : Option α → Except Fault α
  | some a => .ok a
  | none => .error (.mismatch (.missingField name))

/-- Reads `null` as nothing, and anything else with the reader given. -/
def readOptional {α : Type} (value : Reader α) : Reader (Option α) := fun s =>
  match skipBlanks s with
  | 'n' :: s => do return (none, ← word ['u', 'l', 'l'] s)
  | s => do
    let (a, s) ← value s
    return (some a, s)

/-- Reads `null`. -/
def readNull : Reader Unit := fun s =>
  match skipBlanks s with
  | 'n' :: s => do return ((), ← word ['u', 'l', 'l'] s)
  | s => .error (wrongKind .null s)

/-- The position with a name, which must be one of those known. -/
def positionNamed (name : String) : Except Fault Position :=
  match Position.ofName? name with
  | some p => .ok p
  | none => .error (.mismatch (.unknownPosition name))

/-- Reads a position: its name, or an object whose only key is the name and whose value is
`null`. -/
def readPosition (depth : Nat) : Reader Position := fun s =>
  match skipBlanks s with
  | [] => .error .cutOff
  | '"' :: s => do
    let (name, s) ← Quoted.read s
    return (← positionNamed name, s)
  | '\x7b' :: s =>
    if depth = 0 then .error .illFormed
    else
      match skipBlanks s with
      | [] => .error .cutOff
      | '"' :: s => do
        let (name, s) ← Quoted.read s
        let position ← positionNamed name
        let ((), s) ← readNull (← afterColon s)
        match skipBlanks s with
        | [] => .error .cutOff
        | '\x7d' :: s => return (position, s)
        | _ => .error .illFormed
      | _ => .error .illFormed
  | _ => .error .illFormed

/-- Reads the closing bracket of a template relation written as a list of one element. -/
def closeRelation (id : String) : Reader String := fun s =>
  match skipBlanks s with
  | [] => .error .cutOff
  | ']' :: s => .ok (id, s)
  | _ => .error .illFormed

/-- Reads a member of a template relation; all but the id are passed over. -/
def relationMember (id : Option String) (key : String) : Reader (Option String) :=
  if key = "id" then readField "id" id readText some
  else fun s => do return (id, ← Value.skip (← afterColon s))

/-- Reads a template relation: an object with an id, or a list with the id alone. -/
def readRelation (depth : Nat) : Reader String := fun s =>
  match skipBlanks s with
  | '[' :: s =>
    if depth = 0 then .error .illFormed
    else
      match skipBlanks s with
      | [] => .error .cutOff
      | ']' :: _ => .error (.mismatch .emptyRelation)
      | s => do
        let (id, s) ← readText s
        closeRelation id s
  | s => readRecord .relation (fun _ => relationMember) none (required "id") depth s

/-- The fields of a region read so far. -/
structure RegionFields where
  templates : Option (List String) := none
  extra : Fields := []

/-- Reads a member of a region. -/
def regionMember (depth : Nat) (r : RegionFields) (key : String) : Reader RegionFields :=
  if key = "templateRelations" then
    readField key r.templates (readList depth readRelation) fun ts => ⟨some ts, r.extra⟩
  else readExtra depth r.extra key fun extra => ⟨r.templates, extra⟩

/-- A region from its fields; its list of templates may be missing. -/
def RegionFields.complete (r : RegionFields) : Except Fault Region :=
  .ok ⟨r.templates.getD [], r.extra⟩

/-- Reads a region. -/
def readRegion : Nat → Reader Region :=
  readRecord .region regionMember ⟨none, []⟩ RegionFields.complete

/-- The fields of a routine read so far. -/
structure RoutineFields where
  name : Option String := none
  position : Option Position := none
  regions : Option (List Region) := none
  active : Option (Option Region) := none
  extra : Fields := []

/-- Reads a member of a routine. -/
def routineMember (depth : Nat) (r : RoutineFields) (key : String) : Reader RoutineFields :=
  if key = "name" then readField key r.name readText fun name => { r with name := some name }
  else if key = "parallelRegionPosition" then
    readField key r.position (readPosition depth) fun p => { r with position := some p }
  else if key = "parallelRegions" then
    readField key r.regions (readList depth readRegion) fun rs => { r with regions := some rs }
  else if key = "activeParallelRegions" then
    readField key r.active (readOptional (readRegion depth)) fun a => { r with active := some a }
  else readExtra depth r.extra key fun extra => { r with extra := extra }

/-- A routine from its fields, all of which may be missing. -/
def RoutineFields.complete (r : RoutineFields) : Except Fault Routine :=
  .ok ⟨r.name.getD "", r.position.getD .unset, r.regions.getD [], r.active.getD none, r.extra⟩

/-- Reads a routine. -/
def readRoutine : Nat → Reader Routine :=
  readRecord .routine routineMember {} RoutineFields.complete

/-- The fields of a call read so far. -/
structure CallFields where
  caller : Option String := none
  callee : Option String := none
  site : Option (Option String) := none
  extra : Fields := []

/-- Reads a member of a call. -/
def callMember (depth : Nat) (c : CallFields) (key : String) : Reader CallFields :=
  if key = "caller" then readField key c.caller readText fun n => { c with caller := some n }
  else if key = "callee" then readField key c.callee readText fun n => { c with callee := some n }
  else if key = "parallelRegionPosition" then
    readField key c.site (readOptional readText) fun p => { c with site := some p }
  else readExtra depth c.extra key fun extra => { c with extra := extra }

/-- A call from its fields; both ends must be there, and the caller is asked for first. -/
def CallFields.complete (c : CallFields) : Except Fault Call := do
  let caller ← required "caller" c.caller
  let callee ← required "callee" c.callee
  return ⟨caller, callee, c.site.getD none, c.extra⟩

/-- Reads a call. -/
def readCall : Nat → Reader Call := readRecord .call callMember {} CallFields.complete

/-- The fields of a template read so far. -/
structure TemplateFields where
  id : Option String := none
  appliesTo : Option (List String) := none
  extra : Fields := []

/-- Reads a member of a template. -/
def templateMember (depth : Nat) (t : TemplateFields) (key : String) : Reader TemplateFields :=
  if key = "id" then readField key t.id readText fun id => { t with id := some id }
  else if key = "appliesTo" then
    readField key t.appliesTo (readList depth fun _ => readText) fun ps =>
      { t with appliesTo := some ps }
  else readExtra depth t.extra key fun extra => { t with extra := extra }

/-- A template from its fields; the id must be there. -/
def TemplateFields.complete (t : TemplateFields) : Except Fault Template := do
  return ⟨← required "id" t.id, t.appliesTo.getD [], t.extra⟩

/-- Reads a template. -/
def readTemplate : Nat → Reader Template :=
  readRecord .template templateMember {} TemplateFields.complete

/-- The fields of a document read so far. -/
structure DocumentFields where
  routines : Option (List Routine) := none
  calls : Option (List Call) := none
  templates : Option (List Template) := none
  extra : Fields := []

/-- Reads a member of a document. -/
def documentMember (depth : Nat) (d : DocumentFields) (key : String) : Reader DocumentFields :=
  if key = "routines" then
    readField key d.routines (readList depth readRoutine) fun rs => { d with routines := some rs }
  else if key = "calls" then
    readField key d.calls (readList depth readCall) fun cs => { d with calls := some cs }
  else if key = "parallelRegionTemplates" then
    readField key d.templates (readList depth readTemplate) fun ts =>
      { d with templates := some ts }
  else readExtra depth d.extra key fun extra => { d with extra := extra }

/-- A document from its fields, all of which may be missing. -/
def DocumentFields.complete (d : DocumentFields) : Except Fault Document :=
  .ok ⟨d.routines.getD [], d.calls.getD [], d.templates.getD [], d.extra⟩

/-- Reads a document. -/
def read : Reader Document :=
  readRecord .document documentMember {} DocumentFields.complete maxDepth

/-- The document that the characters of a text hold, or the first fault. -/
def ofChars? (s : List Char) : Except Fault Document := do
  let (d, s) ← read s
  expectEnd s
  return d

/-- The document that a text holds, or the first fault. -/
def ofString? (text : String) : Except Fault Document := ofChars? text.toList

end KernelGraph.Document
