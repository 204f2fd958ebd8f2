import KernelGraph.Json.Lexeme

/-!
# Reading JSON

Lists and objects are read by loops that are told how to read one part, so that the same loops
serve values of any kind and the records of a document. Nesting is bounded by a number of levels,
on which the reading of a value is a structural recursion; the loops take at least one character a
turn, and get the length of the text as their bound.

A value whose place is fixed but whose kind is wrong is read only as far as its kind needs: words,
numbers and texts in full, of a list or an object no more than the bracket.

## Main definitions

* `elements`, `members` — the loops for lists and objects
* `Value.read` — a value, with a bound on its nesting
* `Value.skip` — a value that is passed over, however deep it is nested
* `wrongKind` — the fault where something else was expected
-/

namespace KernelGraph

/-- The most levels of lists and objects, the document itself included. -/
def maxDepth : Nat := 127

/-- The elements after the first of a list whose bracket has been opened, up to the closing
bracket. -/
def moreElements {α : Type} (item : Reader α) : Nat → Reader (List α)
  | 0, _ => .error .cutOff
  | bound + 1, s =>
    match skipBlanks s with
    | [] => .error .cutOff
    | ']' :: rest => .ok ([], rest)
    | ',' :: rest =>
      -- a comma announces one more element, so the bracket may not follow it
      match skipBlanks rest with
      | [] => .error .cutOff
      | ']' :: _ => .error .illFormed
      | s => do
        let (a, s) ← item s
        let (as, s) ← moreElements item bound s
        return (a :: as, s)
    | _ => .error .illFormed

/-- The elements of a list whose bracket has been opened, up to the closing bracket. -/
def elements {α : Type} (item : Reader α) : Reader (List α) := fun s =>
  match skipBlanks s with
  | [] => .error .cutOff
  | ']' :: rest => .ok ([], rest)
  | s => do
    let (a, s) ← item s
    let (as, s) ← moreElements item s.length.succ s
    return (a :: as, s)

/-- The members after the first of an object, up to the closing bracket. Each member is folded into
a state by `member`, which is given the key and starts right after it. -/
def moreMembers {κ σ : Type} (key : Reader κ) (member : σ → κ → Reader σ) : Nat → σ → Reader σ
  | 0, _, _ => .error .cutOff
  | bound + 1, state, s =>
    match skipBlanks s with
    | [] => .error .cutOff
    | '\x7d' :: rest => .ok (state, rest)
    | ',' :: rest =>
      -- a comma announces one more member, so a key must follow it
      match skipBlanks rest with
      | [] => .error .cutOff
      | '"' :: s => do
        let (k, s) ← key s
        let (state, s) ← member state k s
        moreMembers key member bound state s
      | _ => .error .illFormed
    | _ => .error .illFormed

/-- The members of an object whose bracket has been opened, up to the closing bracket, folded into
a state that starts as `state`. -/
def members {κ σ : Type} (key : Reader κ) (member : σ → κ → Reader σ) (state : σ) :
    Reader σ := fun s =>
  match skipBlanks s with
  | [] => .error .cutOff
  | '\x7d' :: rest => .ok (state, rest)
  | '"' :: s => do
    let (k, s) ← key s
    let (state, s) ← member state k s
    moreMembers key member s.length.succ state s
  | _ => .error .illFormed

/-- What follows the colon between a key and its value. -/
def afterColon (s : List Char) : Except Fault (List Char) :=
  match skipBlanks s with
  | [] => .error .cutOff
  | ':' :: rest => .ok rest
  | _ => .error .illFormed

/-- A member kept among the fields of an object; a repeated key keeps its last value. -/
def keptMember (value : Reader Value) (fields : Fields) (key : String) : Reader Fields :=
  fun s => do
  let s ← afterColon s
  let (v, s) ← value s
  return (Fields.insert key v fields, s)

namespace Value

/-- A value, with the given number of levels left for lists and objects. -/
def read : Nat → Reader Value
  | depth, s =>
    match skipBlanks s with
    | [] => .error .cutOff
    | 'n' :: s => do return (.null, ← word ['u', 'l', 'l'] s)
    | 't' :: s => do return (.bool true, ← word ['r', 'u', 'e'] s)
    | 'f' :: s => do return (.bool false, ← word ['a', 'l', 's', 'e'] s)
    | '"' :: s => do
      let (t, s) ← Quoted.read s
      return (.text t, s)
    | '-' :: s => do
      let (n, s) ← Number.read true s
      return (.number n, s)
    | '[' :: s =>
      -- the bracket that opens one level too many is the fault, whatever follows it
      match depth with
      | 0 => .error .illFormed
      | depth + 1 => do
        let (vs, s) ← elements (read depth) s
        return (.list vs, s)
    | '\x7b' :: s =>
      match depth with
      | 0 => .error .illFormed
      | depth + 1 => do
        let (fields, s) ← members Quoted.read (keptMember (read depth)) [] s
        return (.object fields, s)
    | c :: s =>
      if isDigit c then do
        let (n, s) ← Number.read false (c :: s)
        return (.number n, s)
      else .error .illFormed

/-- What follows a value that is passed over. The bound is on its nesting. -/
def skipWithin : Nat → List Char → Except Fault (List Char)
  | 0, _ => .error .cutOff
  | bound + 1, s =>
    match skipBlanks s with
    | [] => .error .cutOff
    | 'n' :: s => word ['u', 'l', 'l'] s
    | 't' :: s => word ['r', 'u', 'e'] s
    | 'f' :: s => word ['a', 'l', 's', 'e'] s
    | '"' :: s => Quoted.skip s
    | '-' :: s => Number.skip s
    | '[' :: s => do
      let (_, s) ← elements (fun s => do return ((), ← skipWithin bound s)) s
      return s
    | '\x7b' :: s => do
      let (_, s) ← members (fun s => do return ((), ← Quoted.skip s))
        (fun _ _ s => do return ((), ← skipWithin bound (← afterColon s))) () s
      return s
    | c :: s => if isDigit c then Number.skip (c :: s) else .error .illFormed

/-- What follows a value that is passed over: no text nests deeper than it is long. -/
def skip (s : List Char) : Except Fault (List Char) := skipWithin s.length.succ s

end Value

/-- The fault where `expected` was expected and something else stands. -/
def wrongKind (expected : Expected) (s : List Char) : Fault :=
  let blame (answer : Except Fault Found) : Fault :=
    match answer with
    | .ok found => .mismatch (.wrongKind found expected)
    | .error fault => fault
  match skipBlanks s with
  | [] => .cutOff
  | 'n' :: s => blame (word ['u', 'l', 'l'] s |>.map fun _ => .null)
  | 't' :: s => blame (word ['r', 'u', 'e'] s |>.map fun _ => .bool true)
  | 'f' :: s => blame (word ['a', 'l', 's', 'e'] s |>.map fun _ => .bool false)
  | '"' :: s => blame (Quoted.read s |>.map fun p => .text p.1)
  | '-' :: s => blame (Number.read true s |>.map fun p => .number p.1)
  -- a bracket tells the kind, so what is inside it is not looked at
  | '[' :: _ => .mismatch (.wrongKind .list expected)
  | '\x7b' :: _ => .mismatch (.wrongKind .object expected)
  | c :: s =>
    if isDigit c then blame (Number.read false (c :: s) |>.map fun p => .number p.1)
    else .illFormed

/-- A text. -/
def readText : Reader String := fun s =>
  match skipBlanks s with
  | '"' :: s => Quoted.read s
  | s => .error (wrongKind .text s)

/-- A list, with the given number of levels left. -/
def readList {α : Type} (depth : Nat) (item : Nat → Reader α) : Reader (List α) := fun s =>
  match skipBlanks s with
  | '[' :: s =>
    match depth with
    | 0 => .error .illFormed
    | depth + 1 => elements (item depth) s
  | s => .error (wrongKind .list s)

/-- Nothing but blanks may follow. -/
def expectEnd (s : List Char) : Except Fault Unit :=
  match skipBlanks s with
  | [] => .ok ()
  | _ => .error .illFormed

/-- The value that a text holds. -/
def Value.ofString? (text : String) : Except Fault Value := do
  let (v, s) ← Value.read maxDepth text.toList
  expectEnd s
  return v

end KernelGraph
