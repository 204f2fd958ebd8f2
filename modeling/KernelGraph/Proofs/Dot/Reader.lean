import Mathlib.Data.List.Forall2

/-!
# Reading graphs in the DOT language

A text in the DOT language is a sequence of words, quoted strings and marks. In a quoted string a
backslash takes the character after it along, whatever it is, and the first quotation mark that is
not taken along ends the string, so that marks and line breaks inside one mean nothing. The tokens
make up statements, each ended by a semicolon, between the braces of the graph. Of the language this
is the part without comments, subgraphs, ports and text in angle brackets, with its keywords in
lower case.

## Main definitions

* `Dot.Token`, `Dot.Place.step`, `Dot.scan`, `Dot.tokens?` — the tokens of a text
* `Dot.Statement`, `Dot.statement?` — the statements
* `Dot.Graph`, `Dot.Graph.ofString?` — a graph, and how it is read
* `Dot.label?` — what a label shows
* `Dot.Scans`, `Dot.Reads` — a part of a text is read as tokens, or as statements

## Main results

* `Dot.Scans.append`, `Dot.Reads.append` — a text may be read part by part
* `Dot.ofString?_of_reads` — a graph is read by reading what stands between its braces
-/

namespace KernelGraph.Dot

/-! ## Tokens -/

/-- A name or a value. -/
inductive Ident
  /-- Letters, digits and underscores. -/
  | word (s : String)
  /-- What stands between two quotation marks, with its backslashes. -/
  | quoted (s : String)
  deriving DecidableEq, Repr

/-- A token of the language. -/
inductive Token
  | ident (i : Ident)
  | mark (c : Char)
  | arrow
  deriving DecidableEq, Repr

/-- Does a character belong to words? -/
def isLetter (c : Char) : Bool := c.isAlphanum || c = '_'

/-- The marks that stand for themselves. -/
def marks : List Char := ['\x7b', '\x7d', '[', ']', ';', ',', '=']

/-- Where in a text the reader is, with what it has read of a token. -/
inductive Place
  | between
  | word (s : List Char)
  /-- After a hyphen, which begins an arrow. -/
  | hyphen
  | quoted (s : List Char)
  /-- After a backslash in a quoted string. -/
  | escaped (s : List Char)
  deriving DecidableEq, Repr

/-- The tokens that a character completes where no token has begun, and the place after it. -/
def Place.start (c : Char) : Option (List Token × Place) :=
  if c.isWhitespace then some ([], .between)
  else if isLetter c then some ([], .word [c])
  else if c = '"' then some ([], .quoted [])
  else if c = '-' then some ([], .hyphen)
  else if c ∈ marks then some ([.mark c], .between)
  else none

/-- The tokens that a character completes, and the place after it. -/
def Place.step : Place → Char → Option (List Token × Place)
  | .between, c => start c
  | .word s, c =>
    if isLetter c then some ([], .word (s ++ [c]))
    else (start c).map fun (ts, p) => (.ident (.word (String.ofList s)) :: ts, p)
  | .hyphen, c => if c = '>' then some ([.arrow], .between) else none
  | .quoted s, c =>
    if c = '"' then some ([.ident (.quoted (String.ofList s))], .between)
    else if c = '\\' then some ([], .escaped s)
    else some ([], .quoted (s ++ [c]))
  | .escaped s, c => some ([], .quoted (s ++ ['\\', c]))

/-- The tokens that are completed in a text, and the place at its end. -/
def scan : Place → List Char → Option (List Token × Place)
  | p, [] => some ([], p)
  | p, c :: cs => do
    let (ts, p) ← p.step c
    let (us, p) ← scan p cs
    return (ts ++ us, p)

/-- The token that the end of the text completes, if it may end there. -/
def Place.finish : Place → Option (List Token)
  | .between => some []
  | .word s => some [.ident (.word (String.ofList s))]
  | .hyphen | .quoted _ | .escaped _ => none

/-- The tokens of a text. -/
def tokens? (s : String) : Option (List Token) := do
  let (ts, p) ← scan .between s.toList
  let us ← p.finish
  return ts ++ us

/-! ## Statements -/

/-- The attributes of a statement, each with its value. -/
abbrev Attributes := List (Ident × Ident)

/-- A statement of a graph. -/
inductive Statement
  /-- An attribute of the graph. -/
  | setting (name value : Ident)
  /-- Attributes of the graph, of all nodes or of all edges. -/
  | defaults (kind : Ident) (attributes : Attributes)
  | node (name : Ident) (attributes : Attributes)
  | edge (tail head : Ident) (attributes : Attributes)
  deriving DecidableEq, Repr

/-- The attributes that stand after an opening bracket, up to the one that closes it. -/
def attributes? : List Token → Option Attributes
  | [.ident name, .mark '=', .ident value, .mark ']'] => some [(name, value)]
  | .ident name :: .mark '=' :: .ident value :: .mark ',' :: rest => do
    return (name, value) :: (← attributes? rest)
  | _ => none

/-- The words that attributes of all things of a kind stand after. -/
def kinds : List Ident := [.word "graph", .word "node", .word "edge"]

/-- The statement of the tokens up to a semicolon. -/
def statement? : List Token → Option Statement
  | [.ident name, .mark '=', .ident value] => some (.setting name value)
  | .ident tail :: .arrow :: .ident head :: .mark '[' :: rest =>
    .edge tail head <$> attributes? rest
  | .ident name :: .mark '[' :: rest =>
    (if name ∈ kinds then .defaults name else .node name) <$> attributes? rest
  | _ => none

/-- A directed graph. -/
structure Graph where
  name : Ident
  statements : List Statement
  deriving DecidableEq, Repr

/-- The graph of the tokens of a text. Nothing may follow its closing brace. -/
def Graph.ofTokens? : List Token → Option Graph
  | .ident (.word "digraph") :: .ident name :: .mark '\x7b' :: rest =>
    let parts := rest.splitOn (.mark ';')
    if parts.getLast? = some [.mark '\x7d'] then
      Graph.mk name <$> parts.dropLast.mapM statement?
    else none
  | _ => none

/-- The graph that a text describes. -/
def Graph.ofString? (s : String) : Option Graph := tokens? s >>= ofTokens?

/-! ## Labels -/

/-- The characters that the inside of a quoted string stands for in a label. A backslash stands
before a backslash or a quotation mark, or makes a line break of an `n`. -/
def decode? : List Char → Option (List Char)
  | [] => some []
  | '\\' :: '\\' :: cs => ('\\' :: ·) <$> decode? cs
  | '\\' :: '"' :: cs => ('"' :: ·) <$> decode? cs
  | '\\' :: 'n' :: cs => ('\n' :: ·) <$> decode? cs
  | '\\' :: _ => none
  | c :: cs => (c :: ·) <$> decode? cs

/-- What the inside of a quoted string shows as a label. -/
def label? (s : String) : Option String := String.ofList <$> decode? s.toList

/-! ## Reading part by part -/

/-- A part of a text, begun at a place, completes these tokens and ends at that place. -/
def Scans (p : Place) (s : String) (ts : List Token) (q : Place) : Prop :=
  scan p s.toList = some (ts, q)

variable {p q r : Place} {s t : String} {ts us : List Token}

theorem scan_append {cs ds : List Char} (h : scan p cs = some (ts, q)) :
    scan p (cs ++ ds) = (scan q ds).map fun (us, r) => (ts ++ us, r) := by
  induction cs generalizing p ts with
  | nil =>
    obtain ⟨rfl, rfl⟩ := Prod.mk.inj (Option.some.inj h)
    simp
  | cons c cs ih =>
    simp only [scan, List.cons_append, Option.bind_eq_bind, Option.bind_eq_some_iff] at h ⊢
    obtain ⟨⟨first, p'⟩, hstep, ⟨rest, q'⟩, hrest, hpure⟩ := h
    obtain ⟨rfl, rfl⟩ := Prod.mk.inj (Option.some.inj hpure)
    rw [hstep, Option.bind_some, ih hrest]
    cases scan q' ds <;> simp

/-- Parts of a text that fit together are read one after the other. -/
theorem Scans.append (h : Scans p s ts q) (h' : Scans q t us r) :
    Scans p (s ++ t) (ts ++ us) r := by
  rw [Scans, String.toList_append, scan_append h, h']
  rfl

/-- A word goes on with letters. -/
theorem scans_letters (h : ∀ c ∈ s.toList, isLetter c) (w : List Char) :
    Scans (.word w) s [] (.word (w ++ s.toList)) := by
  rw [Scans]
  generalize s.toList = cs at h
  induction cs generalizing w with
  | nil => simp [scan]
  | cons c cs ih =>
    obtain ⟨hc, hcs⟩ := List.forall_mem_cons.mp h
    simp [scan, Place.step, hc, ih _ hcs]

/-- A part of a text, between tokens, reads as these statements, each ended by a semicolon. -/
def Reads (s : String) (statements : List Statement) : Prop :=
  ∃ parts : List (List Token), Scans .between s (parts.flatMap (· ++ [.mark ';'])) .between ∧
    (∀ part ∈ parts, .mark ';' ∉ part) ∧ parts.mapM statement? = some statements

variable {statements others : List Statement} {statement : Statement}

/-- White space reads as no statement. -/
theorem reads_nil (h : Scans .between s [] .between) : Reads s [] := ⟨[], h, by simp, rfl⟩

theorem reads_single (ts : List Token) (h : Scans .between s (ts ++ [.mark ';']) .between)
    (hts : .mark ';' ∉ ts) (hstatement : statement? ts = some statement) :
    Reads s [statement] := by
  refine ⟨[ts], by simpa using h, by simpa using hts, ?_⟩
  simp [hstatement]

theorem Reads.append (h : Reads s statements) (h' : Reads t others) :
    Reads (s ++ t) (statements ++ others) := by
  obtain ⟨parts, hscan, hparts, hread⟩ := h
  obtain ⟨parts', hscan', hparts', hread'⟩ := h'
  refine ⟨parts ++ parts', ?_, List.forall_mem_append.mpr ⟨hparts, hparts'⟩, ?_⟩
  · rw [List.flatMap_append]
    exact hscan.append hscan'
  · rw [List.mapM_append, hread, hread']
    rfl

/-- Texts of one statement each are read one after the other. -/
theorem reads_join {texts : List String}
    (h : List.Forall₂ (fun s statement => Reads s [statement]) texts statements) :
    Reads (String.join texts) statements := by
  induction h with
  | nil => exact reads_nil rfl
  | cons hfirst _ ih =>
    rw [String.join_cons]
    exact hfirst.append ih

/-- Tokens come apart at the semicolons that end them. -/
theorem splitOn_flatMap {parts : List (List Token)} (hparts : ∀ part ∈ parts, .mark ';' ∉ part)
    (hts : .mark ';' ∉ ts) :
    (parts.flatMap (· ++ [Token.mark ';']) ++ ts).splitOn (.mark ';') = parts ++ [ts] := by
  induction parts with
  | nil => exact List.splitOn_eq_singleton hts
  | cons part parts ih =>
    obtain ⟨hpart, hparts⟩ := List.forall_mem_cons.mp hparts
    rw [List.flatMap_cons, List.append_assoc, List.append_assoc, List.singleton_append,
      List.splitOn_append_cons_self, List.splitOn_eq_singleton hpart, ih hparts]
    rfl

/-- A graph is read by reading the statements between its braces. -/
theorem ofString?_of_reads {name : Ident} {opening closing : String}
    (hopening : Scans .between opening
      [.ident (.word "digraph"), .ident name, .mark '\x7b'] .between)
    (h : Reads s statements) (hclosing : Scans .between closing [.mark '\x7d'] .between) :
    Graph.ofString? (opening ++ s ++ closing) = some ⟨name, statements⟩ := by
  obtain ⟨parts, hscan, hparts, hread⟩ := h
  have htokens : tokens? (opening ++ s ++ closing) = some (.ident (.word "digraph") ::
      .ident name :: .mark '\x7b' :: (parts.flatMap (· ++ [.mark ';']) ++ [.mark '\x7d'])) := by
    rw [tokens?, (hopening.append hscan).append hclosing]
    simp [Place.finish]
  have hbrace : Token.mark ';' ∉ [.mark '\x7d'] := by decide
  rw [Graph.ofString?, htokens]
  simp [Graph.ofTokens?, splitOn_flatMap hparts hbrace, hread]

end KernelGraph.Dot
