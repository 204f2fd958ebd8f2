import KernelGraph.Graph.Drawing
import KernelGraph.Proofs.Dot.Reader

/-!
# Drawings are read back

Whatever characters the names of routines and the ids of templates are made of, a drawing is read in
the DOT language as a graph with a node for each routine and an edge for each call between routines
that exist, and nothing else. What has been escaped has no quotation mark that stands alone, and no
backslash at its end that could take along what follows, so it neither ends the string of a label
early nor keeps it from ending. Taken out of the string, the label shows what was escaped.

## Main definitions

* `Drawing.node`, `Drawing.edge`, `Program.graph` — the graph that is drawn
* `Drawing.caption` — what a node shows
* `Drawing.Stays` — a text that stays inside a quoted string

## Main results

* `Drawing.toList_escape_eq` — escaping as two replacements
* `Drawing.stays_escape`, `Drawing.decode?_escape` — escaping is safe, and loses nothing
* `Drawing.label?_label` — what the label of a node shows
* `Program.ofString?_drawing` — a drawing is read back
-/

namespace KernelGraph

open Dot

namespace Drawing

/-! ## What is drawn -/

/-- The name of the node for the routine with a number. -/
def nodeName (i : Nat) : Ident := .word ("r" ++ toString i)

/-- The node for the routine at a place. -/
def node (i : Nat) (r : Routine) : Statement :=
  .node (nodeName i)
    [(.word "shape", .word (shape r.position)), (.word "style", .word "filled"),
      (.word "fillcolor", .word (fill r.position)), (.word "label", .quoted (label r))]

/-- The edge for a call. -/
def edge (caller callee : Nat) (strategy : CallStrategy) (bold : Bool) : Statement :=
  .edge (nodeName caller) (nodeName callee)
    [(.word "color", .word (stroke strategy)),
      (.word "style", .word (if bold then "bold" else "solid"))]

/-- The statements in front of the nodes. -/
def preamble : List Statement :=
  [.setting (.word "rankdir") (.word "TB"),
    .defaults (.word "node")
      [(.word "fontname", .quoted "Helvetica"), (.word "fontsize", .word "10")],
    .defaults (.word "edge")
      [(.word "fontname", .quoted "Helvetica"), (.word "fontsize", .word "9")]]

/-- What the node of a routine shows: its name, its position on a new line unless it is unset, and
the list of its templates on a new line unless there are none. -/
def caption (r : Routine) : String :=
  r.name ++ (if r.position = .unset then "" else "\n" ++ r.position.name) ++
    r.active.elim "" fun c => if c.templates.isEmpty then "" else "\n" ++ c.templates.describe

end Drawing

namespace Program

/-- The edge for a call, if both its ends are names of routines. -/
def edge? (p : Program) (c : Call) : Option Statement :=
  match p.idOf? c.caller, p.idOf? c.callee with
  | some caller, some callee =>
    some (Drawing.edge caller callee (p.strategy c.callee) c.isSurround)
  | _, _ => none

/-- The graph that is drawn of a program. -/
def graph (p : Program) : Graph :=
  ⟨.word "callgraph",
    Drawing.preamble ++ p.routines.mapIdx Drawing.node ++ p.calls.filterMap p.edge?⟩

end Program

namespace Drawing

/-! ## Labels -/

/-- Escaping in one pass is two replacements: backslashes are doubled first, and then a backslash is
put before each quotation mark. -/
theorem toList_escape_eq (s : String) : (escape s).toList =
    (s.toList.flatMap fun c => if c = '\\' then ['\\', '\\'] else [c]).flatMap
      fun c => if c = '"' then ['\\', '"'] else [c] := by
  rw [escape, String.toList_ofList, List.flatMap_assoc]
  refine congrArg (s.toList.flatMap ·) (funext fun c => ?_)
  by_cases hbackslash : c = '\\'
  · subst hbackslash
    rfl
  · by_cases hquote : c = '"' <;> simp [escapeChar, hbackslash, hquote]

/-- A text that stays inside a quoted string. -/
def Stays (t : String) : Prop := ∀ s, Scans (.quoted s) t [] (.quoted (s ++ t.toList))

theorem Stays.append {t u : String} (ht : Stays t) (hu : Stays u) : Stays (t ++ u) := by
  intro s
  have hboth := (ht s).append (hu (s ++ t.toList))
  rwa [List.append_assoc, ← String.toList_append] at hboth

theorem scan_escapeChar (c : Char) (s : List Char) :
    scan (.quoted s) (escapeChar c) = some ([], .quoted (s ++ escapeChar c)) := by
  rw [escapeChar]
  split
  -- the backslash takes the character along
  · rfl
  · rename_i hplain
    simp [scan, Place.step, not_or.mp hplain]

/-- What has been escaped stays inside a quoted string. -/
theorem stays_escape (t : String) : Stays (escape t) := by
  intro s
  rw [Scans, escape, String.toList_ofList]
  induction t.toList generalizing s with
  | nil => simp [scan]
  | cons c cs ih =>
    rw [List.flatMap_cons, scan_append (scan_escapeChar c s), ih]
    simp

theorem decode?_escapeChar (c : Char) (cs : List Char) :
    decode? (escapeChar c ++ cs) = (c :: ·) <$> decode? cs := by
  rw [escapeChar]
  split
  · rename_i hspecial
    rcases hspecial with rfl | rfl <;> rfl
  · rename_i hplain
    obtain ⟨hbackslash, -⟩ := not_or.mp hplain
    rw [List.singleton_append, decode?] <;> simp [hbackslash]

/-- What has been escaped is decoded, and then what follows it. -/
theorem decode?_escape (t : String) (cs : List Char) :
    decode? ((escape t).toList ++ cs) = (t.toList ++ ·) <$> decode? cs := by
  rw [escape, String.toList_ofList]
  induction t.toList with
  | nil => simp
  | cons d ds ih =>
    rw [List.flatMap_cons, List.append_assoc, decode?_escapeChar, ih]
    simp [Function.comp_def]

/-- Parts of a label stay inside a quoted string, and so do the line breaks between them. -/
theorem stays_intercalate (parts : List String) :
    Stays ("\\n".intercalate (parts.map escape)) := by
  induction parts with
  | nil =>
    intro s
    simp [Scans, scan]
  | cons part rest ih =>
    cases rest with
    | nil => simpa using stays_escape part
    | cons next rest =>
      have hbreak : Stays "\\n" := fun _ => rfl
      rw [List.map_cons, List.map_cons, String.intercalate_cons_cons]
      exact ((stays_escape part).append hbreak).append ih

/-- Parts of a label are shown with line breaks between them. -/
theorem label?_intercalate (parts : List String) :
    label? ("\\n".intercalate (parts.map escape)) = some ("\n".intercalate parts) := by
  have hdecode : decode? ("\\n".intercalate (parts.map escape)).toList =
      some ("\n".intercalate parts).toList := by
    induction parts with
    | nil => rfl
    | cons part rest ih =>
      cases rest with
      | nil => simpa [decode?] using decode?_escape part []
      | cons next rest =>
        have hbreak (cs : List Char) :
            decode? ("\\n".toList ++ cs) = ('\n' :: ·) <$> decode? cs := rfl
        rw [List.map_cons, List.map_cons, String.intercalate_cons_cons, String.toList_append,
          String.toList_append, List.append_assoc, decode?_escape, hbreak, ← List.map_cons, ih]
        simp
  rw [label?, hdecode]
  exact congrArg some String.ofList_toList

theorem stays_label (r : Routine) : Stays (label r) := stays_intercalate _

theorem caption_eq (r : Routine) : caption r = "\n".intercalate (labelParts r) := by
  rw [caption, labelParts]
  cases r.active with
  | none => by_cases hunset : r.position = .unset <;> simp [hunset, String.append_assoc]
  | some c =>
    by_cases hunset : r.position = .unset <;> by_cases hempty : c.templates.isEmpty <;>
      simp [hunset, hempty, String.append_assoc]

/-- The label of a node shows its caption. -/
theorem label?_label (r : Routine) : label? (label r) = some (caption r) := by
  rw [label, label?_intercalate, caption_eq]

/-! ## Statements -/

/-- The name of a node goes on with the digits of its number. -/
theorem scans_number (i : Nat) :
    Scans (.word ['r']) (toString i) [] (.word ("r" ++ toString i).toList) := by
  have hletters : ∀ c ∈ (toString i).toList, isLetter c := by
    intro c hc
    rw [Nat.toString_eq_repr, Nat.toList_repr] at hc
    have hdigit := Nat.isDigit_of_mem_toDigits (by decide) (by decide) hc
    simp [isLetter, Char.isAlphanum, hdigit]
  rw [String.toList_append]
  exact scans_letters hletters ['r']

/-- The name of a node is no keyword. -/
theorem nodeName_notMem_kinds (i : Nat) : nodeName i ∉ kinds := by
  have hne {word : String} (hfirst : word.toList.head? ≠ some 'r') : nodeName i ≠ .word word := by
    intro h
    rw [nodeName, Ident.word.injEq] at h
    rw [← h, String.toList_append] at hfirst
    exact hfirst rfl
  simp only [kinds, List.mem_cons, List.not_mem_nil, or_false, not_or]
  exact ⟨hne (by decide), hne (by decide), hne (by decide)⟩

/-- The text of a node reads as the node. -/
theorem reads_nodeText (r : Routine) : Reads (nodeText r) [node r.id r] := by
  -- the parts of the text, each from the place at which the one before it ends
  have hindent : Scans .between "    r" [] (.word ['r']) := rfl
  have hopen (s : List Char) : Scans (.word s) " [shape="
    [.ident (.word (String.ofList s)), .mark '[', .ident (.word "shape"), .mark '='] .between := rfl
  have hshape : Scans .between (shape r.position) [] (.word (shape r.position).toList) := by
    cases r.position <;> rfl
  have hstyle (s : List Char) : Scans (.word s) ", style=filled, fillcolor="
    [.ident (.word (String.ofList s)), .mark ',', .ident (.word "style"), .mark '=',
      .ident (.word "filled"), .mark ',', .ident (.word "fillcolor"), .mark '='] .between := rfl
  have hfill : Scans .between (fill r.position) [] (.word (fill r.position).toList) := by
    cases r.position <;> rfl
  have hlabel (s : List Char) : Scans (.word s) ", label=\""
    [.ident (.word (String.ofList s)), .mark ',', .ident (.word "label"), .mark '=']
    (.quoted []) := rfl
  have hinside : Scans (.quoted []) (label r) [] (.quoted (label r).toList) := stays_label r []
  have hclose (s : List Char) : Scans (.quoted s) "\"];\n"
    [.ident (.quoted (String.ofList s)), .mark ']', .mark ';'] .between := rfl
  have hall := (((((((hindent.append (scans_number r.id)).append (hopen _)).append hshape).append
    (hstyle _)).append hfill).append (hlabel _)).append hinside).append (hclose _)
  refine reads_single [.ident (nodeName r.id), .mark '[',
    .ident (.word "shape"), .mark '=', .ident (.word (shape r.position)), .mark ',',
    .ident (.word "style"), .mark '=', .ident (.word "filled"), .mark ',',
    .ident (.word "fillcolor"), .mark '=', .ident (.word (fill r.position)), .mark ',',
    .ident (.word "label"), .mark '=', .ident (.quoted (label r)), .mark ']'] ?_ ?_ ?_
  · simp only [String.ofList_toList] at hall
    exact hall
  · simp
  · simp [statement?, attributes?, node, nodeName_notMem_kinds]

/-- The text of an edge reads as the edge. -/
theorem reads_edgeText (caller callee : Nat) (strategy : CallStrategy) (bold : Bool) :
    Reads (edgeText caller callee strategy bold) [edge caller callee strategy bold] := by
  -- the parts of the text, as for a node
  have hindent : Scans .between "    r" [] (.word ['r']) := rfl
  have harrow (s : List Char) : Scans (.word s) " -> r"
    [.ident (.word (String.ofList s)), .arrow] (.word ['r']) := rfl
  have hopen (s : List Char) : Scans (.word s) " [color="
    [.ident (.word (String.ofList s)), .mark '[', .ident (.word "color"), .mark '='] .between := rfl
  have hstroke : Scans .between (stroke strategy) [] (.word (stroke strategy).toList) := by
    cases strategy <;> rfl
  have hstyle (s : List Char) : Scans (.word s) ", style="
    [.ident (.word (String.ofList s)), .mark ',', .ident (.word "style"), .mark '=']
    .between := rfl
  have hbold : Scans .between (if bold then "bold" else "solid") []
      (.word (if bold then "bold" else "solid").toList) := by
    cases bold <;> rfl
  have hclose (s : List Char) : Scans (.word s) "];\n"
    [.ident (.word (String.ofList s)), .mark ']', .mark ';'] .between := rfl
  have hall := (((((((hindent.append (scans_number caller)).append (harrow _)).append
    (scans_number callee)).append (hopen _)).append hstroke).append (hstyle _)).append
    hbold).append (hclose _)
  refine reads_single [.ident (nodeName caller), .arrow, .ident (nodeName callee), .mark '[',
    .ident (.word "color"), .mark '=', .ident (.word (stroke strategy)), .mark ',',
    .ident (.word "style"), .mark '=', .ident (.word (if bold then "bold" else "solid")),
    .mark ']'] ?_ ?_ ?_
  · simp only [String.ofList_toList] at hall
    exact hall
  · simp
  · simp [statement?, attributes?, edge]

/-- Statements read the same after an empty line. -/
theorem reads_paragraph {texts : List String} {statements : List Statement}
    (h : List.Forall₂ (fun s statement => Reads s [statement]) texts statements) :
    Reads (paragraph texts) statements := by
  rw [paragraph]
  cases h with
  | nil => exact reads_nil rfl
  | cons hfirst hrest =>
    have hblank : Reads "\n" [] := reads_nil rfl
    exact hblank.append (reads_join (.cons hfirst hrest))

/-- The header opens the graph and reads as the preamble after that. -/
theorem exists_header_eq : ∃ opening settings, header = opening ++ settings ∧
    Scans .between opening
      [.ident (.word "digraph"), .ident (.word "callgraph"), .mark '\x7b'] .between ∧
    Reads settings preamble := by
  have hrankdir : Reads "    rankdir=TB;\n" [.setting (.word "rankdir") (.word "TB")] :=
    reads_single [.ident (.word "rankdir"), .mark '=', .ident (.word "TB")] rfl (by decide) rfl
  have hnode : Reads "    node [fontname=\"Helvetica\", fontsize=10];\n" [.defaults (.word "node")
      [(.word "fontname", .quoted "Helvetica"), (.word "fontsize", .word "10")]] :=
    reads_single [.ident (.word "node"), .mark '[', .ident (.word "fontname"), .mark '=',
      .ident (.quoted "Helvetica"), .mark ',', .ident (.word "fontsize"), .mark '=',
      .ident (.word "10"), .mark ']'] rfl (by decide) rfl
  have hedge : Reads "    edge [fontname=\"Helvetica\", fontsize=9];\n" [.defaults (.word "edge")
      [(.word "fontname", .quoted "Helvetica"), (.word "fontsize", .word "9")]] :=
    reads_single [.ident (.word "edge"), .mark '[', .ident (.word "fontname"), .mark '=',
      .ident (.quoted "Helvetica"), .mark ',', .ident (.word "fontsize"), .mark '=',
      .ident (.word "9"), .mark ']'] rfl (by decide) rfl
  exact ⟨"digraph callgraph \x7b\n", _, rfl, rfl, hrankdir.append (hnode.append hedge)⟩

end Drawing

namespace Program

/-- The text for a call reads as the edge for it, and there is the one if there is the other. -/
theorem rel_edgeText? (p : Program) (c : Call) :
    Option.Rel (fun s statement => Reads s [statement]) (p.edgeText? c) (p.edge? c) := by
  rw [edgeText?, edge?]
  cases p.idOf? c.caller with
  | none => exact .none
  | some caller =>
    cases p.idOf? c.callee with
    | none => exact .none
    | some callee => exact .some (Drawing.reads_edgeText ..)

/-- A drawing is read as the graph of the program, whatever the names of its routines and the ids of
its templates are, and the label of each node shows the caption of its routine. -/
theorem ofString?_drawing (p : Program) (hid : ∀ i r, p.routine? i = some r → r.id = i) :
    Graph.ofString? p.drawing = some p.graph ∧
      ∀ r ∈ p.routines, label? (Drawing.label r) = some (Drawing.caption r) := by
  obtain ⟨opening, settings, hheader, hopening, hsettings⟩ := Drawing.exists_header_eq
  -- the number in the text of a node is the place of the routine
  have hplaces : p.routines.mapIdx Drawing.node = p.routines.map fun r => Drawing.node r.id r := by
    refine List.ext_getElem (by simp) fun i hi _ => ?_
    rw [List.length_mapIdx] at hi
    simp [hid i p.routines[i] (List.getElem?_eq_getElem hi)]
  have hnodes : Reads (Drawing.paragraph (p.routines.map Drawing.nodeText))
      (p.routines.mapIdx Drawing.node) := by
    rw [hplaces]
    refine Drawing.reads_paragraph ?_
    rw [List.forall₂_map_left_iff, List.forall₂_map_right_iff, List.forall₂_same]
    exact fun r _ => Drawing.reads_nodeText r
  have hedges : Reads (Drawing.paragraph (p.calls.filterMap p.edgeText?))
      (p.calls.filterMap p.edge?) := by
    refine Drawing.reads_paragraph (List.rel_filterMap (R := Eq) ?_ ?_)
    · rintro c _ rfl
      exact p.rel_edgeText? c
    · exact List.forall₂_eq_eq_eq ▸ rfl
  have hclosing : Scans .between "\x7d\n" [.mark '\x7d'] .between := rfl
  have hread := ofString?_of_reads hopening ((hsettings.append hnodes).append hedges) hclosing
  refine ⟨?_, fun r _ => Drawing.label?_label r⟩
  rw [drawing, hheader, graph, ← hread]
  simp only [String.append_assoc]

/-- Two routines whose names would end a label or a line if they were not escaped, a call between
them, and a call of a routine that does not exist. -/
def quoting : Program where
  routines := [⟨0, "a\"];\\", .within, some ⟨.ofList ["t\\n", "\"u\""], []⟩, []⟩,
    ⟨1, "\x7d\n", .unset, none, []⟩]
  calls := [⟨0, "a\"];\\", "\x7d\n", some "surround", []⟩, ⟨1, "\x7d\n", "b", none, []⟩]
  templates := []
  regions := []
  names := [("a\"];\\", 0), ("\x7d\n", 1)]
  extra := []

theorem ofString?_drawing_quoting :
    (∀ i r, quoting.routine? i = some r → r.id = i) ∧
    Graph.ofString? quoting.drawing = some ⟨.word "callgraph", Drawing.preamble ++
      [.node (.word "r0") [(.word "shape", .word "box"), (.word "style", .word "filled"),
          (.word "fillcolor", .word "lightcoral"),
          (.word "label", .quoted "a\\\"];\\\\\\nwithin\\n[t\\\\n, \\\"u\\\"]")],
        .node (.word "r1") [(.word "shape", .word "ellipse"), (.word "style", .word "filled"),
          (.word "fillcolor", .word "white"), (.word "label", .quoted "\x7d\n")],
        .edge (.word "r0") (.word "r1")
          [(.word "color", .word "gray50"), (.word "style", .word "bold")]]⟩ ∧
    label? "a\\\"];\\\\\\nwithin\\n[t\\\\n, \\\"u\\\"]" =
      some "a\"];\\\nwithin\n[t\\n, \"u\"]" ∧
    label? "\x7d\n" = some "\x7d\n" := by
  have hid : ∀ i r, quoting.routine? i = some r → r.id = i := by
    rintro (_ | _ | i) r hr
    · obtain rfl := Option.some.inj hr
      rfl
    · obtain rfl := Option.some.inj hr
      rfl
    · simp [routine?, quoting] at hr
  obtain ⟨hread, hlabels⟩ := ofString?_drawing quoting hid
  obtain ⟨hfirst, hrest⟩ := List.forall_mem_cons.mp hlabels
  obtain ⟨hsecond, -⟩ := List.forall_mem_cons.mp hrest
  exact ⟨hid, hread, hfirst, hsecond⟩

end Program

end KernelGraph
