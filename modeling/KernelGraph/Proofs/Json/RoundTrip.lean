import KernelGraph.Proofs.Json.Leaves
import KernelGraph.Proofs.Json.Regular
import Mathlib.Data.List.Forall2

/-!
# Reading written values back

A regular value without doubles is read back as it was, in whatever style it has been written. The
loops for lists and objects are treated for readers of any kind, so that the same holds of the
records of a document: what is read back of each part is read back of the whole.

## Main definitions

* `Value.HasDouble` — a double occurs in a value
* `Reads` — a reader reads a value back as something
* `ReadsMember`, `ReadsMembers` — the members of an object are folded into a state

## Main results

* `reads_list`, `exists_inside_object` — lists and objects are read back if their parts are
* `Value.reads_read` — values are read back
-/

namespace KernelGraph

/-- A double occurs in a value. -/
inductive Value.HasDouble : Value → Prop
  | double (x : Binary64) : HasDouble (.number (.double x))
  | list {v : Value} {vs : List Value} (hv : v ∈ vs) (h : HasDouble v) : HasDouble (.list vs)
  | object {m : String × Value} {fields : List (String × Value)} (hm : m ∈ fields)
    (h : HasDouble m.2) : HasDouble (.object fields)

/-! ## Blanks and what follows a value -/

section Blanks

variable {blanks s : List Char} {c : Char} {style : Style}

theorem skipBlanks_append (h : ∀ c ∈ blanks, isBlank c) : skipBlanks (blanks ++ s) = skipBlanks s :=
  List.dropWhile_append_of_pos h

theorem skipBlanks_cons (h : isBlank c = false) : skipBlanks (c :: s) = c :: s :=
  List.dropWhile_cons_of_neg (by simp [h])

theorem isBlank_of_mem_lineBreak (style : Style) : ∀ c ∈ style.lineBreak, isBlank c := by
  cases style with
  | compact => simp [Style.lineBreak]
  | indented level =>
    intro c hc
    rcases List.mem_cons.mp hc with rfl | hc
    · decide
    · rw [List.eq_of_mem_replicate hc]
      decide

theorem skipBlanks_lineBreak (style : Style) (s : List Char) :
    skipBlanks (style.lineBreak ++ s) = skipBlanks s :=
  skipBlanks_append (isBlank_of_mem_lineBreak style)

theorem exists_colon_eq (style : Style) :
    ∃ blanks, (∀ c ∈ blanks, isBlank c) ∧ style.colon = ':' :: blanks := by
  cases style with
  | compact => exact ⟨[], by simp, rfl⟩
  | indented level => exact ⟨[' '], by simp [isBlank], rfl⟩

/-- No number goes on with a line break, or with what comes after an empty one. -/
theorem stops_lineBreak (h : Stops s) : Stops (style.lineBreak ++ s) := by
  cases style with
  | compact => exact h
  | indented level => exact stops_cons (by decide)

theorem stops_printRest (h : Stops s) (vs : List Value) :
    Stops (Value.printRest style vs ++ s) := by
  cases vs with
  | nil => exact h
  | cons v vs =>
    rw [Value.printRest]
    exact stops_cons (by decide)

theorem stops_printMembers (h : Stops s) (fields : List (String × Value)) :
    Stops (Value.printMembers style fields ++ s) := by
  cases fields with
  | nil => exact h
  | cons m fields =>
    rw [Value.printMembers]
    exact stops_cons (by decide)

end Blanks

/-! ## Readers and values -/

/-- The text of a value begins with a character that is no blank and closes no list. -/
def Value.Opens (v : Value) : Prop :=
  ∀ style, ∃ c cs, v.print style = c :: cs ∧ isBlank c = false ∧ c ≠ ']'

/-- A reader reads a value back as `a`, in whatever style it has been written, after any blanks, and
up to characters with which no number goes on. -/
structure Reads {α : Type} (r : Reader α) (v : Value) (a : α) : Prop where
  opens : v.Opens
  read : ∀ style blanks s, (∀ c ∈ blanks, isBlank c) → Stops s →
    r (blanks ++ (v.print style ++ s)) = .ok (a, s)

/-- A member of an object is folded into a state, which it changes from `before` to `after`. -/
def ReadsMember {σ : Type} (member : σ → String → Reader σ) (key : String) (v : Value)
    (before after : σ) : Prop :=
  ∀ outer style s, Stops s →
    member before key (Style.colon outer ++ (v.print style ++ s)) = .ok (after, s)

/-- The members of an object are folded into a state, one after another. -/
inductive ReadsMembers {σ : Type} (member : σ → String → Reader σ) :
    List (String × Value) → σ → σ → Prop
  | nil (state : σ) : ReadsMembers member [] state state
  | cons {key : String} {v : Value} {fields : List (String × Value)} {before between after : σ}
    (first : ReadsMember member key v before between)
    (rest : ReadsMembers member fields between after) :
    ReadsMembers member ((key, v) :: fields) before after

/-! ## One turn of a loop -/

section Turns

variable {α κ σ : Type} {item : Reader α} {key : Reader κ} {member : σ → κ → Reader σ} {bound : Nat}
  {s t u v rest : List Char} {c : Char} {a : α} {as : List α} {k : κ} {before between after : σ}

theorem elements_close (h : skipBlanks s = ']' :: rest) : elements item s = .ok ([], rest) := by
  rw [elements, h]
  rfl

theorem elements_open (h : skipBlanks s = c :: t) (hc : c ≠ ']')
    (hitem : item (c :: t) = .ok (a, u))
    (hmore : moreElements item u.length.succ u = .ok (as, rest)) :
    elements item s = .ok (a :: as, rest) := by
  rw [elements, h]
  split
  · rename_i heq
    simp at heq
  · rename_i heq
    exact absurd (List.cons.inj heq).1 hc
  · simp only [hitem, hmore, bind, Except.bind, pure, Except.pure]

theorem moreElements_close (h : skipBlanks s = ']' :: rest) :
    moreElements item (bound + 1) s = .ok ([], rest) := by
  rw [moreElements, h]
  rfl

theorem moreElements_comma (h : skipBlanks s = ',' :: t) (ht : skipBlanks t = c :: u) (hc : c ≠ ']')
    (hitem : item (c :: u) = .ok (a, v)) (hmore : moreElements item bound v = .ok (as, rest)) :
    moreElements item (bound + 1) s = .ok (a :: as, rest) := by
  rw [moreElements, h]
  simp only [ht]
  split
  · rename_i heq
    simp at heq
  · rename_i heq
    exact absurd (List.cons.inj heq).1 hc
  · simp only [hitem, hmore, bind, Except.bind, pure, Except.pure]

theorem members_close (h : skipBlanks s = '\x7d' :: rest) :
    members key member before s = .ok (before, rest) := by
  rw [members, h]
  rfl

theorem members_open (h : skipBlanks s = '"' :: t) (hkey : key t = .ok (k, u))
    (hmember : member before k u = .ok (between, v))
    (hmore : moreMembers key member v.length.succ between v = .ok (after, rest)) :
    members key member before s = .ok (after, rest) := by
  simp only [members, h, hkey, hmember, hmore, bind, Except.bind]

theorem moreMembers_close (h : skipBlanks s = '\x7d' :: rest) :
    moreMembers key member (bound + 1) before s = .ok (before, rest) := by
  rw [moreMembers, h]
  rfl

theorem moreMembers_comma (h : skipBlanks s = ',' :: t) (ht : skipBlanks t = '"' :: u)
    (hkey : key u = .ok (k, v)) {w : List Char} (hmember : member before k v = .ok (between, w))
    (hmore : moreMembers key member bound between w = .ok (after, rest)) :
    moreMembers key member (bound + 1) before s = .ok (after, rest) := by
  rw [moreMembers, h]
  simp only [ht, hkey, hmember, hmore, bind, Except.bind]

end Turns

/-! ## Lists and objects -/

section Loops

variable {α σ : Type} {item : Reader α} {v : Value} {vs : List Value} {a : α} {as : List α}
  {member : σ → String → Reader σ} {fields others : List (String × Value)}
  {start final before between after : σ} {key : String} {s : List Char} {bound : Nat}

theorem ReadsMembers.append (h : ReadsMembers member fields before between)
    (h' : ReadsMembers member others between after) :
    ReadsMembers member (fields ++ others) before after := by
  induction h with
  | nil => exact h'
  | cons first _ ih => exact .cons first (ih h')

theorem ReadsMember.single (h : ReadsMember member key v before after) :
    ReadsMembers member [(key, v)] before after :=
  .cons h (.nil _)

theorem Reads.read_here (h : Reads item v a) (hs : Stops s) (style : Style) :
    item (v.print style ++ s) = .ok (a, s) :=
  h.read style [] s (by simp) hs

theorem moreElements_printRest (h : List.Forall₂ (Reads item) vs as) (hbound : vs.length < bound)
    (style outer : Style) (s : List Char) :
    moreElements item bound
      (Value.printRest style vs ++ (outer.lineBreak ++ ']' :: s)) = .ok (as, s) := by
  induction h generalizing bound with
  | nil =>
    obtain ⟨bound, rfl⟩ : ∃ n, bound = n + 1 := ⟨bound - 1, by simp at hbound; omega⟩
    refine moreElements_close ?_
    rw [Value.printRest, List.nil_append, skipBlanks_lineBreak, skipBlanks_cons (by decide)]
  | @cons v a vs as hv hvs ih =>
    rw [List.length_cons] at hbound
    obtain ⟨bound, rfl⟩ : ∃ n, bound = n + 1 := ⟨bound - 1, by omega⟩
    obtain ⟨c, cs, hprint, hblank, hclose⟩ := hv.opens style
    have hstops : Stops (Value.printRest style vs ++ (outer.lineBreak ++ ']' :: s)) :=
      stops_printRest (stops_lineBreak (stops_cons (by decide))) vs
    have hitem := hv.read_here hstops style
    rw [hprint, List.cons_append] at hitem
    simp only [Value.printRest, List.cons_append, List.append_assoc]
    refine moreElements_comma (skipBlanks_cons (by decide)) ?_ hclose hitem (ih (by omega))
    rw [skipBlanks_lineBreak, hprint, List.cons_append, skipBlanks_cons hblank]

theorem length_le_printRest (style : Style) (vs : List Value) :
    vs.length ≤ (Value.printRest style vs).length := by
  induction vs with
  | nil => simp
  | cons v vs ih =>
    simp only [Value.printRest, List.length_append, List.length_cons]
    omega

/-- The inside of a list that has been written is read back if the elements are. -/
theorem exists_inside_list (h : List.Forall₂ (Reads item) vs as) (style : Style) :
    ∃ inside, (Value.list vs).print style = '[' :: inside ∧
      ∀ s, elements item (inside ++ s) = .ok (as, s) := by
  cases h with
  | nil => exact ⟨[']'], rfl, fun s => elements_close (skipBlanks_cons (by decide))⟩
  | @cons v a vs as hv hvs =>
    refine ⟨style.deeper.lineBreak ++ v.print style.deeper ++ Value.printRest style.deeper vs ++
      style.lineBreak ++ [']'], rfl, fun s => ?_⟩
    obtain ⟨c, cs, hprint, hblank, hclose⟩ := hv.opens style.deeper
    have hstops : Stops (Value.printRest style.deeper vs ++ (style.lineBreak ++ ']' :: s)) :=
      stops_printRest (stops_lineBreak (stops_cons (by decide))) vs
    have hitem := hv.read_here hstops style.deeper
    rw [hprint, List.cons_append] at hitem
    simp only [List.append_assoc, List.singleton_append]
    refine elements_open ?_ hclose hitem (moreElements_printRest hvs ?_ style.deeper style s)
    · rw [skipBlanks_lineBreak, hprint, List.cons_append, skipBlanks_cons hblank]
    · have := length_le_printRest style.deeper vs
      simp only [List.length_append]
      omega

theorem moreMembers_printMembers (h : ReadsMembers member fields start final)
    (hbound : fields.length < bound) (style outer : Style) (s : List Char) :
    moreMembers Quoted.read member bound start
      (Value.printMembers style fields ++ (outer.lineBreak ++ '\x7d' :: s)) = .ok (final, s) := by
  induction h generalizing bound with
  | nil state =>
    obtain ⟨bound, rfl⟩ : ∃ n, bound = n + 1 := ⟨bound - 1, by simp at hbound; omega⟩
    refine moreMembers_close ?_
    rw [Value.printMembers, List.nil_append, skipBlanks_lineBreak, skipBlanks_cons (by decide)]
  | @cons key v fields before between after first _ ih =>
    rw [List.length_cons] at hbound
    obtain ⟨bound, rfl⟩ : ∃ n, bound = n + 1 := ⟨bound - 1, by omega⟩
    have hstops : Stops (Value.printMembers style fields ++ (outer.lineBreak ++ '\x7d' :: s)) :=
      stops_printMembers (stops_lineBreak (stops_cons (by decide))) fields
    simp only [Value.printMembers, Quoted.print, List.cons_append, List.append_assoc,
      List.nil_append]
    refine moreMembers_comma (skipBlanks_cons (by decide)) ?_ (Quoted.read_encode key _)
      (first style style _ hstops) (ih (by omega))
    rw [skipBlanks_lineBreak, skipBlanks_cons (by decide)]

theorem length_le_printMembers (style : Style) (fields : List (String × Value)) :
    fields.length ≤ (Value.printMembers style fields).length := by
  induction fields with
  | nil => simp
  | cons m fields ih =>
    simp only [Value.printMembers, List.length_append, List.length_cons]
    omega

/-- The inside of an object that has been written is read back if the members are. -/
theorem exists_inside_object (h : ReadsMembers member fields start final) (style : Style) :
    ∃ inside, (Value.object fields).print style = '\x7b' :: inside ∧
      ∀ s, members Quoted.read member start (inside ++ s) = .ok (final, s) := by
  cases h with
  | nil => exact ⟨['\x7d'], rfl, fun s => members_close (skipBlanks_cons (by decide))⟩
  | @cons key v fields _ between _ first rest =>
    refine ⟨style.deeper.lineBreak ++ Quoted.print key ++ style.colon ++ v.print style.deeper ++
      Value.printMembers style.deeper fields ++ style.lineBreak ++ ['\x7d'], rfl, fun s => ?_⟩
    have hstops :
        Stops (Value.printMembers style.deeper fields ++ (style.lineBreak ++ '\x7d' :: s)) :=
      stops_printMembers (stops_lineBreak (stops_cons (by decide))) fields
    simp only [Quoted.print, List.cons_append, List.append_assoc, List.nil_append]
    refine members_open ?_ (Quoted.read_encode key _) (first style style.deeper _ hstops)
      (moreMembers_printMembers rest ?_ style.deeper style s)
    · rw [skipBlanks_lineBreak, skipBlanks_cons (by decide)]
    · have := length_le_printMembers style.deeper fields
      simp only [List.length_append]
      omega

end Loops

/-! ## Fields -/

section Fields

variable {σ : Type} {member : σ → String → Reader σ} {value : Reader Value} {fields : Fields}
  {key : String} {v : Value}

/-- A member whose key is greater than all others comes last. -/
theorem insert_eq_append (h : ∀ m ∈ fields, m.1 < key) :
    fields.insert key v = fields ++ [(key, v)] := by
  induction fields with
  | nil => rfl
  | cons first rest ih =>
    obtain ⟨k, w⟩ := first
    obtain ⟨hfirst, hrest⟩ := List.forall_mem_cons.mp h
    rw [Fields.insert, if_neg hfirst.asymm, if_neg (ne_of_gt hfirst), ih hrest, List.cons_append]

theorem afterColon_colon {blanks s : List Char} {style : Style} (h : style.colon = ':' :: blanks) :
    afterColon (style.colon ++ s) = .ok (blanks ++ s) := by
  rw [afterColon, h, List.cons_append, skipBlanks_cons (by decide)]
  rfl

theorem readsMember_keptMember (h : Reads value v v) (fields : Fields) :
    ReadsMember (keptMember value) key v fields (fields.insert key v) := by
  intro outer style s hs
  obtain ⟨blanks, hblanks, hcolon⟩ := exists_colon_eq outer
  rw [keptMember, afterColon_colon hcolon]
  simp only [bind, Except.bind, h.read style blanks s hblanks hs, pure, Except.pure]

/-- Sorted fields are set one after another, each at the end. -/
theorem readsMembers_insert (put : Fields → σ) (done : Fields)
    (hsorted : Fields.Sorted (done ++ fields))
    (hmember : ∀ m ∈ fields, ∀ before : Fields,
      ReadsMember member m.1 m.2 (put before) (put (before.insert m.1 m.2))) :
    ReadsMembers member fields (put done) (put (done ++ fields)) := by
  induction fields generalizing done with
  | nil =>
    rw [List.append_nil]
    exact .nil _
  | cons m fields ih =>
    obtain ⟨hfirst, hrest⟩ := List.forall_mem_cons.mp hmember
    have hless : ∀ other ∈ done, other.1 < m.1 := fun other hother =>
      (List.pairwise_append.mp hsorted).2.2 other hother m List.mem_cons_self
    have hset := hfirst done
    rw [insert_eq_append hless] at hset
    rw [List.append_cons] at hsorted ⊢
    exact .cons hset (ih _ hsorted hrest)

end Fields

/-! ## Values -/

section Values

variable {α : Type} {item : Nat → Reader α} {vs : List Value} {as : List α} {depth : Nat}

theorem opens_text (t : String) : Value.Opens (.text t) := fun _ =>
  ⟨'"', _, rfl, by decide, by decide⟩

theorem opens_list (vs : List Value) : Value.Opens (.list vs) := by
  intro style
  cases vs with
  | nil => exact ⟨'[', _, rfl, by decide, by decide⟩
  | cons v vs => exact ⟨'[', _, rfl, by decide, by decide⟩

theorem opens_object (fields : List (String × Value)) : Value.Opens (.object fields) := by
  intro style
  cases fields with
  | nil => exact ⟨'\x7b', _, rfl, by decide, by decide⟩
  | cons m fields => exact ⟨'\x7b', _, rfl, by decide, by decide⟩

/-- A text is written between quotation marks, whatever follows it. -/
theorem print_text_append (t : String) (style : Style) (s : List Char) :
    (Value.text t).print style ++ s = '"' :: (Quoted.encode t.toList ++ '"' :: s) := by
  simp [Value.print, Quoted.print]

/-- A text is read back. -/
theorem reads_text (t : String) : Reads readText (.text t) t := by
  refine ⟨opens_text t, fun style blanks s hblanks _ => ?_⟩
  rw [print_text_append, readText, skipBlanks_append hblanks, skipBlanks_cons (by decide)]
  exact Quoted.read_encode t s

/-- A list is read back if its elements are. -/
theorem reads_list (h : List.Forall₂ (Reads (item depth)) vs as) :
    Reads (readList (depth + 1) item) (.list vs) as := by
  refine ⟨opens_list vs, fun style blanks s hblanks _ => ?_⟩
  obtain ⟨inside, hprint, hread⟩ := exists_inside_list h style
  rw [hprint, readList, skipBlanks_append hblanks, List.cons_append, skipBlanks_cons (by decide)]
  exact hread s

end Values

namespace Value

variable {depth : Nat}

theorem isBlank_eq_false_of_isDigit {c : Char} (h : isDigit c) : isBlank c = false := by
  rw [isBlank, Bool.eq_false_iff]
  intro hblank
  simp only [Bool.or_eq_true, decide_eq_true_eq] at hblank
  rcases hblank with ((rfl | rfl) | rfl) | rfl <;> simp [isDigit] at h

/-- A digit begins a number without sign. -/
theorem read_of_isDigit {c : Char} {s rest : List Char} {n : Number} (h : isDigit c)
    (hread : Number.read false (c :: s) = .ok (n, rest)) :
    read depth (c :: s) = .ok (.number n, rest) := by
  unfold read
  rw [skipBlanks_cons (isBlank_eq_false_of_isDigit h)]
  -- what begins any other value is no digit
  split <;> rename_i heq
  · simp at heq
  iterate 7
    · obtain ⟨rfl, -⟩ := List.cons.inj heq
      exact absurd h (by decide)
  · obtain ⟨rfl, rfl⟩ := List.cons.inj heq
    simp only [h, if_true, hread, bind, Except.bind, pure, Except.pure]

theorem reads_null : Reads (read depth) .null .null := by
  refine ⟨fun _ => ⟨'n', _, rfl, by decide, by decide⟩, fun style blanks s hblanks _ => ?_⟩
  unfold read
  rw [skipBlanks_append hblanks]
  rfl

theorem reads_bool (b : Bool) : Reads (read depth) (.bool b) (.bool b) := by
  cases b with
  | false =>
    refine ⟨fun _ => ⟨'f', _, rfl, by decide, by decide⟩, fun style blanks s hblanks _ => ?_⟩
    unfold read
    rw [skipBlanks_append hblanks]
    rfl
  | true =>
    refine ⟨fun _ => ⟨'t', _, rfl, by decide, by decide⟩, fun style blanks s hblanks _ => ?_⟩
    unfold read
    rw [skipBlanks_append hblanks]
    rfl

theorem reads_integer (i : Int) (fits : -0x8000000000000000 ≤ i ∧ i < 0x10000000000000000) :
    Reads (read depth) (.number (.integer i fits)) (.number (.integer i fits)) := by
  by_cases hneg : i < 0
  · obtain ⟨n, rfl⟩ : ∃ n : Nat, i = -(n : Int) := ⟨i.natAbs, by omega⟩
    have hprint : ∀ style, (Value.number (.integer (-(n : Int)) fits)).print style =
        '-' :: Nat.toDigits 10 n := by
      intro style
      rw [print, Number.print, Number.printInt, if_pos hneg, Int.natAbs_neg, Int.natAbs_natCast]
    refine ⟨fun style => ⟨'-', _, hprint style, by decide, by decide⟩,
      fun style blanks s hblanks hs => ?_⟩
    have hread := Number.read_toDigits_negative hs (by omega) fits
    unfold read
    rw [hprint, skipBlanks_append hblanks, List.cons_append, skipBlanks_cons (by decide)]
    dsimp only
    simp only [hread, bind, Except.bind, pure, Except.pure]
  · obtain ⟨n, rfl⟩ : ∃ n : Nat, i = n := ⟨i.natAbs, by omega⟩
    obtain ⟨c, cs, hcs⟩ := List.exists_cons_of_ne_nil (Nat.toDigits_ne_nil (n := n) (b := 10))
    have hdigit : isDigit c := isDigit_of_mem_toDigits (hcs ▸ List.mem_cons_self)
    have hprint : ∀ style, (Value.number (.integer (n : Int) fits)).print style = c :: cs := by
      intro style
      rw [print, Number.print, Number.printInt, if_neg hneg, Int.natAbs_natCast, hcs]
    refine ⟨fun style => ⟨c, cs, hprint style, isBlank_eq_false_of_isDigit hdigit, ?_⟩,
      fun style blanks s hblanks hs => ?_⟩
    · rintro rfl
      exact absurd hdigit (by decide)
    · have hread := Number.read_toDigits hs (by omega) fits
      rw [hcs, List.cons_append] at hread
      have hvalue : read depth _ = _ := read_of_isDigit hdigit hread
      unfold read at hvalue ⊢
      rwa [hprint, skipBlanks_append hblanks, List.cons_append]

/-- A regular value without doubles is read back. -/
theorem reads_read {v : Value} (h : v.Regular depth) (hdouble : ¬ v.HasDouble) :
    Reads (read depth) v v := by
  induction h with
  | null => exact reads_null
  | bool b => exact reads_bool b
  | number n =>
    cases n with
    | integer i fits => exact reads_integer i fits
    | double x => exact absurd (.double x) hdouble
  | text t =>
    refine ⟨opens_text t, fun style blanks s hblanks _ => ?_⟩
    unfold read
    rw [print_text_append, skipBlanks_append hblanks, skipBlanks_cons (by decide)]
    dsimp only
    simp only [Quoted.read_encode, bind, Except.bind, pure, Except.pure]
  | list values ih =>
    rename_i depth vs
    have hall : List.Forall₂ (Reads (read depth)) vs vs :=
      List.forall₂_same.mpr fun v hv => ih v hv fun h => hdouble (.list hv h)
    refine ⟨opens_list vs, fun style blanks s hblanks _ => ?_⟩
    obtain ⟨inside, hprint, hread⟩ := exists_inside_list hall style
    unfold read
    rw [hprint, skipBlanks_append hblanks, List.cons_append, skipBlanks_cons (by decide)]
    dsimp only
    simp only [hread, bind, Except.bind, pure, Except.pure]
  | object sorted values ih =>
    rename_i depth fields
    have hall : ReadsMembers (keptMember (read depth)) fields [] fields :=
      readsMembers_insert id [] sorted fun m hm before =>
        readsMember_keptMember (ih m hm fun h => hdouble (.object hm h)) before
    refine ⟨opens_object fields, fun style blanks s hblanks _ => ?_⟩
    obtain ⟨inside, hprint, hread⟩ := exists_inside_object hall style
    unfold read
    rw [hprint, skipBlanks_append hblanks, List.cons_append, skipBlanks_cons (by decide)]
    dsimp only
    simp only [hread, bind, Except.bind, pure, Except.pure]

end Value

end KernelGraph
