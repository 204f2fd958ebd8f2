import KernelGraph.Graph.Numbering
import KernelGraph.Proofs.Graph.Lowering

/-!
# Numbers are places

The numbers that are given to those of one kind follow one another, whatever else is numbered in
between. So if routines, regions and calls are numbered in the order in which a document lists them,
each gets its place among those of its kind, and this is its number in the program of the document.

## Main definitions

* `Numbering.next` — the number to be given next to one of a kind
* `Numbering.given` — the numbers that are given to those of a kind
* `Document.numbered` — what is numbered of a document

## Main results

* `Numbering.given_eq_range'` — the numbers of a kind follow one another
* `Program.map_id_ofDocument` — the numbers in the program of a document
-/

namespace KernelGraph

namespace Numbering

/-- The number to be given next to one of a kind. -/
def next (n : Numbering) : Numbered → Nat
  | .routine => n.routine
  | .call => n.call
  | .region => n.region

/-- The numbers that are given to those of a kind when several are numbered in turn. -/
def given (n : Numbering) (kinds : List Numbered) (kind : Numbered) : List Nat :=
  ((kinds.zip (n.takeAll kinds)).filter (·.1 = kind)).map Prod.snd

variable {n : Numbering} {kind other : Numbered} {kinds : List Numbered}

@[simp] theorem fst_take : (n.take kind).1 = n.next kind := by
  cases kind <;> rfl

@[simp] theorem next_take_self : (n.take kind).2.next kind = n.next kind + 1 := by
  cases kind <;> rfl

/-- Numbers of other kinds are not used up. -/
theorem next_take_of_ne (h : other ≠ kind) : (n.take other).2.next kind = n.next kind := by
  cases other <;> cases kind <;> first | rfl | exact absurd rfl h

/-- The numbers of a kind follow one another, from the one that is next. -/
theorem given_eq_range' : n.given kinds kind = List.range' (n.next kind) (kinds.count kind) := by
  induction kinds generalizing n with
  | nil => rfl
  | cons other kinds ih =>
    have ih := @ih (n.take other).2
    rw [given] at ih
    rw [given, takeAll, List.zip_cons_cons]
    by_cases h : other = kind
    · subst h
      rw [List.filter_cons_of_pos (by simp), List.map_cons, ih, List.count_cons_self,
        List.range'_succ, fst_take, next_take_self]
    · rw [List.filter_cons_of_neg (by simpa using h), ih, List.count_cons_of_ne h,
        next_take_of_ne h]

end Numbering

/-- What is numbered of a document, in turn: each routine and then its regions, and after the last
routine the calls. -/
def Document.numbered (d : Document) : List Numbered :=
  (d.routines.flatMap fun r => .routine :: r.regions.map fun _ => .region)
    ++ d.calls.map fun _ => .call

namespace Program

variable {d : Document} {p : Program} {k : Nat}

/-- As many of each kind are numbered as the program of the document has. -/
theorem count_numbered (d : Document) : d.numbered.count .routine = d.routines.length ∧
    d.numbered.count .region = (ownedRegions k d.routines).length ∧
    d.numbered.count .call = d.calls.length := by
  obtain ⟨routines, calls, templates, extra⟩ := d
  rw [Document.numbered]
  dsimp only
  induction routines generalizing k with
  | nil => simp [ownedRegions, List.map_const', List.count_replicate]
  | cons r routines ih =>
    simpa [ownedRegions, List.map_const', List.count_replicate] using @ih (k + 1)

/-- The routines, regions and calls of a program have the numbers that they are given in turn. -/
theorem map_id_ofDocument (h : ofDocument d = .ok p) :
    p.routines.map Routine.id = Numbering.given {} d.numbered .routine ∧
      p.live.map Marker.id = Numbering.given {} d.numbered .region ∧
      p.calls.map Call.id = Numbering.given {} d.numbered .call := by
  obtain ⟨hroutines, hregions, hcalls⟩ := @count_numbered 0 d
  simp only [Numbering.given_eq_range', hroutines, hregions, hcalls, live_ofDocument h]
  obtain ⟨-, rfl⟩ := ofDocument_eq_ok_iff.mp h
  simp only [List.mapIdx_eq_zipIdx_map, List.map_map]
  exact ⟨List.zipIdx_map_snd .., List.zipIdx_map_snd .., List.zipIdx_map_snd ..⟩

end Program

end KernelGraph
