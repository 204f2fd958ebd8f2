import Mathlib.Data.List.Basic
import Mathlib.Logic.Relation

/-!
# Depth-first discovery

A depth-first search of a finite graph meets nodes along edges. The first edge that leads to a node
discovers it, and every later one only meets it again. Which edges discover, and in which order,
depends on the graph alone, so whatever a search does at the nodes can be told from this list.

## Main definitions

* `discover` — the edges that discover a node, in the order of the search
* `met` — the nodes to which a search is led, whether they are discovered or not
* `Onward` — the edges of the graph but for those that leave the origin
* `Passes` — what is at one node gets to another when edges are gone along once each, in order

## Main results

* `nodup_discover` — no node is discovered twice
* `mem_met_iff`, `mem_discovered_iff` — a search meets what can be reached from its origin, and
  discovers all of it but the origin
* `passes_discover` — every discovered node gets what is at the origin
* `Passes.reflTransGen` — what gets to a node comes along a path
-/

namespace KernelGraph

open Relation

/-- The nodes below a bound that have not been visited. -/
def unvisitedBelow (bound : Nat) (visited : List Nat) : List Nat :=
  (List.range bound).filter (· ∉ visited)

/-- Visiting a node for the first time leaves fewer to visit. -/
theorem length_unvisitedBelow_cons_lt {bound b : Nat} {visited : List Nat} (hlt : b < bound)
    (hnew : b ∉ visited) :
    (unvisitedBelow bound (b :: visited)).length < (unvisitedBelow bound visited).length := by
  have hsplit : unvisitedBelow bound (b :: visited) =
      (unvisitedBelow bound visited).filter (· ≠ b) := by
    rw [unvisitedBelow, unvisitedBelow, List.filter_filter]
    congr 1
    funext node
    simp
  rw [hsplit, List.length_filter_lt_length_iff_exists]
  exact ⟨b, by simp [unvisitedBelow, hlt, hnew], by simp⟩

section Search

variable (next : Nat → List Nat) (bound : Nat)

/-- The edges along which a depth-first search discovers the nodes below a bound, in their order,
when some nodes have been visited and some edges are still to be gone along. -/
def discover (visited : List Nat) : List (Nat × Nat) → List (Nat × Nat)
  | [] => []
  | (a, b) :: rest =>
    if b < bound ∧ b ∉ visited then
      -- what `b` leads to is gone along before the rest
      (a, b) :: discover (b :: visited) ((next b).map (b, ·) ++ rest)
    else discover visited rest
-- a discovery leaves fewer nodes to visit, and everything else leaves one edge less
termination_by pending => ((unvisitedBelow bound visited).length, pending.length)
decreasing_by
  · rename_i hnew
    exact Prod.Lex.left _ _ (length_unvisitedBelow_cons_lt hnew.1 hnew.2)
  · exact Prod.Lex.right _ (by simp)

/-- The nodes to which a search is led, in no particular order. -/
def met (pending found : List (Nat × Nat)) : List Nat :=
  pending.map Prod.snd ++ found.flatMap fun e => next e.2

/-- An edge of the graph that does not leave the origin. -/
def Onward (origin a b : Nat) : Prop := a ≠ origin ∧ b ∈ next a

variable {next bound} {visited : List Nat} {pending rest : List (Nat × Nat)} {a b : Nat}

@[simp] theorem discover_nil : discover next bound visited [] = [] := by rw [discover]

theorem discover_fresh (hlt : b < bound) (hnew : b ∉ visited) :
    discover next bound visited ((a, b) :: rest) =
      (a, b) :: discover next bound (b :: visited) ((next b).map (b, ·) ++ rest) := by
  rw [discover, if_pos ⟨hlt, hnew⟩]

theorem discover_visited (hseen : b ∈ visited) :
    discover next bound visited ((a, b) :: rest) = discover next bound visited rest := by
  rw [discover, if_neg fun h => h.2 hseen]

/-- A discovered node is below the bound and was not visited before. -/
theorem lt_and_notMem_of_mem_discover {e : Nat × Nat}
    (he : e ∈ discover next bound visited pending) :
    e.2 < bound ∧ e.2 ∉ visited := by
  induction visited, pending using discover.induct next bound with
  | case1 visited => simp at he
  | case2 visited a b rest hnew ih =>
    rw [discover_fresh hnew.1 hnew.2, List.mem_cons] at he
    rcases he with rfl | he
    · exact hnew
    · exact ⟨(ih he).1, fun hmem => (ih he).2 (List.mem_cons_of_mem _ hmem)⟩
  | case3 visited a b rest hold ih =>
    rw [discover, if_neg hold] at he
    exact ih he

/-- No node is discovered twice. -/
theorem nodup_discover : ((discover next bound visited pending).map Prod.snd).Nodup := by
  induction visited, pending using discover.induct next bound with
  | case1 visited => simp
  | case2 visited a b rest hnew ih =>
    rw [discover_fresh hnew.1 hnew.2, List.map_cons, List.nodup_cons]
    refine ⟨fun hmem => ?_, ih⟩
    -- once `b` is discovered it has been visited for the rest of the search
    obtain ⟨e, he, rfl⟩ := List.mem_map.mp hmem
    exact (lt_and_notMem_of_mem_discover he).2 List.mem_cons_self
  | case3 visited a b rest hold ih =>
    rw [discover, if_neg hold]
    exact ih

/-- An edge that discovers was pending, or it leaves a node discovered by the search. -/
theorem mem_pending_or_next_of_mem_discover {e : Nat × Nat}
    (he : e ∈ discover next bound visited pending) :
    e ∈ pending ∨ e.2 ∈ next e.1 ∧ e.1 ∈ (discover next bound visited pending).map Prod.snd := by
  induction visited, pending using discover.induct next bound with
  | case1 visited => simp at he
  | case2 visited a b rest hnew ih =>
    rw [discover_fresh hnew.1 hnew.2] at he ⊢
    rw [List.map_cons]
    rcases List.mem_cons.mp he with rfl | he
    · exact Or.inl List.mem_cons_self
    · rcases ih he with hpending | ⟨hnext, hfound⟩
      -- what is pending now leaves `b`, or was pending before
      · rcases List.mem_append.mp hpending with hb | hrest
        · obtain ⟨c, hc, rfl⟩ := List.mem_map.mp hb
          exact Or.inr ⟨hc, List.mem_cons_self⟩
        · exact Or.inl (List.mem_cons_of_mem _ hrest)
      · exact Or.inr ⟨hnext, List.mem_cons_of_mem _ hfound⟩
  | case3 visited a b rest hold ih =>
    rw [discover, if_neg hold] at he ⊢
    exact (ih he).imp_left (List.mem_cons_of_mem _)

/-- What a search meets when it discovers `b` first is `b`, and what it meets afterwards. -/
theorem mem_met_fresh {found : List (Nat × Nat)} {t : Nat} :
    t ∈ met next ((a, b) :: rest) ((a, b) :: found) ↔
      t = b ∨ t ∈ met next ((next b).map (b, ·) ++ rest) found := by
  simp only [met, List.map_cons, List.flatMap_cons, List.map_append, List.map_map,
    List.mem_append, List.mem_cons, Function.comp_def, List.map_id']
  tauto

/-- What a search meets below the bound has been visited or is discovered. -/
theorem visited_or_discovered_of_mem_met {t : Nat} (hlt : t < bound)
    (ht : t ∈ met next pending (discover next bound visited pending)) :
    t ∈ visited ∨ t ∈ (discover next bound visited pending).map Prod.snd := by
  induction visited, pending using discover.induct next bound with
  | case1 visited => simp [met] at ht
  | case2 visited a b rest hnew ih =>
    rw [discover_fresh hnew.1 hnew.2] at ht ⊢
    rw [List.map_cons, List.mem_cons]
    rcases mem_met_fresh.mp ht with rfl | hmet
    · exact Or.inr (Or.inl rfl)
    · rcases ih hmet with hmem | hfound
      · rcases List.mem_cons.mp hmem with rfl | hmem
        · exact Or.inr (Or.inl rfl)
        · exact Or.inl hmem
      · exact Or.inr (Or.inr hfound)
  | case3 visited a b rest hold ih =>
    rw [discover, if_neg hold] at ht ⊢
    simp only [met, List.map_cons, List.cons_append, List.mem_cons] at ht
    rcases ht with rfl | ht
    · exact Or.inl (by_contra fun hseen => hold ⟨hlt, hseen⟩)
    · exact ih ht

/-- A discovered node is reached from the end of a pending edge without leaving a visited node. -/
theorem onward_of_mem_discover {origin : Nat} (horigin : origin ∈ visited) {e : Nat × Nat}
    (he : e ∈ discover next bound visited pending) :
    ∃ x ∈ pending, ReflTransGen (Onward next origin) x.2 e.2 := by
  induction visited, pending using discover.induct next bound with
  | case1 visited => simp at he
  | case2 visited a b rest hnew ih =>
    rw [discover_fresh hnew.1 hnew.2, List.mem_cons] at he
    rcases he with rfl | he
    · exact ⟨_, List.mem_cons_self, .refl⟩
    · obtain ⟨x, hx, hpath⟩ := ih (List.mem_cons_of_mem _ horigin) he
      rcases List.mem_append.mp hx with hb | hrest
      · obtain ⟨c, hc, rfl⟩ := List.mem_map.mp hb
        -- the origin has been visited, so the step from `b` does not leave it
        have hne : b ≠ origin := fun heq => hnew.2 (heq ▸ horigin)
        exact ⟨_, List.mem_cons_self, .head ⟨hne, hc⟩ hpath⟩
      · exact ⟨x, List.mem_cons_of_mem _ hrest, hpath⟩
  | case3 visited a b rest hold ih =>
    rw [discover, if_neg hold] at he
    obtain ⟨x, hx, hpath⟩ := ih horigin he
    exact ⟨x, List.mem_cons_of_mem _ hx, hpath⟩

end Search

section Origin

variable {next : Nat → List Nat} {bound : Nat} {origin b t : Nat} {first : List Nat}

theorem lt_of_onward (hfirst : ∀ b ∈ first, b < bound) (hnext : ∀ a, ∀ b ∈ next a, b < bound)
    (hb : b ∈ first) (hpath : ReflTransGen (Onward next origin) b t) : t < bound := by
  rcases hpath.cases_tail with rfl | ⟨_, _, hlast⟩
  · exact hfirst _ hb
  · exact hnext _ _ hlast.2

/-- From its origin, a search meets what can be reached along edges that do not leave the origin
again. -/
theorem mem_met_iff (hfirst : ∀ b ∈ first, b < bound) (hnext : ∀ a, ∀ b ∈ next a, b < bound) :
    t ∈ met next (first.map (origin, ·))
        (discover next bound [origin] (first.map (origin, ·))) ↔
      ∃ b ∈ first, ReflTransGen (Onward next origin) b t := by
  constructor
  · intro ht
    rcases List.mem_append.mp ht with hpending | hfound
    · obtain ⟨_, hx, rfl⟩ := List.mem_map.mp hpending
      obtain ⟨b, hb, rfl⟩ := List.mem_map.mp hx
      exact ⟨b, hb, .refl⟩
    · obtain ⟨e, he, hstep⟩ := List.mem_flatMap.mp hfound
      obtain ⟨_, hx, hpath⟩ := onward_of_mem_discover (List.mem_singleton_self origin) he
      obtain ⟨b, hb, rfl⟩ := List.mem_map.mp hx
      have hne : e.2 ≠ origin := fun heq =>
        (lt_and_notMem_of_mem_discover he).2 (heq ▸ List.mem_singleton_self _)
      exact ⟨b, hb, hpath.tail ⟨hne, hstep⟩⟩
  · rintro ⟨b, hb, hpath⟩
    -- by induction on the path: a node that is met and is not the origin is discovered, and then
    -- what it leads to is met
    induction hpath with
    | refl =>
      exact List.mem_append_left _
        (List.mem_map.mpr ⟨(origin, b), List.mem_map_of_mem hb, rfl⟩)
    | @tail c d hpath hstep ih =>
      have hlt : c < bound := lt_of_onward hfirst hnext hb hpath
      rcases visited_or_discovered_of_mem_met hlt ih with hseen | hfound
      · exact absurd (List.mem_singleton.mp hseen) hstep.1
      · obtain ⟨e, he, rfl⟩ := List.mem_map.mp hfound
        exact List.mem_append_right _ (List.mem_flatMap.mpr ⟨e, he, hstep.2⟩)

/-- A search discovers what it meets, but for its origin. -/
theorem mem_discovered_iff (hfirst : ∀ b ∈ first, b < bound)
    (hnext : ∀ a, ∀ b ∈ next a, b < bound) :
    t ∈ (discover next bound [origin] (first.map (origin, ·))).map Prod.snd ↔
      t ≠ origin ∧ ∃ b ∈ first, ReflTransGen (Onward next origin) b t := by
  constructor
  · intro ht
    obtain ⟨e, he, rfl⟩ := List.mem_map.mp ht
    obtain ⟨_, hx, hpath⟩ := onward_of_mem_discover (List.mem_singleton_self origin) he
    obtain ⟨b, hb, rfl⟩ := List.mem_map.mp hx
    exact ⟨fun heq => (lt_and_notMem_of_mem_discover he).2 (heq ▸ List.mem_singleton_self _),
      b, hb, hpath⟩
  · rintro ⟨hne, b, hb, hpath⟩
    have hlt : t < bound := lt_of_onward hfirst hnext hb hpath
    have hmet := (mem_met_iff hfirst hnext).mpr ⟨b, hb, hpath⟩
    rcases visited_or_discovered_of_mem_met hlt hmet with hseen | hfound
    · exact absurd (List.mem_singleton.mp hseen) hne
    · exact hfound

/-- What can be reached at all can be reached without leaving the origin again, or the origin can
be reached so. -/
theorem onward_or_onward_origin (h : ∃ b ∈ first, ReflTransGen (fun a b => b ∈ next a) b t) :
    (∃ b ∈ first, ReflTransGen (Onward next origin) b t) ∨
      ∃ b ∈ first, ReflTransGen (Onward next origin) b origin := by
  obtain ⟨b, hb, hpath⟩ := h
  induction hpath with
  | refl => exact Or.inl ⟨b, hb, .refl⟩
  | @tail c d _ hstep ih =>
    rcases ih with ⟨b', hb', hpath'⟩ | horigin
    -- the first step that leaves the origin leaves a node reached without it
    · by_cases hc : c = origin
      · exact Or.inr ⟨b', hb', hc ▸ hpath'⟩
      · exact Or.inl ⟨b', hb', hpath'.tail ⟨hc, hstep⟩⟩
    · exact Or.inr horigin

end Origin

section Passes

/-- When edges are gone along once each in their order, and each hands all that is at its first node
to its second, does what is at `u` get to `c`? -/
def Passes : List (Nat × Nat) → Nat → Nat → Prop
  | [], u, c => u = c
  | (a, b) :: edges, u, c => Passes edges u c ∨ u = a ∧ Passes edges b c

instance Passes.decidable : ∀ edges u c, Decidable (Passes edges u c)
  | [], u, c => inferInstanceAs (Decidable (u = c))
  | (_, b) :: edges, u, c =>
    haveI := Passes.decidable edges u c
    haveI := Passes.decidable edges b c
    inferInstanceAs (Decidable (_ ∨ _))

variable {edges more : List (Nat × Nat)} {u c w : Nat}

@[simp] theorem passes_nil : Passes [] u c ↔ u = c := Iff.rfl

theorem passes_cons {a b : Nat} :
    Passes ((a, b) :: edges) u c ↔ Passes edges u c ∨ u = a ∧ Passes edges b c := Iff.rfl

/-- What is at a node stays there. -/
theorem Passes.refl (edges : List (Nat × Nat)) (u : Nat) : Passes edges u u := by
  induction edges with
  | nil => rfl
  | cons e edges ih => exact Or.inl ih

/-- What gets along some edges and then along more of them stops at a node in between. -/
theorem passes_append :
    Passes (edges ++ more) u c ↔ ∃ w, Passes edges u w ∧ Passes more w c := by
  induction edges generalizing u with
  | nil => simp
  | cons e edges ih =>
    obtain ⟨a, b⟩ := e
    simp only [List.cons_append, passes_cons, ih]
    constructor
    · rintro (⟨w, huw, hwc⟩ | ⟨hu, w, hbw, hwc⟩)
      · exact ⟨w, Or.inl huw, hwc⟩
      · exact ⟨w, Or.inr ⟨hu, hbw⟩, hwc⟩
    · rintro ⟨w, huw | ⟨hu, hbw⟩, hwc⟩
      · exact Or.inl ⟨w, huw, hwc⟩
      · exact Or.inr ⟨hu, w, hbw, hwc⟩

/-- What gets to a node comes along a path of the edges. -/
theorem Passes.reflTransGen (h : Passes edges u c) :
    ReflTransGen (fun a b => (a, b) ∈ edges) u c := by
  induction edges generalizing u with
  | nil => exact h ▸ .refl
  | cons e edges ih =>
    have hmono : ∀ {x y : Nat}, ReflTransGen (fun a b => (a, b) ∈ edges) x y →
        ReflTransGen (fun a b => (a, b) ∈ e :: edges) x y :=
      fun hpath => ReflTransGen.mono (fun _ _ hmem => List.mem_cons_of_mem _ hmem) _ _ hpath
    obtain ⟨a, b⟩ := e
    rcases h with h | ⟨rfl, h⟩
    · exact hmono (ih h)
    · exact .head List.mem_cons_self (hmono (ih h))

variable {next : Nat → List Nat} {bound : Nat} {visited : List Nat} {pending : List (Nat × Nat)}

/-- A discovered node gets what is at the start of a pending edge. -/
theorem passes_discover (hc : c ∈ (discover next bound visited pending).map Prod.snd) :
    ∃ x ∈ pending, Passes (discover next bound visited pending) x.1 c := by
  induction visited, pending using discover.induct next bound with
  | case1 visited => simp at hc
  | case2 visited a b rest hnew ih =>
    rw [discover_fresh hnew.1 hnew.2] at hc ⊢
    rw [List.map_cons, List.mem_cons] at hc
    rcases hc with rfl | hc
    -- what gets to `b` by the first edge stays there
    · exact ⟨_, List.mem_cons_self, Or.inr ⟨rfl, .refl _ _⟩⟩
    · obtain ⟨x, hx, hpass⟩ := ih hc
      rcases List.mem_append.mp hx with hb | hrest
      · obtain ⟨d, _, rfl⟩ := List.mem_map.mp hb
        exact ⟨_, List.mem_cons_self, Or.inr ⟨rfl, hpass⟩⟩
      · exact ⟨x, List.mem_cons_of_mem _ hrest, Or.inl hpass⟩
  | case3 visited a b rest hold ih =>
    rw [discover, if_neg hold] at hc ⊢
    obtain ⟨x, hx, hpass⟩ := ih hc
    exact ⟨x, List.mem_cons_of_mem _ hx, hpass⟩

end Passes

end KernelGraph
