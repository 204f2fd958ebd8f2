import KernelGraph.Proofs.Analysis.Operations
import Mathlib.Data.Set.Card

/-!
# One spread from any routine

A spread follows the calls from its origin, which need not be a kernel's routine, in any state of a
program: positions and templates may be there already, and markers still be left. It ends on every
graph, also if calls lead back to the origin. Whether it succeeds, and what it leaves, is told from
the routines that the calls lead to: it fails if one of them has another position, and otherwise
gives all of them but the origin the position, each once.

## Main definitions

* `Program.Follows` — a call that a spread follows
* `Program.Reached` — the routines to which a spread follows calls

## Main results

* `reached_iff` — a spread meets the routines that it reaches
* `exists_reached_of_error`, `of_spreadFrom_eq_ok` — a spread that fails, and one that succeeds
* `spreadFrom_reached` — how a spread ends
-/

namespace KernelGraph

open Relation

/-- What can be reached in one or more steps can be reached without leaving the origin again. -/
theorem transGen_iff_onward {follows : Nat → Nat → Prop} {next : Nat → List Nat} {first : List Nat}
    {origin t : Nat} (hfirst : ∀ b, follows origin b ↔ b ∈ first)
    (hnext : ∀ a, a ≠ origin → ∀ b, follows a b ↔ b ∈ next a) :
    TransGen follows origin t ↔ ∃ b ∈ first, ReflTransGen (Onward next origin) b t := by
  constructor
  · intro h
    induction h with
    | single h => exact ⟨_, (hfirst _).mp h, .refl⟩
    | @tail a b _ hstep ih =>
      -- a path that comes back to the origin can start anew there
      by_cases ha : a = origin
      · exact ⟨b, (hfirst b).mp (ha ▸ hstep), .refl⟩
      · obtain ⟨c, hc, hpath⟩ := ih
        exact ⟨c, hc, hpath.tail ⟨ha, (hnext a ha b).mp hstep⟩⟩
  · rintro ⟨b, hb, hpath⟩
    refine TransGen.trans_left (.single ((hfirst b).mpr hb)) ?_
    exact ReflTransGen.mono (fun a c h => (hnext a h.1 c).mpr h.2) _ _ hpath

namespace Program

/-- A spread from `k` goes on from one routine to another: upwards to its callers, and downwards to
its callees, but from `k` itself only to those that it calls inside its region, if it hosts one. -/
def Follows (p : Program) (direction : Direction) (k a b : Nat) : Prop :=
  match direction with
  | .upward => p.Calls b a
  | .downward | .kernel =>
    if a = k ∧ p.position? k = some .within then p.CallsInside a b else p.Calls a b

/-- A spread from `k` reaches a routine by going on once or more often; this may be `k` itself. -/
def Reached (p : Program) (direction : Direction) (k i : Nat) : Prop :=
  TransGen (p.Follows direction k) k i

variable {p : Program} {direction : Direction} {r : Routine} {a b k i : Nat} {id : String}

/-! ## Where a spread goes -/

theorem follows_origin_iff (hdirection : direction ≠ .kernel) (hr : p.routine? k = some r) :
    p.Follows direction k k b ↔ b ∈ p.targets direction (r.position = .within) k := by
  have hposition : p.position? k = some r.position := by rw [position?, hr, Option.map_some]
  cases direction with
  | upward => rw [mem_targets_upward, Follows]
  | downward =>
    by_cases hwithin : r.position = .within
    · simp [Follows, hposition, hwithin]
    · simp [Follows, hposition, hwithin]
  | kernel => exact absurd rfl hdirection

theorem follows_iff_of_ne (hdirection : direction ≠ .kernel) (ha : a ≠ k) :
    p.Follows direction k a b ↔ b ∈ p.targets direction false a := by
  cases direction with
  | upward => rw [mem_targets_upward, Follows]
  | downward => rw [mem_targets_downward, Follows, if_neg fun h => ha h.1]
  | kernel => exact absurd rfl hdirection

/-- A spread meets the routines that it reaches. -/
theorem reached_iff (hp : Coherent p) (hdirection : direction ≠ .kernel)
    (hr : p.routine? k = some r) :
    p.Reached direction k i ↔ i ∈ p.meets direction (r.position = .within) k := by
  rw [mem_meets_iff hp, Reached]
  exact transGen_iff_onward (fun _ => follows_origin_iff hdirection hr)
    fun _ ha _ => follows_iff_of_ne hdirection ha

/-- A spread goes along calls to the routines that it reaches, but for its origin. -/
theorem mem_trail_iff_reached (hp : Coherent p) (hdirection : direction ≠ .kernel)
    (hr : p.routine? k = some r) :
    i ∈ (p.trail direction (r.position = .within) k).map Prod.snd ↔
      p.Reached direction k i ∧ i ≠ k := by
  rw [mem_trail_iff_mem_meets hp, reached_iff hp hdirection hr, and_comm]

/-- The routines that a search discovers are as many as the calls it goes along. -/
theorem ncard_eq_length_trail {regionOnly : Bool} {found : Set Nat}
    (hfound : ∀ i, i ∈ (p.trail direction regionOnly k).map Prod.snd ↔ i ∈ found) :
    found.ncard = (p.trail direction regionOnly k).length := by
  have hset : found = ((p.trail direction regionOnly k).map Prod.snd).toFinset := by
    ext i
    rw [Finset.mem_coe, List.mem_toFinset, hfound]
  have hnodup : ((p.trail direction regionOnly k).map Prod.snd).Nodup := nodup_discover
  rw [hset, Set.ncard_coe_finset, List.toFinset_card_of_nodup hnodup, List.length_map]

/-- The routines that a spread reaches, but for its origin, are as many as the calls it goes
along. -/
theorem ncard_reached (hp : Coherent p) (hdirection : direction ≠ .kernel)
    (hr : p.routine? k = some r) :
    {i | p.Reached direction k i ∧ i ≠ k}.ncard =
      (p.trail direction (r.position = .within) k).length :=
  ncard_eq_length_trail fun _ => mem_trail_iff_reached hp hdirection hr

/-! ## What a spread leaves -/

/-- What the origin hands on gets to every routine that is reached, if none of them has a marker. -/
theorem mem_activeOf_handOn_trail (hp : Coherent p) (hdirection : direction ≠ .kernel)
    (hr : p.routine? k = some r)
    (hmarker : ∀ i, p.Reached direction k i → ∀ m ∈ p.live, m.owner ≠ i)
    (hi : p.Reached direction k i) (hid : id ∈ p.relationsOf k) :
    id ∈ (p.handOn direction.position
      (p.trail direction (r.position = .within) k)).activeOf i := by
  have hpass : Passes (p.trail direction (r.position = .within) k) k i := by
    by_cases hik : i = k
    · exact hik ▸ Passes.refl _ _
    · obtain ⟨x, hx, hpass⟩ :=
        passes_discover ((mem_trail_iff_reached hp hdirection hr).mpr ⟨hi, hik⟩)
      obtain ⟨b, -, rfl⟩ := List.mem_map.mp hx
      exact hpass
  have hlive : (p.handOn direction.position
      (p.trail direction (r.position = .within) k)).live = p.live := by
    rw [live, regions_handOn, live]
  rw [← relationsOf_eq_activeOf (by rw [hlive]; exact hmarker i hi),
    mem_relationsOf_handOn fun _ => lt_of_mem_trail]
  · exact ⟨k, hpass, hid⟩
  · intro e he
    exact hmarker e.2
      ((mem_trail_iff_reached hp hdirection hr).mp (List.mem_map_of_mem he)).1

/-! ## How a spread ends -/

/-- A spread that fails names a routine that it reaches, and the position in its way. -/
theorem exists_reached_of_error (hp : Coherent p) (hdirection : direction ≠ .kernel)
    (hr : p.routine? k = some r) (hname : r.name ≠ "") {e : AnalysisError}
    (herror : (spreadFrom (.build p.calls) direction k p).result = .error e) :
    ∃ t u, p.Reached direction k t ∧ p.position? t = some u ∧ u ≠ .unset ∧
      u ≠ direction.position ∧
      e = .conflictingPosition (p.nameOf t) u direction.position direction := by
  have hend := trailEnd_spreadFrom hdirection hp hr hname
  rw [Outcome.effect, herror] at hend
  generalize (spreadFrom (.build p.calls) direction k p).program = after at hend
  cases hend with
  | conflict n t r' ht hr' hconflict =>
    have hposition := position?_of_handOn
      (fun e he => lt_of_mem_trail (List.mem_of_mem_take he)) hr' hconflict
    have hnamed : r'.name = p.nameOf t := by
      rw [← nameOf_eq_of_skeleton skeleton_handOn, nameOf, hr']
      rfl
    rw [Position.accepts_iff, not_or] at hconflict
    exact ⟨t, _, (reached_iff hp hdirection hr).mpr ht, hposition, hconflict.1, hconflict.2,
      by rw [hnamed]⟩

/-- A spread that succeeds finds no other position on its way, counts the calls it goes along, and
hands on along them. -/
theorem of_spreadFrom_eq_ok (hp : Coherent p) (hdirection : direction ≠ .kernel)
    (hr : p.routine? k = some r) (hname : r.name ≠ "") {n : Nat}
    (hok : (spreadFrom (.build p.calls) direction k p).result = .ok n) :
    (∀ t u, p.Reached direction k t → p.position? t = some u →
      u = .unset ∨ u = direction.position) ∧
    n = (p.trail direction (r.position = .within) k).length ∧
    (spreadFrom (.build p.calls) direction k p).program =
      p.handOn direction.position (p.trail direction (r.position = .within) k) := by
  have hend := trailEnd_spreadFrom hdirection hp hr hname
  rw [Outcome.effect, hok] at hend
  generalize (spreadFrom (.build p.calls) direction k p).program = after at hend
  cases hend with
  | done htake =>
    refine ⟨fun t u ht hu => ?_, rfl, rfl⟩
    exact htake t ((reached_iff hp hdirection hr).mp ht) u hu

/-- A spread in any state of a program, from any routine with a name. It fails if and only if a
routine that it reaches, perhaps its origin, has a position that is neither unset nor the one that
spreads, and then it names such a routine. Otherwise it counts the routines that it reaches without
its origin, and gives them the position, and no other position changes; and if none of those that it
reaches has a marker, each has in the end what the origin hands on. -/
theorem spreadFrom_reached {d : Document} (h : ofDocument d = .ok p)
    (operations : List Operation) (hr : (p.performAll operations).routine? k = some r)
    (hname : r.name ≠ "") (hdirection : direction ≠ .kernel) :
    let q := p.performAll operations
    let v := direction.position
    let o := spreadFrom (.build q.calls) direction k q
    ((∃ e, o.result = .error e) ↔ ∃ t u, q.Reached direction k t ∧ q.position? t = some u ∧
      u ≠ .unset ∧ u ≠ v) ∧
    (∀ e, o.result = .error e → ∃ t u, q.Reached direction k t ∧ q.position? t = some u ∧
      u ≠ .unset ∧ u ≠ v ∧ e = .conflictingPosition (q.nameOf t) u v direction) ∧
    ∀ n, o.result = .ok n → n = {i | q.Reached direction k i ∧ i ≠ k}.ncard ∧
      (∀ i, q.Reached direction k i → i ≠ k → o.program.position? i = some v) ∧
      (∀ i, ¬ (q.Reached direction k i ∧ i ≠ k) → o.program.position? i = q.position? i) ∧
      ((∀ i, q.Reached direction k i → ∀ m ∈ q.live, m.owner ≠ i) →
        ∀ i, q.Reached direction k i → ∀ id ∈ q.relationsOf k, id ∈ o.program.activeOf i) := by
  have hq := coherent_performAll (coherent_ofDocument h) operations
  generalize p.performAll operations = q at hr hq
  dsimp only
  refine ⟨⟨?_, ?_⟩, fun e herror => exists_reached_of_error hq hdirection hr hname herror,
    fun n hok => ?_⟩
  · rintro ⟨e, herror⟩
    obtain ⟨t, u, ht, hu, hunset, hne, -⟩ :=
      exists_reached_of_error hq hdirection hr hname herror
    exact ⟨t, u, ht, hu, hunset, hne⟩
  · rintro ⟨t, u, ht, hu, hunset, hne⟩
    cases hresult : (spreadFrom (.build q.calls) direction k q).result with
    | error e => exact ⟨e, rfl⟩
    | ok n =>
      obtain ⟨hfree, -, -⟩ := of_spreadFrom_eq_ok hq hdirection hr hname hresult
      exact absurd (hfree t u ht hu) (not_or.mpr ⟨hunset, hne⟩)
  · obtain ⟨-, hcount, hprogram⟩ := of_spreadFrom_eq_ok hq hdirection hr hname hok
    rw [hprogram, hcount]
    refine ⟨(ncard_reached hq hdirection hr).symm, fun i hi hik => ?_, fun i hi => ?_,
      fun hmarker i hi id hid => mem_activeOf_handOn_trail hq hdirection hr hmarker hi hid⟩
    · rw [position?_handOn fun _ => lt_of_mem_trail,
        if_pos ((mem_trail_iff_reached hq hdirection hr).mpr ⟨hi, hik⟩)]
    · rw [position?_handOn fun _ => lt_of_mem_trail,
        if_neg fun hmem => hi ((mem_trail_iff_reached hq hdirection hr).mp hmem)]

/-- `left` and `right` call each other, `left` calls `start` twice, and `start` calls itself;
another call of `start` names no routine. -/
def looping : Document where
  routines :=
    [⟨"start", .unset, [], some ⟨["t"], []⟩, []⟩, ⟨"left", .unset, [], none, []⟩,
      ⟨"right", .unset, [], none, []⟩]
  calls :=
    [⟨"left", "start", none, []⟩, ⟨"right", "left", none, []⟩, ⟨"left", "start", none, []⟩,
      ⟨"nobody", "start", none, []⟩, ⟨"left", "right", none, []⟩, ⟨"start", "start", none, []⟩]
  templates := [⟨"t", [], []⟩]
  extra := []

/-- A spread upwards that comes back to its origin, and one downwards that meets a routine which an
earlier spread has put outside. -/
theorem spreadFrom_reached_looping : ∃ p, ofDocument looping = .ok p ∧
    (let o := spreadFrom (.build p.calls) .upward 0 p
    o.result = .ok 2 ∧ {i | p.Reached .upward 0 i ∧ i ≠ 0}.ncard = 2 ∧
      ∀ i, p.Reached .upward 0 i → "t" ∈ o.program.activeOf i) ∧
    let q := p.performAll [.spreadUp (.build p.calls) 1]
    ∃ e t u, (spreadFrom (.build q.calls) .downward 1 q).result = .error e ∧
      q.Reached .downward 1 t ∧ q.position? t = some u ∧ u ≠ .unset ∧ u ≠ .inside ∧
      e = .conflictingPosition (q.nameOf t) u .inside .downward := by
  obtain ⟨p, hp, hlive, hid, hstart, hleft, hok, herror⟩ : ∃ p, ofDocument looping = .ok p ∧
      p.live = [] ∧ "t" ∈ p.relationsOf 0 ∧
      ((p.performAll []).routine? 0).map Routine.name = some "start" ∧
      ((p.performAll [.spreadUp (.build p.calls) 1]).routine? 1).map Routine.name = some "left" ∧
      (spreadFrom (.build p.calls) .upward 0 p).result = .ok 2 ∧
      (spreadFrom (.build (p.performAll [.spreadUp (.build p.calls) 1]).calls) .downward 1
        (p.performAll [.spreadUp (.build p.calls) 1])).result =
          .error (.conflictingPosition "right" .outside .inside .downward) :=
    ⟨_, rfl, by decide +kernel, by decide +kernel, by decide +kernel, by decide +kernel,
      by decide +kernel, by decide +kernel⟩
  obtain ⟨r, hr, hname⟩ := Option.map_eq_some_iff.mp hstart
  obtain ⟨r', hr', hname'⟩ := Option.map_eq_some_iff.mp hleft
  have hupward : Direction.upward ≠ .kernel := by decide
  have hdownward : Direction.downward ≠ .kernel := by decide
  obtain ⟨-, -, hup⟩ := spreadFrom_reached hp [] hr (hname ▸ by decide) hupward
  obtain ⟨-, hdown, -⟩ := spreadFrom_reached hp [.spreadUp (.build p.calls) 1] hr'
    (hname' ▸ by decide) hdownward
  obtain ⟨hcount, -, -, hactive⟩ := hup 2 hok
  refine ⟨p, hp, ⟨hok, hcount.symm, fun i hi => ?_⟩, ?_⟩
  · refine hactive (fun i _ m hm => ?_) i hi "t" hid
    rw [show (p.performAll []).live = [] from hlive] at hm
    cases hm
  · obtain ⟨t, u, ht, hu, hunset, hne, he⟩ := hdown _ herror
    exact ⟨_, t, u, herror, ht, hu, hunset, hne, he⟩

end Program

end KernelGraph
