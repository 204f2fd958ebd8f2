import KernelGraph.Proofs.Call.Spread

/-!
# Demands on positions

Kernels demand positions of routines. Demands can be met if no routine is asked for two positions
and each can take the one that it is asked for. Whether they can does not depend on the order in
which they are met: what is met first leaves open exactly what was open before.

## Main definitions

* `Program.Settles` — the demands can be met
* `Program.Settled` — the demands have been met

## Main results

* `settles_or_iff` — demands can be met together if and only if they can be met one after another
* `settled_handOn` — a trail meets what a kernel demands in its direction
* `spreadFrom_cases` — a spread from a kernel goes along its trail if the demands can be met, and
  otherwise stops at a routine that cannot take its position
-/

namespace KernelGraph

namespace Program

/-- Demands on positions can be met: no routine is asked for two positions, and each can take the
one that it is asked for. -/
def Settles (p : Program) (D : Position → Nat → Prop) : Prop :=
  (∀ i v w, D v i → D w i → v = w) ∧ ∀ v i, D v i → p.CanTake v i

/-- In `q` the demands on the positions of `p` have been met, and no other position has changed. -/
structure Settled (p : Program) (D : Position → Nat → Prop) (q : Program) : Prop where
  met : ∀ v i, D v i → q.position? i = some v
  left : ∀ i, (∀ v, ¬ D v i) → q.position? i = p.position? i

variable {p q r : Program} {D E : Position → Nat → Prop} {v : Position} {i k : Nat}
  {direction : Direction}

theorem settles_congr (h : ∀ v i, D v i ↔ E v i) : p.Settles D ↔ p.Settles E := by
  have heq : D = E := funext fun v => funext fun i => propext (h v i)
  rw [heq]

theorem Settled.congr (hD : Settled p D q) (h : ∀ v i, D v i ↔ E v i) : Settled p E q := by
  have heq : D = E := funext fun v => funext fun i => propext (h v i)
  exact heq ▸ hD

theorem Settled.of_position?_eq (h : Settled p D q) (hr : ∀ i, r.position? i = q.position? i) :
    Settled p D r :=
  ⟨fun v i hD => (hr i).trans (h.met v i hD), fun i hD => (hr i).trans (h.left i hD)⟩

/-- A routine with a position that is not unset can take no other. -/
theorem not_canTake {w : Position} (hi : p.position? i = some w) (hw : w ≠ .unset) (hv : w ≠ v) :
    ¬ p.CanTake v i := by
  intro h
  rcases h w hi with hunset | heq
  · exact hw hunset
  · exact hv heq

theorem canTake_of_position? (hi : p.position? i = some v) : p.CanTake v i := by
  intro u hu
  obtain rfl : v = u := Option.some.inj (hi.symm.trans hu)
  exact Or.inr rfl

theorem canTake_congr (h : q.position? i = p.position? i) : q.CanTake v i ↔ p.CanTake v i := by
  rw [CanTake, CanTake, h]

/-- Whether demands can be met depends on the positions only. -/
theorem settles_iff_of_position? (h : ∀ i, q.position? i = p.position? i) :
    q.Settles D ↔ p.Settles D := by
  simp only [Settles, canTake_congr (h _)]

theorem Settled.of_position?_left (hD : Settled q D r)
    (h : ∀ i, q.position? i = p.position? i) : Settled p D r :=
  ⟨hD.met, fun i hi => (hD.left i hi).trans (h i)⟩

/-- What demands leave of the positions is settled by them. -/
theorem Settled.position?_eq (hq : Settled p D q) (hr : Settled p D r) (i : Nat) :
    q.position? i = r.position? i := by
  by_cases hsome : ∃ v, D v i
  · obtain ⟨v, hv⟩ := hsome
    rw [hq.met v i hv, hr.met v i hv]
  · rw [hq.left i (not_exists.mp hsome), hr.left i (not_exists.mp hsome)]

/-- Some of the demands can be met if all can. -/
theorem Settles.mono (hE : p.Settles E) (h : ∀ v i, D v i → E v i) : p.Settles D :=
  ⟨fun i v w hv hw => hE.1 i v w (h v i hv) (h w i hw), fun v i hv => hE.2 v i (h v i hv)⟩

/-- Demands can be met together if and only if some can be met, and then the others. -/
theorem settles_or_iff (hunset : ∀ v i, D v i → v ≠ .unset)
    (hq : p.Settles D → Settled p D q) :
    p.Settles (fun v i => D v i ∨ E v i) ↔ p.Settles D ∧ q.Settles E := by
  constructor
  · rintro ⟨hone, htake⟩
    have hD : p.Settles D := Settles.mono ⟨hone, htake⟩ fun v i => Or.inl
    refine ⟨hD, fun i v w hv hw => hone i v w (Or.inr hv) (Or.inr hw), fun v i hv => ?_⟩
    -- a routine of which something has been demanded has the position that is demanded now
    by_cases hsome : ∃ w, D w i
    · obtain ⟨w, hw⟩ := hsome
      obtain rfl := hone i w v (Or.inl hw) (Or.inr hv)
      exact canTake_of_position? ((hq hD).met w i hw)
    · rw [canTake_congr ((hq hD).left i (not_exists.mp hsome))]
      exact htake v i (Or.inr hv)
  · rintro ⟨hD, hE⟩
    -- a routine that has been given a position can take no other
    have hcross : ∀ i v w, D v i → E w i → v = w := by
      intro i v w hv hw
      by_contra hne
      exact not_canTake ((hq hD).met v i hv) (hunset v i hv) hne (hE.2 w i hw)
    refine ⟨fun i v w hv hw => ?_, fun v i hv => ?_⟩
    · rcases hv with hv | hv <;> rcases hw with hw | hw
      · exact hD.1 i v w hv hw
      · exact hcross i v w hv hw
      · exact (hcross i w v hw hv).symm
      · exact hE.1 i v w hv hw
    · rcases hv with hv | hv
      · exact hD.2 v i hv
      · by_cases hsome : ∃ w, D w i
        · obtain ⟨w, hw⟩ := hsome
          obtain rfl := hcross i w v hw hv
          exact hD.2 w i hw
        · rw [← canTake_congr ((hq hD).left i (not_exists.mp hsome))]
          exact hE.2 v i hv

/-- Demands that are met one after another have been met together. -/
theorem Settled.or (hD : Settled p D q) (hE : Settled q E r)
    (hone : ∀ i v w, D v i → E w i → v = w) : Settled p (fun v i => D v i ∨ E v i) r where
  met v i hv := by
    by_cases hsome : ∃ w, E w i
    · obtain ⟨w, hw⟩ := hsome
      rcases hv with hv | hv
      · obtain rfl := hone i v w hv hw
        exact hE.met v i hw
      · exact hE.met v i hv
    · rcases hv with hv | hv
      · rw [hE.left i (not_exists.mp hsome)]
        exact hD.met v i hv
      · exact absurd ⟨v, hv⟩ hsome
  left i hnone := by
    rw [hE.left i fun v hv => hnone v (Or.inr hv), hD.left i fun v hv => hnone v (Or.inl hv)]

/-! ## Meeting the demands of a kernel in one direction -/

/-- What a kernel demands in one direction. -/
def DemandsIn (p : Program) (k : Nat) (direction : Direction) (v : Position) (i : Nat) : Prop :=
  v = direction.position ∧ p.Demands k v i

section Kernel

variable (hp : Coherent p) (hk : p.position? k = some .within) (hdirection : direction ≠ .kernel)

include hp hk hdirection

omit hp in
/-- A kernel's own routine cannot take what the kernel demands of others. -/
theorem not_canTake_kernel : ¬ p.CanTake direction.position k := by
  refine not_canTake hk (by simp) ?_
  cases direction <;> simp_all [Direction.position]

/-- The demands can be met if what a search meets can take the position. -/
theorem settles_demandsIn_iff :
    p.Settles (p.DemandsIn k direction) ↔
      ∀ i ∈ p.meets direction true k, p.CanTake direction.position i := by
  rw [forall_meets_iff hp hdirection (not_canTake_kernel hk hdirection)]
  constructor
  · exact fun h i hi => h.2 _ i ⟨rfl, hi⟩
  · refine fun h => ⟨fun i v w hv hw => hv.1.trans hw.1.symm, ?_⟩
    rintro v i ⟨rfl, hi⟩
    exact h i hi

/-- If the demands can be met, a search discovers the routines that they are about. -/
theorem mem_trail_iff_of_settles (h : p.Settles (p.DemandsIn k direction)) :
    i ∈ (p.trail direction true k).map Prod.snd ↔ p.Demands k direction.position i :=
  mem_trail_iff hp hdirection fun hk' => not_canTake_kernel hk hdirection (h.2 _ k ⟨rfl, hk'⟩)

/-- Going along the trail meets the demands. -/
theorem settled_handOn (h : p.Settles (p.DemandsIn k direction)) :
    Settled p (p.DemandsIn k direction)
      (p.handOn direction.position (p.trail direction true k)) where
  met v i hv := by
    obtain ⟨rfl, hi⟩ := hv
    rw [position?_handOn fun _ => lt_of_mem_trail,
      if_pos ((mem_trail_iff_of_settles hp hk hdirection h).mpr hi)]
  left i hnone := by
    rw [position?_handOn fun _ => lt_of_mem_trail, if_neg]
    exact fun hi => hnone _ ⟨rfl, (mem_trail_iff_of_settles hp hk hdirection h).mp hi⟩

/-- A spread from a kernel goes along the whole trail, or it goes along a part of it and then meets
a routine that cannot take the position demanded of it. -/
theorem spreadFrom_cases (hname : p.nameOf k ≠ "") :
    (p.Settles (p.DemandsIn k direction) ∧ (spreadFrom (.build p.calls) direction k p).effect =
      (.ok (p.trail direction true k).length,
        p.handOn direction.position (p.trail direction true k))) ∨
    (¬ p.Settles (p.DemandsIn k direction) ∧ ∃ n t r, p.Demands k direction.position t ∧
      (p.handOn direction.position ((p.trail direction true k).take n)).routine? t = some r ∧
      ¬ r.position.Accepts direction.position ∧
      (spreadFrom (.build p.calls) direction k p).effect =
        (.error (.conflictingPosition r.name r.position direction.position direction),
          p.handOn direction.position ((p.trail direction true k).take n))) := by
  obtain ⟨r, hr, hwithin⟩ := Option.map_eq_some_iff.mp hk
  have hend := trailEnd_spreadFrom hdirection hp hr (by simpa [nameOf, hr] using hname)
  rw [decide_eq_true hwithin] at hend
  generalize (spreadFrom (.build p.calls) direction k p).effect = o at hend
  cases hend with
  | done htake => exact Or.inl ⟨(settles_demandsIn_iff hp hk hdirection).mpr htake, rfl⟩
  | conflict n t r ht hr hconflict =>
    have hdemand := demands_of_mem_meets hp hdirection ht
    -- on the way a routine is given nothing but the position demanded of it, so the one that cannot
    -- take it had another before
    refine Or.inr ⟨fun hsettles => hconflict ?_, n, t, r, hdemand, hr, hconflict, rfl⟩
    have hlt : ∀ e ∈ (p.trail direction true k).take n, e.2 < p.routines.length :=
      fun e he => lt_of_mem_trail (List.mem_of_mem_take he)
    exact hsettles.2 _ t ⟨rfl, hdemand⟩ _ (position?_of_handOn hlt hr hconflict)

end Kernel

end Program

end KernelGraph
