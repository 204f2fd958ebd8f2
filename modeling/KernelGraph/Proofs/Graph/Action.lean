import KernelGraph.Graph.Action
import Mathlib.Logic.Relation

/-!
# The effect of an action

What an action logs has no influence on how it ends and on the program that it leaves. These two are
its effect, and the effect of one action after another is told from theirs. What an action does to a
program can be described by steps, whether it succeeds or not.

## Main definitions

* `Outcome.effect` — an outcome without its log
* `Action.Follows` — an action gets from a program to the one that it leaves by steps
* `Action.Gives` — all values that an action may give have a property

## Main results

* `effect_bind_ok`, `effect_bind_error` — the effect of one action after another
* `effect_bind_pure` — the effect of an action of which another value is given
* `bind_apply_congr`, `map_apply` — when two actions end alike
* `Follows.bind` — one action after another takes the steps of both
* `Gives.bind` — what one action after another gives
-/

namespace KernelGraph

/-- An outcome without its log. -/
def Outcome.effect {α : Type} (o : Outcome α) : Except AnalysisError α × Program :=
  (o.result, o.program)

namespace Action

variable {α β : Type} {x : Action α} {f : α → Action β} {a : α} {e : AnalysisError} {p q : Program}

@[simp] theorem effect_pure : ((pure a : Action α) p).effect = (.ok a, p) := rfl

theorem effect_ofExcept {g : Program → Except AnalysisError α} :
    (ofExcept g p).effect = (g p, p) := rfl

/-- After an action that succeeds, the effect is that of the next one. -/
theorem effect_bind_ok (h : (x p).effect = (.ok a, q)) : ((x >>= f) p).effect = (f a q).effect := by
  obtain ⟨hresult, hprogram⟩ := Prod.mk.inj h
  rcases hx : x p with ⟨result, program, log⟩
  rw [hx] at hresult hprogram
  subst hresult hprogram
  rw [bind_apply_ok hx]
  rfl

/-- After an action that fails, nothing is done. -/
theorem effect_bind_error (h : (x p).effect = (.error e, q)) :
    ((x >>= f) p).effect = (.error e, q) := by
  obtain ⟨hresult, hprogram⟩ := Prod.mk.inj h
  rcases hx : x p with ⟨result, program, log⟩
  rw [hx] at hresult hprogram
  subst hresult hprogram
  rw [bind_apply_error hx]
  rfl

/-- If an action and then another succeed, the first has, and then the second. -/
theorem of_effect_bind_eq_ok {b : β} {r : Program} (h : ((x >>= f) p).effect = (.ok b, r)) :
    ∃ a q, (x p).effect = (.ok a, q) ∧ (f a q).effect = (.ok b, r) := by
  rcases hx : (x p).effect with ⟨e | a, q⟩
  · rw [effect_bind_error hx] at h
    simp at h
  · rw [effect_bind_ok hx] at h
    exact ⟨a, q, rfl, h⟩

/-- Giving another value afterwards changes what is given, and nothing else. -/
theorem effect_bind_pure {g : α → β} : ((x >>= fun a => pure (g a)) p).effect =
    ((x p).effect.1.map g, (x p).effect.2) := by
  rcases hx : (x p).effect with ⟨e | a, q⟩
  · rw [effect_bind_error hx]
    rfl
  · rw [effect_bind_ok hx]
    rfl

/-- Two actions that end alike can be followed by the same action. -/
theorem bind_apply_eq {y : Action α} (h : x p = y p) : (x >>= f) p = (y >>= f) p := by
  simp only [bind, Action.bind, h]

/-- An action can be followed by two actions that end alike after it. -/
theorem bind_apply_congr {g : α → Action β}
    (h : ∀ a q, (x p).effect = (.ok a, q) → f a q = g a q) : (x >>= f) p = (x >>= g) p := by
  rcases hx : x p with ⟨e | a, q, log⟩
  · rw [bind_apply_error hx, bind_apply_error hx]
  · rw [bind_apply_ok hx, bind_apply_ok hx, h a q (by rw [hx]; rfl)]

/-- An action of which another value is given leaves the same program and tells the same. -/
theorem map_apply {g : α → β} :
    (g <$> x) p = ⟨(x p).result.map g, (x p).program, (x p).log⟩ := by
  rw [← bind_pure_comp]
  rcases hx : x p with ⟨e | a, q, log⟩
  · rw [bind_apply_error hx]
    rfl
  · rw [bind_apply_ok hx, pure_apply, List.append_nil]
    rfl

@[simp] theorem effect_look_bind {γ : Type} {g : Program → γ} {f : γ → Action β} :
    ((look g >>= f) p).effect = (f (g p) p).effect := rfl

@[simp] theorem effect_tell_bind {r : LogRecord} {f : Unit → Action β} :
    ((tell r >>= f) p).effect = (f () p).effect := rfl

@[simp] theorem effect_modify_bind {g : Program → Program} {f : Unit → Action β} :
    ((modify g >>= f) p).effect = (f () (g p)).effect := rfl

/-! ## Actions by steps -/

/-- Whatever the program and however the action ends, it gets by steps to the program that it
leaves. -/
def Follows (step : Program → Program → Prop) (x : Action α) : Prop :=
  ∀ p, Relation.ReflTransGen step p (x p).program

section Steps

variable {step : Program → Program → Prop}

theorem follows_pure (a : α) : Follows step (pure a) := fun _ => .refl

theorem follows_fail (e : AnalysisError) : Follows step (fail e : Action α) := fun _ => .refl

theorem follows_look (g : Program → α) : Follows step (look g) := fun _ => .refl

theorem follows_ofExcept (g : Program → Except AnalysisError α) : Follows step (ofExcept g) :=
  fun _ => .refl

theorem follows_tell (r : LogRecord) : Follows step (tell r) := fun _ => .refl

theorem follows_modify {g : Program → Program} (h : ∀ p, Relation.ReflTransGen step p (g p)) :
    Follows step (modify g) := h

/-- One action after another takes the steps of both. -/
theorem Follows.bind (hx : Follows step x) (hf : ∀ a, Follows step (f a)) :
    Follows step (x >>= f) := by
  intro p
  have hfirst := hx p
  rcases h : x p with ⟨e | a, q, log⟩
  · rw [bind_apply_error h]
    rwa [h] at hfirst
  · rw [bind_apply_ok h]
    rw [h] at hfirst
    exact hfirst.trans (hf a q)

theorem follows_forM {g : β → Action Unit} (h : ∀ b, Follows step (g b)) (bs : List β) :
    Follows step (bs.forM g) := by
  induction bs with
  | nil => exact follows_pure ()
  | cons b bs ih => exact (h b).bind fun _ => ih

end Steps

/-! ## What actions give -/

/-- Whatever the program, if the action gives a value, it has the property. -/
def Gives (holds : α → Prop) (x : Action α) : Prop := ∀ p a, (x p).result = .ok a → holds a

section Values

variable {holds : α → Prop} {holds' : β → Prop}

theorem gives_pure (h : holds a) : Gives holds (pure a) := by
  intro p a' ha'
  exact Except.ok.inj ha' ▸ h

theorem gives_fail (e : AnalysisError) : Gives holds (fail e) := by
  intro p a ha
  simp [fail] at ha

theorem gives_any (x : Action α) : Gives (fun _ => True) x := fun _ _ _ => trivial

/-- One action after another gives what the second gives after what the first may give. -/
theorem Gives.bind (hx : Gives holds x) (hf : ∀ a, holds a → Gives holds' (f a)) :
    Gives holds' (x >>= f) := by
  intro p b hb
  rcases h : x p with ⟨e | a, q, log⟩
  · rw [bind_apply_error h] at hb
    simp at hb
  · rw [bind_apply_ok h] at hb
    exact hf a (hx p a (by rw [h])) q b hb

end Values

end Action

end KernelGraph
