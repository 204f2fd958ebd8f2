import KernelGraph.Analysis.Error
import KernelGraph.Graph.Program
import KernelGraph.Log

/-!
# Actions on a program

An action changes a program, tells about it, and ends with a value or an error. What it did before
an error stays done, so an outcome has the program in either case.

## Main definitions

* `Outcome` — how an action ended, the program it left, and what it told
* `Action` — a function from programs to outcomes, with its monad
* `Action.fail`, `Action.ofExcept`, `Action.modify`, `Action.tell`
-/

namespace KernelGraph

/-- The end of an action: its value or its error, the program as it left it, and its log. -/
structure Outcome (α : Type) where
  result : Except AnalysisError α
  program : Program
  log : Log

/-- An action on a program. -/
def Action (α : Type) := Program → Outcome α

namespace Action

variable {α β : Type}

/-- Does nothing and gives a value. -/
protected def pure (a : α) : Action α := fun p => ⟨.ok a, p, []⟩

/-- Does one action, and if it succeeds another on the program that it left. -/
protected def bind (x : Action α) (f : α → Action β) : Action β := fun p =>
  match x p with
  | ⟨.ok a, q, log⟩ => let o := f a q; ⟨o.result, o.program, log ++ o.log⟩
  | ⟨.error e, q, log⟩ => ⟨.error e, q, log⟩

instance : Monad Action where
  pure := Action.pure
  bind := Action.bind

/-- Stops with an error. -/
def fail (e : AnalysisError) : Action α := fun p => ⟨.error e, p, []⟩

/-- Gives a value found by looking at the program, or stops with an error. -/
def ofExcept (f : Program → Except AnalysisError α) : Action α := fun p => ⟨f p, p, []⟩

/-- Gives a value found by looking at the program. -/
def look (f : Program → α) : Action α := fun p => ⟨.ok (f p), p, []⟩

/-- Changes the program. -/
def modify (f : Program → Program) : Action Unit := fun p => ⟨.ok (), f p, []⟩

/-- Tells something. -/
def tell (r : LogRecord) : Action Unit := fun p => ⟨.ok (), p, [r]⟩

@[simp] theorem pure_apply (a : α) (p : Program) : (pure a : Action α) p = ⟨.ok a, p, []⟩ := rfl

theorem bind_apply_ok {x : Action α} {f : α → Action β} {p q : Program} {a : α} {log : Log}
    (h : x p = ⟨.ok a, q, log⟩) :
    (x >>= f) p = ⟨(f a q).result, (f a q).program, log ++ (f a q).log⟩ := by
  simp only [bind, Action.bind, h]

theorem bind_apply_error {x : Action α} {f : α → Action β} {p q : Program} {e : AnalysisError}
    {log : Log} (h : x p = ⟨.error e, q, log⟩) : (x >>= f) p = ⟨.error e, q, log⟩ := by
  simp only [bind, Action.bind, h]

/-- Doing nothing after an action changes nothing. -/
private theorem map_identity (x : Action α) : id <$> x = x := by
  funext p
  simp only [Functor.map, Action.bind, Function.comp, Action.pure]
  rcases h : x p with ⟨r | r, q, log⟩ <;> simp_all

/-- Actions may be grouped in either way: logs are put together in one order. -/
private theorem bind_associates {γ : Type} (x : Action α) (f : α → Action β) (g : β → Action γ) :
    x >>= f >>= g = x >>= fun a => f a >>= g := by
  funext p
  simp only [bind, Action.bind]
  rcases x p with ⟨_ | a, q, log⟩ <;> simp
  rcases f a q with ⟨_ | b, r, log'⟩ <;> simp

/-- An action after one that does nothing is that action. -/
private theorem pure_bind_eq (a : α) (f : α → Action β) : pure a >>= f = f a := by
  funext p
  simp [bind, Action.bind, pure, Action.pure]

instance : LawfulMonad Action := LawfulMonad.mk' Action map_identity pure_bind_eq bind_associates

end Action

end KernelGraph
