import KernelGraph.Proofs.Analysis.Failure
import KernelGraph.Proofs.Analysis.Places

/-!
# Saving and loading between operations

Whatever has been done to the program of a document, it can be written to a document and lowered
again, which numbers the markers that are left anew and changes nothing else. This may be done
between narrowing and an analysis too, which then ends as it would have without.

## Main results

* `ofDocument_toDocument_performAll` — saving and loading after any sequence of operations
* `analyse_ofDocument_toDocument` — saving and loading between narrowing and an analysis
-/

namespace KernelGraph.Program

variable {d : Document} {p : Program}

/-- After any sequence of operations, whatever their arguments and whether they succeed or not, the
numbers, the owners and the names of the program fit together, and no set of templates has an id
twice. Written to a document and lowered again, the program is the same but for its markers, which
are numbered anew in their order. -/
theorem ofDocument_toDocument_performAll (h : ofDocument d = .ok p) (operations : List Operation) :
    let q := p.performAll operations
    Coherent q ∧ (∀ m ∈ q.live, m.templates.ids.Nodup) ∧
      (∀ i c, q.container? i = some c → c.templates.ids.Nodup) ∧
      ofDocument q.toDocument = .ok q.compact := by
  have hskeleton : (p.performAll operations).skeleton = p.skeleton :=
    (annotates_of_steps (reflTransGen_performAll p operations)).skeleton
  have hcoherent := coherent_performAll (coherent_ofDocument h) operations
  exact ⟨hcoherent, fun m _ => m.templates.nodup, fun _ c _ => c.templates.nodup,
    ofDocument_toDocument h hskeleton hcoherent⟩

/-- After an analysis that stops at the second kernel, and a promotion of a marker that is gone. -/
theorem ofDocument_toDocument_performAll_clash : ∃ p, ofDocument clash = .ok p ∧
    let q := p.performAll [.analyse .cpu, .promote 0]
    (Coherent q ∧ (∀ m ∈ q.live, m.templates.ids.Nodup) ∧
      (∀ i c, q.container? i = some c → c.templates.ids.Nodup) ∧
      ofDocument q.toDocument = .ok q.compact) ∧
    q.live.map Marker.id = [1] ∧ q.compact.live.map Marker.id = [0] := by
  refine ⟨_, rfl, ofDocument_toDocument_performAll (d := clash) rfl [.analyse .cpu, .promote 0],
    ?_, ?_⟩ <;> decide +kernel

/-- The program of a document can be narrowed, written to a document and lowered again before it is
analysed: the analysis has the same result, and the program that it leaves is written to the same
document. If it cannot be narrowed, neither can it be analysed, for the same reason. -/
theorem analyse_ofDocument_toDocument (h : ofDocument d = .ok p) (platform : Platform) :
    ((narrowAll platform p).result = .ok () →
      ∃ q, ofDocument (narrowAll platform p).program.toDocument = .ok q ∧
        (analyse platform q).result = (analyse platform p).result ∧
        (analyse platform q).program.toDocument = (analyse platform p).program.toDocument) ∧
    ∀ e, (narrowAll platform p).result = .error e → (analyse platform p).result = .error e := by
  have hp := coherent_ofDocument h
  constructor
  · intro hok
    have hnarrow : (narrowAll platform p).effect = (.ok (), (narrowAll platform p).program) :=
      Prod.ext hok rfl
    have hannotates := annotates_of_follows (follows_narrowAll platform) hnarrow
    have hq := ofDocument_toDocument h hannotates.skeleton (hannotates.evolves.coherent hp)
    have hsame := compact_analyse hp (coherent_ofDocument hq) hnarrow (compact_compact _)
    refine ⟨_, hq, (Prod.mk.inj hsame).1, ?_⟩
    rw [← toDocument_compact, (Prod.mk.inj hsame).2, toDocument_compact]
  · intro e herror
    have hnarrow : (narrowAll platform p).effect = (.error e, (narrowAll platform p).program) :=
      Prod.ext herror rfl
    have heffect : (analyse platform p).effect = (.error e, (narrowAll platform p).program) := by
      rw [analyse, Action.effect_tell_bind, Action.effect_bind_error hnarrow]
    exact (Prod.mk.inj heffect).1

/-- On a CPU the first kernel has no template, so the marker of the second gets its number. -/
def vacated : Document where
  routines :=
    [⟨"first", .unset, [⟨["u"], []⟩], none, []⟩, ⟨"second", .unset, [⟨["t"], []⟩], none, []⟩]
  calls := [⟨"first", "second", none, []⟩]
  templates := [⟨"t", [], []⟩, ⟨"u", ["GPU"], []⟩]
  extra := []

/-- The second kernel has an id without a template. -/
def dangling : Document := { vacated with templates := [⟨"u", ["GPU"], []⟩] }

/-- Narrowing that drops a marker, and narrowing that stops. -/
theorem analyse_ofDocument_toDocument_vacated_dangling :
    (∃ p q, ofDocument vacated = .ok p ∧ (narrowAll .cpu p).result = .ok () ∧
      ofDocument (narrowAll .cpu p).program.toDocument = .ok q ∧
      (analyse .cpu q).result = (analyse .cpu p).result ∧
      (analyse .cpu q).program.toDocument = (analyse .cpu p).program.toDocument) ∧
    ∃ p e, ofDocument dangling = .ok p ∧ (narrowAll .cpu p).result = .error e ∧
      (analyse .cpu p).result = .error e := by
  constructor
  · have hnarrow : ∃ p, ofDocument vacated = .ok p ∧ (narrowAll .cpu p).result = .ok () :=
      ⟨_, rfl, by decide +kernel⟩
    obtain ⟨p, hp, hok⟩ := hnarrow
    obtain ⟨q, hq, hsame⟩ := (analyse_ofDocument_toDocument hp .cpu).1 hok
    exact ⟨p, q, hp, hok, hq, hsame⟩
  · have hnarrow : ∃ p, ofDocument dangling = .ok p ∧
        (narrowAll .cpu p).result = .error (.unknownTemplate "t" "second") :=
      ⟨_, rfl, by decide +kernel⟩
    obtain ⟨p, hp, herror⟩ := hnarrow
    exact ⟨p, _, hp, herror, (analyse_ofDocument_toDocument hp .cpu).2 _ herror⟩

end KernelGraph.Program
