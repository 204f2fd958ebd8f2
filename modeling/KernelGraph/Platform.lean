import KernelGraph.Text.Blank

/-!
# Platforms

A platform is the CPU, which needs no name, or one that is known by its name. Names are compared in
their normal form, so that ` gpu ` and `GPU` are one platform.

## Main definitions

* `Platform`, `Platform.ofString`, `Platform.name`
* `Platform.Matches` — does an entry of a template's list name the platform?
* `Platform.Admits` — does a template with a list of entries apply to the platform?
-/

namespace KernelGraph

/-- A target platform. -/
inductive Platform
  /-- The CPU, or no platform in particular. -/
  | cpu
  /-- Any other platform, by its name in normal form. -/
  | named (name : String)
  deriving DecidableEq, Repr, Inhabited

namespace Platform

/-- The platform that a text names. The empty text and `CPU` name the CPU. -/
def ofString (raw : String) : Platform :=
  if Text.normal raw = "" ∨ Text.normal raw = "CPU" then .cpu else .named (Text.normal raw)

/-- The name of a platform. -/
def name : Platform → String
  | .cpu => "CPU"
  | .named n => n

/-- The platform for which a routine may host one kernel only, and mixed calls are reported. -/
def gpu : Platform := .named "GPU"

/-- Is it the GPU? -/
def isGpu (p : Platform) : Bool := p = gpu

/-- Is it the CPU? -/
def isCpu (p : Platform) : Bool := p = .cpu

/-- Does an entry, in its normal form, name the platform? -/
def Matches (p : Platform) (entry : String) : Prop :=
  match p with
  | .cpu => Text.normal entry = "" ∨ Text.normal entry = "CPU"
  | .named n => Text.normal entry = n

instance (p : Platform) (entry : String) : Decidable (p.Matches entry) :=
  match p with
  | .cpu => inferInstanceAs (Decidable (_ ∨ _))
  | .named _ => inferInstanceAs (Decidable (_ = _))

/-- A template applies to a platform if an entry of its list names it. An empty list names the
CPU. -/
def Admits (p : Platform) (entries : List String) : Prop :=
  if entries = [] then p = .cpu else ∃ entry ∈ entries, p.Matches entry

instance (p : Platform) (entries : List String) : Decidable (p.Admits entries) := by
  unfold Admits; infer_instance

end Platform

end KernelGraph
