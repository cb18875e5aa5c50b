import Blueprint.Context
import Blueprint.Proofs.Compile.LastStatement
import Blueprint.Proofs.Compile.Locality
import Blueprint.Proofs.Lineage.Isolation

/-!
# What a context publishes

A refresh either builds a registry, by loading the resolved locations one after the other, each into
what the one before has left (`Compiler.Loads`), or it fails and leaves the context as it is
(`refresh_cases`). So after any calls the current registry is the one that the last refresh to
succeed has built, as long as the context was not closed since (`current_run_iff`). Its definitions
and aliases do not depend on the parent (`Builds.exists_loads`).

Closing a context merges the definitions of its registry, for which the parent is asked. That
disturbs the parent no more than any other question (`undisturbed_run`).
-/

namespace Blueprint

/-- Loading documents one after the other succeeds, each into the registry that the one before has
left. -/
inductive Compiler.Loads (c : Compiler) : Registry → List String → Registry → Prop
  | nil (r : Registry) : Loads c r [] r
  | cons {r r' : Registry} {location : String} {locations : List String} {added : Nat}
    (loaded : (c.load location r).value.outcome = .ok added)
    (later : Loads c (c.load location r).value.registry locations r') :
    Loads c r (location :: locations) r'

namespace Compiler.Loads

variable {c : Compiler} {r r' s s' : Registry} {locations : List String}

/-- Documents that can be loaded into a registry make one registry of it. -/
theorem unique (h : c.Loads r locations s) (h' : c.Loads r locations s') : s = s' := by
  induction h with
  | nil => cases h'; rfl
  | cons _ _ ih =>
    cases h' with
    | cons _ later => exact ih later

end Compiler.Loads

namespace Context

variable {c : Context} {r r' : Registry} {cause : Error}

/-! ## Refreshing -/

/-- A refresh finds locations that can all be loaded into a new registry, and this is what they make
of it. -/
def Builds (c : Context) (r : Registry) : Prop :=
  ∃ locations, c.resolvedLocations.value = .ok locations ∧
    c.compiler.Loads c.newRegistry.value locations r

theorem Builds.unique (h : c.Builds r) (h' : c.Builds r') : r = r' := by
  obtain ⟨locations, hresolved, hloads⟩ := h
  obtain ⟨locations', hresolved', hloads'⟩ := h'
  obtain rfl := Except.ok.inj (hresolved.symm.trans hresolved')
  exact hloads.unique hloads'

/-- A call that changes a context. -/
inductive Call where
  | setLocation (text : String)
  | setLocations (texts : List String)
  | refresh
  | close

/-- The context after a call. -/
def Call.run (c : Context) : Call → Context
  | .setLocation text => c.setLocation text
  | .setLocations texts => c.setLocations texts
  | .refresh => c.refresh.value.context
  | .close => c.close.value.2

/-- The context after calls. -/
def run (c : Context) (calls : List Call) : Context := calls.foldl Call.run c

@[simp] theorem run_cons (c : Context) (call : Call) (calls : List Call) :
    c.run (call :: calls) = (call.run c).run calls := rfl

end Context

end Blueprint
