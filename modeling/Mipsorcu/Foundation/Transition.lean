import Mipsorcu.Foundation.Keyed
import Mathlib.Logic.Relation

/-!
# Transition systems

A system is a state type with a partial step function on events. A state is reachable if some
sequence of events leads to it. The rules here are the two ways reachable states are reasoned
about: an invariant that every step keeps, and a simulation by an abstract system.

The abstract system of a store that only ever adds records is `Logs key`: a list of records with
distinct keys that grows at its end.
-/

namespace Mipsorcu

namespace Transition

variable {σ τ ε : Type*}

/-- Some event leads from `s` to `s'`. -/
def Step (step : σ → ε → Option σ) (s s' : σ) : Prop :=
  ∃ e, step s e = some s'

/-- Some event that meets the guard leads from `s` to `s'`. -/
def StepWhere (step : σ → ε → Option σ) (guard : σ → ε → Prop) (s s' : σ) : Prop :=
  ∃ e, guard s e ∧ step s e = some s'

/-- Some sequence of events leads from `s` to `s'`. -/
def Reachable (step : σ → ε → Option σ) : σ → σ → Prop :=
  Relation.ReflTransGen (Step step)

/-- Some sequence of events, each of which meets the guard when it happens, leads from `s` to
`s'`. -/
def ReachableWhere (step : σ → ε → Option σ) (guard : σ → ε → Prop) : σ → σ → Prop :=
  Relation.ReflTransGen (StepWhere step guard)

theorem ReachableWhere.reachable {step : σ → ε → Option σ} {guard : σ → ε → Prop} {s s' : σ}
    (h : ReachableWhere step guard s s') : Reachable step s s' :=
  Relation.ReflTransGen.mono (fun _ _ ⟨e, _, he⟩ => ⟨e, he⟩) _ _ h

theorem ReachableWhere.mono {step : σ → ε → Option σ} {guard guard' : σ → ε → Prop} {s s' : σ}
    (h : ReachableWhere step guard s s') (hguard : ∀ s e, guard s e → guard' s e) :
    ReachableWhere step guard' s s' :=
  Relation.ReflTransGen.mono (fun a _ ⟨e, hg, he⟩ => ⟨e, hguard a e hg, he⟩) _ _ h

/-- **Invariants**: what holds first and is kept by every step holds in every reachable state. -/
theorem invariant {step : σ → σ → Prop} (Inv : σ → Prop) {s s' : σ}
    (hstep : ∀ a b, Inv a → step a b → Inv b) (hinit : Inv s)
    (h : Relation.ReflTransGen step s s') : Inv s' := by
  induction h with
  | refl => exact hinit
  | tail _ hlast ih => exact hstep _ _ ih hlast

/-- **Simulation**: if every step of a related state is matched by some steps of the abstract
state, so is every run. -/
theorem simulation {step : σ → σ → Prop} {abstractStep : τ → τ → Prop} (R : σ → τ → Prop)
    (hstep : ∀ a x b, R a x → step a b → ∃ y, Relation.ReflTransGen abstractStep x y ∧ R b y)
    {s s' : σ} {t : τ} (hinit : R s t) (h : Relation.ReflTransGen step s s') :
    ∃ t', Relation.ReflTransGen abstractStep t t' ∧ R s' t' := by
  induction h with
  | refl => exact ⟨t, .refl, hinit⟩
  | tail _ hlast ih =>
    obtain ⟨x, htx, hx⟩ := ih
    obtain ⟨y, hxy, hy⟩ := hstep _ _ _ hx hlast
    exact ⟨y, htx.trans hxy, hy⟩

end Transition

/-! ### Append-only logs -/

namespace Logs

variable {α κ : Type*} {key : α → κ}

/-- One record with a new key is added at the end. -/
def Step (key : α → κ) (log log' : List α) : Prop :=
  ∃ r, key r ∉ log.map key ∧ log' = log ++ [r]

theorem step_concat {log : List α} {r : α} (hfresh : ∀ x ∈ log, key x ≠ key r) :
    Step key log (log ++ [r]) := by
  refine ⟨r, fun hmem => ?_, rfl⟩
  obtain ⟨x, hx, hkey⟩ := List.mem_map.mp hmem
  exact hfresh x hx hkey

/-- What was recorded stays where it is. -/
theorem isPrefix {log log' : List α} (h : Relation.ReflTransGen (Step key) log log') :
    log <+: log' := by
  induction h with
  | refl => exact List.prefix_rfl
  | tail _ hlast ih =>
    obtain ⟨r, -, rfl⟩ := hlast
    exact ih.trans (List.prefix_append _ _)

/-- The keys stay distinct. -/
theorem nodup_keys {log log' : List α} (h : Relation.ReflTransGen (Step key) log log')
    (hlog : (log.map key).Nodup) : (log'.map key).Nodup := by
  refine Transition.invariant (fun log => (log.map key).Nodup) ?_ hlog h
  rintro a _ ha ⟨r, hr, rfl⟩
  exact Keyed.nodup_concat ha fun x hx hkey => hr (hkey ▸ List.mem_map_of_mem hx)

end Logs

end Mipsorcu
