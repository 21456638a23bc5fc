import Mipsorcu.Foundation.Transition
import Mathlib.Logic.Function.Basic

/-!
# Tasks on a shared state

A program of concurrent tasks is given by what one task can do: from the shared state and its own
state an event leads to new ones, or is not possible. Tasks are interleaved at this granularity, and
there are as many of them as the index type has elements.

What holds of the shared state and of each task is proved for one task at a time: its action keeps
its own condition, and does not break the conditions of the others (`ok_of_step`). Where the
conditions only depend on what grows, the second part is free (`Ok.step_of_le`). A lock in the
shared state is held by one task at a time (`Exclusive.step`).
-/

namespace Mipsorcu

namespace Tasks

variable {ι σ τ ε : Type*}

/-- The shared state, and the state of each task. -/
structure State (ι σ τ : Type*) where
  shared : σ
  task : ι → τ

variable [DecidableEq ι]

/-- One task acts. -/
def step (act : σ → τ → ε → Option (σ × τ)) (s : State ι σ τ) (e : ι × ε) :
    Option (State ι σ τ) :=
  (act s.shared (s.task e.1) e.2).map fun next => ⟨next.1, Function.update s.task e.1 next.2⟩

/-- A condition on the shared state, and one on each task. -/
structure Ok (SharedOk : σ → Prop) (TaskOk : ι → σ → τ → Prop) (s : State ι σ τ) : Prop where
  shared : SharedOk s.shared
  task : ∀ t, TaskOk t s.shared (s.task t)

variable {act : σ → τ → ε → Option (σ × τ)} {s s' : State ι σ τ} {t : ι} {e : ε}

theorem step_of_act {next : σ × τ} (h : act s.shared (s.task t) e = some next) :
    step act s (t, e) = some ⟨next.1, Function.update s.task t next.2⟩ := by
  rw [step, h, Option.map_some]

/-- A task that has acted acts again. -/
theorem step_update_of_act {shared : σ} {task : ι → τ} {last : τ} {next : σ × τ}
    (h : act shared last e = some next) :
    step act ⟨shared, Function.update task t last⟩ (t, e) =
      some ⟨next.1, Function.update task t next.2⟩ := by
  have hact : act shared (Function.update task t last t) e = some next := by
    rw [Function.update_self, h]
  rw [step_of_act (s := ⟨shared, Function.update task t last⟩) hact, Function.update_idem]

theorem step_eq_some (h : step act s (t, e) = some s') :
    ∃ next, act s.shared (s.task t) e = some next ∧
      s' = ⟨next.1, Function.update s.task t next.2⟩ := by
  obtain ⟨next, hact, rfl⟩ := Option.map_eq_some_iff.mp h
  exact ⟨next, hact, rfl⟩

variable {SharedOk : σ → Prop} {TaskOk : ι → σ → τ → Prop}

/-- **One task at a time**: the action of a task keeps the conditions, if it does so for the shared
state and for the task itself, and leaves the conditions of the other tasks intact. -/
theorem ok_of_step (h : step act s (t, e) = some s')
    (hact : ∀ shared task, act s.shared (s.task t) e = some (shared, task) →
      SharedOk shared ∧ TaskOk t shared task ∧ ∀ u, u ≠ t → TaskOk u shared (s.task u)) :
    Ok SharedOk TaskOk s' := by
  obtain ⟨⟨shared, task⟩, hnext, rfl⟩ := step_eq_some h
  obtain ⟨hshared, htask, hothers⟩ := hact shared task hnext
  refine ⟨hshared, fun u => ?_⟩
  show TaskOk u shared (Function.update s.task t task u)
  by_cases hu : u = t
  · rw [hu, Function.update_self]
    exact htask
  · rw [Function.update_of_ne hu]
    exact hothers u hu

/-- The other tasks need no attention, if what their conditions say only grows. -/
theorem Ok.step_of_le {Le : σ → σ → Prop}
    (hmono : ∀ {u : ι} {a b : σ} {task : τ}, Le a b → TaskOk u a task → TaskOk u b task)
    (hok : Ok SharedOk TaskOk s) (h : Tasks.step act s (t, e) = some s')
    (hact : ∀ shared task, act s.shared (s.task t) e = some (shared, task) →
      Le s.shared shared ∧ SharedOk shared ∧ TaskOk t shared task) :
    Ok SharedOk TaskOk s' := by
  refine ok_of_step h fun shared task hnext => ?_
  obtain ⟨hle, hshared, htask⟩ := hact shared task hnext
  exact ⟨hshared, htask, fun u _ => hmono hle (hok.task u)⟩

/-! ### A lock -/

/-- Whoever holds the lock holds it alone. -/
structure Exclusive (holds : τ → Bool) (locked : σ → Bool) (s : State ι σ τ) : Prop where
  locked : ∀ t, holds (s.task t) = true → locked s.shared = true
  unique : ∀ t u, holds (s.task t) = true → holds (s.task u) = true → t = u

/-- What a task may do with a lock: leave it alone, take it while it is free, or release it. -/
inductive UsesLock (holds : τ → Bool) (locked : σ → Bool) (shared : σ) (task : τ) (shared' : σ)
    (task' : τ) : Prop
  | keeps (hlocked : locked shared' = locked shared) (hholds : holds task' = holds task)
  | takes (hfree : locked shared = false) (hlocked : locked shared' = true)
  | releases (hholds : holds task = true) (hreleased : holds task' = false)

/-- **Mutual exclusion**: it is kept by tasks that use the lock properly. -/
theorem Exclusive.step {holds : τ → Bool} {locked : σ → Bool} (hs : Exclusive holds locked s)
    (h : Tasks.step act s (t, e) = some s')
    (hact : ∀ shared task, act s.shared (s.task t) e = some (shared, task) →
      UsesLock holds locked s.shared (s.task t) shared task) : Exclusive holds locked s' := by
  obtain ⟨⟨shared, task⟩, hnext, rfl⟩ := step_eq_some h
  have hother : ∀ u, u ≠ t → Function.update s.task t task u = s.task u :=
    fun u hu => Function.update_of_ne hu _ _
  have hself : Function.update s.task t task t = task := Function.update_self _ _ _
  -- a holder other than `t` held the lock before
  have hholder : ∀ u, holds (Function.update s.task t task u) = true →
      (u = t ∧ holds task = true) ∨ (u ≠ t ∧ holds (s.task u) = true) := by
    intro u hu
    by_cases hut : u = t
    · rw [hut, hself] at hu
      exact .inl ⟨hut, hu⟩
    · rw [hother u hut] at hu
      exact .inr ⟨hut, hu⟩
  cases hact shared task hnext with
  | keeps hlocked hholds =>
    have hbefore : ∀ u, holds (Function.update s.task t task u) = true →
        holds (s.task u) = true := by
      intro u hu
      rcases hholder u hu with ⟨rfl, htask⟩ | ⟨-, hu⟩
      · exact hholds ▸ htask
      · exact hu
    exact ⟨fun u hu => hlocked.trans (hs.locked u (hbefore u hu)),
      fun u v hu hv => hs.unique u v (hbefore u hu) (hbefore v hv)⟩
  | takes hfree hlocked =>
    have honly : ∀ u, holds (Function.update s.task t task u) = true → u = t := by
      intro u hu
      rcases hholder u hu with ⟨rfl, -⟩ | ⟨-, hu⟩
      · rfl
      · exact absurd (hs.locked u hu) (by simp [hfree])
    exact ⟨fun _ _ => hlocked, fun u v hu hv => (honly u hu).trans (honly v hv).symm⟩
  | releases hholds hreleased =>
    have hnone : ∀ u, holds (Function.update s.task t task u) ≠ true := by
      intro u hu
      rcases hholder u hu with ⟨-, htask⟩ | ⟨hne, hu⟩
      · exact absurd htask (by simp [hreleased])
      · exact hne (hs.unique u t hu hholds)
    exact ⟨fun u hu => absurd hu (hnone u), fun u _ hu => absurd hu (hnone u)⟩

/-! ### A single task -/

/-- A system of one task. -/
def single (shared : σ) (task : τ) : State Unit σ τ :=
  ⟨shared, fun _ => task⟩

theorem step_single {shared shared' : σ} {task task' : τ}
    (h : act shared task e = some (shared', task')) :
    step act (single shared task) ((), e) = some (single shared' task') := by
  rw [step, single, h, Option.map_some, single]
  exact congrArg (fun f => some (State.mk shared' f)) (funext fun _ => Function.update_self _ _ _)

end Tasks

end Mipsorcu
