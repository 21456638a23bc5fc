import Mathlib.Data.List.Basic

/-!
# Traces in which each event is allowed by those before it

What must have happened before an event, and what must not, is a relation between the events before
it and the event. A trace is valid if each of its events is allowed at its place; traces are built
by appending, and the events of an appended part are judged with the whole trace before them
(`valid_append`).
-/

namespace Mipsorcu

namespace Trace

variable {ε : Type*} {Allowed : List ε → ε → Prop} {log events : List ε} {e : ε}

/-- Each event is allowed by the events before it. -/
def Valid (Allowed : List ε → ε → Prop) (log : List ε) : Prop :=
  ∀ before e after, log = before ++ e :: after → Allowed before e

/-- Events that are allowed wherever they stand. -/
theorem valid_of_forall (h : ∀ e ∈ log, ∀ before, Allowed before e) : Valid Allowed log := by
  rintro before e after rfl
  exact h e (List.mem_append_right _ List.mem_cons_self) before

theorem valid_nil : Valid Allowed [] :=
  valid_of_forall (List.forall_mem_nil _)

theorem valid_cons :
    Valid Allowed (e :: log) ↔ Allowed [] e ∧ Valid (fun before => Allowed (e :: before)) log := by
  constructor
  · intro h
    refine ⟨h [] e log rfl, fun before e' after hlog => h (e :: before) e' after ?_⟩
    rw [hlog, List.cons_append]
  · rintro ⟨hhead, htail⟩ before e' after hlog
    cases before with
    | nil =>
      obtain ⟨rfl, -⟩ := List.cons_eq_cons.mp hlog
      exact hhead
    | cons b before =>
      obtain ⟨rfl, hrest⟩ := List.cons_eq_cons.mp hlog
      exact htail before e' after hrest

/-- **A trace is extended** by events that are allowed after it. -/
theorem valid_append :
    Valid Allowed (log ++ events) ↔
      Valid Allowed log ∧ Valid (fun before => Allowed (log ++ before)) events := by
  induction log generalizing Allowed with
  | nil => exact ⟨fun h => ⟨valid_nil, h⟩, fun h => h.2⟩
  | cons a log ih =>
    rw [List.cons_append, valid_cons, valid_cons, ih, and_assoc]
    rfl

theorem valid_singleton : Valid Allowed [e] ↔ Allowed [] e := by
  rw [valid_cons]
  exact and_iff_left valid_nil

end Trace

end Mipsorcu
