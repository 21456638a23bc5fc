import Mathlib.Data.List.Forall2
import Mathlib.Data.List.Induction

/-!
# Hash chains

A hash chain is a list of records, each of which names the hash of the record before it. The
two maps `prev` and `hash` say where a record keeps that name and what its own hash is.

`Linked.forall₂_of_length_eq` is the general form of tamper evidence: two chains of the same
length that end in the same hash agree record by record, as far as a hash determines a record.
-/

namespace Mipsorcu

namespace HashChain

variable {ε η : Type*} {prev hash : ε → η}

/-- `records` is a chain from the hash `start` to the hash `final`. -/
def Linked (prev hash : ε → η) (start : η) : List ε → η → Prop
  | [], final => start = final
  | e :: rest, final => prev e = start ∧ Linked prev hash (hash e) rest final

theorem linked_append {start final : η} {xs ys : List ε} :
    Linked prev hash start (xs ++ ys) final ↔
      ∃ mid, Linked prev hash start xs mid ∧ Linked prev hash mid ys final := by
  induction xs generalizing start with
  | nil => simp [Linked]
  | cons x xs ih => simp [Linked, ih, and_assoc]

theorem linked_concat {start final : η} {xs : List ε} {x : ε} :
    Linked prev hash start (xs ++ [x]) final ↔
      Linked prev hash start xs (prev x) ∧ hash x = final := by
  simp only [linked_append, Linked]
  constructor
  · rintro ⟨mid, hxs, rfl, rfl⟩; exact ⟨hxs, rfl⟩
  · rintro ⟨hxs, rfl⟩; exact ⟨_, hxs, rfl, rfl⟩

/-- **Tamper evidence**: two chains of the same length with the same final hash agree record by
record, in every respect `R` that an equal hash forces and that includes the name of the record
before. The starts need not agree. -/
theorem Linked.forall₂_of_length_eq {R : ε → ε → Prop} {start start' final : η} {xs ys : List ε}
    (hx : Linked prev hash start xs final) (hy : Linked prev hash start' ys final)
    (hlength : xs.length = ys.length)
    (hhash : ∀ x ∈ xs, ∀ y ∈ ys, hash x = hash y → R x y)
    (hprev : ∀ x y, R x y → prev x = prev y) : List.Forall₂ R xs ys := by
  -- from the last record backwards: equal hashes give `R`, and `R` gives the next equal hash
  induction xs using List.reverseRecOn generalizing ys final with
  | nil => rw [List.length_nil, eq_comm, List.length_eq_zero_iff] at hlength; simp [hlength]
  | append_singleton xs x ih =>
    obtain ⟨ys, y, rfl⟩ : ∃ init last, ys = init ++ [last] := by
      rcases List.eq_nil_or_concat ys with rfl | ⟨init, last, rfl⟩
      · simp at hlength
      · exact ⟨init, last, List.concat_eq_append⟩
    obtain ⟨hxs, hxfinal⟩ := linked_concat.mp hx
    obtain ⟨hys, hyfinal⟩ := linked_concat.mp hy
    have hxy : R x y := hhash x (by simp) y (by simp) (hxfinal.trans hyfinal.symm)
    rw [hprev x y hxy] at hxs
    have hinit : List.Forall₂ R xs ys :=
      ih hxs hys (by simpa using hlength)
        fun a ha b hb => hhash a (List.mem_append_left _ ha) b (List.mem_append_left _ hb)
    exact List.rel_append hinit (List.Forall₂.cons hxy .nil)

end HashChain

end Mipsorcu
