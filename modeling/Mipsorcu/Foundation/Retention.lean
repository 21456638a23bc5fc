import Mathlib.Data.List.Nodup
import Mathlib.Data.List.Sort

/-!
# Keeping the last records

A store that keeps the last `k` records of a history may be implemented in two ways that agree. The
specification is `keepLast k`, a suffix of the history, and it does not matter whether old records
are dropped after every new one or all at once (`keepLast_append`). The implementation ranks the
stored records by a key, largest first, and deletes by identifier whatever ranks below `k`
(`outranked`, `expire`); on records whose keys increase and whose identifiers differ it deletes
exactly the records that `keepLast k` drops (`expire_eq_keepLast`).
-/

namespace Mipsorcu

namespace Retention

variable {α β κ ι : Type*}

/-! ### The specification -/

/-- The last `k` records. -/
def keepLast (k : ℕ) (l : List α) : List α :=
  l.drop (l.length - k)

theorem length_keepLast (k : ℕ) (l : List α) : (keepLast k l).length = min l.length k := by
  rw [keepLast, List.length_drop]
  omega

theorem keepLast_sublist (k : ℕ) (l : List α) : (keepLast k l).Sublist l :=
  List.drop_sublist _ _

theorem map_keepLast (f : α → β) (k : ℕ) (l : List α) :
    (keepLast k l).map f = keepLast k (l.map f) := by
  rw [keepLast, keepLast, List.map_drop, List.length_map]

theorem getLast?_keepLast {k : ℕ} (hk : 0 < k) (l : List α) :
    (keepLast k l).getLast? = l.getLast? := by
  rw [keepLast, List.getLast?_drop]
  split_ifs with h
  · rw [List.length_eq_zero_iff.mp (by omega : l.length = 0)]
    rfl
  · rfl

/-- Records that were dropped before are dropped now. -/
theorem keepLast_append (k : ℕ) (l : List α) (a : α) :
    keepLast k (keepLast k l ++ [a]) = keepLast k (l ++ [a]) := by
  have hle : l.length - k ≤ l.length := Nat.sub_le _ _
  have happend : keepLast k l ++ [a] = (l ++ [a]).drop (l.length - k) :=
    (List.drop_append_of_le_length hle).symm
  rw [happend, keepLast, keepLast, List.drop_drop, List.length_drop, List.length_append,
    List.length_singleton]
  congr 1
  omega

/-- The numbers kept of `1, …, n`. -/
theorem mem_keepLast_range' {k n v : ℕ} :
    v ∈ keepLast k (List.range' 1 n) ↔ max 1 (n + 1 - k) ≤ v ∧ v ≤ n := by
  rw [keepLast, List.length_range', List.drop_range', List.mem_range'_1]
  omega

/-! ### The implementation -/

section Expire

variable [LinearOrder κ] [DecidableEq ι] (key : α → κ) (id : α → ι)

/-- The records below the `k` with the largest keys. -/
def outranked (k : ℕ) (l : List α) : List α :=
  (l.insertionSort fun a b => key b ≤ key a).drop k

/-- The records that are left when the outranked ones are deleted by their identifier. -/
def expire (k : ℕ) (l : List α) : List α :=
  l.filter fun a => !((outranked key k l).any fun c => id c == id a)

variable {key id}

/-- What is outranked does not depend on the order of the records, if their keys differ. -/
theorem outranked_eq_of_perm {k : ℕ} {l l' : List α} (h : l.Perm l') (hkeys : (l.map key).Nodup) :
    outranked key k l = outranked key k l' := by
  have hsort : (l.insertionSort fun a b => key b ≤ key a) =
      l'.insertionSort fun a b => key b ≤ key a := by
    refine List.Perm.eq_of_pairwise ?_ (List.pairwise_insertionSort _ l)
      (List.pairwise_insertionSort _ l') ((List.perm_insertionSort _ l).trans
        (h.trans (List.perm_insertionSort _ l').symm))
    intro a b ha hb hab hba
    exact List.inj_on_of_nodup_map hkeys ((List.mem_insertionSort _).mp ha)
      (h.mem_iff.mpr ((List.mem_insertionSort _).mp hb)) (le_antisymm hba hab)
  rw [outranked, outranked, hsort]

/-- Ranking commutes with a change of the records that keeps their keys. -/
theorem map_outranked (f : β → α) (k : ℕ) (l : List β) :
    (outranked (fun b => key (f b)) k l).map f = outranked key k (l.map f) := by
  rw [outranked, outranked, List.map_drop,
    List.map_insertionSort (fun a b => key (f b) ≤ key (f a)) (fun a b => key b ≤ key a) f l
      fun _ _ _ _ => Iff.rfl]

theorem outranked_eq {k : ℕ} {l : List α} (h : l.Pairwise fun a b => key a < key b) :
    outranked key k l = (l.take (l.length - k)).reverse := by
  have hkeys : (l.map key).Nodup := List.pairwise_map.mpr (h.imp ne_of_lt)
  have hreverse : l.reverse.Pairwise fun a b => key b ≤ key a :=
    List.pairwise_reverse.mpr (h.imp le_of_lt)
  rw [outranked_eq_of_perm l.reverse_perm.symm hkeys, outranked, hreverse.insertionSort_eq,
    List.drop_reverse]

theorem mem_outranked {k : ℕ} {l : List α} (h : l.Pairwise fun a b => key a < key b) {a : α} :
    a ∈ outranked key k l ↔ a ∈ l.take (l.length - k) := by
  rw [outranked_eq h, List.mem_reverse]

/-- Ranking and deleting keeps the last records. -/
theorem expire_eq_keepLast {k : ℕ} {l : List α} (h : l.Pairwise fun a b => key a < key b)
    (hid : (l.map id).Nodup) : expire key id k l = keepLast k l := by
  -- the list is cut where `keepLast` cuts it; all of the first part goes, all of the rest stays
  have hcut : l.take (l.length - k) ++ keepLast k l = l := List.take_append_drop _ _
  have hdisjoint : ∀ a ∈ l.take (l.length - k), ∀ b ∈ keepLast k l, id a ≠ id b := by
    rw [← hcut, List.map_append] at hid
    intro a ha b hb hab
    exact List.disjoint_of_nodup_append hid (List.mem_map_of_mem ha) (hab ▸ List.mem_map_of_mem hb)
  have hgone : (l.take (l.length - k)).filter
      (fun a => !((outranked key k l).any fun c => id c == id a)) = [] := by
    refine List.filter_eq_nil_iff.mpr fun a ha => ?_
    simpa using ⟨a, (mem_outranked h).mpr ha, rfl⟩
  have hstay : (keepLast k l).filter
      (fun a => !((outranked key k l).any fun c => id c == id a)) = keepLast k l := by
    refine List.filter_eq_self.mpr fun a ha => ?_
    simpa using fun c hc => hdisjoint c ((mem_outranked h).mp hc) a ha
  conv_lhs => rw [expire, ← hcut]
  rw [List.filter_append, hcut, hgone, hstay, List.nil_append]

end Expire

end Retention

end Mipsorcu
