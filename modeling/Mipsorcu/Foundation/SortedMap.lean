import Mathlib.Data.List.Sort
import Mathlib.Data.List.Perm.Basic
import Mathlib.Order.Basic

/-!
# Maps as key-sorted association lists

A map with ordered keys is kept as the list of its entries in key order. `SortedMap.insert`
replaces the value of a key that is present; `SortedMap.ofList` inserts a list of entries one
after the other. The order in which the entries of a map arrive does not matter: `ofList` of
any permutation of a key-sorted list is that list (`ofList_eq_of_perm`).
-/

namespace Mipsorcu

namespace SortedMap

variable {κ β : Type*} [LinearOrder κ]

/-- The keys of the entries increase strictly. -/
def Sorted (entries : List (κ × β)) : Prop :=
  entries.Pairwise fun a b => a.1 < b.1

/-- Puts a value under a key, in place of the value that was there. -/
def insert (key : κ) (value : β) : List (κ × β) → List (κ × β)
  | [] => [(key, value)]
  | (k, v) :: rest =>
    if key < k then (key, value) :: (k, v) :: rest
    else if key = k then (key, value) :: rest
    else (k, v) :: insert key value rest

/-- The map of a list of entries, inserted from the first to the last. -/
def ofList (entries : List (κ × β)) : List (κ × β) :=
  entries.foldl (fun map entry => insert entry.1 entry.2 map) []

/-- The value under a key. -/
def get? (entries : List (κ × β)) (key : κ) : Option β :=
  (entries.find? fun entry => entry.1 = key).map Prod.snd

variable {entries : List (κ × β)} {key : κ} {value : β}

theorem mem_insert {entry : κ × β} (h : entry ∈ insert key value entries) :
    entry = (key, value) ∨ entry ∈ entries := by
  induction entries with
  | nil => simpa [insert] using h
  | cons head rest ih =>
    obtain ⟨k, v⟩ := head
    simp only [insert] at h
    split_ifs at h with hlt heq
    · simpa using h
    · rcases List.mem_cons.mp h with rfl | hrest
      · exact .inl rfl
      · exact .inr (List.mem_cons_of_mem _ hrest)
    · rcases List.mem_cons.mp h with rfl | hrest
      · exact .inr List.mem_cons_self
      · exact (ih hrest).imp_right (List.mem_cons_of_mem _)

theorem mem_insert_self (key : κ) (value : β) (entries : List (κ × β)) :
    (key, value) ∈ insert key value entries := by
  induction entries with
  | nil => exact List.mem_singleton_self _
  | cons entry rest ih =>
    rw [insert]
    split
    · exact List.mem_cons_self
    · split
      · exact List.mem_cons_self
      · exact List.mem_cons_of_mem _ ih

/-- The last value given for a key is the one that is kept. -/
theorem mem_ofList_concat (entries : List (κ × β)) (entry : κ × β) :
    entry ∈ ofList (entries ++ [entry]) := by
  rw [ofList, List.foldl_concat]
  exact mem_insert_self _ _ _

/-- The map has no entries but those of the list. -/
theorem mem_of_mem_ofList {entry : κ × β} (h : entry ∈ ofList entries) : entry ∈ entries := by
  have step : ∀ l acc : List (κ × β),
      entry ∈ l.foldl (fun map entry => insert entry.1 entry.2 map) acc →
      entry ∈ acc ∨ entry ∈ l := by
    intro l
    induction l with
    | nil => exact fun _ hmem => .inl hmem
    | cons head rest ih =>
      intro acc hmem
      rcases ih _ hmem with hacc | hrest
      · rcases mem_insert hacc with rfl | hold
        · exact .inr List.mem_cons_self
        · exact .inl hold
      · exact .inr (List.mem_cons_of_mem _ hrest)
  exact (step entries [] h).resolve_left List.not_mem_nil

theorem Sorted.insert (h : Sorted entries) (key : κ) (value : β) :
    Sorted (insert key value entries) := by
  induction entries with
  | nil => exact List.pairwise_singleton _ _
  | cons head rest ih =>
    obtain ⟨k, v⟩ := head
    obtain ⟨hhead, hrest⟩ := List.pairwise_cons.mp h
    simp only [SortedMap.insert]
    split_ifs with hlt heq
    · refine List.pairwise_cons.mpr ⟨fun entry hmem => ?_, h⟩
      rcases List.mem_cons.mp hmem with rfl | hmem
      · exact hlt
      · exact hlt.trans (hhead entry hmem)
    · subst heq
      exact List.pairwise_cons.mpr ⟨hhead, hrest⟩
    · refine List.pairwise_cons.mpr ⟨fun entry hmem => ?_, ih hrest⟩
      rcases mem_insert hmem with rfl | hmem
      · exact lt_of_le_of_ne (not_lt.mp hlt) (Ne.symm heq)
      · exact hhead entry hmem

/-- Inserting a new key adds one entry and keeps the others. -/
theorem insert_perm (value : β) (h : key ∉ entries.map Prod.fst) :
    (insert key value entries).Perm ((key, value) :: entries) := by
  induction entries with
  | nil => exact .rfl
  | cons head rest ih =>
    obtain ⟨k, v⟩ := head
    simp only [List.map_cons, List.mem_cons, not_or] at h
    simp only [insert, h.1, if_false]
    split_ifs
    · exact .rfl
    · exact ((ih h.2).cons _).trans (.swap _ _ _)

/-- Inserting the entries of a list whose keys are new and distinct adds exactly them. -/
private theorem foldl_insert_perm (entries acc : List (κ × β))
    (hnodup : ((acc ++ entries).map Prod.fst).Nodup) :
    (entries.foldl (fun map entry => insert entry.1 entry.2 map) acc).Perm (acc ++ entries) := by
  induction entries generalizing acc with
  | nil => simp
  | cons entry rest ih =>
    have hmid : ((acc ++ entry :: rest).map Prod.fst).Perm
        (((entry.1, entry.2) :: acc ++ rest).map Prod.fst) := by
      exact List.perm_middle.map _
    have hnodup' := hmid.nodup_iff.mp hnodup
    have hnew : entry.1 ∉ acc.map Prod.fst := by
      simp only [List.cons_append, List.map_cons, List.map_append, List.nodup_cons,
        List.mem_append, not_or] at hnodup'
      exact hnodup'.1.1
    have hins := insert_perm entry.2 hnew
    have hacc := (hins.append_right rest).map Prod.fst
    refine (ih _ (hacc.nodup_iff.mpr hnodup')).trans ?_
    exact (hins.append_right rest).trans List.perm_middle.symm

theorem ofList_perm (h : (entries.map Prod.fst).Nodup) : (ofList entries).Perm entries := by
  simpa [ofList] using foldl_insert_perm entries [] (by simpa using h)

theorem sorted_ofList (entries : List (κ × β)) : Sorted (ofList entries) := by
  have step : ∀ (l acc : List (κ × β)), Sorted acc →
      Sorted (l.foldl (fun map entry => insert entry.1 entry.2 map) acc) := by
    intro l
    induction l with
    | nil => exact fun _ h => h
    | cons entry rest ih => exact fun acc h => ih _ (h.insert entry.1 entry.2)
  exact step entries [] List.Pairwise.nil

theorem Sorted.nodup_keys (h : Sorted entries) : (entries.map Prod.fst).Nodup :=
  List.pairwise_map.mpr (h.imp fun hlt => hlt.ne)

theorem Sorted.nodup (h : Sorted entries) : entries.Nodup :=
  h.imp fun hlt heq => hlt.ne (congrArg Prod.fst heq)

/-- Two key-sorted lists with the same entries are the same list. -/
theorem Sorted.eq_of_perm {xs ys : List (κ × β)} (hx : Sorted xs) (hy : Sorted ys)
    (h : xs.Perm ys) : xs = ys :=
  h.eq_of_pairwise (fun _ _ _ _ hab hba => absurd hab hba.not_gt) hx hy

/-- **Arrival order is irrelevant**: the map of any permutation of a key-sorted list is that
list. -/
theorem ofList_eq_of_perm {entries sorted : List (κ × β)} (hs : Sorted sorted)
    (h : entries.Perm sorted) : ofList entries = sorted := by
  have hnodup : (entries.map Prod.fst).Nodup :=
    (h.map Prod.fst).nodup_iff.mpr hs.nodup_keys
  exact (sorted_ofList entries).eq_of_perm hs ((ofList_perm hnodup).trans h)

theorem ofList_eq_self (h : Sorted entries) : ofList entries = entries :=
  ofList_eq_of_perm h .rfl

/-! ### Lookup -/

theorem get?_eq_some (h : Sorted entries) :
    get? entries key = some value ↔ (key, value) ∈ entries := by
  induction entries with
  | nil => simp [get?]
  | cons head rest ih =>
    obtain ⟨k, v⟩ := head
    obtain ⟨hhead, hrest⟩ := List.pairwise_cons.mp h
    by_cases hk : k = key
    · subst hk
      have hnot : (k, value) ∉ rest := fun hmem => (hhead _ hmem).false
      simp [get?, hnot, eq_comm]
    · have hskip : get? ((k, v) :: rest) key = get? rest key := by
        simp [get?, hk]
      rw [hskip, ih hrest]
      simp [Ne.symm hk]

theorem get?_cons (k' k : κ) (v : β) (rest : List (κ × β)) :
    get? ((k', v) :: rest) k = if k' = k then some v else get? rest k := by
  by_cases h : k' = k <;> simp [get?, h]

theorem get?_insert (entries : List (κ × β)) (key k : κ) (value : β) :
    get? (insert key value entries) k = if key = k then some value else get? entries k := by
  induction entries with
  | nil => rw [insert, get?_cons]
  | cons head rest ih =>
    obtain ⟨k', v⟩ := head
    rw [insert]
    by_cases hlt : key < k'
    · rw [if_pos hlt, get?_cons]
    · by_cases heq : key = k'
      · subst heq
        rw [if_neg hlt, if_pos rfl, get?_cons, get?_cons]
        by_cases hk : key = k <;> simp [hk]
      · rw [if_neg hlt, if_neg heq, get?_cons, get?_cons, ih]
        by_cases hk : k' = k
        · rw [if_pos hk, if_pos hk, if_neg (fun h => heq (h.trans hk.symm))]
        · rw [if_neg hk, if_neg hk]

/-- Putting back the value a key has changes nothing. -/
theorem insert_of_get? (h : Sorted entries) (hget : get? entries key = some value) :
    insert key value entries = entries := by
  induction entries with
  | nil => cases hget
  | cons head rest ih =>
    obtain ⟨k, v⟩ := head
    obtain ⟨hhead, hrest⟩ := List.pairwise_cons.mp h
    rcases List.mem_cons.mp ((get?_eq_some h).mp hget) with heq | hmem
    · cases heq
      simp [insert]
    · have hlt : k < key := hhead _ hmem
      rw [insert, if_neg hlt.not_gt, if_neg hlt.ne', ih hrest ((get?_eq_some hrest).mpr hmem)]

/-- The map of entries with distinct keys holds what the list holds. -/
theorem get?_ofList (h : (entries.map Prod.fst).Nodup) (key : κ) :
    get? (ofList entries) key = get? entries key := by
  have step : ∀ (rest acc : List (κ × β)), (rest.map Prod.fst).Nodup →
      get? (rest.foldl (fun map entry => insert entry.1 entry.2 map) acc) key =
        (get? rest key).or (get? acc key) := by
    intro rest
    induction rest with
    | nil => intro acc _; rfl
    | cons entry rest ih =>
      intro acc hnodup
      obtain ⟨k, v⟩ := entry
      obtain ⟨hnew, hrest⟩ := List.nodup_cons.mp hnodup
      rw [List.foldl_cons, ih _ hrest, get?_insert, get?_cons]
      by_cases hk : k = key
      · -- the key does not occur again
        have hnone : get? rest key = none := by
          rw [get?, Option.map_eq_none_iff, List.find?_eq_none]
          intro e he hekey
          rw [decide_eq_true_eq] at hekey
          exact hnew (List.mem_map.mpr ⟨e, he, hekey.trans hk.symm⟩)
        rw [if_pos hk, if_pos hk, hnone]
        rfl
      · rw [if_neg hk, if_neg hk]
  exact (step entries [] h).trans Option.or_none

/-- Selecting, in the order of a sorted list of keys that covers the map, the entries of those
keys gives the map back. -/
theorem filterMap_get?_eq_self (h : Sorted entries) {keys : List κ} (hkeys : keys.Pairwise (· < ·))
    (hcover : ∀ entry ∈ entries, entry.1 ∈ keys) :
    (keys.filterMap fun key => (get? entries key).map (key, ·)) = entries := by
  have hsorted : Sorted (keys.filterMap fun key => (get? entries key).map (key, ·)) := by
    refine List.pairwise_filterMap.mpr (hkeys.imp fun {a b} hab x hx y hy => ?_)
    simp only [Option.map_eq_some_iff] at hx hy
    obtain ⟨-, -, rfl⟩ := hx
    obtain ⟨-, -, rfl⟩ := hy
    exact hab
  refine hsorted.eq_of_perm h ((List.perm_ext_iff_of_nodup hsorted.nodup h.nodup).mpr ?_)
  rintro ⟨key, value⟩
  simp only [List.mem_filterMap, Option.map_eq_some_iff, Prod.mk.injEq]
  constructor
  · rintro ⟨k, -, v, hv, rfl, rfl⟩
    exact (get?_eq_some h).mp hv
  · intro hmem
    exact ⟨key, hcover _ hmem, value, (get?_eq_some h).mpr hmem, rfl, rfl⟩

end SortedMap

end Mipsorcu
