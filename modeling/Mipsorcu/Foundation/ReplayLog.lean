import Mipsorcu.Foundation.SortedMap

/-!
# Logs that are replayed

Records are only ever added at the end of a log, and the last record of a key decides. A reader
replays the log into a map and keeps the records that are still pending. What it returns is
described without the map: a record is pending if it is the last one of its key and says so
(`mem_pending`).
-/

namespace Mipsorcu

namespace ReplayLog

variable {κ ρ : Type*} [LinearOrder κ] {key : ρ → κ} {isPending : ρ → Bool} {log : List ρ}

/-- The last record of a key. -/
def last? (key : ρ → κ) (log : List ρ) (k : κ) : Option ρ :=
  log.reverse.find? fun r => key r = k

/-- The records of the log by their keys, each one in place of the one before. -/
def states (key : ρ → κ) (log : List ρ) : List (κ × ρ) :=
  SortedMap.ofList (log.map fun r => (key r, r))

/-- The pending records, in the order of their keys. -/
def pending (key : ρ → κ) (isPending : ρ → Bool) (log : List ρ) : List ρ :=
  ((states key log).map Prod.snd).filter isPending

@[simp]
theorem last?_nil (k : κ) : last? key [] k = none :=
  rfl

theorem last?_concat (log : List ρ) (r : ρ) (k : κ) :
    last? key (log ++ [r]) k = if key r = k then some r else last? key log k := by
  rw [last?, List.reverse_concat, List.find?_cons]
  by_cases h : key r = k <;> simp [h, last?]

theorem last?_append (log more : List ρ) (k : κ) :
    last? key (log ++ more) k = (last? key more k).or (last? key log k) := by
  rw [last?, List.reverse_append, List.find?_append]
  rfl

theorem key_of_last? {k : κ} {r : ρ} (h : last? key log k = some r) : key r = k := by
  simpa using List.find?_some h

theorem mem_of_last? {k : κ} {r : ρ} (h : last? key log k = some r) : r ∈ log :=
  List.mem_reverse.mp (List.mem_of_find?_eq_some h)

/-- A key that occurs has a last record. -/
theorem exists_last? {r : ρ} (h : r ∈ log) : ∃ r', last? key log (key r) = some r' := by
  refine Option.isSome_iff_exists.mp (List.find?_isSome.mpr ⟨r, List.mem_reverse.mpr h, ?_⟩)
  exact decide_eq_true rfl

/-- The map holds the last record of each key. -/
theorem get?_states (log : List ρ) (k : κ) :
    SortedMap.get? (states key log) k = last? key log k := by
  have step : ∀ (rest : List ρ) (acc : List (κ × ρ)),
      SortedMap.get? ((rest.map fun r => (key r, r)).foldl
        (fun map entry => SortedMap.insert entry.1 entry.2 map) acc) k =
        (last? key rest k).or (SortedMap.get? acc k) := by
    intro rest
    induction rest with
    | nil => intro acc; rfl
    | cons r rest ih =>
      intro acc
      rw [List.map_cons, List.foldl_cons, ih, SortedMap.get?_insert]
      simp only [last?, List.reverse_cons, List.find?_append, List.find?_singleton]
      by_cases h : key r = k
      · cases rest.reverse.find? (fun r => key r = k) <;> simp [h]
      · cases rest.reverse.find? (fun r => key r = k) <;> simp [h]
  exact (step log []).trans (Option.or_none)

theorem sorted_states (log : List ρ) : SortedMap.Sorted (states key log) :=
  SortedMap.sorted_ofList _

theorem mem_states {entry : κ × ρ} :
    entry ∈ states key log ↔ last? key log entry.1 = some entry.2 := by
  rw [← get?_states, SortedMap.get?_eq_some (sorted_states log)]

/-- **What is pending**: the records that are the last ones of their keys and say so. -/
theorem mem_pending {r : ρ} :
    r ∈ pending key isPending log ↔ isPending r = true ∧ last? key log (key r) = some r := by
  simp only [pending, List.mem_filter, List.mem_map]
  constructor
  · rintro ⟨⟨entry, hentry, rfl⟩, hpending⟩
    have hlast := mem_states.mp hentry
    rw [key_of_last? hlast]
    exact ⟨hpending, hlast⟩
  · rintro ⟨hpending, hlast⟩
    exact ⟨⟨(key r, r), mem_states.mpr hlast, rfl⟩, hpending⟩

/-- The keys of the pending records increase, so each one occurs once. -/
theorem pending_sorted : ((pending key isPending log).map key).Pairwise (· < ·) := by
  have hkeys : ∀ entry ∈ states key log, key entry.2 = entry.1 :=
    fun entry hentry => key_of_last? (mem_states.mp hentry)
  have hmap : ((states key log).map Prod.snd).map key = (states key log).map Prod.fst := by
    rw [List.map_map]
    exact List.map_congr_left hkeys
  have hsorted : (((states key log).map Prod.snd).map key).Pairwise (· < ·) := by
    rw [hmap]
    exact List.pairwise_map.mpr (sorted_states log)
  exact hsorted.sublist (List.filter_sublist.map key)

end ReplayLog

end Mipsorcu
