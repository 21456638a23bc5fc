import Mathlib.Data.List.Nodup

/-!
# Rows with unique keys

The rows of a table with a primary key are a list whose keys are pairwise distinct. Adding a row
with a new key keeps that, and what is asked by key is answered by the one row that has it.
-/

namespace Mipsorcu

namespace Keyed

variable {α β κ : Type*} {key : α → κ} {rows : List α} {a : α}

theorem nodup_concat (h : (rows.map key).Nodup) (hfresh : ∀ x ∈ rows, key x ≠ key a) :
    ((rows ++ [a]).map key).Nodup := by
  rw [List.map_append, List.map_singleton, ← List.concat_eq_append]
  refine h.concat fun hmem => ?_
  obtain ⟨x, hx, hxa⟩ := List.mem_map.mp hmem
  exact hfresh x hx hxa

theorem nodup_filter (h : (rows.map key).Nodup) (p : α → Bool) :
    ((rows.filter p).map key).Nodup :=
  h.sublist (List.Sublist.map _ List.filter_sublist)

/-- Changing the row of an identifier keeps a key unique if the new key is that of no other row. -/
theorem nodup_map_update {ι : Type*} {id : α → ι} {i : ι} {f : α → α}
    (hids : (rows.map id).Nodup) (h : (rows.map key).Nodup)
    (hkeep : ∀ x ∈ rows, id x ≠ i → f x = x)
    (hnew : ∀ x ∈ rows, id x = i → ∀ y ∈ rows, id y ≠ i → key y ≠ key (f x)) :
    ((rows.map f).map key).Nodup := by
  rw [List.map_map]
  refine List.Nodup.map_on (fun x hx y hy hkey => ?_) (h.of_map _)
  rw [Function.comp_apply, Function.comp_apply] at hkey
  by_cases hxi : id x = i <;> by_cases hyi : id y = i
  · exact List.inj_on_of_nodup_map hids hx hy (hxi.trans hyi.symm)
  · rw [hkeep y hy hyi] at hkey
    exact absurd hkey.symm (hnew x hx hxi y hy hyi)
  · rw [hkeep x hx hxi] at hkey
    exact absurd hkey (hnew y hy hyi x hx hxi)
  · rw [hkeep x hx hxi, hkeep y hy hyi] at hkey
    exact List.inj_on_of_nodup_map h hx hy hkey

theorem flatMap_eq (h : (rows.map key).Nodup) (ha : a ∈ rows) {f : α → List β}
    (hother : ∀ x ∈ rows, key x ≠ key a → f x = []) : rows.flatMap f = f a := by
  induction rows with
  | nil => cases ha
  | cons x rows ih =>
    obtain ⟨hx, hrows⟩ := List.nodup_cons.mp h
    have hrest : ∀ y ∈ rows, key y ≠ key x := fun y hy hkey => hx (hkey ▸ List.mem_map_of_mem hy)
    rw [List.flatMap_cons]
    rcases List.mem_cons.mp ha with rfl | ha
    · have hnil : rows.flatMap f = [] := List.flatMap_eq_nil_iff.mpr fun y hy =>
        hother y (List.mem_cons_of_mem _ hy) (hrest y hy)
      rw [hnil, List.append_nil]
    · rw [hother x List.mem_cons_self (hrest a ha).symm, List.nil_append]
      exact ih hrows ha fun y hy => hother y (List.mem_cons_of_mem _ hy)

theorem filter_eq (h : (rows.map key).Nodup) (ha : a ∈ rows) {p : α → Bool} (hp : p a = true)
    (hother : ∀ x ∈ rows, key x ≠ key a → p x = false) : rows.filter p = [a] := by
  have hflat : rows.filter p = rows.flatMap fun x => if p x then [x] else [] := by
    clear h ha hother
    induction rows with
    | nil => rfl
    | cons x rows ih =>
      rw [List.flatMap_cons, ← ih]
      cases hx : p x <;> simp [hx]
  rw [hflat, flatMap_eq h ha fun x hx hkey => by rw [hother x hx hkey]; rfl, hp]
  rfl

/-- Asking by the key of a row finds that row. -/
theorem find?_eq [DecidableEq κ] (h : (rows.map key).Nodup) (ha : a ∈ rows) :
    (rows.find? fun x => key x == key a) = some a := by
  cases hfind : rows.find? fun x => key x == key a with
  | none => simpa using List.find?_eq_none.mp hfind a ha
  | some x =>
    have hkey : key x = key a := by simpa using List.find?_some hfind
    rw [List.inj_on_of_nodup_map h (List.mem_of_find?_eq_some hfind) ha hkey]

/-- Of the rows with the key of a row, only that row counts. -/
theorem countP_key_and [DecidableEq κ] (h : (rows.map key).Nodup) (ha : a ∈ rows) (p : α → Bool) :
    rows.countP (fun x => key x == key a && p x) = if p a then 1 else 0 := by
  have hfilter : rows.filter (fun x => key x == key a) = [a] :=
    filter_eq h ha (beq_self_eq_true _) fun x _ hx => beq_eq_false_iff_ne.mpr hx
  have hand : rows.filter (fun x => key x == key a && p x) =
      (rows.filter fun x => key x == key a).filter p := by
    rw [List.filter_filter]
    exact List.filter_congr fun x _ => Bool.and_comm _ _
  rw [List.countP_eq_length_filter, hand, hfilter]
  cases hp : p a <;> simp [hp]

/-- The rows that share their key with one of some of the rows are those rows. -/
theorem filter_any_perm [DecidableEq κ] {sub : List α} (h : (rows.map key).Nodup)
    (hsub : sub ⊆ rows) (hnodup : sub.Nodup) :
    (rows.filter fun x => sub.any fun c => key c == key x).Perm sub := by
  refine (List.perm_ext_iff_of_nodup (h.of_map _ |>.filter _) hnodup).mpr fun x => ?_
  rw [List.mem_filter, List.any_eq_true]
  constructor
  · rintro ⟨hx, c, hc, hkey⟩
    rwa [← List.inj_on_of_nodup_map h (hsub hc) hx (beq_iff_eq.mp hkey)]
  · intro hx
    exact ⟨hsub hx, x, hx, beq_self_eq_true _⟩

end Keyed

end Mipsorcu
