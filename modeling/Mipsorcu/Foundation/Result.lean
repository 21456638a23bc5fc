import Mathlib.Data.List.Basic
import Mathlib.Data.List.Forall2

/-!
# Results of fallible steps

Inversion lemmas for `Except`: what it means that a chain of fallible steps, a check of every
element of a list, or a fallible map over a list succeeds.
-/

namespace Mipsorcu

variable {ε α β : Type}

namespace Result

/-- Succeeds on `true`, fails with the error otherwise. -/
def require (condition : Bool) (error : ε) : Except ε Unit :=
  if condition then .ok () else .error error

@[simp]
theorem require_eq_ok {condition : Bool} {error : ε} {u : Unit} :
    require condition error = .ok u ↔ condition = true := by
  cases condition <;> simp [require]

@[simp]
theorem require_true (error : ε) : require true error = .ok () := rfl

@[simp]
theorem ok_bind (a : α) (f : α → Except ε β) : ((.ok a : Except ε α) >>= f) = f a := rfl

@[simp]
theorem error_bind (e : ε) (f : α → Except ε β) :
    ((.error e : Except ε α) >>= f) = .error e := rfl

variable {ε' : Type}

@[simp]
theorem mapError_ok (f : ε → ε') (a : α) :
    (.ok a : Except ε α).mapError f = .ok a := rfl

variable {x : Except ε α} {f : α → Except ε β} {b : β}

@[simp]
theorem bind_eq_ok : (x >>= f) = .ok b ↔ ∃ a, x = .ok a ∧ f a = .ok b := by
  cases x <;> simp [bind, Except.bind]

@[simp]
theorem map_eq_ok {f : α → β} : (f <$> x) = .ok b ↔ ∃ a, x = .ok a ∧ f a = b := by
  cases x <;> simp [Functor.map, Except.map]

@[simp]
theorem pure_eq_ok {a b : α} : (pure a : Except ε α) = .ok b ↔ a = b := by
  simp [pure, Except.pure]

variable {a : α}

@[simp]
theorem mapError_eq_ok {f : ε → ε'} : x.mapError f = .ok a ↔ x = .ok a := by
  cases x <;> simp [Except.mapError]

theorem bind_eq_error {e : ε} :
    (x >>= f) = .error e ↔ x = .error e ∨ ∃ a, x = .ok a ∧ f a = .error e := by
  cases x <;> simp [bind, Except.bind]

theorem mapError_eq_error {f : ε → ε'} {e' : ε'} :
    x.mapError f = .error e' ↔ ∃ e, x = .error e ∧ f e = e' := by
  cases x <;> simp [Except.mapError]

theorem map_eq_error {f : α → β} {e : ε} : f <$> x = .error e ↔ x = .error e := by
  cases x <;> simp [Functor.map, Except.map]

theorem require_eq_error {b : Bool} {e e' : ε} :
    require b e = .error e' ↔ b = false ∧ e = e' := by
  cases b <;> simp [require]

theorem exists_error (h : ∀ a, x ≠ .ok a) : ∃ e, x = .error e := by
  cases x with
  | error e => exact ⟨e, rfl⟩
  | ok a => exact absurd rfl (h a)

/-- The value of an option, or the error. -/
def ofOption (error : ε) : Option α → Except ε α
  | some a => .ok a
  | none => .error error

@[simp]
theorem ofOption_some (error : ε) (a : α) : ofOption error (some a) = .ok a := rfl

@[simp]
theorem ofOption_eq_ok {error : ε} {x : Option α} : ofOption error x = .ok a ↔ x = some a := by
  cases x <;> simp [ofOption]

theorem toOption_eq_some : x.toOption = some a ↔ x = .ok a := by
  cases x <;> simp [Except.toOption]

/-! ### Lists -/

/-- Runs a check on every element, from the first to the last. -/
def forEach (check : α → Except ε Unit) : List α → Except ε Unit
  | [] => .ok ()
  | a :: rest => do
    check a
    forEach check rest

variable {items : List α}

theorem forEach_eq_ok {check : α → Except ε Unit} {u : Unit} :
    forEach check items = .ok u ↔ ∀ a ∈ items, check a = .ok () := by
  induction items with
  | nil => simp [forEach]
  | cons a items ih =>
    rw [forEach, bind_eq_ok, List.forall_mem_cons, ← ih]
    exact ⟨fun ⟨(), h, hrest⟩ => ⟨h, hrest⟩, fun ⟨h, hrest⟩ => ⟨(), h, hrest⟩⟩

/-- Maps a fallible function over a list, from the first to the last element. -/
def traverse (f : α → Except ε β) : List α → Except ε (List β)
  | [] => .ok []
  | a :: rest => do
    let b ← f a
    let bs ← traverse f rest
    pure (b :: bs)

variable {results : List β}

theorem traverse_eq_ok :
    traverse f items = .ok results ↔ List.Forall₂ (fun a b => f a = .ok b) items results := by
  induction items generalizing results with
  | nil => cases results <;> simp [traverse]
  | cons a items ih =>
    cases results with
    | nil => simp [traverse]
    | cons b results => simp [traverse, ih]

/-- A function that never fails on the items maps all of them. -/
theorem exists_traverse (h : ∀ a ∈ items, ∃ b, f a = .ok b) :
    ∃ results, traverse f items = .ok results := by
  induction items with
  | nil => exact ⟨[], rfl⟩
  | cons a items ih =>
    obtain ⟨⟨b, hb⟩, hitems⟩ := List.forall_mem_cons.mp h
    obtain ⟨results, hresults⟩ := ih hitems
    refine ⟨b :: results, ?_⟩
    rw [traverse, hb, ok_bind, hresults]
    rfl

theorem mem_traverse (h : traverse f items = .ok results) :
    b ∈ results ↔ ∃ a ∈ items, f a = .ok b := by
  induction traverse_eq_ok.mp h with
  | nil => simp
  | cons hab _ ih =>
    rename_i a b' items results hrest
    rw [List.mem_cons, ih (traverse_eq_ok.mpr hrest)]
    constructor
    · rintro (rfl | ⟨a', ha', hb⟩)
      · exact ⟨a, List.mem_cons_self, hab⟩
      · exact ⟨a', List.mem_cons_of_mem a ha', hb⟩
    · rintro ⟨a', ha', hb⟩
      rcases List.mem_cons.mp ha' with rfl | hmem
      · exact .inl (Except.ok.inj (hb.symm.trans hab))
      · exact .inr ⟨a', hmem, hb⟩

/-- What the function keeps of each item is kept of the list. -/
theorem map_traverse {γ : Type} {g : α → γ} {g' : β → γ} (hkeeps : ∀ a b, f a = .ok b → g' b = g a)
    (h : traverse f items = .ok results) : results.map g' = items.map g := by
  induction traverse_eq_ok.mp h with
  | nil => rfl
  | cons hab hrest ih =>
    rw [List.map_cons, List.map_cons, hkeeps _ _ hab, ih (traverse_eq_ok.mpr hrest)]

end Result

end Mipsorcu
