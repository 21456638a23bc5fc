import Mipsorcu.Foundation.Bytes
import Mathlib.Data.List.Nodup

/-!
# Authenticated encryption

An `Aead` encrypts a message under a key, a nonce and associated data, and decrypts what was
encrypted under the same three. Encryption may refuse a message. Nothing is assumed about what
else decrypts: results that need a forgery to fail say so for the inputs that occur.
-/

namespace Mipsorcu

/-- Authenticated encryption with associated data. -/
structure Aead (Key Nonce : Type) (tagLength : ℕ) where
  encrypt : Key → Nonce → (associated message : List UInt8) → Option (List UInt8)
  decrypt : Key → Nonce → (associated cipher : List UInt8) → Option (List UInt8)
  decrypt_encrypt : ∀ {key nonce associated message cipher},
    encrypt key nonce associated message = some cipher →
      decrypt key nonce associated cipher = some message
  length_encrypt : ∀ {key nonce associated message cipher},
    encrypt key nonce associated message = some cipher → cipher.length = message.length + tagLength

namespace Aead

variable {Key Nonce : Type} {tagLength : ℕ}

/-- One encrypted message. -/
structure Sealing (Key Nonce : Type) where
  key : Key
  nonce : Nonce
  associated : List UInt8
  message : List UInt8
  cipher : List UInt8
  deriving DecidableEq

/-- The sealings say which message each of their texts opens to, and have tags of one length. -/
def IsTable (tagLength : ℕ) (table : List (Sealing Key Nonce)) : Prop :=
  (∀ s ∈ table, s.cipher.length = s.message.length + tagLength) ∧
    ∀ s ∈ table, ∀ t ∈ table, s.key = t.key → s.nonce = t.nonce → s.associated = t.associated →
      s.cipher = t.cipher → s.message = t.message

variable {table : List (Sealing Key Nonce)}

theorem isTable_iff :
    IsTable tagLength table ↔ (∀ s ∈ table, s.cipher.length = s.message.length + tagLength) ∧
      ∀ s ∈ table, ∀ t ∈ table, s.message = t.message ∨ s.cipher ≠ t.cipher ∨
        s.key ≠ t.key ∨ s.nonce ≠ t.nonce ∨ s.associated ≠ t.associated := by
  unfold IsTable
  refine and_congr_right fun _ => forall₂_congr fun s _ => forall₂_congr fun t _ => ?_
  tauto

-- The texts are compared first: sealings of one message, or with different texts, need no more.
instance [DecidableEq Key] [DecidableEq Nonce] (table : List (Sealing Key Nonce)) :
    Decidable (IsTable tagLength table) :=
  decidable_of_iff' _ isTable_iff

/-- The authenticated encryption known by a table of sealings: it refuses everything else. -/
def ofTable [DecidableEq Key] [DecidableEq Nonce] (table : List (Sealing Key Nonce))
    (h : IsTable tagLength table) : Aead Key Nonce tagLength where
  encrypt key nonce associated message :=
    (table.find? fun s => s.key = key ∧ s.nonce = nonce ∧ s.associated = associated ∧
      s.message = message).map Sealing.cipher
  decrypt key nonce associated cipher :=
    (table.find? fun s => s.key = key ∧ s.nonce = nonce ∧ s.associated = associated ∧
      s.cipher = cipher).map Sealing.message
  decrypt_encrypt {key nonce associated message cipher} hencrypt := by
    obtain ⟨s, hfind, rfl⟩ := Option.map_eq_some_iff.mp hencrypt
    have hs := List.mem_of_find?_eq_some hfind
    obtain ⟨rfl, rfl, rfl, rfl⟩ := by simpa using List.find?_some hfind
    obtain ⟨t, hfind'⟩ : ∃ t, table.find? (fun t => t.key = s.key ∧ t.nonce = s.nonce ∧
        t.associated = s.associated ∧ t.cipher = s.cipher) = some t := by
      refine Option.isSome_iff_exists.mp (List.find?_isSome.mpr ⟨s, hs, ?_⟩)
      simp
    have ht := List.mem_of_find?_eq_some hfind'
    obtain ⟨hk, hn, ha, hc⟩ := by simpa using List.find?_some hfind'
    rw [hfind', Option.map_some, h.2 t ht s hs hk hn ha hc]
  length_encrypt {key nonce associated message cipher} hencrypt := by
    obtain ⟨s, hfind, rfl⟩ := Option.map_eq_some_iff.mp hencrypt
    have hs := List.mem_of_find?_eq_some hfind
    obtain ⟨-, -, -, rfl⟩ := by simpa using List.find?_some hfind
    exact h.1 s hs

/-- With no nonce used twice under a key, a table encrypts as its sealings say. -/
theorem encrypt_ofTable [DecidableEq Key] [DecidableEq Nonce] (h : IsTable tagLength table)
    (hnonces : (table.map fun s => (s.key, s.nonce)).Nodup) {s : Sealing Key Nonce}
    (hs : s ∈ table) :
    (ofTable table h).encrypt s.key s.nonce s.associated s.message = some s.cipher := by
  obtain ⟨t, hfind⟩ : ∃ t, table.find? (fun t => t.key = s.key ∧ t.nonce = s.nonce ∧
      t.associated = s.associated ∧ t.message = s.message) = some t := by
    refine Option.isSome_iff_exists.mp (List.find?_isSome.mpr ⟨s, hs, ?_⟩)
    simp
  obtain ⟨hk, hn, -⟩ := by simpa using List.find?_some hfind
  obtain rfl : t = s := List.inj_on_of_nodup_map hnonces (List.mem_of_find?_eq_some hfind) hs
    (Prod.ext hk hn)
  exact Option.map_eq_some_iff.mpr ⟨t, hfind, rfl⟩

/-- Nothing opens but what is in the table. -/
theorem mem_of_decrypt_ofTable [DecidableEq Key] [DecidableEq Nonce] {h : IsTable tagLength table}
    {key : Key} {nonce : Nonce} {associated cipher message : List UInt8}
    (hdecrypt : (ofTable table h).decrypt key nonce associated cipher = some message) :
    ⟨key, nonce, associated, message, cipher⟩ ∈ table := by
  obtain ⟨s, hfind, rfl⟩ := Option.map_eq_some_iff.mp hdecrypt
  obtain ⟨rfl, rfl, rfl, rfl⟩ := by simpa using List.find?_some hfind
  exact List.mem_of_find?_eq_some hfind

end Aead

end Mipsorcu
