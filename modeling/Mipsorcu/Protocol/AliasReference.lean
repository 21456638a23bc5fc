import Mipsorcu.Protocol.SecretAlias

/-!
# Requests that name an alias

A decrypt or rotate request names its secret by a text. The text is read as a reference first and
resolved then, and what reads as an identifier is one, whatever aliases exist. An alias may be
spelled like an identifier: nothing refuses it when it is created. So an alias that was created can
be used as a reference exactly if it does not spell a UUID of version 4
(`created_alias_usable_iff`); one that does names the secret with that identifier instead.
-/

namespace Mipsorcu

open Sql

section Reference

variable (cipher : XChaCha20Poly1305) (hmac : HmacSha3) (keys : AliasKeys) (pg : PostgresSession)

/-- The secret of a request that names it by a text: `parse_secret_ref`, then
`resolve_secret_ref`. -/
def AliasState.resolveText (s : AliasState) (text : String) (owner : OwnerUserId) :
    Option SecretId :=
  match SecretRef.parse text with
  | .ok secretRef => (s.resolve cipher hmac keys pg secretRef owner).toOption
  | .error _ => none

/-- The alias can be used as a reference: it is read as an alias, and as long as it is bound to the
secret, every request of the owner that names it gets the secret. -/
structure AliasUsable (s : AliasState) (owner : OwnerUserId) (secretId : SecretId)
    (a : NormalizedAlias) : Prop where
  parses : SecretRef.parse a.text = .ok (.byAlias a)
  resolves : ∀ s', AliasState.Run cipher hmac keys pg s s' → IsBound s'.history owner secretId a →
    s'.resolveText cipher hmac keys pg a.text owner = some secretId

variable {cipher hmac keys pg} {s s' : AliasState}

/-- **An alias that was created can be used as a reference exactly if it does not spell a UUID of
version 4.** -/
theorem created_alias_usable_iff {db : SecretDb} (hkeys : db.PrimaryKeys)
    (hnone : db.secretAliases = []) (hrun : AliasState.Run cipher hmac keys pg (.init db) s)
    {answer : Except SupabaseRpcError (List SecretVersionReadRow)} {draws : AliasDraws}
    {requestId : RequestId} {claims : VerifiedJwtClaims} {secretId : SecretId}
    {a : NormalizedAlias}
    (hcreates : s.Creates cipher hmac keys pg answer draws requestId claims secretId a s') :
    AliasUsable cipher hmac keys pg s' claims.subjectUserId secretId a ↔
      ¬SpellsUuidV4 a.text.toList := by
  constructor
  · intro husable
    exact (SecretRef.parse_alias_iff a).mp husable.parses
  · intro hspells
    have hparse := (SecretRef.parse_alias_iff a).mpr hspells
    refine ⟨hparse, fun s'' hlater hbound => ?_⟩
    have hinv : AliasInv cipher hmac keys s'' :=
      .of_run hkeys hnone ((hrun.tail ⟨_, hcreates.step⟩).trans hlater)
    rw [AliasState.resolveText, hparse]
    exact Result.toOption_eq_some.mpr (hinv.resolve_eq_ok.mpr hbound)

end Reference

/-- The database accepts the alias that is spelled like an identifier. -/
theorem creates_sampleUuidAlias :
    ∃ s, (AliasState.init sampleAliasStore).Creates sampleAliasCipher sampleHmac sampleAliasKeys
      sampleSession (.ok sampleAliasAnswer) (sampleAliasDraws 14) ⟨sampleUuid 9⟩ ⟨sampleOwner⟩
      sampleSecretId sampleUuidAlias s := by
  have hpost : (postCreateSecretAlias sampleSession (sampleUuid 30) sampleAliasStore
      (buildCreateParams ⟨sampleUuid 9⟩
        (samplePreparedAlias 14 sampleUuidAlias sampleUuidAliasCiphertext)
        sampleWriteEntry.sourceEventAt)).toOption.isSome = true := by decide +kernel
  obtain ⟨⟨db, id⟩, hpost⟩ := Option.isSome_iff_exists.mp hpost
  exact ⟨_, _, db, id,
    prepareCreateSecretAlias_sample (List.mem_cons_of_mem _ (List.mem_singleton_self _)),
    Result.toOption_eq_some.mp hpost, rfl⟩

/-- The other secret of the owner. -/
def sampleOtherSecretId : SecretId :=
  ⟨sampleUuid 3, version_sampleUuid 3⟩

/-- An instance: the sample alias can be used. -/
theorem created_alias_usable_sampleAlias :
    ∃ s, (AliasState.init sampleAliasStore).Creates sampleAliasCipher sampleHmac sampleAliasKeys
        sampleSession (.ok sampleAliasAnswer) (sampleAliasDraws 12) ⟨sampleUuid 9⟩ ⟨sampleOwner⟩
        sampleSecretId sampleAlias s ∧
      AliasUsable sampleAliasCipher sampleHmac sampleAliasKeys sampleSession s sampleOwner
        sampleSecretId sampleAlias := by
  obtain ⟨s, hcreates⟩ := creates_sampleAlias
  refine ⟨s, hcreates, ?_⟩
  refine (created_alias_usable_iff primaryKeys_sampleAliasStore rfl .refl hcreates).mpr ?_
  rw [← SecretRef.parse_alias_iff]
  decide +kernel

/-- An alias for one secret that is spelled like the identifier of another is created, and a request
that names it gets the other secret. -/
theorem created_alias_names_other_secret :
    NormalizedAlias.parse "00000000-0000-4000-8000-000000000003" = .ok sampleUuidAlias ∧
    ∃ s, (AliasState.init sampleAliasStore).Creates sampleAliasCipher sampleHmac sampleAliasKeys
        sampleSession (.ok sampleAliasAnswer) (sampleAliasDraws 14) ⟨sampleUuid 9⟩ ⟨sampleOwner⟩
        sampleSecretId sampleUuidAlias s ∧
      IsBound s.history sampleOwner sampleSecretId sampleUuidAlias ∧
      SecretRef.parse sampleUuidAlias.text = .ok (.byId sampleOtherSecretId) ∧
      s.resolveText sampleAliasCipher sampleHmac sampleAliasKeys sampleSession
        sampleUuidAlias.text sampleOwner = some sampleOtherSecretId ∧
      sampleOtherSecretId ≠ sampleSecretId := by
  obtain ⟨s, hcreates⟩ := creates_sampleUuidAlias
  have hparse : SecretRef.parse sampleUuidAlias.text = .ok (.byId sampleOtherSecretId) := by
    decide +kernel
  refine ⟨by decide +kernel, s, hcreates, hcreates.isBound, hparse, ?_, by decide +kernel⟩
  rw [AliasState.resolveText, hparse]
  rfl

end Mipsorcu
