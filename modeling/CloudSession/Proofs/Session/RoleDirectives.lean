import CloudSession.Proofs.Session.Outcome
import CloudSession.Proofs.Table

/-!
# Directives for roles

A profile says by which role credentials are to be had. While the shared config file is disabled, and
where the caller or an API key comes first, this makes a difference in one way alone: a role whose
source profile has no keys fails the session when the profiles are loaded.
-/

namespace CloudSession

deriving instance DecidableEq for Profile.Entry, Profile.ProfileSet

/-- The properties of a profile that speak of a role. -/
def RoleSettings.properties : List String :=
  ["role_arn", "source_profile", "credential_source", "external_id", "mfa_serial",
    "role_session_name", "duration_seconds"]

namespace Circumstances

variable {c : Circumstances} {files : FileStore} {orders : Profile.Orders}

/-- It is on account of certificates that nothing sends requests. -/
theorem client_error {error : SessionError} (h : c.client = .error error) :
    ∃ fault, error = .caBundle fault := by
  have hbundle {other : SessionError} (h : c.options.bundle c.environment c.files = .error other) :
      ∃ fault, other = .caBundle fault := by
    unfold SessionOptions.bundle at h
    split at h
    · cases h
    · cases h
    · split at h
      · cases h
      · exact ⟨_, (Except.error.inj h).symm⟩
  have hgiven {bundle : Option (List UInt8)} {other : SessionError}
      (h : SessionOptions.client c.tls c.options.config.httpClient bundle = .error other) :
      ∃ fault, other = .caBundle fault := by
    unfold SessionOptions.client at h
    split at h
    · cases h
    · split at h
      · exact ⟨_, (Except.error.inj h).symm⟩
      · split at h
        · cases h
        · exact ⟨_, (Except.error.inj h).symm⟩
  cases hread : c.options.bundle c.environment c.files with
  | error other =>
    rw [client, hread] at h
    obtain rfl : other = error := Except.error.inj h
    exact hbundle hread
  | ok bundle =>
    rw [client, hread] at h
    exact hgiven h

/-- A role lacks its source under one name. -/
theorem LacksSource.unique {roleArn other : String} (h : c.LacksSource roleArn)
    (hother : c.LacksSource other) : roleArn = other :=
  Option.some.inj (h.1.symm.trans hother.1)

/-- While the shared config file is disabled, the settings of a role do not count. -/
theorem ofSettings_of_disabled (h : ¬c.IsSharedConfigEnabled) {shared other : SharedSettings}
    (hkeys : shared.keys = other.keys) :
    CredentialsSource.ofSettings c.options.tools c.environment shared =
      CredentialsSource.ofSettings c.options.tools c.environment other := by
  have hdisabled : c.environment.sharedConfig = false := by
    rw [EnvironmentSettings.load_sharedConfig, decide_eq_false h]
  simp [CredentialsSource.ofSettings, hdisabled, hkeys]

/-- An API key is found if the rule of some place applies. -/
theorem exists_applies_apiKey_iff : (∃ place, c.Applies (.apiKey place)) ↔ c.key?.isSome := by
  have happlies (place : KeyPlace) : c.Applies (.apiKey place) ↔ (c.grant? place).isSome := by
    rw [← Option.ne_none_iff_isSome, Ne, grant?_eq_none_iff, Classical.not_not]
  simp only [happlies, key?, List.isSome_findSome?, Option.isSome_map, List.any_eq_true]
  constructor
  · rintro ⟨place, hplace⟩
    refine ⟨place, ?_, hplace⟩
    rcases place with _ | (_ | _) <;> decide
  · rintro ⟨place, -, hplace⟩
    exact ⟨place, hplace⟩

/-- The first API key depends on the properties of the default files that are not about roles. -/
theorem key?_eq_of_properties
    (h : ∀ kind key, key ∉ RoleSettings.properties →
      c.propertyIn? kind key = (c.withFiles files orders).propertyIn? kind key) :
    c.key? = (c.withFiles files orders).key? := by
  have hgrant (place : KeyPlace) : c.grant? place = (c.withFiles files orders).grant? place := by
    cases place with
    | environment => rfl
    | file kind =>
      simp only [grant?, apiKeySettings, h kind "ibm_api_key_id" (by decide),
        h kind "ibm_service_instance_id" (by decide), h kind "ibm_auth_endpoint" (by decide)]
  simp only [key?, hgrant]

/-- What fails on account of a source profile is a role that lacks one. -/
theorem view_eq_roleSourceUnset_iff (policy : RefreshPolicy) (hload : c.merged.isSome)
    {client : HttpClient} (hclient : c.client = .ok client) {roleArn : String} :
    c.view policy = .error (.roleSourceUnset roleArn) ↔ c.LacksSource roleArn := by
  rcases settings_cases hload with ⟨other, hlacks, herror⟩ | ⟨hnone, shared, hshared, -, -⟩
  · rw [view_of_settings_error policy hclient herror]
    constructor
    · intro h
      obtain rfl := SessionError.roleSourceUnset.inj (Except.error.inj h)
      exact hlacks
    · intro h
      rw [h.unique hlacks]
  · have hprepared := arePrepared_iff.mpr ⟨⟨client, hclient⟩, hshared⟩
    exact iff_of_false (fun h => nomatch error_of_view hprepared h) (hnone roleArn)

/-- Once requests can be sent, certificates do not fail the session. -/
theorem view_ne_caBundle (policy : RefreshPolicy) (hload : c.merged.isSome)
    {client : HttpClient} (hclient : c.client = .ok client) (fault : CaBundleFault) :
    c.view policy ≠ .error (.caBundle fault) := by
  rcases settings_cases hload with ⟨other, -, herror⟩ | ⟨-, shared, hshared, -, -⟩
  · rw [view_of_settings_error policy hclient herror]
    nofun
  · have hprepared := arePrepared_iff.mpr ⟨⟨client, hclient⟩, hshared⟩
    exact fun h => nomatch error_of_view hprepared h

section Differing

variable {policy : RefreshPolicy} (hload : c.merged.isSome)
  (hother : (c.withFiles files orders).merged.isSome)

include hload hother

/-- The same outcome comes from the same certificates, roles and API keys. -/
theorem alike_of_view_eq (hview : c.view policy = (c.withFiles files orders).view policy) :
    (∃ error, c.client = .error error ∧ (c.withFiles files orders).client = .error error) ∨
      (∃ client other, c.client = .ok client ∧ (c.withFiles files orders).client = .ok other) ∧
        (∀ roleArn, c.LacksSource roleArn ↔ (c.withFiles files orders).LacksSource roleArn) ∧
        ((∃ roleArn, c.LacksSource roleArn) ∨ c.Applies .given ∨
          c.key? = (c.withFiles files orders).key?) := by
  cases hclient : c.client with
  | error error =>
    obtain ⟨fault, rfl⟩ := client_error hclient
    rw [view_of_client_error policy hclient] at hview
    cases hotherClient : (c.withFiles files orders).client with
    | error other =>
      rw [view_of_client_error policy hotherClient] at hview
      obtain rfl := Except.error.inj hview
      exact .inl ⟨_, rfl, rfl⟩
    | ok other => exact absurd hview.symm (view_ne_caBundle policy hother hotherClient fault)
  | ok client =>
    cases hotherClient : (c.withFiles files orders).client with
    | error other =>
      obtain ⟨fault, rfl⟩ := client_error hotherClient
      rw [view_of_client_error policy hotherClient] at hview
      exact absurd hview (view_ne_caBundle policy hload hclient fault)
    | ok other =>
      have hsource (roleArn : String) :
          c.LacksSource roleArn ↔ (c.withFiles files orders).LacksSource roleArn := by
        rw [← view_eq_roleSourceUnset_iff policy hload hclient, hview,
          view_eq_roleSourceUnset_iff policy hother hotherClient]
      refine .inr ⟨⟨client, other, rfl, rfl⟩, hsource, ?_⟩
      rcases settings_cases hload with ⟨roleArn, hlacks, -⟩ | ⟨hnone, shared, hshared, -, -⟩
      · exact .inl ⟨roleArn, hlacks⟩
      · rcases settings_cases hother with ⟨roleArn, hlacks, -⟩ | ⟨-, otherShared, hotherShared, -, -⟩
        · exact absurd ((hsource roleArn).mpr hlacks) (hnone roleArn)
        · by_cases hgiven : c.Applies .given
          · exact .inr (.inl hgiven)
          · exact .inr (.inr (key?_eq_of_view_eq (arePrepared_iff.mpr ⟨⟨client, hclient⟩, hshared⟩)
              (arePrepared_iff.mpr ⟨⟨other, hotherClient⟩, hotherShared⟩) hgiven hview))

/-- The same outcome comes of the same roles and API keys, where the settings of a role do not
count. -/
theorem view_eq_of_alike
    (hroles : ∀ profile key, key ∉ RoleSettings.properties →
      c.propertyOf? profile key = (c.withFiles files orders).propertyOf? profile key)
    (hignored : ¬c.IsSharedConfigEnabled ∨ c.Applies .given ∨ ∃ place, c.Applies (.apiKey place))
    (hclient : ∃ client other, c.client = .ok client ∧ (c.withFiles files orders).client = .ok other)
    (hsource : ∀ roleArn, c.LacksSource roleArn ↔ (c.withFiles files orders).LacksSource roleArn)
    (hkey : (∃ roleArn, c.LacksSource roleArn) ∨ c.Applies .given ∨
      c.key? = (c.withFiles files orders).key?) :
    c.view policy = (c.withFiles files orders).view policy := by
  obtain ⟨client, otherClient, hclient, hotherClient⟩ := hclient
  rcases settings_cases hload with ⟨roleArn, hlacks, -⟩ | ⟨hnone, shared, hshared, hregion, hkeys⟩
  · have hotherLacks := (hsource roleArn).mp hlacks
    rw [(view_eq_roleSourceUnset_iff policy hload hclient).mpr hlacks,
      (view_eq_roleSourceUnset_iff policy hother hotherClient).mpr hotherLacks]
  · rcases settings_cases hother with
      ⟨roleArn, hlacks, -⟩ | ⟨-, other, hotherShared, hotherRegion, hotherKeys⟩
    · exact absurd ((hsource roleArn).mpr hlacks) (hnone roleArn)
    · have hprepared := arePrepared_iff.mpr ⟨⟨client, hclient⟩, hshared⟩
      have hotherPrepared := arePrepared_iff.mpr ⟨⟨otherClient, hotherClient⟩, hotherShared⟩
      have hregions : shared.region = other.region := by
        rw [hregion, hotherRegion]
        exact hroles c.profile "region" (by decide)
      have hpairs : shared.keys = other.keys := by
        rw [hkeys, hotherKeys]
        simp only [keysOf?, hroles _ "aws_access_key_id" (by decide),
          hroles _ "aws_secret_access_key" (by decide), hroles _ "aws_session_token" (by decide)]
        rfl
      refine view_eq_of_outcome_eq policy hprepared hotherPrepared hregions (outcome_withFiles ?_)
      rcases hkey with ⟨roleArn, hlacks⟩ | hgiven | hkey
      · exact absurd hlacks (hnone roleArn)
      · exact .inl hgiven
      · rcases hignored with hdisabled | hgiven | hplace
        · exact .inr ⟨hkey, .inr (ofSettings_of_disabled hdisabled hpairs)⟩
        · exact .inl hgiven
        · exact .inr ⟨hkey, .inl (exists_applies_apiKey_iff.mp hplace)⟩

end Differing

/-- Profiles that differ in nothing but the properties of roles, loaded with the sections of files in
whatever orders, give the same outcome, where the shared config file is disabled or the caller or an
API key comes first, exactly if the same certificates fail it, or if the same roles lack a source
profile with keys and, unless such a role fails the session or the caller gives credentials, the first
API key is the same. It is the same if the default files differ in nothing else either. -/
theorem roleDirectives_iff (policy : RefreshPolicy) (c : Circumstances) (files : FileStore)
    (orders : Profile.Orders) (hload : c.merged.isSome)
    (hother : (c.withFiles files orders).merged.isSome)
    (hroles : ∀ profile key, key ∉ RoleSettings.properties →
      c.propertyOf? profile key = (c.withFiles files orders).propertyOf? profile key)
    (hignored : ¬c.IsSharedConfigEnabled ∨ c.Applies .given ∨
      ∃ place, c.Applies (.apiKey place)) :
    (c.view policy = (c.withFiles files orders).view policy ↔
      (∃ error, c.client = .error error ∧ (c.withFiles files orders).client = .error error) ∨
        (∃ client other, c.client = .ok client ∧ (c.withFiles files orders).client = .ok other) ∧
          (∀ roleArn, c.LacksSource roleArn ↔ (c.withFiles files orders).LacksSource roleArn) ∧
          ((∃ roleArn, c.LacksSource roleArn) ∨ c.Applies .given ∨
            c.key? = (c.withFiles files orders).key?)) ∧
      ((∀ kind key, key ∉ RoleSettings.properties →
          c.propertyIn? kind key = (c.withFiles files orders).propertyIn? kind key) →
        c.key? = (c.withFiles files orders).key?) := by
  refine ⟨⟨alike_of_view_eq hload hother, ?_⟩, key?_eq_of_properties⟩
  rintro (⟨error, hclient, hotherClient⟩ | ⟨hclient, hsource, hkey⟩)
  · rw [view_of_client_error policy hclient, view_of_client_error policy hotherClient]
  · exact view_eq_of_alike hload hother hroles hignored hclient hsource hkey

/-- A profile with keys, and with a role whose source profile is missing, while the shared config file
is disabled. -/
def roleWithoutSource : Circumstances where
  options := { sharedConfig := .disabled }
  world :=
    { environment := { entries := [("HOME", "/h")] }
      files :=
        { files :=
            [("/h/.aws/credentials",
                ("[default]\naws_access_key_id = a\naws_secret_access_key = b\n" ++
                  "role_arn = arn\nsource_profile = missing\n").toUTF8.toList)] } }

/-- The profile without the role. -/
def keysAlone : FileStore where
  files :=
    [("/h/.aws/credentials",
        "[default]\naws_access_key_id = a\naws_secret_access_key = b\n".toUTF8.toList)]

/-- What a file says that gives keys to the default profile, beside further properties. -/
private def keysAnd (properties : List (String × Profile.Property)) : Profile.ProfileSet where
  profiles :=
    ⟨[("default",
      { name := "default"
        stored := ⟨[("aws_access_key_id", ⟨"aws_access_key_id", "a"⟩),
          ("aws_secret_access_key", ⟨"aws_secret_access_key", "b"⟩)] ++ properties⟩ })]⟩

/-- What the files with a role are loaded as. -/
private theorem merged_roleWithoutSource : roleWithoutSource.merged = some
    (keysAnd [("role_arn", ⟨"role_arn", "arn"⟩),
      ("source_profile", ⟨"source_profile", "missing"⟩)]) := by
  decide +kernel

/-- What the files without a role are loaded as. -/
private theorem merged_keysAlone :
    (roleWithoutSource.withFiles keysAlone {}).merged = some (keysAnd []) := by
  decide +kernel

/-- Both say the same but for what roles are made of. -/
private theorem propertyOf?_roleWithoutSource (profile key : String)
    (hkey : key ∉ RoleSettings.properties) :
    roleWithoutSource.propertyOf? profile key =
      (roleWithoutSource.withFiles keysAlone {}).propertyOf? profile key := by
  have harn : "role_arn" ≠ key := fun h => hkey (h ▸ by decide)
  have hsource : "source_profile" ≠ key := fun h => hkey (h ▸ by decide)
  have hrole (arn source : Profile.Property) :
      Table.lookup key [("role_arn", arn), ("source_profile", source)] = none :=
    (if_neg harn).trans (if_neg hsource)
  rw [propertyOf?_of_merged merged_roleWithoutSource, propertyOf?_of_merged merged_keysAlone]
  by_cases hdefault : "default" = profile
  · subst hdefault
    change ((Table.lookup key (_ ++ [("role_arn", _), ("source_profile", _)])).map
      Profile.Property.value).filter _ = _
    rw [Table.lookup_append, hrole, Option.or_none]
    rfl
  · have habsent (properties : List (String × Profile.Property)) :
        (keysAnd properties).profile? profile = none := if_neg hdefault
    rw [habsent, habsent]

/-- Both files can be loaded and say the same but for a role that does not count, as shared settings
are disabled. Still, the outcomes differ. -/
theorem roleWithoutSource_differs :
    roleWithoutSource.merged.isSome ∧ (roleWithoutSource.withFiles keysAlone {}).merged.isSome ∧
      (∀ profile key, key ∉ RoleSettings.properties →
        roleWithoutSource.propertyOf? profile key =
          (roleWithoutSource.withFiles keysAlone {}).propertyOf? profile key) ∧
      ¬roleWithoutSource.IsSharedConfigEnabled ∧
      roleWithoutSource.view {} ≠ (roleWithoutSource.withFiles keysAlone {}).view {} := by
  have hload := Option.isSome_iff_exists.mpr ⟨_, merged_roleWithoutSource⟩
  have hother := Option.isSome_iff_exists.mpr ⟨_, merged_keysAlone⟩
  have hdisabled : ¬roleWithoutSource.IsSharedConfigEnabled := by decide
  refine ⟨hload, hother, propertyOf?_roleWithoutSource, hdisabled, fun hview => ?_⟩
  have hiff := (roleDirectives_iff {} roleWithoutSource keysAlone {} hload hother
    propertyOf?_roleWithoutSource (.inl hdisabled)).1
  have hlacks : roleWithoutSource.LacksSource "arn" := by
    refine ⟨?_, "missing", ?_, fun keys hmade => ?_⟩
    · exact propertyOf?_of_merged merged_roleWithoutSource "default" "role_arn"
    · exact propertyOf?_of_merged merged_roleWithoutSource "default" "source_profile"
    · have hnone : roleWithoutSource.propertyOf? "missing" "aws_access_key_id" = none :=
        propertyOf?_of_merged merged_roleWithoutSource _ _
      cases hnone.symm.trans hmade.accessKeyId
  rcases hiff.mp hview with ⟨error, herror, -⟩ | ⟨-, hsource, -⟩
  · cases herror
  · obtain ⟨harn, -⟩ := (hsource "arn").mp hlacks
    have hnone : (roleWithoutSource.withFiles keysAlone {}).property? "role_arn" = none :=
      propertyOf?_of_merged merged_keysAlone "default" "role_arn"
    cases hnone.symm.trans harn

end Circumstances

end CloudSession
