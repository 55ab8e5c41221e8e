import CloudSession.Proofs.Session.Settings

/-!
# The source of the first rule

Where the rules for credentials say which one comes first, a session chooses the source of that rule.
-/

namespace CloudSession

namespace Circumstances

variable {c : Circumstances} {shared : SharedSettings} {rule : Rule}

/-! ## The first rule -/

/-- Some rule is the first one that applies. -/
theorem exists_isFirst (c : Circumstances) : ∃ rule, c.IsFirst rule := by
  classical
  have hsome : (Rule.all.find? fun rule => c.Applies rule).isSome := by
    rw [List.find?_isSome]
    exact ⟨.missing, by decide, decide_eq_true trivial⟩
  obtain ⟨rule, hrule⟩ := Option.isSome_iff_exists.mp hsome
  obtain ⟨happlies, before, after, hall, hbefore⟩ := List.find?_eq_some_iff_append.mp hrule
  refine ⟨rule, before, after, hall, by simpa using happlies, fun other hother => ?_⟩
  simpa using hbefore other hother

/-- No rule before the first one applies. -/
theorem IsFirst.not_applies (h : c.IsFirst rule) {other : Rule}
    (hother : other ∈ Rule.all.takeWhile (· ≠ rule)) : ¬c.Applies other := by
  obtain ⟨before, after, hall, -, hbefore⟩ := h
  have hnodup : (before ++ rule :: after).Nodup := by
    rw [← hall]
    decide
  have hnot : ∀ other ∈ before, decide (other ≠ rule) = true := by
    intro other hmem
    exact decide_eq_true ((List.nodup_append.mp hnodup).2.2 other hmem rule List.mem_cons_self)
  rw [hall, List.takeWhile_append_of_pos hnot, List.takeWhile_cons_of_neg (by simp),
    List.append_nil] at hother
  exact hbefore other hother

/-- The first rule that applies applies. -/
theorem IsFirst.applies (h : c.IsFirst rule) : c.Applies rule := by
  obtain ⟨_, _, -, happlies, -⟩ := h
  exact happlies

/-! ## The source -/

/-- The source of credentials, or why there is none. Credentials of the caller need no source. -/
def outcome (c : Circumstances) (shared : SharedSettings) :
    Except SessionError (Option CredentialsSource) :=
  if c.options.config.credentials.isSome then .ok none
  else
    some <$> (CredentialsSource.choose c.env c.files c.orders.alone c.options.tools c.environment
      shared).value

/-- A place has no API key to grant if its rule does not apply. -/
theorem grant?_eq_none_iff {place : KeyPlace} :
    c.grant? place = none ↔ ¬c.Applies (.apiKey place) := by
  rw [grant?, Option.map_eq_none_iff, Applies, Option.not_isSome_iff_eq_none]

/-- Without credentials of the caller, the first place that has an API key counts, else the
settings. -/
theorem outcome_of_not_given (h : ¬c.Applies .given) :
    c.outcome shared = match
      [KeyPlace.environment, .file .credentials, .file .config].findSome? fun place =>
        (c.grant? place).map (CredentialsSource.apiKey place.provider) with
      | some source => .ok (some source)
      | none => some <$> CredentialsSource.ofSettings c.options.tools c.environment shared := by
  replace h : ¬c.options.config.credentials.isSome = true := h
  rw [outcome, if_neg h, CredentialsSource.choose, EnvironmentSettings.load_profile,
    Logged.value_bind, CredentialsSource.apiKey?_value]
  generalize List.findSome? _ _ = first
  cases first <;> rfl

/-- The first API key is the source. -/
theorem outcome_of_apiKey {place : KeyPlace} {grant : ApiKeyGrant} (h : c.IsFirst (.apiKey place))
    (hgrant : c.grant? place = some grant) :
    c.outcome shared = .ok (some (.apiKey place.provider grant)) := by
  have hearlier (other : KeyPlace)
      (hother : .apiKey other ∈ Rule.all.takeWhile (· ≠ .apiKey place)) : c.grant? other = none :=
    grant?_eq_none_iff.mpr (h.not_applies hother)
  cases place with
  | environment =>
    rw [outcome_of_not_given (h.not_applies (by decide))]
    simp [hgrant]
  | file kind =>
    cases kind with
    | credentials =>
      rw [outcome_of_not_given (h.not_applies (by decide))]
      simp [hgrant, hearlier .environment (by decide)]
    | config =>
      rw [outcome_of_not_given (h.not_applies (by decide))]
      simp [hgrant, hearlier .environment (by decide), hearlier (.file .credentials) (by decide)]

/-- Where neither credentials of the caller nor an API key come first, the settings decide. -/
theorem outcome_of_settings (shared : SharedSettings) (h : c.IsFirst rule)
    (hrule : rule ∈ [Rule.named, .environmentKeys, .role, .profileKeys, .missing]) :
    c.outcome shared =
      some <$> CredentialsSource.ofSettings c.options.tools c.environment shared := by
  have hearlier : Rule.given ∈ Rule.all.takeWhile (· ≠ rule) ∧
      ∀ place, Rule.apiKey place ∈ Rule.all.takeWhile (· ≠ rule) := by
    revert hrule
    cases rule with
    | given => simp
    | apiKey place => simp
    | _ =>
      intro _
      refine ⟨by decide, fun place => ?_⟩
      rcases place with _ | (_ | _) <;> decide
  have hnone (place : KeyPlace) : c.grant? place = none :=
    grant?_eq_none_iff.mpr (h.not_applies (hearlier.2 place))
  rw [outcome_of_not_given (h.not_applies hearlier.1)]
  simp [hnone]

section Settings

variable (h : c.IsDescribedBy shared)

include h

/-- If no source is named that counts, none is looked at. -/
theorem named?_eq_none (hnamed : ¬c.Applies .named) :
    (shared.role.credentialSource.filter fun _ => c.environment.sharedConfig) = none := by
  rw [h.role, EnvironmentSettings.load_sharedConfig, roleSettings]
  cases hsource : c.property? "credential_source" with
  | none => rfl
  | some name =>
    have hdisabled : ¬c.IsSharedConfigEnabled := fun henabled => hnamed ⟨henabled, by simp [hsource]⟩
    simp [hdisabled]

omit h in
/-- If the rule of the keys in the environment does not apply, there are none that count. -/
theorem environment_keys_eq_none (hkeys : ¬c.Applies .environmentKeys) :
    c.environment.keys = none := by
  cases henvironment : c.environment.keys with
  | none => rfl
  | some keys => exact absurd ⟨keys, KeyPair.ofEnvironment?_eq_some_iff.mp henvironment⟩ hkeys

/-- If the rule of the role does not apply, no role is looked at. -/
theorem ofRole?_eq_none (hrole : ¬c.Applies .role) :
    ((CredentialsSource.ofRole? c.options.tools shared).filter fun _ =>
      c.environment.sharedConfig) = none := by
  rw [EnvironmentSettings.load_sharedConfig]
  by_cases henabled : c.IsSharedConfigEnabled
  · have hnone : c.property? "role_arn" = none ∨ c.property? "source_profile" = none := by
      rw [← Option.not_isSome_iff_eq_none, ← Option.not_isSome_iff_eq_none]
      exact Decidable.not_and_iff_or_not.mp fun hboth => hrole ⟨henabled, hboth⟩
    have hsource : CredentialsSource.ofRole? c.options.tools shared = none := by
      simp [CredentialsSource.ofRole?, h.noRoleSource hnone]
    rw [hsource]
    rfl
  · simp [henabled]

/-- A source that is named is the source. -/
theorem ofSettings_named {name : String} (henabled : c.IsSharedConfigEnabled)
    (hname : c.property? "credential_source" = some name) :
    CredentialsSource.ofSettings c.options.tools c.environment shared =
      CredentialsSource.named c.environment.keys c.roleSettings name := by
  have hsource : c.roleSettings.credentialSource = some name := hname
  simp [CredentialsSource.ofSettings, h.role, hsource, EnvironmentSettings.load_sharedConfig,
    henabled, Option.filter_some]

/-- If no source is named, the keys in the environment are the source. -/
theorem ofSettings_environmentKeys {keys : KeyPair} (hnamed : ¬c.Applies .named)
    (hkeys : c.AreInEnvironment keys) :
    CredentialsSource.ofSettings c.options.tools c.environment shared =
      .ok (.environmentKeys (some keys)) := by
  have henvironment : c.environment.keys = some keys := KeyPair.ofEnvironment?_eq_some_iff.mpr hkeys
  rw [CredentialsSource.ofSettings, named?_eq_none h hnamed, henvironment]

/-- If neither comes first, the role with the keys of its source profile is the source. -/
theorem ofSettings_role {roleArn profile : String} (hnamed : ¬c.Applies .named)
    (hkeys : ¬c.Applies .environmentKeys) (henabled : c.IsSharedConfigEnabled)
    (hrole : c.property? "role_arn" = some roleArn)
    (hprofile : c.property? "source_profile" = some profile) :
    ∃ keys, c.AreInProfile profile keys ∧
      CredentialsSource.ofSettings c.options.tools c.environment shared =
        CredentialsSource.ofRole c.options.tools c.roleSettings roleArn keys := by
  obtain ⟨keys, hsource, hprofileKeys⟩ := h.roleSource hrole hprofile
  refine ⟨keys, hprofileKeys, ?_⟩
  have hroleArn : c.roleSettings.roleArn = some roleArn := hrole
  rw [CredentialsSource.ofSettings, named?_eq_none h hnamed, environment_keys_eq_none hkeys]
  simp [CredentialsSource.ofRole?, h.role, hroleArn, hsource,
    EnvironmentSettings.load_sharedConfig, henabled, Option.filter_some]

/-- If no role applies either, the keys of the profile are the source, or there is none. -/
theorem ofSettings_of_not_role (hnamed : ¬c.Applies .named) (hkeys : ¬c.Applies .environmentKeys)
    (hrole : ¬c.Applies .role) :
    CredentialsSource.ofSettings c.options.tools c.environment shared =
      match shared.keys with
      | some keys => .ok (.sharedKeys keys)
      | none => .ok (.missing c.profile) := by
  cases hshared : shared.keys <;>
    simp only [CredentialsSource.ofSettings, named?_eq_none h hnamed,
      environment_keys_eq_none hkeys, ofRole?_eq_none h hrole, EnvironmentSettings.load_profile,
      hshared]

end Settings

end Circumstances

end CloudSession
