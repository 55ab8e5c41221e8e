import CloudSession.Proofs.Profile.Merged
import CloudSession.Proofs.Session.Rules

/-!
# Settings and rules

The settings that a session reads from the environment, from the profiles and from the places of API
keys say what the rules for credentials speak about.
-/

namespace CloudSession

namespace Circumstances

variable (c : Circumstances)

/-- The API key of a place, ready for use. -/
def grant? (place : KeyPlace) : Option ApiKeyGrant :=
  (c.apiKeySettings place).apiKey.map fun apiKey =>
    { issuer := { apiKey, endpoint := Iam.endpointOrDefault (c.apiKeySettings place).authEndpoint }
      serviceInstance := (c.apiKeySettings place).serviceInstance }

end Circumstances

/-! ## The environment -/

namespace Environment

/-- What is looked up as not empty is not empty. -/
theorem getNonEmpty?_ne_empty {env : Environment} {name value : String}
    (h : env.getNonEmpty? name = some value) : value ≠ "" := by
  have hfilter := (Option.filter_eq_some_iff.mp h).2
  simpa using hfilter

/-- The first value that is not empty is not empty. -/
theorem firstNonEmpty_ne_empty {env : Environment} {names : List String} {value : String}
    (h : env.firstNonEmpty names = some value) : value ≠ "" := by
  obtain ⟨before, name, after, -, hname, -⟩ := List.findSome?_eq_some_iff.mp h
  exact getNonEmpty?_ne_empty hname

end Environment

/-- A text that is not empty is not dropped for being empty. -/
theorem filter_ne_empty_eq_self {text : Option String}
    (h : ∀ value, text = some value → value ≠ "") : text.filter (· ≠ "") = text := by
  cases text with
  | none => rfl
  | some value => simp [h value rfl]

namespace KeyPair

/-- A pair is read from three texts, of which none is empty, exactly if it is made of them. -/
theorem ofParts?_eq_some_iff {accessKeyId secretAccessKey sessionToken : Option String}
    {keys : KeyPair} (hid : ∀ value, accessKeyId = some value → value ≠ "")
    (hsecret : ∀ value, secretAccessKey = some value → value ≠ "")
    (htoken : ∀ value, sessionToken = some value → value ≠ "") :
    ofParts? accessKeyId secretAccessKey sessionToken = some keys ↔
      keys.IsMadeOf accessKeyId secretAccessKey sessionToken := by
  unfold ofParts?
  rw [filter_ne_empty_eq_self hid, filter_ne_empty_eq_self hsecret,
    filter_ne_empty_eq_self htoken]
  constructor
  · intro h
    cases accessKeyId with
    | none => simp at h
    | some accessKeyId =>
      cases secretAccessKey with
      | none => simp at h
      | some secretAccessKey =>
        obtain rfl : _ = keys := by simpa using h
        exact ⟨rfl, rfl, rfl⟩
  · rintro ⟨rfl, rfl, rfl⟩
    rfl

/-- The keys that are found in the environment are those in it. -/
theorem ofEnvironment?_eq_some_iff {c : Circumstances} {keys : KeyPair} :
    ofEnvironment? c.env = some keys ↔ c.AreInEnvironment keys :=
  ofParts?_eq_some_iff (fun _ => Environment.firstNonEmpty_ne_empty)
    (fun _ => Environment.firstNonEmpty_ne_empty) (fun _ => Environment.firstNonEmpty_ne_empty)

end KeyPair

namespace EnvironmentSettings

variable {c : Circumstances}

/-- There are six ways to write true. -/
theorem boolean?_eq_true_iff {value : String} :
    boolean? value = some true ↔ value ∈ ["1", "t", "T", "true", "TRUE", "True"] := by
  unfold boolean?
  by_cases hon : value ∈ ["1", "t", "T", "true", "TRUE", "True"]
  · rw [if_pos hon, iff_true_right hon]
  · rw [if_neg hon, iff_false_right hon]
    split <;> simp

/-- The switch counts if it is set to a truth value. -/
theorem switched_value (env : Environment) :
    (switched env).value = ((env.get? switch).bind boolean?).getD false := by
  unfold switched
  cases env.get? switch with
  | none => rfl
  | some value => cases h : boolean? value <;> simp [h]

/-- The switch is on if it is set to one of the six ways to write true. -/
theorem switched_iff (env : Environment) :
    (switched env).value = true ↔
      ∃ value ∈ ["1", "t", "T", "true", "TRUE", "True"],
        env.get? "AWS_SDK_LOAD_CONFIG" = some value := by
  rw [switched_value, switch]
  cases env.get? "AWS_SDK_LOAD_CONFIG" with
  | none => simp
  | some value =>
    have hvalue : (boolean? value).getD false = true ↔ boolean? value = some true := by
      cases boolean? value <;> simp
    rw [Option.bind_some, hvalue, boolean?_eq_true_iff]
    constructor
    · intro hmem
      exact ⟨value, hmem, rfl⟩
    · rintro ⟨on, hmem, heq⟩
      exact Option.some.inj heq ▸ hmem

/-- Shared settings are enabled if they should be. -/
theorem isEnabled_iff (c : Circumstances) :
    (isEnabled c.env c.options.sharedConfig).value = true ↔ c.IsSharedConfigEnabled := by
  unfold Circumstances.IsSharedConfigEnabled isEnabled
  cases c.options.sharedConfig with
  | fromEnvironment => simpa only [reduceCtorEq, false_or, true_and] using switched_iff c.env
  | enabled => simp
  | disabled => simp

/-- The settings count the shared config file as enabled exactly if it is. -/
theorem load_sharedConfig (c : Circumstances) :
    c.environment.sharedConfig = decide c.IsSharedConfigEnabled := by
  rw [Bool.eq_iff_iff, decide_eq_true_iff]
  exact isEnabled_iff c

/-- The settings select the profile. -/
theorem load_profile (c : Circumstances) : c.environment.profile = c.profile := by
  have hshared : (isEnabled c.env c.options.sharedConfig).value = decide c.IsSharedConfigEnabled :=
    load_sharedConfig c
  unfold Circumstances.profile Circumstances.profileNames
  rw [List.cons_append, List.findSome?_cons]
  simp only [Circumstances.environment, load, read, Logged.value_bind, Logged.value_pure, hshared]
  cases c.options.profile.filter (· ≠ "") with
  | some name => rfl
  | none =>
    by_cases h : c.IsSharedConfigEnabled
    · simp only [h, decide_true, if_true]
      rfl
    · simp only [h, decide_false, if_false]
      rfl

end EnvironmentSettings

/-! ## The profiles -/

namespace Circumstances

variable {c : Circumstances}

/-- The profile files of a session are those of its circumstances. -/
theorem profileSources_eq (c : Circumstances) :
    c.options.profileSources c.environment = c.sources := by
  unfold SessionOptions.profileSources sources
  rw [EnvironmentSettings.load_sharedConfig]
  simp only [decide_eq_true_eq]
  rfl

/-- A property of a merged set is what its profile says. -/
theorem propertyOf?_of_merged {set : Profile.ProfileSet} (h : c.merged = some set)
    (profile key : String) :
    c.propertyOf? profile key = (set.profile? profile).bind (·.getNonEmpty? key) := by
  simp only [propertyOf?, h, Option.bind_eq_bind, Option.bind_some]

/-- A property that counts is not empty. -/
theorem propertyOf?_ne_empty {profile key value : String}
    (h : c.propertyOf? profile key = some value) : value ≠ "" := by
  unfold propertyOf? at h
  obtain ⟨set, -, hset⟩ := Option.bind_eq_some_iff.mp h
  obtain ⟨entry, -, hentry⟩ := Option.bind_eq_some_iff.mp hset
  have hfilter := (Option.filter_eq_some_iff.mp hentry).2
  simpa using hfilter

/-- A property of a default file that counts is not empty. -/
theorem propertyIn?_ne_empty {kind : Profile.Kind} {key value : String}
    (h : c.propertyIn? kind key = some value) : value ≠ "" := by
  unfold propertyIn? at h
  obtain ⟨set, -, hset⟩ := Option.bind_eq_some_iff.mp h
  obtain ⟨entry, -, hentry⟩ := Option.bind_eq_some_iff.mp hset
  have hfilter := (Option.filter_eq_some_iff.mp hentry).2
  simpa using hfilter

/-- The pair of keys of a profile with all files merged. -/
def keysOf? (c : Circumstances) (profile : String) : Option KeyPair :=
  KeyPair.ofParts? (c.propertyOf? profile "aws_access_key_id")
    (c.propertyOf? profile "aws_secret_access_key") (c.propertyOf? profile "aws_session_token")

/-- The keys that are found in a profile are those in it. -/
theorem keysOf?_eq_some_iff {profile : String} {keys : KeyPair} :
    c.keysOf? profile = some keys ↔ c.AreInProfile profile keys :=
  KeyPair.ofParts?_eq_some_iff (fun _ => propertyOf?_ne_empty) (fun _ => propertyOf?_ne_empty)
    (fun _ => propertyOf?_ne_empty)

/-- The keys that are read from a profile are those of its properties. -/
theorem keysOf?_of_merged {set : Profile.ProfileSet} (h : c.merged = some set) (profile : String) :
    (set.profile? profile).bind KeyPair.ofProfile? = c.keysOf? profile := by
  simp only [keysOf?, propertyOf?_of_merged h]
  cases set.profile? profile <;> rfl

/-- Keys in the environment have no empty session token, so that their provider has it as it is. -/
theorem AreInEnvironment.keysProvider_eq {keys : KeyPair} (h : c.AreInEnvironment keys)
    (name : String) :
    CredentialsSource.keysProvider (some keys) name = keysProvider keys name := by
  rw [CredentialsSource.keysProvider, Provider.ofKeys, ← h.sessionToken,
    filter_ne_empty_eq_self fun _ => Environment.firstNonEmpty_ne_empty, h.sessionToken,
    keysProvider]

/-- Keys of a profile are a provider of their own. -/
theorem AreInProfile.keysProvider_eq {profile : String} {keys : KeyPair}
    (h : c.AreInProfile profile keys) (name : String) :
    CredentialsSource.keysProvider (some keys) name = keysProvider keys name := by
  rw [CredentialsSource.keysProvider, Provider.ofKeys, ← h.sessionToken,
    filter_ne_empty_eq_self fun _ => propertyOf?_ne_empty, h.sessionToken, keysProvider]

/-- The settings say what the properties of the selected profile say. -/
structure IsDescribedBy (c : Circumstances) (shared : SharedSettings) : Prop where
  keys (keys : KeyPair) : shared.keys = some keys ↔ c.AreInProfile c.profile keys
  role : shared.role = c.roleSettings
  roleSource {roleArn source : String} (hrole : c.property? "role_arn" = some roleArn)
    (hsource : c.property? "source_profile" = some source) :
    ∃ keys, shared.roleSource = some keys ∧ c.AreInProfile source keys
  noRoleSource (h : c.property? "role_arn" = none ∨ c.property? "source_profile" = none) :
    shared.roleSource = none

/-- The duration of a role is what its profile says in seconds, if that is a number. -/
theorem durationOf_value (entry : Profile.Entry) :
    (RoleSettings.durationOf entry).value =
      ((entry.getNonEmpty? "duration_seconds").bind Text.count?).map Span.ofSeconds := by
  unfold RoleSettings.durationOf
  cases entry.getNonEmpty? "duration_seconds" with
  | none => rfl
  | some text => cases h : Text.count? text <;> simp [h]

/-- The settings of a role are what its profile says. -/
theorem ofProfile_value (entry : Profile.Entry) :
    (RoleSettings.ofProfile entry).value =
      { roleArn := entry.getNonEmpty? "role_arn"
        sourceProfile := entry.getNonEmpty? "source_profile"
        credentialSource := entry.getNonEmpty? "credential_source"
        externalId := entry.getNonEmpty? "external_id"
        mfaSerial := entry.getNonEmpty? "mfa_serial"
        sessionName := entry.getNonEmpty? "role_session_name"
        duration :=
          ((entry.getNonEmpty? "duration_seconds").bind Text.count?).map Span.ofSeconds } := by
  rw [← durationOf_value]
  rfl

/-- The role of the selected profile names a source profile that has no pair of keys. -/
def LacksSource (c : Circumstances) (roleArn : String) : Prop :=
  c.property? "role_arn" = some roleArn ∧
    ∃ source, c.property? "source_profile" = some source ∧ ∀ keys, ¬c.AreInProfile source keys

/-- The keys for the role, if the selected profile has a role and a source profile for it. -/
def roleSource? (c : Circumstances) : Option KeyPair := do
  let _ ← c.property? "role_arn"
  let source ← c.property? "source_profile"
  c.keysOf? source

/-- The keys for a role are those of its source profile, which has to have some. -/
theorem roleSourceOf_cases {set : Profile.ProfileSet} (h : c.merged = some set) :
    (∃ roleArn, c.LacksSource roleArn ∧
        SharedSettings.roleSourceOf set c.roleSettings = .error (.roleSourceUnset roleArn)) ∨
      (∀ roleArn, ¬c.LacksSource roleArn) ∧
        SharedSettings.roleSourceOf set c.roleSettings = .ok c.roleSource? := by
  simp only [SharedSettings.roleSourceOf, roleSettings, roleSource?, LacksSource]
  cases c.property? "role_arn" with
  | none => exact .inr ⟨by simp, rfl⟩
  | some roleArn =>
    cases c.property? "source_profile" with
    | none => exact .inr ⟨by simp, rfl⟩
    | some source =>
      simp only [keysOf?_of_merged h]
      cases hkeys : c.keysOf? source with
      | none =>
        refine .inl ⟨roleArn, ⟨rfl, source, rfl, fun keys hmade => ?_⟩, rfl⟩
        cases hkeys.symm.trans (keysOf?_eq_some_iff.mpr hmade)
      | some keys =>
        refine .inr ⟨?_, congrArg Except.ok hkeys.symm⟩
        rintro _ ⟨-, other, hother, hnone⟩
        obtain rfl := Option.some.inj hother
        exact hnone keys (keysOf?_eq_some_iff.mp hkeys)

/-- What the profile files say about a session, or that its role lacks a source. -/
theorem load_of_merged {set : Profile.ProfileSet} (h : c.merged = some set) :
    (SharedSettings.load c.env c.files c.orders.listed c.sources c.profile).value =
      (SharedSettings.roleSourceOf set c.roleSettings).map fun roleSource =>
        { region := c.property? "region", keys := c.keysOf? c.profile, role := c.roleSettings
          roleSource } := by
  have hload :
      (Profile.load c.env c.files c.sources (some c.profile) c.orders.listed).value = .ok set := by
    unfold merged at h
    cases hvalue :
        (Profile.load c.env c.files c.sources (some c.profile) c.orders.listed).value with
    | error error => rw [hvalue] at h; cases h
    | ok other =>
      rw [hvalue] at h
      exact congrArg Except.ok (Option.some.inj h)
  rw [SharedSettings.load, Logged.value_bind, hload, ← keysOf?_of_merged h]
  simp only [SharedSettings.ofProfile, property?, propertyOf?_of_merged h]
  cases hentry : set.profile? c.profile with
  | none =>
    have hproperty (key : String) : c.property? key = none := by
      rw [property?, propertyOf?_of_merged h, hentry]
      rfl
    simp only [roleSettings, duration?, hproperty]
    rfl
  | some entry =>
    have hproperty (key : String) : c.property? key = entry.getNonEmpty? key := by
      rw [property?, propertyOf?_of_merged h, hentry]
      rfl
    simp only [Logged.value_bind, ofProfile_value, roleSettings, duration?, hproperty]
    cases SharedSettings.roleSourceOf _ _ <;> rfl

/-- Settings that could be loaded say what the properties of the selected profile say. -/
theorem isDescribedBy_of_load {shared : SharedSettings}
    (h : (SharedSettings.load c.env c.files c.orders.listed c.sources c.profile).value = .ok shared) :
    c.IsDescribedBy shared := by
  have hmerged : ∃ set, c.merged = some set := by
    unfold SharedSettings.load at h
    rw [Logged.value_bind] at h
    unfold merged
    cases hload : (Profile.load c.env c.files c.sources (some c.profile) c.orders.listed).value with
    | error error => simp [hload] at h
    | ok set => exact ⟨set, rfl⟩
  obtain ⟨set, hset⟩ := hmerged
  rw [load_of_merged hset] at h
  rcases roleSourceOf_cases hset with ⟨roleArn, -, herror⟩ | ⟨hsource, hok⟩
  · rw [herror] at h
    cases h
  · rw [hok] at h
    obtain rfl := Except.ok.inj h
    refine ⟨fun keys => keysOf?_eq_some_iff, rfl, fun {roleArn source} hrole hprofile => ?_, ?_⟩
    · cases hkeys : c.keysOf? source with
      | none =>
        refine absurd ⟨hrole, source, hprofile, fun keys hmade => ?_⟩ (hsource roleArn)
        cases hkeys.symm.trans (keysOf?_eq_some_iff.mpr hmade)
      | some keys =>
        refine ⟨keys, ?_, keysOf?_eq_some_iff.mp hkeys⟩
        simp [roleSource?, hrole, hprofile, hkeys]
    · rintro (hnone | hnone) <;> simp [roleSource?, hnone]

end Circumstances

/-! ## API keys -/

namespace Profile

/-- The profile that the caller names is selected. -/
theorem loadRequired_selected {env : Environment} {files : FileStore} {source : Source}
    {name : String} {order : Enumeration} {set : ProfileSet}
    (h : (loadRequired env files source (some name) order).value = .ok set) :
    set.selected = name := by
  unfold loadRequired at h
  rw [Logged.value_bind] at h
  split at h
  · simp at h
  · rw [Logged.value_bind] at h
    split at h
    · simp at h
    · rename_i hadd
      obtain rfl := Except.ok.inj h
      unfold ProfileSet.addFile at hadd
      split at hadd
      · simp at hadd
      · obtain rfl := Except.ok.inj hadd
        rw [ProfileSet.merge_selected]
        rfl

end Profile

namespace CredentialsSource

variable {c : Circumstances}

/-- Settings grant tokens just if they have an API key that is not empty. -/
theorem toOption_grant (settings : ApiKeySettings) (origin : String) :
    (settings.grant origin).toOption =
      (settings.apiKey.filter (· ≠ "")).map fun apiKey =>
        { issuer := { apiKey, endpoint := Iam.endpointOrDefault settings.authEndpoint }
          serviceInstance := settings.serviceInstance.filter (· ≠ "") } := by
  unfold ApiKeySettings.grant
  cases settings.apiKey.filter (· ≠ "") <;> rfl

/-- Neither the API key of a place nor its service instance is empty. -/
theorem apiKeySettings_ne_empty (c : Circumstances) (place : KeyPlace) :
    (∀ value, (c.apiKeySettings place).apiKey = some value → value ≠ "") ∧
      ∀ value, (c.apiKeySettings place).serviceInstance = some value → value ≠ "" := by
  cases place with
  | environment =>
    exact ⟨fun _ => Environment.getNonEmpty?_ne_empty, fun _ => Environment.getNonEmpty?_ne_empty⟩
  | file kind =>
    exact ⟨fun _ => Circumstances.propertyIn?_ne_empty, fun _ => Circumstances.propertyIn?_ne_empty⟩

/-- A place holds a key that is ready for use exactly if its settings have one. -/
theorem toOption_grant_apiKeySettings (c : Circumstances) (place : KeyPlace) (origin : String) :
    ((c.apiKeySettings place).grant origin).toOption = c.grant? place := by
  obtain ⟨hkey, hinstance⟩ := apiKeySettings_ne_empty c place
  rw [toOption_grant, filter_ne_empty_eq_self hkey,
    filter_ne_empty_eq_self hinstance]
  rfl

/-- The environment is a source of credentials if it grants an API key. -/
theorem ofPlace?_environment (c : Circumstances) :
    ofPlace? (ApiKeyPlace.ofEnvironment c.env) =
      (c.grant? .environment).map (.apiKey (KeyPlace.provider .environment)) := by
  rw [← toOption_grant_apiKeySettings c .environment "IBM_API_KEY_ID"]
  rfl

/-- A default file grants what its place does. -/
theorem toOption_grantOf (c : Circumstances) (kind : Profile.Kind) :
    (ApiKeyPlace.grantOf kind (Profile.loadRequired c.env c.files (.default kind) (some c.profile)
      (c.orders.alone kind)).value).toOption = c.grant? (.file kind) := by
  cases hload : (Profile.loadRequired c.env c.files (.default kind) (some c.profile)
      (c.orders.alone kind)).value with
  | error error =>
    have hnone (key : String) : c.propertyIn? kind key = none := by
      simp [Circumstances.propertyIn?, Circumstances.alone, hload, Except.toOption]
    simp only [Circumstances.grant?, Circumstances.apiKeySettings, hnone]
    rfl
  | ok set =>
    have hselected := Profile.loadRequired_selected hload
    have hproperty (key : String) :
        c.propertyIn? kind key = (set.profile? c.profile).bind (·.getNonEmpty? key) := by
      simp [Circumstances.propertyIn?, Circumstances.alone, hload, Except.toOption]
    rw [ApiKeyPlace.grantOf, hselected]
    cases hentry : set.profile? c.profile with
    | none =>
      simp only [Circumstances.grant?, Circumstances.apiKeySettings, hproperty, hentry]
      rfl
    | some entry =>
      have hsettings : ApiKeySettings.ofProfile entry = c.apiKeySettings (.file kind) := by
        simp only [Circumstances.apiKeySettings, hproperty, hentry]
        rfl
      simp only [hsettings]
      exact toOption_grant_apiKeySettings c (.file kind) _

/-- A default file is a source of credentials if it grants an API key. -/
theorem ofPlace?_file (c : Circumstances) (kind : Profile.Kind) :
    ofPlace? (ApiKeyPlace.ofFile c.env c.files kind none (some c.profile)
      (c.orders.alone kind)).value =
      (c.grant? (.file kind)).map (.apiKey (KeyPlace.provider (.file kind))) := by
  rw [← toOption_grantOf]
  cases kind <;> rfl

/-- The API key is that of the first place that has one. -/
theorem apiKey?_value (c : Circumstances) :
    (apiKey? c.env c.files c.orders.alone c.profile).value =
      [KeyPlace.environment, .file .credentials, .file .config].findSome? fun place =>
        (c.grant? place).map (.apiKey place.provider) := by
  unfold apiKey?
  rw [ofPlace?_environment]
  cases henvironment : c.grant? .environment with
  | some grant => simp [henvironment]
  | none =>
    cases hcredentials : c.grant? (.file .credentials) with
    | some grant => simp [ofPlace?_file, henvironment, hcredentials]
    | none =>
      cases hconfig : c.grant? (.file .config) <;>
        simp [ofPlace?_file, henvironment, hcredentials, hconfig]

end CredentialsSource

end CloudSession
