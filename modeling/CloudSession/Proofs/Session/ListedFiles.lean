import CloudSession.Proofs.Session.Outcome

/-!
# Listed files

The caller can list the profile files. API keys are looked for in the default files all the same, so
that the outcome depends on files that are not listed exactly as far as the first API key does.
-/

namespace CloudSession

/-- A computation goes on with the value alone. -/
theorem Logged.bind_congr {α β : Type} {x : Logged α} {f g : α → Logged β}
    (h : f x.value = g x.value) : x >>= f = x >>= g := by
  change Logged.mk (f x.value).value (x.warnings ++ (f x.value).warnings) = _
  rw [h]
  rfl

namespace Profile

/-- The path at which a source is read, if it is read from a file. -/
def Source.path? (env : Environment) : Source → Option String
  | .default kind =>
    some (expandHome env ((env.get? kind.overrideVariable).getD kind.defaultPath)).value
  | .file _ path => some (expandHome env path).value
  | .contents _ _ => none

variable {env : Environment} {files other : FileStore}

/-- Nothing but the file at its path is read for a source. -/
theorem Source.readRequired_congr {source : Source}
    (h : ∀ path, source.path? env = some path → files.read? path = other.read? path) :
    source.readRequired env files = source.readRequired env other := by
  have hread (kind : Kind) (path : String)
      (hpath : source.path? env = some (expandHome env path).value) :
      readPath env files kind path = readPath env other kind path := by
    have htext : files.readText (expandHome env path).value =
        other.readText (expandHome env path).value := by
      unfold FileStore.readText
      rw [h _ hpath]
    exact Logged.bind_congr (by rw [htext])
  cases source with
  | default kind => exact hread kind _ rfl
  | file kind path => exact hread kind path rfl
  | contents kind text => rfl

/-- Files with the same contents at the paths of the sources are read alike. -/
theorem readAll_congr {sources : List Source}
    (h : ∀ source ∈ sources, ∀ path, source.path? env = some path →
      files.read? path = other.read? path) :
    readAll env files sources = readAll env other sources := by
  induction sources with
  | nil => rfl
  | cons source rest ih =>
    obtain ⟨hsource, hrest⟩ := List.forall_mem_cons.mp h
    rw [readAll, readAll, ih hrest, Source.readLenient, Source.readLenient,
      Source.readRequired_congr hsource]

/-- Profiles depend on the files of their sources alone, and on the orders of their sections. -/
theorem load_congr {sources : List Source} (explicit : Option String)
    (listed : Nat → Enumeration)
    (h : ∀ source ∈ sources, ∀ path, source.path? env = some path →
      files.read? path = other.read? path) :
    load env files sources explicit listed = load env other sources explicit listed := by
  have hsources :
      (sources.mapIdx fun place source => (source, listed place)).map Prod.fst = sources := by
    exact List.ext_getElem? fun place => by simp [Function.comp_def]
  rw [load, load, loadIn, loadIn, hsources, readAll_congr h]

/-- The profiles of one file depend on this file alone, and on the order of its sections. -/
theorem loadRequired_congr {source : Source} (explicit : Option String) (order : Enumeration)
    (h : ∀ path, source.path? env = some path → files.read? path = other.read? path) :
    loadRequired env files source explicit order = loadRequired env other source explicit order := by
  rw [loadRequired, loadRequired, Source.readRequired_congr h]

end Profile

namespace Circumstances

variable {c : Circumstances} {files : FileStore} {orders : Profile.Orders} {policy : RefreshPolicy}

/-- What sends requests depends on the bundle of certificates that the environment names. -/
theorem client_withFiles (orders : Profile.Orders)
    (h : ∀ path, c.env.getNonEmpty? "AWS_CA_BUNDLE" = some path →
      c.files.read? path = files.read? path) :
    (c.withFiles files orders).client = c.client := by
  have hbundle : c.options.bundle c.environment files = c.options.bundle c.environment c.files := by
    unfold SessionOptions.bundle
    cases c.options.caBundle with
    | some bundle => rfl
    | none =>
      cases hpath : c.environment.caBundle with
      | none => rfl
      | some path =>
        change c.env.firstNonEmpty ["AWS_CA_BUNDLE"] = some path at hpath
        rw [Environment.firstNonEmpty, List.findSome?_singleton] at hpath
        simp only [h path hpath]
  change (c.options.bundle c.environment files >>= _) = _
  rw [hbundle]
  rfl

/-- What the profile files say depends on those files alone, and on the orders of their sections. -/
theorem settings_withFiles (horders : orders.listed = c.orders.listed)
    (h : ∀ source ∈ c.sources, ∀ path, source.path? c.env = some path →
      c.files.read? path = files.read? path) :
    (c.withFiles files orders).settings = c.settings := by
  change (SharedSettings.load c.env files orders.listed c.sources c.profile).value = _
  rw [settings, SharedSettings.load, SharedSettings.load, horders,
    Profile.load_congr (some c.profile) c.orders.listed h]

/-- The first API key depends on the default files alone, and on the orders of their sections. -/
theorem key?_withFiles (horders : orders.alone = c.orders.alone)
    (h : ∀ kind path, (Profile.Source.default kind).path? c.env = some path →
      c.files.read? path = files.read? path) :
    (c.withFiles files orders).key? = c.key? := by
  have halone (kind : Profile.Kind) : (c.withFiles files orders).alone kind = c.alone kind := by
    change (Profile.loadRequired c.env files _ (some c.profile) (orders.alone kind)).value.toOption =
      _
    rw [alone, horders,
      Profile.loadRequired_congr (some c.profile) (c.orders.alone kind) (h kind)]
  have hgrant (place : KeyPlace) : (c.withFiles files orders).grant? place = c.grant? place := by
    cases place with
    | environment => rfl
    | file kind =>
      have hproperty (key : String) :
          (c.withFiles files orders).propertyIn? kind key = c.propertyIn? kind key := by
        unfold propertyIn?
        rw [halone]
        rfl
      simp only [grant?, apiKeySettings, hproperty]
  simp only [key?, hgrant]

/-! ## Two runs -/

/-- What the settings give, where they decide: why there is no session, or what it shows. -/
def shownBySettings (c : Circumstances) (policy : RefreshPolicy) (shared : SharedSettings) :
    Except SessionError SessionView :=
  (CredentialsSource.ofSettings c.options.tools c.environment shared).map fun source =>
    c.shown policy (c.options.region c.environment shared) (some source)

/-- Two runs with the same wishes come to the same: to the credentials of the caller, or to those of the
same first API key, with the same region; or, without either, to what the settings of each give. -/
inductive ComesTo (policy : RefreshPolicy) (c d : Circumstances) (shared other : SharedSettings) : Prop
  | given (h : c.Applies .given)
      (hregion : c.options.region c.environment shared = d.options.region d.environment other)
  | key (h : ¬c.Applies .given) (hsome : c.key?.isSome) (hkey : c.key? = d.key?)
      (hregion : c.options.region c.environment shared = d.options.region d.environment other)
  | settings (h : ¬c.Applies .given) (hnone : c.key? = none) (hother : d.key? = none)
      (hshown : c.shownBySettings policy shared = d.shownBySettings policy other)

/-- What a prepared run shows, by the first rule that settles it: the credentials of the caller, the
first API key, the settings. -/
theorem view_of_not_given (policy : RefreshPolicy) {shared : SharedSettings}
    (hprepared : c.ArePrepared shared)
    (h : ¬c.Applies .given) :
    c.view policy = match c.key? with
      | some (place, grant) => .ok (c.shown policy (c.options.region c.environment shared)
          (some (.apiKey place.provider grant)))
      | none => c.shownBySettings policy shared := by
  rw [view_of_arePrepared policy hprepared, outcome_of_key? h]
  cases c.key? with
  | some first => rfl
  | none =>
    unfold shownBySettings
    cases CredentialsSource.ofSettings c.options.tools c.environment shared <;> rfl

/-- Two prepared runs show the same exactly if they come to the same. -/
theorem view_eq_iff_comesTo {shared other : SharedSettings} (hprepared : c.ArePrepared shared)
    (hother : (c.withFiles files orders).ArePrepared other) :
    c.view policy = (c.withFiles files orders).view policy ↔
      ComesTo policy c (c.withFiles files orders) shared other := by
  have hregion_of_shown {region otherRegion : Option String} {source : Option CredentialsSource}
      (h : c.shown policy region source =
        (c.withFiles files orders).shown policy otherRegion source) : region = otherRegion := by
    cases source <;> exact congrArg SessionView.region h
  by_cases hgiven : c.Applies .given
  · rw [view_of_arePrepared policy hprepared, view_of_arePrepared policy hother,
      outcome_of_given hgiven, outcome_of_given (c := c.withFiles files orders) hgiven]
    constructor
    · intro h
      exact .given hgiven (hregion_of_shown (Except.ok.inj h))
    · rintro (⟨-, hregion⟩ | ⟨hnot, -⟩ | ⟨hnot, -⟩)
      · rw [hregion]
        rfl
      · exact absurd hgiven hnot
      · exact absurd hgiven hnot
  · have hview := view_of_not_given policy hprepared hgiven
    have hotherView := view_of_not_given policy hother hgiven
    constructor
    · intro h
      have hkey := key?_eq_of_view_eq hprepared hother hgiven h
      rw [hview, hotherView, ← hkey] at h
      cases hfirst : c.key? with
      | some first =>
        rw [hfirst] at h
        exact .key hgiven (by rw [hfirst]; rfl) hkey (hregion_of_shown (Except.ok.inj h))
      | none =>
        rw [hfirst] at h
        exact .settings hgiven hfirst (hkey.symm.trans hfirst) h
    · rintro (⟨hnot, -⟩ | ⟨-, hsome, hkey, hregion⟩ | ⟨-, hnone, hotherNone, hshown⟩)
      · exact absurd hnot hgiven
      · obtain ⟨first, hfirst⟩ := Option.isSome_iff_exists.mp hsome
        rw [hview, hotherView, ← hkey, hfirst, hregion]
        exact congrArg Except.ok (shown_withFiles c files orders policy _ _).symm
      · rw [hview, hotherView, hnone, hotherNone]
        exact hshown

/-- Where the same is sent, or nothing, two runs show the same exactly if nothing can be sent, or the
profile files fail them alike, or they come to the same. -/
theorem view_eq_iff (hclient : (c.withFiles files orders).client = c.client) :
    c.view policy = (c.withFiles files orders).view policy ↔
      (∃ error, c.client = .error error) ∨
      (∃ error, c.settings = .error error ∧ (c.withFiles files orders).settings = .error error) ∨
      ∃ shared other, c.ArePrepared shared ∧ (c.withFiles files orders).ArePrepared other ∧
        ComesTo policy c (c.withFiles files orders) shared other := by
  cases hsent : c.client with
  | error error =>
    refine iff_of_true ?_ (.inl ⟨error, rfl⟩)
    rw [view_of_client_error policy hsent, view_of_client_error policy (hclient.trans hsent)]
  | ok client =>
    have hotherSent := hclient.trans hsent
    cases hsettings : c.settings with
    | error error =>
      have hview := view_of_settings_error policy hsent hsettings
      constructor
      · intro h
        cases hotherSettings : (c.withFiles files orders).settings with
        | error other =>
          rw [hview, view_of_settings_error policy hotherSent hotherSettings] at h
          exact .inr (.inl ⟨error, rfl, congrArg Except.error (Except.error.inj h).symm⟩)
        | ok other =>
          have hother := arePrepared_iff.mpr ⟨⟨client, hotherSent⟩, hotherSettings⟩
          exact absurd (error_of_view hother (h.symm.trans hview)) (settings_error hsettings)
      · rintro (⟨_, hfailed⟩ | ⟨_, hfailed, hotherFailed⟩ | ⟨shared, _, hprepared, -⟩)
        · cases hfailed
        · obtain rfl := Except.error.inj hfailed
          rw [hview, view_of_settings_error policy hotherSent hotherFailed]
        · cases hsettings.symm.trans (arePrepared_iff.mp hprepared).2
    | ok shared =>
      have hprepared := arePrepared_iff.mpr ⟨⟨client, hsent⟩, hsettings⟩
      constructor
      · intro h
        cases hotherSettings : (c.withFiles files orders).settings with
        | error other =>
          have hotherView := view_of_settings_error policy hotherSent hotherSettings
          exact absurd (error_of_view hprepared (h.trans hotherView)) (settings_error hotherSettings)
        | ok other =>
          have hother := arePrepared_iff.mpr ⟨⟨client, hotherSent⟩, hotherSettings⟩
          exact .inr (.inr ⟨shared, other, hprepared, hother,
            (view_eq_iff_comesTo hprepared hother).mp h⟩)
      · rintro (⟨_, hfailed⟩ | ⟨_, hfailed, -⟩ | ⟨_, _, hloaded, hother, hcomes⟩)
        · cases hfailed
        · cases hfailed
        · exact (view_eq_iff_comesTo hloaded hother).mpr hcomes

/-- Where the profile files say the same, two runs come to the same exactly if the caller gives
credentials or the first API key is the same. -/
theorem comesTo_iff (policy : RefreshPolicy) (shared : SharedSettings) :
    ComesTo policy c (c.withFiles files orders) shared shared ↔
      c.Applies .given ∨ c.key? = (c.withFiles files orders).key? := by
  constructor
  · rintro (⟨hgiven, -⟩ | ⟨-, -, hkey, -⟩ | ⟨-, hnone, hother, -⟩)
    · exact .inl hgiven
    · exact .inr hkey
    · exact .inr (hnone.trans hother.symm)
  · intro h
    by_cases hgiven : c.Applies .given
    · exact .given hgiven rfl
    · have hkey := h.resolve_left hgiven
      cases hfirst : c.key? with
      | some first => exact .key hgiven (by rw [hfirst]; rfl) hkey rfl
      | none =>
        refine .settings hgiven hfirst (hkey.symm.trans hfirst) ?_
        unfold shownBySettings
        congr 1
        funext source
        exact (shown_withFiles c files orders policy _ _).symm

/-- Where the profile files say the same and the same is sent, or nothing, two runs show the same exactly
if nothing can be prepared, or the caller gives credentials, or the first API key is the same. -/
theorem view_eq_iff_of_settings_eq (hclient : (c.withFiles files orders).client = c.client)
    (hsettings : c.settings = (c.withFiles files orders).settings) :
    c.view policy = (c.withFiles files orders).view policy ↔
      (∀ shared, ¬c.ArePrepared shared) ∨ c.Applies .given ∨
        c.key? = (c.withFiles files orders).key? := by
  rw [view_eq_iff hclient, ← hsettings]
  by_cases hprepared : ∃ shared, c.ArePrepared shared
  · obtain ⟨shared, hprepared⟩ := hprepared
    obtain ⟨⟨client, hsent⟩, hloaded⟩ := arePrepared_iff.mp hprepared
    have hother : (c.withFiles files orders).ArePrepared shared :=
      arePrepared_iff.mpr ⟨⟨client, hclient.trans hsent⟩, hsettings.symm.trans hloaded⟩
    rw [← comesTo_iff policy shared]
    constructor
    · rintro (⟨_, hfailed⟩ | ⟨_, hfailed, -⟩ | ⟨first, second, hfirst, hsecond, hcomes⟩)
      · cases hsent.symm.trans hfailed
      · cases hloaded.symm.trans hfailed
      · have hsame {found : SharedSettings} (h : c.settings = .ok found) : found = shared :=
          Except.ok.inj (h.symm.trans hloaded)
        obtain rfl := hsame (arePrepared_iff.mp hfirst).2
        obtain rfl := hsame (hsettings.trans (arePrepared_iff.mp hsecond).2)
        exact .inr hcomes
    · rintro (hnone | hcomes)
      · exact absurd hprepared (hnone shared)
      · exact .inr (.inr ⟨shared, shared, hprepared, hother, hcomes⟩)
  · have hnone := not_exists.mp hprepared
    refine iff_of_true ?_ (.inl hnone)
    cases hsent : c.client with
    | error error => exact .inl ⟨error, rfl⟩
    | ok client =>
      cases hloaded : c.settings with
      | error error => exact .inr (.inl ⟨error, rfl, rfl⟩)
      | ok shared => exact absurd (arePrepared_iff.mpr ⟨⟨client, hsent⟩, hloaded⟩) (hnone shared)

/-- A caller who lists the profile files gets the same outcome from files that agree where the listed
ones are, with the sections of either gone through in whatever orders, exactly if nothing can be sent,
or the listed files fail alike, or both runs come to the same. If the listed files say the same, as
they do if their sections are gone through in the same orders, this is so exactly if nothing can be
prepared, or the caller gives credentials, or the first API key of the environment and of the default
files is the same. Files that are neither listed nor default files have no influence. -/
theorem onlyListed_iff (policy : RefreshPolicy) (c : Circumstances) (files : FileStore)
    (orders : Profile.Orders) {listed : List Profile.Source}
    (hlisted : c.options.sources = some listed)
    (hagree : ∀ source ∈ listed, ∀ path, source.path? c.env = some path →
      c.files.read? path = files.read? path)
    (hbundle : ∀ path, c.env.getNonEmpty? "AWS_CA_BUNDLE" = some path →
      c.files.read? path = files.read? path) :
    (c.view policy = (c.withFiles files orders).view policy ↔
      (∃ error, c.client = .error error) ∨
      (∃ error, c.settings = .error error ∧ (c.withFiles files orders).settings = .error error) ∨
      ∃ shared other, c.ArePrepared shared ∧ (c.withFiles files orders).ArePrepared other ∧
        ComesTo policy c (c.withFiles files orders) shared other) ∧
    (c.settings = (c.withFiles files orders).settings →
      (c.view policy = (c.withFiles files orders).view policy ↔
        (∀ shared, ¬c.ArePrepared shared) ∨ c.Applies .given ∨
          c.key? = (c.withFiles files orders).key?)) ∧
    (orders.listed = c.orders.listed → c.settings = (c.withFiles files orders).settings) ∧
    ((∀ kind path, (Profile.Source.default kind).path? c.env = some path →
        c.files.read? path = files.read? path) → orders = c.orders →
      c.view policy = (c.withFiles files orders).view policy) := by
  have hsources : c.sources = listed := by rw [sources, hlisted]; rfl
  have hclient : (c.withFiles files orders).client = c.client := client_withFiles orders hbundle
  have hsettings (horders : orders.listed = c.orders.listed) :
      c.settings = (c.withFiles files orders).settings :=
    (settings_withFiles horders (hsources ▸ hagree)).symm
  refine ⟨view_eq_iff hclient, view_eq_iff_of_settings_eq hclient, hsettings, ?_⟩
  intro hdefault horders
  have hkey := key?_withFiles (congrArg Profile.Orders.alone horders) hdefault
  exact (view_eq_iff_of_settings_eq hclient (hsettings (congrArg Profile.Orders.listed horders))).mpr
    (.inr (.inr hkey.symm))

/-- A listed file with keys, beside a default file with the API key of another account. -/
def listedBesideDefault : Circumstances where
  options := { sources := some [.file .credentials "/etc/listed"] }
  world :=
    { environment := { entries := [("HOME", "/h")] }
      files :=
        { files :=
            [("/etc/listed",
                "[default]\naws_access_key_id = a\naws_secret_access_key = b\n".toUTF8.toList),
              ("/h/.aws/credentials", "[default]\nibm_api_key_id = other\n".toUTF8.toList)] } }

/-- The listed file alone. -/
def listedAlone : FileStore where
  files :=
    [("/etc/listed", "[default]\naws_access_key_id = a\naws_secret_access_key = b\n".toUTF8.toList)]

/-- Files that agree at the listed path give outcomes that differ. -/
theorem listedBesideDefault_differs :
    (∀ path, (Profile.Source.file .credentials "/etc/listed").path? listedBesideDefault.env =
        some path → listedBesideDefault.files.read? path = listedAlone.read? path) ∧
      listedBesideDefault.view {} ≠ (listedBesideDefault.withFiles listedAlone {}).view {} := by
  have hagree : ∀ path,
      (Profile.Source.file .credentials "/etc/listed").path? listedBesideDefault.env = some path →
        listedBesideDefault.files.read? path = listedAlone.read? path := by
    intro path hpath
    obtain rfl : path = "/etc/listed" := by
      have hexpanded : (Profile.Source.file .credentials "/etc/listed").path?
          listedBesideDefault.env = some "/etc/listed" := by decide +kernel
      exact Option.some.inj (hpath.symm.trans hexpanded)
    decide +kernel
  have hprepared : listedBesideDefault.ArePrepared
      { keys := some { accessKeyId := "a", secretAccessKey := "b" } } :=
    ⟨⟨none, .standard, rfl, rfl⟩, eq_ok_of_toOption (by decide +kernel)⟩
  refine ⟨hagree, fun hview => ?_⟩
  obtain ⟨-, hiff, hsettings, -⟩ := onlyListed_iff {} listedBesideDefault listedAlone {} rfl
    (List.forall_mem_singleton.mpr hagree) (fun path hpath => nomatch hpath)
  rcases (hiff (hsettings rfl)).mp hview with hnone | hgiven | hkey
  · exact hnone _ hprepared
  · exact Bool.false_ne_true hgiven
  · exact absurd hkey (by decide +kernel)

end Circumstances

end CloudSession
