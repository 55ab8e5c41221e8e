import CloudSession.Proofs.Activity.Stride
import CloudSession.Proofs.World.Deed
import CloudSession.Provider.Retrieve

/-!
# What an activity may write

What providers remember between retrievals is kept in caches and in notes about chains and roles. An
activity stays in a territory if it writes these nowhere else, whatever happens between its writes,
leaves to others which managers are in use and which tasks refresh their tokens in the background,
and starts no task but for a refresh that is advised. Whatever a provider does to retrieve
credentials, it stays among the caches and notes that it was made with.
-/

namespace CloudSession

/-- Caches, and notes about chains and roles. -/
structure Territory where
  caches : Nat → Prop
  chains : Nat → Prop
  roles : Nat → Prop

/-- All caches and notes. -/
def Territory.everything : Territory where
  caches _ := True
  chains _ := True
  roles _ := True

/-- A territory is part of a larger one. -/
structure Territory.IsPartOf (area larger : Territory) : Prop where
  caches : ∀ id, area.caches id → larger.caches id
  chains : ∀ id, area.chains id → larger.chains id
  roles : ∀ id, area.roles id → larger.roles id

/-- Which of its providers made the last credentials of a chain, as far as that is noted. -/
def World.current (world : World) (chain : Nat) : Option Nat :=
  world.chains.getD chain none

/-- A write changes no caches and notes but those of a territory. Managers stay in use as they are,
and so does background refresh. -/
structure World.StaysIn (area : Territory) (world after : World) : Prop where
  cache : ∀ id, ¬ area.caches id → after.cache id = world.cache id
  current : ∀ id, ¬ area.chains id → after.current id = world.current id
  noted : ∀ id, ¬ area.roles id → after.roles.getD id none = world.roles.getD id none
  dropped : ∀ id, (after.managed id).dropped = (world.managed id).dropped
  background : ∀ id, (after.manager id).background = (world.manager id).background
  managerCount : after.managers.length = world.managers.length
  cacheCount : after.caches.length = world.caches.length

namespace World.StaysIn

variable {area : Territory} {world middle after : World} {id : Nat}

/-- To write nothing stays in every territory. -/
theorem refl (world : World) : world.StaysIn area world :=
  ⟨fun _ _ => rfl, fun _ _ => rfl, fun _ _ => rfl, fun _ => rfl, fun _ => rfl, rfl, rfl⟩

/-- Two writes that stay in a territory, one after the other, stay in it. -/
theorem trans (first : world.StaysIn area middle) (second : middle.StaysIn area after) :
    world.StaysIn area after where
  cache id h := (second.cache id h).trans (first.cache id h)
  current id h := (second.current id h).trans (first.current id h)
  noted id h := (second.noted id h).trans (first.noted id h)
  dropped id := (second.dropped id).trans (first.dropped id)
  background id := (second.background id).trans (first.background id)
  managerCount := second.managerCount.trans first.managerCount
  cacheCount := second.cacheCount.trans first.cacheCount

/-- What is written where no territory is. -/
theorem aside (managers : after.managers = world.managers) (caches : after.caches = world.caches)
    (chains : after.chains = world.chains) (roles : after.roles = world.roles) :
    world.StaysIn area after := by
  constructor <;>
    simp [World.cache, World.current, World.manager, World.managed, managers, caches, chains, roles]

/-- A change of a manager that leaves background refresh alone. -/
theorem alterManager {f : TokenManager → TokenManager}
    (h : (f (world.manager id)).background = (world.manager id).background) :
    world.StaysIn area (world.alterManager id f) where
  cache _ _ := rfl
  current _ _ := rfl
  noted _ _ := rfl
  dropped other := by
    simp only [World.managed, World.alterManager, List.getD_eq_getElem?_getD, List.getElem?_modify]
    cases world.managers[other]? <;> simp
    split <;> rfl
  background other := by
    rw [World.manager_alterManager]
    split
    · next hid => rw [← hid.1, h]
    · rfl
  managerCount := by simp [World.alterManager]
  cacheCount := rfl

/-- How many tasks that follow advice use a manager does not count for any territory. -/
theorem useManager (world : World) (id : ManagerId) {f : Managed → Managed}
    (hmanager : ∀ entry, (f entry).manager = entry.manager)
    (hdropped : ∀ entry, (f entry).dropped = entry.dropped) :
    world.StaysIn area { world with managers := world.managers.modify id f } where
  cache _ _ := rfl
  current _ _ := rfl
  noted _ _ := rfl
  dropped other := by
    simp only [World.managed, List.getD_eq_getElem?_getD, List.getElem?_modify]
    cases world.managers[other]? with
    | none => rfl
    | some entry => by_cases heq : id = other <;> simp [heq, hdropped]
  background other := by rw [World.manager_modify world id other hmanager]
  managerCount := by simp
  cacheCount := rfl

/-- To engage a manager stays in every territory. -/
theorem engage (world : World) (id : ManagerId) : world.StaysIn area (world.engage id) :=
  useManager world id (fun _ => rfl) fun _ => rfl

/-- To let a manager go stays in every territory. -/
theorem disengage (world : World) (id : ManagerId) : world.StaysIn area (world.disengage id) :=
  useManager world id (fun _ => rfl) fun _ => rfl

/-- A change of a cache of the territory stays in it. -/
theorem alterCache (h : area.caches id) (f : CredentialsCache → CredentialsCache) :
    world.StaysIn area (world.alterCache id f) where
  cache other hother := by
    rw [World.cache_alterCache, if_neg]
    rintro ⟨rfl, -⟩
    exact hother h
  current _ _ := rfl
  noted _ _ := rfl
  dropped _ := rfl
  background _ := rfl
  managerCount := rfl
  cacheCount := by simp [World.alterCache]

/-- A note about a chain of the territory stays in it. -/
theorem setCurrent (h : area.chains id) (place : Option Nat) :
    world.StaysIn area (world.setCurrent id place) where
  cache _ _ := rfl
  current other hother := by
    have hne : id ≠ other := by
      rintro rfl
      exact hother h
    simp [World.current, World.setCurrent, List.getElem?_set_ne hne]
  noted _ _ := rfl
  dropped _ := rfl
  background _ := rfl
  managerCount := rfl
  cacheCount := rfl

/-- A note about a role of the territory stays in it. -/
theorem noteRole (h : area.roles id) (expiry : Option Instant) :
    world.StaysIn area { world with roles := world.roles.set id expiry } where
  cache _ _ := rfl
  current _ _ := rfl
  noted other hother := by
    have hne : id ≠ other := by
      rintro rfl
      exact hother h
    simp [List.getElem?_set_ne hne]
  dropped _ := rfl
  background _ := rfl
  managerCount := rfl
  cacheCount := rfl

/-- A warning stays in every territory. -/
theorem warn (world : World) (warning : Warning) : world.StaysIn area (world.warn warning) := by
  unfold World.warn
  split
  · exact refl world
  · exact aside rfl rfl rfl rfl

/-- To send a request stays in every territory. -/
theorem exchange (world : World) (request : Except TokenError Http.Request) :
    world.StaysIn area (world.exchange request).1 := by
  cases request with
  | error error => exact refl world
  | ok request => exact aside rfl rfl rfl rfl

/-- A response that arrives stays in every territory. -/
theorem exchange_arrive (world later : World) (request : Except TokenError Http.Request) :
    later.StaysIn area ((world.exchange request).2.arrive later).1 := by
  cases request with
  | error error => exact refl later
  | ok request => exact aside rfl rfl rfl rfl

/-- To ask a token source stays in every territory. -/
theorem issue (world : World) (issuer : Issuer) : world.StaysIn area (world.issue issuer).1 := by
  cases issuer with
  | absent => exact refl world
  | apiKey issuer => exact exchange world _
  | scripted id => exact aside rfl rfl rfl rfl

/-- An answer of a token source that arrives stays in every territory. -/
theorem issue_arrive (world later : World) (issuer : Issuer) :
    later.StaysIn area ((world.issue issuer).2.arrive later).1 := by
  cases issuer with
  | absent => exact refl later
  | apiKey issuer => exact exchange_arrive world later _
  | scripted id => exact refl later

/-- To note the beginning of a call stays in every territory. -/
theorem beginIssue (world : World) (id : ManagerId) (call : RefreshCall) :
    world.StaysIn area (world.beginIssue id call).1 := by
  have hasked : world.StaysIn area (world.issue (world.managed id).issuer).1 := issue world _
  exact hasked.trans (alterManager (f := (·.beginIssue call world.elapsed _)) rfl)

/-- To ask a scripted provider stays in every territory. -/
theorem askProvider (world : World) (script : Nat) :
    world.StaysIn area (world.askProvider script).1 := by
  unfold World.askProvider
  dsimp only
  split
  · exact refl world
  · exact aside rfl rfl rfl rfl

/-- An answer of a scripted provider that arrives stays in every territory. -/
theorem askProvider_arrive (world later : World) (script : Nat) :
    later.StaysIn area ((world.askProvider script).2.arrive later).1 := by
  unfold World.askProvider
  dsimp only
  split <;> exact refl later

/-- To ask for a role to be assumed stays in every territory. -/
theorem assume (world : World) (assumer : Nat) (source : Credentials) (request : RoleRequest) :
    world.StaysIn area (world.assume assumer source request).1 :=
  aside rfl rfl rfl rfl

end World.StaysIn

namespace TokenManager

variable (manager : TokenManager)

/-- Whoever leaves a manager leaves its loop alone. -/
@[simp] theorem background_leave (call : RefreshCall) :
    (manager.leave call).background = manager.background := rfl

/-- A call that is settled leaves the loop alone. -/
@[simp] theorem background_settle (call : RefreshCall) (answer : Except TokenError Token) :
    (manager.settle call answer).background = manager.background := by
  cases answer <;> rfl

/-- A call that is abandoned leaves the loop alone. -/
@[simp] theorem background_abandon (task : TaskId) :
    (manager.abandon task).background = manager.background := by
  unfold abandon
  split <;> rfl

/-- Advice leaves the loop alone. -/
theorem background_of_advise {after : TokenManager} (h : manager.advise = some after) :
    after.background = manager.background := by
  rw [eq_of_advise h]

end TokenManager

namespace Activity

variable {α β : Type} {area : Territory} {world : World}

/-- From this world on, every write of the activity stays in the territory, and no task is started or
aborted, except that a refresh may be advised. -/
def StaysFrom (area : Territory) : Activity α → World → Prop
  | .done _, _ | .fail _, _ => True
  | .read next, world => (next world).StaysFrom area world
  | .clock next, _ => ∀ time later, (next time).StaysFrom area later
  | .write after next, world => world.StaysIn area after ∧ ∀ later, next.StaysFrom area later
  | .self next, world => ∀ me, (next me).StaysFrom area world
  | .park next, _ | .pass next, _ | .sleep _ next, _ => ∀ later, next.StaysFrom area later
  | .wake _ next, world => next.StaysFrom area world
  | .spawn job next, _ =>
    (∃ manager, job = .advisory manager) ∧ ∀ task later, (next task).StaysFrom area later
  | .abort _ _, _ => False

/-- Every write of the activity stays in the territory. -/
def Stays (area : Territory) (activity : Activity α) : Prop :=
  ∀ world, activity.StaysFrom area world

/-- One activity after another stays in a territory if the first does from here and the second
always. -/
theorem StaysFrom.bind {activity : Activity α} {f : α → Activity β}
    (first : activity.StaysFrom area world) (second : ∀ value, (f value).Stays area) :
    (activity >>= f).StaysFrom area world := by
  change (activity.bind f).StaysFrom area world
  induction activity generalizing world with
  | done value => exact second value world
  | fail => trivial
  | read next ih => exact ih _ first
  | clock next ih => exact fun time later => ih time (first time later)
  | write after next ih => exact ⟨first.1, fun later => ih (first.2 later)⟩
  | self next ih => exact fun me => ih me (first me)
  | park next ih => exact fun later => ih (first later)
  | pass next ih => exact fun later => ih (first later)
  | sleep span next ih => exact fun later => ih (first later)
  | wake task next ih => exact ih first
  | spawn job next ih => exact ⟨first.1, fun task later => ih task (first.2 task later)⟩
  | abort task next => exact first.elim

/-- One activity after another stays in a territory if both do. -/
theorem Stays.bind {activity : Activity α} {f : α → Activity β} (first : activity.Stays area)
    (second : ∀ value, (f value).Stays area) : (activity >>= f).Stays area :=
  fun world => (first world).bind second

/-- A task that is done stays in every territory. -/
theorem stays_pure (value : α) : (pure value : Activity α).Stays area := fun _ => trivial

/-- A mapped activity stays where the activity does. -/
theorem Stays.map {activity : Activity α} (h : activity.Stays area) (f : α → β) :
    (f <$> activity).Stays area :=
  h.bind fun _ => stays_pure _

/-- To read the world stays in every territory. -/
theorem stays_world : Activity.world.Stays area := fun _ => trivial

/-- What follows a look at the world knows what was seen. -/
theorem stays_world_bind {f : World → Activity β} (h : ∀ world, (f world).StaysFrom area world) :
    (Activity.world >>= f).Stays area := h

/-- To read the clock stays in every territory. -/
theorem stays_now : Activity.now.Stays area := fun _ _ _ => trivial

/-- To ask for its own name stays in every territory. -/
theorem stays_me : Activity.me.Stays area := fun _ _ => trivial

/-- A change that stays in a territory from here does so as an activity. -/
theorem staysFrom_modify {f : World → World} (h : world.StaysIn area (f world)) :
    (modify f).StaysFrom area world :=
  ⟨h, fun _ => trivial⟩

/-- A change that always stays in a territory does so as an activity. -/
theorem stays_modify {f : World → World} (h : ∀ world : World, world.StaysIn area (f world)) :
    (modify f).Stays area :=
  fun world => staysFrom_modify (h world)

/-- A change that has a result and always stays in a territory does so as an activity. -/
theorem stays_update {f : World → World × α} (h : ∀ world : World, world.StaysIn area (f world).1) :
    (update f).Stays area :=
  fun world => ⟨h world, fun _ => trivial⟩

/-- A check stays in every territory. -/
theorem stays_check (value : Except Overflow α) : (check value).Stays area := by
  intro world
  cases value <;> trivial

/-- To wait stays in every territory. -/
theorem stays_wait : wait.Stays area := fun _ _ => trivial

/-- To pause stays in every territory. -/
theorem stays_pause (span : Span) : (pause span).Stays area := fun _ _ => trivial

/-- To wake a task stays in every territory. -/
theorem stays_notify (task? : Option TaskId) : (notify task?).Stays area := by
  intro world
  cases task? <;> trivial

/-- What follows a change of the world knows its outcome. -/
theorem stays_update_bind {f : World → World × α} {g : α → Activity β}
    (hchange : ∀ world : World, world.StaysIn area (f world).1)
    (hnext : ∀ world : World, (g (f world).2).Stays area) : (update f >>= g).Stays area :=
  fun world => ⟨hchange world, fun later => hnext world later⟩

/-- To await an answer stays in a territory if its arrival always does. -/
theorem stays_await {answer : Underway α}
    (harrive : ∀ later : World, later.StaysIn area (answer.arrive later).1) :
    (await answer).Stays area :=
  (stays_pause _).bind fun _ => stays_update harrive

/-- A stride stays in the territory, and so does what comes after it. -/
theorem StaysFrom.stride {activity rest : Activity α} {me : TaskId} {after : World}
    (stays : activity.StaysFrom area world)
    (h : activity.stride me world = (.waiting rest, after)) :
    world.StaysIn area after ∧ rest.Stays area := by
  induction activity generalizing world with
  | done => cases h
  | fail => cases h
  | read next ih => exact ih _ stays h
  | clock next =>
    cases h
    exact ⟨.refl _, stays _⟩
  | self next ih => exact ih me (stays me) h
  | wake task next ih => exact ih stays h
  | write written next =>
    cases h
    exact stays
  | spawn job next =>
    cases h
    exact ⟨.refl _, fun _ => stays⟩
  | abort => exact stays.elim
  | _ =>
    cases h
    exact ⟨.refl _, stays⟩

end Activity

/-! ## Managers and caches -/

section

open Activity

variable {area : Territory}

/-- To await a token stays in a territory if its arrival always does. -/
theorem ManagerId.stays_awaitToken (policy : RefreshPolicy)
    {answer : Underway (Except TokenError Token)}
    (harrive : ∀ later : World, later.StaysIn area (answer.arrive later).1) :
    (awaitToken policy answer).Stays area := by
  unfold awaitToken
  split
  · exact stays_await harrive
  · refine stays_world.bind fun began => (stays_pause _).bind fun _ => stays_world.bind fun later => ?_
    split
    · exact stays_update harrive
    · exact stays_pure _

/-- A change of a manager that leaves its loop alone stays in every territory, whomever it wakes. -/
theorem ManagerId.stays_alterAndWake (id : ManagerId) {f : TokenManager → TokenManager}
    (h : ∀ manager, (f manager).background = manager.background) :
    (id.alterAndWake f).Stays area := by
  unfold alterAndWake
  refine stays_world_bind fun world => ?_
  have hwrite : world.StaysIn area (world.alterManager id fun _ => f (world.manager id)) :=
    .alterManager (h _)
  refine (staysFrom_modify hwrite).bind fun _ => ?_
  split
  · exact stays_notify _
  · exact stays_pure _

/-- A refresh behind the gate stays in every territory. -/
theorem ManagerId.stays_refreshInside (id : ManagerId) (call : RefreshCall) :
    (id.refreshInside call).Stays area := by
  unfold refreshInside
  refine stays_world.bind fun world => ?_
  refine stays_update_bind (fun asked => .beginIssue asked id call) fun asked => ?_
  refine (stays_awaitToken _ fun later => .issue_arrive asked later _).bind fun answer => ?_
  have hend : ((id.alterAndWake fun manager => manager.settle call answer) >>= fun _ =>
      pure answer).Stays area :=
    (stays_alterAndWake id fun manager => manager.background_settle call answer).bind
      fun _ => stays_pure _
  dsimp only
  split
  · exact (stays_modify fun later => .warn later _).bind fun _ => hend
  · exact hend

/-- A refresh stays in every territory. -/
theorem ManagerId.stays_refreshFor (id : ManagerId) (purpose : Purpose) :
    (id.refreshFor purpose).Stays area := by
  have hinside (call : RefreshCall) : (id.takeOrRefresh call).Stays area := by
    unfold takeOrRefresh
    refine stays_world.bind fun world => (stays_check _).bind fun token? => ?_
    cases token? with
    | some token =>
      have hleave : (id.alterAndWake (·.leave call)).Stays area :=
        stays_alterAndWake id fun manager => manager.background_leave call
      exact hleave.bind fun _ => stays_pure _
    | none => exact stays_refreshInside id call
  unfold refreshFor
  refine stays_me.bind fun me => (stays_modify fun later => .alterManager rfl).bind fun _ => ?_
  refine stays_world.bind fun world => ?_
  dsimp only
  split
  · exact stays_wait.bind fun _ => hinside _
  · exact hinside _

/-- Advice stays in every territory. -/
theorem ManagerId.stays_advise (id : ManagerId) : id.advise.Stays area := by
  unfold advise
  refine stays_world_bind fun world => ?_
  cases hadvise : (world.manager id).advise with
  | none => trivial
  | some manager =>
    have hbackground := TokenManager.background_of_advise _ hadvise
    refine (staysFrom_modify (.alterManager hbackground)).bind fun _ => ?_
    split
    · exact (stays_modify fun later => .engage later id).bind fun _ =>
        fun _ => ⟨⟨id, rfl⟩, fun _ _ => trivial⟩
    · exact stays_modify fun _ => .alterManager rfl

/-- To get a token from a manager stays in every territory. -/
theorem ManagerId.stays_get (id : ManagerId) : id.get.Stays area := by
  unfold get
  refine stays_now.bind fun now => stays_world.bind fun world =>
    (stays_check _).bind fun phase => ?_
  split
  · exact stays_pure _
  · exact (stays_advise id).bind fun _ => stays_pure _
  · exact stays_refreshFor id _

/-- An exchange with the token service stays in every territory. -/
theorem Iam.stays_exchange (request : World → Except TokenError Http.Request) :
    (exchange request).Stays area :=
  stays_update_bind (fun world => .exchange world _) fun world =>
    stays_await fun later => .exchange_arrive world later _

/-- A change of a cache of the territory stays in it, whomever it wakes. -/
theorem stays_alterCacheAndWake {id : Nat} (h : area.caches id)
    (f : CredentialsCache → CredentialsCache) : (alterCacheAndWake id f).Stays area := by
  unfold alterCacheAndWake
  refine stays_world.bind fun world => (stays_modify fun _ => .alterCache h _).bind fun _ => ?_
  split
  · exact stays_notify _
  · exact stays_pure _

/-- To get what is cached stays in a territory that has the cache, if the retrieval does. -/
theorem stays_getCached {id : Nat} (h : area.caches id) {expired : World → Except Overflow Bool}
    {retrieve : Activity Retrieved} (hretrieve : retrieve.Stays area) :
    (getCached id expired retrieve).Stays area := by
  have hinside (me : TaskId) : (serveOrRetrieve id me expired retrieve).Stays area := by
    unfold serveOrRetrieve
    refine stays_world.bind fun world => (stays_check _).bind fun decided => ?_
    refine (stays_modify fun _ => .alterCache h _).bind fun _ => ?_
    obtain ⟨cache, decision⟩ := decided
    cases decision with
    | serve credentials => exact (stays_alterCacheAndWake h _).bind fun _ => stays_pure _
    | retrieve forced =>
      refine hretrieve.bind fun result => ?_
      exact (stays_alterCacheAndWake h _).bind fun _ => stays_pure _
  unfold getCached
  refine stays_me.bind fun me => (stays_modify fun _ => .alterCache h _).bind fun _ => ?_
  refine stays_world.bind fun world => ?_
  dsimp only
  split
  · exact stays_wait.bind fun _ => hinside me
  · exact hinside me

/-- To ask in order stays in a territory that has the chain, if every link does. -/
theorem stays_askInOrder {chain : Nat} (h : area.chains chain) (verbose : Bool) (place : Nat)
    (errors : List CredentialsError) {links : List (Activity Retrieved)}
    (hlinks : ∀ link ∈ links, link.Stays area) :
    (askInOrder chain verbose place errors links).Stays area := by
  have hcurrent (current : Option Nat) : (Activity.modify (·.setCurrent chain current)).Stays area :=
    stays_modify fun _ => .setCurrent h current
  induction links generalizing place errors with
  | nil => exact (hcurrent none).bind fun _ => stays_pure _
  | cons link rest ih =>
    rw [askInOrder]
    refine (hlinks link List.mem_cons_self).bind fun result => ?_
    cases result with
    | ok credentials => exact (hcurrent _).bind fun _ => stays_pure _
    | error error => exact ih _ _ fun other hother => hlinks other (List.mem_cons_of_mem _ hother)

/-- To retrieve by a role stays in a territory that has the role, if its source does. -/
theorem Role.stays_retrieve {role : Role} {expiry assumer : Nat} (h : area.roles expiry)
    {source : Activity Retrieved} (hsource : source.Stays area) :
    (role.retrieve expiry assumer source).Stays area := by
  unfold retrieve
  refine hsource.bind fun result => ?_
  cases result with
  | error error => exact stays_pure _
  | ok credentials =>
    refine stays_world.bind fun world => ?_
    split
    · exact stays_pure _
    · refine (stays_update fun later => .assume later _ _ _).bind fun answer => ?_
      cases answer with
      | error detail => exact stays_pure _
      | ok assumed => exact (stays_modify fun _ => .noteRole h _).bind fun _ => stays_pure _

end

/-! ## Providers -/

namespace Provider

mutual

/-- The caches and notes that the provider is made with are those of the territory. -/
def IsWithin (area : Territory) : Provider → Prop
  | .chain current _ links => area.chains current ∧ AreWithin area links
  | .assumed expiry _ _ source => area.roles expiry ∧ IsWithin area source
  | .cached cache inner => area.caches cache ∧ IsWithin area inner
  | .fixed _ => True
  | .keys _ => True
  | .diagnostic _ _ => True
  | .tokens _ _ _ => True
  | .invalid _ _ => True
  | .trustedProfile _ _ => True
  | .scripted _ => True

/-- Those of several providers are. -/
def AreWithin (area : Territory) : List Provider → Prop
  | [] => True
  | link :: rest => IsWithin area link ∧ AreWithin area rest

end

variable {area larger : Territory}

/-- A link is made of what the links are made of. -/
theorem AreWithin.of_mem {links : List Provider} (within : AreWithin area links) {link : Provider}
    (hlink : link ∈ links) : link.IsWithin area := by
  induction links with
  | nil => cases hlink
  | cons first rest ih =>
    rcases List.mem_cons.mp hlink with rfl | hrest
    · exact within.1
    · exact ih within.2 hrest

mutual

/-- What is within a territory is within a larger one. -/
theorem IsWithin.mono (provider : Provider) (within : provider.IsWithin area)
    (h : area.IsPartOf larger) : provider.IsWithin larger := by
  cases provider with
  | chain current verbose links => exact ⟨h.chains _ within.1, AreWithin.mono links within.2 h⟩
  | assumed expiry role assumer source =>
    exact ⟨h.roles _ within.1, IsWithin.mono source within.2 h⟩
  | cached cache inner => exact ⟨h.caches _ within.1, IsWithin.mono inner within.2 h⟩
  | _ => trivial

/-- Links within a territory are within a larger one. -/
theorem AreWithin.mono (links : List Provider) (within : AreWithin area links)
    (h : area.IsPartOf larger) : AreWithin larger links := by
  cases links with
  | nil => trivial
  | cons link rest => exact ⟨IsWithin.mono link within.1 h, AreWithin.mono rest within.2 h⟩

end

mutual

/-- Every provider is within the largest territory. -/
theorem isWithin_everything (provider : Provider) : provider.IsWithin .everything := by
  cases provider with
  | chain current verbose links => exact ⟨trivial, areWithin_everything links⟩
  | assumed expiry role assumer source => exact ⟨trivial, isWithin_everything source⟩
  | cached cache inner => exact ⟨trivial, isWithin_everything inner⟩
  | _ => trivial

/-- All links are within the territory that has everything. -/
theorem areWithin_everything (links : List Provider) : AreWithin .everything links := by
  cases links with
  | nil => trivial
  | cons link rest => exact ⟨isWithin_everything link, areWithin_everything rest⟩

end

open Activity

mutual

/-- A provider stays among the caches and notes that it is made with. -/
theorem stays_retrieve (provider : Provider) (within : provider.IsWithin area) :
    provider.retrieve.Stays area := by
  cases provider with
  | fixed credentials => exact stays_pure _
  | keys credentials => exact stays_pure _
  | diagnostic code detail => exact stays_pure _
  | invalid name error => exact stays_pure _
  | tokens name manager serviceInstance =>
    rw [retrieve]
    exact (ManagerId.stays_get manager).map _
  | trustedProfile issuer serviceInstance =>
    rw [retrieve]
    exact (Iam.stays_exchange _).map _
  | scripted script =>
    rw [retrieve]
    exact stays_update_bind (fun world => .askProvider world script) fun world =>
      stays_await fun later => .askProvider_arrive world later script
  | chain current verbose links =>
    rw [retrieve]
    exact stays_askInOrder within.1 verbose 0 [] (stays_retrieveEach links within.2)
  | assumed expiry role assumer source =>
    rw [retrieve]
    exact Role.stays_retrieve within.1 (source.stays_retrieve within.2)
  | cached cache inner =>
    rw [retrieve]
    exact stays_getCached within.1 (inner.stays_retrieve within.2)

/-- Links within a territory stay in it when they retrieve. -/
theorem stays_retrieveEach (links : List Provider) (within : AreWithin area links) :
    ∀ link ∈ retrieveEach links, link.Stays area := by
  cases links with
  | nil => simp [retrieveEach]
  | cons link rest =>
    intro activity hactivity
    rw [retrieveEach] at hactivity
    rcases List.mem_cons.mp hactivity with rfl | hmem
    · exact link.stays_retrieve within.1
    · exact stays_retrieveEach rest within.2 activity hmem

end

end Provider

end CloudSession
