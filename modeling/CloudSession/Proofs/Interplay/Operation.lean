import CloudSession.Proofs.CredentialsCache.Retrieve

/-!
# Operations

What callers can ask of token managers and caches, each as an activity. Every operation behaves, and
`Operation.Yields` says where the tokens in its reply come from. A caller that is dropped goes away
from all gates.
-/

namespace CloudSession

/-- What callers ask of token managers and caches. -/
inductive Operation where
  | getToken (manager : ManagerId)
  | refreshToken (manager : ManagerId)
  | askExpired (manager : ManagerId)
  | startBackground (manager : ManagerId)
  | stopBackground (manager : ManagerId)
  | dropManager (manager : ManagerId)
  | getCredentials (cached : CachedProvider)
  | expireCredentials (cached : CachedProvider)

/-- What callers are told. -/
inductive Reply where
  | token (answer : Except TokenError Token)
  | expired (answer : Bool)
  | credentials (retrieved : Retrieved)
  | done

/-- Credentials that carry a token: one that was offered, or that the token source has given to the
task, or that the task has found. -/
def Carries (start : World) (name : String) (id : ManagerId) (serviceInstance : Option String)
    (me : RefreshCall) (retrieved : Retrieved) (seen : List World) : Prop :=
  ∀ credentials, retrieved = .ok credentials → ∃ token,
    credentials = Credentials.ofToken token serviceInstance name ∧
      ((∃ world ∈ seen, Offered world id token) ∨ Answered start id me (.ok token) seen ∨
        Found id me token seen)

namespace Operation

/-- What a caller does. -/
def activity : Operation → Activity Reply
  | .getToken id => .token <$> id.get
  | .refreshToken id => .token <$> id.refresh
  | .askExpired id => .expired <$> id.isExpired
  | .startBackground id => (fun _ => .done) <$> id.startBackground
  | .stopBackground id => (fun _ => .done) <$> id.stopBackground
  | .dropManager id => (fun _ => .done) <$> id.drop
  | .getCredentials cached => .credentials <$> cached.get
  | .expireCredentials cached => (fun _ => .done) <$> Activity.modify cached.expire

/-- What a caller wants at the gate of a token manager. -/
def purpose : Operation → Purpose
  | .refreshToken _ => .renew
  | _ => .avoidStale

/-- How a caller calls at the gate of a token manager. -/
def call (operation : Operation) (task : TaskId) : RefreshCall := ⟨task, operation.purpose⟩

/-- The managers and caches that an operation names are there. -/
def Fits (world : World) : Operation → Prop
  | .getToken id | .refreshToken id | .askExpired id | .startBackground id | .stopBackground id
  | .dropManager id => id < world.managers.length
  | .getCredentials cached => (Provider.cached cached.cache cached.inner).Fits world []
  | .expireCredentials cached => cached.cache < world.caches.length

/-- Where a reply comes from, for a task that began in the world `start`. -/
def Yields (operation : Operation) (start : World) (me : RefreshCall) (seen : List World)
    (reply : Reply) : Prop :=
  match operation with
  | .getToken id => ∃ answer, reply = .token answer ∧
      ((∃ token, answer = .ok token ∧ Offered start id token) ∨ Answered start id me answer seen ∨
        ∃ token, answer = .ok token ∧ Found id me token seen)
  | .refreshToken id => ∃ answer, reply = .token answer ∧ Answered start id me answer seen
  | .askExpired id => ∃ answer, reply = .expired answer ∧
      (start.manager id).isExpired start.now = .ok answer
  | .getCredentials ⟨_, .tokens name id serviceInstance⟩ => ∃ retrieved,
      reply = .credentials retrieved ∧ Carries start name id serviceInstance me retrieved seen
  | _ => True

/-- What holds at the end of an operation. -/
structure Ended (operation : Operation) (start : World) (me : RefreshCall) (reply : Reply)
    (history : History) : Prop where
  visit : Visit start me [] none history
  seen : start ∈ history.seen
  yields : operation.Yields start me history.seen reply

end Operation

section Operations

variable {start : World} {id : ManagerId} {me : RefreshCall} {held : List Nat} {history : History}
  {token : Token} {seen : List World}

/-- A task that wants a new token in any case is never content with the one that it finds. -/
theorem not_found_of_renew (hpurpose : me.purpose = .renew) : ¬ Found id me token seen := by
  rintro ⟨world, -, -, htoken, husable⟩
  rw [hpurpose] at husable
  simp [TokenManager.usable?, htoken, TokenManager.serves, bind, Except.bind, pure, Except.pure]
    at husable

/-- What carries a token of a manager behind a cache. -/
theorem gives_carries (c : Nat) (name : String) (serviceInstance : Option String) :
    Gives c me.task (fun world => (Provider.tokens name id serviceInstance).isExpired world)
      (Carries start name id serviceInstance me) where
  mono retrieved seen later hseen carries := by
    rintro credentials rfl
    obtain ⟨token, hcredentials, htoken⟩ := carries credentials rfl
    refine ⟨token, hcredentials, ?_⟩
    rcases htoken with ⟨world, hworld, offered⟩ | answered | found
    · exact .inl ⟨world, hseen hworld, offered⟩
    · exact .inr (.inl (answered.mono hseen))
    · exact .inr (.inr (found.mono hseen))
  served seen world hworld credentials _ _ hexpired := by
    -- the provider calls its credentials expired at any time
    rw [Provider.isExpired] at hexpired
    cases hexpired

/-- Credentials behind a cache carry a token that was obtained inside the gate of the cache. -/
theorem Visit.behaves_getTokens (visit : Visit start me held none history)
    (known : id < start.managers.length) (hpurpose : me.purpose = .avoidStale) {name : String}
    {serviceInstance : Option String} :
    (Provider.tokens name id serviceInstance).retrieve.Behaves me
      (fun retrieved later => Visit start me held none later ∧
        Carries start name id serviceInstance me retrieved later.seen) history := by
  simp only [Provider.retrieve, Activity.behaves_map]
  refine (visit.behaves_get known hpurpose).mono ?_
  rintro answer later ⟨hvisit, hseen, hanswer⟩
  refine ⟨hvisit, ?_⟩
  intro credentials hcredentials
  cases answer with
  | error error => simp [credentialsOfToken] at hcredentials
  | ok token =>
    refine ⟨token, by simpa [credentialsOfToken] using hcredentials.symm, ?_⟩
    rcases hanswer with ⟨_, ⟨⟩, offered⟩ | answered | ⟨_, ⟨⟩, found⟩
    · exact .inl ⟨history.now, hseen, offered⟩
    · exact .inr (.inl answered)
    · exact .inr (.inr found)

/-- Credentials may be expired by hand wherever a task is. -/
theorem Visit.behaves_expire (visit : Visit start me held none history) (cached : CachedProvider)
    (hnew : cached.cache ∉ held) :
    (Activity.modify cached.expire).Behaves me (fun _ => Visit start me held none) history := by
  obtain ⟨hdeed, hvisit⟩ := (visit.toward (.cache cached.cache)).after_cache hnew
    (.expire (history.now.cache cached.cache))
  refine ⟨hdeed, hvisit.standing.awayFromCache ?_, hvisit.since⟩
  have haway := visit.standing.caches cached.cache (by simp) hnew
  rw [History.after, World.cache_alterCache]
  split
  · exact haway
  · exact haway

/-- Every operation behaves. -/
theorem Operation.behaves_activity {operation : Operation} {task : TaskId} {start : World}
    (standing : start.Standing task [] none) (fits : operation.Fits start) :
    operation.activity.Behaves (operation.call task) (operation.Ended start (operation.call task))
      ⟨start, []⟩ := by
  have hvisit : Visit start (operation.call task) [] none ⟨start, []⟩ := ⟨standing, .refl start⟩
  have hquiet {activity : Activity Unit} (behaves : activity.Behaves (operation.call task)
      (fun _ => Visit start (operation.call task) [] none) ⟨start, []⟩)
      (hyields : ∀ seen, operation.Yields start (operation.call task) seen .done) :
      ((fun _ => Reply.done) <$> activity).Behaves (operation.call task)
        (operation.Ended start (operation.call task)) ⟨start, []⟩ := by
    refine Activity.behaves_map.mpr ((behaves.remembers (List.Subset.refl _)).mono ?_)
    rintro - later ⟨hlater, hseen⟩
    exact ⟨hlater, hseen List.mem_cons_self, hyields later.seen⟩
  cases operation with
  | getToken id =>
    refine Activity.behaves_map.mpr ((hvisit.behaves_get fits rfl).mono ?_)
    rintro answer later ⟨hlater, hseen, hanswer⟩
    exact ⟨hlater, hseen, answer, rfl, hanswer⟩
  | refreshToken id =>
    have hrefresh := (hvisit.behaves_refresh fits rfl).remembers (List.Subset.refl _)
    refine Activity.behaves_map.mpr (hrefresh.mono ?_)
    rintro answer later ⟨⟨hlater, hanswer⟩, hseen⟩
    refine ⟨hlater, hseen List.mem_cons_self, answer, rfl, hanswer.resolve_right ?_⟩
    rintro ⟨token, -, found⟩
    exact not_found_of_renew rfl found
  | askExpired id =>
    refine Activity.behaves_map.mpr (behaves_isExpired fun expired hexpired => ?_)
    exact ⟨hvisit, List.mem_cons_self, expired, rfl, hexpired⟩
  | startBackground id => exact hquiet (hvisit.behaves_startBackground fits) fun _ => trivial
  | stopBackground id =>
    exact hquiet (behaves_stopBackground standing.sound (hvisit.stopBackground fits))
      fun _ => trivial
  | dropManager id => exact hquiet (hvisit.behaves_drop fits) fun _ => trivial
  | expireCredentials cached =>
    exact hquiet (hvisit.behaves_expire cached (by simp)) fun _ => trivial
  | getCredentials cached =>
    obtain ⟨cache, inner⟩ := cached
    have hother (hyields : ∀ seen reply,
        (getCredentials ⟨cache, inner⟩).Yields start ⟨task, .avoidStale⟩ seen reply) :
        (getCredentials ⟨cache, inner⟩).activity.Behaves ⟨task, .avoidStale⟩
          ((getCredentials ⟨cache, inner⟩).Ended start ⟨task, .avoidStale⟩) ⟨start, []⟩ := by
      have hretrieve := hvisit.behaves_retrieve rfl (.cached cache inner) fits
      rw [Provider.retrieve] at hretrieve
      refine Activity.behaves_map.mpr ((hretrieve.remembers (List.Subset.refl _)).mono ?_)
      rintro retrieved later ⟨hlater, hseen⟩
      exact ⟨hlater, hseen List.mem_cons_self, hyields _ _⟩
    cases inner with
    | tokens name id serviceInstance =>
      obtain ⟨known, hnew, hmanager⟩ := fits
      have hcached := hvisit.behaves_getCached known hnew (gives_carries cache name serviceInstance)
        fun later hlater => hlater.behaves_getTokens hmanager rfl
      refine Activity.behaves_map.mpr ((hcached.remembers (List.Subset.refl _)).mono ?_)
      rintro retrieved later ⟨⟨hlater, hcarries⟩, hseen⟩
      exact ⟨hlater, hseen List.mem_cons_self, retrieved, rfl, hcarries⟩
    | _ => exact hother fun _ _ => trivial

end Operations

/-- A caller that is dropped goes away from all gates, first from those of the managers. -/
def release (managers caches : Nat) : Activity Unit := do
  let me ← Activity.me
  (List.range managers).forM fun id => ManagerId.alterAndWake id (·.abandon me)
  (List.range caches).forM fun id => alterCacheAndWake id (·.leave me)

section Release

variable {me : RefreshCall} {history : History} {id : ManagerId} {c : Nat}

/-- Steps that each behave behave one after another. -/
theorem behaves_forM {α : Type} {step : α → Activity Unit} {I : History → Prop} {items : List α}
    (hstep : ∀ item ∈ items, ∀ later, I later → (step item).Behaves me (fun _ => I) later)
    (h : I history) : (items.forM step).Behaves me (fun _ => I) history := by
  induction items generalizing history with
  | nil => exact h
  | cons item rest ih =>
    simp only [List.forM, Activity.behaves_bind]
    refine (hstep item List.mem_cons_self history h).mono fun _ later hlater => ?_
    exact ih (fun other hother => hstep other (List.mem_cons_of_mem _ hother)) hlater

/-- A caller that is dropped goes away from the gate of a manager, wherever it is. -/
theorem behaves_abandonManager {start : World} (sound : history.now.Sound)
    (since : start.Precedes history.now) (known : id < start.managers.length) :
    (ManagerId.alterAndWake id (·.abandon me.task)).Behaves me
      (fun _ later => later.now.Sound ∧ start.Precedes later.now) history := by
  have hdeed := sound.deed_abandon me id
  exact behaves_alterAndWake sound (since.managerCount.symm ▸ known) hdeed
    ((sound.coherent id).isAway_abandon me.task)
    ⟨hdeed.sound sound, since.trans hdeed.precedes⟩

/-- A caller that is dropped goes away from the gate of a cache, wherever it is. -/
theorem behaves_leaveCache {start : World} (sound : history.now.Sound)
    (since : start.Precedes history.now) (known : c < start.caches.length) :
    (alterCacheAndWake c (·.leave me.task)).Behaves me
      (fun _ later => later.now.Sound ∧ start.Precedes later.now) history := by
  have hdeed := sound.deed_leaveCache me c
  exact behaves_alterCacheAndWake sound (since.cacheCount.symm ▸ known) hdeed
    (Gate.not_mem_leave_callers (sound.distinct c))
    ⟨hdeed.sound sound, since.trans hdeed.precedes⟩

/-- A caller that is dropped behaves. -/
theorem behaves_release (sound : history.now.Sound) :
    (release history.now.managers.length history.now.caches.length).Behaves me
      (fun _ later => later.now.Sound) history := by
  unfold release
  simp only [Activity.behaves_bind, Activity.behaves_me]
  refine (behaves_forM (I := fun later => later.now.Sound ∧ history.now.Precedes later.now)
    ?_ ⟨sound, .refl _⟩).mono fun _ later hlater => ?_
  · intro id hid last hlast
    exact behaves_abandonManager hlast.1 hlast.2 (List.mem_range.mp hid)
  · refine (behaves_forM (I := fun later => later.now.Sound ∧ history.now.Precedes later.now)
      ?_ hlater).mono fun _ _ h => h.1
    intro c hc last hlast
    exact behaves_leaveCache hlast.1 hlast.2 (List.mem_range.mp hc)

end Release

end CloudSession
