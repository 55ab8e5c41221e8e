import CloudSession.Proofs.TokenManager.Refresh
import CloudSession.Provider.Retrieve

/-!
# What retrievals do

A caller of a cache behaves if its provider does, and what it returns is what was cached, where the
provider did not call that expired, or what it has retrieved itself inside the gate. Providers of
all kinds behave if the managers and caches that they name are there and no cache is asked from
inside.
-/

namespace CloudSession

section Cache

variable {start : World} {me : RefreshCall} {held : List Nat} {history : History} {c : Nat}

/-- What is done to the cache that a task stands at is done to it as it is now. -/
theorem Visit.cache_after (visit : Visit start me held (some (.cache c)) history)
    (known : c < start.caches.length) (f : CredentialsCache → CredentialsCache) :
    (history.now.alterCache c f).cache c = f (history.now.cache c) := by
  have hknown : c < history.now.caches.length := by
    rw [visit.since.cacheCount]
    exact known
  simp [World.cache_alterCache, hknown]

/-- A deed at a cache does not end a visit. -/
theorem Visit.after_cache (visit : Visit start me held (some (.cache c)) history) (hnew : c ∉ held)
    {f : CredentialsCache → CredentialsCache}
    (deed : (history.now.cache c).Deed me.task (f (history.now.cache c))) :
    history.now.Deed me (history.now.alterCache c f) ∧
      Visit start me held (some (.cache c)) (history.after (history.now.alterCache c f)) := by
  have hdeed := visit.standing.deed_alterCache deed
  exact ⟨hdeed, visit.standing.alterCache hnew deed, visit.since.trans hdeed.precedes⟩

/-- A task that changes a cache and is away from its gate afterwards wakes only tasks that do not
wait any more. -/
theorem behaves_alterCacheAndWake {f : CredentialsCache → CredentialsCache}
    {post : Unit → History → Prop} (sound : history.now.Sound)
    (known : c < history.now.caches.length)
    (deed : history.now.Deed me (history.now.alterCache c fun _ => f (history.now.cache c)))
    (haway : me.task ∉ (f (history.now.cache c)).gate.callers)
    (hpost : post ()
      (history.after (history.now.alterCache c fun _ => f (history.now.cache c)))) :
    (alterCacheAndWake c f).Behaves me post history := by
  have hcache : (history.now.alterCache c fun _ => f (history.now.cache c)).cache c =
      f (history.now.cache c) := by simp [World.cache_alterCache, known]
  unfold alterCacheAndWake
  simp only [Activity.behaves_bind, Activity.behaves_world, Activity.behaves_modify]
  refine ⟨deed, ?_⟩
  split
  · next hchanged =>
    refine Activity.behaves_notify.mpr ⟨?_, hpost⟩
    intro task htask
    have hne : task ≠ me.task := by
      rintro rfl
      exact haway (Gate.mem_callers.mpr (.inl htask))
    have hholder := hcache ▸ htask
    refine ⟨hne, ⟨.cache c, Gate.mem_callers.mpr (.inl hholder)⟩,
      deed.not_isWaiting_of_admitted_cache sound hne ?_ hholder⟩
    intro hbefore
    exact hchanged (by rw [htask, hbefore])
  · exact hpost

/-- A task that visits a cache and goes away from its gate. -/
theorem Visit.behaves_alterCacheAndWake {f : CredentialsCache → CredentialsCache}
    {post : Unit → History → Prop} (visit : Visit start me held (some (.cache c)) history)
    (known : c < start.caches.length) (hnew : c ∉ held)
    (deed : (history.now.cache c).Deed me.task (f (history.now.cache c)))
    (haway : me.task ∉ (f (history.now.cache c)).gate.callers)
    (hpost : ∀ world : World, Visit start me held none (history.after world) →
      post () (history.after world)) :
    (alterCacheAndWake c f).Behaves me post history := by
  obtain ⟨hdeed, hvisit⟩ := visit.after_cache hnew (f := fun _ => f (history.now.cache c)) deed
  have hcache := visit.cache_after known fun _ => f (history.now.cache c)
  have hknown : c < history.now.caches.length := by
    rw [visit.since.cacheCount]
    exact known
  refine CloudSession.behaves_alterCacheAndWake visit.standing.sound hknown hdeed haway (hpost _ ?_)
  exact ⟨hvisit.standing.awayFromCache (by rw [History.after, hcache]; exact haway), hvisit.since⟩

/-- What a caller of a cache may get: what is cached where the provider does not call it expired, or
what is retrieved inside the gate. What it has seen is not taken back. -/
structure Gives (c : Nat) (task : TaskId) (expired : World → Except Overflow Bool)
    (result : Retrieved → List World → Prop) : Prop where
  mono : ∀ retrieved seen later, seen ⊆ later → result retrieved seen → result retrieved later
  served : ∀ seen, ∀ world ∈ seen, ∀ credentials, (world.cache c).gate.holder = some task →
    (world.cache c).cached = some credentials → expired world = .ok false →
      result (.ok credentials) seen

variable {expired : World → Except Overflow Bool} {retrieve : Activity Retrieved}
  {result : Retrieved → List World → Prop}

/-- A task inside the gate of a cache takes what is cached or retrieves. -/
theorem Visit.behaves_serveOrRetrieve (visit : Visit start me held (some (.cache c)) history)
    (hholder : (history.now.cache c).gate.holder = some me.task)
    (known : c < start.caches.length) (hnew : c ∉ held) (gives : Gives c me.task expired result)
    (hretrieve : ∀ later, Visit start me (c :: held) none later → retrieve.Behaves me
      (fun retrieved last => Visit start me (c :: held) none last ∧ result retrieved last.seen)
      later) :
    (serveOrRetrieve c me.task expired retrieve).Behaves me
      (fun retrieved later => Visit start me held none later ∧ result retrieved later.seen)
      history := by
  unfold serveOrRetrieve
  simp only [Activity.behaves_bind, Activity.behaves_world, Activity.behaves_check]
  rintro ⟨cache, decision⟩ hdecide
  have hgate : cache.gate = (history.now.cache c).gate := by
    rw [CredentialsCache.eq_of_decide hdecide]
  obtain ⟨hdeed, hvisit⟩ := visit.after_cache (f := fun _ => cache) hnew
    (.decide _ cache _ decision hholder hdecide)
  have hcache := visit.cache_after known fun _ => cache
  simp only [Activity.behaves_modify]
  refine ⟨hdeed, ?_⟩
  cases decision with
  | serve credentials =>
    obtain ⟨hcached, -, hexpired⟩ := CredentialsCache.served_of_decide hdecide
    simp only [Activity.behaves_bind, Activity.behaves_pure]
    refine hvisit.behaves_alterCacheAndWake known hnew (.leave _)
      (Gate.not_mem_leave_callers (hvisit.standing.sound.distinct c)) ?_
    intro world hdone
    have hseen : history.now ∈
        ((history.after (history.now.alterCache c fun _ => cache)).after world).seen :=
      History.seen_subset_after _ _ (History.seen_subset_after _ _ history.now_mem_seen)
    exact ⟨hdone, gives.served _ _ hseen _ hholder hcached hexpired⟩
  | retrieve forced =>
    have hinside := hvisit.standing.enter (by rw [History.after, hcache, hgate, hholder])
    simp only [Activity.behaves_bind, Activity.behaves_pure]
    refine (hretrieve _ ⟨hinside, hvisit.since⟩).mono ?_
    rintro retrieved later ⟨hlater, hresult⟩
    have hback : Visit start me held (some (.cache c)) later :=
      ⟨hlater.standing.leaveInside, hlater.since⟩
    have hstill := hlater.standing.inside c List.mem_cons_self
    refine hback.behaves_alterCacheAndWake known hnew (.settle _ forced retrieved hstill) ?_ ?_
    · have hsettled : (((later.now.cache c).settle forced retrieved).leave me.task).gate =
          (later.now.cache c).gate.leave me.task := by simp [CredentialsCache.leave]
      rw [hsettled]
      exact Gate.not_mem_leave_callers (hback.standing.sound.distinct c)
    · intro world hdone
      exact ⟨hdone, gives.mono _ _ _ (later.seen_subset_after world) hresult⟩

/-- A caller of a cache passes the gate and takes what is cached or retrieves. -/
theorem Visit.behaves_getCached (visit : Visit start me held none history)
    (known : c < start.caches.length) (hnew : c ∉ held) (gives : Gives c me.task expired result)
    (hretrieve : ∀ later, Visit start me (c :: held) none later → retrieve.Behaves me
      (fun retrieved last => Visit start me (c :: held) none last ∧ result retrieved last.seen)
      later) :
    (getCached c expired retrieve).Behaves me
      (fun retrieved later => Visit start me held none later ∧ result retrieved later.seen)
      history := by
  have haway := visit.standing.caches c (by simp) hnew
  obtain ⟨hdeed, hvisit⟩ := (visit.toward (.cache c)).after_cache (f := (·.arrive me.task)) hnew
    (.arrive _ haway)
  have hcache := (visit.toward (.cache c)).cache_after known (·.arrive me.task)
  unfold getCached
  simp only [Activity.behaves_bind, Activity.behaves_world, Activity.behaves_me,
    Activity.behaves_modify]
  refine ⟨hdeed, ?_⟩
  split
  · next hwaits =>
    have hqueue : me.task ∈
        ((history.after (history.now.alterCache c (·.arrive me.task))).now.cache c).gate.queue := by
      rw [History.after, hcache] at hwaits ⊢
      cases h : (history.now.cache c).gate.holder <;>
        simp_all [CredentialsCache.arrive, Gate.arrive]
    simp only [Activity.behaves_bind, Activity.behaves_wait]
    intro later grows hadmitted
    refine (hvisit.grows grows).behaves_serveOrRetrieve ?_ known hnew gives hretrieve
    have hpresent : me.task ∈ (later.now.cache c).gate.queue ∨
        (later.now.cache c).gate.holder = some me.task := by
      refine grows.stable (P := fun world => me.task ∈ (world.cache c).gate.queue ∨
        (world.cache c).gate.holder = some me.task) ?_ (.inl hqueue)
      rintro world after elsewhere (hwaiting | hinside)
      · exact elsewhere.cache_queue hwaiting
      · exact .inr (elsewhere.cache_holder hinside)
    exact hpresent.resolve_left fun hwaiting => hadmitted ⟨.cache c, hwaiting⟩
  · next hadmitted =>
    exact hvisit.behaves_serveOrRetrieve (by simpa using hadmitted) known hnew gives hretrieve

end Cache

namespace Provider

mutual

/-- The managers and caches that a provider names are there, and no cache is asked from inside. -/
def Fits (world : World) (held : List Nat) : Provider → Prop
  | .tokens _ manager _ => manager < world.managers.length
  | .chain _ _ links => FitEach world held links
  | .assumed _ _ _ source => Fits world held source
  | .cached cache inner =>
    cache < world.caches.length ∧ cache ∉ held ∧ Fits world (cache :: held) inner
  | .fixed _ => True
  | .keys _ => True
  | .diagnostic _ _ => True
  | .invalid _ _ => True
  | .trustedProfile _ _ => True
  | .scripted _ => True

/-- Each of several providers fits. -/
def FitEach (world : World) (held : List Nat) : List Provider → Prop
  | [] => True
  | link :: rest => Fits world held link ∧ FitEach world held rest

end

end Provider

section Providers

variable {start : World} {me : RefreshCall} {held : List Nat} {history : History}

/-- A change that nobody notices. -/
theorem Visit.behaves_beside {f : World → World} (visit : Visit start me held none history)
    (hbeside : history.now.Beside (f history.now)) :
    history.now.Deed me (f history.now) ∧ Visit start me held none (history.after (f history.now)) :=
  ⟨hbeside.deed visit.standing.sound, visit.beside hbeside⟩

/-- A task that awaits an answer from outside stands where it stood. -/
theorem Visit.behaves_await {α : Type} {answer : Underway α}
    (visit : Visit start me held none history)
    (harrive : ∀ later : World, later.Beside (answer.arrive later).1) :
    (Activity.await answer).Behaves me (fun _ => Visit start me held none) history := by
  refine Activity.behaves_await.mpr ⟨visit.standing.not_isWaiting, fun later grows => ?_⟩
  have hlater := visit.grows grows
  exact ⟨(harrive later.now).deed hlater.standing.sound, hlater.beside (harrive later.now)⟩

/-- An exchange with the token service does not end a visit. -/
theorem Visit.behaves_exchange (visit : Visit start me held none history)
    (request : World → Except TokenError Http.Request) :
    (Iam.exchange request).Behaves me (fun _ => Visit start me held none) history := by
  have hbeside := World.beside_exchange history.now (request history.now)
  unfold Iam.exchange
  simp only [Activity.behaves_bind, Activity.behaves_update]
  exact ⟨hbeside.deed visit.standing.sound, (visit.beside hbeside).behaves_await
    fun later => World.beside_exchange_arrive history.now later (request history.now)⟩

/-- A scripted provider that is asked does not end a visit. -/
theorem Visit.behaves_scripted (visit : Visit start me held none history) (script : Nat) :
    (Provider.scripted script).retrieve.Behaves me (fun _ => Visit start me held none) history := by
  simp only [Provider.retrieve, Activity.behaves_bind, Activity.behaves_update]
  cases hanswers : (history.now.providers.getD script {}).answers with
  | nil =>
    have hbeside : history.now.Beside history.now := .refl _
    simp only [World.askProvider, hanswers]
    exact ⟨hbeside.deed visit.standing.sound, (visit.beside hbeside).behaves_await fun _ => .refl _⟩
  | cons answer rest =>
    have hbeside : history.now.Beside (history.now.askProvider script).1 := by
      simp only [World.askProvider, hanswers]
      exact ⟨fun _ => rfl, fun _ => rfl, rfl, rfl, rfl, rfl⟩
    refine ⟨hbeside.deed visit.standing.sound, (visit.beside hbeside).behaves_await ?_⟩
    intro later
    simp only [World.askProvider, hanswers]
    exact .refl later

/-- Providers that are asked one after the other. -/
theorem Visit.behaves_askInOrder (visit : Visit start me held none history) {chain place : Nat}
    {verbose : Bool} {errors : List CredentialsError} {links : List (Activity Retrieved)}
    (hlinks : ∀ link ∈ links, ∀ later, Visit start me held none later →
      link.Behaves me (fun _ => Visit start me held none) later) :
    (askInOrder chain verbose place errors links).Behaves me
      (fun _ => Visit start me held none) history := by
  have hcurrent (later : History) (hlater : Visit start me held none later) (current : Option Nat) :
      later.now.Deed me (later.now.setCurrent chain current) ∧
        Visit start me held none (later.after (later.now.setCurrent chain current)) :=
    hlater.behaves_beside (f := (·.setCurrent chain current))
      ⟨fun _ => rfl, fun _ => rfl, rfl, rfl, rfl, rfl⟩
  induction links generalizing history place errors with
  | nil =>
    simp only [askInOrder, Activity.behaves_bind, Activity.behaves_modify, Activity.behaves_pure]
    exact hcurrent history visit none
  | cons link rest ih =>
    simp only [askInOrder, Activity.behaves_bind]
    refine (hlinks link List.mem_cons_self history visit).mono ?_
    rintro (error | credentials) later hlater
    · exact ih hlater fun other hother => hlinks other (List.mem_cons_of_mem _ hother)
    · simp only [Activity.behaves_bind, Activity.behaves_modify, Activity.behaves_pure]
      exact hcurrent later hlater (some place)

/-- A role that is assumed with the credentials of a source. -/
theorem behaves_assume {role : Role} {expiry assumer : Nat} {source : Activity Retrieved}
    (hsource : source.Behaves me (fun _ => Visit start me held none) history) :
    (role.retrieve expiry assumer source).Behaves me (fun _ => Visit start me held none)
      history := by
  unfold Role.retrieve
  simp only [Activity.behaves_bind]
  refine hsource.mono ?_
  rintro (error | credentials) later hlater
  · exact hlater
  · simp only [Activity.behaves_bind, Activity.behaves_world]
    cases role.completed (later.now.secondFactor role) with
    | error error => exact hlater
    | ok request =>
      have hasked : later.now.Beside (later.now.assume assumer credentials request).1 := by
        unfold World.assume
        exact ⟨fun _ => rfl, fun _ => rfl, rfl, rfl, rfl, rfl⟩
      have hafter := hlater.beside hasked
      simp only [Activity.behaves_bind, Activity.behaves_update]
      refine ⟨hasked.deed hlater.standing.sound, ?_⟩
      cases (later.now.assume assumer credentials request).2 with
      | error detail => exact hafter
      | ok assumed =>
        simp only [Activity.behaves_bind, Activity.behaves_modify, Activity.behaves_pure]
        exact hafter.behaves_beside
          (f := fun world => { world with roles := world.roles.set expiry assumed.expiry })
          ⟨fun _ => rfl, fun _ => rfl, rfl, rfl, rfl, rfl⟩

end Providers

mutual

/-- Every provider that fits behaves. -/
theorem Visit.behaves_retrieve {start : World} {me : RefreshCall} {held : List Nat}
    {history : History} (visit : Visit start me held none history)
    (hpurpose : me.purpose = .avoidStale) (provider : Provider)
    (fits : provider.Fits start held) :
    provider.retrieve.Behaves me (fun _ => Visit start me held none) history := by
  cases provider with
  | fixed credentials => exact visit
  | keys credentials => exact visit
  | diagnostic code detail => exact visit
  | invalid name error => exact visit
  | tokens name manager serviceInstance =>
    simp only [Provider.retrieve, Activity.behaves_map]
    exact (visit.behaves_get fits hpurpose).mono fun _ _ h => h.1
  | trustedProfile issuer serviceInstance =>
    simp only [Provider.retrieve, Activity.behaves_map]
    exact visit.behaves_exchange _
  | scripted script => exact visit.behaves_scripted script
  | chain current verbose links =>
    simp only [Provider.retrieve]
    exact visit.behaves_askInOrder (behaves_retrieveEach hpurpose links fits)
  | assumed expiry role assumer source =>
    simp only [Provider.retrieve]
    exact behaves_assume (visit.behaves_retrieve hpurpose source fits)
  | cached cache inner =>
    obtain ⟨known, hnew, hinner⟩ := fits
    simp only [Provider.retrieve]
    have hgives : Gives cache me.task (fun world => inner.isExpired world) fun _ _ => True :=
      ⟨fun _ _ _ _ _ => trivial, fun _ _ _ _ _ _ _ => trivial⟩
    refine (visit.behaves_getCached known hnew hgives ?_).mono fun _ _ h => h.1
    intro later hlater
    exact (hlater.behaves_retrieve hpurpose inner hinner).mono fun _ _ h => ⟨h, trivial⟩

/-- Several providers that fit behave. -/
theorem behaves_retrieveEach {start : World} {me : RefreshCall} {held : List Nat}
    (hpurpose : me.purpose = .avoidStale) (links : List Provider)
    (fits : Provider.FitEach start held links) :
    ∀ link ∈ Provider.retrieveEach links, ∀ later, Visit start me held none later →
      link.Behaves me (fun _ => Visit start me held none) later := by
  cases links with
  | nil => simp [Provider.retrieveEach]
  | cons link rest =>
    obtain ⟨hlink, hrest⟩ := fits
    intro activity hactivity later hlater
    rw [Provider.retrieveEach] at hactivity
    rcases List.mem_cons.mp hactivity with heq | hmem
    · rw [heq]
      exact hlater.behaves_retrieve hpurpose link hlink
    · exact behaves_retrieveEach hpurpose rest hrest activity hmem later hlater

end

end CloudSession
