import CloudSession.Proofs.Activity.Territory

/-!
# What an activity leaves alone

An activity spares a cache and the note of a role if none of its writes changes them, whatever
happens between its writes. Whatever a provider does to retrieve credentials, it spares the caches
and the notes that it was made without.
-/

namespace CloudSession

/-- When the last credentials of a role expire, as far as that is noted. -/
def World.noted (world : World) (r : Nat) : Option Instant :=
  world.roles.getD r none

/-- Notes when the last credentials of a role expire. -/
def World.note (world : World) (r : Nat) (expiry : Option Instant) : World :=
  { world with roles := world.roles.set r expiry }

/-- A write leaves cache `c` and the note of role `r` alone. -/
structure World.Spares (c r : Nat) (world after : World) : Prop where
  cache : after.cache c = world.cache c
  cacheCount : after.caches.length = world.caches.length
  noted : after.noted r = world.noted r

/-- To ask for a role to be assumed leaves the cache and the note of the role alone. -/
theorem World.Spares.assume {c r : Nat} (world : World) (assumer : Nat) (source : Credentials)
    (request : RoleRequest) : world.Spares c r (world.assume assumer source request).1 :=
  ⟨rfl, rfl, rfl⟩

namespace Activity

variable {α : Type} {c r : Nat}

/-- From this world on, no write of the activity changes cache `c` or the note of role `r`. -/
def SparesFrom (c r : Nat) : Activity α → World → Prop
  | .done _, _ | .fail _, _ => True
  | .read next, world => (next world).SparesFrom c r world
  | .clock next, _ => ∀ time later, (next time).SparesFrom c r later
  | .write after next, world => world.Spares c r after ∧ ∀ later, next.SparesFrom c r later
  | .self next, world => ∀ me, (next me).SparesFrom c r world
  | .park next, _ | .pass next, _ | .sleep _ next, _ | .abort _ next, _ =>
    ∀ later, next.SparesFrom c r later
  | .wake _ next, world => next.SparesFrom c r world
  | .spawn _ next, _ => ∀ task later, (next task).SparesFrom c r later

/-- No write of the activity changes cache `c` or the note of role `r`. -/
def Spares (c r : Nat) (activity : Activity α) : Prop :=
  ∀ world, activity.SparesFrom c r world

end Activity

/-! ## Providers -/

namespace Provider

mutual

/-- The provider is made without cache `c` and without the note of role `r`. -/
def Avoids (c r : Nat) : Provider → Prop
  | .chain _ _ links => AvoidEach c r links
  | .assumed expiry _ _ source => expiry ≠ r ∧ Avoids c r source
  | .cached cache inner => cache ≠ c ∧ Avoids c r inner
  | .fixed _ => True
  | .keys _ => True
  | .diagnostic _ _ => True
  | .tokens _ _ _ => True
  | .invalid _ _ => True
  | .trustedProfile _ _ => True
  | .scripted _ => True

/-- Each of several providers is made without them. -/
def AvoidEach (c r : Nat) : List Provider → Prop
  | [] => True
  | link :: rest => Avoids c r link ∧ AvoidEach c r rest

end

/-- All caches and notes but cache `c` and the note of role `r`. -/
def others (c r : Nat) : Territory where
  caches := (· ≠ c)
  chains _ := True
  roles := (· ≠ r)

mutual

/-- A provider that avoids a cache and a role is made of the others. -/
theorem Avoids.isWithin {c r : Nat} (provider : Provider) (avoids : provider.Avoids c r) :
    provider.IsWithin (others c r) := by
  cases provider with
  | chain current verbose links => exact ⟨trivial, AvoidEach.areWithin links avoids⟩
  | assumed expiry role assumer source => exact ⟨avoids.1, Avoids.isWithin source avoids.2⟩
  | cached cache inner => exact ⟨avoids.1, Avoids.isWithin inner avoids.2⟩
  | _ => trivial

/-- Links that avoid a cache and a role are made of the others. -/
theorem AvoidEach.areWithin {c r : Nat} (links : List Provider) (avoids : AvoidEach c r links) :
    AreWithin (others c r) links := by
  cases links with
  | nil => trivial
  | cons link rest => exact ⟨Avoids.isWithin link avoids.1, AvoidEach.areWithin rest avoids.2⟩

end

end Provider

/-- A write elsewhere spares the cache and the note. -/
theorem World.StaysIn.spares {c r : Nat} {world after : World}
    (stays : world.StaysIn (Provider.others c r) after) : world.Spares c r after where
  cache := stays.cache c fun hne => hne rfl
  cacheCount := stays.cacheCount
  noted := stays.noted r fun hne => hne rfl

/-- An activity that stays within the others spares the cache and the role. -/
theorem Activity.StaysFrom.sparesFrom {α : Type} {c r : Nat} {activity : Activity α} {world : World}
    (stays : activity.StaysFrom (Provider.others c r) world) : activity.SparesFrom c r world := by
  induction activity generalizing world with
  | done => trivial
  | fail => trivial
  | read next ih => exact ih _ stays
  | clock next ih => exact fun time later => ih time (stays time later)
  | write after next ih => exact ⟨stays.1.spares, fun later => ih (stays.2 later)⟩
  | self next ih => exact fun me => ih me (stays me)
  | park next ih => exact fun later => ih (stays later)
  | pass next ih => exact fun later => ih (stays later)
  | sleep span next ih => exact fun later => ih (stays later)
  | wake task next ih => exact ih stays
  | spawn job next ih => exact fun task later => ih task (stays.2 task later)
  | abort task next => exact stays.elim

/-- A provider spares the cache and the note that it is made without. -/
theorem Provider.spares_retrieve {c r : Nat} (provider : Provider) (avoids : provider.Avoids c r) :
    provider.retrieve.Spares c r :=
  fun world => (provider.stays_retrieve (Avoids.isWithin provider avoids) world).sparesFrom

end CloudSession
