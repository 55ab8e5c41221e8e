import CloudSession.Proofs.Activity.Stride
import CloudSession.Provider.Retrieve

/-!
# How far a caller of a cache is

A caller of a cache in front of a scripted provider arrives at the gate, decides what to do once it
is inside, and then leaves with what is cached, or asks the provider, awaits the answer and settles.
`CacheStage` says how far it is, and `CacheStage.Step` what it does next. An activity that `Enacts` a
stage does one of these steps with each stride and nothing else, whatever happens between its
strides.
-/

namespace CloudSession

/-- What a scripted provider answers next. -/
def World.nextAnswer (world : World) (script : Nat) : Retrieved :=
  match (world.providers.getD script {}).answers with
  | [] => .error (.notLoaded "Exhausted" "script exhausted")
  | (_, answer) :: _ => answer

/-- An answer of a scripted provider that arrives leaves the world as it is. -/
theorem World.askProvider_arrive (world later : World) (script : Nat) :
    (world.askProvider script).2.arrive later = (later, world.nextAnswer script) := by
  unfold World.askProvider World.nextAnswer
  cases hanswers : (world.providers.getD script {}).answers with
  | nil => simp only [hanswers]; rfl
  | cons answer rest => simp only [hanswers]

/-- To ask a scripted provider leaves the caches alone. -/
theorem World.caches_askProvider (world : World) (script : Nat) :
    (world.askProvider script).1.caches = world.caches := by
  unfold World.askProvider
  cases hanswers : (world.providers.getD script {}).answers with
  | nil => simp only [hanswers]
  | cons answer rest => simp only [hanswers]

/-- To ask a scripted provider leaves a cache alone. -/
theorem World.cache_askProvider (world : World) (script c : Nat) :
    (world.askProvider script).1.cache c = world.cache c := by
  rw [cache, caches_askProvider, cache]

/-- A caller whose provider says whether its credentials are expired can decide what to do. -/
theorem CredentialsCache.exists_decide (cache : CredentialsCache) (past : Bool) :
    ∃ after decision, cache.decide (.ok past) = .ok (after, decision) := by
  unfold CredentialsCache.decide
  cases cache.cached with
  | none => exact ⟨_, _, rfl⟩
  | some credentials =>
    cases cache.forced with
    | true => exact ⟨_, _, rfl⟩
    | false => exact ⟨_, _, rfl⟩

/-- How far a caller of a cache is. -/
inductive CacheStage where
  /-- It has not come yet. -/
  | away
  /-- It has arrived at the gate, and waits or has been let in. -/
  | atGate
  /-- It has decided what to do inside the gate. -/
  | decided (decision : CredentialsCache.Decision)
  /-- It has asked the provider, whose answer is underway; `forced` says that it has taken note of an
  expiry by hand. -/
  | asked (forced : Bool) (answer : Retrieved)
  /-- It has the answer. -/
  | answered (forced : Bool) (answer : Retrieved)
  /-- It has left. -/
  | gone (result : Retrieved)

namespace CacheStage

/-- Whether the caller is inside the gate and has decided what to do. -/
def IsInside : CacheStage → Prop
  | .decided _ | .asked _ _ | .answered _ _ => True
  | _ => False

/-- Whether the caller awaits the answer of the provider. -/
def IsAsked : CacheStage → Prop
  | .asked _ _ => True
  | _ => False

/-- Whether the caller is at the gate, waiting or inside. -/
def IsPresent : CacheStage → Prop
  | .away | .gone _ => False
  | _ => True

/-- The answer of the provider, from when it is underway until the caller leaves. -/
def answer? : CacheStage → Option Retrieved
  | .asked _ answer | .answered _ answer => some answer
  | _ => none

/-- The credentials with which the caller leaves, if it knows them without the provider or has left
already. -/
def yield? : CacheStage → Option Credentials
  | .decided (.serve credentials) | .gone (.ok credentials) => some credentials
  | _ => none

/-- Whether the caller has taken note of an expiry by hand that is not made good yet. -/
def Owes : CacheStage → Prop
  | .decided (.retrieve forced) | .asked forced _ | .answered forced _ => forced = true
  | _ => False

/-- Whoever owes a retrieval is inside. -/
theorem isInside_of_owes {stage : CacheStage} (h : stage.Owes) : stage.IsInside := by
  cases stage <;> trivial

/-- Whoever is inside is present. -/
theorem isPresent_of_isInside {stage : CacheStage} (h : stage.IsInside) : stage.IsPresent := by
  cases stage <;> trivial

/-- Whoever has asked the provider is inside. -/
theorem isInside_of_isAsked {stage : CacheStage} (h : stage.IsAsked) : stage.IsInside := by
  cases stage <;> trivial

/-- Whoever has an answer to come is inside. -/
theorem isInside_of_answer {stage : CacheStage} {answer : Retrieved}
    (h : stage.answer? = some answer) : stage.IsInside := by
  cases stage <;> trivial

/-- Whoever has asked the provider has an answer to come. -/
theorem exists_answer {stage : CacheStage} (h : stage.IsAsked) :
    ∃ answer, stage.answer? = some answer := by
  cases stage <;> first | exact ⟨_, rfl⟩ | exact h.elim

/-- The next step of a caller of cache `c`, which asks the provider `script`. -/
inductive Step (c script : Nat) (me : TaskId) (world : World) :
    CacheStage → CacheStage → World → Prop
  | stay (stage : CacheStage) : Step c script me world stage stage world
  | arrive : Step c script me world .away .atGate (world.alterCache c (·.arrive me))
  | decide {expired : Except Overflow Bool} {cache : CredentialsCache}
      {decision : CredentialsCache.Decision}
      (hdecide : (world.cache c).decide expired = .ok (cache, decision)) :
    Step c script me world .atGate (.decided decision) (world.alterCache c fun _ => cache)
  | serve (credentials : Credentials) :
    Step c script me world (.decided (.serve credentials)) (.gone (.ok credentials))
      (world.alterCache c fun _ => (world.cache c).leave me)
  | ask (forced : Bool) :
    Step c script me world (.decided (.retrieve forced)) (.asked forced (world.nextAnswer script))
      (world.askProvider script).1
  | answer (forced : Bool) (answer : Retrieved) :
    Step c script me world (.asked forced answer) (.answered forced answer) world
  | settle (forced : Bool) (result : Retrieved) :
    Step c script me world (.answered forced result) (.gone result)
      (world.alterCache c fun _ => ((world.cache c).settle forced result).leave me)

end CacheStage

namespace Activity

variable {α β : Type} {c script : Nat} {me : TaskId} {stage : CacheStage} {world : World}
  {post : α → CacheStage → World → Prop}

/-- The activity of a caller that is at this stage does a step of the caller with each stride, and
`post` holds at the end. It sleeps exactly while it awaits the answer of the provider. -/
def Enacts (c script : Nat) (me : TaskId) (post : α → CacheStage → World → Prop) :
    Activity α → CacheStage → World → Prop
  | .done value, stage, world => post value stage world
  | .fail _, _, _ => False
  | .read next, stage, world => ¬ stage.IsAsked ∧
      (next world).Enacts c script me post stage world
  | .write after next, stage, world => ¬ stage.IsAsked ∧
      ∃ later, CacheStage.Step c script me world stage later after ∧
        ∀ world, next.Enacts c script me post later world
  | .self next, stage, world => ¬ stage.IsAsked ∧ (next me).Enacts c script me post stage world
  | .park next, stage, _ => ¬ stage.IsAsked ∧ ∀ world, next.Enacts c script me post stage world
  | .sleep _ next, stage, _ => ∃ forced answer, stage = .asked forced answer ∧
      ∀ world, next.Enacts c script me post (.answered forced answer) world
  | .wake _ next, stage, world => ¬ stage.IsAsked ∧ next.Enacts c script me post stage world
  | .clock _, _, _ | .pass _, _, _ | .spawn _ _, _, _ | .abort _ _, _, _ => False

/-- One activity after another enacts what the first leads to, and from there on what the second
does. -/
theorem enacts_bind {activity : Activity α} {f : α → Activity β}
    {post : β → CacheStage → World → Prop} :
    (activity >>= f).Enacts c script me post stage world ↔
      activity.Enacts c script me (fun value => (f value).Enacts c script me post) stage world := by
  change (activity.bind f).Enacts c script me post stage world ↔ _
  induction activity generalizing stage world with
  | done value => exact Iff.rfl
  | fail => exact Iff.rfl
  | read next ih => exact and_congr_right fun _ => ih _
  | write after next ih =>
    exact and_congr_right fun _ => exists_congr fun _ => and_congr_right fun _ =>
      forall_congr' fun _ => ih
  | self next ih => exact and_congr_right fun _ => ih _
  | park next ih => exact and_congr_right fun _ => forall_congr' fun _ => ih
  | clock next ih => exact Iff.rfl
  | pass next ih => exact Iff.rfl
  | sleep span next ih =>
    exact exists_congr fun _ => exists_congr fun _ => and_congr_right fun _ =>
      forall_congr' fun _ => ih
  | wake task next ih => exact and_congr_right fun _ => ih
  | spawn job next ih => exact Iff.rfl
  | abort task next ih => exact Iff.rfl

/-- To wake a task is no step of the stages, unless an answer is still to come. -/
theorem enacts_notify {task? : Option TaskId} {post : Unit → CacheStage → World → Prop}
    (hasked : ¬ stage.IsAsked) (hpost : post () stage world) :
    (notify task?).Enacts c script me post stage world := by
  cases task? with
  | none => exact hpost
  | some task => exact ⟨hasked, hpost⟩

/-- A caller that changes the cache in a step goes on after it, whoever is let in by that. -/
theorem enacts_alterCacheAndWake {f : CredentialsCache → CredentialsCache} {later : CacheStage}
    {post : Unit → CacheStage → World → Prop} (hasked : ¬ stage.IsAsked)
    (hlater : ¬ later.IsAsked)
    (step : ∀ world : World, CacheStage.Step c script me world stage later
      (world.alterCache c fun _ => f (world.cache c)))
    (hpost : ∀ world, post () later world) :
    (alterCacheAndWake c f).Enacts c script me post stage world := by
  unfold alterCacheAndWake
  refine enacts_bind.mpr ⟨hasked, enacts_bind.mpr ⟨hasked, hasked, later, step world, ?_⟩⟩
  intro last
  split
  · exact enacts_notify hlater (hpost last)
  · exact hpost last

/-- A caller that has decided to retrieve asks the provider. -/
theorem enacts_scripted {forced : Bool} {post : Retrieved → CacheStage → World → Prop}
    (hpost : ∀ answer later, post answer (.answered forced answer) later) :
    (Provider.scripted script).retrieve.Enacts c script me post (.decided (.retrieve forced))
      world := by
  rw [Provider.retrieve]
  refine enacts_bind.mpr ⟨id, id, _, .ask forced, fun _ => ?_⟩
  refine enacts_bind.mpr ⟨forced, _, rfl, fun later => ?_⟩
  refine ⟨id, ?_⟩
  change Enacts c script me post (.write ((world.askProvider script).2.arrive later).1
    (.done ((world.askProvider script).2.arrive later).2)) _ later
  rw [World.askProvider_arrive]
  exact ⟨id, _, .stay _, hpost _⟩

/-- What holds at the end of a caller: it has left with what it yields. -/
def Leaves (result : Retrieved) (stage : CacheStage) (_ : World) : Prop := stage = .gone result

/-- A caller inside the gate takes what is cached or retrieves. -/
theorem enacts_serveOrRetrieve :
    (serveOrRetrieve c me (fun world => (Provider.scripted script).isExpired world)
      (Provider.scripted script).retrieve).Enacts c script me
      Leaves .atGate world := by
  obtain ⟨cache, decision, hdecide⟩ := (world.cache c).exists_decide
    (world.providers.getD script {}).expired
  have hcheck : check ((world.cache c).decide ((Provider.scripted script).isExpired world)) =
      .done (cache, decision) := by
    rw [Provider.isExpired, hdecide]
    rfl
  unfold serveOrRetrieve
  refine enacts_bind.mpr ⟨id, enacts_bind.mpr ?_⟩
  rw [hcheck]
  refine enacts_bind.mpr ⟨id, id, _, .decide hdecide, fun later => ?_⟩
  cases decision with
  | serve credentials =>
    refine enacts_bind.mpr (enacts_alterCacheAndWake id id ?_ fun _ => rfl)
    exact fun _ => .serve credentials
  | retrieve forced =>
    refine enacts_bind.mpr (enacts_scripted fun answer last => ?_)
    refine enacts_bind.mpr (enacts_alterCacheAndWake id id ?_ fun _ => rfl)
    exact fun _ => .settle forced answer

/-- A caller of a cache arrives at the gate, and goes on inside. -/
theorem enacts_getCached :
    (getCached c (fun world => (Provider.scripted script).isExpired world)
      (Provider.scripted script).retrieve).Enacts c script me
      Leaves .away world := by
  unfold getCached
  refine enacts_bind.mpr ⟨id, enacts_bind.mpr ⟨id, id, .atGate, .arrive, fun later => ?_⟩⟩
  refine enacts_bind.mpr ⟨id, ?_⟩
  change Enacts c script me _ (if _ then _ else _) _ _
  split
  · exact enacts_bind.mpr ⟨id, fun last => enacts_serveOrRetrieve⟩
  · exact enacts_serveOrRetrieve

end Activity

/-- A caller whose turn has come so far is at this stage. -/
def Turn.IsAt (c script : Nat) (me : TaskId) : Turn Retrieved → CacheStage → Prop
  | .finished result, stage => stage = .gone result
  | .failed _, _ => False
  | .waiting rest, stage => ∀ world, rest.Enacts c script me Activity.Leaves stage world

/-- Whether a task waits for time to pass. -/
def Turn.IsAsleep {α : Type} : Turn α → Prop
  | .waiting (.sleep _ _) => True
  | _ => False

section Strides

variable {c script : Nat} {me : TaskId} {stage : CacheStage} {world : World}

/-- A stride of a caller is a step. -/
theorem Activity.enacts_stride {rest : Activity Retrieved}
    (h : rest.Enacts c script me Leaves stage world) :
    ∃ later, CacheStage.Step c script me world stage later (rest.stride me world).2 ∧
      (rest.stride me world).1.IsAt c script me later := by
  induction rest generalizing stage world with
  | done result => exact ⟨stage, .stay stage, h⟩
  | fail => exact h.elim
  | read next ih => exact ih _ h.2
  | write after next =>
    obtain ⟨-, later, step, hnext⟩ := h
    exact ⟨later, step, hnext⟩
  | self next ih => exact ih _ h.2
  | park next => exact ⟨stage, .stay stage, h.2⟩
  | clock => exact h.elim
  | pass => exact h.elim
  | sleep span next =>
    obtain ⟨forced, answer, rfl, hnext⟩ := h
    exact ⟨.answered forced answer, .answer forced answer, hnext⟩
  | wake task next ih => exact ih h.2
  | spawn => exact h.elim
  | abort => exact h.elim

/-- A caller sleeps exactly while it awaits the answer of the provider. -/
theorem Turn.IsAt.isAsleep_iff {turn : Turn Retrieved} (h : turn.IsAt c script me stage) :
    turn.IsAsleep ↔ stage.IsAsked := by
  cases turn with
  | finished result =>
    obtain rfl : stage = .gone result := h
    exact Iff.rfl
  | failed => exact h.elim
  | waiting rest =>
    have hrest := h {}
    cases rest with
    | done result =>
      obtain rfl : stage = .gone result := hrest
      exact Iff.rfl
    | sleep span next =>
      obtain ⟨forced, answer, rfl, -⟩ := hrest
      exact Iff.rfl
    | read => exact iff_of_false id hrest.1
    | write => exact iff_of_false id hrest.1
    | self => exact iff_of_false id hrest.1
    | park => exact iff_of_false id hrest.1
    | wake => exact iff_of_false id hrest.1
    | _ => exact hrest.elim

end Strides

end CloudSession
