import CloudSession.Proofs.Interplay.Soundness

/-!
# The story of a run

The moments of a run in order: each follows from the one before, none forgets what was earlier, and
in each of them the world is sound. What a caller has seen are the moments from its beginning to its
end.
-/

namespace CloudSession

/-! ## The story goes on -/

section Story

variable {story : List Moment} {worlds : List World} {world : World} {actor : Option RefreshCall}
  {task : TaskId}

/-- What others do happens elsewhere. -/
theorem isChain_elsewhere (hother : ∀ me, actor = some me → me.task ≠ task)
    (hstory : (story ++ worlds.map (Moment.made actor)).IsChain Moment.Follows)
    (hpresent : story.getLast?.map Moment.world = some world) :
    (world :: worlds).IsChain (World.Elsewhere task) := by
  induction worlds generalizing story world with
  | nil => exact .singleton _
  | cons next rest ih =>
    have hassoc : story ++ (next :: rest).map (Moment.made actor) =
        (story ++ [Moment.made actor next]) ++ rest.map (Moment.made actor) := by simp
    rw [hassoc] at hstory
    have hnext : (story ++ [Moment.made actor next]).getLast?.map Moment.world = some next := by
      simp [Moment.made]
    refine .cons_cons ?_ (ih hstory hnext)
    obtain ⟨present, hlast, rfl⟩ := Option.map_eq_some_iff.mp hpresent
    have hfollows : present.Follows (Moment.made actor next) := by
      have hchain := (List.isChain_append.mp hstory).1
      exact (List.isChain_append.mp hchain).2.2 present hlast _ (by simp)
    unfold Moment.Follows at hfollows
    split at hfollows
    · next me hme => exact .inl ⟨me, hother me hme, hfollows⟩
    · exact .inr hfollows

/-- Two moments that follow one another, of which the second is new. -/
theorem isChain_append_elim {more : List Moment} {P : Moment → Moment → Prop}
    {present earlier later : Moment} {k : Nat} (hpresent : story.getLast? = some present)
    (hmore : (present :: more).IsChain P) (hnew : story.length ≤ k + 1)
    (hearlier : (story ++ more)[k]? = some earlier)
    (hlater : (story ++ more)[k + 1]? = some later) : P earlier later := by
  obtain ⟨before, rfl⟩ := List.getLast?_eq_some_iff.mp hpresent
  rw [List.append_assoc, List.singleton_append] at hearlier hlater
  rw [List.length_append, List.length_singleton, Nat.add_le_add_iff_right] at hnew
  rw [List.getElem?_append_right hnew] at hearlier
  rw [List.getElem?_append_right (Nat.le_succ_of_le hnew), Nat.succ_sub hnew] at hlater
  obtain ⟨hk, rfl⟩ := List.getElem?_eq_some_iff.mp hearlier
  obtain ⟨hk', rfl⟩ := List.getElem?_eq_some_iff.mp hlater
  exact List.isChain_iff_getElem.mp hmore _ hk'

end Story

namespace Interplay

/-! ## The moments of a run -/

/-- A moment from the beginning of a caller to its end. -/
def During (interplay : Interplay) (client : Client) (moment : Moment) : Prop :=
  ∃ n, client.began ≤ n ∧ n ≤ client.ended ∧ interplay.story[n]? = some moment

variable {interplay : Interplay} {acting : Option TaskId} {client : Client}
  {earlier later moment : Moment} {i j n : Nat}

/-- Each moment of the story follows from the one before. -/
theorem Sound.follows (sound : interplay.Sound acting)
    (hearlier : interplay.story[n]? = some earlier)
    (hlater : interplay.story[n + 1]? = some later) : earlier.Follows later := by
  obtain ⟨hlt, rfl⟩ := List.getElem?_eq_some_iff.mp hearlier
  obtain ⟨hlt', rfl⟩ := List.getElem?_eq_some_iff.mp hlater
  exact List.isChain_iff_getElem.mp sound.story n hlt'

/-- No moment forgets what was earlier. -/
theorem Sound.precedes (sound : interplay.Sound acting)
    (hearlier : interplay.story[i]? = some earlier)
    (hlater : interplay.story[j]? = some later) (hij : i ≤ j) :
    earlier.world.Precedes later.world := by
  induction j, hij using Nat.le_induction generalizing later with
  | base =>
    rw [hearlier] at hlater
    rw [Option.some.inj hlater]
    exact .refl _
  | succ j _ ih =>
    have hlt : j < interplay.story.length :=
      Nat.lt_of_succ_lt (List.getElem?_eq_some_iff.mp hlater).1
    have hbetween := List.getElem?_eq_getElem hlt
    exact (ih hbetween).trans (sound.follows hbetween hlater).precedes

/-- The world is sound at every moment. -/
theorem Sound.world_sound (sound : interplay.Sound acting) (hmoment : moment ∈ interplay.story) :
    moment.world.Sound := by
  obtain ⟨first, rest, hstory, huntouched⟩ := sound.first
  have hkept : ∀ earlier later : Moment, earlier.Follows later → earlier.world.Sound →
      later.world.Sound := by
    intro earlier later hfollows hearlier
    unfold Moment.Follows at hfollows
    split at hfollows
    · exact hfollows.sound hearlier
    · exact hfollows.sound hearlier
  refine List.IsChain.induction (fun moment : Moment => moment.world.Sound) interplay.story
    sound.story (fun earlier later h => hkept earlier later h) ?_ moment hmoment
  intro hne
  simpa [hstory] using huntouched.sound

/-- What a caller has seen are moments between its beginning and its end. -/
theorem Sound.during_of_seen (sound : interplay.Sound acting) (hclient : client ∈ interplay.clients)
    {world : World} (hworld : world ∈ client.history.seen) :
    ∃ moment, interplay.During client moment ∧ moment.world = world := by
  obtain ⟨k, hk⟩ := List.mem_iff_getElem?.mp (List.mem_reverse.mpr hworld)
  obtain ⟨moment, hmoment, heq⟩ := (sound.recorded client hclient).seen k world hk
  have hlt : k < client.history.seen.length := by
    simpa using (List.getElem?_eq_some_iff.mp hk).1
  refine ⟨moment, ⟨client.began + k, Nat.le_add_right _ _, ?_, hmoment⟩, heq⟩
  rw [History.seen, List.length_cons] at hlt
  exact Nat.add_le_add_left (Nat.le_of_lt_succ hlt) _

/-- A moment of a caller's time is a moment of the story. -/
theorem During.mem (during : interplay.During client moment) : moment ∈ interplay.story := by
  obtain ⟨n, -, -, hmoment⟩ := during
  exact List.mem_of_getElem? hmoment

/-- What was before a caller began comes before what happens while it is there. -/
theorem Sound.precedes_during (sound : interplay.Sound acting)
    (hearlier : interplay.story[i]? = some earlier) (hi : i ≤ client.began)
    (during : interplay.During client moment) :
    earlier.world.Precedes moment.world := by
  obtain ⟨n, hbegan, -, hmoment⟩ := during
  exact sound.precedes hearlier hmoment (Nat.le_trans hi hbegan)

/-- What a caller has asked for has ended as it should. -/
theorem Sound.ended (sound : interplay.Sound none) (hclient : client ∈ interplay.clients)
    {reply : Reply} (hstate : client.state = .finished reply) :
    client.operation.Ended client.start client.call reply client.history := by
  have hfine := sound.fine client hclient (by simp)
  unfold Client.Fine at hfine
  rwa [hstate] at hfine

end Interplay

end CloudSession
