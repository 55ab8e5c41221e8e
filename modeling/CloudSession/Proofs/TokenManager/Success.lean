import CloudSession.Proofs.World.Deed

/-!
# Calls of the token source that succeed

The calls of the token source are numbered in the order in which they began. A call has succeeded
once it has yielded a token, which was there before the time limit put an end to the call, and stays
so. The cached token is that of the successful call with the highest number, which never falls.
-/

namespace CloudSession

/-- A call has yielded a token when it has ended with it. -/
theorem IssueCall.token?_eq_some_iff {call : IssueCall} {token : Token} :
    call.token? = some token ↔ call.state = .ended (.ok token) := by
  unfold token?
  split
  · next found hstate => simp [hstate]
  · next hother =>
    constructor
    · simp
    · exact fun hstate => absurd hstate (hother token)

namespace TokenManager

variable {manager after later : TokenManager} {me : RefreshCall} {now : Instant} {elapsed : Span}
  {n m : Nat}
  {token other : Token}

/-- Call number `n` has won the race against the time limit, with the token for an answer. -/
def Succeeded (manager : TokenManager) (n : Nat) (token : Token) : Prop :=
  ∃ issue, manager.calls[n]? = some issue ∧ issue.state = .ended (.ok token)

/-- Call number `n` has succeeded, and none with a higher number has. -/
structure LastSuccess (manager : TokenManager) (n : Nat) (token : Token) : Prop where
  succeeded : manager.Succeeded n token
  highest : ∀ m other, manager.Succeeded m other → m ≤ n

/-- The cached token is that of the last success; there is none if no call has succeeded. -/
def CachesLastSuccess (manager : TokenManager) : Prop :=
  match manager.token with
  | some token => ∃ n, manager.LastSuccess n token
  | none => ∀ n token, ¬ manager.Succeeded n token

/-- A call succeeds with one token only. -/
theorem Succeeded.token_eq (h : manager.Succeeded n token) (hother : manager.Succeeded n other) :
    token = other := by
  obtain ⟨issue, hissue, hstate⟩ := h
  obtain ⟨again, hagain, hstate'⟩ := hother
  rw [hissue] at hagain
  rw [← Option.some.inj hagain, hstate] at hstate'
  simpa using hstate'

/-- A call that has succeeded is one of the calls. -/
theorem Succeeded.lt_length (h : manager.Succeeded n token) : n < manager.calls.length := by
  obtain ⟨issue, hissue, -⟩ := h
  exact (List.getElem?_eq_some_iff.mp hissue).1

/-- A call that has succeeded stays so. -/
theorem Succeeded.kept (h : manager.Succeeded n token) (precedes : manager.Precedes later) :
    later.Succeeded n token := by
  obtain ⟨issue, hissue, hstate⟩ := h
  obtain ⟨kept, hkept, hbecomes⟩ := precedes n issue hissue
  have hover : issue.isUnderway = false := by simp [IssueCall.isUnderway, hstate]
  rw [hbecomes.final hover] at hkept
  exact ⟨issue, hkept, hstate⟩

/-- The number of the last success never falls. -/
theorem LastSuccess.le (h : manager.LastSuccess n token) (precedes : manager.Precedes later)
    (hlater : later.LastSuccess m other) : n ≤ m :=
  hlater.highest n token (h.succeeded.kept precedes)

/-- A coherent manager caches the last success. -/
theorem Coherent.cachesLastSuccess (coherent : manager.Coherent) : manager.CachesLastSuccess := by
  have hlast := coherent.token
  rw [lastIssued, List.getLast?_filterMap] at hlast
  unfold CachesLastSuccess
  cases hcached : manager.token with
  | none =>
    rintro n token ⟨issue, hissue, hstate⟩
    rw [hcached] at hlast
    have hnone := List.findSome?_eq_none_iff.mp hlast.symm issue
      (List.mem_reverse.mpr (List.mem_of_getElem? hissue))
    rw [IssueCall.token?_eq_some_iff.mpr hstate] at hnone
    cases hnone
  | some token =>
    rw [hcached] at hlast
    obtain ⟨rest, issue, earlier, hsplit, htoken, hrest⟩ :=
      List.findSome?_eq_some_iff.mp hlast.symm
    have hcalls : manager.calls = earlier.reverse ++ issue :: rest.reverse := by
      rw [← List.reverse_reverse manager.calls, hsplit]
      simp
    have hissue : manager.calls[earlier.length]? = some issue := by simp [hcalls]
    refine ⟨earlier.length, ⟨issue, hissue, IssueCall.token?_eq_some_iff.mp htoken⟩, ?_⟩
    rintro m other ⟨later, hlater, hstate⟩
    by_contra hlt
    have hmem : later ∈ rest := by
      rw [hcalls, List.getElem?_append_right (by simp; omega)] at hlater
      obtain ⟨k, hk⟩ : ∃ k, m - earlier.reverse.length = k + 1 := by
        refine ⟨m - earlier.length - 1, ?_⟩
        rw [List.length_reverse]
        omega
      rw [hk, List.getElem?_cons_succ] at hlater
      exact List.mem_reverse.mp (List.mem_of_getElem? hlater)
    have hnone := hrest later hmem
    rw [IssueCall.token?_eq_some_iff.mpr hstate] at hnone
    cases hnone

/-- What is cached in a coherent manager is a last success. -/
theorem Coherent.lastSuccess (coherent : manager.Coherent) (hcached : manager.token = some token) :
    ∃ n, manager.LastSuccess n token := by
  have hcaches := coherent.cachesLastSuccess
  unfold CachesLastSuccess at hcaches
  rwa [hcached] at hcaches

/-- Once a call has succeeded, there is a cached token. -/
theorem Coherent.cached_of_succeeded (coherent : manager.Coherent)
    (h : manager.Succeeded n token) : ∃ cached, manager.token = some cached := by
  have hcaches := coherent.cachesLastSuccess
  unfold CachesLastSuccess at hcaches
  cases hcached : manager.token with
  | none =>
    rw [hcached] at hcaches
    exact absurd h (hcaches n token)
  | some cached => exact ⟨cached, rfl⟩

/-- The token of the last success is the cached one. -/
theorem Coherent.token_of_lastSuccess (coherent : manager.Coherent)
    (h : manager.LastSuccess n token) : manager.token = some token := by
  obtain ⟨cached, hcached⟩ := coherent.cached_of_succeeded h.succeeded
  obtain ⟨m, hm⟩ := coherent.lastSuccess hcached
  have heq : m = n := Nat.le_antisymm (h.highest m cached hm.succeeded)
    (hm.highest n token h.succeeded)
  subst heq
  rw [hcached, hm.succeeded.token_eq h.succeeded]

/-- The last call that began is the last success once it has yielded a token. -/
theorem lastSuccess_of_length {issue : IssueCall} (hlength : manager.calls.length = n + 1)
    (hissue : manager.calls[n]? = some issue) (hstate : issue.state = .ended (.ok token)) :
    manager.LastSuccess n token := by
  refine ⟨⟨issue, hissue, hstate⟩, ?_⟩
  intro m other hother
  have hlt := hother.lt_length
  omega

/-- While no further call succeeds, the cached token stays. -/
theorem Coherent.token_eq (coherent : manager.Coherent) (hlater : later.Coherent)
    (precedes : manager.Precedes later)
    (hnone : ∀ n token, later.Succeeded n token → manager.Succeeded n token) :
    later.token = manager.token := by
  cases hcached : manager.token with
  | none =>
    cases hnew : later.token with
    | none => rfl
    | some token =>
      obtain ⟨n, hn⟩ := hlater.lastSuccess hnew
      obtain ⟨cached, h⟩ := coherent.cached_of_succeeded (hnone n token hn.succeeded)
      rw [hcached] at h
      cases h
  | some token =>
    obtain ⟨n, hn⟩ := coherent.lastSuccess hcached
    refine hlater.token_of_lastSuccess ⟨hn.succeeded.kept precedes, ?_⟩
    exact fun m other hother => hn.highest m other (hnone m other hother)

end TokenManager

/-- The number of the last success never falls. -/
theorem World.Precedes.le_of_lastSuccess {world later : World} (precedes : world.Precedes later)
    {id : ManagerId} {n m : Nat} {token other : Token} (h : (world.manager id).LastSuccess n token)
    (hlater : (later.manager id).LastSuccess m other) : n ≤ m :=
  h.le (precedes.managers id) hlater

end CloudSession
