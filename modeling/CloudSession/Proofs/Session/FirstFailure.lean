import CloudSession.Session.Handlers
import Mathlib.Data.List.Infix
import Mathlib.Tactic.Common

/-!
# The first failure

A list passes a request on until a handler has failed it. Whether it had failed before is not looked
at: the first handler of a list sees every request, and may fail it anew. So the first failure is
final exactly for the requests that have not failed before, and for lists without handlers.
-/

namespace CloudSession

namespace HandlerList

variable {handlers seen rest : HandlerList} {handler : Handler} {request : OperationRequest}

/-- The request after all these handlers, failed or not. -/
def through (handlers : HandlerList) (request : OperationRequest) : OperationRequest :=
  handlers.foldl (fun request handler => handler.handle request) request

/-- The handlers that see the request. -/
def seenBy (handlers : HandlerList) (request : OperationRequest) : HandlerList :=
  (handlers.visits request).map Prod.fst

/-- `seen` is the longest beginning of the list of which every handler finds a request that has not
failed. -/
structure IsLongestUnfailed (handlers : HandlerList) (request : OperationRequest)
    (seen : HandlerList) : Prop where
  beginning : seen <+: handlers
  unfailed : ∀ before, before <+: seen → before ≠ seen → (through before request).error = none
  longest : seen ≠ handlers → (through seen request).error ≠ none

/-- To go through a list is to go through the first handler and then through the others. -/
theorem through_cons (handler : Handler) (rest : HandlerList) (request : OperationRequest) :
    through (handler :: rest) request = through rest (handler.handle request) :=
  rfl

/-! ## One handler at a time -/

/-- If the first handler fails the request, no other one sees it. -/
theorem seenBy_cons_of_failed (h : (handler.handle request).error.isSome) :
    seenBy (handler :: rest) request = [handler] := by
  simp [seenBy, visits, h]

/-- If the first handler does not fail the request, the others see it after that. -/
theorem seenBy_cons_of_unfailed (h : (handler.handle request).error = none) :
    seenBy (handler :: rest) request = handler :: seenBy rest (handler.handle request) := by
  simp [seenBy, visits, h]

/-- A request that passes through a list has passed through the handlers that see it. -/
theorem run_eq_through (handlers : HandlerList) (request : OperationRequest) :
    handlers.run request = through (handlers.seenBy request) request := by
  induction handlers generalizing request with
  | nil => rfl
  | cons handler rest ih =>
    cases hnext : (handler.handle request).error with
    | none => rw [seenBy_cons_of_unfailed hnext, through_cons, ← ih, run, if_neg (by simp [hnext])]
    | some error =>
      have hfailed : (handler.handle request).error.isSome := by simp [hnext]
      rw [seenBy_cons_of_failed hfailed, run, if_pos hfailed]
      rfl

/-- The request as the handlers see it has passed through those before them. -/
theorem exists_before_of_mem_visits {visit : Handler × OperationRequest}
    (h : visit ∈ handlers.visits request) : ∃ before, before <+: handlers.seenBy request ∧
      before ≠ handlers.seenBy request ∧ visit.2 = through before request := by
  induction handlers generalizing request with
  | nil => cases h
  | cons handler rest ih =>
    rcases List.mem_cons.mp h with rfl | hlater
    · exact ⟨[], List.nil_prefix, by simp [seenBy, visits], rfl⟩
    · cases hnext : (handler.handle request).error with
      | none =>
        simp only [hnext, Option.isSome_none, Bool.false_eq_true, if_false] at hlater
        obtain ⟨before, hbefore, hne, hvisit⟩ := ih hlater
        rw [seenBy_cons_of_unfailed hnext]
        exact ⟨handler :: before, List.cons_prefix_cons.mpr ⟨rfl, hbefore⟩, by simpa using hne, hvisit⟩
      | some error => simp [hnext] at hlater

/-- Of no handlers, none is the longest beginning that should run. -/
theorem isLongestUnfailed_nil (request : OperationRequest) : IsLongestUnfailed [] request [] :=
  ⟨List.nil_prefix, fun _ hbefore hne => absurd (List.prefix_nil.mp hbefore) hne,
    fun hne => absurd rfl hne⟩

/-- The handlers that see a request that has not failed are those up to the first failure. -/
theorem isLongestUnfailed_seenBy (hfresh : request.error = none) :
    IsLongestUnfailed handlers request (handlers.seenBy request) := by
  induction handlers generalizing request with
  | nil => exact isLongestUnfailed_nil request
  | cons handler rest ih =>
    cases hnext : (handler.handle request).error with
    | none =>
      obtain ⟨hbeginning, hunfailed, hlongest⟩ := ih hnext
      rw [seenBy_cons_of_unfailed hnext]
      refine ⟨List.cons_prefix_cons.mpr ⟨rfl, hbeginning⟩, ?_, fun hne => hlongest (by simpa using hne)⟩
      intro before hbefore hne
      cases before with
      | nil => exact hfresh
      | cons first before =>
        obtain ⟨rfl, hbefore⟩ := List.cons_prefix_cons.mp hbefore
        exact hunfailed before hbefore (by simpa using hne)
    | some error =>
      rw [seenBy_cons_of_failed (by simp [hnext])]
      refine ⟨List.cons_prefix_cons.mpr ⟨rfl, List.nil_prefix⟩, ?_, fun _ => ?_⟩
      · intro before hbefore hne
        cases before with
        | nil => exact hfresh
        | cons first before =>
          obtain ⟨rfl, hrest⟩ := List.cons_prefix_cons.mp hbefore
          exact absurd (congrArg (first :: ·) (List.prefix_nil.mp hrest)) hne
      · rw [through_cons, through, List.foldl_nil, hnext]
        exact Option.some_ne_none error

/-! ## When the first failure is final -/

/-- The first failure of a request is final: handlers see it only as long as it has not failed, and
its error is the one it came with, or else that of the first handler that failed it. -/
structure FirstFailureFinal (handlers : HandlerList) (request : OperationRequest) : Prop where
  unfailed : ∀ visit ∈ handlers.visits request, visit.2.error = none
  seen : IsLongestUnfailed handlers request (handlers.seenBy request)
  outcome : handlers.run request = through (handlers.seenBy request) request
  kept : ∀ error, request.error = some error → (handlers.run request).error = some error
  recorded : ∀ before handler after error, handlers = before ++ handler :: after →
    (∀ earlier, earlier <+: before → (through earlier request).error = none) →
    (through (before ++ [handler]) request).error = some error →
    (handlers.run request).error = some error

/-- What the first handler that fails a request puts down stays. -/
theorem error_run_of_first_failure {before after : HandlerList} {error : OperationError}
    (hbefore : ∀ earlier, earlier <+: before → (through earlier request).error = none)
    (hfailure : (through (before ++ [handler]) request).error = some error) :
    (run (before ++ handler :: after) request).error = some error := by
  induction before generalizing request with
  | nil =>
    have hnext : (handler.handle request).error = some error := hfailure
    rw [List.nil_append, run, if_pos (by simp [hnext]), hnext]
  | cons first before ih =>
    have hnext : (first.handle request).error = none :=
      hbefore [first] (List.cons_prefix_cons.mpr ⟨rfl, List.nil_prefix⟩)
    rw [List.cons_append, run, if_neg (by simp [hnext])]
    exact ih (fun earlier hearlier =>
      hbefore (first :: earlier) (List.cons_prefix_cons.mpr ⟨rfl, hearlier⟩)) hfailure

/-- The first failure is final exactly for requests that have not failed when they come to the list,
unless the list has no handlers. -/
theorem firstFailureFinal_iff (handlers : HandlerList) (request : OperationRequest) :
    FirstFailureFinal handlers request ↔ request.error = none ∨ handlers = [] := by
  constructor
  · intro hfinal
    cases handlers with
    | nil => exact .inr rfl
    | cons handler rest => exact .inl (hfinal.unfailed (handler, request) List.mem_cons_self)
  · rintro (hfresh | rfl)
    · have hseen : IsLongestUnfailed handlers request (handlers.seenBy request) :=
        isLongestUnfailed_seenBy hfresh
      refine ⟨fun visit hvisit => ?_, hseen, run_eq_through _ _, by simp [hfresh], ?_⟩
      · obtain ⟨before, hbefore, hne, heq⟩ := exists_before_of_mem_visits hvisit
        rw [heq]
        exact hseen.unfailed before hbefore hne
      · rintro before handler after error rfl hbefore hfailure
        exact error_run_of_first_failure hbefore hfailure
    · exact ⟨by simp [visits], isLongestUnfailed_nil request, rfl, fun error herror => herror,
        by simp⟩

/-- A handler that fails every request. -/
def failing (name : String) : Handler where
  name := name
  action := .custom fun request => { request with error := some (.handler name) }

/-- A request that a list has failed is failed anew by the next list. -/
theorem failedTwice_replaced :
    (run [failing "sign"] (run [failing "build"] { operation := "PutObject" })).error =
        some (.handler "sign") ∧
      ¬FirstFailureFinal [failing "sign"] (run [failing "build"] { operation := "PutObject" }) := by
  refine ⟨rfl, fun hfinal => ?_⟩
  have hkept := hfinal.kept (.handler "build") rfl
  revert hkept
  decide

end HandlerList

end CloudSession
