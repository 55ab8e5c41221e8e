import CloudSession.Session
import Mathlib.Data.List.Induction
import Mathlib.Tactic.Common

/-!
# Copies of sessions

Merging goes field by field, and for each field the last configuration that sets it counts. The
handlers of a copy are those of the session, with the validation of parameters settled anew. So what
an earlier copy did to the validation does not show in a later one, and copying twice is copying once
with the overrides one after the other.
-/

namespace CloudSession

/-! ## The last value that is set -/

/-- What the last value that is set says, if any is. -/
def IsLastSet {α : Type} (values : List (Option α)) : Option α → Prop
  | none => ∀ value ∈ values, value = none
  | some last => ∃ before unset,
      values = before ++ some last :: unset ∧ ∀ value ∈ unset, value = none

/-- A single value is the last one set, if it is. -/
theorem isLastSet_singleton {α : Type} (value : Option α) : IsLastSet [value] value := by
  cases value with
  | none => simp [IsLastSet]
  | some value => exact ⟨[], [], rfl, by simp⟩

/-- One more value counts if it is set. -/
theorem IsLastSet.concat {α : Type} {values : List (Option α)} {result : Option α}
    (h : IsLastSet values result) (latest : Option α) :
    IsLastSet (values ++ [latest]) (latest <|> result) := by
  cases latest with
  | some last => exact ⟨values, [], rfl, by simp⟩
  | none =>
    cases result with
    | none =>
      intro value hvalue
      rcases List.mem_append.mp hvalue with hearlier | hlatest
      · exact h value hearlier
      · exact List.mem_singleton.mp hlatest
    | some last =>
      obtain ⟨before, unset, rfl, hunset⟩ := h
      refine ⟨before, unset ++ [none], by simp, ?_⟩
      intro value hvalue
      rcases List.mem_append.mp hvalue with hearlier | hlatest
      · exact hunset value hearlier
      · exact List.mem_singleton.mp hlatest

namespace Config

/-- Overrides one after the other. -/
theorem copy_append (config : Config) (xs ys : List Config) :
    config.copy (xs ++ ys) = (config.copy xs).copy ys :=
  List.foldl_append

/-- A field that merging replaces where it is set has the last value that is set. -/
theorem isLastSet_copy {α : Type} (field : Config → Option α)
    (hmerge : ∀ config other, field (merge config other) = (field other <|> field config))
    (config : Config) (overrides : List Config) :
    IsLastSet ((config :: overrides).map field) (field (config.copy overrides)) := by
  induction overrides using List.reverseRecOn with
  | nil => exact isLastSet_singleton _
  | append_singleton overrides latest ih =>
    have hcopy : config.copy (overrides ++ [latest]) = (config.copy overrides).merge latest :=
      copy_append config overrides [latest]
    rw [hcopy, hmerge, ← List.cons_append, List.map_append]
    exact ih.concat (field latest)

end Config

/-! ## The validation of parameters -/

namespace Handlers

variable (handlers : Handlers)

/-- Without the handlers of its name, the validation at the end of a list does not count. -/
theorem remove_append_validation (others : HandlerList) :
    (others ++ [Handler.validation]).remove Handler.validationName =
      others.remove Handler.validationName := by
  simp [HandlerList.remove, Handler.validation]

/-- To remove the handlers of a name twice is to remove them once. -/
theorem remove_remove (others : HandlerList) (name : String) :
    (others.remove name).remove name = others.remove name := by
  simp [HandlerList.remove]

/-- A settled list has no other validation than the one at its end, and has that unless it is
disabled. -/
theorem validate_settleValidation (disabled : Bool) : (handlers.settleValidation disabled).validate =
    handlers.validate.filter (·.name ≠ Handler.validationName) ++
      if disabled then [] else [Handler.validation] := by
  cases disabled <;> simp [settleValidation, HandlerList.remove]

/-- How the validation was settled before does not matter. -/
theorem settleValidation_settleValidation (earlier disabled : Bool) :
    (handlers.settleValidation earlier).settleValidation disabled =
      handlers.settleValidation disabled := by
  cases earlier <;> simp [settleValidation, remove_append_validation, remove_remove]

end Handlers

/-! ## Copies -/

namespace Session

/-- `copied` is the session with overrides: each field of its configuration says what the last
configuration that sets it says, and its handlers are those of the session, the validation of
parameters apart. -/
structure IsCopy (session : Session) (overrides : List Config) (copied : Session) : Prop where
  region : IsLastSet ((session.config :: overrides).map Config.region) copied.config.region
  credentials :
    IsLastSet ((session.config :: overrides).map Config.credentials) copied.config.credentials
  endpoint : IsLastSet ((session.config :: overrides).map Config.endpoint) copied.config.endpoint
  resolver : IsLastSet ((session.config :: overrides).map Config.resolver) copied.config.resolver
  httpClient :
    IsLastSet ((session.config :: overrides).map Config.httpClient) copied.config.httpClient
  maxRetries :
    IsLastSet ((session.config :: overrides).map Config.maxRetries) copied.config.maxRetries
  disableSsl :
    IsLastSet ((session.config :: overrides).map Config.disableSsl) copied.config.disableSsl
  useDualStack :
    IsLastSet ((session.config :: overrides).map Config.useDualStack) copied.config.useDualStack
  disableValidation : IsLastSet ((session.config :: overrides).map Config.disableValidation)
    copied.config.disableValidation
  verboseErrors :
    IsLastSet ((session.config :: overrides).map Config.verboseErrors) copied.config.verboseErrors
  build : copied.handlers.build = session.handlers.build
  sign : copied.handlers.sign = session.handlers.sign
  send : copied.handlers.send = session.handlers.send
  /-- Parameters are validated last, and once, unless the configuration disables it. The other
  handlers for validation stay in order. -/
  validate : copied.handlers.validate =
    session.handlers.validate.filter (·.name ≠ Handler.validationName) ++
      if copied.config.disableValidation = some true then [] else [Handler.validation]

variable (session : Session)

/-- A copy is what it should be. -/
theorem isCopy_copy (overrides : List Config) :
    session.IsCopy overrides (session.copy overrides) where
  region := Config.isLastSet_copy _ (fun _ _ => rfl) _ _
  credentials := Config.isLastSet_copy _ (fun _ _ => rfl) _ _
  endpoint := Config.isLastSet_copy _ (fun _ _ => rfl) _ _
  resolver := Config.isLastSet_copy _ (fun _ _ => rfl) _ _
  httpClient := Config.isLastSet_copy _ (fun _ _ => rfl) _ _
  maxRetries := Config.isLastSet_copy _ (fun _ _ => rfl) _ _
  disableSsl := Config.isLastSet_copy _ (fun _ _ => rfl) _ _
  useDualStack := Config.isLastSet_copy _ (fun _ _ => rfl) _ _
  disableValidation := Config.isLastSet_copy _ (fun _ _ => rfl) _ _
  verboseErrors := Config.isLastSet_copy _ (fun _ _ => rfl) _ _
  build := rfl
  sign := rfl
  send := rfl
  validate := by
    have hdisabled : ∀ disabled : Option Bool, disabled.getD false = true ↔ disabled = some true := by
      rintro (_ | _ | _) <;> decide
    rw [copy, settled, Handlers.validate_settleValidation]
    simp only [hdisabled]

/-- A copy with overrides, copied with further ones, is the copy with all of them, and a copy is the
session with its overrides. -/
theorem copy_composes : (∀ xs ys, (session.copy xs).copy ys = session.copy (xs ++ ys)) ∧
    ∀ overrides, session.IsCopy overrides (session.copy overrides) := by
  refine ⟨fun xs ys => ?_, session.isCopy_copy⟩
  simp only [copy, settled, Config.copy_append, Handlers.settleValidation_settleValidation]

end Session

end CloudSession
