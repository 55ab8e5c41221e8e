import CloudSession.Proofs.Activity.Contract
import CloudSession.Signing.Stage
import Mathlib.Tactic.Common

/-!
# Signing is all or nothing, but for the service instance

A request that cannot be signed is left as it was, and one that is signed with a token changes only
in the headers that present the token. There is one exception: the token goes into the request before
the service instance is looked at, so credentials with a proper token and a service instance that is
no header value leave a request behind that carries the token and counts as not signed. All of this
holds whatever texts are taken for header values.
-/

namespace CloudSession

/-- Warnings have nothing to do with libraries. -/
theorem World.libraries_warnAll (world : World) (warnings : List Warning) :
    (world.warnAll warnings).libraries = world.libraries := by
  induction warnings generalizing world with
  | nil => rfl
  | cons warning rest ih =>
    rw [World.warnAll, List.foldl_cons, ← World.warnAll, ih, World.warn]
    split <;> rfl

namespace Http.Request

/-- The headers called `name`, in order. -/
def named (request : Request) (name : String) : List Header :=
  request.headers.filter (·.name = name)

/-- A request is as it was, except for headers with certain names. Headers of different names have no
order among themselves. -/
structure SameBut (names : List String) (before after : Request) : Prop where
  method : after.method = before.method
  uri : after.uri = before.uri
  body : after.body = before.body
  headers : ∀ name, name ∉ names → after.named name = before.named name

variable {names wider : List String} {before middle after : Request} {name : String}

/-- A request differs from itself in no header. -/
theorem SameBut.refl (names : List String) (request : Request) : request.SameBut names request :=
  ⟨rfl, rfl, rfl, fun _ _ => rfl⟩

/-- What differs in some headers, and then in others, differs in both at most. -/
theorem SameBut.trans (h : before.SameBut names middle) (h' : middle.SameBut wider after) :
    before.SameBut (names ++ wider) after :=
  ⟨h'.method.trans h.method, h'.uri.trans h.uri, h'.body.trans h.body, fun name hname =>
    (h'.headers name fun hin => hname (List.mem_append_right _ hin)).trans
      (h.headers name fun hin => hname (List.mem_append_left _ hin))⟩

/-- A header that is set is the only one of its name. -/
@[simp] theorem named_setHeader_self (request : Request) (header : Header) :
    (request.setHeader header).named header.name = [header] := by
  simp [named, setHeader, List.filter_filter]

/-- To set a header leaves those of other names alone. -/
theorem named_setHeader_of_ne (request : Request) {header : Header} (hne : name ≠ header.name) :
    (request.setHeader header).named name = request.named name := by
  have hkept (other : Header) :
      (decide (other.name = name) && decide (other.name ≠ header.name)) =
        decide (other.name = name) := by
    rw [Bool.and_eq_left_iff_imp]
    simp only [decide_eq_true_eq]
    exact fun hname heq => hne (hname.symm.trans heq)
  simp only [named, setHeader, List.filter_append, List.filter_filter, hkept, List.filter_singleton,
    decide_eq_false (Ne.symm hne), Bool.cond_false, List.append_nil]

/-- To set a header changes no other. -/
theorem sameBut_setHeader (request : Request) (header : Header) :
    request.SameBut [header.name] (request.setHeader header) :=
  ⟨rfl, rfl, rfl, fun _ hname =>
    request.named_setHeader_of_ne fun heq => hname (List.mem_singleton.mpr heq)⟩

/-- To set a header changes nothing just where the request has it already, and no other of its
name. -/
theorem sameBut_nil_setHeader_iff (request : Request) (header : Header) :
    request.SameBut [] (request.setHeader header) ↔ request.named header.name = [header] := by
  constructor
  · intro same
    rw [← same.headers header.name List.not_mem_nil, named_setHeader_self]
  · intro hnamed
    refine ⟨rfl, rfl, rfl, fun name _ => ?_⟩
    by_cases hname : name = header.name
    · rw [hname, named_setHeader_self, hnamed]
    · exact request.named_setHeader_of_ne hname

end Http.Request

namespace Signing

open Http (Request Header)

variable {ε ε' : Type} {isHeaderValue : String → Bool} {credentials : Credentials} {token : Token}
  {id : String} {serviceInstance : Option String} {request : Request}
  {signer : Option SigV4Signer} {result : Request × Except ε SigningScheme}

/-- The header that a token is sent along in. -/
def tokenHeader (token : Token) : Header :=
  { name := "authorization", value := token.authorization, sensitive := true }

/-- A procedure to sign with keys leaves a request as it is where it fails. -/
def IsCareful (sign : SigV4Signer) : Prop :=
  ∀ context credentials request, (sign context credentials request).2.toOption = none →
    (sign context credentials request).1 = request

/-- `after` is `before` with this token and no other, and with this service instance and no other if
there is one. -/
structure Presents (token : Token) (serviceInstance : Option String) (before after : Request) :
    Prop where
  carries : after.named "authorization" = [tokenHeader token]
  names : ∀ id, serviceInstance = some id →
    after.named instanceHeader = [{ name := instanceHeader, value := id }]
  rest : before.SameBut
    ("authorization" :: (serviceInstance.map fun _ => instanceHeader).toList) after

/-- A request that is not signed is as it was, and one that is signed with a token presents the token
of the credentials and is otherwise as it was. -/
structure AllOrNothing (credentials : Credentials) (request : Request)
    (result : Request × Except ε SigningScheme) : Prop where
  failed : ∀ error, result.2 = .error error → request.SameBut [] result.1
  bearer : result.2 = .ok .bearer → ∃ token serviceInstance,
    credentials.secret = .token token serviceInstance ∧
      Presents token serviceInstance request result.1

/-- The token can be sent along, the service instance cannot, and the request does not carry the token
yet. -/
def HalfSigns (isHeaderValue : String → Bool) (credentials : Credentials) (request : Request) :
    Prop :=
  ∃ token id, credentials.secret = .token token (some id) ∧
    isHeaderValue token.authorization = true ∧ isHeaderValue id = false ∧
    request.named "authorization" ≠ [tokenHeader token]

/-- What signing a request with credentials comes to: all or nothing, just where it does not sign by
half, and where it does, a request that carries the token and counts as not signed. -/
structure Signs (isHeaderValue : String → Bool) (credentials : Credentials) (request : Request)
    (result : Request × Except ε SigningScheme) : Prop where
  allOrNothing_iff : AllOrNothing credentials request result ↔
    ¬HalfSigns isHeaderValue credentials request
  halfSigned : HalfSigns isHeaderValue credentials request → ∃ token serviceInstance error,
    credentials.secret = .token token serviceInstance ∧
      result = (request.setHeader (tokenHeader token), .error error)

/-- Nothing has happened to the request. -/
theorem allOrNothing_error (credentials : Credentials) (request : Request) (error : ε) :
    AllOrNothing credentials request (request, .error error) :=
  ⟨fun _ _ => .refl [] request, fun h => nomatch h⟩

/-- A request with the token and nothing else is nothing, just where it had the token before. -/
theorem allOrNothing_setHeader_iff {error : ε} :
    AllOrNothing credentials request (request.setHeader (tokenHeader token), .error error) ↔
      request.named "authorization" = [tokenHeader token] := by
  rw [show "authorization" = (tokenHeader token).name from rfl, ← Request.sameBut_nil_setHeader_iff]
  exact ⟨fun h => h.failed error rfl, fun h => ⟨fun _ _ => h, fun h => nomatch h⟩⟩

/-- Where nothing is signed by half. -/
theorem signs_of_allOrNothing (hall : AllOrNothing credentials request result)
    (hnot : ¬HalfSigns isHeaderValue credentials request) :
    Signs isHeaderValue credentials request result :=
  ⟨⟨fun _ => hnot, fun _ => hall⟩, fun h => absurd h hnot⟩

/-- A request with the header of a token presents the token. -/
theorem presents_setHeader (token : Token) (request : Request) :
    Presents token none request (request.setHeader (tokenHeader token)) :=
  ⟨request.named_setHeader_self (tokenHeader token), fun _ h => (nomatch h),
    request.sameBut_setHeader (tokenHeader token)⟩

/-- A request with both headers presents the token and the instance. -/
theorem presents_setHeader_setHeader (token : Token) (id : String) (request : Request) :
    Presents token (some id) request
      ((request.setHeader (tokenHeader token)).setHeader
        { name := instanceHeader, value := id }) where
  carries := by
    rw [Request.named_setHeader_of_ne _ (show "authorization" ≠ instanceHeader by decide)]
    exact request.named_setHeader_self (tokenHeader token)
  names other hother := by
    obtain rfl := Option.some.inj hother
    exact Request.named_setHeader_self _ { name := instanceHeader, value := id }
  rest := (request.sameBut_setHeader (tokenHeader token)).trans
    (Request.sameBut_setHeader _ { name := instanceHeader, value := id })

/-- Credentials with a token sign by half only where the token goes and the service instance does
not. -/
theorem halfSigns_iff (hsecret : credentials.secret = .token token serviceInstance) :
    HalfSigns isHeaderValue credentials request ↔ isHeaderValue token.authorization = true ∧
      (∃ id, serviceInstance = some id ∧ isHeaderValue id = false) ∧
      request.named "authorization" ≠ [tokenHeader token] := by
  constructor
  · rintro ⟨other, id, hother, hgood, hbad, hnew⟩
    obtain ⟨rfl, rfl⟩ := Secret.token.inj (hsecret.symm.trans hother)
    exact ⟨hgood, ⟨id, rfl, hbad⟩, hnew⟩
  · rintro ⟨hgood, ⟨id, rfl, hbad⟩, hnew⟩
    exact ⟨token, id, hsecret, hgood, hbad, hnew⟩

/-- What sending a token along comes to. -/
theorem signs_signBearer (isHeaderValue : String → Bool)
    (hsecret : credentials.secret = .token token serviceInstance) (request : Request) :
    Signs isHeaderValue credentials request
      (signBearer isHeaderValue token serviceInstance request) := by
  by_cases htoken : isHeaderValue token.authorization = true
  · rw [signBearer, if_pos htoken]
    cases serviceInstance with
    | none =>
      refine signs_of_allOrNothing ⟨fun error h => (nomatch h), fun _ => ?_⟩ fun hhalf => ?_
      · exact ⟨token, none, hsecret, presents_setHeader token request⟩
      · obtain ⟨-, ⟨id, hid, -⟩, -⟩ := (halfSigns_iff hsecret).mp hhalf
        exact nomatch hid
    | some id =>
      by_cases hid : isHeaderValue id = true
      · rw [addInstance, if_pos hid]
        refine signs_of_allOrNothing ⟨fun error h => (nomatch h), fun _ => ?_⟩ fun hhalf => ?_
        · exact ⟨token, some id, hsecret, presents_setHeader_setHeader token id request⟩
        · obtain ⟨-, ⟨other, hother, hbad⟩, -⟩ := (halfSigns_iff hsecret).mp hhalf
          rw [← Option.some.inj hother, hid] at hbad
          exact Bool.noConfusion hbad
      · rw [addInstance, if_neg hid]
        refine ⟨?_, fun _ => ⟨token, some id, .invalidHeaderValue, hsecret, rfl⟩⟩
        have hhalf : HalfSigns isHeaderValue credentials request ↔
            request.named "authorization" ≠ [tokenHeader token] :=
          (halfSigns_iff hsecret).trans
            ⟨fun h => h.2.2, fun h => ⟨htoken, ⟨id, rfl, Bool.eq_false_iff.mpr hid⟩, h⟩⟩
        rw [hhalf, not_not]
        exact allOrNothing_setHeader_iff
  · rw [signBearer, if_neg htoken]
    exact signs_of_allOrNothing (allOrNothing_error _ _ _) fun hhalf =>
      htoken ((halfSigns_iff hsecret).mp hhalf).1

/-- What signing with keys comes to. -/
theorem signs_signWithKeys (isHeaderValue : String → Bool)
    (careful : ∀ sign, signer = some sign → IsCareful sign) (context : SigningContext)
    (hkeys : ∀ token id, credentials.secret ≠ .token token id) (request : Request) :
    Signs isHeaderValue credentials request (signWithKeys signer context credentials request) := by
  refine signs_of_allOrNothing ?_ fun ⟨token, id, hsecret, _⟩ => hkeys token (some id) hsecret
  cases signer with
  | none => exact allOrNothing_error _ _ _
  | some sign =>
    have hcareful := careful sign rfl context credentials request
    cases hsigned : sign context credentials request with
    | mk signed outcome =>
      rw [hsigned] at hcareful
      cases outcome with
      | ok =>
        simp only [signWithKeys, hsigned]
        exact ⟨fun error h => (nomatch h), fun h => (nomatch h)⟩
      | error detail =>
        obtain rfl : signed = request := hcareful rfl
        simp only [signWithKeys, hsigned]
        exact allOrNothing_error _ _ _

/-- What signing with given credentials comes to. -/
theorem signs_sign (careful : ∀ sign, signer = some sign → IsCareful sign)
    (isHeaderValue : String → Bool) (context : SigningContext) (credentials : Credentials)
    (request : Request) :
    Signs isHeaderValue credentials request
      (sign signer context credentials request isHeaderValue) := by
  rw [sign]
  cases hsecret : credentials.secret with
  | token token serviceInstance => exact signs_signBearer isHeaderValue hsecret request
  | keys accessKeyId secretAccessKey sessionToken =>
    have hkeys (token : Token) (id : Option String) : credentials.secret ≠ .token token id := by
      rw [hsecret]
      nofun
    exact signs_signWithKeys isHeaderValue careful context hkeys request

/-- What an error is called makes no difference. -/
theorem Signs.mapError {signed : Request} {outcome : Except ε SigningScheme} (f : ε → ε')
    (h : Signs isHeaderValue credentials request (signed, outcome)) :
    Signs isHeaderValue credentials request (signed, outcome.mapError f) := by
  have hiff : AllOrNothing credentials request (signed, outcome.mapError f) ↔
      AllOrNothing credentials request (signed, outcome) := by
    cases outcome with
    | ok scheme =>
      exact ⟨fun h => ⟨fun _ he => (nomatch he), fun hb => h.bearer (congrArg _ (Except.ok.inj hb))⟩,
        fun h => ⟨fun _ he => (nomatch he), fun hb => h.bearer (congrArg _ (Except.ok.inj hb))⟩⟩
    | error error =>
      exact ⟨fun h => ⟨fun _ _ => h.failed (f error) rfl, fun hb => (nomatch hb)⟩,
        fun h => ⟨fun _ _ => h.failed error rfl, fun hb => (nomatch hb)⟩⟩
  refine ⟨hiff.trans h.allOrNothing_iff, fun hhalf => ?_⟩
  obtain ⟨token, serviceInstance, error, hsecret, hresult⟩ := h.halfSigned hhalf
  obtain ⟨rfl, rfl⟩ := Prod.mk.inj hresult
  exact ⟨token, serviceInstance, f error, hsecret, rfl⟩

/-- What the signing stage comes to with credentials of which something is known: the request as it
is, where the cache has none to give, and else what signing with such credentials comes to. -/
def StageSigns (isHeaderValue : String → Bool) (known : Credentials → Prop) (request : Request)
    (result : Request × Except StageError SigningScheme) : Prop :=
  (∃ error, result = (request, .error (.credentials error))) ∨
    ∃ credentials, known credentials ∧ Signs isHeaderValue credentials request result

/-- Whatever is known of the credentials that a cache gives, the signing stage signs with such
credentials if it signs at all. -/
theorem signWith_meets (careful : ∀ sign, signer = some sign → IsCareful sign)
    {provider : CachedProvider} {me : TaskId} {world : World} {known : Credentials → Prop}
    (hknown : provider.get.Meets me {} (fun got _ => ∀ credentials, got = .ok credentials →
      known credentials) world) (region service : String) (request : Request) :
    (signWith provider signer region service request).Meets me {}
      (fun result later => StageSigns later.libraries.isHeaderValue known request result) world := by
  rw [signWith, Activity.meets_bind]
  refine hknown.mono fun got later hgot => ?_
  cases got with
  | error error => exact .inl ⟨error, rfl⟩
  | ok credentials =>
    have hsigns (context : SigningContext) :
        Signs later.libraries.isHeaderValue credentials request
          (sign signer context credentials request later.libraries.isHeaderValue) :=
      signs_sign careful later.libraries.isHeaderValue context credentials request
    refine ⟨trivial, .inr ⟨credentials, hgot credentials rfl, ?_⟩⟩
    change Signs (later.warnAll _).libraries.isHeaderValue credentials request _
    rw [World.libraries_warnAll]
    exact (hsigns _).mapError _

/-- Signing is all or nothing, with given credentials or with what a cache gives, exactly where it
does not sign by half: with a token that can be sent along and a service instance that cannot. So it
is whatever texts the library of HTTP messages takes for header values. -/
theorem signs_allOrNothing_iff (careful : ∀ sign, signer = some sign → IsCareful sign) :
    (∀ isHeaderValue context credentials request,
      Signs isHeaderValue credentials request
        (sign signer context credentials request isHeaderValue)) ∧
    ∀ (provider : CachedProvider) (me : TaskId) (world : World) (known : Credentials → Prop),
      provider.get.Meets me {} (fun got _ => ∀ credentials, got = .ok credentials →
        known credentials) world →
      ∀ region service request, (signWith provider signer region service request).Meets me {}
        (fun result later => StageSigns later.libraries.isHeaderValue known request result) world :=
  ⟨signs_sign careful, fun _ _ _ _ hknown => signWith_meets careful hknown⟩

/-- The texts whose characters are all visible ASCII, the space or the tab. -/
def isVisible (text : String) : Bool :=
  text.toList.all fun c => c = '\t' || (' ' ≤ c && c ≤ '~')

/-- A token that can be sent along, for a service instance that is not all visible. -/
def invisibleInstance : Credentials :=
  .ofToken (Token.issued "A" "R" "Bearer" 60 Instant.epoch) (some "é") "p"

/-- A token that can be sent along, for a service instance of two lines. -/
def brokenInstance : Credentials :=
  .ofToken (Token.issued "A" "R" "Bearer" 60 Instant.epoch) (some "bad\r\nid") "p"

/-- A request without a token. -/
def plainRequest : Request where
  headers := [{ name := "host", value := "h" }]

/-- A procedure that is never able to sign with keys. -/
def unableToSign : SigV4Signer := fun _ _ request => (request, .error "no key store")

/-- What a signature depends on. -/
def someContext : SigningContext where
  time := .epoch
  region := "us-south"
  service := "s3"

/-- A world in which header values are visible. -/
def visibleValues : World where
  libraries := { isHeaderValue := isVisible }

/-- Where header values are visible, a service instance that is not, or that has two lines, gets its
request signed by half. -/
theorem brokenInstance_halfSigned :
    IsCareful unableToSign ∧
      (∀ credentials ∈ [invisibleInstance, brokenInstance],
        (sign unableToSign someContext credentials plainRequest isVisible).2 =
            .error .invalidHeaderValue ∧
          ¬AllOrNothing credentials plainRequest
            (sign unableToSign someContext credentials plainRequest isVisible)) ∧
      (signWith { cache := 0, inner := .fixed brokenInstance } unableToSign "us-south" "s3"
          plainRequest).Meets mainTask {}
        (fun result later => StageSigns later.libraries.isHeaderValue (fun _ => True) plainRequest
          result) visibleValues := by
  have careful : IsCareful unableToSign := fun _ _ _ _ => rfl
  obtain ⟨hsign, hstage⟩ := @signs_allOrNothing_iff (some unableToSign) fun sign hsign =>
    Option.some.inj hsign ▸ careful
  have hhalf {credentials : Credentials} (h : HalfSigns isVisible credentials plainRequest) :
      ¬AllOrNothing credentials plainRequest
        (sign unableToSign someContext credentials plainRequest isVisible) := by
    rw [(hsign isVisible _ credentials plainRequest).allOrNothing_iff, not_not]
    exact h
  refine ⟨careful, ?_, hstage _ mainTask visibleValues (fun _ => True) ?_ _ _ _⟩
  · rw [List.forall_mem_cons, List.forall_mem_singleton]
    exact ⟨⟨by decide +kernel, hhalf ⟨_, "é", rfl, by decide +kernel, by decide +kernel,
        by decide +kernel⟩⟩,
      by decide +kernel, hhalf ⟨_, "bad\r\nid", rfl, by decide +kernel, by decide +kernel,
        by decide +kernel⟩⟩
  · exact (Activity.meets_nothing _ _ _).mono fun _ _ _ _ _ => trivial

end Signing

end CloudSession
