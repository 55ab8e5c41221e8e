import CloudSession.Endpoint.Resolver
import CloudSession.Proofs.Endpoint.Scheme
import CloudSession.Proofs.Text.Replace

/-!
# Host names filled in

The standard resolver fills the placeholders of a template one after the other. What it puts in is
searched for the placeholders that come later: those of the region and of the domain in the service,
and that of the domain in the region. So the host name is the literal one of a service and a region
that have been filled in themselves. It is the literal one of the given service and region exactly if
that leaves both as they are, as a filling loses no dot, and a dot stands between the two.
-/

namespace CloudSession

/-- The placeholder of the service. -/
def serviceMark : List Char := "\x7bservice\x7d".toList

/-- The placeholder of the region. -/
def regionMark : List Char := "\x7bregion\x7d".toList

/-- The placeholder of the domain. -/
def domainMark : List Char := "\x7bdnsSuffix\x7d".toList

namespace TemplateResolver

variable {resolver : TemplateResolver} {service region placed moved : String} {useDualStack : Bool}

/-- The host name with the service, the region and the domain as they are. -/
def literalHostname (resolver : TemplateResolver) (service region : String) (useDualStack : Bool) :
    String :=
  service ++ "." ++ (if useDualStack then "dualstack." else "") ++ region ++ "." ++
    resolver.dnsSuffix

/-- The region as it ends up in a host name. -/
def placedRegion (resolver : TemplateResolver) (region : String) : String :=
  fill region "\x7bdnsSuffix\x7d" resolver.dnsSuffix

/-- The service as it ends up in a host name. -/
def placedService (resolver : TemplateResolver) (service region : String) : String :=
  fill (fill service "\x7bregion\x7d" region) "\x7bdnsSuffix\x7d" resolver.dnsSuffix

/-! ## The three fillings -/

/-- What stands between the service and the region. -/
def link (useDualStack : Bool) : List Char :=
  if useDualStack then ".dualstack.".toList else ".".toList

/-- To fill in a text replaces all occurrences of the placeholder. -/
theorem toList_fill (text placeholder value : String) :
    (fill text placeholder value).toList =
      Text.replaceAll placeholder.toList value.toList text.toList := by
  simp [fill]

/-- The region as it stands in the hostname, written as characters. -/
theorem toList_placedRegion (resolver : TemplateResolver) (region : String) :
    (resolver.placedRegion region).toList =
      Text.replaceAll domainMark resolver.dnsSuffix.toList region.toList :=
  toList_fill _ _ _

/-- The service as it stands in the hostname, written as characters. -/
theorem toList_placedService (resolver : TemplateResolver) (service region : String) :
    (resolver.placedService service region).toList =
      Text.replaceAll domainMark resolver.dnsSuffix.toList
        (Text.replaceAll regionMark region.toList service.toList) := by
  rw [placedService, toList_fill, toList_fill]
  rfl

/-- The hostname, written as characters: three replacements one after the other. -/
theorem toList_hostname (resolver : TemplateResolver) (service region : String)
    (useDualStack : Bool) : (resolver.hostname service region useDualStack).toList =
      Text.replaceAll domainMark resolver.dnsSuffix.toList
        (Text.replaceAll regionMark region.toList
          (Text.replaceAll serviceMark service.toList (template useDualStack).toList)) := by
  rw [hostname, toList_fill, toList_fill, toList_fill]
  rfl

/-- The literal hostname, written as characters. -/
theorem toList_literalHostname (resolver : TemplateResolver) (service region : String)
    (useDualStack : Bool) : (resolver.literalHostname service region useDualStack).toList =
      service.toList ++ link useDualStack ++
        (region.toList ++ '.' :: resolver.dnsSuffix.toList) := by
  cases useDualStack <;> simp [literalHostname, link]

/-- A template, written as characters. -/
theorem toList_template (useDualStack : Bool) : (template useDualStack).toList =
    serviceMark ++ (link useDualStack ++ (regionMark ++ '.' :: domainMark)) := by
  cases useDualStack <;> rfl

/-- The link between service and region begins with a dot. -/
theorem exists_link_eq (useDualStack : Bool) : ∃ rest, link useDualStack = '.' :: rest := by
  cases useDualStack <;> exact ⟨_, rfl⟩

/-- No brace stands in the link. -/
theorem brace_not_mem_link (useDualStack : Bool) : '\x7b' ∉ link useDualStack := by
  cases useDualStack <;> decide

/-- A placeholder does not reach into what stands between the service and the region. -/
theorem replaceAll_append_link {mark value before after : List Char}
    (hopens : mark.head? = some '\x7b') (hdot : '.' ∉ mark) :
    Text.replaceAll mark value (before ++ (link useDualStack ++ after)) =
      Text.replaceAll mark value before ++
        (link useDualStack ++ Text.replaceAll mark value after) := by
  obtain ⟨others, rfl⟩ := List.head?_eq_some_iff.mp hopens
  obtain ⟨rest, hlink⟩ := exists_link_eq useDualStack
  have hrest : '\x7b' ∉ rest := fun h =>
    brace_not_mem_link useDualStack (hlink ▸ List.mem_cons_of_mem '.' h)
  rw [hlink, List.cons_append, Text.replaceAll_append_cons (List.cons_ne_nil _ _) hdot,
    Text.replaceAll_append_of_not_mem hrest, List.cons_append]

/-- An occurrence in front of a text without others is filled, and the text is left alone. -/
theorem replaceAll_append_of_not_infix {mark value after : List Char} (hne : mark ≠ [])
    (habsent : ¬ mark <:+: after) : Text.replaceAll mark value (mark ++ after) = value ++ after := by
  rw [Text.replaceAll_occurrence hne, Text.replaceAll_of_not_infix hne habsent]

/-- The host name is the literal one of the service and the region as they end up in it. -/
theorem hostname_eq (resolver : TemplateResolver) (service region : String) (useDualStack : Bool) :
    resolver.hostname service region useDualStack =
      resolver.literalHostname (resolver.placedService service region)
        (resolver.placedRegion region) useDualStack := by
  have hservice : ¬ serviceMark <:+: link useDualStack ++ (regionMark ++ '.' :: domainMark) := by
    cases useDualStack <;> decide
  have hdomain : Text.replaceAll domainMark resolver.dnsSuffix.toList (domainMark ++ []) =
      resolver.dnsSuffix.toList ++ [] :=
    replaceAll_append_of_not_infix (by decide) (by decide)
  rw [List.append_nil, List.append_nil] at hdomain
  apply String.toList_injective
  rw [toList_literalHostname, toList_hostname, toList_placedService, toList_placedRegion,
    toList_template, replaceAll_append_of_not_infix (by decide) hservice,
    replaceAll_append_link (by rfl) (by decide),
    replaceAll_append_of_not_infix (by decide) (by decide),
    replaceAll_append_link (by rfl) (by decide),
    Text.replaceAll_append_cons (by decide) (by decide), hdomain, List.append_assoc]

/-! ## When a host name is literal -/

/-- What is put in between does not hide where the service ends if neither side has lost a dot. -/
theorem nil_of_link_append_eq {between left right : List Char} (hdots : between.count '.' = 0)
    (h : link useDualStack ++ left = between ++ (link useDualStack ++ right)) : between = [] := by
  obtain ⟨rest, hlink⟩ := exists_link_eq useDualStack
  cases between with
  | nil => rfl
  | cons c between =>
    rw [hlink] at h
    obtain rfl : '.' = c := (List.cons.inj h).1
    simp at hdots

/-- Texts on both sides of the link are told apart, if the dots do not move from one side to the
other. -/
theorem eq_of_append_link_eq {left right before after : List Char}
    (hleft : before.count '.' ≤ left.count '.') (hright : after.count '.' ≤ right.count '.')
    (h : left ++ (link useDualStack ++ right) = before ++ (link useDualStack ++ after)) :
    left = before ∧ right = after := by
  have htotal := congrArg (List.count '.') h
  simp only [List.count_append] at htotal
  suffices heq : left = before by
    subst heq
    exact ⟨rfl, List.append_cancel_left (List.append_cancel_left h)⟩
  rcases List.append_eq_append_iff.mp h with ⟨between, hbefore, hrest⟩ | ⟨between, hleft', hrest⟩
  · have hcount := congrArg (List.count '.') hbefore
    rw [List.count_append] at hcount
    rw [hbefore, nil_of_link_append_eq (by omega) hrest, List.append_nil]
  · have hcount := congrArg (List.count '.') hleft'
    rw [List.count_append] at hcount
    rw [hleft', nil_of_link_append_eq (by omega) hrest, List.append_nil]

/-- Literal host names are the same exactly if the services and the regions are, unless one has more
dots in its service and the other in its region. -/
theorem literalHostname_eq_iff (hservice : service.toList.count '.' ≤ placed.toList.count '.')
    (hregion : region.toList.count '.' ≤ moved.toList.count '.') :
    resolver.literalHostname placed moved useDualStack =
        resolver.literalHostname service region useDualStack ↔
      placed = service ∧ moved = region := by
  constructor
  · intro h
    have hlists := congrArg String.toList h
    rw [toList_literalHostname, toList_literalHostname, List.append_assoc, List.append_assoc]
      at hlists
    obtain ⟨hplaced, hmoved⟩ := eq_of_append_link_eq hservice
      (by simp only [List.count_append]; omega) hlists
    exact ⟨String.toList_injective hplaced,
      String.toList_injective (List.append_cancel_right hmoved)⟩
  · rintro ⟨rfl, rfl⟩
    rfl

variable {c : Char}

/-- A character that is in no placeholder is not lost where the region is placed. -/
theorem count_le_count_placedRegion (hdomain : c ∉ domainMark) :
    region.toList.count c ≤ (resolver.placedRegion region).toList.count c := by
  rw [toList_placedRegion]
  exact Text.count_le_count_replaceAll (by decide) hdomain _

/-- A character that is in no placeholder is not lost where the service is placed. -/
theorem count_le_count_placedService (hregion : c ∉ regionMark) (hdomain : c ∉ domainMark) :
    service.toList.count c ≤ (resolver.placedService service region).toList.count c := by
  rw [toList_placedService]
  exact (Text.count_le_count_replaceAll (by decide) hregion _).trans
    (Text.count_le_count_replaceAll (by decide) hdomain _)

/-- The region is placed as it is unless it holds a placeholder that stands for something else. -/
theorem placedRegion_eq_iff : resolver.placedRegion region = region ↔
    resolver.dnsSuffix.toList = domainMark ∨ ¬ domainMark <:+: region.toList := by
  rw [← String.toList_inj, toList_placedRegion, Text.replaceAll_eq_self_iff (by decide)]

/-- A service without placeholders is left as it is. -/
theorem placedService_eq_self (hregion : ¬ regionMark <:+: service.toList)
    (hdomain : ¬ domainMark <:+: service.toList) :
    resolver.placedService service region = service := by
  rw [← String.toList_inj, toList_placedService, Text.replaceAll_of_not_infix (by decide) hregion,
    Text.replaceAll_of_not_infix (by decide) hdomain]

/-- What is put before a literal hostname may as well be put before its service. -/
theorem opening_append_literalHostname (disableSsl : Bool) :
    Endpoint.opening disableSsl ++ resolver.literalHostname service region useDualStack =
      resolver.literalHostname (Endpoint.opening disableSsl ++ service) region useDualStack := by
  simp [literalHostname, String.append_assoc]

/-- The opening has no dot and two slashes. -/
theorem count_opening_append (disableSsl : Bool) (text : String) :
    (Endpoint.opening disableSsl ++ text).toList.count '.' = text.toList.count '.' ∧
      (Endpoint.opening disableSsl ++ text).toList.count '/' = 2 + text.toList.count '/' := by
  rw [String.toList_append, List.count_append, List.count_append]
  cases disableSsl
  · exact ⟨by rw [show (Endpoint.opening false).toList.count '.' = 0 from rfl, Nat.zero_add], rfl⟩
  · exact ⟨by rw [show (Endpoint.opening true).toList.count '.' = 0 from rfl, Nat.zero_add], rfl⟩

/-- The URLs are the same exactly if the region is left as it is, and the service too, or it has got
the scheme in front that the literal host name lacks. -/
theorem addScheme_hostname_eq_iff (disableSsl : Bool) :
    Endpoint.addScheme (resolver.hostname service region useDualStack) disableSsl =
        Endpoint.addScheme (resolver.literalHostname service region useDualStack) disableSsl ↔
      resolver.placedRegion region = region ∧ (resolver.placedService service region = service ∨
        resolver.placedService service region = Endpoint.opening disableSsl ++ service ∧
          Endpoint.hasScheme (resolver.literalHostname service region useDualStack) = false) := by
  have hservice : service.toList.count '.' ≤
      (resolver.placedService service region).toList.count '.' :=
    count_le_count_placedService (by decide) (by decide)
  have hregion : region.toList.count '.' ≤ (resolver.placedRegion region).toList.count '.' :=
    count_le_count_placedRegion (by decide)
  have hopened := count_opening_append disableSsl service
  have hplaced := count_opening_append disableSsl (resolver.placedService service region)
  have hslashes : service.toList.count '/' ≤
      (resolver.placedService service region).toList.count '/' :=
    count_le_count_placedService (by decide) (by decide)
  -- the literal host name is not the other one with a scheme in front, which has more slashes
  have hnever : resolver.literalHostname service region useDualStack ≠
      Endpoint.opening disableSsl ++ resolver.literalHostname
        (resolver.placedService service region) (resolver.placedRegion region) useDualStack := by
    intro h
    rw [opening_append_literalHostname, eq_comm,
      literalHostname_eq_iff (hservice.trans hplaced.1.ge) hregion] at h
    have hcount := hplaced.2
    rw [h.1] at hcount
    omega
  rw [Endpoint.addScheme_eq_addScheme_iff, hostname_eq, literalHostname_eq_iff hservice hregion,
    opening_append_literalHostname, literalHostname_eq_iff (hopened.1.trans_le hservice) hregion]
  simp only [hnever, false_and, or_false]
  rw [and_right_comm, ← or_and_right, and_comm]

/-! ## Endpoints -/

/-- The endpoint with the service, the region and the domain in its URL as they are. -/
def literalEndpoint (resolver : TemplateResolver) (service region : String)
    (options : EndpointOptions) : ResolvedEndpoint where
  url := Endpoint.addScheme (resolver.literalHostname service region options.useDualStack)
    options.disableSsl
  signingRegion := some region
  signingName := some service
  signingNameDerived := true

/-- The service and the region end up in the URL as they are. -/
structure TakesLiterally (resolver : TemplateResolver) (service region : String)
    (options : EndpointOptions) : Prop where
  /-- The placeholder of the domain does not occur in the region, or is filled with itself. -/
  regionKept : resolver.dnsSuffix.toList = domainMark ∨ ¬ domainMark <:+: region.toList
  /-- The service is left as it is, or gets the very scheme in front that the literal host name would
  get, as it has none. -/
  serviceKept : resolver.placedService service region = service ∨
    resolver.placedService service region = Endpoint.opening options.disableSsl ++ service ∧
      Endpoint.hasScheme (resolver.literalHostname service region options.useDualStack) = false

/-- A service that is known, or is resolved although it is not, has an endpoint in every region. It
is the literal one of the service and the region as they end up in the host name, and so the literal
one of the given service and region exactly if these are taken literally. -/
theorem resolve_literal_iff {options : EndpointOptions} (hregion : region ≠ "")
    (hresolved : service ∈ resolver.knownServices ∨ options.resolveUnknownService = true) :
    resolver.resolve service (some region) options =
        .ok { resolver.literalEndpoint service region options with
          url := Endpoint.addScheme
            (resolver.literalHostname (resolver.placedService service region)
              (resolver.placedRegion region) options.useDualStack) options.disableSsl } ∧
      (resolver.resolve service (some region) options =
          .ok (resolver.literalEndpoint service region options) ↔
        resolver.TakesLiterally service region options) := by
  have hfound : resolver.resolve service (some region) options =
      .ok { resolver.literalEndpoint service region options with
        url := Endpoint.addScheme (resolver.hostname service region options.useDualStack)
          options.disableSsl } := by
    have hknown : (!resolver.knownServices.contains service && !options.resolveUnknownService) =
        false := by
      rcases hresolved with h | h <;> simp [h]
    have hgiven : (some region).filter (· ≠ "") = some region := by simp [hregion]
    simp only [resolve, hgiven, hknown, literalEndpoint, Bool.false_eq_true, if_false]
  refine ⟨by rw [hfound, hostname_eq], ?_⟩
  have hurl : resolver.resolve service (some region) options =
      .ok (resolver.literalEndpoint service region options) ↔
        Endpoint.addScheme (resolver.hostname service region options.useDualStack)
            options.disableSsl =
          Endpoint.addScheme (resolver.literalHostname service region options.useDualStack)
            options.disableSsl := by
    rw [hfound, Except.ok.injEq]
    simp [literalEndpoint]
  rw [hurl, addScheme_hostname_eq_iff, placedRegion_eq_iff]
  exact ⟨fun ⟨hplaced, hservice⟩ => ⟨hplaced, hservice⟩, fun h => ⟨h.regionKept, h.serviceKept⟩⟩

/-- Where no placeholder occurs, the service and the region are taken literally. -/
theorem takesLiterally_of_not_infix {options : EndpointOptions}
    (hservice : ¬ regionMark <:+: service.toList) (hdomain : ¬ domainMark <:+: service.toList)
    (hregion : ¬ domainMark <:+: region.toList) :
    resolver.TakesLiterally service region options :=
  ⟨.inr hregion, .inl (placedService_eq_self hservice hdomain)⟩

/-- A service that is the placeholder of the region is put in and then filled with the region. -/
theorem placeholderAsService_literal_iff :
    "us-south" ≠ "" ∧
      ("\x7bregion\x7d" ∈ ({} : TemplateResolver).knownServices ∨
        ({ resolveUnknownService := true } : EndpointOptions).resolveUnknownService = true) ∧
      TemplateResolver.resolve {} "\x7bregion\x7d" (some "us-south")
          { resolveUnknownService := true } ≠
        .ok (literalEndpoint {} "\x7bregion\x7d" "us-south" { resolveUnknownService := true }) := by
  have hregion : "us-south" ≠ "" := by decide
  have hresolved : "\x7bregion\x7d" ∈ ({} : TemplateResolver).knownServices ∨
      ({ resolveUnknownService := true } : EndpointOptions).resolveUnknownService = true := .inr rfl
  refine ⟨hregion, hresolved, fun h => ?_⟩
  have literally := (resolve_literal_iff hregion hresolved).2.mp h
  rcases literally.serviceKept with hsame | ⟨hopened, -⟩
  · revert hsame
    decide +kernel
  · revert hopened
    decide +kernel

end TemplateResolver

end CloudSession
