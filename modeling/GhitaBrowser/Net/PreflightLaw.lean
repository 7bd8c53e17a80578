import GhitaBrowser.Net.Traffic

/-!
# Preflights

A cross-origin hop that is not simple leaves right behind an OPTIONS exchange that allows it.
For a request with credentials the wildcard counts for a header name too, unlike in the check of
the origin.
-/

namespace GhitaBrowser.Net

open UrlLibrary Html Storage FetchRuntime

section

variable {U : Type} [UrlLibrary U]

/-- A script's header that a preflight has to allow. -/
def TakesPreflight (header : Text × Text) : Prop :=
  isForbiddenRequestHeader header.1 = false ∧ isSafelistedRequestHeader header.1 header.2 = false

/-- A hop to another origin than the page's that is not simple. -/
def NeedsClearance (client : Origin) (message : Outbound U) : Prop :=
  message.browserGenerated = false ∧ Origin.fromUrl message.url ≠ .ok client ∧
    (isSimpleMethod message.method = false ∨ ∃ header ∈ message.headers, TakesPreflight header)

def allowedMethods (exchange : HttpExchange) : List Text :=
  commaTokens (exchange.headers.get "access-control-allow-methods")

def allowedHeaders (exchange : HttpExchange) : List Text :=
  commaTokens (exchange.headers.get "access-control-allow-headers")

/-- An OPTIONS exchange that allows a message; `wildcard` says whether `*` counts for a header. -/
structure Clears (client : Origin) (credentials : CredentialsMode) (wildcard : Prop)
    (sent : SentHttp U) (message : Outbound U) : Prop where
  method : sent.method = "OPTIONS".toList
  url : sent.url = message.url
  status : 200 ≤ sent.exchange.status ∧ sent.exchange.status ≤ 299
  passed : CorsPassed client credentials sent.exchange
  allowsMethod : isSimpleMethod message.method = true ∨
    lowercase message.method ∈ allowedMethods sent.exchange
  allowsHeaders : ∀ header ∈ message.headers, TakesPreflight header →
    header.1 ∈ allowedHeaders sent.exchange ∨ wildcard ∧ ['*'] ∈ allowedHeaders sent.exchange

/-- A message that needs it leaves behind an exchange that allows it. -/
def Preflighted (client : Origin) (credentials : CredentialsMode) (wildcard : Prop)
    (before : List (Traffic U)) (message : Outbound U) : Prop :=
  NeedsClearance client message → ∃ earlier sent,
    before = earlier ++ [.receives sent] ∧ Clears client credentials wildcard sent message

/-- An exchange right before a message that needs one lists the names of its headers. -/
def Named (client : Origin) (before : List (Traffic U)) (message : Outbound U) : Prop :=
  NeedsClearance client message → ∀ earlier sent, before = earlier ++ [.receives sent] →
    ∀ header ∈ message.headers, TakesPreflight header → header.1 ∈ allowedHeaders sent.exchange

theorem preflighted_iff {client : Origin} {credentials : CredentialsMode}
    {traffic : List (Traffic U)} (h : EverySend (Preflighted client credentials True) traffic) :
    EverySend (Preflighted client credentials (credentials ≠ .include)) traffic ↔
      (credentials = .include → EverySend (Named client) traffic) := by
  constructor
  · rintro hstrict rfl before message after heq hneeds earlier sent rfl header hmem htakes
    obtain ⟨earlier', sent', hsplit, hclears⟩ := hstrict _ _ _ heq hneeds
    obtain ⟨-, hsent⟩ := List.append_inj' hsplit rfl
    cases hsent
    exact (hclears.allowsHeaders header hmem htakes).resolve_right fun hwild => hwild.1 rfl
  · intro hnamed before message after heq hneeds
    obtain ⟨earlier, sent, rfl, hclears⟩ := h _ _ _ heq hneeds
    refine ⟨earlier, sent, rfl, { hclears with allowsHeaders := fun header hmem htakes => ?_ }⟩
    by_cases hinclude : credentials = .include
    · exact .inl (hnamed hinclude _ _ _ heq hneeds earlier sent rfl header hmem htakes)
    · exact (hclears.allowsHeaders header hmem htakes).imp_right fun hwild => ⟨hinclude, hwild.2⟩

/-! ## Hops -/

theorem mem_nonSafelisted {headers : Headers} {header : Text × Text} (hmem : header ∈ headers.pairs)
    (htakes : TakesPreflight header) : header.1 ∈ nonSafelistedHeaderNames headers :=
  List.mem_map.2 ⟨header, List.mem_filter.2 ⟨hmem, by simp [htakes.1, htakes.2]⟩, rfl⟩

theorem mem_pairs_of_takes {options : HttpRequestOptions} {header : Text × Text}
    (hmem : header ∈ outboundHeaders options) (htakes : TakesPreflight header) :
    header ∈ options.headers.pairs := by
  have hforbidden {name : Text} (hname : isForbiddenRequestHeader name = true) : header.1 ≠ name :=
    fun heq => by rw [← heq, htakes.1] at hname; cases hname
  obtain h | ⟨hname, -⟩ | ⟨hname, -⟩ := mem_outboundHeaders hmem
  · exact h.1
  · exact absurd hname (hforbidden (by decide))
  · exact absurd hname (hforbidden (by decide))

omit [UrlLibrary U] in
theorem preflightAllows_spec {headers : Headers} {request : WebRequest U}
    (h : preflightAllows headers request = .ok ()) :
    (isSimpleMethod request.method = true ∨
        lowercase request.method ∈ commaTokens (headers.get "access-control-allow-methods")) ∧
      ∀ name ∈ nonSafelistedHeaderNames request.headers,
        name ∈ commaTokens (headers.get "access-control-allow-headers") ∨
          ['*'] ∈ commaTokens (headers.get "access-control-allow-headers") := by
  unfold preflightAllows at h
  dsimp only at h
  split at h
  · cases h
  · next hmethod =>
    split at h
    · cases h
    · next hnone =>
      rw [List.find?_eq_none] at hnone
      refine ⟨?_, fun name hname => ?_⟩
      · simpa [or_iff_not_imp_left] using hmethod
      · simpa [or_iff_not_imp_left] using hnone name hname

/-- The part of `Preflighted` that the code ensures. -/
abbrev Cleared (client : Origin) (credentials : CredentialsMode) (world : FetchWorld U) : Prop :=
  EverySend (Preflighted client credentials True) world.traffic

theorem cleared_generated {client : Origin} {credentials : CredentialsMode}
    {traffic : List (Traffic U)} (h : EverySend (Preflighted client credentials True) traffic)
    {message : Outbound U} (hmessage : message.browserGenerated = true) :
    EverySend (Preflighted client credentials True) (traffic ++ [.sends message]) :=
  everySend_sends h fun hneeds => absurd hneeds.1 (by rw [hmessage]; decide)

variable [PublicSuffixList]

omit [PublicSuffixList] in
theorem cleared_steady (client : Origin) (credentials : CredentialsMode) :
    Steady (Cleared (U := U) client credentials) := fun _ _ _ _ h => h

theorem preflight_clears (client : Origin) (url : U) (request : WebRequest U) :
    Meets (Cleared client request.credentials) (preflight client url request)
      (fun _ world => Cleared client request.credentials world ∧ ∃ earlier sent,
        world.traffic = earlier ++ [.receives sent] ∧ sent.method = "OPTIONS".toList ∧
          sent.url = url ∧ (200 ≤ sent.exchange.status ∧ sent.exchange.status ≤ 299) ∧
          CorsPassed client request.credentials sent.exchange ∧
          preflightAllows sent.exchange.headers request = .ok ())
      (Cleared client request.credentials) := by
  let R (exchange : HttpExchange) (world : FetchWorld U) : Prop := ∃ before sent,
    EverySend (Preflighted client request.credentials True) before ∧
      world.traffic = before ++ [.receives sent] ∧ sent.method = "OPTIONS".toList ∧ sent.url = url ∧
      sent.exchange = exchange
  have hcleared (exchange : HttpExchange) (world : FetchWorld U) (h : R exchange world) :
      Cleared client request.credentials world := by
    obtain ⟨before, sent, hbefore, hworld, -⟩ := h
    show EverySend _ world.traffic
    rw [hworld]
    exact everySend_receives hbefore _
  unfold preflight
  refine ofExcept_bind (fun _ h => h) fun headers _ => ?_
  refine Meets.bind (Q := fun _ => Cleared client request.credentials) (fun _ h => h) fun cookie => ?_
  refine Meets.bind (sendHttp_ends (Q := R) (fun _ h => h) (fun _ h => cleared_generated h rfl)
    (cleared_steady client request.credentials) (fun _ h => h)
    fun exchange world _ h => ⟨world.traffic, _, h, rfl, rfl, rfl, rfl⟩) fun exchange => ?_
  refine check_bind (hcleared exchange) fun hstatus => ?_
  refine ofExcept_bind (hcleared exchange) fun _ hpassed => ?_
  refine ofExcept_ends (hcleared exchange) fun _ hallows world h => ⟨hcleared exchange world h, ?_⟩
  obtain ⟨before, sent, -, hworld, hmethod, hurl, rfl⟩ := h
  refine ⟨before, sent, hworld, hmethod, hurl, ?_, validateCorsResponse_spec hpassed, hallows⟩
  simpa using hstatus

variable [DateLibrary] [CaseTables] {visited : CookieStore → List (Text × Cookie)}
  {client : Origin} {hop : Hop U}

def hopMessage (client : Origin) (hop : Hop U) (crossOrigin : Bool) (cookie : Text) : Outbound U :=
  messageOf hop.request.method hop.current
    { headers := hop.request.headers, body := hop.request.body
      cookie := if credentialsAllowed hop.request crossOrigin then nonEmpty cookie else none
      origin := if crossOrigin then some client.serialize else none
      browserGeneratedHeaders := false }

omit [PublicSuffixList] [DateLibrary] [CaseTables] in
theorem needsPreflight_of_clearance {crossOrigin : Bool} {cookie : Text}
    (h : NeedsClearance client (hopMessage client hop crossOrigin cookie)) :
    Origin.fromUrl hop.current ≠ .ok client ∧ needsPreflight hop.request = true := by
  obtain ⟨-, haway, hmethod | ⟨header, hmem, htakes⟩⟩ := h
  · refine ⟨haway, ?_⟩
    have hmethod : isSimpleMethod hop.request.method = false := hmethod
    rw [needsPreflight, hmethod]
    rfl
  · refine ⟨haway, ?_⟩
    have hname := mem_nonSafelisted (mem_pairs_of_takes hmem htakes) htakes
    rw [needsPreflight, Bool.or_eq_true]
    refine .inr ?_
    rw [Bool.not_eq_true', List.isEmpty_eq_false_iff_exists_mem]
    exact ⟨_, hname⟩

/-- The traffic right before the message of a hop: a preflight where one is needed. -/
def HopCleared (client : Origin) (hop : Hop U) (traffic : List (Traffic U)) : Prop :=
  EverySend (Preflighted client hop.request.credentials True) traffic ∧
    ∀ crossOrigin cookie, Preflighted client hop.request.credentials True traffic
      (hopMessage client hop crossOrigin cookie)

omit [DateLibrary] [CaseTables] in
theorem preflightIfNeeded_clears {target : Origin} (htarget : Origin.fromUrl hop.current = .ok target)
    (hmode : hop.request.mode = .cors) :
    Meets (Cleared client hop.request.credentials)
      (preflightIfNeeded client hop (target != client))
      (fun _ world => HopCleared client hop world.traffic)
      (Cleared client hop.request.credentials) := by
  have haway (h : Origin.fromUrl hop.current ≠ .ok client) : (target != client) = true := by
    rw [htarget] at h
    simpa using h
  unfold preflightIfNeeded
  refine Meets.ite (fun _ => ?_) fun hneedless world hworld => ⟨hworld, fun crossOrigin cookie hneeds => ?_⟩
  · refine (preflight_clears client hop.current hop.request).mono (fun _ => id) ?_ fun _ => id
    rintro _ world ⟨hworld, earlier, sent, htraffic, hmethod, hurl, hstatus, hpassed, hallows⟩
    refine ⟨hworld, fun crossOrigin cookie hneeds => ⟨earlier, sent, htraffic, ?_⟩⟩
    obtain ⟨hallowsMethod, hallowsHeaders⟩ := preflightAllows_spec hallows
    refine ⟨hmethod, hurl, hstatus, hpassed, hallowsMethod, fun header hmem htakes => ?_⟩
    refine (hallowsHeaders header.1 ?_).imp_right fun hwild => ⟨trivial, hwild⟩
    exact mem_nonSafelisted (mem_pairs_of_takes hmem htakes) htakes
  · obtain ⟨horigin, hpreflight⟩ := needsPreflight_of_clearance hneeds
    refine absurd ?_ hneedless
    rw [haway horigin, hmode, hpreflight]
    rfl

theorem exchangeHop_clears (crossOrigin : Bool) :
    Meets (fun world => HopCleared client hop world.traffic)
      (exchangeHop visited client hop crossOrigin)
      (fun _ => Cleared client hop.request.credentials) (Cleared client hop.request.credentials) :=
  exchangeHop_ends (C := fun _ world => HopCleared client hop world.traffic)
    (S := fun _ => Cleared client hop.request.credentials)
    (R := fun _ => Cleared client hop.request.credentials) (fun _ h => h) (fun _ _ h => h.1)
    (fun cookie _ h => everySend_sends h.1 (h.2 crossOrigin cookie))
    (fun _ => cleared_steady client hop.request.credentials) (fun _ _ h => h)
    (fun _ _ _ _ h => everySend_receives h _)
    (fun _ => cleared_steady client hop.request.credentials) (fun _ _ h => h)
    fun _ _ => Meets.ite (fun _ _ h => h) fun _ _ h => h

theorem execute_clears {request : WebRequest U} (hmode : request.mode = .cors) :
    Keeps (Cleared client request.credentials) (FetchRuntime.execute visited client request) := by
  let H (hop : Hop U) (world : FetchWorld U) : Prop := Cleared client request.credentials world ∧
    hop.request.credentials = request.credentials ∧ hop.request.mode = .cors
  have performs (hop : Hop U) : Meets (H hop) (performHop visited client hop) (fun _ => H hop)
      (Cleared client request.credentials) := by
    rintro world ⟨hworld, hsame, hcors⟩
    have hhop : Keeps (Cleared client hop.request.credentials)
        (performHop visited client hop) :=
      performHop_ends (M := fun world => HopCleared client hop world.traffic)
        (Q := fun _ => Cleared client hop.request.credentials)
        (cleared_steady client hop.request.credentials) (fun _ h => h)
        (fun _ htarget => preflightIfNeeded_clears htarget hcors) fun _ _ _ => exchangeHop_clears _
    rw [hsame] at hhop
    exact (hhop.mono (fun _ => id) (fun _ _ h => ⟨h, hsame, hcors⟩) fun _ => id) world hworld
  have follows {hop next : Hop U} {target : Origin} {exchange : HttpExchange} {location : Text}
      (hnext : nextHop hop target exchange.status location = .ok next) (world : FetchWorld U)
      (h : H hop world) : H next world := by
    obtain ⟨origin, -, hrequest, -⟩ := nextHop_spec hnext
    obtain ⟨hsameMode, hsame, -⟩ := redirected_continues hop (origin != target) exchange.status
    rw [← hrequest] at hsameMode hsame
    exact ⟨h.1, hsame.trans h.2.1, hsameMode.trans h.2.2⟩
  exact execute_ends (cleared_steady client request.credentials) (fun _ h => h)
    (Meets.mono (executeFrom_ends (H := H) (A := fun hop _ _ => H hop)
      (Q := fun _ => Cleared client request.credentials) performs (fun _ h => h.1)
      (fun _ _ _ h => h.1) (fun _ _ h => h.1) (fun _ _ hnext => follows hnext) _ _)
      (fun _ h => ⟨h, rfl, hmode⟩) (fun _ _ => id) fun _ => id)

/-- The messages of a run for a request in cors mode are preflighted, with the wildcard only
without credentials, exactly when no preflight of a run with credentials relies on it. -/
theorem execute_preflighted (visited : CookieStore → List (Text × Cookie)) (client : Origin)
    (request : WebRequest U) (hmode : request.mode = .cors) (answers : List HttpAnswer)
    (aborts : List Bool) (now : Int) (cookies : CookieStore) :
    EverySend (Preflighted client request.credentials (request.credentials ≠ .include))
        (endState (FetchRuntime.execute visited client request)
          { answers, aborts, now, cookies, exchanges := [] }).traffic ↔
      (request.credentials = .include →
        EverySend (Named client) (endState (FetchRuntime.execute visited client request)
          { answers, aborts, now, cookies, exchanges := [] }).traffic) :=
  preflighted_iff ((execute_clears hmode).endState everySend_nil)

end

/-! ## A wildcard with credentials -/

section

/-- An answer with headers for the page at `https://a.test`. -/
def corsAnswer (headers : List (String × String)) : HttpAnswer where
  now := 0
  reply := .ok {
    url := "https://b.test/".toList
    status := 200
    statusText := []
    headers := ([("access-control-allow-origin", "https://a.test"),
      ("access-control-allow-credentials", "true")] ++ headers).map
        fun header => (header.1.toList, header.2.toList)
    setCookie := []
    body := [] }

/-- A request with a header of the script's own. -/
def tokenRequest (credentials : CredentialsMode) : WebRequest PlainUrl where
  url := { scheme := "https".toList, host := "b.test".toList, path := "/".toList }
  method := "GET".toList
  headers := { entries := Std.ExtTreeMap.ofList [("x-token".toList, ["1".toList])], bytes := 8 }
  body := []
  mode := .cors
  credentials
  redirect := .follow

/-- The world after a preflight with a list of headers and the hop behind it. -/
def tokenRun (allowed : String) : FetchWorld PlainUrl :=
  endState (@FetchRuntime.execute PlainUrl _ shortList noDates asciiTables (fun _ => []) pageOrigin
      (tokenRequest .include))
    { answers := [corsAnswer [("access-control-allow-headers", allowed)], corsAnswer []]
      aborts := [], now := 0, cookies := ∅, exchanges := [] }

/-- Without credentials the wildcard is as good as the name. -/
theorem execute_preflighted_wildcard :
    EverySend (Preflighted pageOrigin .sameOrigin (CredentialsMode.sameOrigin ≠ .include))
      (endState (@FetchRuntime.execute PlainUrl _ shortList noDates asciiTables (fun _ => []) pageOrigin
          (tokenRequest .sameOrigin))
        { answers := [corsAnswer [("access-control-allow-headers", "*")], corsAnswer []]
          aborts := [], now := 0, cookies := ∅, exchanges := [] }).traffic :=
  (@execute_preflighted PlainUrl _ shortList noDates asciiTables (fun _ => []) pageOrigin
    (tokenRequest .sameOrigin) rfl _ [] 0 ∅).2 nofun

/-- A preflight that answers `*`, and behind it another origin's hop with the header. -/
def wildcardPassed : List (Traffic PlainUrl) → Bool
  | [.sends _, .receives sent, .sends message, .receives _] =>
    !message.browserGenerated && (Origin.fromUrl message.url).toOption != some pageOrigin &&
      message.headers.any (fun header => header == ("x-token".toList, "1".toList)) &&
      allowedHeaders sent.exchange == [['*']]
  | _ => false

/-- With credentials a preflight that answers `*` lets the header through. -/
theorem execute_wildcard :
    ¬EverySend (Preflighted pageOrigin .include (CredentialsMode.include ≠ .include))
      (tokenRun "*").traffic := by
  have hshape : wildcardPassed (tokenRun "*").traffic = true := by decide +kernel
  revert hshape
  unfold wildcardPassed
  split
  · next first sent message last htraffic =>
    intro hshape hall
    simp only [Bool.and_eq_true, Bool.not_eq_true', bne_iff_ne, ne_eq, List.any_eq_true,
      beq_iff_eq] at hshape
    obtain ⟨⟨⟨hhop, haway⟩, header, hmem, rfl⟩, hallowed⟩ := hshape
    have htakes : TakesPreflight ("x-token".toList, "1".toList) := by
      unfold TakesPreflight
      decide
    have hneeds : NeedsClearance pageOrigin message :=
      ⟨hhop, fun hsame => haway (by rw [hsame]; rfl), .inr ⟨_, hmem, htakes⟩⟩
    obtain ⟨earlier, cleared, hbefore, hclears⟩ :=
      hall [.sends first, .receives sent] message [.receives last] htraffic hneeds
    have hsplit : [Traffic.sends first] ++ [.receives sent] = earlier ++ [.receives cleared] := hbefore
    obtain ⟨-, hsent⟩ := List.append_inj' hsplit rfl
    cases hsent
    obtain hnamed | hwild := hclears.allowsHeaders _ hmem htakes
    · rw [hallowed] at hnamed
      exact absurd hnamed (by decide)
    · exact hwild.1 rfl
  · intro hshape
    cases hshape

end

end GhitaBrowser.Net
