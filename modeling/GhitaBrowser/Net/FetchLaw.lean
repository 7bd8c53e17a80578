import GhitaBrowser.Net.Fetch
import GhitaBrowser.Storage.CookieScope

/-!
# What a page may see of a response

The verdict on a response depends on every hop of its chain. The runtime remembers one bit of
the chain, whether it has ever changed its origin, and that bit is not asked for a no-cors
request whose last hop is on the origin of the page.
-/

namespace GhitaBrowser.Net

open UrlLibrary Html Storage FetchRuntime List

/-! ## Header names -/

namespace Headers

/-- Every name is in its normal form. -/
def Normal (headers : Headers) : Prop :=
  ∀ name, headers.entries.contains name = true → normalizeName name = .ok name

theorem nameChar_not_whitespace {c : Char} (h : nameChar c = true) : isWhitespace c = false := by
  have hrange : 33 ≤ c.toNat ∧ c.toNat ≤ 126 := by
    unfold nameChar at h
    rw [Bool.or_eq_true] at h
    obtain halnum | hmark := h
    · change ((decide (c.val ≥ 65 ∧ c.val ≤ 90) || (decide (c.val ≥ 97) && decide (c.val ≤ 122))) ||
        (decide (c.val ≥ 48) && decide (c.val ≤ 57))) = true at halnum
      simp only [Bool.or_eq_true, Bool.and_eq_true, decide_eq_true_eq, ge_iff_le,
        UInt32.le_iff_toNat_le] at halnum
      have hval : c.toNat = c.val.toNat := rfl
      simp at halnum
      omega
    · have hmarks : "!#$%&'*+-.^_`|~".toList.all
          (fun d => decide (33 ≤ d.toNat ∧ d.toNat ≤ 126)) = true := by decide
      simpa using all_eq_true.mp hmarks c (contains_iff_mem.mp hmark)
  simp only [isWhitespace]
  simp
  omega

theorem trimText_eq {text : Text} (h : ∀ c ∈ text, isWhitespace c = false) : trimText text = text := by
  have hdrop : ∀ chars : Text, (∀ c ∈ chars, isWhitespace c = false) →
      chars.dropWhile isWhitespace = chars := by
    intro chars hchars
    cases chars with
    | nil => rfl
    | cons c rest => exact dropWhile_cons_of_neg (by simp [hchars c mem_cons_self])
  rw [trimText, hdrop text h, hdrop _ fun c hc => h c (mem_reverse.mp hc), reverse_reverse]

theorem normalizeName_spec {name normalized : Text} (h : normalizeName name = .ok normalized) :
    normalizeName normalized = .ok normalized := by
  unfold normalizeName at h
  dsimp only at h
  split at h
  · cases h
  · next hgood =>
    obtain rfl := Except.ok.inj h
    have hchars : ((trimText name).map Char.toLower).all nameChar = true := by
      simp only [Bool.or_eq_true, not_or] at hgood
      simpa using hgood.2
    have htrim : trimText ((trimText name).map Char.toLower) = (trimText name).map Char.toLower :=
      trimText_eq fun c hc => nameChar_not_whitespace (all_eq_true.mp hchars c hc)
    have hlower : ((trimText name).map Char.toLower).map Char.toLower =
        (trimText name).map Char.toLower := lowercase_lowercase _
    unfold normalizeName
    dsimp only
    rw [htrim, hlower, if_neg hgood]

theorem append_contains {headers appended : Headers} {name value : Text}
    (h : headers.append name value = .ok appended) {key : Text}
    (hkey : appended.entries.contains key = true) :
    headers.entries.contains key = true ∨ normalizeName name = .ok key := by
  unfold append at h
  cases hname : normalizeName name with
  | error error =>
    rw [hname] at h
    cases h
  | ok normalized =>
    cases hvalue : normalizeValue value with
    | error error =>
      rw [hname, hvalue] at h
      cases h
    | ok trimmed =>
      rw [hname, hvalue] at h
      simp only [bind, Except.bind] at h
      split at h
      · cases h
      · split at h
        · cases h
        · obtain rfl := Except.ok.inj h
          rw [Std.ExtTreeMap.contains_insert, Bool.or_eq_true] at hkey
          obtain heq | hkey := hkey
          · exact .inr (congrArg _ (Std.LawfulEqCmp.eq_of_compare (eq_of_beq heq)))
          · exact .inl hkey

theorem appendAll_contains {pairs : List (Text × Text)} {headers appended : Headers}
    (h : pairs.foldlM (fun headers (name, value) => headers.append name value) headers = .ok appended)
    {key : Text} (hkey : appended.entries.contains key = true) :
    headers.entries.contains key = true ∨ ∃ pair ∈ pairs, normalizeName pair.1 = .ok key := by
  induction pairs generalizing headers with
  | nil =>
    cases h
    exact .inl hkey
  | cons pair pairs ih =>
    obtain ⟨name, value⟩ := pair
    rw [foldlM_cons] at h
    dsimp only at h
    cases hfirst : headers.append name value with
    | error error =>
      rw [hfirst] at h
      cases h
    | ok middle =>
      rw [hfirst] at h
      obtain hmiddle | ⟨other, hother, hname⟩ := ih h
      · exact (append_contains hfirst hmiddle).imp id fun hname => ⟨_, mem_cons_self, hname⟩
      · exact .inr ⟨other, mem_cons_of_mem _ hother, hname⟩

theorem contains_new (key : Text) : new.entries.contains key = false := by
  simp [new]

theorem mem_pairs {headers : Headers} {pair : Text × Text} (h : pair ∈ headers.pairs) :
    headers.entries.contains pair.1 = true := by
  obtain ⟨⟨name, values⟩, hentry, rfl⟩ := mem_map.mp h
  rw [Std.ExtTreeMap.mem_toList_iff_getElem?_eq_some] at hentry
  rw [Std.ExtTreeMap.contains_eq_isSome_getElem?, hentry]
  rfl

end Headers

theorem readReply_normal {reply : RawReply} {exchange : HttpExchange}
    (h : readReply reply = .ok exchange) : exchange.headers.Normal := by
  unfold readReply at h
  cases hheaders : reply.headers.foldlM
      (fun headers (name, value) => Headers.append headers name value) Headers.new with
  | error error =>
    rw [hheaders] at h
    cases h
  | ok headers =>
    rw [hheaders] at h
    simp only [bind, Except.bind] at h
    split at h
    · cases h
    · obtain rfl := Except.ok.inj h
      intro name hname
      obtain hnew | ⟨pair, -, hpair⟩ := Headers.appendAll_contains hheaders hname
      · rw [Headers.contains_new] at hnew
        cases hnew
      · exact Headers.normalizeName_spec hpair

/-! ## Programs -/

section

variable {U : Type} {P E : FetchWorld U → Prop} {α β : Type} {Q : β → FetchWorld U → Prop}

/-- What is said of messages and cookies alone: the network, the abort signal and the clock leave it
as it is. -/
def Steady (P : FetchWorld U → Prop) : Prop :=
  ∀ world answers aborts now, P world → P { world with answers, aborts, now }

theorem check_bind {fails : Bool} {error : FetchError} {next : Unit → FetchRun U β}
    (hE : ∀ world, P world → E world) (h : fails = false → Meets P (next ()) Q E) :
    Meets P (check fails error >>= next) Q E := by
  cases fails with
  | true => exact hE
  | false => exact h rfl

theorem ofExcept_bind {value : Except FetchError α} {next : α → FetchRun U β}
    (hE : ∀ world, P world → E world)
    (h : ∀ result, value = .ok result → Meets P (next result) Q E) :
    Meets P (ofExcept value >>= next) Q E := by
  cases value with
  | error error => exact hE
  | ok result => exact h result rfl

theorem ofExcept_ends {value : Except FetchError β} (hE : ∀ world, P world → E world)
    (h : ∀ result, value = .ok result → ∀ world, P world → Q result world) :
    Meets P (ofExcept value) Q E := by
  cases value with
  | error error => exact hE
  | ok result => exact h result rfl

theorem checkAborted_bind {next : Unit → FetchRun U β} (hP : Steady P)
    (hE : ∀ world, P world → E world) (h : Meets P (next ()) Q E) :
    Meets P (checkAborted >>= next) Q E := by
  refine Meets.bind (Meets.bind (Q := fun _ => P) (fun world hworld => ?_) fun stop => ?_) fun _ => h
  · unfold aborted
    rw [bind_get]
    cases world.aborts with
    | nil => exact hworld
    | cons answer aborts => exact hP world _ aborts _ hworld
  · cases stop with
    | true => exact hE
    | false => exact fun _ hworld => hworld

theorem awaitAnswer_ends (hP : Steady P) (hE : ∀ world, P world → E world) :
    Meets P awaitAnswer (fun exchange world => exchange.headers.Normal ∧ P world) E := by
  refine Meets.bind (Q := fun _ => P) (fun world hworld => ?_) fun answer => ?_
  · obtain ⟨answers, aborts, now, cookies, exchanges, traffic⟩ := world
    cases answers with
    | nil => exact hworld
    | cons answer answers => exact hP _ answers _ answer.now hworld
  · cases answer with
    | error error => exact hE
    | ok reply => exact ofExcept_ends hE fun _ hread _ hworld => ⟨readReply_normal hread, hworld⟩

variable [UrlLibrary U]

/-- The message that `send_http` makes of its arguments. -/
def messageOf (method : Text) (url : U) (options : HttpRequestOptions) : Outbound U :=
  { method, url, headers := outboundHeaders options
    browserGenerated := options.browserGeneratedHeaders }

/-- The world when a message has left. -/
def FetchWorld.sent (world : FetchWorld U) (message : Outbound U) : FetchWorld U :=
  { world with traffic := world.traffic ++ [.sends message] }

/-- The world when its answer is there. -/
def FetchWorld.received (world : FetchWorld U) (sent : SentHttp U) : FetchWorld U :=
  { world with
    exchanges := world.exchanges ++ [sent]
    traffic := world.traffic ++ [.receives sent] }

theorem sendHttp_ends {S : FetchWorld U → Prop} {Q : HttpExchange → FetchWorld U → Prop}
    {method : Text} {url : U} {options : HttpRequestOptions} (hP : ∀ world, P world → E world)
    (sends : ∀ world, P world → S (world.sent (messageOf method url options)))
    (hS : Steady S) (hSE : ∀ world, S world → E world)
    (receives : ∀ exchange world, exchange.headers.Normal → S world →
      Q exchange (world.received { method, url, options, exchange })) :
    Meets P (sendHttp method url options) Q E := by
  unfold sendHttp
  refine check_bind hP fun _ => ?_
  refine Meets.bind (Q := fun _ => S) sends fun _ => ?_
  exact Meets.bind (awaitAnswer_ends hS hSE) fun exchange world hworld =>
    receives exchange world hworld.1 hworld.2

variable [PublicSuffixList] [DateLibrary] [CaseTables]
  {visited : CookieStore → List (Text × Cookie)} {client : Origin} {hop : Hop U}

def hopOptions (client : Origin) (hop : Hop U) (crossOrigin : Bool) (cookie : Text) :
    HttpRequestOptions :=
  { headers := hop.request.headers, body := hop.request.body
    cookie := if credentialsAllowed hop.request crossOrigin then nonEmpty cookie else none
    origin := if crossOrigin then some client.serialize else none
    browserGeneratedHeaders := false }

theorem exchangeHop_ends {C S : Text → FetchWorld U → Prop}
    {R Q : HttpExchange → FetchWorld U → Prop} {crossOrigin : Bool}
    (reads : Meets P (cookieHeader hop.current) C E) (hC : ∀ cookie world, C cookie world → E world)
    (sends : ∀ cookie world, C cookie world → S cookie (world.sent
      (messageOf hop.request.method hop.current (hopOptions client hop crossOrigin cookie))))
    (hS : ∀ cookie, Steady (S cookie)) (hSE : ∀ cookie world, S cookie world → E world)
    (receives : ∀ cookie exchange world, exchange.headers.Normal → S cookie world →
      R exchange (world.received { method := hop.request.method, url := hop.current, exchange
                                   options := hopOptions client hop crossOrigin cookie }))
    (hR : ∀ exchange, Steady (R exchange)) (hRE : ∀ exchange world, R exchange world → E world)
    (stores : ∀ exchange, checkCors client hop.request crossOrigin exchange = .ok () →
      Meets (R exchange)
        (storeAllowedCookies visited (credentialsAllowed hop.request crossOrigin) exchange)
        (fun _ => Q exchange) E) :
    Meets P (exchangeHop visited client hop crossOrigin) Q E := by
  unfold exchangeHop
  refine Meets.bind reads fun cookie => ?_
  refine Meets.bind (sendHttp_ends (hC cookie) (sends cookie) (hS cookie) (hSE cookie)
    (receives cookie)) fun exchange => ?_
  refine checkAborted_bind (hR exchange) (hRE exchange) ?_
  refine ofExcept_bind (hRE exchange) fun _ hpassed => ?_
  exact Meets.bind (stores exchange hpassed) fun _ _ h => h

theorem performHop_ends {M : FetchWorld U → Prop} {Q : Origin × HttpExchange → FetchWorld U → Prop}
    (hP : Steady P) (hE : ∀ world, P world → E world)
    (preflights : ∀ target, Origin.fromUrl hop.current = .ok target →
      Meets P (preflightIfNeeded client hop (target != client)) (fun _ => M) E)
    (exchanges : ∀ target, Origin.fromUrl hop.current = .ok target →
      (target != client && hop.request.mode == .sameOrigin) = false →
      Meets M (exchangeHop visited client hop (target != client))
        (fun exchange => Q (target, exchange)) E) :
    Meets P (performHop visited client hop) Q E := by
  unfold performHop
  refine checkAborted_bind hP hE ?_
  refine ofExcept_bind hE fun target htarget => ?_
  refine check_bind hE fun hmode => ?_
  refine Meets.bind (preflights target htarget) fun _ => ?_
  exact Meets.bind (exchanges target htarget hmode) fun _ _ h => h

/-- A run goes from hop to hop, as long as redirects are followed. -/
theorem executeFrom_ends {H : Hop U → FetchWorld U → Prop}
    {A : Hop U → Origin → HttpExchange → FetchWorld U → Prop}
    {Q : WebResponse → FetchWorld U → Prop}
    (performs : ∀ hop, Meets (H hop) (performHop visited client hop)
      (fun answer => A hop answer.1 answer.2) E)
    (hA : ∀ {hop target exchange} world, A hop target exchange world → E world)
    (finishes : ∀ {hop target exchange} response, finishResponse exchange hop.request.mode
      (target != client) hop.redirected hop.tainted = .ok response →
      ∀ world, A hop target exchange world → Q response world)
    (stops : ∀ {hop target exchange}, hop.request.redirect = .manual →
      ∀ world, A hop target exchange world → Q (emptyResponse .opaqueRedirect false) world)
    (follows : ∀ {hop target exchange location} next, hop.request.redirect = .follow →
      nextHop hop target exchange.status location = .ok next →
      ∀ world, A hop target exchange world → H next world) (left : Nat) (hop : Hop U) :
    Meets (H hop) (executeFrom visited client left hop) Q E := by
  induction left generalizing hop with
  | zero =>
    unfold executeFrom
    refine Meets.bind (performs hop) fun ⟨target, exchange⟩ => ?_
    dsimp only
    cases redirectLocation exchange with
    | none => exact ofExcept_ends hA finishes
    | some location =>
      cases hredirect : hop.request.redirect with
      | manual => exact stops hredirect
      | _ => exact hA
  | succ left ih =>
    unfold executeFrom
    refine Meets.bind (performs hop) fun ⟨target, exchange⟩ => ?_
    dsimp only
    cases redirectLocation exchange with
    | none => exact ofExcept_ends hA finishes
    | some location =>
      cases hredirect : hop.request.redirect with
      | error => exact hA
      | manual => exact stops hredirect
      | follow =>
        refine ofExcept_bind hA fun next hnext => ?_
        exact (ih next).mono (follows next hredirect hnext) (fun _ _ => id) fun _ => id

theorem execute_ends {request : WebRequest U} {Q : WebResponse → FetchWorld U → Prop}
    (hP : Steady P) (hE : ∀ world, P world → E world)
    (h : Meets P (executeFrom visited client maxFetchRedirects
      { current := request.url, request, redirected := false, tainted := false }) Q E) :
    Meets P (FetchRuntime.execute visited client request) Q E := by
  unfold FetchRuntime.execute
  refine checkAborted_bind hP hE ?_
  refine ofExcept_bind hE fun _ _ => ?_
  refine check_bind hE fun _ => ?_
  exact ofExcept_bind hE fun _ _ => h

end

/-! ## The filter -/

/-- The response of a hop lists a header for the page. -/
def Listed (headers : Headers) (name : Text) : Prop :=
  name ∈ commaTokens (headers.get "access-control-expose-headers") ∨
    ['*'] ∈ commaTokens (headers.get "access-control-expose-headers")

theorem filterResponseHeaders_spec {headers filtered : Headers} {responseType : ResponseType}
    (hnormal : headers.Normal) (h : filterResponseHeaders headers responseType = .ok filtered)
    {name : Text} (hname : filtered.entries.contains name = true) :
    name ≠ "set-cookie".toList ∧ name ≠ "set-cookie2".toList ∧
      (responseType = .basic ∨ isCorsSafelisted name = true ∨ Listed headers name) := by
  obtain hnew | ⟨pair, hpair, hkey⟩ := Headers.appendAll_contains h hname
  · rw [Headers.contains_new] at hnew
    cases hnew
  · obtain ⟨hmem, hshown⟩ := mem_filter.mp hpair
    obtain rfl : pair.1 = name :=
      Except.ok.inj ((hnormal pair.1 (Headers.mem_pairs hmem)).symm.trans hkey)
    simp only [Bool.and_eq_true, Bool.not_eq_true', any_cons, any_nil, Bool.or_false,
      Bool.or_eq_false_iff, beq_eq_false_iff_ne, Bool.or_eq_true, beq_iff_eq,
      contains_iff_mem] at hshown
    obtain ⟨⟨hcookie, hcookie2⟩, htype⟩ := hshown
    refine ⟨Ne.symm hcookie, Ne.symm hcookie2, ?_⟩
    obtain ((hbasic | hsafe) | hlisted) | hall := htype
    · exact .inl hbasic
    · exact .inr (.inl hsafe)
    · exact .inr (.inr (.inl hlisted))
    · exact .inr (.inr (.inr hall))

/-! ## Hops -/

section

variable {U : Type} [UrlLibrary U]

/-- The exchanges of a run that are no preflights. -/
def hops (exchanges : List (SentHttp U)) : List (SentHttp U) :=
  exchanges.filter fun sent => !sent.options.browserGeneratedHeaders

omit [UrlLibrary U] in
theorem hops_append (exchanges : List (SentHttp U)) (sent : SentHttp U) :
    hops (exchanges ++ [sent]) =
      if sent.options.browserGeneratedHeaders then hops exchanges else hops exchanges ++ [sent] := by
  unfold hops
  rw [filter_append]
  cases hsent : sent.options.browserGeneratedHeaders <;> simp [hsent]

/-- The hop has gone to another origin than the one of the page. -/
def CrossOrigin (client : Origin) (hop : SentHttp U) : Prop :=
  Origin.fromUrl hop.url ≠ .ok client

/-- The response of a hop allows the origin of the page, with credentials if they are included. -/
structure CorsPassed (client : Origin) (credentials : CredentialsMode) (exchange : HttpExchange) :
    Prop where
  origin : exchange.headers.get "access-control-allow-origin" = some client.serialize ∨
    exchange.headers.get "access-control-allow-origin" = some ['*'] ∧ credentials ≠ .include
  credentials : credentials = .include →
    ∃ value, exchange.headers.get "access-control-allow-credentials" = some value ∧
      lowercase value = "true".toList

/-- A response shows its status, a header or its body. -/
def Exposes (response : WebResponse) : Prop :=
  response.status ≠ 0 ∨ (∃ name, response.headers.entries.contains name = true) ∨ response.body ≠ []

/-- What may be shown of the response to a request after its hops. -/
structure Permitted (client : Origin) (request : WebRequest U) (chain : List (SentHttp U))
    (response : WebResponse) : Prop where
  /-- Something is shown only after cross-origin hops in cors mode that passed the check. -/
  cors : Exposes response → ∀ hop ∈ chain, CrossOrigin client hop →
    request.mode = .cors ∧ CorsPassed client request.credentials hop.exchange
  basic : response.responseType = .basic → ∀ hop ∈ chain, ¬CrossOrigin client hop
  setCookie : ∀ name, response.headers.entries.contains name = true →
    name ≠ "set-cookie".toList ∧ name ≠ "set-cookie2".toList
  listed : response.responseType = .cors → ∀ name, response.headers.entries.contains name = true →
    isCorsSafelisted name = true ∨
      ∃ last, chain.getLast? = some last ∧ Listed last.exchange.headers name
  /-- A no-cors request that has left the origin of the page shows nothing. -/
  noCors : request.mode = .noCors → (∃ hop ∈ chain, CrossOrigin client hop) →
    (response.responseType = .opaqueFiltered ∨ response.responseType = .opaqueRedirect) ∧
      ¬Exposes response

/-- The chain has left the origin of the page and its last hop is back on it. -/
def ComesBack (client : Origin) (chain : List (SentHttp U)) : Prop :=
  (∃ hop ∈ chain, CrossOrigin client hop) ∧
    ∃ last, chain.getLast? = some last ∧ ¬CrossOrigin client last

theorem validateCorsResponse_spec {exchange : HttpExchange} {client : Origin}
    {credentials : CredentialsMode}
    (h : validateCorsResponse exchange.headers client (credentials == .include) = .ok ()) :
    CorsPassed client credentials exchange := by
  unfold validateCorsResponse at h
  split at h
  · cases h
  · next allowed hallowed =>
    split at h
    · cases h
    · next hwildcard =>
      split at h
      · cases h
      · next horigin =>
        split at h
        · cases h
        · next hcredentials =>
          constructor
          · rw [hallowed]
            by_cases hstar : allowed = ['*']
            · subst hstar
              exact .inr ⟨rfl, fun hinclude => hwildcard (by simp [hinclude])⟩
            · exact .inl (congrArg some (by simpa [hstar] using horigin))
          · rintro rfl
            simp only [beq_self_eq_true, Bool.true_and, Bool.not_eq_true', Bool.not_eq_false] at hcredentials
            obtain ⟨value, hvalue, htrue⟩ := (Option.any_eq_true _ _).mp hcredentials
            exact ⟨value, hvalue, eq_of_beq htrue⟩

/-! ## The chain -/

/-- What the hops of a chain satisfy: one that left the origin of the page passed the check. -/
def Checked (client : Origin) (request : WebRequest U) (chain : List (SentHttp U)) : Prop :=
  ∀ hop ∈ chain, CrossOrigin client hop →
    request.mode = .noCors ∨
      request.mode = .cors ∧ CorsPassed client request.credentials hop.exchange

/-- The request of a hop differs from the first one in method, headers and body only. -/
structure Continues (request current : WebRequest U) : Prop where
  mode : current.mode = request.mode
  credentials : current.credentials = request.credentials
  redirect : current.redirect = request.redirect

/-- Before a hop: the chain is checked, an untainted chain stays on one origin, and only a
request that follows redirects has hops behind it. -/
structure Ready (client : Origin) (request : WebRequest U) (hop : Hop U)
    (chain : List (SentHttp U)) : Prop where
  continues : Continues request hop.request
  checked : Checked client request chain
  untainted : hop.tainted = false →
    ∀ sent ∈ chain, Origin.fromUrl sent.url = Origin.fromUrl hop.current
  following : request.redirect = .follow ∨ chain = []

/-- After the exchange of a hop, which is the last of the chain. -/
structure Answered (client : Origin) (request : WebRequest U) (hop : Hop U)
    (exchange : HttpExchange) (chain : List (SentHttp U)) : Prop where
  continues : Continues request hop.request
  checked : Checked client request chain
  untainted : hop.tainted = false →
    ∀ sent ∈ chain, Origin.fromUrl sent.url = Origin.fromUrl hop.current
  following : request.redirect = .follow ∨ ∃ sent, chain = [sent]
  normal : exchange.headers.Normal
  last : ∃ sent, chain.getLast? = some sent ∧ sent.url = hop.current ∧ sent.exchange = exchange

/-- The response shows what it may, but for a no-cors chain that comes back. -/
def Settled (client : Origin) (request : WebRequest U) (response : WebResponse)
    (chain : List (SentHttp U)) : Prop :=
  Permitted client request chain response ↔
    ¬(request.mode = .noCors ∧ ComesBack client chain)

variable {client : Origin} {request : WebRequest U} {hop : Hop U} {exchange : HttpExchange}
  {chain : List (SentHttp U)}

theorem not_exposes_empty (responseType : ResponseType) (redirected : Bool) :
    ¬Exposes (emptyResponse responseType redirected) := by
  rintro (hstatus | ⟨name, hname⟩ | hbody)
  · exact hstatus rfl
  · rw [show (emptyResponse responseType redirected).headers = Headers.new from rfl,
      Headers.contains_new] at hname
    cases hname
  · exact hbody rfl

theorem permitted_empty {responseType : ResponseType} (redirected : Bool)
    (hfiltered : responseType = .opaqueFiltered ∨ responseType = .opaqueRedirect) :
    Permitted client request chain (emptyResponse responseType redirected) where
  cors hexposes := absurd hexposes (not_exposes_empty _ _)
  basic hbasic := by
    obtain rfl | rfl := hfiltered <;> cases hbasic
  setCookie name hname := absurd (.inr (.inl ⟨name, hname⟩)) (not_exposes_empty responseType redirected)
  listed hcors := by
    obtain rfl | rfl := hfiltered <;> cases hcors
  noCors _ _ := ⟨hfiltered, not_exposes_empty _ _⟩

variable {target : Origin}

theorem settled_finish (h : Answered client request hop exchange chain)
    (htarget : Origin.fromUrl hop.current = .ok target) {response : WebResponse}
    (hresponse : finishResponse exchange hop.request.mode (target != client) hop.redirected
      hop.tainted = .ok response) :
    Settled client request response chain := by
  obtain ⟨last, hlast, hurl, hexchange⟩ := h.last
  have hcross : CrossOrigin client last ↔ (target != client) = true := by
    rw [CrossOrigin, hurl, htarget]
    simp
  rw [h.continues.mode] at hresponse
  unfold finishResponse at hresponse
  split at hresponse
  · -- The last hop of a no-cors request is on another origin.
    next haway =>
    obtain rfl := Except.ok.inj hresponse
    rw [Bool.and_eq_true] at haway
    refine iff_of_true (permitted_empty _ (.inl rfl)) ?_
    rintro ⟨-, -, last', hlast', hhome⟩
    cases hlast.symm.trans hlast'
    exact hhome (hcross.mpr haway.2)
  · next haway =>
    have haway : ¬(request.mode = .noCors ∧ CrossOrigin client last) := by
      rw [hcross]
      simpa using haway
    cases hfilter : filterResponseHeaders exchange.headers
        (responseTypeOf (target != client) hop.tainted) with
    | error error =>
      rw [hfilter] at hresponse
      cases hresponse
    | ok headers =>
      rw [hfilter] at hresponse
      obtain rfl := Except.ok.inj hresponse
      have hshown name hname := @filterResponseHeaders_spec _ _ _ h.normal hfilter name hname
      have hnotOpaque : ¬(responseTypeOf (target != client) hop.tainted = .opaqueFiltered ∨
          responseTypeOf (target != client) hop.tainted = .opaqueRedirect) := by
        unfold responseTypeOf
        split <;> simp
      constructor
      · -- A no-cors request that comes back gets a response of type cors.
        rintro hpermitted ⟨hmode, hleft, -⟩
        exact hnotOpaque (hpermitted.noCors hmode hleft).1
      · intro hstays
        have hhome : request.mode = .noCors → ∀ sent ∈ chain, ¬CrossOrigin client sent :=
          fun hmode sent hsent hleft => hstays ⟨hmode, ⟨sent, hsent, hleft⟩, last, hlast,
            fun hlastAway => haway ⟨hmode, hlastAway⟩⟩
        refine ⟨?_, ?_, ?_, ?_, ?_⟩
        · intro _ sent hsent hleft
          exact (h.checked sent hsent hleft).resolve_left fun hmode => hhome hmode sent hsent hleft
        · intro hbasic sent hsent
          dsimp only at hbasic
          unfold responseTypeOf at hbasic
          split at hbasic
          · cases hbasic
          · next hsame =>
            simp only [Bool.or_eq_true, not_or, Bool.not_eq_true] at hsame
            rw [CrossOrigin, h.untainted hsame.2 sent hsent, ← hurl]
            exact fun hleft => absurd (hcross.mp hleft) (by simp [hsame.1])
        · exact fun name hname => ⟨(hshown name hname).1, (hshown name hname).2.1⟩
        · intro hcors name hname
          obtain hbasic | hsafe | hlisted := (hshown name hname).2.2
          · cases hcors.symm.trans hbasic
          · exact .inl hsafe
          · exact .inr ⟨last, hlast, hexchange ▸ hlisted⟩
        · exact fun hmode ⟨sent, hsent, hleft⟩ => absurd hleft (hhome hmode sent hsent)

theorem settled_manual (h : Answered client request hop exchange chain)
    (hmanual : hop.request.redirect = .manual) :
    Settled client request (emptyResponse .opaqueRedirect false) chain := by
  have hredirect : request.redirect ≠ .follow := by
    rw [← h.continues.redirect, hmanual]
    exact nofun
  obtain ⟨sent, rfl⟩ := h.following.resolve_left hredirect
  refine iff_of_true (permitted_empty _ (.inr rfl)) ?_
  rintro ⟨-, ⟨hop, hhop, hleft⟩, last, hlast, hhome⟩
  obtain rfl := mem_singleton.mp hhop
  cases hlast
  exact hhome hleft

theorem nextHop_ready (h : Answered client request hop exchange chain)
    (htarget : Origin.fromUrl hop.current = .ok target) (hfollow : hop.request.redirect = .follow)
    {location : Text} {next : Hop U}
    (hnext : nextHop hop target exchange.status location = .ok next) :
    Ready client request next chain := by
  unfold nextHop at hnext
  split at hnext
  · cases hnext
  · next url hjoin =>
    cases horigin : Origin.fromUrl url with
    | error error =>
      rw [horigin] at hnext
      cases hnext
    | ok origin =>
      rw [horigin] at hnext
      obtain rfl := Except.ok.inj hnext
      refine ⟨?_, h.checked, ?_, .inl (h.continues.redirect.symm.trans hfollow)⟩
      · -- Neither the dropped headers nor the change of method touch the modes.
        obtain ⟨hmode, hcredentials, hredirect⟩ := h.continues
        constructor
        all_goals
          dsimp only
          unfold redirectMethod
          repeat' split
          all_goals assumption
      · intro htainted sent hsent
        simp only [Bool.or_eq_false_iff, bne_eq_false_iff_eq] at htainted
        rw [h.untainted htainted.1 sent hsent, htarget, horigin, htainted.2]

variable [PublicSuffixList] [DateLibrary] [CaseTables]
  {visited : CookieStore → List (Text × Cookie)}

omit [DateLibrary] [CaseTables] in
theorem preflight_ends {R : List (SentHttp U) → Prop} (client : Origin) (url : U)
    (request : WebRequest U) :
    Meets (fun world => R (hops world.exchanges)) (preflight client url request)
      (fun _ world => R (hops world.exchanges)) fun _ => True := by
  have htrue (world : FetchWorld U) (_ : R (hops world.exchanges)) : True := trivial
  have hsteady : Steady fun world : FetchWorld U => R (hops world.exchanges) := fun _ _ _ _ h => h
  unfold preflight
  refine ofExcept_bind htrue fun headers _ => ?_
  refine Meets.bind (Q := fun _ (world : FetchWorld U) => R (hops world.exchanges))
    (fun _ h => h) fun cookie => ?_
  refine Meets.bind (sendHttp_ends (Q := fun _ world => R (hops world.exchanges)) htrue
    (fun _ h => h) hsteady htrue fun exchange world _ h => ?_) fun exchange => ?_
  · show R (hops (world.exchanges ++ [_]))
    rw [hops_append]
    exact h
  · refine check_bind htrue fun _ => ?_
    refine ofExcept_bind htrue fun _ _ => ?_
    exact ofExcept_ends htrue fun _ _ _ h => h

theorem exchangeHop_answers (htarget : Origin.fromUrl hop.current = .ok target)
    (hmode : (target != client && hop.request.mode == .sameOrigin) = false) :
    Meets (fun world => Ready client request hop (hops world.exchanges))
      (exchangeHop visited client hop (target != client))
      (fun exchange world => Answered client request hop exchange (hops world.exchanges))
      fun _ => True := by
  let R (exchange : HttpExchange) (world : FetchWorld U) : Prop :=
    exchange.headers.Normal ∧ ∃ before cookie, Ready client request hop (hops before) ∧
      world.exchanges = before ++ [{ method := hop.request.method, url := hop.current, exchange
                                     options := hopOptions client hop (target != client) cookie }]
  refine exchangeHop_ends (R := R) (C := fun _ world => Ready client request hop (hops world.exchanges))
    (S := fun _ world => Ready client request hop (hops world.exchanges))
    (fun _ h => h) (fun _ _ _ => trivial) (fun _ _ h => h) (fun _ _ _ _ _ h => h)
    (fun _ _ _ => trivial) (fun cookie _ world hnormal h => ⟨hnormal, world.exchanges, cookie, h, rfl⟩)
    (fun _ _ _ _ _ h => h) (fun _ _ _ => trivial) fun exchange hpassed => ?_
  have hstored : Meets (R exchange)
      (storeAllowedCookies visited (credentialsAllowed hop.request (target != client)) exchange)
      (fun _ => R exchange) fun _ => True :=
    Meets.ite (fun _ _ h => h) fun _ _ h => h
  refine hstored.mono (fun _ => id) ?_ fun _ => id
  rintro - world ⟨hnormal, before, cookie, hready, hworld⟩
  rw [hworld, hops_append]
  change Answered client request hop exchange (hops before ++ [_])
  refine ⟨hready.continues, ?_, ?_, ?_, hnormal, ⟨_, getLast?_concat, rfl, rfl⟩⟩
  · intro sent hsent hleft
    obtain hsent | hsent := mem_append.mp hsent
    · exact hready.checked sent hsent hleft
    · obtain rfl := mem_singleton.mp hsent
      have haway : (target != client) = true := by
        rw [CrossOrigin, htarget] at hleft
        simpa using hleft
      rw [← hready.continues.mode, ← hready.continues.credentials]
      rw [checkCors, haway, Bool.true_and] at hpassed
      rw [haway, Bool.true_and] at hmode
      cases hcurrent : hop.request.mode with
      | noCors => exact .inl rfl
      | cors =>
        rw [hcurrent] at hpassed
        exact .inr ⟨rfl, validateCorsResponse_spec hpassed⟩
      | sameOrigin =>
        rw [hcurrent] at hmode
        cases hmode
  · intro htainted sent hsent
    obtain hsent | hsent := mem_append.mp hsent
    · exact hready.untainted htainted sent hsent
    · obtain rfl := mem_singleton.mp hsent
      rfl
  · exact hready.following.imp id fun hnil => ⟨_, by rw [hnil]; rfl⟩

theorem execute_settles :
    Meets (fun world => world.exchanges = []) (FetchRuntime.execute visited client request)
      (fun response world => Settled client request response (hops world.exchanges))
      fun _ => True := by
  refine execute_ends (fun _ _ _ _ h => h) (fun _ _ => trivial)
    (Meets.mono (executeFrom_ends (E := fun _ => True)
      (H := fun hop world => Ready client request hop (hops world.exchanges))
      (A := fun hop target exchange world => Answered client request hop exchange
        (hops world.exchanges) ∧ Origin.fromUrl hop.current = .ok target)
      (Q := fun response world => Settled client request response (hops world.exchanges))
      (fun hop => performHop_ends (fun _ _ _ _ h => h) (fun _ _ => trivial)
        (fun _ _ => Meets.ite (fun _ => preflight_ends client hop.current hop.request)
          fun _ _ h => h)
        fun target htarget hmode => (exchangeHop_answers htarget hmode).mono (fun _ => id)
          (fun _ _ h => ⟨h, htarget⟩) fun _ => id)
      (fun _ _ => trivial) (fun _ hresponse _ h => settled_finish h.1 h.2 hresponse)
      (fun hmanual _ h => settled_manual h.1 hmanual)
      (fun _ hfollow hnext _ h => nextHop_ready h.1 h.2 hfollow hnext) _ _)
      (fun world hworld => ?_) (fun _ _ => id) fun _ => id)
  rw [hworld]
  exact ⟨⟨rfl, rfl, rfl⟩, nofun, fun _ => nofun, .inr rfl⟩

/-- A run returns what the page may see, if it returns a response. -/
def ReturnsPermitted (client : Origin) (request : WebRequest U)
    (run : EStateM.Result FetchError (FetchWorld U) WebResponse) : Prop :=
  match run with
  | .ok response world => Permitted client request (hops world.exchanges) response
  | .error _ _ => True

/-- A no-cors run that returns a response has not left the origin of the page and come back. -/
def StaysOut (client : Origin) (request : WebRequest U)
    (run : EStateM.Result FetchError (FetchWorld U) WebResponse) : Prop :=
  match run with
  | .ok _ world => ¬(request.mode = .noCors ∧ ComesBack client (hops world.exchanges))
  | .error _ _ => True

/-- Over all networks and redirects: a response shows no more than its origin permits, unless a
no-cors request has left the origin of the page and come back to it. -/
theorem execute_permitted (visited : CookieStore → List (Text × Cookie)) (client : Origin)
    (request : WebRequest U) (answers : List HttpAnswer) (aborts : List Bool) (now : Int)
    (cookies : CookieStore) :
    ReturnsPermitted client request (FetchRuntime.execute visited client request
        { answers, aborts, now, cookies, exchanges := [] }) ↔
      StaysOut client request (FetchRuntime.execute visited client request
        { answers, aborts, now, cookies, exchanges := [] }) := by
  have hstart : ({ answers, aborts, now, cookies, exchanges := [] } : FetchWorld U).exchanges = [] :=
    rfl
  have hsettled := @execute_settles U _ client request _ _ _ visited _ hstart
  revert hsettled
  cases FetchRuntime.execute visited client request
    { answers, aborts, now, cookies, exchanges := [] } with
  | ok response world => exact id
  | error error world => exact fun _ => Iff.rfl

end

/-! ## A chain that comes back -/

section

/-- A redirect to `location`, or a page where there is none. -/
def plainAnswer (url : String) (location : Option String) : HttpAnswer where
  now := 0
  reply := .ok {
    url := url.toList
    status := if location.isSome then 302 else 200
    statusText := []
    headers := (location.map fun target => ("location".toList, target.toList)).toList
    setCookie := []
    body := [42] }

/-- `https://a.test/` leads to `https://b.test/` and back. -/
def roundTrip : List HttpAnswer :=
  [plainAnswer "https://a.test/" (some "https://b.test/"),
    plainAnswer "https://b.test/" (some "https://a.test/secret"),
    plainAnswer "https://a.test/secret" none]

def pageOrigin : Origin := { scheme := "https".toList, host := "a.test".toList, port := 443 }

def noCorsRequest : WebRequest PlainUrl where
  url := { scheme := "https".toList, host := "a.test".toList, path := "/".toList }
  method := "GET".toList
  headers := Headers.new
  body := []
  mode := .noCors
  credentials := .sameOrigin
  redirect := .follow

/-- What the run of a no-cors request over the round trip returns. -/
def roundTripRun : EStateM.Result FetchError (FetchWorld PlainUrl) WebResponse :=
  @FetchRuntime.execute PlainUrl _ shortList noDates asciiTables (fun _ => []) pageOrigin noCorsRequest
    { answers := roundTrip, aborts := [], now := 0, cookies := ∅, exchanges := [] }

theorem execute_roundTrip : ¬ReturnsPermitted pageOrigin noCorsRequest roundTripRun := by
  have hshape : (match roundTripRun with
      | .ok response world => response.responseType == .cors &&
          (hops world.exchanges).any fun hop =>
            (Origin.fromUrl hop.url).toOption != some pageOrigin
      | .error _ _ => false) = true := by decide +kernel
  intro hpermitted
  revert hshape hpermitted
  cases roundTripRun with
  | error error world => exact fun hshape => nomatch hshape
  | ok response world =>
    intro hshape hpermitted
    rw [Bool.and_eq_true] at hshape
    obtain ⟨hcors, haway⟩ := hshape
    obtain ⟨hop, hhop, hhost⟩ := any_eq_true.mp haway
    have hleft : CrossOrigin pageOrigin hop := by
      intro hsame
      rw [hsame] at hhost
      exact absurd hhost (by decide)
    have hfiltered := (hpermitted.noCors rfl ⟨hop, hhop, hleft⟩).1
    rw [eq_of_beq hcors] at hfiltered
    obtain hfiltered | hfiltered := hfiltered <;> cases hfiltered

end

end GhitaBrowser.Net
