import GhitaBrowser.Net.Traffic

/-!
# Credentials on the wire

Cookies leave and are stored on the hops that the credentials mode allows, a request that has
changed its origin has lost its authorization, and a forbidden header has the browser's value.
-/

namespace GhitaBrowser.Net

open UrlLibrary Html Storage FetchRuntime List

/-! ## Headers that a page can make -/

namespace Headers

/-- What the methods of `Headers` can make, whose fields are private. -/
inductive Made : Headers → Prop where
  | new : Made new
  | append {headers next : Headers} {name value : Text} :
    Made headers → headers.append name value = .ok next → Made next
  | set {headers next : Headers} {name value : Text} :
    Made headers → headers.set name value = .ok next → Made next
  | delete {headers : Headers} (name : String) : Made headers → Made (headers.delete name)

variable {headers : Headers}

/-- What `set` leaves: the new value alone under its name. -/
theorem set_spec {next : Headers} {name value : Text} (h : headers.set name value = .ok next) :
    ∃ normalized, normalizeName name = .ok normalized ∧
      next.entries = headers.entries.insert normalized [trimText value] := by
  unfold set at h
  cases hname : normalizeName name with
  | error error => rw [hname] at h; cases h
  | ok normalized =>
    cases hvalue : normalizeValue value with
    | error error => rw [hname, hvalue] at h; cases h
    | ok trimmed =>
      rw [hname, hvalue] at h
      have htrimmed : trimmed = trimText value := by
        unfold normalizeValue at hvalue
        split at hvalue
        · cases hvalue
        split at hvalue
        · cases hvalue
        · exact (Except.ok.inj hvalue).symm
      simp only [bind, Except.bind] at h
      split at h
      · cases h
      split at h
      · cases h
      · obtain rfl := Except.ok.inj h
        exact ⟨normalized, rfl, by rw [htrimmed]⟩

theorem delete_getElem? {name : String} {key : Text} {values : List Text}
    (h : (headers.delete name).entries[key]? = some values) : headers.entries[key]? = some values := by
  unfold delete at h
  dsimp only at h
  split at h
  · exact h
  · rw [Std.ExtTreeMap.getElem?_erase] at h
    split at h
    · cases h
    · exact h

theorem delete_contains {name : String} {key : Text}
    (h : headers.entries.contains key = false) : (headers.delete name).entries.contains key = false := by
  rw [Std.ExtTreeMap.contains_eq_isSome_getElem?, Option.isSome_eq_false_iff, Option.isNone_iff_eq_none]
    at h ⊢
  cases hafter : (headers.delete name).entries[key]? with
  | none => rfl
  | some values => rw [delete_getElem? hafter] at h; cases h

theorem contains_delete (headers : Headers) (name : String) :
    (headers.delete name).entries.contains (name.toList.map Char.toLower) = false := by
  unfold delete
  dsimp only
  split
  · next hnone =>
    rw [Std.ExtTreeMap.contains_eq_isSome_getElem?, hnone]
    rfl
  · simp

theorem Made.normal (h : headers.Made) : headers.Normal := by
  induction h with
  | new =>
    intro name hname
    rw [contains_new] at hname
    cases hname
  | append _ happend ih =>
    intro key hkey
    obtain hkey | hname := append_contains happend hkey
    · exact ih key hkey
    · exact normalizeName_spec hname
  | set _ hset ih =>
    intro key hkey
    obtain ⟨normalized, hname, hentries⟩ := set_spec hset
    rw [hentries, Std.ExtTreeMap.contains_insert, Bool.or_eq_true] at hkey
    obtain heq | hkey := hkey
    · rw [← Std.LawfulEqCmp.eq_of_compare (eq_of_beq heq)]
      exact normalizeName_spec hname
    · exact ih key hkey
  | delete name _ ih =>
    intro key hkey
    refine ih key ?_
    rw [Std.ExtTreeMap.contains_eq_isSome_getElem?] at hkey ⊢
    obtain ⟨values, hvalues⟩ := Option.isSome_iff_exists.1 hkey
    rw [delete_getElem? hvalues]
    rfl

variable {header : Text × Text}

theorem Normal.lowercase (h : headers.Normal)
    (hmem : header ∈ headers.pairs) : lowercase header.1 = header.1 := by
  have hname := h header.1 (mem_pairs hmem)
  unfold normalizeName at hname
  dsimp only at hname
  split at hname
  · cases hname
  · have hlower : Storage.lowercase (trimText header.1) = header.1 := Except.ok.inj hname
    rw [← hlower, lowercase_lowercase]

theorem set_pairs {next : Headers} {name value : Text}
    (h : headers.set name value = .ok next) (hmem : header ∈ next.pairs) :
    header ∈ headers.pairs ∨ (normalizeName name = .ok header.1 ∧ header.2 = trimText value) := by
  obtain ⟨normalized, hname, hentries⟩ := set_spec h
  obtain ⟨⟨key, values⟩, hentry, rfl⟩ := mem_map.1 hmem
  rw [Std.ExtTreeMap.mem_toList_iff_getElem?_eq_some, hentries, Std.ExtTreeMap.getElem?_insert] at hentry
  split at hentry
  · next heq =>
    obtain rfl := Option.some.inj hentry
    rw [Std.LawfulEqCmp.eq_of_compare heq] at hname
    exact .inr ⟨hname, by simp [joinValues, intercalate]⟩
  · refine .inl (mem_map.2 ⟨(key, values), ?_, rfl⟩)
    rwa [Std.ExtTreeMap.mem_toList_iff_getElem?_eq_some]

end Headers

section

variable {U : Type}

def received (traffic : List (Traffic U)) : List (SentHttp U) :=
  traffic.filterMap fun
    | .receives sent => some sent
    | .sends _ => none

/-- The messages of hops, without the preflights. -/
def hopsSent (traffic : List (Traffic U)) : List (Outbound U) :=
  traffic.filterMap fun
    | .sends message => if message.browserGenerated then none else some message
    | .receives _ => none

theorem received_append (traffic more : List (Traffic U)) :
    received (traffic ++ more) = received traffic ++ received more := filterMap_append

theorem hopsSent_append (traffic more : List (Traffic U)) :
    hopsSent (traffic ++ more) = hopsSent traffic ++ hopsSent more := filterMap_append

/-! ## Requests along a chain -/

/-- A request later in the chain: it has lost headers, and its method may have become GET. -/
structure Descends (request current : WebRequest U) : Prop where
  continues : Continues request current
  method : current.method = request.method ∨ current.method = "GET".toList
  headers : ∀ (name : Text) (values : List Text), current.headers.entries[name]? = some values →
    request.headers.entries[name]? = some values

variable {request : WebRequest U}

theorem Descends.normal {current : WebRequest U} (h : Descends request current)
    (hmade : request.headers.Made) : current.headers.Normal := by
  intro key hkey
  refine hmade.normal key ?_
  rw [Std.ExtTreeMap.contains_eq_isSome_getElem?] at hkey ⊢
  obtain ⟨values, hvalues⟩ := Option.isSome_iff_exists.1 hkey
  rw [h.headers key values hvalues]
  rfl

theorem redirectMethod_headers (current : WebRequest U) (status : Nat) :
    (redirectMethod current status).headers = current.headers ∨
      (redirectMethod current status).headers =
        (current.headers.delete "content-type").delete "content-length" := by
  unfold redirectMethod
  split
  · exact .inr rfl
  · exact .inl rfl

theorem redirectMethod_method (current : WebRequest U) (status : Nat) :
    (redirectMethod current status).method = current.method ∨
      (redirectMethod current status).method = "GET".toList := by
  unfold redirectMethod
  split
  · exact .inr rfl
  · exact .inl rfl

theorem redirectMethod_descends {current : WebRequest U} (h : Descends request current)
    (status : Nat) : Descends request (redirectMethod current status) where
  continues :=
    have hcontinues := redirectMethod_continues current status
    ⟨hcontinues.mode.trans h.continues.mode, hcontinues.credentials.trans h.continues.credentials,
      hcontinues.redirect.trans h.continues.redirect⟩
  method := by
    obtain hmethod | hmethod := redirectMethod_method current status <;> rw [hmethod]
    · exact h.method
    · exact .inr rfl
  headers name values hvalues := by
    obtain hheaders | hheaders := redirectMethod_headers current status <;> rw [hheaders] at hvalues
    · exact h.headers name values hvalues
    · exact h.headers name values (Headers.delete_getElem? (Headers.delete_getElem? hvalues))

theorem redirected_descends {hop : Hop U} (h : Descends request hop.request) (moved : Bool)
    (status : Nat) : Descends request (redirected hop moved status) := by
  refine redirectMethod_descends ?_ status
  cases moved with
  | false => exact h
  | true =>
    exact ⟨⟨h.continues.mode, h.continues.credentials, h.continues.redirect⟩, h.method,
      fun name values hvalues => h.headers name values
        (Headers.delete_getElem? (Headers.delete_getElem? hvalues))⟩

theorem redirected_unauthorized {hop : Hop U} {moved : Bool}
    (h : moved = true ∨ hop.request.headers.entries.contains "authorization".toList = false)
    (status : Nat) :
    (redirected hop moved status).headers.entries.contains "authorization".toList = false := by
  have hfirst : (if moved then { hop.request with headers := dropAuthorization hop.request.headers }
      else hop.request).headers.entries.contains "authorization".toList = false := by
    cases moved with
    | false => exact h.resolve_left (by decide)
    | true => exact Headers.delete_contains (Headers.contains_delete hop.request.headers "authorization")
  obtain hheaders | hheaders := redirectMethod_headers
    (if moved then { hop.request with headers := dropAuthorization hop.request.headers }
      else hop.request) status
  · rw [redirected, hheaders]
    exact hfirst
  · rw [redirected, hheaders]
    exact Headers.delete_contains (Headers.delete_contains hfirst)

end

/-! ## Cookies -/

section

variable {U : Type} [UrlLibrary U] [PublicSuffixList] [DateLibrary] [CaseTables]
  (visited : CookieStore → List (Text × Cookie))

/-- The `Cookie` header that a store gives for a URL. -/
def cookieText (cookies : CookieStore) (now : Int) (url : U) : Text :=
  "; ".toList.intercalate
    (((getCookies cookies (hostOf (U := U) (asStr url)) now).filter (·.matchesUrl U (asStr url))).map
      Cookie.toHeaderValue)

def storeCookies (cookies : CookieStore) (now : Int) (exchange : HttpExchange) : CookieStore :=
  exchange.setCookie.foldl (fun cookies value =>
    let cookie := fromSetCookieHeader value (hostOf (U := U) exchange.url) now
    if !cookie.name.isEmpty && cookie.matchesUrl U exchange.url then addCookie visited cookies cookie
    else cookies) cookies

/-- The hops whose cookies the credentials mode lets in. -/
def MayStore (client : Origin) (credentials : CredentialsMode) (sent : SentHttp U) : Prop :=
  sent.options.browserGeneratedHeaders = false ∧
    (credentials = .include ∨ credentials = .sameOrigin ∧ Origin.fromUrl sent.url = .ok client)

/-- The store is what the cookies of hops that may store them have made of the first one, each
at the time when its answer was there. -/
def StoredFrom (client : Origin) (credentials : CredentialsMode) (start : CookieStore)
    (traffic : List (Traffic U)) (cookies : CookieStore) : Prop :=
  ∃ kept : List (SentHttp U × Int), (kept.map Prod.fst).Sublist (received traffic) ∧
    (∀ moment ∈ kept, MayStore client credentials moment.1) ∧
    cookies = kept.foldl (fun cookies moment =>
      storeCookies (U := U) visited cookies moment.2 moment.1.exchange) start

/-! ## Messages -/

/-- The values that the browser gives to forbidden headers: the cookies of its store, the origin
of the page, and in a preflight the method and the header names that it asks for. -/
inductive FromBrowser (client : Origin) (request : WebRequest U) (start : CookieStore)
    (before : List (Traffic U)) (message : Outbound U) : Text × Text → Prop where
  | cookie (cookies : CookieStore) (now : Int) :
    StoredFrom visited client request.credentials start before cookies →
    FromBrowser client request start before message ("cookie".toList, cookieText cookies now message.url)
  | origin : FromBrowser client request start before message ("origin".toList, client.serialize)
  | preflightOrigin : message.browserGenerated = true →
    FromBrowser client request start before message ("origin".toList, trimText client.serialize)
  | requestMethod (current : WebRequest U) : message.browserGenerated = true →
    Descends request current → FromBrowser client request start before message
      ("access-control-request-method".toList, trimText current.method)
  | requestHeaders (current : WebRequest U) : message.browserGenerated = true →
    Descends request current → FromBrowser client request start before message
      ("access-control-request-headers".toList,
        trimText (", ".toList.intercalate (nonSafelistedHeaderNames current.headers)))

/-- What a message carries of the user's credentials and of forbidden headers. -/
structure Guarded (client : Origin) (request : WebRequest U) (start : CookieStore)
    (before : List (Traffic U)) (message : Outbound U) : Prop where
  forbidden : ∀ header ∈ message.headers, isForbiddenRequestHeader (lowercase header.1) = true →
    FromBrowser visited client request start before message header
  cookie : ∀ header ∈ message.headers, lowercase header.1 = "cookie".toList →
    request.credentials = .include ∨ request.credentials = .sameOrigin ∧
      message.browserGenerated = false ∧ Origin.fromUrl message.url = .ok client
  authorization : (∃ earlier ∈ hopsSent before, Origin.fromUrl earlier.url ≠ Origin.fromUrl message.url) →
    ∀ header ∈ message.headers, lowercase header.1 ≠ "authorization".toList

/-! ## Stores -/

variable {visited} {client : Origin} {request : WebRequest U} {start : CookieStore}

theorem storedFrom_nil (credentials : CredentialsMode) :
    StoredFrom visited client credentials start ([] : List (Traffic U)) start :=
  ⟨[], nil_sublist _, nofun, rfl⟩

variable {traffic : List (Traffic U)} {cookies : CookieStore} {header : Text × Text} {headers : Headers}

theorem StoredFrom.more {credentials : CredentialsMode}
    (h : StoredFrom visited client credentials start traffic cookies)
    (more : List (Traffic U)) :
    StoredFrom visited client credentials start (traffic ++ more) cookies := by
  obtain ⟨kept, hsub, hmay, hcookies⟩ := h
  refine ⟨kept, ?_, hmay, hcookies⟩
  rw [received_append]
  exact hsub.trans (sublist_append_left _ _)

theorem StoredFrom.store {credentials : CredentialsMode}
    (h : StoredFrom visited client credentials start traffic cookies)
    {sent : SentHttp U} (hsent : MayStore client credentials sent) (now : Int) :
    StoredFrom visited client credentials start (traffic ++ [.receives sent])
      (storeCookies (U := U) visited cookies now sent.exchange) := by
  obtain ⟨kept, hsub, hmay, rfl⟩ := h
  refine ⟨kept ++ [(sent, now)], ?_, ?_, ?_⟩
  · rw [received_append, map_append]
    exact hsub.append (List.Sublist.refl _)
  · intro moment hmem
    obtain hmem | hmem := mem_append.1 hmem
    · exact hmay moment hmem
    · rw [mem_singleton.1 hmem]
      exact hsent
  · rw [foldl_append]
    rfl

/-- Where a run stands with the wire and the store. -/
structure Conduct (visited : CookieStore → List (Text × Cookie)) (client : Origin)
    (request : WebRequest U) (start : CookieStore) (traffic : List (Traffic U))
    (cookies : CookieStore) : Prop where
  every : EverySend (Guarded visited client request start) traffic
  stored : StoredFrom visited client request.credentials start traffic cookies

theorem Conduct.sends (h : Conduct visited client request start traffic cookies)
    {message : Outbound U} (hmessage : Guarded visited client request start traffic message) :
    Conduct visited client request start (traffic ++ [.sends message]) cookies :=
  ⟨everySend_sends h.every hmessage, h.stored.more _⟩

theorem Conduct.receives
    (h : Conduct visited client request start traffic cookies) (sent : SentHttp U) :
    Conduct visited client request start (traffic ++ [.receives sent]) cookies :=
  ⟨everySend_receives h.every sent, h.stored.more _⟩

/-! ## Hops -/

variable {hop : Hop U}

/-- Before a hop: an untainted chain has stayed on one origin, and a tainted one has lost its
authorization. -/
structure Underway (visited : CookieStore → List (Text × Cookie)) (client : Origin)
    (request : WebRequest U) (start : CookieStore) (hop : Hop U) (traffic : List (Traffic U))
    (cookies : CookieStore) : Prop where
  conduct : Conduct visited client request start traffic cookies
  descends : Descends request hop.request
  untainted : hop.tainted = false →
    ∀ earlier ∈ hopsSent traffic, Origin.fromUrl earlier.url = Origin.fromUrl hop.current
  tainted : hop.tainted = true →
    hop.request.headers.entries.contains "authorization".toList = false

/-- The cookie of a message comes out of the store. -/
def CookieOf (url : U) (cookie : Text) (cookies : CookieStore) : Prop :=
  ∃ now, cookie = cookieText cookies now url

omit [PublicSuffixList] [DateLibrary] [CaseTables] in
theorem nonEmpty_some {text value : Text} (h : nonEmpty text = some value) : value = text := by
  unfold nonEmpty at h
  split at h
  · cases h
  · exact (Option.some.inj h).symm

variable {target : Origin} {current : WebRequest U}

omit [PublicSuffixList] [DateLibrary] [CaseTables] in
theorem credentialsAllowed_spec {url : U} (htarget : Origin.fromUrl url = .ok target)
    (h : credentialsAllowed current (target != client) = true) :
    current.credentials = .include ∨
      current.credentials = .sameOrigin ∧ Origin.fromUrl url = .ok client := by
  unfold credentialsAllowed at h
  split at h
  · cases h
  · next hsame =>
    refine .inr ⟨hsame, ?_⟩
    rw [htarget]
    simpa using h
  · next hinclude => exact .inl hinclude

theorem mem_hopMessage (hmade : request.headers.Made)
    (h : Underway visited client request start hop traffic cookies) {cookie : Text}
    (hmem : header ∈ outboundHeaders (hopOptions client hop (target != client) cookie)) :
    (header ∈ hop.request.headers.pairs ∧ lowercase header.1 = header.1 ∧
        isForbiddenRequestHeader header.1 = false) ∨
      (header = ("cookie".toList, cookie) ∧
        credentialsAllowed hop.request (target != client) = true) ∨
      header = ("origin".toList, client.serialize) := by
  obtain ⟨hpair, hpass⟩ | ⟨hname, hvalue⟩ | ⟨hname, hvalue⟩ := mem_outboundHeaders hmem
  · exact .inl ⟨hpair, (h.descends.normal hmade).lowercase hpair, hpass.resolve_left Bool.false_ne_true⟩
  · refine .inr (.inl ?_)
    dsimp only [hopOptions] at hvalue
    split at hvalue
    · next hallowed =>
      exact ⟨Prod.ext hname (nonEmpty_some hvalue), hallowed⟩
    · cases hvalue
  · refine .inr (.inr ?_)
    dsimp only [hopOptions] at hvalue
    split at hvalue
    · exact Prod.ext hname (Option.some.inj hvalue).symm
    · cases hvalue

theorem hop_guarded (hmade : request.headers.Made)
    (h : Underway visited client request start hop traffic cookies)
    (htarget : Origin.fromUrl hop.current = .ok target) {cookie : Text}
    (hcookie : CookieOf hop.current cookie cookies) :
    Guarded visited client request start traffic
      (messageOf hop.request.method hop.current (hopOptions client hop (target != client) cookie)) where
  forbidden header hmem hforbidden := by
    obtain ⟨-, hlower, hpass⟩ | ⟨rfl, -⟩ | rfl := mem_hopMessage hmade h hmem
    · rw [hlower, hpass] at hforbidden
      cases hforbidden
    · obtain ⟨now, rfl⟩ := hcookie
      exact .cookie cookies now h.conduct.stored
    · exact .origin
  cookie header hmem hname := by
    obtain ⟨-, hlower, hpass⟩ | ⟨rfl, hallowed⟩ | rfl := mem_hopMessage hmade h hmem
    · rw [← hlower, hname] at hpass
      exact absurd hpass (by decide)
    · rw [← h.descends.continues.credentials]
      exact (credentialsAllowed_spec htarget hallowed).imp_right fun hsame => ⟨hsame.1, rfl, hsame.2⟩
    · exact absurd hname (by decide : lowercase "origin".toList ≠ "cookie".toList)
  authorization := by
    rintro ⟨earlier, hearlier, haway⟩ header hmem hname
    have htainted : hop.tainted = true := by
      cases hstate : hop.tainted with
      | true => rfl
      | false => exact absurd (h.untainted hstate earlier hearlier) haway
    obtain ⟨hpair, hlower, -⟩ | ⟨rfl, -⟩ | rfl := mem_hopMessage hmade h hmem
    · have hthere := Headers.mem_pairs hpair
      rw [← hlower, hname, h.tainted htainted] at hthere
      cases hthere
    · exact absurd hname (by decide : lowercase "cookie".toList ≠ "authorization".toList)
    · exact absurd hname (by decide : lowercase "origin".toList ≠ "authorization".toList)

/-! ## Preflights -/

omit [UrlLibrary U] [PublicSuffixList] [DateLibrary] [CaseTables] in
theorem preflightHeaders_pairs (h : preflightHeaders client current = .ok headers)
    (hmem : header ∈ headers.pairs) :
    header = ("origin".toList, trimText client.serialize) ∨
      header = ("access-control-request-method".toList, trimText current.method) ∨
      header = ("access-control-request-headers".toList,
        trimText (", ".toList.intercalate (nonSafelistedHeaderNames current.headers))) := by
  have hset {before after : Headers} {name : String} {value : Text}
      (hnormal : Headers.normalizeName name.toList = .ok name.toList)
      (hset : before.set name.toList value = .ok after) {header : Text × Text}
      (hmem : header ∈ after.pairs) :
      header ∈ before.pairs ∨ header = (name.toList, trimText value) :=
    (Headers.set_pairs hset hmem).imp_right fun ⟨hname, hvalue⟩ =>
      Prod.ext (Except.ok.inj (hname.symm.trans hnormal)) hvalue
  unfold preflightHeaders at h
  cases hfirst : Headers.new.set "origin".toList client.serialize with
  | error error => rw [hfirst] at h; cases h
  | ok first =>
    cases hsecond : first.set "access-control-request-method".toList current.method with
    | error error => simp only [hfirst, hsecond, bind, Except.bind] at h; cases h
    | ok second =>
      have hmethod {header : Text × Text} (hmem : header ∈ second.pairs) :
          header = ("origin".toList, trimText client.serialize) ∨
            header = ("access-control-request-method".toList, trimText current.method) := by
        obtain hmem | rfl := hset (by decide) hsecond hmem
        · obtain hmem | rfl := hset (by decide) hfirst hmem
          · have hthere := Headers.mem_pairs hmem
            rw [Headers.contains_new] at hthere
            cases hthere
          · exact .inl rfl
        · exact .inr rfl
      simp only [hfirst, hsecond, bind, Except.bind] at h
      split at h
      · obtain rfl := Except.ok.inj h
        exact (hmethod hmem).imp_right .inl
      · obtain hmem | rfl := hset (by decide) h hmem
        · exact (hmethod hmem).imp_right .inl
        · exact .inr (.inr rfl)

def preflightOptions (current : WebRequest U) (headers : Headers) (cookie : Text) :
    HttpRequestOptions :=
  { headers, body := []
    cookie := if current.credentials == .include then nonEmpty cookie else none
    origin := none, browserGeneratedHeaders := true }

theorem preflight_guarded (hdescends : Descends request current)
    (h : Conduct visited client request start traffic cookies)
    (hheaders : preflightHeaders client current = .ok headers) {url : U} {cookie : Text}
    (hcookie : CookieOf url cookie cookies) :
    Guarded visited client request start traffic
      (messageOf "OPTIONS".toList url (preflightOptions current headers cookie)) := by
  have hparts {header : Text × Text}
      (hmem : header ∈ outboundHeaders (preflightOptions current headers cookie)) :
      FromBrowser visited client request start traffic
          (messageOf "OPTIONS".toList url (preflightOptions current headers cookie)) header ∧
        lowercase header.1 ≠ "authorization".toList ∧
        (lowercase header.1 = "cookie".toList → request.credentials = .include) := by
    obtain ⟨hpair, -⟩ | ⟨hname, hvalue⟩ | ⟨-, hvalue⟩ := mem_outboundHeaders hmem
    · obtain rfl | rfl | rfl := preflightHeaders_pairs hheaders hpair
      · exact ⟨.preflightOrigin rfl, (by decide : lowercase "origin".toList ≠ _),
          fun hname => absurd hname (by decide : lowercase "origin".toList ≠ _)⟩
      · exact ⟨.requestMethod current rfl hdescends,
          (by decide : lowercase "access-control-request-method".toList ≠ _),
          fun hname => absurd hname (by decide : lowercase "access-control-request-method".toList ≠ _)⟩
      · exact ⟨.requestHeaders current rfl hdescends,
          (by decide : lowercase "access-control-request-headers".toList ≠ _),
          fun hname => absurd hname (by decide : lowercase "access-control-request-headers".toList ≠ _)⟩
    · dsimp only [preflightOptions] at hvalue
      split at hvalue
      · next hinclude =>
        obtain ⟨now, rfl⟩ := hcookie
        obtain rfl : header = ("cookie".toList, cookieText cookies now url) :=
          Prod.ext hname (nonEmpty_some hvalue)
        refine ⟨.cookie cookies now h.stored, (by decide : lowercase "cookie".toList ≠ _), fun _ => ?_⟩
        rw [← hdescends.continues.credentials]
        exact eq_of_beq hinclude
      · cases hvalue
    · cases hvalue
  exact ⟨fun header hmem _ => (hparts hmem).1, fun header hmem hname => .inl ((hparts hmem).2.2 hname),
    fun _ header hmem => (hparts hmem).2.1⟩

/-! ## Runs -/

omit [DateLibrary] [CaseTables] in
theorem cookieHeader_spec {P : FetchWorld U → Prop} (url : U) :
    Meets P (cookieHeader url) (fun cookie world => P world ∧ CookieOf url cookie world.cookies) P :=
  fun world hworld => ⟨hworld, world.now, rfl⟩

/-- The state of a run before, during and after a hop. -/
abbrev OnHop (visited : CookieStore → List (Text × Cookie)) (client : Origin)
    (request : WebRequest U) (start : CookieStore) (hop : Hop U) (world : FetchWorld U) : Prop :=
  Underway visited client request start hop world.traffic world.cookies

theorem Underway.more {more : List (Traffic U)} {cookies' : CookieStore}
    (h : Underway visited client request start hop traffic cookies)
    (hconduct : Conduct visited client request start (traffic ++ more) cookies')
    (hmore : hopsSent more = []) :
    Underway visited client request start hop (traffic ++ more) cookies' :=
  { h with
    conduct := hconduct
    untainted := by
      rw [hopsSent_append, hmore, append_nil]
      exact h.untainted }

theorem Underway.receives
    (h : Underway visited client request start hop traffic cookies) (sent : SentHttp U) :
    Underway visited client request start hop (traffic ++ [.receives sent]) cookies :=
  h.more (h.conduct.receives sent) rfl

theorem Underway.sends (h : Underway visited client request start hop traffic cookies)
    {message : Outbound U} (hmessage : Guarded visited client request start traffic message)
    (hurl : message.url = hop.current) :
    Underway visited client request start hop (traffic ++ [.sends message]) cookies :=
  { h with
    conduct := h.conduct.sends hmessage
    untainted := fun huntainted earlier hmem => by
      rw [hopsSent_append] at hmem
      obtain hmem | hmem := mem_append.1 hmem
      · exact h.untainted huntainted earlier hmem
      · obtain ⟨item, hitem, hearlier⟩ := mem_filterMap.1 hmem
        obtain rfl := mem_singleton.1 hitem
        dsimp only at hearlier
        split at hearlier
        · cases hearlier
        · obtain rfl := Option.some.inj hearlier
          rw [hurl] }

theorem underway_steady : Steady (OnHop visited client request start hop) := fun _ _ _ _ h => h

theorem preflight_underway :
    Keeps (OnHop visited client request start hop) (preflight client hop.current hop.request) := by
  have hfails (world : FetchWorld U) (h : OnHop visited client request start hop world) :
      OnHop visited client request start hop world := h
  unfold preflight
  refine ofExcept_bind hfails fun headers hheaders => ?_
  refine Meets.bind (cookieHeader_spec hop.current) fun cookie => ?_
  refine Meets.bind (sendHttp_ends (Q := fun _ => OnHop visited client request start hop)
    (fun _ h => h.1) (fun world h => ?_) underway_steady hfails
    fun exchange world _ h => h.receives _) fun exchange => ?_
  · exact h.1.more (h.1.conduct.sends (preflight_guarded h.1.descends h.1.conduct hheaders h.2)) rfl
  · refine check_bind hfails fun _ => ?_
    refine ofExcept_bind hfails fun _ _ => ?_
    exact ofExcept_ends hfails fun _ _ => hfails

theorem exchangeHop_underway (hmade : request.headers.Made)
    (htarget : Origin.fromUrl hop.current = .ok target) :
    Keeps (OnHop visited client request start hop)
      (exchangeHop visited client hop (target != client)) := by
  -- The exchange is the last on the wire, so its cookies may be stored.
  let R (exchange : HttpExchange) (world : FetchWorld U) : Prop := ∃ before cookie,
    Underway visited client request start hop before world.cookies ∧ world.traffic = before ++
      [.receives { method := hop.request.method, url := hop.current, exchange
                   options := hopOptions client hop (target != client) cookie }]
  have hafter (exchange : HttpExchange) (world : FetchWorld U) (h : R exchange world) :
      OnHop visited client request start hop world := by
    obtain ⟨before, cookie, hbefore, hworld⟩ := h
    show Underway visited client request start hop world.traffic world.cookies
    rw [hworld]
    exact hbefore.receives _
  refine exchangeHop_ends (R := R) (S := fun _ => OnHop visited client request start hop)
    (cookieHeader_spec hop.current) (fun _ _ h => h.1)
    (fun cookie world h => h.1.sends (hop_guarded hmade h.1 htarget h.2) rfl) (fun _ => underway_steady)
    (fun _ _ h => h) (fun cookie _ world _ h => ⟨world.traffic, cookie, h, rfl⟩)
    (fun _ _ _ _ _ h => h) hafter fun exchange _ => ?_
  refine Meets.ite (fun hallowed => ?_) fun _ => hafter exchange
  rintro world ⟨before, cookie, hbefore, hworld⟩
  have hmay : MayStore client request.credentials
      { method := hop.request.method, url := hop.current, exchange
        options := hopOptions client hop (target != client) cookie } := by
    refine ⟨rfl, ?_⟩
    rw [← hbefore.descends.continues.credentials]
    exact credentialsAllowed_spec htarget hallowed
  show Underway visited client request start hop world.traffic _
  rw [hworld]
  exact hbefore.more ⟨(hbefore.conduct.receives _).every, hbefore.conduct.stored.store hmay world.now⟩
    rfl

theorem performHop_underway (hmade : request.headers.Made) :
    Meets (OnHop visited client request start hop) (performHop visited client hop)
      (fun result world => OnHop visited client request start hop world ∧
        Origin.fromUrl hop.current = .ok result.1)
      (OnHop visited client request start hop) :=
  performHop_ends underway_steady (fun _ h => h)
    (fun _ _ => Keeps.ite preflight_underway (Keeps.pure _))
    fun _ htarget _ => (exchangeHop_underway hmade htarget).mono (fun _ => id)
      (fun _ _ h => ⟨h, htarget⟩) fun _ => id

theorem Underway.redirect (h : Underway visited client request start hop traffic cookies)
    {next : Hop U} (htarget : Origin.fromUrl hop.current = .ok target) {status : Nat}
    {location : Text} (hnext : nextHop hop target status location = .ok next) :
    Underway visited client request start next traffic cookies := by
  obtain ⟨origin, horigin, hrequest, htaints⟩ := nextHop_spec hnext
  refine ⟨h.conduct, ?_, fun huntainted earlier hmem => ?_, fun htainted => ?_⟩
  · rw [hrequest]
    exact redirected_descends h.descends _ status
  · rw [htaints, Bool.or_eq_false_iff] at huntainted
    rw [h.untainted huntainted.1 earlier hmem, htarget, horigin]
    exact congrArg Except.ok (by simpa using huntainted.2 : origin = target).symm
  · rw [hrequest]
    refine redirected_unauthorized ?_ status
    rw [htaints, Bool.or_eq_true] at htainted
    exact htainted.symm.imp_right h.tainted

theorem execute_conduct (hmade : request.headers.Made) :
    Meets (fun world => world.traffic = [] ∧ world.cookies = start)
      (FetchRuntime.execute visited client request)
      (fun _ world => Conduct visited client request start world.traffic world.cookies)
      fun world => Conduct visited client request start world.traffic world.cookies := by
  have hstart (world : FetchWorld U) (h : world.traffic = [] ∧ world.cookies = start) :
      Conduct visited client request start world.traffic world.cookies := by
    rw [h.1, h.2]
    exact ⟨everySend_nil, storedFrom_nil _⟩
  have hfirst := executeFrom_ends (E := fun world => Conduct visited client request start world.traffic world.cookies)
    (H := fun hop => OnHop visited client request start hop)
    (A := fun hop target exchange world => OnHop visited client request start hop world ∧
      Origin.fromUrl hop.current = .ok target)
    (Q := fun _ world => Conduct visited client request start world.traffic world.cookies)
    (fun hop => (performHop_underway hmade).mono (fun _ => id) (fun _ _ => id) fun _ h => h.conduct)
    (fun _ h => h.1.conduct) (fun _ _ _ h => h.1.conduct) (fun _ _ h => h.1.conduct)
    (fun _ _ hnext _ h => h.1.redirect h.2 hnext) maxFetchRedirects
    { current := request.url, request, redirected := false, tainted := false }
  refine execute_ends (fun _ _ _ _ h => h) hstart
    (hfirst.mono (fun world h => ?_) (fun _ _ => id) fun _ => id)
  refine ⟨hstart world h, ⟨⟨rfl, rfl, rfl⟩, .inl rfl, fun _ _ => id⟩, fun _ earlier hmem => ?_, nofun⟩
  rw [h.1] at hmem
  cases hmem

theorem StoredFrom.omit
    (h : StoredFrom visited client .omit start traffic cookies) : cookies = start := by
  obtain ⟨kept, -, hmay, rfl⟩ := h
  cases kept with
  | nil => rfl
  | cons moment kept =>
    obtain hinclude | ⟨hsame, -⟩ := (hmay moment (mem_cons_self ..)).2
    · cases hinclude
    · cases hsame

/-- Whatever the network answers, every message is guarded, and the cookies in the store are
those of hops that may store them. -/
theorem execute_guarded (visited : CookieStore → List (Text × Cookie)) (client : Origin)
    (request : WebRequest U) (hmade : request.headers.Made) (answers : List HttpAnswer)
    (aborts : List Bool) (now : Int) (cookies : CookieStore) :
    let world := endState (FetchRuntime.execute visited client request)
      { answers, aborts, now, cookies, exchanges := [] }
    EverySend (Guarded visited client request cookies) world.traffic ∧
      StoredFrom visited client request.credentials cookies world.traffic world.cookies ∧
      (request.credentials = .omit → world.cookies = cookies) := by
  let world : FetchWorld U := { answers, aborts, now, cookies, exchanges := [] }
  have hconduct := Meets.endState (@execute_conduct U _ _ _ _ visited client request cookies hmade)
    (⟨rfl, rfl⟩ : world.traffic = [] ∧ world.cookies = cookies)
  have hend := hconduct.elim id id
  refine ⟨hend.every, hend.stored, fun homit => ?_⟩
  have hstored := hend.stored
  rw [homit] at hstored
  exact hstored.omit

end

/-! ## A chain that leaves its origin -/

section

/-- The headers of a script that has set an authorization. -/
def bearerHeaders : Headers :=
  match Headers.new.append "authorization".toList "Bearer 1".toList with
  | .ok headers => headers
  | .error _ => Headers.new

theorem bearerHeaders_made : bearerHeaders.Made := by
  unfold bearerHeaders
  split
  · next headers happend => exact .append .new happend
  · exact .new

def bearerRequest : WebRequest PlainUrl where
  url := { scheme := "https".toList, host := "a.test".toList, path := "/".toList }
  method := "GET".toList
  headers := bearerHeaders
  body := []
  mode := .cors
  credentials := .sameOrigin
  redirect := .follow

/-- `https://a.test/` sends the page and its authorization on to `https://b.test/`. -/
def bearerRun : FetchWorld PlainUrl :=
  endState (@FetchRuntime.execute PlainUrl _ shortList noDates asciiTables (fun _ => []) pageOrigin
      bearerRequest)
    { answers := [plainAnswer "https://a.test/" (some "https://b.test/"),
        plainAnswer "https://b.test/" none]
      aborts := [], now := 0, cookies := ∅, exchanges := [] }

theorem execute_guarded_bearer :
    EverySend (@Guarded PlainUrl _ shortList noDates asciiTables (fun _ => []) pageOrigin bearerRequest ∅)
        bearerRun.traffic ∧
      @StoredFrom PlainUrl _ shortList noDates asciiTables (fun _ => []) pageOrigin .sameOrigin ∅
        bearerRun.traffic bearerRun.cookies ∧
      (bearerRequest.credentials = .omit → bearerRun.cookies = ∅) :=
  @execute_guarded PlainUrl _ shortList noDates asciiTables (fun _ => []) pageOrigin bearerRequest
    bearerHeaders_made _ [] 0 ∅

/-- The first message has the authorization, the second has lost it. -/
example : (bearerRun.traffic.filterMap fun
    | .sends message => some (message.headers.map Prod.fst)
    | .receives _ => none) = [["authorization".toList], ["origin".toList]] := by decide +kernel

end

end GhitaBrowser.Net
