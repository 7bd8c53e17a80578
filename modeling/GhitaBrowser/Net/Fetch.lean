import GhitaBrowser.Net.Transport
import GhitaBrowser.Storage.Cookies

/-!
# The fetch runtime and its data

The data of the script-visible fetch: bounded headers, the origin of a URL, requests and
responses. Every failure is a `FetchError`.
-/

namespace GhitaBrowser.Net

open UrlLibrary Html

def maxHeaderEntries : Nat := 128
def maxHeaderBytes : Nat := 64 * 1024
def maxBodyBytes : Nat := 50 * 1024 * 1024

inductive FetchError where
  | invalidUrl (reason : Text)
  | invalidHeader (reason : Text)
  | invalidMethod (method : Text)
  | invalidRequest (reason : Text)
  | sameOriginViolation
  | cors (reason : Text)
  | redirect (reason : Text)
  | aborted
  | network (reason : Text)
  | quotaExceeded (reason : Text)
deriving DecidableEq

/-! ## Headers -/

structure Headers where
  entries : Std.ExtTreeMap Text (List Text)
  bytes : Nat

namespace Headers

def new : Headers := { entries := ∅, bytes := 0 }

/-- The characters of a header name, after lowercasing. -/
def nameChar (c : Char) : Bool := c.isAlphanum || "!#$%&'*+-.^_`|~".toList.contains c

def normalizeName (name : Text) : Except FetchError Text :=
  let normalized := (trimText name).map Char.toLower
  if normalized.isEmpty || 256 < byteLen normalized || !normalized.all nameChar then
    .error (.invalidHeader name)
  else .ok normalized

def normalizeValue (value : Text) : Except FetchError Text :=
  if value.any fun c => c == '\r' || c == '\n' then
    .error (.invalidHeader "header values cannot contain line breaks".toList)
  else if maxHeaderBytes < byteLen (trimText value) then
    .error (.quotaExceeded "header value budget exceeded".toList)
  else .ok (trimText value)

/-- `values.join(", ")`. -/
def joinValues (values : List Text) : Text := ", ".toList.intercalate values

def append (headers : Headers) (name value : Text) : Except FetchError Headers := do
  let name ← normalizeName name
  let value ← normalizeValue value
  let values := (headers.entries[name]?).getD []
  let cost := byteLen name + byteLen value
  if !headers.entries.contains name && maxHeaderEntries ≤ headers.entries.size then
    .error (.quotaExceeded "header entry budget exceeded".toList)
  else if maxHeaderBytes < headers.bytes + cost then
    .error (.quotaExceeded "header byte budget exceeded".toList)
  else .ok { entries := headers.entries.insert name (values ++ [value]), bytes := headers.bytes + cost }

/-- What the values of a name cost. -/
def cost (name : Text) (values : List Text) : Nat :=
  byteLen name * values.length + (values.map byteLen).sum

def set (headers : Headers) (name value : Text) : Except FetchError Headers := do
  let name ← normalizeName name
  let value ← normalizeValue value
  let oldCost := ((headers.entries[name]?).map (cost name)).getD 0
  let projected := headers.bytes - oldCost + byteLen name + byteLen value
  if !headers.entries.contains name && maxHeaderEntries ≤ headers.entries.size then
    .error (.quotaExceeded "header entry budget exceeded".toList)
  else if maxHeaderBytes < projected then
    .error (.quotaExceeded "header byte budget exceeded".toList)
  else .ok { entries := headers.entries.insert name [value], bytes := projected }

def get (headers : Headers) (name : String) : Option Text :=
  (headers.entries[name.toList.map Char.toLower]?).map joinValues

def delete (headers : Headers) (name : String) : Headers :=
  let name := name.toList.map Char.toLower
  match headers.entries[name]? with
  | none => headers
  | some values =>
    { entries := headers.entries.erase name, bytes := headers.bytes - cost name values }

/-- The names in order, each with its values joined. -/
def pairs (headers : Headers) : List (Text × Text) :=
  headers.entries.toList.map fun (name, values) => (name, joinValues values)

end Headers

/-! ## Origins -/

structure Origin where
  scheme : Text
  host : Text
  port : Nat
deriving DecidableEq

namespace Origin

variable {U : Type} [UrlLibrary U]

def fromUrl (url : U) : Except FetchError Origin :=
  if !isHttp url then
    .error (.invalidUrl ("unsupported origin scheme: ".toList ++ UrlLibrary.scheme url))
  else
    match hostStr url, portOrKnownDefault url with
    | none, _ => .error (.invalidUrl "origin has no host".toList)
    | some _, none => .error (.invalidUrl "origin has no port".toList)
    | some host, some port =>
      .ok { scheme := UrlLibrary.scheme url, host := host.map Char.toLower, port }

def serialize (origin : Origin) : Text :=
  let default := (origin.scheme == "http".toList && origin.port == 80) ||
    (origin.scheme == "https".toList && origin.port == 443)
  let host := origin.scheme ++ "://".toList ++ origin.host
  if default then host else host ++ ':' :: (toString origin.port).toList

end Origin

/-! ## Requests and responses -/

inductive RequestMode where
  | sameOrigin
  | cors
  | noCors
deriving DecidableEq

inductive CredentialsMode where
  | omit
  | sameOrigin
  | include
deriving DecidableEq

inductive RedirectMode where
  | follow
  | error
  | manual
deriving DecidableEq

structure WebRequest (U : Type) where
  url : U
  method : Text
  headers : Headers
  body : List UInt8
  mode : RequestMode
  credentials : CredentialsMode
  redirect : RedirectMode

inductive ResponseType where
  | basic
  | cors
  | opaqueFiltered
  | opaqueRedirect
deriving DecidableEq

structure WebResponse where
  responseType : ResponseType
  url : Text
  status : Nat
  statusText : Text
  headers : Headers
  body : List UInt8
  redirected : Bool

structure HttpExchange where
  url : Text
  status : Nat
  statusText : Text
  headers : Headers
  body : List UInt8
  setCookie : List Text

end GhitaBrowser.Net

/-!
## The fetch runtime

`FetchRuntime::execute` follows a request of a page through its redirects and decides what of
the last response the page may see. The state holds what the network answers, the cookies, and
the record of the exchanges.
-/

namespace GhitaBrowser.Net

open UrlLibrary Html Storage

def maxFetchRedirects : Nat := 10

/-! ## Methods and headers -/

def isRedirectStatus (status : Nat) : Bool := [301, 302, 303, 307, 308].contains status

def isSimpleMethod (method : Text) : Bool :=
  ["GET", "HEAD", "POST"].any (·.toList == method)

def isSafelistedRequestHeader (name value : Text) : Bool :=
  if ["accept", "accept-language", "content-language"].any (·.toList == name) then
    byteLen value ≤ 128
  else if name == "content-type".toList then
    let mime := trimText (value.takeWhile (· != ';'))
    ["application/x-www-form-urlencoded", "multipart/form-data", "text/plain"].any
      (·.toList == lowercase mime)
  else false

def isForbiddenRequestHeader (name : Text) : Bool :=
  ["accept-charset", "accept-encoding", "access-control-request-headers",
    "access-control-request-method", "connection", "content-length", "cookie", "cookie2", "date",
    "dnt", "expect", "host", "keep-alive", "origin", "referer", "te", "trailer",
    "transfer-encoding", "upgrade", "via"].any (·.toList == name) ||
    "proxy-".toList.isPrefixOf name || "sec-".toList.isPrefixOf name

/-- Names of the headers, in order, that take a preflight. -/
def nonSafelistedHeaderNames (headers : Headers) : List Text :=
  (headers.pairs.filter fun (name, value) =>
    !isForbiddenRequestHeader name && !isSafelistedRequestHeader name value).map (·.1)

/-- The tokens of a comma-separated header value. -/
def commaTokens (value : Option Text) : List Text :=
  ((((value.getD []).splitOn ',').map trimText).filter (!·.isEmpty)).map lowercase

def isCorsSafelisted (name : Text) : Bool :=
  ["cache-control", "content-language", "content-length", "content-type", "expires",
    "last-modified", "pragma"].any (·.toList == name)

/-- The headers that a response of a type shows. -/
def filterResponseHeaders (headers : Headers) (responseType : ResponseType) :
    Except FetchError Headers :=
  let exposed := commaTokens (headers.get "access-control-expose-headers")
  let shown := headers.pairs.filter fun (name, _) =>
    !(["set-cookie", "set-cookie2"].any (·.toList == name)) &&
      (responseType == .basic || isCorsSafelisted name || exposed.contains name ||
        exposed.contains ['*'])
  shown.foldlM (fun filtered (name, value) => filtered.append name value) Headers.new

def validateCorsResponse (headers : Headers) (origin : Origin) (credentialsInclude : Bool) :
    Except FetchError Unit :=
  match headers.get "access-control-allow-origin" with
  | none => .error (.cors "missing Access-Control-Allow-Origin".toList)
  | some allowedOrigin =>
    if allowedOrigin == ['*'] && credentialsInclude then
      .error (.cors "wildcard origin cannot be used with credentials".toList)
    else if allowedOrigin != ['*'] && allowedOrigin != origin.serialize then
      .error (.cors ("origin ".toList ++ origin.serialize ++ " was not allowed".toList))
    else if credentialsInclude && !(headers.get "access-control-allow-credentials").any
        fun value => lowercase value == "true".toList then
      .error (.cors "credentialed response did not opt in".toList)
    else .ok ()

/-! ## Exchanges -/

/-- What comes back: headers and cookies as the client library lists them. -/
structure RawReply where
  url : Text
  status : Nat
  statusText : Text
  headers : List (Text × Text)
  setCookie : List Text
  body : List UInt8

/-- An answer of the network, and the time when it is there. -/
structure HttpAnswer where
  reply : Except Text RawReply
  now : Int

structure HttpRequestOptions where
  headers : Headers
  body : List UInt8
  cookie : Option Text
  origin : Option Text
  browserGeneratedHeaders : Bool

/-- An exchange on record: preflights have headers of the browser's own. -/
structure SentHttp (U : Type) where
  method : Text
  url : U
  options : HttpRequestOptions
  exchange : HttpExchange

/-- A message as it leaves for the network, with all its headers. -/
structure Outbound (U : Type) where
  method : Text
  url : U
  headers : List (Text × Text)
  browserGenerated : Bool

/-- What goes over the wire in either direction. -/
inductive Traffic (U : Type) where
  | sends (message : Outbound U)
  | receives (sent : SentHttp U)

structure FetchWorld (U : Type) where
  answers : List HttpAnswer
  /-- What the abort signal says each time it is asked. -/
  aborts : List Bool
  now : Int
  cookies : CookieStore
  exchanges : List (SentHttp U)
  traffic : List (Traffic U) := []

abbrev FetchRun (U : Type) := EStateM FetchError (FetchWorld U)

section

variable {U : Type} [UrlLibrary U]

def check (fails : Bool) (error : FetchError) : FetchRun U Unit :=
  if fails then throw error else pure ()

def ofExcept {α : Type} : Except FetchError α → FetchRun U α
  | .ok value => pure value
  | .error error => throw error

/-- `signal.aborted()`. -/
def aborted : FetchRun U Bool := do
  let world ← get
  match world.aborts with
  | [] => return false
  | answer :: aborts => do
    set { world with aborts }
    return answer

def checkAborted : FetchRun U Unit := do
  let stop ← aborted
  check stop .aborted

/-- The bounded form of a reply. -/
def readReply (reply : RawReply) : Except FetchError HttpExchange := do
  let headers ← reply.headers.foldlM (fun headers (name, value) => headers.append name value)
    Headers.new
  if maxBodyBytes < reply.body.length then
    .error (.quotaExceeded "response body exceeds 50 MB".toList)
  else .ok { url := reply.url, status := reply.status, statusText := reply.statusText, headers,
             body := reply.body, setCookie := reply.setCookie }

/-- Wait for the network. -/
def takeAnswer : FetchRun U (Except Text RawReply) :=
  modifyGet fun world =>
    match world.answers with
    | [] => (.error "timed out".toList, world)
    | answer :: answers => (answer.reply, { world with answers, now := answer.now })

def awaitAnswer : FetchRun U HttpExchange := do
  match ← takeAnswer with
  | .error error => throw (.network error)
  | .ok reply => ofExcept (readReply reply)

/-- `Request::set`: a header takes the place of one with its name. -/
def setHeader (headers : List (Text × Text)) (name value : Text) : List (Text × Text) :=
  headers.filter (·.1 != name) ++ [(name, value)]

/-- A script's forbidden headers stay behind; the cookie and the origin come last. -/
def outboundHeaders (options : HttpRequestOptions) : List (Text × Text) :=
  let allowed := options.headers.pairs.filter fun (name, _) =>
    options.browserGeneratedHeaders || !isForbiddenRequestHeader name
  let headers := allowed.foldl (fun headers (name, value) => setHeader headers name value) []
  let headers := match options.cookie with
    | some cookie => setHeader headers "cookie".toList cookie
    | none => headers
  match options.origin with
  | some origin => setHeader headers "origin".toList origin
  | none => headers

/-- The message leaves. -/
def depart (message : Outbound U) : FetchRun U Unit :=
  modify fun world => { world with traffic := world.traffic ++ [.sends message] }

def sendHttp (method : Text) (url : U) (options : HttpRequestOptions) :
    FetchRun U HttpExchange := do
  check (!isHttp url) (.invalidUrl ("unsupported fetch scheme: ".toList ++ scheme url))
  depart { method, url, headers := outboundHeaders options
           browserGenerated := options.browserGeneratedHeaders }
  let exchange ← awaitAnswer
  modify fun world =>
    { world with
      exchanges := world.exchanges ++ [{ method, url, options, exchange }]
      traffic := world.traffic ++ [.receives { method, url, options, exchange }] }
  return exchange

/-! ## Cookies -/

def hostOf (url : Text) : Text :=
  match parse (U := U) url with
  | .ok url => (hostStr url).getD []
  | .error _ => []

variable [PublicSuffixList]

/-- The `Cookie` header for a URL. -/
def cookieHeader (url : U) : FetchRun U Text := do
  let world ← get
  let cookies := getCookies world.cookies (hostOf (U := U) (asStr url)) world.now
  return "; ".toList.intercalate
    ((cookies.filter (·.matchesUrl U (asStr url))).map Cookie.toHeaderValue)

variable [DateLibrary] [CaseTables] (visited : CookieStore → List (Text × Cookie))

def storeResponseCookies (url : Text) (values : List Text) : FetchRun U Unit :=
  modify fun world =>
    { world with
      cookies := values.foldl (fun cookies value =>
        let cookie := fromSetCookieHeader value (hostOf (U := U) url) world.now
        if !cookie.name.isEmpty && cookie.matchesUrl U url then addCookie visited cookies cookie
        else cookies) world.cookies }

/-! ## Preflight -/

def needsPreflight (request : WebRequest U) : Bool :=
  !isSimpleMethod request.method || !(nonSafelistedHeaderNames request.headers).isEmpty

def preflightHeaders (client : Origin) (request : WebRequest U) : Except FetchError Headers := do
  let headers ← Headers.new.set "origin".toList client.serialize
  let headers ← headers.set "access-control-request-method".toList request.method
  let nonSimple := nonSafelistedHeaderNames request.headers
  if nonSimple.isEmpty then return headers
  else headers.set "access-control-request-headers".toList (", ".toList.intercalate nonSimple)

/-- The names the answer of a preflight allows cover the request. -/
def preflightAllows (headers : Headers) (request : WebRequest U) : Except FetchError Unit :=
  let methods := commaTokens (headers.get "access-control-allow-methods")
  let allowed := commaTokens (headers.get "access-control-allow-headers")
  if !isSimpleMethod request.method && !methods.contains (lowercase request.method) then
    .error (.cors ("method ".toList ++ request.method ++ " was not allowed by preflight".toList))
  else match (nonSafelistedHeaderNames request.headers).find? fun header =>
      !allowed.contains header && !allowed.contains ['*'] with
    | some header =>
      .error (.cors ("header ".toList ++ header ++ " was not allowed by preflight".toList))
    | none => .ok ()

def nonEmpty (text : Text) : Option Text := if text.isEmpty then none else some text

def preflight (client : Origin) (url : U) (request : WebRequest U) : FetchRun U Unit := do
  let headers ← ofExcept (preflightHeaders client request)
  let cookie ← cookieHeader url
  let exchange ← sendHttp "OPTIONS".toList url
    { headers, body := []
      cookie := if request.credentials == .include then nonEmpty cookie else none
      origin := none, browserGeneratedHeaders := true }
  check (!(200 ≤ exchange.status && exchange.status ≤ 299))
    (.cors ("preflight returned status ".toList ++ (toString exchange.status).toList))
  ofExcept (validateCorsResponse exchange.headers client (request.credentials == .include))
  ofExcept (preflightAllows exchange.headers request)

/-! ## Execution -/

namespace FetchRuntime

/-- A response without status, headers or body. -/
def emptyResponse (responseType : ResponseType) (redirected : Bool) : WebResponse :=
  { responseType, url := [], status := 0, statusText := [], headers := Headers.new, body := [],
    redirected }

/-- A chain that has been on more than one origin is never basic. -/
def responseTypeOf (crossOrigin redirectTainted : Bool) : ResponseType :=
  if crossOrigin || redirectTainted then .cors else .basic

def finishResponse (exchange : HttpExchange) (mode : RequestMode)
    (crossOrigin redirected redirectTainted : Bool) : Except FetchError WebResponse :=
  if mode == .noCors && crossOrigin then .ok (emptyResponse .opaqueFiltered redirected)
  else do
    let headers ← filterResponseHeaders exchange.headers (responseTypeOf crossOrigin redirectTainted)
    return { responseType := responseTypeOf crossOrigin redirectTainted, url := exchange.url,
             status := exchange.status, statusText := exchange.statusText, headers,
             body := exchange.body, redirected }

/-- The request goes to the next origin without its authorization. -/
def dropAuthorization (headers : Headers) : Headers :=
  (headers.delete "authorization").delete "proxy-authorization"

/-- Some redirects turn a request into a GET without a body. -/
def redirectMethod (request : WebRequest U) (status : Nat) : WebRequest U :=
  if status == 303 || ((status == 301 || status == 302) && request.method == "POST".toList) then
    { request with
      method := "GET".toList, body := []
      headers := (request.headers.delete "content-type").delete "content-length" }
  else request

/-- Where a request stands between two hops. -/
structure Hop (U : Type) where
  current : U
  request : WebRequest U
  redirected : Bool
  tainted : Bool

def credentialsAllowed (request : WebRequest U) (crossOrigin : Bool) : Bool :=
  match request.credentials with
  | .omit => false
  | .sameOrigin => !crossOrigin
  | .include => true

/-- The response to a cross-origin hop in cors mode must allow the origin of the page. -/
def checkCors (client : Origin) (request : WebRequest U) (crossOrigin : Bool)
    (exchange : HttpExchange) : Except FetchError Unit :=
  if crossOrigin && request.mode == .cors then
    validateCorsResponse exchange.headers client (request.credentials == .include)
  else .ok ()

def storeAllowedCookies (credentials : Bool) (exchange : HttpExchange) : FetchRun U Unit :=
  if credentials then storeResponseCookies visited exchange.url exchange.setCookie else pure ()

/-- The exchange of a hop with the current URL, checked and its cookies stored. -/
def exchangeHop (client : Origin) (hop : Hop U) (crossOrigin : Bool) :
    FetchRun U HttpExchange := do
  let request := hop.request
  let credentials := credentialsAllowed request crossOrigin
  let cookie ← cookieHeader hop.current
  let exchange ← sendHttp request.method hop.current
    { headers := request.headers, body := request.body
      cookie := if credentials then nonEmpty cookie else none
      origin := if crossOrigin then some client.serialize else none
      browserGeneratedHeaders := false }
  checkAborted
  ofExcept (checkCors client request crossOrigin exchange)
  storeAllowedCookies visited credentials exchange
  return exchange

def preflightIfNeeded (client : Origin) (hop : Hop U) (crossOrigin : Bool) : FetchRun U Unit :=
  if crossOrigin && hop.request.mode == .cors && needsPreflight hop.request then
    preflight client hop.current hop.request
  else pure ()

/-- One hop: the origin of the current URL, and the exchange with it. -/
def performHop (client : Origin) (hop : Hop U) : FetchRun U (Origin × HttpExchange) := do
  checkAborted
  let target ← ofExcept (Origin.fromUrl hop.current)
  check (target != client && hop.request.mode == .sameOrigin) .sameOriginViolation
  preflightIfNeeded client hop (target != client)
  let exchange ← exchangeHop visited client hop (target != client)
  return (target, exchange)

/-- The `Location` of a redirect. -/
def redirectLocation (exchange : HttpExchange) : Option Text :=
  if isRedirectStatus exchange.status then exchange.headers.get "location" else none

/-- The hop after a redirect to `location`. -/
def nextHop (hop : Hop U) (target : Origin) (status : Nat) (location : Text) :
    Except FetchError (Hop U) :=
  match join hop.current location with
  | .error error => .error (.redirect error)
  | .ok next => do
    let nextOrigin ← Origin.fromUrl next
    let moved := nextOrigin != target
    let request := if moved then { hop.request with headers := dropAuthorization hop.request.headers }
      else hop.request
    return { current := next, request := redirectMethod request status, redirected := true,
             tainted := hop.tainted || moved }

/-- The hops from one on, with the number of redirects that are still followed. -/
def executeFrom (client : Origin) : Nat → Hop U → FetchRun U WebResponse
  | left, hop => do
    let (target, exchange) ← performHop visited client hop
    match redirectLocation exchange with
    | none =>
      ofExcept (finishResponse exchange hop.request.mode (target != client) hop.redirected hop.tainted)
    | some location =>
      match hop.request.redirect with
      | .error => throw (.redirect "request redirect mode is 'error'".toList)
      | .manual => return emptyResponse .opaqueRedirect false
      | .follow =>
        match left with
        | 0 => throw (.redirect "redirect count exceeded 10".toList)
        | left + 1 => do
          let next ← ofExcept (nextHop hop target exchange.status location)
          executeFrom client left next

/-- No-cors requests are simple. -/
def checkNoCors (request : WebRequest U) : Except FetchError Unit :=
  if request.mode != .noCors then .ok ()
  else if !isSimpleMethod request.method then
    .error (.cors "no-cors mode only permits safelisted methods".toList)
  else
    let offenders := nonSafelistedHeaderNames request.headers
    if offenders.isEmpty then .ok ()
    else .error (.cors ("no-cors mode does not permit header(s): ".toList ++
      ", ".toList.intercalate offenders))

def execute (client : Origin) (request : WebRequest U) : FetchRun U WebResponse := do
  checkAborted
  let initialOrigin ← ofExcept (Origin.fromUrl request.url)
  check (initialOrigin != client && request.mode == .sameOrigin) .sameOriginViolation
  ofExcept (checkNoCors request)
  executeFrom visited client maxFetchRedirects
    { current := request.url, request, redirected := false, tainted := false }

end FetchRuntime

end

end GhitaBrowser.Net
