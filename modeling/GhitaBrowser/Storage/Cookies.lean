import GhitaBrowser.Net.Url
import GhitaBrowser.Storage.PublicSuffix

/-!
# The cookie jar

A jar keeps, for each stored domain, cookies that differ in name, domain and path. A stored
domain with a leading dot covers the hosts below it, one without covers itself alone.
-/

namespace GhitaBrowser.Storage

open Html Net

/-- `parse_http_date`, which tries the three formats of an HTTP date. -/
class DateLibrary where
  parseHttpDate : Text → Option Int

structure Cookie where
  name : Text
  value : Text
  domain : Text
  path : Text
  expires : Option Int
  secure : Bool
  httpOnly : Bool
  sameSite : Text
  createdAt : Int
deriving DecidableEq

def Cookie.sameKey (cookie other : Cookie) : Bool :=
  cookie.name == other.name && cookie.domain == other.domain && cookie.path == other.path

/-! ## Hosts and paths -/

def trimStartDots (text : Text) : Text := text.dropWhile (· == '.')

/-- `host` is `base` or lies below it. -/
def hostWithin (host base : Text) : Bool := host == base || ('.' :: base).isSuffixOf host

section

variable [PublicSuffixList]

/-- A Domain attribute is taken from a host within it, unless it is a public suffix. -/
def isDomainSuffix (domain host : Text) : Bool :=
  !domain.isEmpty && hostWithin (lowercase host) (lowercase domain) &&
    !isPublicSuffix (lowercase domain)

def siteOf (host : Text) : Text := (registrableDomain host).getD host

end

/-- A path that is empty or does not start with a slash counts as the root. -/
def normalizePath (path : Text) : Text :=
  match path with
  | '/' :: _ => path
  | _ => ['/']

def pathMatches (requestPath cookiePath : Text) : Bool :=
  let requestPath := if requestPath.isEmpty then ['/'] else requestPath
  let cookiePath := normalizePath cookiePath
  requestPath == cookiePath ||
    (cookiePath.isPrefixOf requestPath &&
      (cookiePath.getLast? == some '/' ||
        (requestPath.drop cookiePath.length).head? == some '/'))

/-! ## Set-Cookie -/

def maxI64 : Int := 2 ^ 63 - 1

/-- `str::parse::<i64>`. -/
def parseI64 (text : Text) : Option Int := do
  let (negative, digits) := match text with
    | '-' :: digits => (true, digits)
    | '+' :: digits => (false, digits)
    | digits => (false, digits)
  if digits.isEmpty then none
  else
    let value ← digits.foldlM (fun acc c => do return acc * 10 + (← digitValue 10 c)) 0
    let value : Int := if negative then -value else value
    if -2 ^ 63 ≤ value ∧ value ≤ maxI64 then some value else none

/-- About a hundred years. -/
def maxAge : Int := 100 * 365 * 24 * 60 * 60

/-- A trimmed attribute as its key and value, split at the first `=`. -/
def splitAttribute (trimmed : Text) : Option (Text × Text) :=
  match trimmed.dropWhile (· != '=') with
  | [] => none
  | _ :: value => some (trimText (trimmed.takeWhile (· != '=')), trimText value)

def attributeDomain (value : Text) : Text := lowercase (trimStartDots value)

section

variable [PublicSuffixList] [DateLibrary] [CaseTables]

open DateLibrary CaseTables

def applyAttribute (defaultDomain : Text) (now : Int) (first : Bool) (cookie : Cookie)
    (keyRaw value : Text) : Cookie :=
  let key := lowercase keyRaw
  if key == "domain".toList then
    let domain := attributeDomain value
    if isDomainSuffix domain defaultDomain then { cookie with domain := '.' :: domain } else cookie
  else if key == "path".toList then
    { cookie with path := if value.head? == some '/' then value else ['/'] }
  else if key == "expires".toList then
    match parseHttpDate value with
    | some time => { cookie with expires := some time }
    | none => cookie
  else if key == "max-age".toList then
    match parseI64 value with
    | some secs =>
      { cookie with expires := some (if secs ≤ 0 then 0 else min (now + min secs maxAge) maxI64) }
    | none => cookie
  else if key == "samesite".toList then { cookie with sameSite := toLowercase value }
  else if first && cookie.name.isEmpty then { cookie with name := keyRaw, value }
  else cookie

/-- A part without a `=`. -/
def applyFlag (cookie : Cookie) (trimmed : Text) : Cookie :=
  let lower := toLowercase trimmed
  { cookie with
    secure := cookie.secure || lower == "secure".toList
    httpOnly := cookie.httpOnly || lower == "httponly".toList }

def applyPart (defaultDomain : Text) (now : Int) (first : Bool) (cookie : Cookie)
    (part : Text) : Cookie :=
  let trimmed := trimText part
  match splitAttribute trimmed with
  | some (keyRaw, value) => applyAttribute defaultDomain now first cookie keyRaw value
  | none => applyFlag cookie trimmed

/-- The cookie before any part is read; its domain is the host. -/
def hostCookie (defaultDomain : Text) (now : Int) : Cookie :=
  { name := [], value := [], domain := defaultDomain, path := ['/'], expires := none,
    secure := false, httpOnly := false, sameSite := "lax".toList, createdAt := now }

def fromSetCookieHeader (header defaultDomain : Text) (now : Int) : Cookie :=
  match header.splitOn ';' with
  | [] => hostCookie defaultDomain now
  | first :: parts =>
    parts.foldl (applyPart defaultDomain now false)
      (applyPart defaultDomain now true (hostCookie defaultDomain now) first)

end

/-! ## Matching a URL -/

section

variable (U : Type) [UrlLibrary U] [PublicSuffixList]

open UrlLibrary

def Cookie.matchesUrl (cookie : Cookie) (url : Text) : Bool :=
  match parse (U := U) url with
  | .error _ => false
  | .ok parsed =>
    let base := lowercase (trimStartDots cookie.domain)
    let host := lowercase ((hostStr parsed).getD [])
    if cookie.secure && scheme parsed != "https".toList then false
    else if !hostWithin host base then false
    else if lowercase cookie.sameSite == "strict".toList && siteOf host != siteOf base then false
    else pathMatches (UrlLibrary.path parsed) cookie.path

end

def Cookie.isExpired (cookie : Cookie) (now : Int) : Bool := cookie.expires.any (· < now)

def Cookie.toHeaderValue (cookie : Cookie) : Text := cookie.name ++ '=' :: cookie.value

/-! ## The jar -/

def maxCookiesPerDomain : Nat := 180
def maxTotalCookies : Nat := 3000

abbrev CookieStore := Std.ExtTreeMap Text (List Cookie)

def storedCookies (store : CookieStore) : Nat :=
  (store.toList.map fun entry => entry.2.length).sum

section

-- The order in which the hash maps hand out the cookies, each with its stored domain.
variable (visited : CookieStore → List (Text × Cookie))

/-- The first of the cookies with the least time. -/
def oldestCookie (cookies : List (Text × Cookie)) : Option (Text × Cookie) :=
  cookies.foldl (fun oldest candidate =>
    match oldest with
    | none => some candidate
    | some found => if candidate.2.createdAt < found.2.createdAt then some candidate else oldest)
    none

/-- Make room in a jar that is full. -/
def evictOldest (store : CookieStore) : CookieStore :=
  if maxTotalCookies ≤ storedCookies store then
    match oldestCookie (visited store) with
    | none => store
    | some (domain, oldest) =>
      match store[domain]? with
      | none => store
      | some cookies => store.insert domain (cookies.filter fun cookie => !cookie.sameKey oldest)
  else store

def addCookie (store : CookieStore) (cookie : Cookie) : CookieStore :=
  if cookie.name.isEmpty then store
  else
    let replacing := (store[cookie.domain]?).any (·.any cookie.sameKey)
    let store := if replacing then store else evictOldest visited store
    let entry := (store[cookie.domain]?).getD []
    if !entry.any cookie.sameKey && maxCookiesPerDomain ≤ entry.length then
      store.insert cookie.domain entry
    else store.insert cookie.domain (cookie :: entry.filter fun other => !cookie.sameKey other)

end

/-- Both forms of the domain, with and without the leading dot. -/
def removeDomainCookies (store : CookieStore) (domain : Text) : CookieStore :=
  let base := trimStartDots domain
  store.filter fun key _ => !List.contains [base, '.' :: base] key

/-- A stored domain covers a host: itself, or with a leading dot what lies below it. -/
def storedDomainMatches (storedDomain domain : Text) : Bool :=
  storedDomain == domain ||
    match storedDomain with
    | '.' :: base => base.contains '.' && (domain == base || storedDomain.isSuffixOf domain)
    | _ => false

def getCookies (store : CookieStore) (domain : Text) (now : Int) : List Cookie :=
  store.toList.flatMap fun (storedDomain, cookies) =>
    if storedDomainMatches storedDomain domain then cookies.filter (!·.isExpired now) else []

section

variable (U : Type) [UrlLibrary U] [PublicSuffixList]

open UrlLibrary

end

end GhitaBrowser.Storage
