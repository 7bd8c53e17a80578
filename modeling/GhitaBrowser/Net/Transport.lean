import GhitaBrowser.Html.Parser
import GhitaBrowser.Lib.Keeps
import GhitaBrowser.Net.Url

/-!
# The scheduled transport

A request runs against a wire: what the network answers to each send, and the record of
what has been sent. A cancellation or a timeout drops the request wherever it waits.
-/

namespace GhitaBrowser.Net

open UrlLibrary

inductive ScheduledError where
  | cancelled
  | queueFull
  | timeout
  | invalidRequest (url : Text)
  | transport (error : Text)
  | responseBudgetExceeded
  | workerFailure
deriving DecidableEq

inductive ResponseMode where
  | document
  | binary
deriving DecidableEq

structure ScheduledRequest where
  url : Text
  cookieHeader : Text
  maxRetries : Nat
  responseMode : ResponseMode

/-- A part of a response body, or what happens in place of it. -/
inductive Chunk where
  | bytes (bytes : List UInt8)
  | failed (error : Text)
  | dropped (reason : ScheduledError)

/-- Header names are lowercase; a value is missing where it is no visible text. -/
structure Reply where
  status : Nat
  headers : List (Text × Option Text)
  contentLength : Option Nat
  body : List Chunk

def Reply.get (reply : Reply) (name : String) : Option (Option Text) :=
  (reply.headers.find? (·.1 == name.toList)).map (·.2)

inductive Answer where
  | reply (reply : Reply)
  | failed (error : Text)
  | dropped (reason : ScheduledError)

structure HttpRequest (U : Type) where
  url : U
  cookie : Option Text

structure Wire (U : Type) where
  answers : List Answer
  sent : List (HttpRequest U)

/-- How a request stops: with an error that may be tried again, or dropped. -/
inductive Stop where
  | error (error : Text)
  | dropped (reason : ScheduledError)

abbrev Transfer (U : Type) := EStateM Stop (Wire U)

structure FetchResult where
  body : Text
  binaryBody : Option (List UInt8)
  url : Text
  statusCode : Nat
  contentType : Text
  headers : Std.ExtTreeMap Text Text
  setCookieHeaders : List Text
  setCookieHosts : List Text

/-- The charset decoder, from the bytes and the content type, and the text of a status. -/
class HttpLibrary where
  decodeTextResponse : List UInt8 → Text → Except Text Text
  displayStatus : Nat → Text

open HttpLibrary

/-! ## Errors worth another try -/

def contains (text : Text) (pattern : String) : Bool :=
  text.tails.any pattern.toList.isPrefixOf

/-- The text after the first `pattern`. -/
def after (pattern : String) (text : Text) : Text :=
  ((text.tails.find? pattern.toList.isPrefixOf).getD []).drop pattern.length

/-- `str::parse::<u16>` of a run of digits. -/
def parseU16 (digits : Text) : Option Nat := (Html.parseU32 10 digits).filter (· < 2 ^ 16)

def isRetryableError (err : Text) : Bool :=
  let lower := err.map Char.toLower
  let code := if contains lower "status 5" || contains lower "status 4" then
    parseU16 ((after "status " lower).takeWhile Char.isDigit) else none
  match code with
  | some code => code == 408 || code == 429 || (500 ≤ code && code < 600)
  | none => ["429", "server error", "bad gateway", "service unavailable", "gateway timeout",
      "timed out", "timeout", "connection closed", "connection reset", "refused"].any
        (contains lower)

section

variable {U : Type} [UrlLibrary U] [HttpLibrary]

def fail {α : Type} (error : String) : Transfer U α := throw (.error error.toList)

/-- Put a request on the wire and wait; without an answer it waits until the timeout. -/
def send (request : HttpRequest U) : Transfer U Reply := do
  let wire ← get
  match wire.answers with
  | [] => do
    set { wire with sent := wire.sent ++ [request] }
    throw (.dropped .timeout)
  | answer :: answers => do
    set ({ answers, sent := wire.sent ++ [request] } : Wire U)
    match answer with
    | .reply reply => return reply
    | .failed error => throw (.error error)
    | .dropped reason => throw (.dropped reason)

/-- Read the chunks within the budget. -/
def readBody (maxResponseBytes : Nat) : List Chunk → List UInt8 → Transfer U (List UInt8)
  | [], bytes => return bytes
  | .bytes chunk :: chunks, bytes =>
    if maxResponseBytes < bytes.length + chunk.length then
      fail "response body exceeds scheduler budget"
    else readBody maxResponseBytes chunks (bytes ++ chunk)
  | .failed error :: _, _ => throw (.error error)
  | .dropped reason :: _, _ => throw (.dropped reason)

/-- `eq_ignore_ascii_case` on texts. -/
def eqIgnoreCase (a b : Text) : Bool := a.map Char.toLower == b.map Char.toLower

def finalizeFetchResponse (finalUrl : Text) (statusCode : Nat) (contentType : Text)
    (headers : Std.ExtTreeMap Text Text) (bytes : List UInt8) (setCookies : List (Text × Text))
    (binaryMode : Bool) : Except Text FetchResult := do
  let mime := contentType.takeWhile (· != ';')
  let isPdf := eqIgnoreCase (Html.trimText mime) "application/pdf".toList ||
    ".pdf".toList.isSuffixOf (finalUrl.map Char.toLower)
  let (body, binaryBody) ←
    if binaryMode || isPdf then pure ([], some bytes)
    else pure (← decodeTextResponse bytes contentType, none)
  return { body, binaryBody, url := finalUrl, statusCode, contentType, headers,
           setCookieHeaders := setCookies.map (·.1), setCookieHosts := setCookies.map (·.2) }

/-- The cookies of a reply, each with the host of the hop that sent it. -/
def replyCookies (reply : Reply) (current : U) : List (Text × Text) :=
  reply.headers.filterMap fun (name, value) =>
    if name == "set-cookie".toList then
      match value with
      | some value =>
        if (Html.trimText value).isEmpty then none
        else some (Html.trimText value, (hostStr current).getD [])
      | none => none
    else none

/-- The headers of the final response, without the cookies. -/
def replyHeaders (reply : Reply) : Std.ExtTreeMap Text Text :=
  reply.headers.foldl (fun headers (name, value) =>
    if name == "set-cookie".toList then headers
    else match value with
      | some value => headers.insert (name.map Char.toLower) value
      | none => headers) ∅

/-- The response that ends the redirects. -/
def finish (request : ScheduledRequest) (maxResponseBytes : Nat) (current : U) (reply : Reply)
    (setCookies : List (Text × Text)) : Transfer U FetchResult :=
  if 400 ≤ reply.status then fail ("status " ++ toString reply.status)
  else if reply.contentLength.any (maxResponseBytes < ·) then
    fail "response body exceeds scheduler budget"
  else do
    let contentType := ((reply.get "content-type").join).getD "text/html".toList
    let bytes ← readBody maxResponseBytes reply.body []
    match finalizeFetchResponse (asStr current) reply.status contentType (replyHeaders reply) bytes
        setCookies (request.responseMode == .binary) with
    | .ok result => return result
    | .error error => throw (.error error)

/-- The cookie goes along where the hop is on the origin of the request. -/
def hopCookie (request : ScheduledRequest) (original current : U) : Option Text :=
  if !request.cookieHeader.isEmpty && sameOrigin original current then some request.cookieHeader
  else none

/-- The URL that a redirect names. -/
def redirectTarget (current : U) (reply : Reply) : Transfer U U :=
  match (reply.get "location").join with
  | none => fail "redirect Location is not valid text"
  | some location =>
    match join current location with
    | .ok next => return next
    | .error error => throw (.error error)

/-- The redirect loop, with the number of redirects that are still followed. -/
def follow (request : ScheduledRequest) (maxResponseBytes : Nat) (original : U) :
    Nat → U → List (Text × Text) → Transfer U FetchResult
  | left, current, setCookies => do
    let reply ← send { url := current, cookie := hopCookie request original current }
    let setCookies := setCookies ++ replyCookies reply current
    if 300 ≤ reply.status && reply.status < 400 then
      if (reply.get "location").isNone then
        throw (.error ("redirect status ".toList ++ displayStatus reply.status ++
          " did not include Location".toList))
      else match left with
        | 0 => throw (.error ("too many redirects for ".toList ++ request.url))
        | left + 1 => do
          let next ← redirectTarget current reply
          follow request maxResponseBytes original left next setCookies
    else finish request maxResponseBytes current reply setCookies

def maxRedirects : Nat := 5

def executeOnce (request : ScheduledRequest) (maxResponseBytes : Nat) :
    Transfer U FetchResult :=
  match parse (U := U) request.url with
  | .ok original => follow request maxResponseBytes original maxRedirects original []
  | .error error => throw (.error error)

/-- Try again after an error that may pass, while retries are left. -/
def execute (request : ScheduledRequest) (maxResponseBytes : Nat) : Nat → Transfer U FetchResult
  | 0 => executeOnce request maxResponseBytes
  | retries + 1 => tryCatch (executeOnce request maxResponseBytes) fun
    | .error error =>
      if isRetryableError error then execute request maxResponseBytes retries
      else throw (.error error)
    | .dropped reason => throw (.dropped reason)

/-! ## The scheduler -/

/-- What a scheduled request meets: a refusal before it runs, or the answers on its wire. -/
structure Task where
  refused : Option ScheduledError
  answers : List Answer

def maxResponseBytes : Nat := 50 * 1024 * 1024

/-- The outcome of a request and what it sent. -/
structure Scheduled (U : Type) where
  result : Except ScheduledError FetchResult
  sent : List (HttpRequest U)

def withinBudget (result : FetchResult) : Bool :=
  ((result.binaryBody.map List.length).getD (byteLen result.body)) ≤ maxResponseBytes

def fetch (request : ScheduledRequest) (task : Task) : Scheduled U :=
  match parse (U := U) request.url with
  | .error _ => { result := .error (.invalidRequest request.url), sent := [] }
  | .ok url =>
    if !isHttp url then { result := .error (.invalidRequest request.url), sent := [] }
    else match task.refused with
      | some error => { result := .error error, sent := [] }
      | none =>
        match execute request maxResponseBytes request.maxRetries
            ({ answers := task.answers, sent := [] } : Wire U) with
        | .ok result wire =>
          { result := if withinBudget result then .ok result else .error .responseBudgetExceeded,
            sent := wire.sent }
        | .error (.error error) wire => { result := .error (.transport error), sent := wire.sent }
        | .error (.dropped reason) wire => { result := .error reason, sent := wire.sent }

end

end GhitaBrowser.Net
