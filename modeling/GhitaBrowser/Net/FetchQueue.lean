import GhitaBrowser.Lib.History
import GhitaBrowser.Net.Fetch

/-!
# The fetch queue

A fetch waits in the queue of the runtime with a pending promise until the event loop runs it.
XMLHttpRequest objects send their requests through the same queue and poll for the result.
-/

namespace GhitaBrowser.Net

open UrlLibrary Html Storage

def maxFetchTasks : Nat := 256
def maxPromises : Nat := 1024

/-! ## Requests -/

def validateMethod (method : Text) : Except FetchError Unit :=
  if method.isEmpty || 32 < byteLen method || method != method.map Char.toUpper ||
      !method.all (fun c => c.isAlphanum || c == '-') ||
      ["CONNECT", "TRACE", "TRACK"].any (·.toList == method) then
    .error (.invalidMethod method)
  else .ok ()

/-- The methods whose requests have no body. -/
def isBodyless (method : Text) : Bool := ["GET", "HEAD"].any (·.toList == method)

namespace WebRequest

variable {U : Type}

def get [UrlLibrary U] (url : Text) : Except FetchError (WebRequest U) :=
  match parse url with
  | .error error => .error (.invalidUrl error)
  | .ok url =>
    .ok { url, method := "GET".toList, headers := Headers.new, body := [], mode := .cors
          credentials := .sameOrigin, redirect := .follow }

def setMethod (request : WebRequest U) (method : Text) : Except FetchError (WebRequest U) := do
  let method := (trimText method).map Char.toUpper
  validateMethod method
  return { request with method }

def setBody (request : WebRequest U) (body : List UInt8) : Except FetchError (WebRequest U) :=
  if isBodyless request.method && !body.isEmpty then
    .error (.invalidRequest "GET and HEAD requests cannot have a body".toList)
  else if maxBodyBytes < body.length then
    .error (.quotaExceeded "request body exceeds 50 MB".toList)
  else .ok { request with body }

end WebRequest

section

variable {U : Type} [UrlLibrary U]

def validateRequest (request : WebRequest U) : Except FetchError Unit :=
  if !isHttp request.url then
    .error (.invalidUrl ("unsupported fetch scheme: ".toList ++ scheme request.url))
  else do
    let _ ← Origin.fromUrl request.url
    validateMethod request.method
    if maxBodyBytes < request.body.length then
      .error (.quotaExceeded "request body exceeds 50 MB".toList)
    else if isBodyless request.method && !request.body.isEmpty then
      .error (.invalidRequest "GET and HEAD requests cannot have a body".toList)
    else .ok ()

end

/-! ## The runtime -/

inductive FetchPromiseState where
  | pending
  | fulfilled (response : WebResponse)
  | rejected (error : FetchError)

/-- The signal of a request from an XMLHttpRequest is named by the number of its controller. -/
structure PendingFetch (U : Type) where
  id : Nat
  request : WebRequest U
  signal : Option Nat

structure FetchRuntime (U : Type) where
  clientOrigin : Origin
  queue : List (PendingFetch U)
  promises : Std.ExtTreeMap Nat FetchPromiseState
  nextPromise : Nat
  cookies : CookieStore

/-- What a task meets: the answers of the network, and what any other signal says. -/
structure Network where
  answers : List HttpAnswer
  aborts : List Bool
  now : Int

namespace FetchRuntime

variable {U : Type}

def new (clientOrigin : Origin) : FetchRuntime U :=
  { clientOrigin, queue := [], promises := ∅, nextPromise := 1, cookies := ∅ }

def budgetExceeded : FetchError := .quotaExceeded "fetch queue budget exceeded".toList

/-- Accept a request, which then waits in the queue. -/
def fetch [UrlLibrary U] (runtime : FetchRuntime U) (request : WebRequest U)
    (signal : Option Nat) : Except FetchError Nat × FetchRuntime U :=
  match validateRequest request with
  | .error error => (.error error, runtime)
  | .ok () =>
    if maxFetchTasks ≤ runtime.queue.length ∨ maxPromises ≤ runtime.promises.size then
      (.error budgetExceeded, runtime)
    else if 2 ^ 64 ≤ runtime.nextPromise + 1 then
      (.error (.quotaExceeded "fetch identifier space exhausted".toList), runtime)
    else
      let id := runtime.nextPromise
      (.ok id, { runtime with
        nextPromise := id + 1
        promises := runtime.promises.insert id .pending
        queue := runtime.queue ++ [{ id, request, signal }] })

def promise (runtime : FetchRuntime U) (id : Nat) : Option FetchPromiseState :=
  runtime.promises[id]?

def takePromise (runtime : FetchRuntime U) (id : Nat) :
    Option FetchPromiseState × FetchRuntime U :=
  (runtime.promises[id]?, { runtime with promises := runtime.promises.erase id })

variable [UrlLibrary U] [PublicSuffixList] [DateLibrary] [CaseTables]
  (visited : CookieStore → List (Text × Cookie)) (aborted : List Nat)

/-- A signal that is already set stops a task before anything else. -/
def executePending (runtime : FetchRuntime U) (pending : PendingFetch U) (network : Network) :
    FetchPromiseState × CookieStore :=
  let aborts := if pending.signal.any aborted.contains then [true] else network.aborts
  match execute visited runtime.clientOrigin pending.request
      { answers := network.answers, aborts, now := network.now, cookies := runtime.cookies
        exchanges := [] } with
  | .ok response world => (.fulfilled response, world.cookies)
  | .error error world => (.rejected error, world.cookies)

def runOne (runtime : FetchRuntime U) (network : Network) : Bool × FetchRuntime U :=
  match runtime.queue with
  | [] => (false, runtime)
  | pending :: queue =>
    let (state, cookies) := executePending visited aborted runtime pending network
    (true, { runtime with queue, cookies, promises := runtime.promises.insert pending.id state })

/-- The loop of `drain`, with the tasks that it may still run. -/
def drainFrom : Nat → FetchRuntime U → (Nat → Network) → Nat × FetchRuntime U
  | 0, runtime, _ => (0, runtime)
  | left + 1, runtime, networks =>
    match runOne visited aborted runtime (networks 0) with
    | (false, runtime) => (0, runtime)
    | (true, runtime) =>
      let (completed, runtime) := drainFrom left runtime fun n => networks (n + 1)
      (completed + 1, runtime)

def drain (runtime : FetchRuntime U) (budget : Nat) (networks : Nat → Network) :
    Nat × FetchRuntime U :=
  drainFrom visited aborted (min budget maxFetchTasks) runtime networks

end FetchRuntime

/-! ## XMLHttpRequest -/

inductive XhrReadyState where
  | unsent
  | opened
  | headersReceived
  | loading
  | done
deriving DecidableEq

inductive XhrEvent where
  | readyStateChange (state : XhrReadyState)
  | load
  | error (error : FetchError)
  | abort
deriving DecidableEq

/-- No request carries the signal of the first controller, which has no number. -/
structure XmlHttpRequest (U : Type) where
  readyState : XhrReadyState
  request : Option (WebRequest U)
  promise : Option Nat
  response : Option WebResponse
  events : List XhrEvent
  controller : Option Nat
  withCredentials : Bool

namespace XmlHttpRequest

variable {U : Type}

def new : XmlHttpRequest U :=
  { readyState := .unsent, request := none, promise := none, response := none, events := []
    controller := none, withCredentials := false }

/-- `open`, with the number of a new controller. -/
def openRequest [UrlLibrary U] (xhr : XmlHttpRequest U) (controller : Nat) (method url : Text) :
    Except FetchError (XmlHttpRequest U) := do
  let request ← WebRequest.get url
  let request ← request.setMethod method
  return { xhr with
    controller := some controller
    request := some request
    promise := none
    response := none
    readyState := .opened
    events := xhr.events ++ [.readyStateChange .opened] }

def setRequestHeader (xhr : XmlHttpRequest U) (name value : Text) :
    Except FetchError (XmlHttpRequest U) :=
  if xhr.readyState ≠ .opened ∨ xhr.promise.isSome then
    .error (.invalidRequest "XHR headers require OPENED state before send".toList)
  else if isForbiddenRequestHeader ((trimText name).map Char.toLower) then
    .error (.invalidHeader ("forbidden header cannot be set: ".toList ++ name))
  else match xhr.request with
    | none => .error (.invalidRequest "XHR has no request in OPENED state".toList)
    | some request => do
      let headers ← request.headers.append name value
      return { xhr with request := some { request with headers } }

def setWithCredentials (xhr : XmlHttpRequest U) (withCredentials : Bool) : XmlHttpRequest U :=
  { xhr with withCredentials }

/-- The request changes in place, also where a later check refuses it. -/
def send [UrlLibrary U] (xhr : XmlHttpRequest U) (runtime : FetchRuntime U)
    (body : Option (List UInt8)) :
    Except FetchError Nat × XmlHttpRequest U × FetchRuntime U :=
  if xhr.readyState ≠ .opened ∨ xhr.promise.isSome then
    (.error (.invalidRequest "XHR send requires a fresh OPENED state".toList), xhr, runtime)
  else match xhr.request with
    | none =>
      (.error (.invalidRequest "XHR has no request in OPENED state".toList), xhr, runtime)
    | some request =>
      let request : WebRequest U :=
        { request with credentials := if xhr.withCredentials then .include else .sameOrigin }
      match body.elim (.ok request) request.setBody with
      | .error error => (.error error, { xhr with request := some request }, runtime)
      | .ok request =>
        match runtime.fetch request xhr.controller with
        | (.error error, runtime) => (.error error, { xhr with request := some request }, runtime)
        | (.ok id, runtime) =>
          (.ok id, { xhr with request := some request, promise := some id }, runtime)

/-- What the settled promise makes of the object. -/
def settle (xhr : XmlHttpRequest U) : FetchPromiseState → XmlHttpRequest U
  | .pending => xhr
  | .fulfilled response =>
    { xhr with
      promise := none
      readyState := .done
      response := some response
      events := xhr.events ++ [.readyStateChange .headersReceived, .readyStateChange .loading,
        .readyStateChange .done, .load] }
  | .rejected .aborted =>
    { xhr with
      promise := none, readyState := .done
      events := xhr.events ++ [.readyStateChange .done, .abort] }
  | .rejected error =>
    { xhr with
      promise := none, readyState := .done
      events := xhr.events ++ [.readyStateChange .done, .error error] }

/-- The promise is read where it is; nothing takes it out of the table. -/
def poll (xhr : XmlHttpRequest U) (runtime : FetchRuntime U) : Bool × XmlHttpRequest U :=
  match xhr.promise.bind runtime.promise with
  | none => (false, xhr)
  | some .pending => (false, xhr)
  | some state => (true, xhr.settle state)

end XmlHttpRequest

/-! ## A page at work -/

/-- What the record of a page keeps: fetches that are accepted and that settle, and promises
that leave with `take_promise` or that an object has read. -/
inductive FetchEvent where
  | accepted (id : Nat)
  | settled (id : Nat)
  | taken (id : Nat)
  | polled (id : Nat)
deriving DecidableEq

structure Page (U : Type) where
  runtime : FetchRuntime U
  xhrs : Nat → XmlHttpRequest U
  /-- The number of controllers so far, and those whose signal is set. -/
  controllers : Nat
  aborted : List Nat
  record : List FetchEvent

def Page.new {U : Type} (clientOrigin : Origin) : Page U :=
  { runtime := .new clientOrigin, xhrs := fun _ => .new, controllers := 0, aborted := []
    record := [] }

inductive PageAction (U : Type) where
  | fetch (request : WebRequest U)
  | runOne (network : Network)
  | drain (budget : Nat) (networks : Nat → Network)
  | takePromise (id : Nat)
  | openRequest (xhr : Nat) (method url : Text)
  | setRequestHeader (xhr : Nat) (name value : Text)
  | setWithCredentials (xhr : Nat) (withCredentials : Bool)
  | send (xhr : Nat) (body : Option (List UInt8))
  | poll (xhr : Nat)
  | abort (xhr : Nat)

/-- The ids of the first tasks of a queue. -/
def PendingFetch.ids {U : Type} (queue : List (PendingFetch U)) : List Nat := queue.map PendingFetch.id

namespace Page

variable {U : Type}

def note (page : Page U) (events : List FetchEvent) : Page U :=
  { page with record := page.record ++ events }

/-- An object takes its place again. -/
def putXhr (page : Page U) (xhr : Nat) (object : XmlHttpRequest U) : Page U :=
  { page with xhrs := Function.update page.xhrs xhr object }

variable [UrlLibrary U] [PublicSuffixList] [DateLibrary] [CaseTables]
  (visited : CookieStore → List (Text × Cookie))

def step (page : Page U) : PageAction U → Page U
  | .fetch request =>
    match page.runtime.fetch request none with
    | (.ok id, runtime) => { page with runtime }.note [.accepted id]
    | (.error _, runtime) => { page with runtime }
  | .runOne network =>
    match page.runtime.runOne visited page.aborted network with
    | (completed, runtime) =>
      { page with runtime }.note
        ((PendingFetch.ids (page.runtime.queue.take completed.toNat)).map .settled)
  | .drain budget networks =>
    match page.runtime.drain visited page.aborted budget networks with
    | (completed, runtime) =>
      { page with runtime }.note
        ((PendingFetch.ids (page.runtime.queue.take completed)).map .settled)
  | .takePromise id =>
    match page.runtime.takePromise id with
    | (some _, runtime) => { page with runtime }.note [.taken id]
    | (none, runtime) => { page with runtime }
  | .openRequest xhr method url =>
    match (page.xhrs xhr).openRequest page.controllers method url with
    | .ok object => { page with controllers := page.controllers + 1 }.putXhr xhr object
    | .error _ => page
  | .setRequestHeader xhr name value =>
    match (page.xhrs xhr).setRequestHeader name value with
    | .ok object => page.putXhr xhr object
    | .error _ => page
  | .setWithCredentials xhr withCredentials =>
    page.putXhr xhr ((page.xhrs xhr).setWithCredentials withCredentials)
  | .send xhr body =>
    match (page.xhrs xhr).send page.runtime body with
    | (.ok id, object, runtime) => ({ page with runtime }.putXhr xhr object).note [.accepted id]
    | (.error _, object, runtime) => { page with runtime }.putXhr xhr object
  | .poll xhr =>
    match (page.xhrs xhr).poll page.runtime with
    | (true, object) =>
      (page.putXhr xhr object).note ((page.xhrs xhr).promise.toList.map .polled)
    | (false, object) => page.putXhr xhr object
  | .abort xhr => { page with aborted := page.aborted ++ (page.xhrs xhr).controller.toList }

end Page

end GhitaBrowser.Net
