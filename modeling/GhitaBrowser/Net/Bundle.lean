import GhitaBrowser.Net.Transport

/-!
# The document bundle

`fetch_document_bundle` fetches a page, then its scripts and style sheets side by side, and
writes their bodies into the page. Each fetch meets a task of its own; how the tasks
interleave makes no difference to what each of them sends.
-/

namespace GhitaBrowser.Net

open UrlLibrary Html

inductive ExternalResourceKind where
  | script
  | style
deriving DecidableEq

structure ExternalResource where
  kind : ExternalResourceKind
  url : Text
deriving DecidableEq

def maxExternalResources : Nat := 64
def maxTotalBundleBytes : Nat := 8 * 1024 * 1024
def maxSingleResourceBytes : Nat := 2 * 1024 * 1024

def splitWhitespace (text : Text) : List Text := (text.splitOnP isWhitespace).filter (!·.isEmpty)

/-- The resource an element names, relative to the base. -/
def candidate (element : Element) : Option (ExternalResourceKind × Text) :=
  if element.tag == "script".toList then
    (element.getAttr "src".toList).map fun url => (.script, url)
  else if element.tag == "link".toList && (element.getAttr "rel".toList).any fun rel =>
      (splitWhitespace rel).any (eqIgnoreCase · "stylesheet".toList) then
    (element.getAttr "href".toList).map fun url => (.style, url)
  else none

section

variable {U : Type} [UrlLibrary U]

/-- The resource an element asks for over HTTP. -/
def externalResource (base : U) (element : Element) : Option ExternalResource := do
  let (kind, relative) ← candidate element
  match join base relative with
  | .ok url => if isHttp url then some { kind, url := asStr url } else none
  | .error _ => none

mutual

def collectExternalResources (base : U) (limit : Nat) :
    Element → List ExternalResource → List ExternalResource
  | ⟨nodeId, tag, attrs, children, text, isVoid⟩, output =>
    if limit ≤ output.length then output
    else
      let own := externalResource base ⟨nodeId, tag, attrs, children, text, isVoid⟩
      collectFromAll base limit children (output ++ own.toList)

def collectFromAll (base : U) (limit : Nat) :
    List Element → List ExternalResource → List ExternalResource
  | [], output => output
  | child :: children, output =>
    let output := collectExternalResources base limit child output
    if limit ≤ output.length then output else collectFromAll base limit children output

end

/-- The bodies that have arrived, in order. -/
abbrev Bodies := List (ExternalResource × Text)

/-- Take the first body of a resource. -/
def takeBody (resource : ExternalResource) (bodies : Bodies) : Option (Text × Bodies) :=
  (bodies.find? (·.1 == resource)).map fun entry =>
    (entry.2, bodies.eraseP (·.1 == resource))

/-- An element with the body of its resource in place of the reference. -/
def inlineBody (element : Element) (kind : ExternalResourceKind) (body : Text) : Element :=
  match kind with
  | .script => { element with text := body, attrs := element.attrs.erase "src".toList }
  | .style =>
    { element with
      text := body
      tag := "style".toList
      attrs := (element.attrs.erase "href".toList).erase "rel".toList
      isVoid := false }

def injectInto (base : U) (element : Element) (bodies : Bodies) : Element × Bodies :=
  match candidate element with
  | none => (element, bodies)
  | some (kind, relative) =>
    match join base relative with
    | .error _ => (element, bodies)
    | .ok url =>
      match takeBody { kind, url := asStr url } bodies with
      | none => (element, bodies)
      | some (body, bodies) => (inlineBody element kind body, bodies)

mutual

def injectExternalResources (base : U) : Element → Bodies → Element × Bodies
  | ⟨nodeId, tag, attrs, children, text, isVoid⟩, bodies =>
    let (element, bodies) := injectInto base ⟨nodeId, tag, attrs, children, text, isVoid⟩ bodies
    let (children, bodies) := injectIntoAll base children bodies
    ({ element with children }, bodies)

def injectIntoAll (base : U) : List Element → Bodies → List Element × Bodies
  | [], bodies => ([], bodies)
  | child :: children, bodies =>
    let (child, bodies) := injectExternalResources base child bodies
    let (children, bodies) := injectIntoAll base children bodies
    (child :: children, bodies)

end

/-! ## Fetching -/

inductive BundleError where
  | fetch (error : ScheduledError)
  | url (error : Text)
  | cancelled
  /-- The parser panicked. -/
  | panicked

/-- What the fetches of a bundle meet. -/
structure BundleWorld where
  document : Task
  cancelledAfterDocument : Bool
  subresources : List Task
  cancelledAfterSubresources : Bool

/-- A task that nobody has time for. -/
def Task.idle : Task := { refused := some .workerFailure, answers := [] }

/-- The cookies of the document go along to the origin of the document. -/
def resourceCookie (documentUrl : U) (cookieHeader : Text) (resource : ExternalResource) : Text :=
  match parse (U := U) resource.url with
  | .ok url => if sameOrigin documentUrl url then cookieHeader else []
  | .error _ => []

/-- The base of a page: its `base` element, or the page. -/
def resolvedBase (dom : Element) (documentUrl : U) : U :=
  let href := (dom.findTag "base".toList).bind (·.getAttr "href".toList)
  match href with
  | none => documentUrl
  | some href =>
    match join documentUrl href with
    | .ok url => url
    | .error _ => documentUrl

variable [HttpLibrary]

def navigationRequest (url cookieHeader : Text) (maxRetries : Nat) : ScheduledRequest :=
  { url, cookieHeader, maxRetries, responseMode := .document }

def resourceRequest (documentUrl : U) (cookieHeader : Text) (resource : ExternalResource) :
    ScheduledRequest :=
  { url := resource.url, cookieHeader := resourceCookie documentUrl cookieHeader resource,
    maxRetries := 1, responseMode := .document }

def fetchResource (documentUrl : U) (cookieHeader : Text) (resource : ExternalResource)
    (task : Task) : Scheduled U :=
  fetch (resourceRequest documentUrl cookieHeader resource) task

/-- Each resource with the task it meets. -/
def assignTasks : List ExternalResource → List Task → List (ExternalResource × Task)
  | [], _ => []
  | resource :: resources, [] => (resource, .idle) :: assignTasks resources []
  | resource :: resources, task :: tasks => (resource, task) :: assignTasks resources tasks

def fetchResources (documentUrl : U) (cookieHeader : Text) (resources : List ExternalResource)
    (tasks : List Task) : List (ExternalResource × Scheduled U) :=
  (assignTasks resources tasks).map fun (resource, task) =>
    (resource, fetchResource documentUrl cookieHeader resource task)

/-- Keep the bodies within the budgets, and count the rest as failures. -/
def gatherBodies : List (ExternalResource × Scheduled U) → Nat → Bodies × Nat
  | [], _ => ([], 0)
  | (resource, outcome) :: outcomes, total =>
    match outcome.result with
    | .ok response =>
      let length := byteLen response.body
      if maxSingleResourceBytes < length || maxTotalBundleBytes < total + length then
        let (bodies, failures) := gatherBodies outcomes total
        (bodies, failures + 1)
      else
        let (bodies, failures) := gatherBodies outcomes (total + length)
        ((resource, response.body) :: bodies, failures)
    | .error _ =>
      let (bodies, failures) := gatherBodies outcomes total
      (bodies, failures + 1)

/-- The outcome of a bundle and every request it sent. -/
structure Bundle (U : Type) where
  result : Except BundleError FetchResult
  sent : List (HttpRequest U)

variable [CaseTables] (listed : Attrs → List (Text × Text))

/-- A page is rewritten when it is HTML with a body. -/
def isPage (document : FetchResult) : Bool :=
  "text/html".toList.isPrefixOf (document.contentType.map Char.toLower) && !document.body.isEmpty

/-- The resources of a fetched document, and the rewritten document. -/
def bundleDocument (world : BundleWorld) (cookieHeader : Text) (document : FetchResult) : Bundle U :=
  if world.cancelledAfterDocument || !isPage document then { result := .ok document, sent := [] }
  else
    match parseHtml document.body, parse (U := U) document.url with
    | .ok dom, .ok documentUrl =>
      let base := resolvedBase dom documentUrl
      let resources := collectExternalResources base maxExternalResources dom []
      let outcomes := fetchResources documentUrl cookieHeader resources world.subresources
      let sent := outcomes.flatMap (·.2.sent)
      if world.cancelledAfterSubresources then { result := .error .cancelled, sent }
      else
        let (bodies, failures) := gatherBodies outcomes 0
        let (dom, _) := injectExternalResources base dom bodies
        let headers := document.headers.insert "x-ghita-external-resource-failures".toList
          (toString failures).toList
        { result := .ok { document with body := dom.toHtml listed, headers }, sent }
    | .ok _, .error error => { result := .error (.url error), sent := [] }
    | _, _ => { result := .error .panicked, sent := [] }

def fetchDocumentBundle (world : BundleWorld) (url cookieHeader : Text) (maxRetries : Nat) :
    Bundle U :=
  let document := fetch (U := U) (navigationRequest url cookieHeader maxRetries) world.document
  match document.result with
  | .error error => { result := .error (.fetch error), sent := document.sent }
  | .ok response =>
    let bundle := bundleDocument listed world cookieHeader response
    { bundle with sent := document.sent ++ bundle.sent }

end

end GhitaBrowser.Net
