import GhitaBrowser.Html.ParserSafety
import GhitaBrowser.Net.Bundle

/-!
# Where the cookie of a document goes

Every hop looks at the origin of its own request. A subresource is a request of its own, so
its cookie depends on the origin it is compared with: that of the page that has arrived.
-/

namespace GhitaBrowser.Net

open UrlLibrary Html

section Law

variable {U : Type} [UrlLibrary U] [HttpLibrary] {sent : HttpRequest U}

/-! ## What a request sends -/

section Sending

variable {request : ScheduledRequest} {original : U}

def hopRequest (request : ScheduledRequest) (original current : U) : HttpRequest U :=
  { url := current, cookie := hopCookie request original current }

/-- A property of the record that each hop of a request keeps. -/
def Recorded (request : ScheduledRequest) (original : U) (P : List (HttpRequest U) → Prop) :
    Prop :=
  ∀ sent current, P sent → P (sent ++ [hopRequest request original current])

variable {P : List (HttpRequest U) → Prop} {maxBytes : Nat}

variable {Q : List (HttpRequest U) → Prop}

omit [UrlLibrary U] [HttpLibrary] in
theorem send_meets (h : ∀ before, P before → Q (before ++ [sent])) :
    Meets (fun wire : Wire U => P wire.sent) (send sent) (fun _ wire => Q wire.sent)
      fun wire => Q wire.sent := by
  rintro ⟨answers, before⟩ hbefore
  cases answers with
  | nil => exact h before hbefore
  | cons answer answers => cases answer <;> exact h before hbefore

omit [UrlLibrary U] [HttpLibrary] in
theorem fail_keeps {α : Type} (error : String) :
    Keeps (fun wire : Wire U => P wire.sent) (fail error : Transfer U α) := Keeps.throw _

omit [UrlLibrary U] [HttpLibrary] in
theorem readBody_keeps (chunks : List Chunk) (bytes : List UInt8) :
    Keeps (fun wire : Wire U => P wire.sent) (readBody maxBytes chunks bytes) := by
  induction chunks generalizing bytes with
  | nil => exact Keeps.pure _
  | cons chunk chunks ih =>
    cases chunk with
    | bytes chunk =>
      unfold readBody
      exact Keeps.ite (fail_keeps _) (ih _)
    | failed error => exact Keeps.throw _
    | dropped reason => exact Keeps.throw _

theorem finish_keeps (current : U) (reply : Reply) (setCookies : List (Text × Text)) :
    Keeps (fun wire : Wire U => P wire.sent)
      (finish request maxBytes current reply setCookies) := by
  unfold finish
  refine Keeps.ite (fail_keeps _) (Keeps.ite (fail_keeps _) ?_)
  refine Keeps.bind (readBody_keeps _ _) fun bytes => ?_
  split
  · exact Keeps.pure _
  · exact Keeps.throw _

omit [HttpLibrary] in
theorem redirectTarget_keeps (current : U) (reply : Reply) :
    Keeps (fun wire : Wire U => P wire.sent) (redirectTarget current reply) := by
  unfold redirectTarget
  split
  · exact fail_keeps _
  · split
    · exact Keeps.pure _
    · exact Keeps.throw _

/-- The hops from `current` on: the first establishes what the others keep. -/
theorem follow_meets (hkeep : Recorded request original P)
    (left : Nat) (current : U) (setCookies : List (Text × Text))
    (hfirst : ∀ before, Q before → P (before ++ [hopRequest request original current])) :
    Meets (fun wire : Wire U => Q wire.sent)
      (follow request maxBytes original left current setCookies)
      (fun _ wire => P wire.sent) fun wire => P wire.sent := by
  induction left generalizing current setCookies Q with
  | zero =>
    unfold follow
    refine Meets.bind (send_meets hfirst) fun reply => ?_
    refine Meets.ite (fun _ => ?_) fun _ => finish_keeps _ _ _
    exact Keeps.ite (Keeps.throw _) (Keeps.throw _)
  | succ left ih =>
    unfold follow
    refine Meets.bind (send_meets hfirst) fun reply => ?_
    refine Meets.ite (fun _ => ?_) fun _ => finish_keeps _ _ _
    refine Keeps.ite (Keeps.throw _) (Keeps.bind (redirectTarget_keeps _ _) fun next => ?_)
    exact ih _ _ fun before => hkeep before _

theorem executeOnce_meets (hkeep : Recorded request original P)
    (hurl : parse request.url = .ok original)
    (hfirst : ∀ before, Q before → P (before ++ [hopRequest request original original])) :
    Meets (fun wire : Wire U => Q wire.sent) (executeOnce request maxBytes)
      (fun _ wire => P wire.sent) fun wire => P wire.sent := by
  unfold executeOnce
  rw [hurl]
  exact follow_meets hkeep _ _ _ hfirst

theorem execute_meets (hkeep : Recorded request original P)
    (hurl : parse request.url = .ok original)
    (hfirst : ∀ before, Q before → P (before ++ [hopRequest request original original]))
    (retries : Nat) :
    Meets (fun wire : Wire U => Q wire.sent) (execute request maxBytes retries)
      (fun _ wire => P wire.sent) fun wire => P wire.sent := by
  induction retries generalizing Q with
  | zero => exact executeOnce_meets hkeep hurl hfirst
  | succ retries ih =>
    refine Meets.tryCatch (executeOnce_meets hkeep hurl hfirst) fun failure => ?_
    cases failure with
    | error error => exact Keeps.ite (ih fun before => hkeep before _) (Keeps.throw _)
    | dropped reason => exact Keeps.throw _

end Sending

/-! ## One fetch -/

section Fetching

variable {request : ScheduledRequest} {task : Task}

theorem fetch_sent_cases :
    (fetch (U := U) request task).sent = [] ∨
      ∃ original : U, parse request.url = .ok original ∧ isHttp original = true ∧
        task.refused = none ∧
        (fetch (U := U) request task).sent =
          (endState (execute request maxResponseBytes request.maxRetries)
            ({ answers := task.answers, sent := [] } : Wire U)).sent := by
  unfold fetch
  split
  · exact .inl rfl
  · next original hurl =>
    split
    · exact .inl rfl
    · next hhttp =>
      split
      · exact .inl rfl
      · next hrefused =>
        refine .inr ⟨original, hurl, by simpa using hhttp, hrefused, ?_⟩
        unfold endState
        split <;> simp_all

theorem fetch_guarded {original : U} (hurl : parse request.url = .ok original)
    (hsent : sent ∈ (fetch (U := U) request task).sent) {cookie : Text}
    (hcookie : sent.cookie = some cookie) :
    cookie = request.cookieHeader ∧ cookie ≠ [] ∧ sameOrigin original sent.url = true := by
  obtain hnil | ⟨original', hurl', -, -, hsame⟩ := @fetch_sent_cases U _ _ request task
  · rw [hnil] at hsent
    cases hsent
  · cases hurl.symm.trans hurl'
    rw [hsame] at hsent
    let P : List (HttpRequest U) → Prop := fun sent => ∀ r ∈ sent, ∀ cookie, r.cookie = some cookie →
      cookie = request.cookieHeader ∧ cookie ≠ [] ∧ sameOrigin original r.url = true
    have hhop : Recorded request original P := by
      intro before current hbefore r hr
      rw [List.mem_append, List.mem_singleton] at hr
      obtain hr | rfl := hr
      · exact hbefore r hr
      · intro cookie hcookie
        simp only [hopRequest, hopCookie, Option.ite_none_right_eq_some, Bool.and_eq_true,
          Option.some.injEq] at hcookie
        obtain ⟨⟨hsome, horigin⟩, rfl⟩ := hcookie
        exact ⟨rfl, by simpa using hsome, horigin⟩
    have hmeets := @execute_meets U _ _ request original _ maxResponseBytes _ hhop hurl
      (fun before => hhop before _) request.maxRetries
    exact (hmeets.endState (show P [] from nofun)).elim id id sent hsent cookie hcookie

/-- A fetch that runs sends its own URL first. -/
theorem fetch_sends {original : U} (hurl : parse request.url = .ok original)
    (hhttp : isHttp original = true) (hrefused : task.refused = none) :
    hopRequest request original original ∈ (fetch (U := U) request task).sent := by
  have hkeep : Recorded request original (hopRequest request original original ∈ ·) :=
    fun before current h => List.mem_append_left _ h
  have hfirst : ∀ before : List (HttpRequest U), True →
      hopRequest request original original ∈ before ++ [hopRequest request original original] :=
    fun before _ => by simp
  have hmeets := @execute_meets U _ _ request original _ maxResponseBytes _ hkeep hurl hfirst
    request.maxRetries
  have hend := (hmeets.endState (s := { answers := task.answers, sent := [] }) trivial).elim id id
  unfold fetch
  rw [hurl]
  simp only [hhttp, hrefused]
  unfold endState at hend
  revert hend
  cases execute request maxResponseBytes request.maxRetries
    ({ answers := task.answers, sent := [] } : Wire U) with
  | ok result wire => exact id
  | error failure wire => cases failure <;> exact id

end Fetching

/-! ## The bundle -/

/-- What is sent for the resources of a page. -/
theorem mem_resources_sent {documentUrl : U} {cookieHeader : Text}
    {resources : List ExternalResource} {tasks : List Task} :
    sent ∈ (fetchResources documentUrl cookieHeader resources tasks).flatMap (·.2.sent) ↔
      ∃ resource task, (resource, task) ∈ assignTasks resources tasks ∧
        sent ∈ (fetchResource documentUrl cookieHeader resource task).sent := by
  simp [fetchResources]

omit [HttpLibrary] in
/-- A resource is asked for with the cookie when it is on the origin of the page. -/
theorem resourceCookie_ne {documentUrl : U} {cookieHeader : Text} {resource : ExternalResource}
    {url : U} (hurl : parse resource.url = .ok url)
    (h : resourceCookie documentUrl cookieHeader resource ≠ []) :
    cookieHeader ≠ [] ∧ sameOrigin documentUrl url = true := by
  unfold resourceCookie at h
  rw [hurl] at h
  dsimp only at h
  split at h
  · exact ⟨h, ‹_›⟩
  · exact absurd rfl h

section Bundles

variable [CaseTables] (listed : Attrs → List (Text × Text))

/-- The cookie supplied for a document is sent to the origin of the document only. -/
def CookieStaysHome (url : Text) (sent : List (HttpRequest U)) : Prop :=
  ∀ original : U, parse url = .ok original →
    ∀ request ∈ sent, request.cookie.isSome → sameOrigin original request.url = true

/-- The page that has arrived: its URL and the resources that are fetched for it. -/
def pageResources (world : BundleWorld) (response : FetchResult) :
    Option (U × List ExternalResource) :=
  if world.cancelledAfterDocument || !isPage response then none
  else
    match parseHtml response.body, parse (U := U) response.url with
    | .ok dom, .ok documentUrl =>
      some (documentUrl,
        collectExternalResources (resolvedBase dom documentUrl) maxExternalResources dom [])
    | _, _ => none

omit [HttpLibrary] in
/-- A resource whose fetch runs is on the origin of the page. -/
def HasOwnResource (world : BundleWorld) (documentUrl : U) (resources : List ExternalResource) :
    Prop :=
  ∃ resource task, (resource, task) ∈ assignTasks resources world.subresources ∧
    task.refused = none ∧ ∃ url, parse resource.url = .ok url ∧ isHttp url = true ∧
      sameOrigin documentUrl url = true

/-- The document has left its origin for a page that asks for something of its own origin. -/
def Leaves (world : BundleWorld) (url cookieHeader : Text) (maxRetries : Nat) : Prop :=
  ∃ (original documentUrl : U) (response : FetchResult) (resources : List ExternalResource),
    parse url = .ok original ∧
    (fetch (U := U) (navigationRequest url cookieHeader maxRetries) world.document).result =
      .ok response ∧
    pageResources world response = some (documentUrl, resources) ∧
    sameOrigin original documentUrl = false ∧ HasOwnResource world documentUrl resources

theorem bundleDocument_sent (world : BundleWorld) (cookieHeader : Text) (response : FetchResult) :
    (bundleDocument (U := U) listed world cookieHeader response).sent =
      match pageResources (U := U) world response with
      | none => []
      | some (documentUrl, resources) =>
        (fetchResources documentUrl cookieHeader resources world.subresources).flatMap
          (·.2.sent) := by
  unfold bundleDocument pageResources
  split
  · rfl
  · cases parseHtml response.body with
    | ok dom =>
      cases parse (U := U) response.url with
      | ok documentUrl =>
        dsimp only
        split <;> rfl
      | error error => rfl
    | _ => rfl

/-- The cookie of the navigation goes to the origin of the page only, unless the document comes
from another origin and has resources of its own to load. -/
theorem fetchDocumentBundle_cookie (world : BundleWorld) (url cookieHeader : Text)
    (maxRetries : Nat) :
    CookieStaysHome (U := U) url
        (fetchDocumentBundle (U := U) listed world url cookieHeader maxRetries).sent ↔
      cookieHeader = [] ∨ ¬Leaves (U := U) world url cookieHeader maxRetries := by
  unfold fetchDocumentBundle
  dsimp only
  constructor
  · -- A page elsewhere takes the cookie along to its own resources.
    intro hhome
    rw [or_iff_not_imp_left]
    rintro hcookie ⟨original, documentUrl, response, resources, hurl, hresult, hpage, haway,
      resource, task, hassigned, hrefused, resourceUrl, hparse, hhttp, hown⟩
    rw [hresult] at hhome
    dsimp only at hhome
    have hheader : resourceCookie documentUrl cookieHeader resource = cookieHeader := by
      rw [resourceCookie, hparse]
      exact if_pos hown
    have hsent := @fetch_sends U _ _ (resourceRequest documentUrl cookieHeader resource) _ _ hparse
      hhttp hrefused
    have hmem : hopRequest (resourceRequest documentUrl cookieHeader resource) resourceUrl
        resourceUrl ∈
        (bundleDocument (U := U) listed world cookieHeader response).sent := by
      rw [bundleDocument_sent, hpage]
      exact mem_resources_sent.mpr ⟨resource, task, hassigned, hsent⟩
    have hsame := hhome original hurl _ (List.mem_append_right _ hmem) (by
      simp [hopRequest, hopCookie, resourceRequest, hheader, hcookie, sameOrigin_refl])
    have hback := sameOrigin_trans hsame (sameOrigin_symm hown)
    rw [haway] at hback
    cases hback
  · intro hstay original hurl sent hsent hcookie
    obtain ⟨cookie, hcookie⟩ := Option.isSome_iff_exists.mp hcookie
    have hdocument : ∀ {sent : HttpRequest U}, sent ∈ (fetch (U := U)
        (navigationRequest url cookieHeader maxRetries) world.document).sent →
        ∀ {cookie}, sent.cookie = some cookie → sameOrigin original sent.url = true :=
      fun hsent _ hcookie => (fetch_guarded hurl hsent hcookie).2.2
    cases hresult : (fetch (U := U) (navigationRequest url cookieHeader maxRetries)
        world.document).result with
    | error error =>
      rw [hresult] at hsent
      exact hdocument hsent hcookie
    | ok response =>
      rw [hresult] at hsent
      obtain hsent | hsent := List.mem_append.mp hsent
      · exact hdocument hsent hcookie
      · rw [bundleDocument_sent] at hsent
        cases hpage : pageResources (U := U) world response with
        | none =>
          rw [hpage] at hsent
          cases hsent
        | some page =>
          obtain ⟨documentUrl, resources⟩ := page
          rw [hpage] at hsent
          obtain ⟨resource, task, hassigned, hsent⟩ := mem_resources_sent.mp hsent
          obtain hnil | ⟨resourceUrl, hparse, hhttp, hrefused, -⟩ := @fetch_sent_cases U _ _
            (resourceRequest documentUrl cookieHeader resource) task
          · rw [fetchResource, hnil] at hsent
            cases hsent
          · obtain ⟨heq, hne, hhop⟩ := fetch_guarded hparse hsent hcookie
            obtain ⟨hheader, hown⟩ := resourceCookie_ne hparse (heq ▸ hne)
            have hpageHome : sameOrigin original documentUrl = true := by
              by_contra haway
              exact hstay.elim hheader fun h => h ⟨original, documentUrl, response, resources, hurl,
                hresult, hpage, by simpa using haway, resource, task, hassigned, hrefused,
                resourceUrl, hparse, hhttp, hown⟩
            exact sameOrigin_trans hpageHome (sameOrigin_trans hown hhop)

end Bundles

end Law

/-! ## A document that moves to another host -/

section Example

abbrev asciiHttp : HttpLibrary where
  decodeTextResponse bytes _ := .ok (bytes.map fun byte => Char.ofNat byte.toNat)
  displayStatus status := (toString status).toList

def asciiBytes (text : String) : List UInt8 := text.toList.map fun c => c.toNat.toUInt8

/-- `https://a.test/` redirects to a page of `b.test` with a script of its own. -/
def movedWorld : BundleWorld where
  document :=
    { refused := none
      answers := [
        .reply { status := 302, headers := [("location".toList, some "https://b.test/".toList)],
                 contentLength := none, body := [] },
        .reply { status := 200, headers := [("content-type".toList, some "text/html".toList)],
                 contentLength := none,
                 body := [.bytes (asciiBytes "<p>moved</p><script src=\"/track.js\"></script>")] }] }
  cancelledAfterDocument := false
  subresources := [{ refused := none, answers := [] }]
  cancelledAfterSubresources := false

theorem fetchDocumentBundle_moved :
    ¬CookieStaysHome "https://a.test/".toList
      (@fetchDocumentBundle PlainUrl _ asciiHttp asciiTables Std.ExtTreeMap.toList movedWorld
        "https://a.test/".toList "sid=1".toList 0).sent := by
  intro hhome
  have horigin := hhome ⟨"https".toList, "a.test".toList, "/".toList⟩ (by decide)
  revert horigin
  decide +kernel

end Example

end GhitaBrowser.Net
