import GhitaBrowser.Net.FetchLaw

/-!
# What goes over the wire

The record of a run lists every message when it leaves, answered or not. A property of the
messages is a relation between what was on the wire before a message and the message.
-/

namespace GhitaBrowser.Net

open UrlLibrary Html Storage FetchRuntime

section

variable {U : Type}

/-- Every message stands in a relation to what was on the wire before it. -/
def EverySend (R : List (Traffic U) → Outbound U → Prop) (traffic : List (Traffic U)) : Prop :=
  ∀ before message after, traffic = before ++ .sends message :: after → R before message

variable {R : List (Traffic U) → Outbound U → Prop}

theorem everySend_nil : EverySend R [] :=
  fun _ _ _ h => absurd h.symm (by simp)

variable {traffic : List (Traffic U)}

theorem everySend_concat {last : Traffic U} (h : EverySend R traffic)
    (hlast : ∀ message, last = .sends message → R traffic message) :
    EverySend R (traffic ++ [last]) := by
  intro before message after heq
  obtain rfl | ⟨after, final, rfl⟩ := List.eq_nil_or_concat after
  · obtain ⟨rfl, hmessage⟩ := List.append_inj' heq rfl
    exact hlast message (List.singleton_inj.1 hmessage)
  · rw [List.concat_eq_append, ← List.cons_append, ← List.append_assoc] at heq
    exact h before message after (List.append_inj' heq rfl).1

theorem everySend_receives
    (h : EverySend R traffic) (sent : SentHttp U) : EverySend R (traffic ++ [.receives sent]) :=
  everySend_concat h nofun

theorem everySend_sends
    (h : EverySend R traffic) {message : Outbound U} (hmessage : R traffic message) :
    EverySend R (traffic ++ [.sends message]) :=
  everySend_concat h fun other hother => by cases hother; exact hmessage

/-! ## Headers of a message -/

variable {header : Text × Text}

theorem mem_setHeader {headers : List (Text × Text)} {name value : Text}
    (h : header ∈ setHeader headers name value) : header ∈ headers ∨ header = (name, value) :=
  (List.mem_append.1 h).imp (fun hmem => (List.mem_filter.1 hmem).1) List.mem_singleton.1

theorem mem_setHeaders {pairs headers : List (Text × Text)}
    (h : header ∈ pairs.foldl (fun headers (name, value) => setHeader headers name value) headers) :
    header ∈ headers ∨ header ∈ pairs := by
  induction pairs generalizing headers with
  | nil => exact .inl h
  | cons pair pairs ih =>
    obtain h | h := ih h
    · refine (mem_setHeader h).imp_right fun heq => ?_
      rw [heq]
      exact List.mem_cons_self ..
    · exact .inr (List.mem_cons_of_mem _ h)

theorem mem_outboundHeaders {options : HttpRequestOptions} (h : header ∈ outboundHeaders options) :
    header ∈ options.headers.pairs ∧
        (options.browserGeneratedHeaders = true ∨ isForbiddenRequestHeader header.1 = false) ∨
      (header.1 = "cookie".toList ∧ options.cookie = some header.2) ∨
      (header.1 = "origin".toList ∧ options.origin = some header.2) := by
  have hpairs (h : header ∈ (options.headers.pairs.filter fun (name, _) =>
      options.browserGeneratedHeaders || !isForbiddenRequestHeader name).foldl
        (fun headers (name, value) => setHeader headers name value) []) :
      header ∈ options.headers.pairs ∧
        (options.browserGeneratedHeaders = true ∨ isForbiddenRequestHeader header.1 = false) := by
    obtain h | h := mem_setHeaders h
    · cases h
    · obtain ⟨hmem, hpass⟩ := List.mem_filter.1 h
      exact ⟨hmem, by simpa using hpass⟩
  unfold outboundHeaders at h
  rcases hcookie : options.cookie with _ | cookie <;> rcases horigin : options.origin with _ | origin <;>
    rw [hcookie, horigin] at h <;> dsimp only at h
  · exact .inl (hpairs h)
  · obtain h | heq := mem_setHeader h
    · exact .inl (hpairs h)
    · exact .inr (.inr ⟨by rw [heq], by rw [heq]⟩)
  · obtain h | heq := mem_setHeader h
    · exact .inl (hpairs h)
    · exact .inr (.inl ⟨by rw [heq], by rw [heq]⟩)
  · obtain h | heq := mem_setHeader h
    · obtain h | heq := mem_setHeader h
      · exact .inl (hpairs h)
      · exact .inr (.inl ⟨by rw [heq], by rw [heq]⟩)
    · exact .inr (.inr ⟨by rw [heq], by rw [heq]⟩)

variable [UrlLibrary U]

/-! ## Redirects -/

/-- The request that a redirect makes. -/
def redirected (hop : Hop U) (moved : Bool) (status : Nat) : WebRequest U :=
  redirectMethod (if moved then { hop.request with headers := dropAuthorization hop.request.headers }
    else hop.request) status

theorem nextHop_spec {hop next : Hop U} {target : Origin} {status : Nat} {location : Text}
    (h : nextHop hop target status location = .ok next) :
    ∃ origin, Origin.fromUrl next.current = .ok origin ∧
      next.request = redirected hop (origin != target) status ∧
      next.tainted = (hop.tainted || origin != target) := by
  unfold nextHop at h
  split at h
  · cases h
  · next url hjoin =>
    cases horigin : Origin.fromUrl url with
    | error error =>
      rw [horigin] at h
      cases h
    | ok origin =>
      rw [horigin] at h
      obtain rfl := Except.ok.inj h
      exact ⟨origin, horigin, rfl, rfl⟩

omit [UrlLibrary U] in
theorem redirectMethod_continues (request : WebRequest U) (status : Nat) :
    Continues request (redirectMethod request status) := by
  by_cases h : (status == 303 || ((status == 301 || status == 302) &&
      request.method == "POST".toList)) = true
  · rw [redirectMethod, if_pos h]
    exact ⟨rfl, rfl, rfl⟩
  · rw [redirectMethod, if_neg h]
    exact ⟨rfl, rfl, rfl⟩

omit [UrlLibrary U] in
theorem redirected_continues (hop : Hop U) (moved : Bool) (status : Nat) :
    Continues hop.request (redirected hop moved status) := by
  cases moved with
  | false => exact redirectMethod_continues hop.request status
  | true =>
    have h := redirectMethod_continues
      { hop.request with headers := dropAuthorization hop.request.headers } status
    exact ⟨h.mode, h.credentials, h.redirect⟩

end

end GhitaBrowser.Net
