import Mathlib.Data.List.Nodup
import Mathlib.Data.List.Perm.Subperm
import GhitaBrowser.Net.FetchLaw
import GhitaBrowser.Net.FetchQueue

/-!
# Promises of fetches

Fetches settle once and in order. The table of promises is as it should be as long as no object
reads a settled promise, which then stays, and no task settles a promise that has been taken,
which then comes back.
-/

namespace GhitaBrowser.Net

open UrlLibrary Html Storage List

/-! ## Records -/

/-- The ids of the events of one kind. -/
def acceptedIds (record : List FetchEvent) : List Nat :=
  record.filterMap fun | .accepted id => some id | _ => none

def settledIds (record : List FetchEvent) : List Nat :=
  record.filterMap fun | .settled id => some id | _ => none

def takenIds (record : List FetchEvent) : List Nat :=
  record.filterMap fun | .taken id => some id | _ => none

def polledIds (record : List FetchEvent) : List Nat :=
  record.filterMap fun | .polled id => some id | _ => none

section

variable (record more : List FetchEvent)

@[simp] theorem acceptedIds_append :
    acceptedIds (record ++ more) = acceptedIds record ++ acceptedIds more := filterMap_append

@[simp] theorem settledIds_append :
    settledIds (record ++ more) = settledIds record ++ settledIds more := filterMap_append

@[simp] theorem takenIds_append :
    takenIds (record ++ more) = takenIds record ++ takenIds more := filterMap_append

@[simp] theorem polledIds_append :
    polledIds (record ++ more) = polledIds record ++ polledIds more := filterMap_append

@[simp] theorem acceptedIds_single (event : FetchEvent) :
    acceptedIds [event] = match event with | .accepted id => [id] | _ => [] := by cases event <;> rfl

@[simp] theorem settledIds_single (event : FetchEvent) :
    settledIds [event] = match event with | .settled id => [id] | _ => [] := by cases event <;> rfl

@[simp] theorem takenIds_single (event : FetchEvent) :
    takenIds [event] = match event with | .taken id => [id] | _ => [] := by cases event <;> rfl

@[simp] theorem polledIds_single (event : FetchEvent) :
    polledIds [event] = match event with | .polled id => [id] | _ => [] := by cases event <;> rfl

variable (ids : List Nat)

@[simp] theorem acceptedIds_settled : acceptedIds (ids.map .settled) = [] := by
  induction ids <;> simp_all [acceptedIds]

@[simp] theorem settledIds_settled : settledIds (ids.map .settled) = ids := by
  induction ids <;> simp_all [settledIds]

@[simp] theorem takenIds_settled : takenIds (ids.map .settled) = [] := by
  induction ids <;> simp_all [takenIds]

@[simp] theorem polledIds_settled : polledIds (ids.map .settled) = [] := by
  induction ids <;> simp_all [polledIds]

end

/-! ## The runtime -/

section

variable {U : Type}

/-- What a run of the first tasks changes: they leave the queue, and their promises settle. -/
structure Settles (done : List (PendingFetch U)) (before after : FetchRuntime U) : Prop where
  queue : before.queue = done ++ after.queue
  nextPromise : after.nextPromise = before.nextPromise
  others : ∀ id, id ∉ PendingFetch.ids done → after.promises[id]? = before.promises[id]?
  settled : ∀ id ∈ PendingFetch.ids done, ∃ state, state ≠ .pending ∧ after.promises[id]? = some state

theorem settles_nil (runtime : FetchRuntime U) : Settles [] runtime runtime :=
  ⟨rfl, rfl, fun _ _ => rfl, nofun⟩

theorem Settles.cons {pending : PendingFetch U} {done : List (PendingFetch U)}
    {before middle after : FetchRuntime U} (h : Settles [pending] before middle)
    (h' : Settles done middle after) : Settles (pending :: done) before after where
  queue := by rw [h.queue, h'.queue]; rfl
  nextPromise := h'.nextPromise.trans h.nextPromise
  others id hid := by
    rw [PendingFetch.ids, map_cons, mem_cons, not_or] at hid
    exact (h'.others id hid.2).trans (h.others id (by simpa [PendingFetch.ids] using hid.1))
  settled id hid := by
    by_cases hlater : id ∈ PendingFetch.ids done
    · exact h'.settled id hlater
    · rw [h'.others id hlater]
      refine h.settled id ?_
      rw [PendingFetch.ids, map_cons, mem_cons] at hid
      simpa [PendingFetch.ids] using hid.resolve_right hlater

namespace FetchRuntime

section

variable [UrlLibrary U]

/-- What `fetch` changes where it accepts a request. -/
theorem fetch_ok {runtime next : FetchRuntime U} {request : WebRequest U} {signal : Option Nat}
    {id : Nat} (h : runtime.fetch request signal = (.ok id, next)) :
    id = runtime.nextPromise ∧ next = { runtime with
      nextPromise := id + 1
      promises := runtime.promises.insert id .pending
      queue := runtime.queue ++ [{ id, request, signal }] } := by
  unfold fetch at h
  split at h
  · cases h
  split at h
  · cases h
  split at h
  · cases h
  · cases h
    exact ⟨rfl, rfl⟩

theorem fetch_error {runtime next : FetchRuntime U} {request : WebRequest U} {signal : Option Nat}
    {error : FetchError} (h : runtime.fetch request signal = (.error error, next)) :
    next = runtime := by
  unfold fetch at h
  split at h
  · cases h; rfl
  split at h
  · cases h; rfl
  split at h
  · cases h; rfl
  · cases h

theorem validateRequest_budget (request : WebRequest U) :
    validateRequest request ≠ .error budgetExceeded := by
  have horigin : Origin.fromUrl request.url ≠ .error budgetExceeded := by
    unfold Origin.fromUrl
    split
    · simp [budgetExceeded]
    · split <;> simp [budgetExceeded]
  have hmethod : validateMethod request.method ≠ .error budgetExceeded := by
    unfold validateMethod
    split <;> simp [budgetExceeded]
  unfold validateRequest
  split
  · simp [budgetExceeded]
  · cases hparts : Origin.fromUrl request.url with
    | error error => exact fun h => horigin (hparts.trans (congrArg _ (Except.error.inj h)))
    | ok origin =>
      cases hvalid : validateMethod request.method with
      | error error => exact fun h => hmethod (hvalid.trans (congrArg _ (Except.error.inj h)))
      | ok =>
        simp only [bind, Except.bind]
        split
        · simp [budgetExceeded]
        · split <;> simp [budgetExceeded]

/-- A fetch is refused for the budget only where the queue or the table is full. -/
theorem fetch_refused {runtime : FetchRuntime U} {request : WebRequest U} {signal : Option Nat}
    (h : (runtime.fetch request signal).1 = .error budgetExceeded) :
    maxFetchTasks ≤ runtime.queue.length ∨ maxPromises ≤ runtime.promises.size := by
  unfold fetch at h
  split at h
  · next error hvalid =>
    exact absurd (hvalid.trans (congrArg _ (Except.error.inj h))) (validateRequest_budget request)
  split at h
  · assumption
  split at h
  · simp [budgetExceeded] at h
  · cases h

end

theorem takePromise_spec (runtime : FetchRuntime U) (id other : Nat) :
    (runtime.takePromise id).2.promises[other]? =
      if other = id then none else runtime.promises[other]? := by
  rw [takePromise, Std.ExtTreeMap.getElem?_erase]
  exact if_congr (Nat.compare_eq_eq.trans eq_comm) rfl rfl

variable [UrlLibrary U] [PublicSuffixList] [DateLibrary] [CaseTables]
  {visited : CookieStore → List (Text × Cookie)} {aborted : List Nat}

theorem executePending_settles (visited : CookieStore → List (Text × Cookie)) (aborted : List Nat)
    (runtime : FetchRuntime U) (pending : PendingFetch U) (network : Network) :
    (executePending visited aborted runtime pending network).1 ≠ .pending := by
  unfold executePending
  dsimp only
  split <;> exact nofun

variable {runtime next : FetchRuntime U}

theorem runOne_spec {network : Network} {completed : Bool}
    (h : runtime.runOne visited aborted network = (completed, next)) :
    Settles (runtime.queue.take completed.toNat) runtime next := by
  unfold runOne at h
  split at h
  · next hqueue =>
    cases h
    exact settles_nil runtime
  · next pending queue hqueue =>
    have hsettles := executePending_settles visited aborted runtime pending network
    cases h
    rw [hqueue]
    refine ⟨hqueue, rfl, fun id hid => ?_, fun id hid => ⟨_, hsettles, ?_⟩⟩
    · rw [Std.ExtTreeMap.getElem?_insert, if_neg]
      rw [Nat.compare_eq_eq]
      exact fun heq => hid (mem_singleton.2 heq.symm)
    · rw [Std.ExtTreeMap.getElem?_insert, if_pos (Nat.compare_eq_eq.2 (mem_singleton.1 hid).symm)]
      rfl

theorem runOne_completed {network : Network} {completed : Bool}
    (h : runtime.runOne visited aborted network = (completed, next)) :
    completed.toNat = min 1 runtime.queue.length := by
  unfold runOne at h
  split at h
  · next hqueue =>
    cases h
    rw [hqueue]
    rfl
  · next pending queue hqueue =>
    cases h
    simp [hqueue]

/-- The loop runs the first tasks, as many as it may or as there are. -/
theorem drainFrom_spec {left completed : Nat} {networks : Nat → Network}
    (h : drainFrom visited aborted left runtime networks = (completed, next)) :
    completed = min left runtime.queue.length ∧
      Settles (runtime.queue.take completed) runtime next := by
  induction left generalizing runtime networks completed with
  | zero =>
    cases h
    exact ⟨(Nat.zero_min _).symm, settles_nil _⟩
  | succ left ih =>
    unfold drainFrom at h
    cases hfirst : runtime.runOne visited aborted (networks 0) with
    | mk more middle =>
      rw [hfirst] at h
      have hrun := runOne_spec hfirst
      have hcount := runOne_completed hfirst
      cases more with
      | false =>
        cases h
        have hempty : runtime.queue = [] := by
          cases hqueue : runtime.queue with
          | nil => rfl
          | cons pending queue => simp [hqueue] at hcount
        rw [hempty] at hrun ⊢
        exact ⟨rfl, hrun⟩
      | true =>
        dsimp only at h
        cases hrest : drainFrom visited aborted left middle fun n => networks (n + 1) with
        | mk others after =>
          rw [hrest] at h
          cases h
          obtain ⟨hothers, hsettles⟩ := ih hrest
          cases hqueue : runtime.queue with
          | nil => simp [hqueue] at hcount
          | cons pending queue =>
            rw [hqueue] at hrun
            have hmiddle : queue = middle.queue := by simpa [hqueue] using hrun.queue
            refine ⟨?_, ?_⟩
            · rw [hothers, ← hmiddle, length_cons, Nat.add_min_add_right]
            · rw [take_succ_cons, hmiddle]
              exact hrun.cons hsettles

end FetchRuntime

/-! ## Pages -/

def Page.queuedIds (page : Page U) : List Nat := PendingFetch.ids page.runtime.queue

/-- The accepted fetches that nothing has consumed. -/
def Page.outstanding (page : Page U) : List Nat :=
  (acceptedIds page.record).filter fun id =>
    !(takenIds page.record).contains id && !(polledIds page.record).contains id

/-- A page whose queue and table are as they should be: every accepted fetch has settled once or
is in the queue, what was taken stays away, the table has pending fetches and settled ones that
are not consumed, and the budget refuses only where so many are outstanding. -/
structure Orderly [UrlLibrary U] (page : Page U) : Prop where
  settles : acceptedIds page.record = settledIds page.record ++ page.queuedIds ∧
    (acceptedIds page.record).Nodup
  taken : ∀ id ∈ takenIds page.record, page.runtime.promise id = none
  table : ∀ id state, page.runtime.promise id = some state →
    state = .pending ∧ id ∈ page.queuedIds ∨
      state ≠ .pending ∧ id ∈ settledIds page.record ∧ id ∉ takenIds page.record ∧
        id ∉ polledIds page.record
  room : ∀ request signal,
    (page.runtime.fetch request signal).1 = .error FetchRuntime.budgetExceeded →
      maxFetchTasks ≤ page.queuedIds.length ∨ maxPromises ≤ page.outstanding.length

/-- A task that runs has its promise in the table still, and an object reads no settled one. -/
def Sparing (page : Page U) : PageAction U → Prop
  | .runOne _ => ∀ pending ∈ page.runtime.queue.take 1, pending.id ∈ page.runtime.promises
  | .drain budget _ =>
    ∀ pending ∈ page.runtime.queue.take (min budget maxFetchTasks),
      pending.id ∈ page.runtime.promises
  | .poll xhr => ∀ state, (page.xhrs xhr).promise.bind page.runtime.promise = some state →
      state = .pending
  | _ => True

/-- What holds of every page. -/
structure Consistent (page : Page U) : Prop where
  order : acceptedIds page.record = settledIds page.record ++ page.queuedIds
  sorted : (acceptedIds page.record).Pairwise (· < ·)
  below : ∀ id ∈ acceptedIds page.record, id < page.runtime.nextPromise
  pending : ∀ id, page.runtime.promises[id]? = some .pending → id ∈ page.queuedIds
  entries : ∀ id state, page.runtime.promises[id]? = some state → state ≠ .pending →
    id ∈ settledIds page.record
  queued : ∀ id ∈ page.queuedIds, page.runtime.promises[id]? = some .pending ∨
    id ∈ takenIds page.record
  taken : ∀ id ∈ takenIds page.record, id ∈ acceptedIds page.record
  polled : ∀ id ∈ polledIds page.record, id ∈ settledIds page.record

/-- What was consumed is not in the table. -/
def Clean (page : Page U) : Prop :=
  ∀ id, id ∈ takenIds page.record ∨ id ∈ polledIds page.record → page.runtime.promises[id]? = none

theorem Consistent.nodup {page : Page U} (h : Consistent page) : (acceptedIds page.record).Nodup :=
  h.sorted.imp Nat.ne_of_lt

theorem Consistent.settled_notMem {page : Page U} (h : Consistent page) {id : Nat}
    (hid : id ∈ settledIds page.record) : id ∉ page.queuedIds := by
  have hnodup := h.nodup
  rw [h.order] at hnodup
  exact disjoint_of_nodup_append hnodup hid

theorem Consistent.known {page : Page U} (h : Consistent page) {id : Nat} {state : FetchPromiseState}
    (hstate : page.runtime.promises[id]? = some state) : id ∈ acceptedIds page.record := by
  rw [h.order, mem_append]
  by_cases hpending : state = .pending
  · exact .inr (h.pending id (hpending ▸ hstate))
  · exact .inl (h.entries id state hstate hpending)

theorem Consistent.size_le {page : Page U} (h : Consistent page) (hclean : Clean page) :
    page.runtime.promises.size ≤ page.outstanding.length := by
  rw [← Std.ExtTreeMap.length_keys]
  refine (subperm_of_subset Std.ExtTreeMap.nodup_keys fun id hid => ?_).length_le
  obtain ⟨state, hstate⟩ := Option.isSome_iff_exists.1
    (Std.ExtTreeMap.mem_iff_isSome_getElem?.1 (Std.ExtTreeMap.mem_keys.1 hid))
  have hnot : ¬(id ∈ takenIds page.record ∨ id ∈ polledIds page.record) := fun hconsumed => by
    rw [hclean id hconsumed] at hstate
    cases hstate
  rw [not_or] at hnot
  exact mem_filter.2 ⟨h.known hstate, by simp [hnot.1, hnot.2]⟩

theorem orderly_iff [UrlLibrary U] {page : Page U} (h : Consistent page) :
    Orderly page ↔ Clean page := by
  constructor
  · rintro horderly id (htaken | hpolled)
    · exact horderly.taken id htaken
    · cases hstate : page.runtime.promises[id]? with
      | none => rfl
      | some state =>
        obtain ⟨-, hqueued⟩ | ⟨-, -, -, hnot⟩ := horderly.table id state hstate
        · exact absurd hqueued (h.settled_notMem (h.polled id hpolled))
        · exact absurd hpolled hnot
  · intro hclean
    refine ⟨⟨h.order, h.nodup⟩, fun id htaken => hclean id (.inl htaken), fun id state hstate => ?_,
      fun request signal hrefused => ?_⟩
    · by_cases hpending : state = .pending
      · exact .inl ⟨hpending, h.pending id (hpending ▸ hstate)⟩
      · have hnot : ¬(id ∈ takenIds page.record ∨ id ∈ polledIds page.record) := fun hconsumed => by
          have hnone := hclean id hconsumed
          rw [← FetchRuntime.promise, hstate] at hnone
          cases hnone
        rw [not_or] at hnot
        exact .inr ⟨hpending, h.entries id state hstate hpending, hnot⟩
    · refine (FetchRuntime.fetch_refused hrefused).imp (fun hqueue => ?_) fun htable =>
        Nat.le_trans htable (h.size_le hclean)
      rwa [Page.queuedIds, PendingFetch.ids, length_map]

/-! ## Steps -/

/-- What a step does to the runtime and the record, and when it keeps the table clean. -/
inductive Change (page after : Page U) : Prop → Prop where
  | idle : after.runtime.queue = page.runtime.queue →
    after.runtime.nextPromise = page.runtime.nextPromise →
    (∀ id : Nat, after.runtime.promises[id]? = page.runtime.promises[id]?) →
    after.record = page.record → Change page after True
  | accepts (pending : PendingFetch U) : pending.id = page.runtime.nextPromise →
    after.runtime.queue = page.runtime.queue ++ [pending] →
    after.runtime.nextPromise = pending.id + 1 →
    (∀ id : Nat, after.runtime.promises[id]? =
      if id = pending.id then some .pending else page.runtime.promises[id]?) →
    after.record = page.record ++ [.accepted pending.id] → Change page after True
  | settles (done : List (PendingFetch U)) : Settles done page.runtime after.runtime →
    after.record = page.record ++ (PendingFetch.ids done).map .settled →
    Change page after (∀ pending ∈ done, pending.id ∈ page.runtime.promises)
  | takes (id : Nat) (state : FetchPromiseState) : page.runtime.promises[id]? = some state →
    after.runtime.queue = page.runtime.queue →
    after.runtime.nextPromise = page.runtime.nextPromise →
    (∀ other : Nat, after.runtime.promises[other]? =
      if other = id then none else page.runtime.promises[other]?) →
    after.record = page.record ++ [.taken id] → Change page after True
  | polls (id : Nat) (state : FetchPromiseState) : page.runtime.promises[id]? = some state →
    state ≠ .pending → after.runtime = page.runtime →
    after.record = page.record ++ [.polled id] → Change page after False

theorem change_refl (page : Page U) : Change page page True := .idle rfl rfl (fun _ => rfl) rfl

theorem change_putXhr {page : Page U} {xhr : Nat} {object : XmlHttpRequest U} :
    Change page (page.putXhr xhr object) True := .idle rfl rfl (fun _ => rfl) rfl

theorem fetch_change [UrlLibrary U] {page after : Page U} {request : WebRequest U}
    {signal : Option Nat} {id : Nat} {runtime : FetchRuntime U}
    (h : page.runtime.fetch request signal = (.ok id, runtime))
    (hruntime : after.runtime = runtime) (hrecord : after.record = page.record ++ [.accepted id]) :
    Change page after True := by
  obtain ⟨rfl, rfl⟩ := FetchRuntime.fetch_ok h
  refine .accepts { id := _, request, signal } rfl ?_ ?_ (fun id => ?_) hrecord <;> rw [hruntime]
  exact (Std.ExtTreeMap.getElem?_insert).trans (if_congr (Nat.compare_eq_eq.trans eq_comm) rfl rfl)

section

variable [UrlLibrary U] [PublicSuffixList] [DateLibrary] [CaseTables]
  (visited : CookieStore → List (Text × Cookie))

theorem send_change (page : Page U) (xhr : Nat) (body : Option (List UInt8)) :
    Change page (page.step visited (.send xhr body)) True := by
  unfold Page.step
  dsimp only
  generalize page.xhrs xhr = object
  unfold XmlHttpRequest.send
  split
  · next hsend =>
    split at hsend
    · cases hsend
    split at hsend
    · cases hsend
    dsimp only at hsend
    split at hsend
    · cases hsend
    split at hsend
    · cases hsend
    · next hfetch =>
      cases hsend
      exact fetch_change hfetch rfl rfl
  · next error object' runtime hsend =>
    have hruntime : runtime = page.runtime := by
      split at hsend
      · cases hsend; rfl
      split at hsend
      · cases hsend; rfl
      dsimp only at hsend
      split at hsend
      · cases hsend; rfl
      split at hsend
      · next hfetch =>
        cases hsend
        exact FetchRuntime.fetch_error hfetch
      · cases hsend
    rw [hruntime]
    exact change_putXhr

theorem poll_change (page : Page U) (xhr : Nat) :
    ∃ spared, Change page (page.step visited (.poll xhr)) spared ∧
      (Sparing page (.poll xhr) ↔ spared) := by
  unfold Page.step Sparing
  dsimp only
  cases hpromise : (page.xhrs xhr).promise.bind page.runtime.promise with
  | none =>
    refine ⟨True, ?_, by simp⟩
    unfold XmlHttpRequest.poll
    rw [hpromise]
    exact change_putXhr
  | some state =>
    obtain ⟨id, hid, hstate⟩ := Option.bind_eq_some_iff.1 hpromise
    by_cases hpending : state = .pending
    · refine ⟨True, ?_, by simp [hpending]⟩
      unfold XmlHttpRequest.poll
      rw [hpromise, hpending]
      exact change_putXhr
    · refine ⟨False, ?_, by simp [hpending]⟩
      have hpoll : (page.xhrs xhr).poll page.runtime = (true, (page.xhrs xhr).settle state) := by
        unfold XmlHttpRequest.poll
        rw [hpromise]
        split
        · next hnone => cases hnone
        · next hsome => exact absurd (Option.some.inj hsome) hpending
        · next hsome => rw [Option.some.inj hsome]
      rw [hpoll, hid]
      exact .polls id state hstate hpending rfl rfl

theorem step_change (page : Page U) (action : PageAction U) :
    ∃ spared, Change page (page.step visited action) spared ∧ (Sparing page action ↔ spared) := by
  cases action with
  | fetch request =>
    refine ⟨True, ?_, Iff.rfl⟩
    unfold Page.step
    dsimp only
    split
    · next hfetch => exact fetch_change hfetch rfl rfl
    · next hfetch =>
      rw [FetchRuntime.fetch_error hfetch]
      exact change_refl page
  | runOne network =>
    refine ⟨_, ?_, Iff.rfl⟩
    unfold Page.step
    dsimp only
    cases hrun : page.runtime.runOne visited page.aborted network with
    | mk completed runtime =>
      have htake : page.runtime.queue.take completed.toNat = page.runtime.queue.take 1 := by
        rw [FetchRuntime.runOne_completed hrun, ← take_eq_take_min]
      have hsettles := FetchRuntime.runOne_spec hrun
      rw [htake] at hsettles ⊢
      exact .settles _ hsettles rfl
  | drain budget networks =>
    refine ⟨_, ?_, Iff.rfl⟩
    unfold Page.step
    dsimp only
    cases hrun : page.runtime.drain visited page.aborted budget networks with
    | mk completed runtime =>
      obtain ⟨hcount, hsettles⟩ := FetchRuntime.drainFrom_spec hrun
      rw [hcount, ← take_eq_take_min] at hsettles ⊢
      exact .settles _ hsettles rfl
  | takePromise id =>
    refine ⟨True, ?_, Iff.rfl⟩
    have hspec := page.runtime.takePromise_spec id
    unfold Page.step
    dsimp only
    cases hstate : page.runtime.promises[id]? with
    | none =>
      have htake : page.runtime.takePromise id = (none, (page.runtime.takePromise id).2) :=
        Prod.ext hstate rfl
      rw [htake]
      refine .idle rfl rfl (fun other => (hspec other).trans ?_) rfl
      split
      · next heq => rw [heq, hstate]
      · rfl
    | some state =>
      have htake : page.runtime.takePromise id = (some state, (page.runtime.takePromise id).2) :=
        Prod.ext hstate rfl
      rw [htake]
      exact .takes id state hstate rfl rfl hspec rfl
  | openRequest xhr method url =>
    refine ⟨True, ?_, Iff.rfl⟩
    unfold Page.step
    dsimp only
    split
    · exact .idle rfl rfl (fun _ => rfl) rfl
    · exact change_refl page
  | setRequestHeader xhr name value =>
    refine ⟨True, ?_, Iff.rfl⟩
    unfold Page.step
    dsimp only
    split
    · exact change_putXhr
    · exact change_refl page
  | setWithCredentials xhr withCredentials => exact ⟨True, change_putXhr, Iff.rfl⟩
  | send xhr body => exact ⟨True, send_change visited page xhr body, Iff.rfl⟩
  | poll xhr => exact poll_change visited page xhr
  | abort xhr => exact ⟨True, .idle rfl rfl (fun _ => rfl) rfl, Iff.rfl⟩

end

/-! ## Steps of a consistent page -/

section

variable {page after : Page U} {spared : Prop}

theorem Consistent.accepts (h : Consistent page) {pending : PendingFetch U}
    (hid : pending.id = page.runtime.nextPromise)
    (hqueue : after.runtime.queue = page.runtime.queue ++ [pending])
    (hnext : after.runtime.nextPromise = pending.id + 1)
    (hpromises : ∀ id : Nat, after.runtime.promises[id]? =
      if id = pending.id then some .pending else page.runtime.promises[id]?)
    (hrecord : after.record = page.record ++ [.accepted pending.id]) : Consistent after := by
  have hqueued : after.queuedIds = page.queuedIds ++ [pending.id] := by
    rw [Page.queuedIds, hqueue, PendingFetch.ids, map_append]
    rfl
  have haccepted : acceptedIds after.record = acceptedIds page.record ++ [pending.id] := by simp [hrecord]
  have hsettled : settledIds after.record = settledIds page.record := by simp [hrecord]
  have htaken : takenIds after.record = takenIds page.record := by simp [hrecord]
  have hpolled : polledIds after.record = polledIds page.record := by simp [hrecord]
  refine ⟨?_, ?_, fun id hmem => ?_, fun id hpending => ?_, fun id state hstate hne => ?_,
    fun id hmem => ?_, fun id hmem => ?_, ?_⟩
  · rw [haccepted, hsettled, hqueued, h.order, append_assoc]
  · rw [haccepted, pairwise_append]
    refine ⟨h.sorted, pairwise_singleton _ _, fun id hmem last hlast => ?_⟩
    rw [mem_singleton.1 hlast, hid]
    exact h.below id hmem
  · rw [haccepted, mem_append, mem_singleton] at hmem
    rw [hnext, hid]
    obtain hmem | rfl := hmem
    · exact Nat.lt_succ_of_lt (h.below id hmem)
    · rw [hid]
      exact Nat.lt_succ_self _
  · rw [hqueued, mem_append, mem_singleton]
    rw [hpromises] at hpending
    split at hpending
    · next heq => exact .inr heq
    · exact .inl (h.pending id hpending)
  · rw [hsettled]
    rw [hpromises] at hstate
    split at hstate
    · exact absurd (Option.some.inj hstate).symm hne
    · exact h.entries id state hstate hne
  · rw [hqueued, mem_append, mem_singleton] at hmem
    rw [hpromises, htaken]
    split
    · exact .inl rfl
    · next hne => exact h.queued id (hmem.resolve_right hne)
  · rw [htaken] at hmem
    rw [haccepted]
    exact mem_append_left _ (h.taken id hmem)
  · rw [hpolled, hsettled]
    exact h.polled

theorem Consistent.settles (h : Consistent page) {done : List (PendingFetch U)}
    (hsettles : Settles done page.runtime after.runtime)
    (hrecord : after.record = page.record ++ (PendingFetch.ids done).map .settled) :
    Consistent after := by
  have hqueued : page.queuedIds = PendingFetch.ids done ++ after.queuedIds := by
    rw [Page.queuedIds, hsettles.queue, PendingFetch.ids, map_append]
    rfl
  have haccepted : acceptedIds after.record = acceptedIds page.record := by simp [hrecord]
  have hsettled : settledIds after.record = settledIds page.record ++ PendingFetch.ids done := by
    simp [hrecord]
  have htaken : takenIds after.record = takenIds page.record := by simp [hrecord]
  have hpolled : polledIds after.record = polledIds page.record := by simp [hrecord]
  have horder : acceptedIds page.record =
      settledIds page.record ++ PendingFetch.ids done ++ after.queuedIds := by
    rw [h.order, hqueued, append_assoc]
  have hapart : ∀ id ∈ after.queuedIds, id ∉ PendingFetch.ids done := fun id hmem hdone => by
    have hnodup := h.nodup
    rw [horder] at hnodup
    exact disjoint_of_nodup_append hnodup (mem_append_right _ hdone) hmem
  refine ⟨?_, ?_, ?_, fun id hpending => ?_, fun id state hstate hne => ?_, fun id hmem => ?_, ?_,
    fun id hmem => ?_⟩
  · rw [haccepted, hsettled, horder]
  · rw [haccepted]
    exact h.sorted
  · rw [haccepted, hsettles.nextPromise]
    exact h.below
  · have hnot : id ∉ PendingFetch.ids done := fun hdone => by
      obtain ⟨state, hne, hstate⟩ := hsettles.settled id hdone
      rw [hpending] at hstate
      exact hne (Option.some.inj hstate).symm
    rw [hsettles.others id hnot] at hpending
    have hmem := h.pending id hpending
    rw [hqueued, mem_append] at hmem
    exact hmem.resolve_left hnot
  · rw [hsettled, mem_append]
    by_cases hdone : id ∈ PendingFetch.ids done
    · exact .inr hdone
    · rw [hsettles.others id hdone] at hstate
      exact .inl (h.entries id state hstate hne)
  · rw [hsettles.others id (hapart id hmem), htaken]
    exact h.queued id (hqueued ▸ mem_append_right _ hmem)
  · rw [htaken, haccepted]
    exact h.taken
  · rw [hpolled] at hmem
    rw [hsettled]
    exact mem_append_left _ (h.polled id hmem)

theorem Consistent.takes (h : Consistent page) {id : Nat} {state : FetchPromiseState}
    (hstate : page.runtime.promises[id]? = some state)
    (hqueue : after.runtime.queue = page.runtime.queue)
    (hnext : after.runtime.nextPromise = page.runtime.nextPromise)
    (hpromises : ∀ other : Nat, after.runtime.promises[other]? =
      if other = id then none else page.runtime.promises[other]?)
    (hrecord : after.record = page.record ++ [.taken id]) : Consistent after := by
  have hqueued : after.queuedIds = page.queuedIds := congrArg PendingFetch.ids hqueue
  have haccepted : acceptedIds after.record = acceptedIds page.record := by simp [hrecord]
  have hsettled : settledIds after.record = settledIds page.record := by simp [hrecord]
  have htaken : takenIds after.record = takenIds page.record ++ [id] := by simp [hrecord]
  have hpolled : polledIds after.record = polledIds page.record := by simp [hrecord]
  have hbefore {other : Nat} {found : FetchPromiseState}
      (hfound : after.runtime.promises[other]? = some found) :
      page.runtime.promises[other]? = some found := by
    rw [hpromises] at hfound
    split at hfound
    · cases hfound
    · exact hfound
  refine ⟨?_, ?_, ?_, fun other hpending => ?_, fun other found hfound hne => ?_,
    fun other hmem => ?_, fun other hmem => ?_, ?_⟩
  · rw [haccepted, hsettled, hqueued, h.order]
  · rw [haccepted]
    exact h.sorted
  · rw [haccepted, hnext]
    exact h.below
  · rw [hqueued]
    exact h.pending other (hbefore hpending)
  · rw [hsettled]
    exact h.entries other found (hbefore hfound) hne
  · rw [hpromises, htaken, mem_append, mem_singleton]
    by_cases heq : other = id
    · exact .inr (.inr heq)
    · rw [if_neg heq]
      rw [hqueued] at hmem
      exact (h.queued other hmem).imp_right .inl
  · rw [htaken, mem_append, mem_singleton] at hmem
    rw [haccepted]
    obtain hmem | rfl := hmem
    · exact h.taken other hmem
    · exact h.known hstate
  · rw [hpolled, hsettled]
    exact h.polled

theorem Change.consistent (hchange : Change page after spared) (h : Consistent page) :
    Consistent after := by
  cases hchange with
  | idle hqueue hnext hpromises hrecord =>
    have hqueued : after.queuedIds = page.queuedIds := congrArg PendingFetch.ids hqueue
    exact {
      order := by rw [hrecord, hqueued]; exact h.order
      sorted := by rw [hrecord]; exact h.sorted
      below := by rw [hrecord, hnext]; exact h.below
      pending := by simp only [hpromises, hqueued]; exact h.pending
      entries := by simp only [hpromises, hrecord]; exact h.entries
      queued := by simp only [hpromises, hqueued, hrecord]; exact h.queued
      taken := by rw [hrecord]; exact h.taken
      polled := by rw [hrecord]; exact h.polled }
  | accepts pending hid hqueue hnext hpromises hrecord =>
    exact h.accepts hid hqueue hnext hpromises hrecord
  | settles done hsettles hrecord => exact h.settles hsettles hrecord
  | takes id state hstate hqueue hnext hpromises hrecord =>
    exact h.takes hstate hqueue hnext hpromises hrecord
  | polls id state hstate hne hruntime hrecord =>
    have hqueued : after.queuedIds = page.queuedIds := by rw [Page.queuedIds, hruntime]; rfl
    have haccepted : acceptedIds after.record = acceptedIds page.record := by simp [hrecord]
    have hsettled : settledIds after.record = settledIds page.record := by simp [hrecord]
    have htaken : takenIds after.record = takenIds page.record := by simp [hrecord]
    have hpolled : polledIds after.record = polledIds page.record ++ [id] := by simp [hrecord]
    refine ⟨?_, ?_, ?_, ?_, ?_, ?_, ?_, fun other hmem => ?_⟩
    · rw [haccepted, hsettled, hqueued, h.order]
    · rw [haccepted]
      exact h.sorted
    · rw [haccepted, hruntime]
      exact h.below
    · rw [hruntime, hqueued]
      exact h.pending
    · rw [hruntime, hsettled]
      exact h.entries
    · rw [hruntime, hqueued, htaken]
      exact h.queued
    · rw [htaken, haccepted]
      exact h.taken
    · rw [hpolled, mem_append, mem_singleton] at hmem
      rw [hsettled]
      obtain hmem | rfl := hmem
      · exact h.polled other hmem
      · exact h.entries other state hstate hne

/-- The table stays clean where the step spares it. -/
theorem Change.clean_iff (hchange : Change page after spared) (h : Consistent page)
    (hclean : Clean page) : Clean after ↔ spared := by
  cases hchange with
  | idle _ _ hpromises hrecord =>
    refine iff_true_intro fun id hid => ?_
    rw [hpromises]
    rw [hrecord] at hid
    exact hclean id hid
  | accepts pending hfresh _ _ hpromises hrecord =>
    refine iff_true_intro fun id hid => ?_
    have hbefore : id ∈ takenIds page.record ∨ id ∈ polledIds page.record := by
      simpa [hrecord] using hid
    have hknown : id ∈ acceptedIds page.record := by
      refine hbefore.elim (h.taken id) fun hpolled => ?_
      rw [h.order]
      exact mem_append_left _ (h.polled id hpolled)
    -- a new id is above all that are known
    have hne : id ≠ pending.id := fun heq => by
      have hbelow := h.below id hknown
      rw [heq, hfresh] at hbelow
      exact Nat.lt_irrefl _ hbelow
    rw [hpromises, if_neg hne]
    exact hclean id hbefore
  | settles done hsettles hrecord =>
    have hqueued : page.queuedIds = PendingFetch.ids done ++ after.queuedIds := by
      rw [Page.queuedIds, hsettles.queue, PendingFetch.ids, map_append]
      rfl
    have hin {id : Nat} (hid : id ∈ PendingFetch.ids done) : id ∈ page.queuedIds := by
      rw [hqueued]
      exact mem_append_left _ hid
    constructor
    · intro hafter pending hmem
      have hid : pending.id ∈ PendingFetch.ids done := mem_map_of_mem hmem
      obtain hpending | htaken := h.queued _ (hin hid)
      · exact Std.ExtTreeMap.mem_iff_isSome_getElem?.2 (by rw [hpending]; rfl)
      · -- a promise that was taken is back
        obtain ⟨state, -, hstate⟩ := hsettles.settled _ hid
        rw [hafter pending.id (.inl (by simpa [hrecord] using htaken))] at hstate
        cases hstate
    · intro hspared id hid
      have hbefore : id ∈ takenIds page.record ∨ id ∈ polledIds page.record := by
        simpa [hrecord] using hid
      have hnone := hclean id hbefore
      have hnot : id ∉ PendingFetch.ids done := fun hdone => by
        obtain ⟨pending, hmem, rfl⟩ := mem_map.1 hdone
        have hthere := Std.ExtTreeMap.mem_iff_isSome_getElem?.1 (hspared pending hmem)
        rw [hnone] at hthere
        cases hthere
      rw [hsettles.others id hnot, hnone]
  | takes id state _ _ _ hpromises hrecord =>
    refine iff_true_intro fun other hother => ?_
    rw [hpromises]
    split
    · rfl
    · next hne =>
      refine hclean other ?_
      simpa [hrecord, hne] using hother
  | polls id state hstate _ hruntime hrecord =>
    refine iff_of_false (fun hafter => ?_) not_false
    have hnone := hafter id (.inr (by simp [hrecord]))
    rw [hruntime, hstate] at hnone
    cases hnone

theorem consistent_new (clientOrigin : Origin) : Consistent (Page.new clientOrigin : Page U) where
  order := rfl
  sorted := .nil
  below := nofun
  pending id h := by simp [Page.new, FetchRuntime.new] at h
  entries id state h := by simp [Page.new, FetchRuntime.new] at h
  queued := nofun
  taken := nofun
  polled := nofun

end

/-- In every state of a run the page is orderly, exactly when no object has read a settled promise
and no task has settled a promise that was taken. -/
theorem page_orderly [UrlLibrary U] [PublicSuffixList] [DateLibrary] [CaseTables]
    (visited : CookieStore → List (Text × Cookie)) (clientOrigin : Origin)
    (actions : List (PageAction U)) :
    (∀ page ∈ History.visited (Page.step visited) (Page.new clientOrigin) actions, Orderly page) ↔
      ∀ moment ∈ History.history (Page.step visited) (Page.new clientOrigin) actions,
        Sparing moment.1 moment.2 := by
  have hstart := consistent_new (U := U) clientOrigin
  have hinv (page : Page U) (action : PageAction U) (h : Consistent page) :
      Consistent (page.step visited action) := by
    obtain ⟨spared, hchange, -⟩ := step_change visited page action
    exact hchange.consistent h
  refine History.visited_iff (Page.step visited) hinv (fun page action h horderly => ?_) hstart
    ((orderly_iff hstart).2 nofun) actions
  obtain ⟨spared, hchange, hsparing⟩ := step_change visited page action
  rw [orderly_iff (hchange.consistent h), hchange.clean_iff h ((orderly_iff h).1 horderly), hsparing]

end

/-! ## The table fills up -/

section

/-- A round of a page that opens an object, sends, and polls to the end. -/
def pollRound : List (PageAction PlainUrl) :=
  [.openRequest 0 "GET".toList "https://a.test/".toList, .send 0 none,
    .runOne { answers := [], aborts := [], now := 0 }, .poll 0]

def pollStep : Page PlainUrl → PageAction PlainUrl → Page PlainUrl :=
  @Page.step PlainUrl _ shortList noDates asciiTables fun _ => []

/-- The first promise is settled and was polled. -/
def firstPolled (page : Page PlainUrl) : Bool :=
  match page.runtime.promise 1 with
  | some .pending | none => false
  | some _ => (polledIds page.record).contains 1

/-- A page that completes and polls all its requests: the promise of the first stays in the table,
and so do all others, until the next fetch is refused. -/
theorem page_refused :
    ¬∀ page ∈ History.visited pollStep (Page.new pageOrigin)
      (List.replicate maxPromises pollRound).flatten, Orderly page := by
  intro horderly
  rw [maxPromises, replicate_succ, flatten_cons] at horderly
  let page := History.run pollStep (Page.new pageOrigin) pollRound
  have hpage := horderly page (History.run_mem_visited_append pollStep _ _ _)
  have hshape : firstPolled page = true := by decide +kernel
  unfold firstPolled at hshape
  split at hshape
  · cases hshape
  · cases hshape
  · next state hpending hstate =>
    have hpolled := hshape
    obtain ⟨rfl, -⟩ | ⟨-, -, -, hnot⟩ := hpage.table 1 state hstate
    · exact hpending rfl
    · exact hnot (by simpa using hpolled)

end

end GhitaBrowser.Net
