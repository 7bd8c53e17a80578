import GhitaBrowser.Page.EventDelivery
import GhitaBrowser.Page.ObserverReports

/-!
# Observers are notified

The law of the queues: one record for every watched change, a callback for as long as there
are records, and a delivery at the next checkpoint. Every event lets the queues evolve, and
what evolves stays sound.
-/

namespace GhitaBrowser.Page

open Dom List

namespace ObserverPage

variable {κ : Type} {page after : ObserverPage κ}

/-! ## Pending callbacks -/

theorem pushPending_eq {pending list : List Nat} (h : pending.length + list.length ≤ maxPendingTasks) :
    pushPending pending list = pending ++ list := by
  induction list generalizing pending with
  | nil => rw [pushPending, append_nil]
  | cons observer rest ih =>
    rw [length_cons] at h
    have hroom : ¬ pending.length ≥ maxPendingTasks := by omega
    have hrest : (pending ++ [observer]).length + rest.length ≤ maxPendingTasks := by
      rw [length_append, length_singleton]
      omega
    rw [pushPending, if_neg hroom, ih hrest, append_assoc, singleton_append]

theorem subset_pushPending (pending list : List Nat) : pending ⊆ pushPending pending list := by
  induction list generalizing pending with
  | nil => exact fun _ h => h
  | cons observer rest ih =>
    unfold pushPending
    split
    · exact fun _ h => h
    · exact fun _ h => ih _ (mem_append_left _ h)

theorem length_pushPending {pending : List Nat} (list : List Nat)
    (h : pending.length ≤ maxPendingTasks) :
    (pushPending pending list).length ≤ maxPendingTasks := by
  induction list generalizing pending with
  | nil => exact h
  | cons observer rest ih =>
    unfold pushPending
    split
    · exact h
    · next hroom =>
      refine ih ?_
      rw [length_append]
      exact Nat.not_le.mp hroom

/-! ## How queues evolve -/

/-- Every observer has its own id, below the next one. -/
def Numbered (page : ObserverPage κ) : Prop :=
  ∀ observer entry, page.observers[observer]? = some entry →
    entry.id = observer ∧ observer < page.nextObserverId

/-- What becomes of the queue of an observer of mutations: it stays, it gets a record, with
a callback when it is the first, or it is emptied. -/
def QueueStep (empties : Prop) (observer : Nat) (entry : ObserverEntry κ)
    (records : List MutationRecord) (after : ObserverPage κ) : Prop :=
  records = entry.records ∨
    (∃ record, records = pushRecord entry.records record ∧
      (entry.records = [] → observer ∈ after.pendingObserverCallbacks)) ∨
    empties ∧ records = []

/-- Observers stay what they are, their queues take their steps and new queues are empty. -/
structure Evolves (empties : Nat → Prop) (page after : ObserverPage κ) : Prop where
  kept : ∀ observer entry, page.observers[observer]? = some entry →
    ∃ entry', after.observers[observer]? = some entry' ∧ entry'.kind = entry.kind ∧
      entry'.id = entry.id ∧
      (entry.kind = .mutation → QueueStep (empties observer) observer entry entry'.records after)
  fresh : ∀ observer entry, after.observers[observer]? = some entry →
    page.observers[observer]? = none →
      entry.id = observer ∧ observer < after.nextObserverId ∧ entry.records = []
  next : page.nextObserverId ≤ after.nextObserverId
  pending : page.pendingObserverCallbacks ⊆ after.pendingObserverCallbacks
  bounded : page.pendingObserverCallbacks.length ≤ maxPendingTasks →
    after.pendingObserverCallbacks.length ≤ maxPendingTasks

section

variable {empties : Nat → Prop}

theorem evolves_of_same (hobservers : after.observers = page.observers)
    (hnext : after.nextObserverId = page.nextObserverId)
    (hpending : after.pendingObserverCallbacks = page.pendingObserverCallbacks) :
    Evolves empties page after where
  kept observer entry h := ⟨entry, hobservers ▸ h, rfl, rfl, fun _ => .inl rfl⟩
  fresh observer entry h hnone := by
    rw [hobservers, hnone] at h
    cases h
  next := Nat.le_of_eq hnext.symm
  pending := by
    rw [hpending]
    exact fun _ h => h
  bounded h := hpending ▸ h

theorem Evolves.numbered (evolves : Evolves empties page after) (h : page.Numbered) :
    after.Numbered := by
  intro observer entry hentry
  cases hold : page.observers[observer]? with
  | none =>
    obtain ⟨hid, hlt, -⟩ := evolves.fresh observer entry hentry hold
    exact ⟨hid, hlt⟩
  | some old =>
    obtain ⟨entry', hentry', -, hid, -⟩ := evolves.kept observer old hold
    rw [hentry] at hentry'
    cases hentry'
    obtain ⟨hold', hlt⟩ := h observer old hold
    exact ⟨hid.trans hold', Nat.lt_of_lt_of_le hlt evolves.next⟩

/-- An observer with records is due for a callback, now or after the batch. -/
def Called (batch : List Nat) (page : ObserverPage κ) : Prop :=
  ∀ observer entry, page.observers[observer]? = some entry → entry.kind = .mutation →
    entry.records ≠ [] → observer ∈ batch ∨ observer ∈ page.pendingObserverCallbacks

theorem Evolves.called (evolves : Evolves empties page after) {batch : List Nat}
    (h : Called batch page) : Called batch after := by
  intro observer entry hentry hkind hrecords
  cases hold : page.observers[observer]? with
  | none => exact absurd (evolves.fresh observer entry hentry hold).2.2 hrecords
  | some old =>
    obtain ⟨entry', hentry', hkind', -, hstep⟩ := evolves.kept observer old hold
    rw [hentry] at hentry'
    cases hentry'
    have hdue : old.records ≠ [] →
        observer ∈ batch ∨ observer ∈ after.pendingObserverCallbacks := fun hold' =>
      (h observer old hold (hkind' ▸ hkind) hold').imp id fun hmem => evolves.pending hmem
    rcases hstep (hkind' ▸ hkind) with hsame | ⟨record, -, hfirst⟩ | ⟨-, hempty⟩
    · exact hdue (hsame ▸ hrecords)
    · by_cases hempty : old.records = []
      · exact .inr (hfirst hempty)
      · exact hdue hempty
    · exact absurd hempty hrecords

theorem evolves_notified {record : MutationRecord} (numbered : page.Numbered) (host : Host)
    (hroom : page.pendingObserverCallbacks.length +
      (toNotify record { page with host := host }).length ≤ maxPendingTasks) :
    Evolves empties page (notified record { page with host := host }) where
  kept observer entry h := by
    obtain ⟨hkind, hid, hrecords⟩ := notify_records entry host record
    refine ⟨entry.notify host record, ?_, hkind, hid, fun _ => ?_⟩
    · show (page.observers.map _)[observer]? = _
      rw [IdMap.getElem?_map, h]
      rfl
    rcases hrecords with ⟨hmatch, options, hpush⟩ | ⟨-, hsame⟩
    · refine .inr (.inl ⟨_, hpush, fun hempty => ?_⟩)
      show observer ∈ pushPending page.pendingObserverCallbacks _
      rw [pushPending_eq hroom]
      refine mem_append_right _ (mem_filterMap.mpr ⟨(observer, entry), ?_, ?_⟩)
      · exact (IdMap.mem_toList _ _ _).mpr h
      · dsimp only
        rw [hmatch, hempty, (numbered observer entry h).1]
        rfl
    · exact .inl hsame
  fresh observer entry h hnone := by
    have hmap : (page.observers.map fun _ entry => entry.notify host record)[observer]? = some entry := h
    rw [IdMap.getElem?_map, hnone] at hmap
    cases hmap
  next := Nat.le_refl _
  pending := subset_pushPending _ _
  bounded := length_pushPending _

variable {observer : Nat}

theorem evolves_insert {entry entry' : ObserverEntry κ}
    (hentry : page.observers[observer]? = some entry) (hkind : entry'.kind = entry.kind)
    (hid : entry'.id = entry.id)
    (hrecords : entry'.records = entry.records ∨ empties observer ∧ entry'.records = []) :
    Evolves empties page { page with observers := page.observers.insert observer entry' } where
  kept other old h := by
    show ∃ new, (page.observers.insert observer entry')[other]? = some new ∧ _
    rw [IdMap.getElem?_insert]
    by_cases heq : other = observer
    · subst heq
      rw [hentry] at h
      cases h
      rw [if_pos rfl]
      exact ⟨entry', rfl, hkind, hid, fun _ => hrecords.imp id .inr⟩
    · rw [if_neg heq]
      exact ⟨old, h, rfl, rfl, fun _ => .inl rfl⟩
  fresh other new h hnone := by
    have hinsert : (page.observers.insert observer entry')[other]? = some new := h
    rw [IdMap.getElem?_insert, if_neg, hnone] at hinsert
    · cases hinsert
    · rintro rfl
      rw [hentry] at hnone
      cases hnone
  next := Nat.le_refl _
  pending _ h := h
  bounded h := h

theorem evolves_construct (numbered : page.Numbered) (kind : ObserverKind) (callback : κ) :
    Evolves empties page
      { page with
        nextObserverId := page.nextObserverId + 1
        observers :=
          page.observers.insert page.nextObserverId ⟨page.nextObserverId, kind, callback, ∅, []⟩ } where
  kept observer entry h := by
    have hne : observer ≠ page.nextObserverId := Nat.ne_of_lt (numbered observer entry h).2
    refine ⟨entry, ?_, rfl, rfl, fun _ => .inl rfl⟩
    show (page.observers.insert _ _)[observer]? = _
    rw [IdMap.getElem?_insert, if_neg hne, h]
  fresh observer entry h hnone := by
    have hinsert : (page.observers.insert page.nextObserverId
        (⟨page.nextObserverId, kind, callback, ∅, []⟩ : ObserverEntry κ))[observer]? = some entry := h
    rw [IdMap.getElem?_insert] at hinsert
    split at hinsert
    · next heq =>
      cases hinsert
      subst heq
      exact ⟨rfl, Nat.lt_succ_self _, rfl⟩
    · rw [hnone] at hinsert
      cases hinsert
  next := Nat.le_succ _
  pending _ h := h
  bounded h := h

theorem evolves_layout (page : ObserverPage κ) :
    Evolves empties page page.queueLayoutObserverRecords where
  kept observer entry h := by
    refine ⟨fillLayout entry, ?_, ?_, ?_, fun hkind => .inl ?_⟩
    · show (page.observers.map _)[observer]? = _
      rw [IdMap.getElem?_map, h]
      rfl
    · unfold fillLayout
      split <;> rfl
    · unfold fillLayout
      split <;> rfl
    · unfold fillLayout
      rw [hkind]
      rfl
  fresh observer entry h hnone := by
    have hmap : (page.observers.map fun _ entry => fillLayout entry)[observer]? = some entry := h
    rw [IdMap.getElem?_map, hnone] at hmap
    cases hmap
  next := Nat.le_refl _
  pending := subset_pushPending _ _
  bounded := length_pushPending _

/-! ### Calls -/

/-- The call empties the queue of the observer. -/
def CallEmpties (c : ObserverCall κ) (observer : Nat) : Prop :=
  c = .takeRecords observer ∨ c = .disconnect observer

theorem evolves_refl (page : ObserverPage κ) : Evolves empties page page := evolves_of_same rfl rfl rfl

theorem evolves_withObserver {α : Type}
    {next : ObserverEntry κ → ObserverM κ α}
    (h : ∀ entry, page.observers[observer]? = some entry →
      Evolves empties page (endState (next entry) page)) :
    Evolves empties page (endState (withObserver observer next) page) := by
  rw [withObserver, endState, bind_get, ← endState]
  cases hentry : page.observers[observer]? with
  | none => exact evolves_refl page
  | some entry => exact h entry hentry

theorem evolves_observe (observer target : Nat) (options : ObserverOptions) :
    Evolves empties page (endState (observe observer target options) page) := by
  refine evolves_withObserver fun entry hentry => ?_
  show Evolves empties page (endState (if _ then _ else _ : ObserverM κ Unit) page)
  split
  · exact evolves_refl page
  split
  · exact evolves_refl page
  split
  · exact evolves_refl page
  · exact evolves_insert hentry rfl rfl (.inl rfl)

variable [HtmlParser]

theorem call_evolves (c : ObserverCall κ) (numbered : page.Numbered)
    (hroom : ∀ record, ObserverRun.reported c = some record →
      page.pendingObserverCallbacks.length +
        (toNotify record { page with host := (endState (call c) page).host }).length ≤ maxPendingTasks) :
    Evolves (CallEmpties c) page (endState (call c) page) := by
  have hcall : endState (call c) page =
      endState (if (receiver c).any fun object => page.observers.contains object then
        fail "TypeError: Observer method is not implemented" else dispatch c) page := rfl
  revert hroom
  rw [hcall]
  split
  · exact fun _ => evolves_refl page
  intro hroom
  cases c with
  | dom c =>
    rcases domCall_shape c page with honly | ⟨record, hreported, old, hshape⟩
    · have hafter : endState (dispatch (.dom c)) page =
          { page with host := (endState (domCall c) page).host } := honly
      rw [hafter]
      exact evolves_of_same rfl rfl rfl
    · show Evolves _ page (endState (domCall c) page)
      rw [hshape]
      exact evolves_notified numbered _ (hroom record hreported)
  | construct kind callback =>
    show Evolves _ page (endState (if _ then _ else if _ then _ else _ : ObserverM κ Unit) page)
    split
    · exact evolves_refl page
    split
    · exact evolves_refl page
    · exact evolves_construct numbered kind callback
  | observe observer target options => exact evolves_observe observer target options
  | unobserve observer target =>
    exact evolves_withObserver fun entry hentry => evolves_insert hentry rfl rfl (.inl rfl)
  | disconnect observer =>
    exact evolves_withObserver fun entry hentry =>
      evolves_insert hentry rfl rfl (.inr ⟨.inr rfl, rfl⟩)
  | takeRecords observer =>
    have htake : endState (dispatch (.takeRecords observer)) page =
        endState (takeRecords observer) page := endState_bind_pure (f := fun _ => ())
    rw [htake]
    exact evolves_withObserver fun entry hentry =>
      evolves_insert hentry rfl rfl (.inr ⟨.inl rfl, rfl⟩)

end

end ObserverPage

/-! ## Events -/

namespace ObserverRun

variable {κ : Type} [HtmlParser] {s : ObserverRun κ} {observer : Nat}

/-- What every run keeps. -/
structure Sound (s : ObserverRun κ) : Prop where
  handled : Handled s.page.host
  numbered : s.page.Numbered
  bounded : s.pending.length ≤ maxPendingTasks
  called : ObserverPage.Called s.batch s.page

omit [HtmlParser] in
theorem host_withObserver {α : Type} {page : ObserverPage κ}
    {next : ObserverEntry κ → ObserverM κ α}
    (h : ∀ entry, (endState (next entry) page).host = page.host) :
    (endState (ObserverPage.withObserver observer next) page).host = page.host := by
  rw [ObserverPage.withObserver, endState, bind_get, ← endState]
  cases page.observers[observer]? with
  | none => rfl
  | some entry => exact h entry

theorem call_host (c : ObserverCall κ) (page : ObserverPage κ) :
    (∃ d, c = .dom d ∧ endState (ObserverPage.call c) page = endState (ObserverPage.domCall d) page) ∨
      (endState (ObserverPage.call c) page).host = page.host := by
  have hcall : endState (ObserverPage.call c) page =
      endState (if (ObserverPage.receiver c).any fun object => page.observers.contains object then
        ObserverPage.fail "TypeError: Observer method is not implemented"
        else ObserverPage.dispatch c) page := rfl
  rw [hcall]
  split
  · exact .inr rfl
  cases c with
  | dom d => exact .inl ⟨d, rfl, rfl⟩
  | construct kind callback =>
    refine .inr ?_
    show (endState (if _ then _ else if _ then _ else _ : ObserverM κ Unit) page).host = _
    split
    · rfl
    split <;> rfl
  | observe observer target options =>
    refine .inr (host_withObserver fun entry => ?_)
    show (endState (if _ then _ else _ : ObserverM κ Unit) page).host = _
    split
    · rfl
    split
    · rfl
    split <;> rfl
  | unobserve observer target => exact .inr (host_withObserver fun _ => rfl)
  | disconnect observer => exact .inr (host_withObserver fun _ => rfl)
  | takeRecords observer =>
    refine .inr ?_
    have htake : endState (ObserverPage.dispatch (.takeRecords observer)) page =
        endState (ObserverPage.takeRecords observer) page := endState_bind_pure (f := fun _ => ())
    rw [htake]
    exact host_withObserver fun _ => rfl

theorem call_handled (c : ObserverCall κ) (h : Handled s.page.host) :
    Handled (s.step (.call c)).page.host := by
  show Handled (endState (ObserverPage.call c) s.page).host
  rcases call_host c s.page with ⟨d, -, hdom⟩ | hhost
  · rw [hdom]
    exact (ObserverPage.domCall_handled d).endState h
  · rw [hhost]
    exact h

theorem call_recorded {c : ObserverCall κ} (handled : Handled s.page.host) (kept : s.Kept (.call c))
    {entry : ObserverEntry κ} (hobserver : s.HasObserver observer entry)
    {change : NodeChange} (hchange : change.Happened s.document (s.step (.call c)).document)
    (hwatches : entry.Watches (s.step (.call c)).page.host change) :
    ∃ record : MutationRecord, record.Describes (s.step (.call c)).page.host change ∧
      (s.step (.call c)).queue observer = some (pushRecord entry.records record) := by
  have hwatched : ¬ s.Unwatched (s.step (.call c)).page.host change := fun h =>
    h observer entry hobserver hwatches
  rcases call_host c s.page with ⟨d, rfl, hdom⟩ | hhost
  · have hreports : s.Reports (.dom d) := kept.1.resolve_left fun h => hwatched (h change hchange)
    obtain ⟨record, ⟨old, hreported⟩, hdescribes⟩ :=
      dom_reports hreports (rfl : (s.step (.call (.dom d))).page = _) hdom hchange hwatched
    have handled' := call_handled (.dom d) handled
    obtain ⟨-, -, hrecords⟩ := notify_records entry (s.step (.call (.dom d))).page.host
      { record with oldValue := old }
    have hmatch := (matchingOptions_isSome entry handled'
      (show MutationRecord.Describes { record with oldValue := old } _ change from hdescribes)).mpr
      ⟨hobserver.2, hwatches⟩
    rcases hrecords with ⟨-, options, hpush⟩ | ⟨hnone, -⟩
    · refine ⟨options.recordFor { record with oldValue := old }, hdescribes, ?_⟩
      unfold queue
      rw [hreported]
      show ((s.page.observers.map _)[observer]?).map _ = _
      rw [IdMap.getElem?_map, hobserver.1]
      exact congrArg some hpush
    · rw [hnone] at hmatch
      cases hmatch
  · have hdocument : (s.step (.call c)).document = s.document :=
      congrArg (fun host : Host => host.dom.toLiveDocument) hhost
    rw [hdocument] at hchange
    exact absurd hchange (not_happened _ change)

variable {event : ObserverEvent κ}

theorem evolves_ordered {empties : Nat → Prop}
    (evolves : ObserverPage.Evolves empties s.page (s.step event).page)
    (hempties : ∀ observer, empties observer → s.Empties observer event)
    {entry : ObserverEntry κ} (hobserver : s.HasObserver observer entry) :
    (s.step event).queue observer = some entry.records ∨
      (∃ record, (s.step event).queue observer = some (pushRecord entry.records record)) ∨
      s.Empties observer event ∧ (s.step event).queue observer = some [] := by
  obtain ⟨entry', hentry', -, -, hstep⟩ := evolves.kept observer entry hobserver.1
  have hqueue : (s.step event).queue observer = some entry'.records := by
    unfold queue
    rw [hentry']
    rfl
  rw [hqueue]
  rcases hstep hobserver.2 with hsame | ⟨record, hpush, -⟩ | ⟨hempty, hnone⟩
  · exact .inl (congrArg some hsame)
  · exact .inr (.inl ⟨record, congrArg some hpush⟩)
  · exact .inr (.inr ⟨hempties observer hempty, congrArg some hnone⟩)

theorem not_happened_of_document
    (hdocument : (s.step event).document = s.document) (change : NodeChange) :
    ¬ change.Happened s.document (s.step event).document := by
  rw [hdocument]
  exact not_happened _ change

theorem notifies_call {c : ObserverCall κ} (sound : s.Sound) (kept : s.Kept (.call c)) :
    s.Notifies (.call c) ∧ (s.step (.call c)).Sound := by
  have evolves : ObserverPage.Evolves (ObserverPage.CallEmpties c) s.page (s.step (.call c)).page :=
    ObserverPage.call_evolves c sound.numbered kept.2
  have hcalled := evolves.called sound.called
  refine ⟨⟨?_, ?_, ?_, ?_⟩, ?_⟩
  · exact fun observer entry hobserver change hchange hwatches =>
      call_recorded sound.handled kept hobserver hchange hwatches
  · refine fun observer entry hobserver => evolves_ordered evolves (fun observer hempties => ?_) hobserver
    exact .inr (hempties.imp (congrArg _) (congrArg _))
  · exact fun observer entry hobserver hrecords =>
      hcalled observer entry hobserver.1 hobserver.2 hrecords
  · exact fun _ _ _ _ h => nomatch h
  · exact ⟨call_handled c sound.handled, evolves.numbered sound.numbered,
      evolves.bounded sound.bounded, hcalled⟩

theorem notifies_refresh (sound : s.Sound) :
    s.Notifies .refresh ∧ (s.step .refresh).Sound := by
  have evolves : ObserverPage.Evolves (fun _ => False) s.page (s.step .refresh).page :=
    ObserverPage.evolves_layout s.page
  have hcalled := evolves.called sound.called
  refine ⟨⟨?_, ?_, ?_, ?_⟩, ?_⟩
  · exact fun _ _ _ change hchange _ => absurd hchange (not_happened_of_document rfl change)
  · exact fun observer entry hobserver => evolves_ordered evolves (fun _ h => h.elim) hobserver
  · exact fun observer entry hobserver hrecords =>
      hcalled observer entry hobserver.1 hobserver.2 hrecords
  · exact fun _ _ _ _ h => nomatch h
  · exact ⟨sound.handled, evolves.numbered sound.numbered, evolves.bounded sound.bounded, hcalled⟩

theorem notifies_idle (sound : s.Sound) (hstep : s.step event = s)
    (hbatch : event = .deliver → s.batch = []) :
    s.Notifies event ∧ (s.step event).Sound := by
  refine ⟨⟨?_, ?_, ?_, ?_⟩, ?_⟩
  · exact fun _ _ _ change hchange _ =>
      absurd hchange (not_happened_of_document (congrArg document hstep) change)
  · intro observer entry hobserver
    refine .inl ?_
    rw [hstep]
    exact congrArg (Option.map ObserverEntry.records) hobserver.1
  · rw [hstep]
    exact fun observer entry hobserver hrecords =>
      sound.called observer entry hobserver.1 hobserver.2 hrecords
  · intro observer entry _ _ hdeliver hhead
    rw [hbatch hdeliver] at hhead
    cases hhead
  · rw [hstep]
    exact sound

theorem checkpoint_batch (sound : s.Sound) (hbatch : s.batch = []) :
    (s.step .checkpoint).batch = s.pending := by
  show (ObserverRun.checkpoint s).batch = s.pending
  unfold checkpoint
  rw [hbatch]
  exact take_of_length_le sound.bounded

theorem notifies_checkpoint (sound : s.Sound) :
    s.Notifies .checkpoint ∧ (s.step .checkpoint).Sound := by
  by_cases hbatch : s.batch = []
  · have hstep : (s.step .checkpoint).page = { s.page with pendingObserverCallbacks := [] } := by
      show (ObserverRun.checkpoint s).page = _
      unfold checkpoint
      rw [hbatch]
      rfl
    have hobservers : (s.step .checkpoint).page.observers = s.page.observers := by rw [hstep]
    have hcalled : ObserverPage.Called (s.step .checkpoint).batch (s.step .checkpoint).page := by
      intro observer entry hentry hkind hrecords
      rw [hobservers] at hentry
      refine .inl ?_
      rw [checkpoint_batch sound hbatch]
      refine (sound.called observer entry hentry hkind hrecords).resolve_left ?_
      rw [hbatch]
      exact not_mem_nil
    have hdocument : (s.step .checkpoint).document = s.document := by
      unfold document
      rw [hstep]
    refine ⟨⟨?_, ?_, ?_, ?_⟩, ?_, ?_, ?_, hcalled⟩
    · exact fun _ _ _ change hchange _ => absurd hchange (not_happened_of_document hdocument change)
    · intro observer entry hobserver
      refine .inl ?_
      unfold queue
      rw [hobservers, hobserver.1]
      rfl
    · exact fun observer entry hobserver hrecords =>
        hcalled observer entry hobserver.1 hobserver.2 hrecords
    · exact fun _ _ _ _ h => nomatch h
    · rw [hstep]
      exact sound.handled
    · rw [hstep]
      exact sound.numbered
    · unfold pending
      rw [hstep]
      exact Nat.zero_le _
  · have hstep : s.step .checkpoint = s := by
      show ObserverRun.checkpoint s = s
      unfold checkpoint
      rw [if_neg]
      rw [List.isEmpty_iff]
      exact hbatch
    exact notifies_idle sound hstep fun h => nomatch h

theorem deliver_cons {rest : List Nat} (hbatch : s.batch = observer :: rest) :
    s.step .deliver =
      match s.page.observers[observer]? with
      | none => { s with batch := rest }
      | some entry =>
        ⟨{ s.page with observers := s.page.observers.insert observer { entry with records := [] } },
          rest, if entry.records.isEmpty then s.delivered
            else (observer, entry.records) :: s.delivered⟩ := by
  show ObserverRun.deliver s = _
  unfold deliver ObserverPage.takeQueue
  rw [hbatch]
  cases hentry : s.page.observers[observer]? <;> simp only [hentry]

theorem notifies_deliver (sound : s.Sound) :
    s.Notifies .deliver ∧ (s.step .deliver).Sound := by
  cases hbatch : s.batch with
  | nil =>
    have hstep : s.step .deliver = s := by
      show ObserverRun.deliver s = s
      unfold deliver
      rw [hbatch]
    exact notifies_idle sound hstep fun _ => hbatch
  | cons head rest =>
    have hstep := deliver_cons hbatch
    have hhost : (s.step .deliver).page.host = s.page.host := by
      rw [hstep]
      cases s.page.observers[head]? <;> rfl
    have hrest : (s.step .deliver).batch = rest := by
      rw [hstep]
      cases s.page.observers[head]? <;> rfl
    have evolves : ObserverPage.Evolves (· = head) s.page (s.step .deliver).page := by
      rw [hstep]
      cases hentry : s.page.observers[head]? with
      | none => exact ObserverPage.evolves_refl s.page
      | some entry => exact ObserverPage.evolves_insert hentry rfl rfl (.inr ⟨rfl, rfl⟩)
    have hcalled : ObserverPage.Called (s.step .deliver).batch (s.step .deliver).page := by
      intro observer entry hentry hkind hrecords
      -- The head of the batch has no records any more.
      have hother : observer ≠ head := by
        rintro rfl
        rw [hstep] at hentry
        cases hold : s.page.observers[observer]? with
        | none =>
          rw [hold] at hentry
          rw [hold] at hentry
          cases hentry
        | some old =>
          rw [hold] at hentry
          have hinsert : (s.page.observers.insert observer { old with records := [] })[observer]? =
              some entry := hentry
          rw [IdMap.getElem?_insert, if_pos rfl] at hinsert
          cases hinsert
          exact hrecords rfl
      have hdue := evolves.called sound.called observer entry hentry hkind hrecords
      rw [hrest]
      rw [hbatch] at hdue
      exact hdue.imp (fun hmem => (mem_cons.mp hmem).resolve_left hother) id
    refine ⟨⟨?_, ?_, ?_, ?_⟩, ?_, ?_, ?_, hcalled⟩
    · refine fun _ _ _ change hchange _ => absurd hchange (not_happened_of_document ?_ change)
      exact congrArg (fun host : Host => host.dom.toLiveDocument) hhost
    · refine fun observer entry hobserver => evolves_ordered evolves (fun observer hhead => ?_) hobserver
      refine .inl ⟨rfl, ?_⟩
      rw [hbatch, hhead]
      rfl
    · exact fun observer entry hobserver hrecords =>
        hcalled observer entry hobserver.1 hobserver.2 hrecords
    · intro observer entry hobserver hrecords _ hhead
      rw [hbatch] at hhead
      cases Option.some.inj hhead
      rw [hstep, hobserver.1]
      show (if entry.records.isEmpty then _ else _) = _
      rw [if_neg]
      rw [List.isEmpty_iff]
      exact hrecords
    · rw [hhost]
      exact sound.handled
    · exact evolves.numbered sound.numbered
    · exact evolves.bounded sound.bounded

theorem Sound.step (sound : s.Sound) (kept : s.Kept event) :
    s.Notifies event ∧ (s.step event).Sound := by
  cases event with
  | call c => exact notifies_call sound kept
  | refresh => exact notifies_refresh sound
  | checkpoint => exact notifies_checkpoint sound
  | deliver => exact notifies_deliver sound

theorem Sound.run (sound : s.Sound) {events : List (ObserverEvent κ)} (kept : s.AllKept events) :
    s.AllNotify events := by
  induction events generalizing s with
  | nil => trivial
  | cons event events ih =>
    obtain ⟨hnotifies, hsound⟩ := sound.step kept.1
    exact ⟨hnotifies, ih hsound kept.2⟩

/-- The part of a run before some events is sound. -/
theorem Sound.prefix (sound : s.Sound) {before after : List (ObserverEvent κ)}
    (kept : s.AllKept (before ++ after)) : (s.run before).Sound := by
  induction before generalizing s with
  | nil => exact sound
  | cons event before ih => exact ih (sound.step kept.1).2 kept.2

theorem batch_step (hevent : event ≠ .checkpoint) (h : observer ∈ s.batch) :
    event = .deliver ∧ s.batch.head? = some observer ∨ observer ∈ (s.step event).batch := by
  cases event with
  | call c => exact .inr h
  | refresh => exact .inr h
  | checkpoint => exact absurd rfl hevent
  | deliver =>
    cases hbatch : s.batch with
    | nil =>
      rw [hbatch] at h
      cases h
    | cons head rest =>
      have hrest : (s.step .deliver).batch = rest := by
        rw [deliver_cons hbatch]
        cases s.page.observers[head]? <;> rfl
      rw [hbatch] at h
      rw [hrest]
      exact (mem_cons.mp h).imp (fun heq => ⟨rfl, congrArg some heq.symm⟩) id

theorem delivered_of_batch {during : List (ObserverEvent κ)} (hduring : .checkpoint ∉ during)
    (h : observer ∈ s.batch) (hdone : (s.run during).batch = []) :
    ∃ earlier event later, during = earlier ++ event :: later ∧ event = .deliver ∧
      (s.run earlier).batch.head? = some observer := by
  induction during generalizing s with
  | nil =>
    have hempty : s.batch = [] := hdone
    rw [hempty] at h
    cases h
  | cons event during ih =>
    have hevent : event ≠ .checkpoint := fun heq => hduring (heq ▸ mem_cons_self)
    rcases batch_step hevent h with ⟨hdeliver, hhead⟩ | hmem
    · exact ⟨[], event, during, rfl, hdeliver, hhead⟩
    · obtain ⟨earlier, next, later, rfl, hnext, hhead⟩ :=
        ih (fun hmem => hduring (mem_cons_of_mem _ hmem)) hmem hdone
      exact ⟨event :: earlier, next, later, rfl, hnext, hhead⟩

theorem run_append (s : ObserverRun κ) (before after : List (ObserverEvent κ)) :
    s.run (before ++ after) = (s.run before).run after := foldl_append

theorem Sound.delivered (sound : s.Sound) {events : List (ObserverEvent κ)}
    (kept : s.AllKept events) : s.AllDelivered events := by
  intro before during after hevents hbatch hduring hdone observer entry hobserver hrecords
  subst hevents
  have hsound : (s.run before).Sound := sound.prefix kept
  have hpending : observer ∈ (s.run before).pending := by
    refine (hsound.called observer entry hobserver.1 hobserver.2 hrecords).resolve_left ?_
    rw [hbatch]
    exact not_mem_nil
  rw [← checkpoint_batch hsound hbatch] at hpending
  rw [run_append] at hdone
  obtain ⟨earlier, event, later, hsplit, hdeliver, hhead⟩ :=
    delivered_of_batch hduring hpending hdone
  refine ⟨earlier, event, later, hsplit, hdeliver, ?_⟩
  rw [run_append]
  exact hhead

omit [HtmlParser] in
theorem sound_start (document : LiveDocument) : (start document : ObserverRun κ).Sound where
  handled _ _ h := nomatch h
  numbered _ _ h := nomatch h
  bounded := Nat.zero_le _
  called _ _ h := nomatch h

/-! ### The flush of the page is a run -/

theorem run_calls (s : ObserverRun κ) (list : List (ObserverCall κ)) :
    s.run (list.map .call) = { s with page := s.page.calls list } := by
  induction list generalizing s with
  | nil => rfl
  | cons c list ih => exact ih (s.step (.call c))

/-- The events of a flush after its start: deliveries, each with the calls of its callback. -/
def Flushing (events : List (ObserverEvent κ)) : Prop :=
  ∀ event ∈ events, event = .deliver ∨ ∃ c, event = .call c

omit [HtmlParser] in
theorem flushing_calls (list : List (ObserverCall κ)) : Flushing (list.map .call) := by
  intro event among
  obtain ⟨c, -, rfl⟩ := mem_map.mp among
  exact .inr ⟨c, rfl⟩

/-- One turn of the loop is a delivery with the calls of the callback. -/
theorem run_turn (script : ObserverScript κ) {observer : Nat} {rest : List Nat} (invoked : Nat)
    (due : s.batch = observer :: rest) :
    ∃ events, Flushing events ∧
      (s.run events).page = (ObserverPage.deliver script (s.page, invoked) observer).1 ∧
      (s.run events).batch = rest ∧
      (s.run events).delivered.length + invoked =
        s.delivered.length + (ObserverPage.deliver script (s.page, invoked) observer).2 := by
  obtain ⟨page, batch, delivered⟩ := s
  obtain rfl : batch = observer :: rest := due
  unfold ObserverPage.deliver
  dsimp only
  cases taken : page.takeQueue observer with
  | none =>
    refine ⟨[.deliver], forall_mem_singleton.mpr (.inl rfl), ?_⟩
    have stepped : run ⟨page, observer :: rest, delivered⟩ [.deliver] = ⟨page, rest, delivered⟩ := by
      show ObserverRun.deliver ⟨page, observer :: rest, delivered⟩ = _
      simp only [deliver, taken]
    rw [stepped]
    exact ⟨rfl, rfl, rfl⟩
  | some found =>
    obtain ⟨entry, page'⟩ := found
    dsimp only
    cases none : entry.records.isEmpty with
    | true =>
      refine ⟨[.deliver], forall_mem_singleton.mpr (.inl rfl), ?_⟩
      have stepped : run ⟨page, observer :: rest, delivered⟩ [.deliver] =
          ⟨page', rest, delivered⟩ := by
        show ObserverRun.deliver ⟨page, observer :: rest, delivered⟩ = _
        simp only [deliver, taken, none, if_true]
      rw [stepped, if_pos rfl]
      exact ⟨rfl, rfl, rfl⟩
    | false =>
      refine ⟨.deliver :: (script entry.callback entry.records page').map .call,
        forall_mem_cons.mpr ⟨.inl rfl, flushing_calls _⟩, ?_⟩
      have stepped : step ⟨page, observer :: rest, delivered⟩ .deliver =
          ⟨page', rest, (observer, entry.records) :: delivered⟩ := by
        show ObserverRun.deliver ⟨page, observer :: rest, delivered⟩ = _
        simp only [deliver, taken, none, Bool.false_eq_true, if_false]
      have ran := run_calls ⟨page', rest, (observer, entry.records) :: delivered⟩
        (script entry.callback entry.records page')
      rw [run, foldl_cons, stepped, ← run, ran, if_neg Bool.false_ne_true]
      exact ⟨rfl, rfl, by rw [length_cons, Nat.add_assoc, Nat.add_comm 1]⟩

theorem run_turns (script : ObserverScript κ) (batch : List Nat) (s : ObserverRun κ)
    (due : s.batch = batch) (invoked : Nat) :
    ∃ events, Flushing events ∧
      (s.run events).page = (batch.foldl (ObserverPage.deliver script) (s.page, invoked)).1 ∧
      (s.run events).batch = [] ∧
      (s.run events).delivered.length + invoked =
        s.delivered.length + (batch.foldl (ObserverPage.deliver script) (s.page, invoked)).2 := by
  induction batch generalizing s invoked with
  | nil => exact ⟨[], nofun, rfl, due, rfl⟩
  | cons observer rest ih =>
    obtain ⟨first, flushing, page, left, counted⟩ := run_turn script invoked due
    rw [foldl_cons]
    generalize ObserverPage.deliver script (s.page, invoked) observer = turn at page counted ⊢
    obtain ⟨page', invoked'⟩ := turn
    dsimp only at page counted
    subst page
    obtain ⟨later, flushing', page', none, counted'⟩ := ih (s.run first) left invoked'
    refine ⟨first ++ later, forall_mem_append.mpr ⟨flushing, flushing'⟩, ?_⟩
    rw [run_append]
    exact ⟨page', none, by omega⟩

/-- With an arbitrary script, `flush_observer_callbacks` is a checkpoint that is worked off: its
page is that of the run, and it has invoked a callback for each delivery. -/
theorem run_flush (script : ObserverScript κ) (s : ObserverRun κ) (idle : s.batch = []) :
    ∃ events, Flushing events ∧
      (s.run (.checkpoint :: events)).page = (s.page.flushObserverCallbacks script).1 ∧
      (s.run (.checkpoint :: events)).batch = [] ∧
      (s.run (.checkpoint :: events)).delivered.length =
        s.delivered.length + (s.page.flushObserverCallbacks script).2 := by
  have started : s.step .checkpoint =
      { s with
        page := { s.page with pendingObserverCallbacks := [] }
        batch := s.page.pendingObserverCallbacks.take maxPendingTasks } := by
    show checkpoint s = _
    unfold checkpoint
    rw [idle]
    rfl
  obtain ⟨events, flushing, page, done, counted⟩ :=
    run_turns script (s.page.pendingObserverCallbacks.take maxPendingTasks) _
      (congrArg batch started) 0
  refine ⟨events, flushing, ?_⟩
  rw [run, foldl_cons, ← run]
  rw [started] at page counted ⊢
  exact ⟨page, by rw [← started]; exact done, counted⟩

/-! ### The law -/

/-- In every run whose events are kept, observers get one record of every change they watch
and its delivery. -/
theorem observers_are_notified (document : LiveDocument) (events : List (ObserverEvent κ))
    (kept : (start document).AllKept events) :
    (start document).AllNotify events ∧ (start document).AllDelivered events :=
  ⟨(sound_start document).run kept, (sound_start document).delivered kept⟩

end ObserverRun

/-! ### Calls that are always kept -/

namespace ObserverRun

variable {κ : Type} [HtmlParser] {s : ObserverRun κ}

theorem kept_of_document {c : ObserverCall κ} (hdocument : (s.step (.call c)).document = s.document)
    (hreported : reported c = none) : s.Kept (.call c) := by
  refine ⟨.inl fun change hchange => ?_, fun record hrecord => ?_⟩
  · rw [hdocument] at hchange
    exact absurd hchange (not_happened _ change)
  · rw [hreported] at hrecord
    cases hrecord

theorem kept_observer {c : ObserverCall κ} (hdom : ∀ d, c ≠ .dom d) : s.Kept (.call c) := by
  have hhost := (call_host c s.page).resolve_left fun ⟨d, heq, _⟩ => hdom d heq
  refine kept_of_document (congrArg (fun host : Host => host.dom.toLiveDocument) hhost) ?_
  cases c with
  | dom d => exact absurd rfl (hdom d)
  | _ => rfl

theorem kept_elementFor (node : NodeId) : s.Kept (.call (.dom (.host (.elementFor node)))) := by
  refine kept_of_document ?_ rfl
  have hkeeps : Keeps (fun host : Host => host.dom = s.page.host.dom) (Host.elementFor node) := by
    refine Keeps.bind Keeps.get fun _ => Keeps.ite (Keeps.throw _) (Keeps.ite (Keeps.pure _) ?_)
    refine Keeps.bind ?_ fun _ => Keeps.modify fun _ h => h
    refine Keeps.bind Keeps.get fun _ => Keeps.ite (Keeps.throw _) ?_
    exact Keeps.bind (Keeps.modify fun _ h => h) fun _ => Keeps.pure _
  have hdom : Meets (fun p => p = s.page) (ObserverPage.onHost (Host.elementFor node))
      (fun _ p => p.host.dom = s.page.host.dom) fun p => p.host.dom = s.page.host.dom :=
    (ObserverPage.onHost_meets (A := fun _ host => host.dom = s.page.host.dom)
      (B := fun host => host.dom = s.page.host.dom) fun host hhost => hkeeps host (hhost ▸ rfl)).weaken
      (fun _ _ h => h.2) fun _ h => h.2
  have hend := (Meets.endState hdom rfl).elim id id
  exact congrArg FocusedDocument.toLiveDocument hend

end ObserverRun

/-! An observer of the attributes of a form, whose handle is 32. -/

namespace ObserverRun

open PageRuntime

def watching : List (ObserverEvent Unit) :=
  [.call (.dom (.host (.elementFor 2))), .call (.construct .mutation ()),
    .call (.observe 0 32 ⟨true, false, false, false, false, false, none⟩)]

/-- `setAttribute` is recorded and delivered. -/
theorem observers_are_notified_attribute :
    @AllNotify _ noMarkup (start formPage)
        (watching ++ [.call (.dom (.setAttribute 32 "class" "wide")), .checkpoint, .deliver]) ∧
      @AllDelivered _ noMarkup (start formPage)
        (watching ++ [.call (.dom (.setAttribute 32 "class" "wide")), .checkpoint, .deliver]) := by
  refine @observers_are_notified _ noMarkup _ _ ⟨?_, ?_, ?_, ?_, trivial, trivial, trivial⟩
  · exact @kept_elementFor _ noMarkup _ _
  · exact @kept_observer _ noMarkup _ _ fun _ h => nomatch h
  · exact @kept_observer _ noMarkup _ _ fun _ h => nomatch h
  · refine ⟨.inr ?_, fun record hrecord => ?_⟩
    · exact (by decide : toAsciiLowercase (trim "class") = "class")
    · cases hrecord
      decide

def watched : ObserverRun Unit := @run _ noMarkup (start formPage) watching

def classNamed : ObserverRun Unit :=
  @step _ noMarkup watched (.call (.dom (.setProperty 32 "className" ⟨"wide", true⟩)))

theorem class_changes : (NodeChange.attr 2 "class").Happened watched.document classNamed.document := by
  have hold : watched.document.nodes[2]?.map (NodeChange.attr 2 "class").view = some (.attr none) := by
    decide
  have hnew : classNamed.document.nodes[2]?.map (NodeChange.attr 2 "class").view =
      some (.attr (some "wide")) := by decide +kernel
  obtain ⟨old, hold, hview⟩ := Option.map_eq_some_iff.mp hold
  obtain ⟨new, hnew, hview'⟩ := Option.map_eq_some_iff.mp hnew
  refine ⟨old, new, hold, hnew, ?_⟩
  rw [hview, hview']
  decide

theorem class_is_watched : ∃ entry, watched.HasObserver 0 entry ∧
    entry.Watches classNamed.page.host (.attr 2 "class") := by
  have hentry : watched.page.observers[0]?.map (fun entry => (entry.kind, entry.targets[32]?.map
      fun options => (options.attributes, options.attributeFilter))) =
      some (.mutation, some (true, none)) := by decide
  obtain ⟨entry, hentry, hfields⟩ := Option.map_eq_some_iff.mp hentry
  obtain ⟨hkind, htargets⟩ := Prod.ext_iff.mp hfields
  obtain ⟨options, hoptions, hfields⟩ := Option.map_eq_some_iff.mp htargets
  obtain ⟨hattributes, hfilter⟩ := Prod.ext_iff.mp hfields
  have hnode : classNamed.page.host.elements[32]? = some 2 := by decide +kernel
  refine ⟨entry, ⟨hentry, hkind⟩, 32, options, 2, hoptions, hnode, .inl rfl, hattributes, ?_⟩
  intro filter h
  rw [show options.attributeFilter = none from hfilter] at h
  cases h

/-- `className` changes an attribute that is watched and queues no record. -/
theorem class_name_is_not_recorded :
    ¬ @AllNotify _ noMarkup (start formPage)
      (watching ++ [.call (.dom (.setProperty 32 "className" ⟨"wide", true⟩))]) := by
  rintro ⟨-, -, -, h, -⟩
  obtain ⟨entry, hobserver, hwatches⟩ := class_is_watched
  obtain ⟨record, -, hqueue⟩ :=
    @Notifies.recorded _ noMarkup _ _ h 0 entry hobserver _ class_changes hwatches
  have hempty : classNamed.queue 0 = some [] := by decide +kernel
  have hpush : classNamed.queue 0 = some (pushRecord entry.records record) := hqueue
  rw [hempty] at hpush
  have hlength := congrArg (Option.map List.length) hpush
  unfold pushRecord at hlength
  rw [Option.map_some, Option.map_some, length_append] at hlength
  cases hlength

end ObserverRun

end GhitaBrowser.Page
