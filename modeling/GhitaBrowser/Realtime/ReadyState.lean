import GhitaBrowser.Realtime.EventSource

/-!
# How the ready states go

An `Open` event that the page takes after it has called `close()` brings a connection back to
life. Nothing else does: a socket's state goes forward, and a closed source stays closed, exactly
in the runs in which no such event is taken.
-/

namespace GhitaBrowser.Realtime

open List

/-! ## WebSockets -/

namespace Socket

/-- The page takes an `Open` event from the channel. -/
def TakesOpen (socket : Socket) (action : SocketAction) : Prop :=
  action = .continues ∧ (∃ turns call, socket.task = .pumping (turns + 1) call) ∧
    ∃ protocol, socket.events.head? = some (.opened protocol)

/-- A call of `close` passes its checks and writes the state. -/
def ClosesPage (socket : Socket) (action : SocketAction) : Prop :=
  action = .continues ∧ ∃ code reason, socket.task = .ending (.close code reason) ∧
    socket.client.readyState ≠ .closed ∧ WebSocketClient.refusesClose code reason = none

def rank (socket : Socket) : Nat := socket.client.readyState.code

theorem code_le (state : WebSocketReadyState) : state.code ≤ WebSocketReadyState.closed.code := by
  cases state <;> decide

variable {socket : Socket} {action : SocketAction}

theorem step_client (h : action ≠ .continues) :
    (socket.step action).client = socket.client := by
  cases action with
  | continues => exact absurd rfl h
  | connects selected =>
    dsimp only [step, connected]
    split
    · split <;> rfl
    · rfl
  | _ => dsimp only [step]; split <;> rfl

variable {event : WebSocketTransportEvent}

theorem rank_handle {client : WebSocketClient} (h : ∀ protocol, event ≠ .opened protocol) :
    client.readyState.code ≤ (client.handle event).readyState.code := by
  cases event with
  | opened protocol => exact absurd rfl (h protocol)
  | message message =>
    dsimp only [WebSocketClient.handle]
    split <;> exact Nat.le_refl _
  | sent bytes => exact Nat.le_refl _
  | closed => exact code_le _
  | error error => exact code_le _

theorem rank_send (client : WebSocketClient) (commands : List WebSocketCommand) (listening : Bool)
    (message : WebSocketMessage) :
    (client.send commands listening message).2.1.readyState = client.readyState := by
  unfold WebSocketClient.send
  repeat' split
  all_goals rfl

theorem rank_close (client : WebSocketClient) (commands : List WebSocketCommand) (listening : Bool)
    (code : Option Nat) (reason : Option Text) :
    client.readyState.code ≤ (client.close commands listening code reason).2.1.readyState.code ∧
      (client.readyState ≠ .closed → WebSocketClient.refusesClose code reason = none →
        WebSocketReadyState.closing.code ≤
          (client.close commands listening code reason).2.1.readyState.code) := by
  unfold WebSocketClient.close
  split
  · next hclosed => exact ⟨Nat.le_refl _, fun hopen => absurd hclosed hopen⟩
  · next hopen =>
    have hforward : client.readyState.code ≤ WebSocketReadyState.closing.code := by
      cases hstate : client.readyState with
      | closed => exact absurd hstate hopen
      | _ => decide
    split
    · next error hrefuses => exact ⟨Nat.le_refl _, fun _ hnone => by rw [hrefuses] at hnone; cases hnone⟩
    · dsimp only
      split
      · exact ⟨code_le _, fun _ _ => code_le _⟩
      split
      · exact ⟨hforward, fun _ _ => Nat.le_refl _⟩
      · exact ⟨hforward, fun _ _ => Nat.le_refl _⟩

theorem close_refused {client : WebSocketClient} (commands : List WebSocketCommand)
    (listening : Bool) {code : Option Nat} {reason : Option Text}
    (h : client.readyState ≠ .closed → WebSocketClient.refusesClose code reason ≠ none) :
    (client.close commands listening code reason).2.1.readyState = client.readyState := by
  unfold WebSocketClient.close
  split
  · rfl
  · next hopen =>
    split
    · rfl
    · next hpasses => exact absurd hpasses (h hopen)

/-- Only an `Open` event takes the state back. -/
theorem rank_step (h : ¬socket.TakesOpen action) :
    socket.rank ≤ (socket.step action).rank := by
  by_cases hcontinues : action = .continues
  · subst hcontinues
    dsimp only [rank, step, continueCall]
    split
    · exact Nat.le_refl _
    · exact Nat.le_refl _
    · next turns call htask =>
      unfold pumpOnce
      split
      · next event events hevents =>
        refine rank_handle fun protocol hopen => h ⟨rfl, ⟨turns, call, htask⟩, protocol, ?_⟩
        rw [hevents, hopen]; rfl
      · split
        · exact Nat.le_refl _
        · exact code_le _
    · next call htask =>
      cases call with
      | pumpTransport => exact Nat.le_refl _
      | pollIncoming => exact Nat.le_refl _
      | send message => exact Nat.le_of_eq (congrArg _ (rank_send ..).symm)
      | close code reason => exact (rank_close ..).1
  · exact Nat.le_of_eq (congrArg (·.readyState.code) (step_client hcontinues).symm)

theorem rank_takesOpen (h : socket.TakesOpen action) :
    (socket.step action).rank = WebSocketReadyState.opened.code := by
  obtain ⟨rfl, ⟨turns, call, htask⟩, protocol, hhead⟩ := h
  obtain ⟨events, hevents⟩ := List.head?_eq_some_iff.1 hhead
  simp only [step, continueCall, htask, pumpOnce, hevents]
  rfl

theorem rank_closesPage (h : socket.ClosesPage action) :
    WebSocketReadyState.closing.code ≤ (socket.step action).rank := by
  obtain ⟨rfl, code, reason, htask, hopen, hpasses⟩ := h
  simp only [step, continueCall, htask, finishCall]
  exact (rank_close socket.client socket.commands socket.listening code reason).2 hopen hpasses

/-! ### The `Open` event -/

def IsOpen (event : WebSocketTransportEvent) : Prop := ∃ protocol, event = .opened protocol

/-- An `Open` event comes once and first, and the page waits for it in the state `Connecting`. -/
structure Fresh (socket : Socket) : Prop where
  first : ∀ event ∈ socket.events.tail, ¬IsOpen event
  silent : socket.worker = .connecting → socket.events = []
  awaited : (socket.worker = .connecting ∨ ∃ event ∈ socket.events, IsOpen event) →
    socket.client.readyState = .connecting

theorem fresh_new (url protocol : Text) : (new url protocol).Fresh where
  first := nofun
  silent _ := rfl
  awaited _ := rfl

theorem mem_trySend {events : List WebSocketTransportEvent} {other : WebSocketTransportEvent}
    (h : other ∈ trySend events event) : other ∈ events ∨ other = event := by
  unfold trySend at h
  split at h
  · exact (mem_append.1 h).imp_right mem_singleton.1
  · exact .inl h

theorem mem_tail_trySend {events : List WebSocketTransportEvent}
    {other : WebSocketTransportEvent} (h : other ∈ (trySend events event).tail) :
    other ∈ events.tail ∨ other = event := by
  unfold trySend at h
  split at h
  · cases events with
    | nil => cases h
    | cons first events => exact (mem_append.1 h).imp_right mem_singleton.1
  · exact .inl h

/-- An event other than `Open` of a worker that is past connecting. -/
theorem fresh_emit (hfresh : socket.Fresh)
    (hevent : ¬IsOpen event) {worker : SocketWorker} (hworker : worker ≠ .connecting) :
    (socket.emit event worker).Fresh where
  first other hmem := by
    obtain hmem | rfl := mem_tail_trySend hmem
    · exact hfresh.first other hmem
    · exact hevent
  silent h := absurd h hworker
  awaited h := by
    obtain ⟨other, hmem, hopen⟩ := h.resolve_left hworker
    obtain hmem | rfl := mem_trySend hmem
    · exact hfresh.awaited (.inr ⟨other, hmem, hopen⟩)
    · exact absurd hopen hevent

theorem fresh_connected (hfresh : socket.Fresh) (hworker : socket.worker = .connecting)
    (selected : Text) : (socket.connected selected).Fresh := by
  unfold connected
  split
  · exact fresh_emit hfresh (by rintro ⟨_, h⟩; cases h) (by decide)
  · have hevents := hfresh.silent hworker
    refine ⟨?_, nofun, fun _ => hfresh.awaited (.inl hworker)⟩
    rw [emit, hevents]
    nofun

/-- What the page does leaves `Fresh` alone when it keeps the channel and the state. -/
theorem fresh_of_client {next : Socket} (hfresh : socket.Fresh)
    (hevents : next.events = socket.events) (hworker : next.worker = socket.worker)
    (hstate : next.client.readyState = socket.client.readyState) : next.Fresh where
  first := by rw [hevents]; exact hfresh.first
  silent h := by rw [hevents]; exact hfresh.silent (hworker ▸ h)
  awaited h := by rw [hstate]; rw [hevents, hworker] at h; exact hfresh.awaited h

theorem fresh_pumpOnce (hfresh : socket.Fresh) (turns : Nat) (call : SocketCall) :
    (socket.pumpOnce turns call).Fresh := by
  unfold pumpOnce
  split
  · next event events hevents =>
    have hrest : ∀ other ∈ events, ¬IsOpen other := by
      have hfirst := hfresh.first
      rwa [hevents] at hfirst
    have hworker : socket.worker ≠ .connecting := fun h =>
      absurd (hevents ▸ hfresh.silent h) (cons_ne_nil _ _)
    exact ⟨fun other hmem => hrest other (mem_of_mem_tail hmem), fun h => absurd h hworker,
      fun h => (h.resolve_left hworker).elim fun other hother =>
        absurd hother.2 (hrest other hother.1)⟩
  · next hevents =>
    split
    · exact fresh_of_client hfresh rfl rfl rfl
    · next hgone =>
      -- the worker has gone, so that it is not connecting any more
      have hworker : socket.worker ≠ .connecting := fun h => hgone (by rw [listening, h]; rfl)
      refine ⟨hfresh.first, hfresh.silent, fun h => ?_⟩
      obtain ⟨event, hmem, -⟩ := h.resolve_left hworker
      dsimp only at hmem
      rw [hevents] at hmem
      cases hmem

theorem fresh_finishCall (hfresh : socket.Fresh) {call : SocketCall}
    (htask : socket.task = .ending call) (hcloses : ¬socket.ClosesPage .continues) :
    (socket.finishCall call).Fresh := by
  cases call with
  | pumpTransport => exact fresh_of_client hfresh rfl rfl rfl
  | pollIncoming => exact fresh_of_client hfresh rfl rfl rfl
  | send message =>
    exact fresh_of_client hfresh rfl rfl (rank_send socket.client socket.commands socket.listening message)
  | close code reason =>
    refine fresh_of_client hfresh rfl rfl ?_
    refine close_refused _ _ fun hopen hpasses => hcloses ?_
    exact ⟨rfl, code, reason, htask, hopen, hpasses⟩

theorem fresh_step (hfresh : socket.Fresh)
    (hcloses : ¬socket.ClosesPage action) : (socket.step action).Fresh := by
  cases action with
  | calls call =>
    dsimp only [step]
    split
    · exact fresh_of_client hfresh rfl rfl rfl
    · exact hfresh
  | continues =>
    dsimp only [step, continueCall]
    split
    · exact hfresh
    · exact fresh_of_client hfresh rfl rfl rfl
    · exact fresh_pumpOnce hfresh _ _
    · next call htask => exact fresh_finishCall hfresh htask hcloses
  | fails error =>
    dsimp only [step]
    split
    · exact fresh_emit hfresh (by rintro ⟨_, ⟨⟩⟩) (by decide)
    · exact hfresh
  | connects selected =>
    dsimp only [step]
    split
    · next hworker => exact fresh_connected hfresh hworker selected
    · exact hfresh
  | takes =>
    dsimp only [step]
    split
    · next command commands hworker hcommands =>
      refine ⟨hfresh.first, nofun, fun h => hfresh.awaited ?_⟩
      exact .inr (h.resolve_left nofun)
    · exact hfresh
  | carriesOut failure =>
    dsimp only [step]
    split
    · exact fresh_emit hfresh (by rintro ⟨_, ⟨⟩⟩) (by decide)
    · exact fresh_emit hfresh (by rintro ⟨_, ⟨⟩⟩) (by decide)
    · exact fresh_emit hfresh (by rintro ⟨_, ⟨⟩⟩) (by decide)
    · exact hfresh
  | arrives message =>
    dsimp only [step]
    split
    · exact fresh_emit hfresh (by rintro ⟨_, ⟨⟩⟩) (by decide)
    · exact hfresh
  | ends =>
    dsimp only [step]
    split
    · exact fresh_emit hfresh (by rintro ⟨_, ⟨⟩⟩) (by decide)
    · exact hfresh
  | breaks error =>
    dsimp only [step]
    split
    · exact fresh_emit hfresh (by rintro ⟨_, ⟨⟩⟩) (by decide)
    · exact hfresh
  | leaves =>
    dsimp only [step]
    split
    · refine ⟨hfresh.first, nofun, fun h => hfresh.awaited ?_⟩
      exact .inr (h.resolve_left nofun)
    · exact hfresh

/-- An `Open` event that comes before any call of `close` opens a connecting socket. -/
theorem Fresh.opens (hfresh : socket.Fresh)
    (h : socket.TakesOpen action) : socket.rank ≤ (socket.step action).rank := by
  have htaken := rank_takesOpen h
  obtain ⟨-, -, protocol, hhead⟩ := h
  have hstate := hfresh.awaited (.inr ⟨_, mem_of_mem_head? hhead, protocol, rfl⟩)
  rw [htaken, rank, hstate]
  decide

/-! ### Runs -/

/-- The state goes forward at every step of a run. -/
def Forward (socket : Socket) (actions : List SocketAction) : Prop :=
  ∀ moment ∈ History.history step socket actions, moment.1.rank ≤ (moment.1.step moment.2).rank

variable {actions : List SocketAction}

theorem forward_of_noOpen
    (h : ∀ moment ∈ History.history step socket actions, ¬moment.1.TakesOpen moment.2) :
    socket.Forward actions :=
  fun moment hmem => rank_step (h moment hmem)

theorem noOpen_of_forward
    (hclosing : WebSocketReadyState.closing.code ≤ socket.rank) (hforward : socket.Forward actions) :
    ∀ moment ∈ History.history step socket actions, ¬moment.1.TakesOpen moment.2 := by
  induction actions generalizing socket with
  | nil => exact fun moment hmem => absurd hmem not_mem_nil
  | cons action actions ih =>
    have hstep := hforward _ (mem_cons_self ..)
    intro moment hmem
    obtain rfl | hmem := mem_cons.1 hmem
    · intro hopen
      have hback := Nat.le_trans hclosing (rank_takesOpen hopen ▸ hstep)
      exact absurd hback (by decide)
    · exact ih (Nat.le_trans hclosing hstep)
        (fun later hlater => hforward later (mem_cons_of_mem _ hlater)) moment hmem

/-- No `Open` event is taken behind a call of `close` that has written the state. -/
def OpensInTime (moments : List (Socket × SocketAction)) : Prop :=
  moments.Pairwise fun earlier later => earlier.1.ClosesPage earlier.2 → ¬later.1.TakesOpen later.2

theorem opensInTime_of_forward
    (hforward : socket.Forward actions) : OpensInTime (History.history step socket actions) := by
  induction actions generalizing socket with
  | nil => exact .nil
  | cons action actions ih =>
    have hrest : (socket.step action).Forward actions :=
      fun moment hmem => hforward moment (mem_cons_of_mem _ hmem)
    refine pairwise_cons.2 ⟨fun moment hmem hcloses => ?_, ih hrest⟩
    exact noOpen_of_forward (rank_closesPage hcloses) hrest moment hmem

theorem forward_of_opensInTime
    (hfresh : socket.Fresh) (hintime : OpensInTime (History.history step socket actions)) :
    socket.Forward actions := by
  induction actions generalizing socket with
  | nil => exact fun moment hmem => absurd hmem not_mem_nil
  | cons action actions ih =>
    obtain ⟨hlater, hrest⟩ := pairwise_cons.1 hintime
    have hstep : socket.rank ≤ (socket.step action).rank := by
      by_cases hopen : socket.TakesOpen action
      · exact hfresh.opens hopen
      · exact rank_step hopen
    refine forall_mem_cons.2 ⟨hstep, ?_⟩
    by_cases hcloses : socket.ClosesPage action
    · exact forward_of_noOpen fun moment hmem => hlater moment hmem hcloses
    · exact ih (fresh_step hfresh hcloses) hrest

end Socket

/-! ## Event sources -/

namespace Source

/-- The page takes an `Open` event from the channel. -/
def TakesOpen (source : Source) (action : SourceAction) : Prop :=
  action = .continues ∧ (∃ turns call, source.task = .pumping (turns + 1) call) ∧
    source.events.head? = some .opened

def Closed (source : Source) : Prop := source.client.readyState = .closed

instance (source : Source) : Decidable source.Closed :=
  inferInstanceAs (Decidable (_ = _))

theorem work_client (source : Source) (action : SourceAction) :
    (source.work action).client = source.client := by
  cases action with
  | checks =>
    have hcheck (next : SourceWorker) : (source.checkSignal next).client = source.client := by
      unfold checkSignal
      split <;> rfl
    dsimp only [work]
    split
    · exact hcheck _
    · exact hcheck _
    · exact hcheck _
    · rfl
  | calls call => rfl
  | continues => rfl
  | closes => rfl
  | parses text => rfl
  | delivers => rfl
  | _ => dsimp only [work]; split <;> rfl

theorem closed_parsed {client : EventSourceClient} (h : client.readyState = .closed)
    (events : List EventSourceTransportEvent) :
    (events.foldl EventSourceClient.handleParsed client).readyState = .closed := by
  induction events generalizing client with
  | nil => exact h
  | cons event events ih => exact ih (by cases event <;> exact h)

/-- A closed source stays closed, unless the page takes an `Open` event. -/
theorem closed_step {source : Source} {action : SourceAction} (hclosed : source.Closed)
    (h : ¬source.TakesOpen action) : (source.step action).Closed := by
  cases action with
  | calls call => dsimp only [step]; split <;> exact hclosed
  | continues =>
    dsimp only [step, continueCall]
    split
    · exact hclosed
    · exact hclosed
    · next turns call htask =>
      unfold pumpOnce
      split
      · next event events hevents =>
        cases event with
        | opened => exact absurd ⟨rfl, ⟨turns, call, htask⟩, by rw [hevents]; rfl⟩ h
        | event event => exact hclosed
        | retry milliseconds => exact hclosed
        | closed => rfl
        | error error => rfl
      · split
        · rfl
        · exact hclosed
    · exact hclosed
    · exact hclosed
  | closes =>
    dsimp only [step]
    split
    · rfl
    · exact hclosed
  | parses text =>
    dsimp only [step]
    split
    · unfold Closed EventSourceClient.parseSseStream
      dsimp only
      split
      · rfl
      · exact closed_parsed hclosed _
    · exact hclosed
  | delivers => dsimp only [step]; split <;> exact hclosed
  | _ =>
    dsimp only [step]
    split
    · exact (congrArg EventSourceClient.readyState (work_client ..)).trans hclosed
    · exact hclosed

theorem opened_of_takesOpen {source : Source} {action : SourceAction} (h : source.TakesOpen action) :
    ¬(source.step action).Closed := by
  obtain ⟨rfl, ⟨turns, call, htask⟩, hhead⟩ := h
  obtain ⟨events, hevents⟩ := List.head?_eq_some_iff.1 hhead
  simp only [step, continueCall, htask, pumpOnce, hevents]
  exact nofun

theorem closed_iff {source : Source} (hclosed : source.Closed) (actions : List SourceAction) :
    (∀ state ∈ History.visited step source actions, state.Closed) ↔
      ∀ moment ∈ History.history step source actions, ¬moment.1.TakesOpen moment.2 := by
  induction actions generalizing source with
  | nil =>
    exact ⟨fun _ moment hmem => absurd hmem not_mem_nil,
      fun _ state hmem => mem_singleton.1 hmem ▸ hclosed⟩
  | cons action actions ih =>
    have hnext : source.step action ∈ History.visited step (source.step action) actions := by
      cases actions <;> exact mem_cons_self ..
    rw [History.visited, History.history, forall_mem_cons, forall_mem_cons]
    constructor
    · rintro ⟨-, hall⟩
      have hstep := hall _ hnext
      exact ⟨fun hopen => opened_of_takesOpen hopen hstep, (ih hstep).1 hall⟩
    · rintro ⟨hfirst, hrest⟩
      exact ⟨hclosed, (ih (closed_step hclosed hfirst)).2 hrest⟩

end Source

/-! ## Both -/

/-- A socket's state only goes forward, and a source that the page has closed stays closed,
exactly in the runs in which no `Open` event is taken behind the call of `close`. -/
theorem readyState_forward (url protocol : Text) (actions : List SocketAction)
    (before after : List SourceAction) :
    ((History.visited Socket.step (.new url protocol) actions).Pairwise (·.rank ≤ ·.rank) ↔
      Socket.OpensInTime (History.history Socket.step (.new url protocol) actions)) ∧
    ((History.run Source.step (.new url) before).task = .idle →
      ((∀ source ∈ History.visited Source.step
            (History.run Source.step (.new url) (before ++ [.closes])) after, source.Closed) ↔
        ∀ moment ∈ History.history Source.step
            (History.run Source.step (.new url) (before ++ [.closes])) after,
          ¬moment.1.TakesOpen moment.2)) := by
  constructor
  · rw [History.visited_sorted]
    exact ⟨Socket.opensInTime_of_forward, Socket.forward_of_opensInTime (Socket.fresh_new url protocol)⟩
  · intro hidle
    refine Source.closed_iff ?_ after
    rw [History.run_concat, Source.step, if_pos hidle]
    rfl

/-- A source that is closed while it waits for an answer, before the page takes what comes. -/
theorem readyState_forward_answered :
    (∀ moment ∈ History.history Source.step
        (History.run Source.step (.new []) ([.checks] ++ [.closes])) [.answers, .delivers],
      ¬moment.1.TakesOpen moment.2) ∧
    ∀ source ∈ History.visited Source.step
        (History.run Source.step (.new []) ([.checks] ++ [.closes])) [.answers, .delivers],
      source.Closed :=
  have hstays := (readyState_forward [] [] [] [.checks] [.answers, .delivers]).2 (by decide)
  have hclosed : ∀ source ∈ History.visited Source.step
      (History.run Source.step (.new []) ([.checks] ++ [.closes])) [.answers, .delivers],
      source.Closed := by decide
  ⟨hstays.1 hclosed, hclosed⟩

/-- `close()` is called before the handshake ends, and the `Open` event is taken after it. -/
theorem readyState_backward :
    ¬(History.visited Socket.step (.new [] [])
        [.calls (.close none none), .continues, .continues, .connects [], .calls .pumpTransport,
          .continues]).Pairwise (·.rank ≤ ·.rank) ∧
    (History.run Source.step (.new [])
        [.checks, .closes, .answers, .delivers, .calls .pumpTransport, .continues]).client.readyState =
      .opened := by
  decide

end GhitaBrowser.Realtime
