import GhitaBrowser.Lib.History

/-!
# IPC channels

An endpoint numbers what it sends and takes a message only if it names the endpoint's own
processes and generations, with a number above all that it has taken. The wire between the
endpoints keeps every message that was ever sent: a delivery is any of them, at any time.
-/

namespace GhitaBrowser.Ipc

def ipcVersion : Nat := 1
def maxIpcMessageBytes : Nat := 4 * 1024 * 1024
def maxQueuedMessages : Nat := 1000

inductive IpcCommand where
  | navigate (url : String)
  | renderFrame (html : String)
  | fetchResource (url method : String)
  | playMedia (src : String)
  | heartbeat
  | shutdown
deriving DecidableEq

structure IpcMessage where
  version : Nat
  senderId : Nat
  senderGeneration : Nat
  targetId : Nat
  targetGeneration : Nat
  sequence : Nat
  command : IpcCommand
deriving DecidableEq

structure IpcChannel where
  channelId : Nat
  senderId : Nat
  senderGeneration : Nat
  targetId : Nat
  targetGeneration : Nat
  sequence : Nat
  sendQueue : List IpcMessage
  receiveQueue : List IpcMessage
  closed : Bool
  lastReceivedSequence : Nat

/-- `serde_json::to_vec`, of which only the length of the result matters. -/
class MessageEncoding where
  encodedLength : IpcMessage → Except String Nat

namespace IpcChannel

def new (channelId senderId senderGeneration targetId targetGeneration : Nat) : IpcChannel :=
  { channelId, senderId, senderGeneration, targetId, targetGeneration, sequence := 1
    sendQueue := [], receiveQueue := [], closed := false, lastReceivedSequence := 0 }

/-- The number is used up also by a message that is refused; it wraps around. -/
def send [MessageEncoding] (channel : IpcChannel) (command : IpcCommand) :
    Except String Unit × IpcChannel :=
  if channel.closed then (.error "IPC channel is closed", channel)
  else
    let message : IpcMessage :=
      { version := ipcVersion
        senderId := channel.senderId
        senderGeneration := channel.senderGeneration
        targetId := channel.targetId
        targetGeneration := channel.targetGeneration
        sequence := channel.sequence
        command }
    let channel := { channel with sequence := (channel.sequence + 1) % 2 ^ 64 }
    match MessageEncoding.encodedLength message with
    | .error error => (.error error, channel)
    | .ok length =>
      if maxIpcMessageBytes < length then (.error "IPC message exceeds its byte budget", channel)
      else if maxQueuedMessages ≤ channel.sendQueue.length then
        (.error "IPC send queue budget exceeded", channel)
      else (.ok (), { channel with sendQueue := channel.sendQueue ++ [message] })

def deliverIncoming (channel : IpcChannel) (message : IpcMessage) :
    Except String Unit × IpcChannel :=
  if channel.closed then (.error "IPC channel is closed", channel)
  else if message.version ≠ ipcVersion then
    (.error ("IPC version mismatch: expected " ++ toString ipcVersion ++ ", got " ++
      toString message.version), channel)
  else if message.targetGeneration ≠ channel.targetGeneration then
    (.error "StaleGenerationMessageDropped", channel)
  else if message.targetId ≠ channel.targetId ∨ message.senderId ≠ channel.senderId ∨
      message.senderGeneration ≠ channel.senderGeneration then
    (.error "IPC endpoint identity mismatch", channel)
  else if message.sequence ≤ channel.lastReceivedSequence then
    (.error "IPC replay or out-of-order sequence rejected", channel)
  else if maxQueuedMessages ≤ channel.receiveQueue.length then
    (.error "IPC receive queue budget exceeded", channel)
  else (.ok (), { channel with
    lastReceivedSequence := message.sequence
    receiveQueue := channel.receiveQueue ++ [message] })

def receive (channel : IpcChannel) : Option IpcMessage × IpcChannel :=
  match channel.closed, channel.receiveQueue with
  | false, message :: queue => (some message, { channel with receiveQueue := queue })
  | _, _ => (none, channel)

def close (channel : IpcChannel) : IpcChannel :=
  { channel with closed := true, sendQueue := [], receiveQueue := [] }

end IpcChannel

/-! ## Endpoints and the wire -/

/-- A message on the wire, with the place of the endpoint that sent it. -/
structure Sent where
  endpoint : Nat
  message : IpcMessage

structure Network where
  endpoints : List IpcChannel
  wire : List Sent

def Network.initial : Network := { endpoints := [], wire := [] }

/-- A restart makes new endpoints for a new generation. The owner of an endpoint takes what
is queued to the wire. -/
inductive Action where
  | starts (channelId senderId senderGeneration targetId targetGeneration : Nat)
  | sends (endpoint : Nat) (command : IpcCommand)
  | flushes (endpoint : Nat) (place : Nat)
  | delivers (endpoint : Nat) (place : Nat)
  | receives (endpoint : Nat)
  | closes (endpoint : Nat)

/-- Act on the endpoint at a place. -/
def Network.update (network : Network) (endpoint : Nat) (act : IpcChannel → IpcChannel) : Network :=
  { network with endpoints := network.endpoints.modify endpoint act }

/-- A message that an endpoint has queued. -/
def Network.outgoing (network : Network) (endpoint place : Nat) : Option Sent := do
  let channel ← network.endpoints[endpoint]?
  let message ← channel.sendQueue[place]?
  return { endpoint, message }

def Network.step [MessageEncoding] (network : Network) : Action → Network
  | .starts channelId senderId senderGeneration targetId targetGeneration =>
    { network with endpoints := network.endpoints ++
        [.new channelId senderId senderGeneration targetId targetGeneration] }
  | .sends endpoint command => network.update endpoint fun channel => (channel.send command).2
  | .flushes endpoint place =>
    { network.update endpoint fun channel =>
        { channel with sendQueue := channel.sendQueue.eraseIdx place } with
      wire := network.wire ++ (network.outgoing endpoint place).toList }
  | .delivers endpoint place =>
    match network.wire[place]? with
    | none => network
    | some sent => network.update endpoint fun channel => (channel.deliverIncoming sent.message).2
  | .receives endpoint => network.update endpoint fun channel => channel.receive.2
  | .closes endpoint => network.update endpoint IpcChannel.close

def Network.run [MessageEncoding] (actions : List Action) : Network :=
  History.run Network.step .initial actions

end GhitaBrowser.Ipc

/-!
## What an endpoint accepts

Whatever the wire does with the messages on it, an endpoint accepts numbers in increasing order
only, and only messages that an endpoint of the same processes and generations has sent.
-/

namespace GhitaBrowser.Ipc

open List

/-- The processes and the generations that a message or an endpoint is for. -/
structure Identity where
  senderId : Nat
  senderGeneration : Nat
  targetId : Nat
  targetGeneration : Nat

def IpcMessage.identity (message : IpcMessage) : Identity :=
  { senderId := message.senderId, senderGeneration := message.senderGeneration
    targetId := message.targetId, targetGeneration := message.targetGeneration }

def IpcChannel.identity (channel : IpcChannel) : Identity :=
  { senderId := channel.senderId, senderGeneration := channel.senderGeneration
    targetId := channel.targetId, targetGeneration := channel.targetGeneration }

section

variable [MessageEncoding]

/-- The message that a call of `send` queues. -/
def departure (endpoint : Nat) (network : Network) : Action → Option IpcMessage
  | .sends place command =>
    if place = endpoint then
      (network.endpoints[endpoint]?).bind fun channel =>
        match (channel.send command).1 with
        | .ok () => (channel.send command).2.sendQueue.getLast?
        | .error _ => none
    else none
  | _ => none

/-- The message that a delivery makes an endpoint accept. -/
def acceptance (endpoint : Nat) (network : Network) : Action → Option IpcMessage
  | .delivers place message =>
    if place = endpoint then
      (network.wire[message]?).bind fun sent =>
        (network.endpoints[endpoint]?).bind fun channel =>
          match (channel.deliverIncoming sent.message).1 with
          | .ok () => some sent.message
          | .error _ => none
    else none
  | _ => none

def departures (endpoint : Nat) (actions : List Action) : List IpcMessage :=
  History.observed Network.step (departure endpoint) .initial actions

def acceptances (endpoint : Nat) (actions : List Action) : List IpcMessage :=
  History.observed Network.step (acceptance endpoint) .initial actions

/-! ## Calls -/

/-- A call of `send` queues one message of the endpoint's own identity, or none. -/
theorem send_spec (channel : IpcChannel) (command : IpcCommand) :
    (channel.send command).2.identity = channel.identity ∧
      (channel.send command).2.lastReceivedSequence = channel.lastReceivedSequence ∧
      ((∃ message, message.identity = channel.identity ∧ (channel.send command).1 = .ok () ∧
          (channel.send command).2.sendQueue = channel.sendQueue ++ [message]) ∨
        (∃ error, (channel.send command).1 = .error error) ∧
          (channel.send command).2.sendQueue = channel.sendQueue) := by
  unfold IpcChannel.send
  split
  · exact ⟨rfl, rfl, .inr ⟨⟨_, rfl⟩, rfl⟩⟩
  · dsimp only
    split
    · exact ⟨rfl, rfl, .inr ⟨⟨_, rfl⟩, rfl⟩⟩
    · split
      · exact ⟨rfl, rfl, .inr ⟨⟨_, rfl⟩, rfl⟩⟩
      · split
        · exact ⟨rfl, rfl, .inr ⟨⟨_, rfl⟩, rfl⟩⟩
        · exact ⟨rfl, rfl, .inl ⟨_, rfl, rfl, rfl⟩⟩

omit [MessageEncoding] in
theorem deliverIncoming_spec (channel : IpcChannel) (message : IpcMessage) :
    (∃ error, channel.deliverIncoming message = (.error error, channel)) ∨
      message.identity = channel.identity ∧ channel.lastReceivedSequence < message.sequence ∧
        channel.deliverIncoming message = (.ok (), { channel with
          lastReceivedSequence := message.sequence
          receiveQueue := channel.receiveQueue ++ [message] }) := by
  unfold IpcChannel.deliverIncoming
  split
  · exact .inl ⟨_, rfl⟩
  · split
    · exact .inl ⟨_, rfl⟩
    · split
      · exact .inl ⟨_, rfl⟩
      · next hgeneration =>
        split
        · exact .inl ⟨_, rfl⟩
        · next hidentity =>
          split
          · exact .inl ⟨_, rfl⟩
          · next hsequence =>
            split
            · exact .inl ⟨_, rfl⟩
            · simp only [not_or, not_not] at hidentity hgeneration
              refine .inr ⟨?_, Nat.not_le.1 hsequence, rfl⟩
              simp [IpcMessage.identity, IpcChannel.identity, hidentity, hgeneration]

/-! ## Steps -/

variable {endpoint : Nat}

theorem endpoint_step (network : Network) (action : Action)
    {channel : IpcChannel} (h : network.endpoints[endpoint]? = some channel) :
    ∃ after, (network.step action).endpoints[endpoint]? = some after ∧
      after.identity = channel.identity ∧
      (∀ message ∈ after.sendQueue,
        message ∈ channel.sendQueue ∨ departure endpoint network action = some message) ∧
      (acceptance endpoint network action = none ∧
          after.lastReceivedSequence = channel.lastReceivedSequence ∨
        ∃ message, acceptance endpoint network action = some message ∧
          channel.lastReceivedSequence < message.sequence ∧
          after.lastReceivedSequence = message.sequence ∧ message.identity = channel.identity) := by
  have hupdate : ∀ (place : Nat) (act : IpcChannel → IpcChannel),
      (network.update place act).endpoints[endpoint]? =
        some (if place = endpoint then act channel else channel) := by
    intro place act
    rw [Network.update, List.getElem?_modify, h]
    split <;> rfl
  cases action with
  | starts channelId senderId senderGeneration targetId targetGeneration =>
    have hlt := (List.getElem?_eq_some_iff.1 h).1
    exact ⟨channel, (List.getElem?_append_left hlt).trans h, rfl, fun _ => .inl, .inl ⟨rfl, rfl⟩⟩
  | sends place command =>
    refine ⟨_, hupdate place _, ?_⟩
    by_cases hplace : place = endpoint
    · obtain ⟨hidentity, hlast, hqueue⟩ := send_spec channel command
      rw [if_pos hplace]
      refine ⟨hidentity, fun message hmem => ?_, .inl ⟨rfl, hlast⟩⟩
      obtain ⟨queued, -, hok, hqueued⟩ | ⟨-, hsame⟩ := hqueue
      · rw [hqueued, mem_append, mem_singleton] at hmem
        refine hmem.imp id ?_
        rintro rfl
        simp [departure, hplace, h, hok, hqueued]
      · rw [hsame] at hmem
        exact .inl hmem
    · rw [if_neg hplace]
      exact ⟨rfl, fun _ => .inl, .inl ⟨rfl, rfl⟩⟩
  | flushes place message =>
    refine ⟨_, hupdate place _, ?_⟩
    split
    · exact ⟨rfl, fun message hmem => .inl (mem_of_mem_eraseIdx hmem), .inl ⟨rfl, rfl⟩⟩
    · exact ⟨rfl, fun _ => .inl, .inl ⟨rfl, rfl⟩⟩
  | delivers place message =>
    cases hwire : network.wire[message]? with
    | none =>
      refine ⟨channel, ?_, rfl, fun _ => .inl, .inl ⟨?_, rfl⟩⟩
      · simp [Network.step, hwire, h]
      · simp [acceptance, hwire]
    | some sent =>
      have hafter : (network.step (.delivers place message)).endpoints[endpoint]? =
          some (if place = endpoint then (channel.deliverIncoming sent.message).2 else channel) := by
        simp only [Network.step, hwire]
        exact hupdate place _
      refine ⟨_, hafter, ?_⟩
      by_cases hplace : place = endpoint
      · rw [if_pos hplace]
        obtain ⟨error, hrefused⟩ | ⟨hidentity, hnew, haccepted⟩ :=
          deliverIncoming_spec channel sent.message
        · rw [hrefused]
          refine ⟨rfl, fun _ => .inl, .inl ⟨?_, rfl⟩⟩
          simp [acceptance, hplace, hwire, h, hrefused]
        · rw [haccepted]
          refine ⟨rfl, fun _ => .inl, .inr ⟨sent.message, ?_, hnew, rfl, hidentity⟩⟩
          simp [acceptance, hplace, hwire, h, haccepted]
      · rw [if_neg hplace]
        exact ⟨rfl, fun _ => .inl, .inl ⟨if_neg hplace, rfl⟩⟩
  | receives place =>
    refine ⟨_, hupdate place _, ?_⟩
    split
    · unfold IpcChannel.receive
      split <;> exact ⟨rfl, fun _ => .inl, .inl ⟨rfl, rfl⟩⟩
    · exact ⟨rfl, fun _ => .inl, .inl ⟨rfl, rfl⟩⟩
  | closes place =>
    refine ⟨_, hupdate place _, ?_⟩
    split
    · exact ⟨rfl, fun _ hmem => absurd hmem (not_mem_nil), .inl ⟨rfl, rfl⟩⟩
    · exact ⟨rfl, fun _ => .inl, .inl ⟨rfl, rfl⟩⟩

theorem endpoint_new {network : Network} {action : Action} {channel : IpcChannel}
    (hnone : network.endpoints[endpoint]? = none)
    (h : (network.step action).endpoints[endpoint]? = some channel) : channel.sendQueue = [] := by
  have hupdate : ∀ (place : Nat) (act : IpcChannel → IpcChannel),
      (network.update place act).endpoints[endpoint]? = none := by
    intro place act
    rw [Network.update, List.getElem?_modify, hnone]
    rfl
  cases action with
  | starts channelId senderId senderGeneration targetId targetGeneration =>
    rw [Network.step, List.getElem?_append_right (List.getElem?_eq_none_iff.1 hnone),
      List.getElem?_singleton] at h
    split at h
    · cases h
      rfl
    · cases h
  | sends place command => exact absurd h (by simp [Network.step, hupdate])
  | flushes place message => exact absurd h (by simp [Network.step, hupdate])
  | delivers place message =>
    simp only [Network.step] at h
    split at h
    · simp [hnone] at h
    · simp [hupdate] at h
  | receives place => exact absurd h (by simp [Network.step, hupdate])
  | closes place => exact absurd h (by simp [Network.step, hupdate])

theorem departure_spec {network : Network} {action : Action} {message : IpcMessage}
    (h : departure endpoint network action = some message) :
    ∃ channel, network.endpoints[endpoint]? = some channel ∧
      message.identity = channel.identity := by
  cases action with
  | sends place command =>
    simp only [departure] at h
    split at h
    · obtain ⟨channel, hchannel, h⟩ := Option.bind_eq_some_iff.1 h
      obtain ⟨-, -, ⟨queued, hidentity, hok, hqueued⟩ | ⟨⟨error, hrefused⟩, -⟩⟩ :=
        send_spec channel command
      · rw [hok] at h
        obtain rfl : queued = message := by simpa [hqueued] using h
        exact ⟨channel, hchannel, hidentity⟩
      · simp [hrefused] at h
    · cases h
  | starts channelId senderId senderGeneration targetId targetGeneration => cases h
  | flushes place message => cases h
  | delivers place message => cases h
  | receives place => cases h
  | closes place => cases h

omit [MessageEncoding] in
theorem acceptance_wire {network : Network} {action : Action}
    {message : IpcMessage} (h : acceptance endpoint network action = some message) :
    (∃ sent ∈ network.wire, sent.message = message) ∧
      ∃ channel, network.endpoints[endpoint]? = some channel := by
  cases action with
  | delivers place position =>
    simp only [acceptance] at h
    split at h
    · obtain ⟨sent, hsent, h⟩ := Option.bind_eq_some_iff.1 h
      obtain ⟨channel, hchannel, h⟩ := Option.bind_eq_some_iff.1 h
      split at h
      · cases h
        exact ⟨⟨sent, mem_of_getElem? hsent, rfl⟩, channel, hchannel⟩
      · cases h
    · cases h
  | starts channelId senderId senderGeneration targetId targetGeneration => cases h
  | sends place command => cases h
  | flushes place message => cases h
  | receives place => cases h
  | closes place => cases h

theorem wire_step (network : Network) (action : Action) {sent : Sent}
    (h : sent ∈ (network.step action).wire) :
    sent ∈ network.wire ∨ ∃ channel, network.endpoints[sent.endpoint]? = some channel ∧
      sent.message ∈ channel.sendQueue := by
  cases action with
  | flushes place message =>
    obtain hold | hnew := mem_append.1 h
    · exact .inl hold
    · right
      rw [Option.mem_toList, Network.outgoing] at hnew
      obtain ⟨channel, hchannel, hnew⟩ := Option.bind_eq_some_iff.1 hnew
      obtain ⟨queued, hqueued, hnew⟩ := Option.bind_eq_some_iff.1 hnew
      cases hnew
      exact ⟨channel, hchannel, mem_of_getElem? hqueued⟩
  | delivers place message =>
    left
    simp only [Network.step] at h
    split at h <;> exact h
  | starts channelId senderId senderGeneration targetId targetGeneration => exact .inl h
  | sends place command => exact .inl h
  | receives place => exact .inl h
  | closes place => exact .inl h

/-! ## Runs -/

/-- Everything queued or on the wire has been sent by its endpoint, and an endpoint has
accepted no number above the last one it remembers. -/
structure Sound (actions : List Action) : Prop where
  queued : ∀ {endpoint : Nat} {channel : IpcChannel},
    (Network.run actions).endpoints[endpoint]? = some channel →
      ∀ message ∈ channel.sendQueue, message ∈ departures endpoint actions
  wired : ∀ sent ∈ (Network.run actions).wire, sent.message ∈ departures sent.endpoint actions
  departed : ∀ {endpoint : Nat}, ∀ message ∈ departures endpoint actions,
    ∃ channel, (Network.run actions).endpoints[endpoint]? = some channel ∧
      message.identity = channel.identity
  accepted : ∀ {endpoint : Nat}, ∀ message ∈ acceptances endpoint actions,
    ∃ channel, (Network.run actions).endpoints[endpoint]? = some channel ∧
      message.identity = channel.identity ∧ message.sequence ≤ channel.lastReceivedSequence ∧
        ∃ source, message ∈ departures source actions
  ordered : ∀ endpoint, ((acceptances endpoint actions).map (·.sequence)).Pairwise (· < ·)

theorem sound_run (actions : List Action) : Sound actions := by
  induction actions using reverseRecOn with
  | nil =>
    refine ⟨fun h => ?_, fun sent h => ?_, fun message h => ?_, fun message h => ?_, fun _ => ?_⟩
    · simp [Network.run, Network.initial] at h
    · simp [Network.run, Network.initial] at h
    · cases h
    · cases h
    · exact List.Pairwise.nil
  | append_singleton actions action ih =>
    have hrun : Network.run (actions ++ [action]) = (Network.run actions).step action :=
      History.run_concat ..
    have hdepartures : ∀ endpoint, departures endpoint (actions ++ [action]) =
        departures endpoint actions ++ (departure endpoint (Network.run actions) action).toList :=
      fun _ => History.observed_concat ..
    have hacceptances : ∀ endpoint, acceptances endpoint (actions ++ [action]) =
        acceptances endpoint actions ++ (acceptance endpoint (Network.run actions) action).toList :=
      fun _ => History.observed_concat ..
    refine ⟨fun {endpoint channel} hchannel message hmem => ?_, fun sent hsent => ?_,
      fun {endpoint} message hmem => ?_, fun {endpoint} message hmem => ?_, fun endpoint => ?_⟩
    · rw [hrun] at hchannel
      rw [hdepartures, mem_append, Option.mem_toList]
      cases hbefore : (Network.run actions).endpoints[endpoint]? with
      | none => simp [endpoint_new hbefore hchannel] at hmem
      | some channel' =>
        obtain ⟨after, hafter, -, hqueue, -⟩ := endpoint_step _ action hbefore
        obtain rfl : after = channel := Option.some.inj (hafter.symm.trans hchannel)
        exact (hqueue message hmem).imp (ih.queued hbefore message) id
    · rw [hrun] at hsent
      rw [hdepartures]
      refine mem_append_left _ ?_
      obtain hold | ⟨channel, hchannel, hqueued⟩ := wire_step _ action hsent
      · exact ih.wired sent hold
      · exact ih.queued hchannel _ hqueued
    · rw [hdepartures, mem_append, Option.mem_toList] at hmem
      obtain ⟨channel, hchannel, hidentity⟩ : ∃ channel,
          (Network.run actions).endpoints[endpoint]? = some channel ∧
            message.identity = channel.identity :=
        hmem.elim (ih.departed message) departure_spec
      obtain ⟨after, hafter, hsame, -⟩ := endpoint_step _ action hchannel
      exact ⟨after, hrun ▸ hafter, hidentity.trans hsame.symm⟩
    · rw [hacceptances, mem_append, Option.mem_toList] at hmem
      obtain hold | hnew := hmem
      · obtain ⟨channel, hchannel, hidentity, hlast, source, hsource⟩ := ih.accepted message hold
        obtain ⟨after, hafter, hsame, -, hnumber⟩ := endpoint_step _ action hchannel
        refine ⟨after, hrun ▸ hafter, hidentity.trans hsame.symm, ?_, source, ?_⟩
        · obtain ⟨-, hsameLast⟩ | ⟨other, -, hlt, heq, -⟩ := hnumber
          · exact hsameLast ▸ hlast
          · omega
        · rw [hdepartures]
          exact mem_append_left _ hsource
      · obtain ⟨⟨sent, hsent, rfl⟩, channel, hchannel⟩ := acceptance_wire hnew
        obtain ⟨after, hafter, hsame, -, hnumber⟩ := endpoint_step _ action hchannel
        obtain ⟨hnone, -⟩ | ⟨other, hother, -, heq, hidentity⟩ := hnumber
        · rw [hnone] at hnew
          cases hnew
        · obtain rfl : other = sent.message := Option.some.inj (hother.symm.trans hnew)
          refine ⟨after, hrun ▸ hafter, hidentity.trans hsame.symm, Nat.le_of_eq heq.symm, sent.endpoint, ?_⟩
          rw [hdepartures]
          exact mem_append_left _ (ih.wired sent hsent)
    · rw [hacceptances, map_append]
      cases hnew : acceptance endpoint (Network.run actions) action with
      | none => simpa using ih.ordered endpoint
      | some message =>
        obtain ⟨-, channel, hchannel⟩ := acceptance_wire hnew
        obtain ⟨after, -, -, -, hnumber⟩ := endpoint_step _ action hchannel
        obtain ⟨hnone, -⟩ | ⟨other, hother, hlt, -⟩ := hnumber
        · rw [hnone] at hnew
          cases hnew
        · obtain rfl : other = message := Option.some.inj (hother.symm.trans hnew)
          refine pairwise_append.2 ⟨ih.ordered endpoint, pairwise_singleton .., ?_⟩
          rintro sequence hmem later hlater
          obtain ⟨earlier, hearlier, rfl⟩ := mem_map.1 hmem
          obtain rfl : later = other.sequence := by simpa using hlater
          obtain ⟨channel', hchannel', -, hlast, -⟩ := ih.accepted earlier hearlier
          obtain rfl : channel' = channel := Option.some.inj (hchannel'.symm.trans hchannel)
          omega

/-- In every run an endpoint accepts increasing numbers, and only messages that an endpoint for
the same processes and generations has sent. -/
theorem acceptances_in_order (actions : List Action) (receiver : Nat) :
    ((acceptances receiver actions).map (·.sequence)).Pairwise (· < ·) ∧
      ∀ message ∈ acceptances receiver actions,
        ∃ source target channel, (Network.run actions).endpoints[source]? = some channel ∧
          (Network.run actions).endpoints[receiver]? = some target ∧
          channel.identity = target.identity ∧ message ∈ departures source actions := by
  have hsound := sound_run actions
  refine ⟨hsound.ordered receiver, fun message hmem => ?_⟩
  obtain ⟨target, htarget, hidentity, -, source, hsource⟩ := hsound.accepted message hmem
  obtain ⟨channel, hchannel, hown⟩ := hsound.departed message hsource
  exact ⟨source, target, channel, hchannel, htarget, hown.symm.trans hidentity, hsource⟩

end

end GhitaBrowser.Ipc
