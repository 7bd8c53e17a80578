import GhitaBrowser.Lib.History
import GhitaBrowser.Lib.OrdMap

/-!
# Broadcast channels

The bus keeps, for an origin and a name, the channels that are registered there, and for each
channel the queue of what it has not polled yet. The pages hold the channels.
-/

namespace GhitaBrowser.Messaging

/-- Messages waiting for one channel. -/
def maxQueuedMessages : Nat := 100

def maxMessageBytes : Nat := 1048576

structure BroadcastChannelBus where
  /-- By origin and name, in the order of registration. -/
  channels : String × String → List Nat
  queues : IdMap (List String)
  nextChannelId : Nat

namespace BroadcastChannelBus

def new : BroadcastChannelBus := { channels := fun _ => [], queues := ∅, nextChannelId := 1 }

def register (bus : BroadcastChannelBus) (origin name : String) : Nat × BroadcastChannelBus :=
  let id := bus.nextChannelId
  (id, { channels := Function.update bus.channels (origin, name) (bus.channels (origin, name) ++ [id])
         queues := bus.queues.insert id []
         nextChannelId := id + 1 })

def unregister (bus : BroadcastChannelBus) (origin name : String) (id : Nat) :
    BroadcastChannelBus :=
  { bus with
    channels := Function.update bus.channels (origin, name)
      ((bus.channels (origin, name)).filter (· != id))
    queues := bus.queues.erase id }

/-- A full queue takes nothing. -/
def push (message : String) (queue : List String) : List String :=
  if queue.length < maxQueuedMessages then queue ++ [message] else queue

def postMessage (bus : BroadcastChannelBus) (origin name : String) (sender : Nat)
    (message : String) : BroadcastChannelBus :=
  { bus with
    queues := (bus.channels (origin, name)).foldl
      (fun queues id => if id != sender then queues.modify id (push message) else queues) bus.queues }

def pollMessage (bus : BroadcastChannelBus) (id : Nat) : Option String × BroadcastChannelBus :=
  match bus.queues[id]? with
  | some (message :: queue) => (some message, { bus with queues := bus.queues.insert id queue })
  | _ => (none, bus)

end BroadcastChannelBus

structure BroadcastChannel where
  id : Nat
  origin : String
  name : String
  closed : Bool

namespace BroadcastChannel

def new (bus : BroadcastChannelBus) (origin name : String) :
    BroadcastChannel × BroadcastChannelBus :=
  let (id, bus) := bus.register origin name
  ({ id, origin, name, closed := false }, bus)

def postMessage (channel : BroadcastChannel) (bus : BroadcastChannelBus) (message : String) :
    Except String Unit × BroadcastChannelBus :=
  if channel.closed then (.error "BroadcastChannel is closed", bus)
  else if maxMessageBytes < message.utf8ByteSize then
    (.error "BroadcastChannel message exceeds 1 MB limit", bus)
  else (.ok (), bus.postMessage channel.origin channel.name channel.id message)

def pollMessage (channel : BroadcastChannel) (bus : BroadcastChannelBus) :
    Option String × BroadcastChannelBus :=
  if channel.closed then (none, bus) else bus.pollMessage channel.id

def close (channel : BroadcastChannel) (bus : BroadcastChannelBus) :
    BroadcastChannel × BroadcastChannelBus :=
  if channel.closed then (channel, bus)
  else ({ channel with closed := true }, bus.unregister channel.origin channel.name channel.id)

end BroadcastChannel

/-! ## Runs -/

/-- The bus and the channels of the pages, in the order they were opened. -/
structure Pages where
  bus : BroadcastChannelBus
  handles : List BroadcastChannel

def Pages.initial : Pages := { bus := .new, handles := [] }

/-- What the pages do, with a channel by its place. Dropping a channel closes it. -/
inductive Action where
  | opens (origin name : String)
  | posts (sender : Nat) (message : String)
  | polls (receiver : Nat)
  | closes (channel : Nat)

def Pages.step (pages : Pages) : Action → Pages
  | .opens origin name =>
    let (channel, bus) := BroadcastChannel.new pages.bus origin name
    { bus, handles := pages.handles ++ [channel] }
  | .posts sender message =>
    match pages.handles[sender]? with
    | none => pages
    | some channel => { pages with bus := (channel.postMessage pages.bus message).2 }
  | .polls receiver =>
    match pages.handles[receiver]? with
    | none => pages
    | some channel => { pages with bus := (channel.pollMessage pages.bus).2 }
  | .closes place =>
    match pages.handles[place]? with
    | none => pages
    | some channel =>
      let (channel, bus) := channel.close pages.bus
      { bus, handles := pages.handles.set place channel }

def Pages.run (actions : List Action) : Pages := History.run Pages.step .initial actions

end GhitaBrowser.Messaging

/-!
## What a broadcast channel receives

An offer is a message that another channel of the same origin and name posts while the receiver
is open. The receiver polls the offers in their order, without those that met a full queue.
-/

namespace GhitaBrowser.Messaging

open List

structure Offer where
  message : String
  /-- The queue of the receiver was at its limit. -/
  full : Bool

/-- The queue of the channel at a place. -/
def Pages.queueAt (pages : Pages) (place : Nat) : List String :=
  ((pages.handles[place]?).bind fun channel => pages.bus.queues[channel.id]?).getD []

/-- What an action offers to a channel. -/
def offer (receiver : Nat) (pages : Pages) : Action → Option Offer
  | .posts sender message =>
    match pages.handles[sender]?, pages.handles[receiver]? with
    | some source, some target =>
      if sender ≠ receiver ∧ source.closed = false ∧ target.closed = false ∧
          source.origin = target.origin ∧ source.name = target.name ∧
          message.utf8ByteSize ≤ maxMessageBytes then
        some { message, full := maxQueuedMessages ≤ (pages.queueAt receiver).length }
      else none
    | _, _ => none
  | _ => none

/-- What a channel receives by an action. -/
def reception (receiver : Nat) (pages : Pages) : Action → Option String
  | .polls place =>
    if place = receiver then
      (pages.handles[receiver]?).bind fun channel => (channel.pollMessage pages.bus).1
    else none
  | _ => none

def offers (receiver : Nat) (actions : List Action) : List Offer :=
  History.observed Pages.step (offer receiver) .initial actions

def receptions (receiver : Nat) (actions : List Action) : List String :=
  History.observed Pages.step (reception receiver) .initial actions

/-- The offers that found room. -/
def taken (offers : List Offer) : List String := (offers.filter (!·.full)).map (·.message)

theorem taken_append (earlier later : List Offer) :
    taken (earlier ++ later) = taken earlier ++ taken later := by
  simp [taken]

/-! ## The bus -/

/-- The channel at a place is open. -/
def OpenAt (handles : List BroadcastChannel) (place : Nat) (origin name : String) : Prop :=
  ∃ channel, handles[place]? = some channel ∧ channel.closed = false ∧
    channel.origin = origin ∧ channel.name = name

/-- The bus knows the open channels, each once and with a queue. -/
structure Registered (pages : Pages) : Prop where
  next : pages.bus.nextChannelId = pages.handles.length + 1
  ids : ∀ {place : Nat} {channel : BroadcastChannel}, pages.handles[place]? = some channel →
    channel.id = place + 1
  members : ∀ {origin name : String} {id : Nat},
    id ∈ pages.bus.channels (origin, name) ↔ ∃ place, id = place + 1 ∧ OpenAt pages.handles place origin name
  nodup : ∀ key, (pages.bus.channels key).Nodup
  queues : ∀ {id : Nat}, (pages.bus.queues[id]?).isSome = true ↔
    ∃ place origin name, id = place + 1 ∧ OpenAt pages.handles place origin name

theorem Registered.queueAt {pages : Pages} (h : Registered pages) (place : Nat) :
    pages.queueAt place = (pages.bus.queues[place + 1]?).getD [] := by
  rw [Pages.queueAt]
  cases hplace : pages.handles[place]? with
  | some channel => rw [Option.bind_some, h.ids hplace]
  | none =>
    cases hqueue : pages.bus.queues[place + 1]? with
    | none => rfl
    | some queue =>
      obtain ⟨other, _, _, hother, channel, hopen, -⟩ := h.queues.1 (by rw [hqueue]; rfl)
      obtain rfl : place = other := by omega
      rw [hplace] at hopen
      cases hopen

theorem deliver_getElem? {ids : List Nat} (hnodup : ids.Nodup) (sender : Nat) (message : String)
    (queues : IdMap (List String)) (id : Nat) :
    (ids.foldl (fun queues id =>
        if id != sender then queues.modify id (BroadcastChannelBus.push message) else queues)
        queues)[id]? =
      if id ∈ ids ∧ id ≠ sender then (queues[id]?).map (BroadcastChannelBus.push message)
      else queues[id]? := by
  induction ids generalizing queues with
  | nil => simp
  | cons first ids ih =>
    obtain ⟨hfirst, hrest⟩ := nodup_cons.1 hnodup
    rw [foldl_cons, ih hrest]
    by_cases hsender : first = sender
    · subst hsender
      by_cases hid : id = first
      · subst hid
        simp
      · simp [hid]
    · by_cases hid : id = first
      · subst hid
        simp [hfirst, hsender]
      · simp [hid, hsender, IdMap.getElem?_modify]

/-! ## Steps -/

variable {channel : BroadcastChannel} {place : Nat}

theorem openAt_concat {handles : List BroadcastChannel} {origin name : String} :
    OpenAt (handles ++ [channel]) place origin name ↔
      OpenAt handles place origin name ∨ place = handles.length ∧ channel.closed = false ∧
        channel.origin = origin ∧ channel.name = name := by
  simp only [OpenAt, List.getElem?_append]
  split
  · next hlt => simp [Nat.ne_of_lt hlt]
  · next hge =>
    have hnone : handles[place]? = none := List.getElem?_eq_none (Nat.not_lt.1 hge)
    rw [hnone]
    by_cases hplace : place = handles.length
    · simp [hplace]
    · have hbeyond : place - handles.length ≠ 0 := by omega
      simp [hplace, hbeyond]

theorem openAt_close {handles : List BroadcastChannel} {closing : Nat}
    (hclosed : channel.closed = true) {origin name : String} :
    OpenAt (handles.set closing channel) place origin name ↔
      place ≠ closing ∧ OpenAt handles place origin name := by
  simp only [OpenAt]
  by_cases hplace : place = closing
  · subst hplace
    rw [List.getElem?_set_self']
    cases handles[place]? <;> simp [hclosed]
  · rw [List.getElem?_set_ne (Ne.symm hplace)]
    simp [hplace]

theorem registered_initial : Registered .initial where
  next := rfl
  ids := by simp [Pages.initial]
  members := by simp [Pages.initial, BroadcastChannelBus.new, OpenAt]
  nodup := by simp [Pages.initial, BroadcastChannelBus.new]
  queues := by simp [Pages.initial, BroadcastChannelBus.new, OpenAt]

variable {pages : Pages}

theorem Registered.withQueues (h : Registered pages) {queues : IdMap (List String)}
    (hqueues : ∀ id : Nat, (queues[id]?).isSome = (pages.bus.queues[id]?).isSome) :
    Registered { pages with bus := { pages.bus with queues } } where
  next := h.next
  ids := h.ids
  members := h.members
  nodup := h.nodup
  queues := by
    intro id
    rw [hqueues]
    exact h.queues

theorem Registered.opens (h : Registered pages) (origin name : String) :
    Registered (pages.step (.opens origin name)) where
  next := by
    show pages.bus.nextChannelId + 1 = _
    rw [h.next]
    simp [Pages.step, BroadcastChannel.new, BroadcastChannelBus.register]
  ids := by
    intro place channel hplace
    simp only [Pages.step, BroadcastChannel.new, BroadcastChannelBus.register,
      List.getElem?_append, List.getElem?_singleton] at hplace
    split at hplace
    · exact h.ids hplace
    · split at hplace
      · cases hplace
        show pages.bus.nextChannelId = place + 1
        rw [h.next]
        omega
      · cases hplace
  members := by
    intro origin' name' id
    simp only [Pages.step, BroadcastChannel.new, BroadcastChannelBus.register, openAt_concat,
      Function.update_apply]
    by_cases hkey : (origin', name') = (origin, name)
    · obtain ⟨rfl, rfl⟩ := Prod.mk.inj hkey
      rw [if_pos rfl, mem_append, h.members, mem_singleton, h.next]
      constructor
      · rintro (⟨place, hid, hopen⟩ | hid)
        · exact ⟨place, hid, .inl hopen⟩
        · exact ⟨pages.handles.length, hid, .inr (by simp)⟩
      · rintro ⟨place, hid, hopen | ⟨rfl, -⟩⟩
        · exact .inl ⟨place, hid, hopen⟩
        · exact .inr hid
    · rw [if_neg hkey, h.members]
      refine exists_congr fun place => and_congr Iff.rfl (iff_self_or.2 ?_)
      rintro ⟨-, -, rfl, rfl⟩
      exact absurd rfl hkey
  nodup := by
    intro key
    simp only [Pages.step, BroadcastChannel.new, BroadcastChannelBus.register,
      Function.update_apply]
    split
    · refine nodup_append.2 ⟨h.nodup _, by simp, fun id hid other hother => ?_⟩
      obtain ⟨place, rfl, channel, hplace, -⟩ := h.members.1 hid
      have hlt := (List.getElem?_eq_some_iff.1 hplace).1
      rw [mem_singleton, h.next] at hother
      omega
    · exact h.nodup key
  queues := by
    intro id
    simp only [Pages.step, BroadcastChannel.new, BroadcastChannelBus.register, openAt_concat,
      IdMap.getElem?_insert]
    split
    · next hid =>
      rw [h.next] at hid
      simp only [Option.isSome_some, true_iff]
      exact ⟨_, origin, name, hid, .inr (by simp)⟩
    · next hid =>
      rw [h.queues]
      refine exists_congr fun place => exists_congr fun origin' => exists_congr fun name' =>
        and_congr_right fun hplace => iff_self_or.2 ?_
      rintro ⟨rfl, -⟩
      exact absurd (hplace.trans h.next.symm) hid

theorem Registered.close (h : Registered pages)
    (hplace : pages.handles[place]? = some channel) (hclosed : channel.closed = false) :
    Registered
      { bus := pages.bus.unregister channel.origin channel.name channel.id
        handles := pages.handles.set place { channel with closed := true } } where
  next := by
    rw [length_set]
    exact h.next
  ids := by
    intro other channel' hother
    rw [List.getElem?_set] at hother
    split at hother
    · next hsame =>
      subst hsame
      split at hother
      · cases hother
        show channel.id = place + 1
        exact h.ids hplace
      · cases hother
    · exact h.ids hother
  members := by
    intro origin name id
    simp only [BroadcastChannelBus.unregister, openAt_close, Function.update_apply]
    split
    · next hkey =>
      obtain ⟨rfl, rfl⟩ := Prod.mk.inj hkey
      rw [mem_filter, h.members, h.ids hplace]
      constructor
      · rintro ⟨⟨other, rfl, hopen⟩, hother⟩
        exact ⟨other, rfl, by simpa using hother, hopen⟩
      · rintro ⟨other, rfl, hother, hopen⟩
        exact ⟨⟨other, rfl, hopen⟩, by simpa using hother⟩
    · next hkey =>
      rw [h.members]
      refine exists_congr fun other => and_congr_right fun _ => (and_iff_right_of_imp ?_).symm
      rintro ⟨channel', hother, -, rfl, rfl⟩ rfl
      obtain rfl : channel' = channel := Option.some.inj (hother.symm.trans hplace)
      exact hkey rfl
  nodup := by
    intro key
    simp only [BroadcastChannelBus.unregister, Function.update_apply]
    split
    · exact (h.nodup _).filter _
    · exact h.nodup key
  queues := by
    intro id
    simp only [BroadcastChannelBus.unregister, openAt_close, IdMap.getElem?_erase, h.ids hplace]
    split
    · next hid =>
      simp only [Option.isSome_none, Bool.false_eq_true, false_iff]
      rintro ⟨other, _, _, hother, hne, -⟩
      omega
    · next hid =>
      rw [h.queues]
      refine exists_congr fun other => exists_congr fun origin => exists_congr fun name =>
        and_congr_right fun hother => (and_iff_right ?_).symm
      rintro rfl
      exact hid hother

theorem Registered.step (h : Registered pages) (action : Action) : Registered (pages.step action) := by
  cases action with
  | opens origin name => exact h.opens origin name
  | posts sender message =>
    rw [Pages.step]
    cases hsender : pages.handles[sender]? with
    | none => exact h
    | some channel =>
      simp only [BroadcastChannel.postMessage]
      split
      · exact h
      · split
        · exact h
        · refine h.withQueues fun id => ?_
          rw [deliver_getElem? (h.nodup _)]
          split <;> simp
  | polls receiver =>
    rw [Pages.step]
    cases hreceiver : pages.handles[receiver]? with
    | none => exact h
    | some channel =>
      simp only [BroadcastChannel.pollMessage, BroadcastChannelBus.pollMessage]
      split
      · exact h
      · split
        · next hqueue =>
          refine h.withQueues fun id => ?_
          rw [IdMap.getElem?_insert]
          split
          · next hid => rw [hid, hqueue]; rfl
          · rfl
        · exact h
  | closes place =>
    rw [Pages.step]
    cases hplace : pages.handles[place]? with
    | none => exact h
    | some channel =>
      cases hclosed : channel.closed with
      | false =>
        simp only [BroadcastChannel.close, hclosed, Bool.false_eq_true, if_false]
        exact h.close hplace hclosed
      | true =>
        have hset : pages.handles.set place channel = pages.handles := by
          obtain ⟨hlt, rfl⟩ := List.getElem?_eq_some_iff.1 hplace
          exact set_getElem_self hlt
        simpa [BroadcastChannel.close, hclosed, hset] using h

/-! ## Accounts -/

theorem queueAt_unopened (hnone : pages.handles[place]? = none) :
    pages.queueAt place = [] := by
  rw [Pages.queueAt, hnone]
  rfl

theorem queue_open (h : Registered pages)
    (hplace : pages.handles[place]? = some channel) (hclosed : channel.closed = false) :
    pages.bus.queues[channel.id]? = some (pages.queueAt place) := by
  have hsome : (pages.bus.queues[channel.id]?).isSome = true :=
    h.queues.2 ⟨place, _, _, h.ids hplace, channel, hplace, hclosed, rfl, rfl⟩
  obtain ⟨queue, hqueue⟩ := Option.isSome_iff_exists.1 hsome
  rw [Pages.queueAt, hplace, Option.bind_some, hqueue]
  rfl

theorem handles_posts (pages : Pages) (sender : Nat) (message : String) :
    (pages.step (.posts sender message)).handles = pages.handles := by
  rw [Pages.step]
  cases pages.handles[sender]? <;> rfl

theorem handles_polls (pages : Pages) (place : Nat) :
    (pages.step (.polls place)).handles = pages.handles := by
  rw [Pages.step]
  cases pages.handles[place]? <;> rfl

variable {receiver : Nat}

theorem account_posts (h : Registered pages) (sender : Nat) (message : String)
    {target : BroadcastChannel} (hreceiver : pages.handles[receiver]? = some target)
    (hopen : target.closed = false) :
    (pages.step (.posts sender message)).queueAt receiver =
      pages.queueAt receiver ++ taken (offer receiver pages (.posts sender message)).toList := by
  cases hsender : pages.handles[sender]? with
  | none => simp [Pages.step, offer, hsender, taken]
  | some source =>
    have hqueue := queue_open h hreceiver hopen
    rw [Pages.queueAt, handles_posts, hreceiver, Option.bind_some]
    simp only [Pages.step, hsender, BroadcastChannel.postMessage, offer, hreceiver]
    cases hclosed : source.closed with
    | true => simp [hqueue, taken]
    | false =>
      by_cases hlong : maxMessageBytes < message.utf8ByteSize
      · simp [hlong, Nat.not_le.2 hlong, hqueue, taken]
      · have hlisted : target.id ∈ pages.bus.channels (source.origin, source.name) ↔
            source.origin = target.origin ∧ source.name = target.name := by
          rw [h.members]
          constructor
          · rintro ⟨place, hid, other, hplace, -, horigin, hname⟩
            obtain rfl : receiver = place := by
              rw [h.ids hreceiver] at hid
              omega
            obtain rfl : target = other := Option.some.inj (hreceiver.symm.trans hplace)
            exact ⟨horigin.symm, hname.symm⟩
          · rintro ⟨horigin, hname⟩
            exact ⟨receiver, h.ids hreceiver, target, hreceiver, hopen, horigin.symm, hname.symm⟩
        have hother : target.id ≠ source.id ↔ sender ≠ receiver := by
          rw [h.ids hreceiver, h.ids hsender]
          omega
        simp only [Bool.false_eq_true, if_false, hlong, BroadcastChannelBus.postMessage,
          deliver_getElem? (h.nodup _), hlisted, hother, hqueue, hopen]
        by_cases hto : (source.origin = target.origin ∧ source.name = target.name) ∧ sender ≠ receiver
        · obtain ⟨⟨horigin, hname⟩, hne⟩ := hto
          have hshort : message.utf8ByteSize ≤ maxMessageBytes := Nat.not_lt.1 hlong
          simp only [horigin, hname, hne, hshort, ne_eq, not_false_eq_true, and_self, if_true,
            Option.map_some, Option.getD_some, BroadcastChannelBus.push]
          by_cases hroom : (pages.queueAt receiver).length < maxQueuedMessages
          · simp [taken, hroom]
          · simp [taken, hroom, Nat.not_lt.1 hroom]
        · have hnot : ¬(sender ≠ receiver ∧ source.origin = target.origin ∧
              source.name = target.name ∧ message.utf8ByteSize ≤ maxMessageBytes) := by
            rintro ⟨hne, horigin, hname, -⟩
            exact hto ⟨⟨horigin, hname⟩, hne⟩
          rw [if_neg hto]
          simp only [true_and, if_neg hnot]
          simp [taken]

theorem account_polls (h : Registered pages) (place : Nat) {target : BroadcastChannel}
    (hreceiver : pages.handles[receiver]? = some target) (hopen : target.closed = false) :
    (reception receiver pages (.polls place)).toList ++
        (pages.step (.polls place)).queueAt receiver = pages.queueAt receiver := by
  cases hplace : pages.handles[place]? with
  | none =>
    have hne : place ≠ receiver := by
      rintro rfl
      rw [hplace] at hreceiver
      cases hreceiver
    simp [Pages.step, hplace, reception, hne]
  | some channel =>
    have hqueue := queue_open h hreceiver hopen
    rw [Pages.queueAt, handles_polls, hreceiver, Option.bind_some]
    simp only [Pages.step, hplace, reception, hreceiver, Option.bind_some]
    by_cases hsame : place = receiver
    · subst hsame
      obtain rfl : channel = target := Option.some.inj (hplace.symm.trans hreceiver)
      simp only [BroadcastChannel.pollMessage, hopen, Bool.false_eq_true, if_false,
        BroadcastChannelBus.pollMessage, hqueue, if_true]
      cases hcase : pages.queueAt place with
      | nil => simp [hqueue, hcase]
      | cons message queue => simp
    · simp only [if_neg hsame, Option.toList_none, nil_append]
      have hids : target.id ≠ channel.id := by
        rw [h.ids hreceiver, h.ids hplace]
        omega
      simp only [BroadcastChannel.pollMessage, BroadcastChannelBus.pollMessage]
      split
      · simp [hqueue]
      · split
        · simp [IdMap.getElem?_insert, hids, hqueue]
        · simp [hqueue]


theorem account_step (h : Registered pages) (action : Action)
    (hopen : ∀ channel, (pages.step action).handles[receiver]? = some channel →
      channel.closed = false) :
    (reception receiver pages action).toList ++ (pages.step action).queueAt receiver =
      pages.queueAt receiver ++ taken (offer receiver pages action).toList := by
  cases action with
  | opens origin name =>
    have hafter := (h.step (.opens origin name)).queueAt receiver
    simp only [Pages.step, BroadcastChannel.new, BroadcastChannelBus.register,
      IdMap.getElem?_insert, h.next] at hafter
    simp only [reception, offer, taken, Option.toList_none, nil_append, filter_nil,
      map_nil, append_nil, Pages.step, BroadcastChannel.new,
      BroadcastChannelBus.register, h.next, hafter]
    split
    · next hnew =>
      have hnone : pages.handles[receiver]? = none := List.getElem?_eq_none (by omega)
      rw [queueAt_unopened hnone]
      rfl
    · rw [h.queueAt]
  | posts sender message =>
    rw [handles_posts] at hopen
    cases hreceiver : pages.handles[receiver]? with
    | some target => exact account_posts h sender message hreceiver (hopen target hreceiver)
    | none =>
      have hafter : (pages.step (.posts sender message)).handles[receiver]? = none := by
        rw [handles_posts, hreceiver]
      rw [queueAt_unopened hafter, queueAt_unopened hreceiver]
      simp [reception, offer, hreceiver, taken]
  | polls place =>
    rw [handles_polls] at hopen
    cases hreceiver : pages.handles[receiver]? with
    | some target =>
      rw [account_polls h place hreceiver (hopen target hreceiver)]
      simp [offer, taken]
    | none =>
      have hafter : (pages.step (.polls place)).handles[receiver]? = none := by
        rw [handles_polls, hreceiver]
      rw [queueAt_unopened hafter, queueAt_unopened hreceiver]
      simp [reception, offer, hreceiver, taken]
  | closes place =>
    have hafter := (h.step (.closes place)).queueAt receiver
    simp only [reception, offer, taken, Option.toList_none, nil_append, filter_nil,
      map_nil, append_nil, hafter, h.queueAt]
    cases hplace : pages.handles[place]? with
    | none => simp [Pages.step, hplace]
    | some channel =>
      cases hclosed : channel.closed with
      | true => simp [Pages.step, hplace, BroadcastChannel.close, hclosed]
      | false =>
        have hother : receiver + 1 ≠ channel.id := by
          rw [h.ids hplace]
          intro hsame
          obtain rfl : receiver = place := by omega
          have hlt := (List.getElem?_eq_some_iff.1 hplace).1
          have hclosing : (pages.step (.closes receiver)).handles[receiver]? =
              some { channel with closed := true } := by
            rw [Pages.step, hplace]
            simp [BroadcastChannel.close, hclosed, hlt]
          cases hopen _ hclosing
        simp [Pages.step, hplace, BroadcastChannel.close, hclosed,
          BroadcastChannelBus.unregister, IdMap.getElem?_erase, hother]

theorem closed_step (action : Action)
    (hreceiver : pages.handles[receiver]? = some channel) (hclosed : channel.closed = true) :
    (pages.step action).handles[receiver]? = some channel := by
  cases action with
  | opens origin name =>
    exact (List.getElem?_append_left (List.getElem?_eq_some_iff.1 hreceiver).1).trans hreceiver
  | posts sender message =>
    rw [Pages.step]
    cases pages.handles[sender]? <;> exact hreceiver
  | polls place =>
    rw [Pages.step]
    cases pages.handles[place]? <;> exact hreceiver
  | closes place =>
    rw [Pages.step]
    cases hplace : pages.handles[place]? with
    | none => exact hreceiver
    | some closing =>
      by_cases hsame : place = receiver
      · subst hsame
        obtain rfl : closing = channel := Option.some.inj (hplace.symm.trans hreceiver)
        have hlt := (List.getElem?_eq_some_iff.1 hplace).1
        simp [BroadcastChannel.close, hclosed, hlt]
      · simpa [List.getElem?_set_ne hsame] using hreceiver

theorem account_closed (action : Action)
    (hafter : (pages.step action).handles[receiver]? = some channel)
    (hclosed : channel.closed = true) :
    reception receiver pages action = none ∧ offer receiver pages action = none := by
  cases action with
  | opens origin name => exact ⟨rfl, rfl⟩
  | closes place => exact ⟨rfl, rfl⟩
  | posts sender message =>
    rw [handles_posts] at hafter
    refine ⟨rfl, ?_⟩
    cases hsender : pages.handles[sender]? <;> simp [offer, hafter, hsender, hclosed]
  | polls place =>
    rw [handles_polls] at hafter
    refine ⟨?_, rfl⟩
    simp [reception, hafter, BroadcastChannel.pollMessage, hclosed]

/-- Every channel receives, in their order, a part of the messages that other open channels of
its origin and name post while it is open: those that find room in its queue. While it is open
the rest of them waits in the queue. -/
theorem receives_offered (actions : List Action) (receiver : Nat) :
    (receptions receiver actions).Sublist ((offers receiver actions).map (·.message)) ∧
      receptions receiver actions <+: taken (offers receiver actions) ∧
      ∀ channel, (Pages.run actions).handles[receiver]? = some channel → channel.closed = false →
        receptions receiver actions ++ (Pages.run actions).queueAt receiver =
          taken (offers receiver actions) := by
  have hregistered : ∀ actions, Registered (Pages.run actions) :=
    History.run_invariant _ registered_initial fun _ action h => h.step action
  -- A channel that is not open yet has been offered nothing and has an empty queue.
  have haccounts : receptions receiver actions <+: taken (offers receiver actions) ∧
      ((∀ channel, (Pages.run actions).handles[receiver]? = some channel → channel.closed = false) →
        receptions receiver actions ++ (Pages.run actions).queueAt receiver =
          taken (offers receiver actions)) := by
    induction actions using reverseRecOn with
    | nil => exact ⟨prefix_rfl, fun _ => rfl⟩
    | append_singleton actions action ih =>
      obtain ⟨hreceived, hwaiting⟩ := ih
      have hrun : Pages.run (actions ++ [action]) = (Pages.run actions).step action :=
        History.run_concat ..
      have hreceptions : receptions receiver (actions ++ [action]) = receptions receiver actions ++
          (reception receiver (Pages.run actions) action).toList := History.observed_concat ..
      have hoffers : offers receiver (actions ++ [action]) = offers receiver actions ++
          (offer receiver (Pages.run actions) action).toList := History.observed_concat ..
      rw [hrun, hreceptions, hoffers, taken_append]
      by_cases hafter : ∀ channel, ((Pages.run actions).step action).handles[receiver]? =
          some channel → channel.closed = false
      · have hbefore : ∀ channel, (Pages.run actions).handles[receiver]? = some channel →
            channel.closed = false := by
          intro channel hplace
          by_contra hclosed
          have hstays := closed_step action hplace (by simpa using hclosed)
          exact hclosed (hafter channel hstays)
        have hqueue : receptions receiver actions ++
            (reception receiver (Pages.run actions) action).toList ++
              ((Pages.run actions).step action).queueAt receiver =
                taken (offers receiver actions) ++
                  taken (offer receiver (Pages.run actions) action).toList := by
          rw [append_assoc, account_step (hregistered actions) action hafter,
            ← append_assoc, hwaiting hbefore]
        exact ⟨⟨_, hqueue⟩, fun _ => hqueue⟩
      · simp only [not_forall] at hafter
        obtain ⟨channel, hplace, hclosed⟩ := hafter
        obtain ⟨hnothing, hnone⟩ := account_closed action hplace (by simpa using hclosed)
        rw [hnothing, hnone]
        refine ⟨?_, fun hopen => absurd (hopen channel hplace) hclosed⟩
        simpa [taken] using hreceived
  refine ⟨?_, haccounts.1, fun channel hplace hclosed => haccounts.2 fun other hother => ?_⟩
  · exact haccounts.1.sublist.trans (filter_sublist.map _)
  · obtain rfl : channel = other := Option.some.inj (hplace.symm.trans hother)
    exact hclosed

end GhitaBrowser.Messaging
