import GhitaBrowser.Realtime.EventStream
import GhitaBrowser.Realtime.WebSocket

/-!
# Event sources

The worker of an event source connects, reads its stream and connects again until the page
closes it. A call of `close` leaves a signal for the worker.
-/

namespace GhitaBrowser.Realtime
open GhitaBrowser.Str

inductive EventSourceReadyState where
  | connecting
  | opened
  | closed
deriving DecidableEq

structure EventSourceClient where
  url : Text
  readyState : EventSourceReadyState
  lastEventId : Option Text
  reconnectIntervalMs : Nat
  receiveQueue : List EventSourceEvent
  lastError : Option String

def clampRetry (milliseconds : Nat) : Nat := max 100 (min milliseconds 60000)

namespace EventSourceClient

def receive (client : EventSourceClient) (event : EventSourceEvent) : EventSourceClient :=
  { client with
    lastEventId := some event.lastEventId
    receiveQueue :=
      if client.receiveQueue.length < maxRealtimeQueue then client.receiveQueue ++ [event]
      else client.receiveQueue }

/-- The `match event` of `pump_transport`. -/
def handle (client : EventSourceClient) : EventSourceTransportEvent → EventSourceClient
  | .opened => { client with readyState := .opened }
  | .event event => client.receive event
  | .retry milliseconds => { client with reconnectIntervalMs := clampRetry milliseconds }
  | .closed => { client with readyState := .closed }
  | .error error => { client with lastError := some error, readyState := .closed }

/-- The `match item` of `parse_sse_stream`, which leaves out the rest. -/
def handleParsed (client : EventSourceClient) : EventSourceTransportEvent → EventSourceClient
  | .event event => client.receive event
  | .retry milliseconds => { client with reconnectIntervalMs := clampRetry milliseconds }
  | _ => client

def parseSseStream (client : EventSourceClient) (text : Text) : EventSourceClient :=
  if maxSseBufferBytes < byteLen text then
    { client with
      lastError := some "EventSource buffer exceeds 1 MB"
      readyState := .closed }
  else (parseSseEvents text (client.lastEventId.getD [])).1.foldl handleParsed client

def popEvent (client : EventSourceClient) : Option EventSourceEvent × EventSourceClient :=
  (client.receiveQueue.head?, { client with receiveQueue := client.receiveQueue.tail })

end EventSourceClient

/-! ## The two threads -/

inductive SourceCall where
  | pumpTransport
  | pollEvent
deriving DecidableEq

inductive SourceTask where
  | idle
  | pumping (turns : Nat) (call : SourceCall)
  | ending (call : SourceCall)
deriving DecidableEq

/-- Where the worker is: before the check of a loop, in a request, in a read, in the wait
between two requests. -/
inductive SourceWorker where
  | starting
  | requesting
  | reading
  | receiving
  | waiting
  | leaving
  | gone
deriving DecidableEq

/-- `outbox` holds the events that the worker is about to send one by one. -/
structure Source where
  client : EventSourceClient
  task : SourceTask
  worker : SourceWorker
  stream : EventStream
  outbox : List EventSourceTransportEvent
  closeSignal : Bool
  events : List EventSourceTransportEvent

/-- The first three are the page's, the others the worker's and the network's. -/
inductive SourceAction where
  | calls (call : SourceCall)
  | continues
  | closes
  | parses (text : Text)
  | checks
  | requestFails (error : String)
  | answers
  | arrives (piece : Text)
  | ends (flushed : Text)
  | timesOut
  | breaks (error : String)
  | elapses
  | delivers
  | leaves
deriving DecidableEq

namespace Source

def new (url : Text) : Source :=
  { client :=
      { url, readyState := .connecting, lastEventId := none, reconnectIntervalMs := 3000
        receiveQueue := [], lastError := none }
    task := .idle
    worker := .starting
    stream := .new [] 3000
    outbox := []
    closeSignal := false
    events := [] }

/-- One `try_recv` of the loop of `pump_transport`. -/
def pumpOnce (source : Source) (turns : Nat) (call : SourceCall) : Source :=
  match source.events with
  | event :: events =>
    { source with client := source.client.handle event, events, task := .pumping turns call }
  | [] =>
    if source.worker = .gone then
      { source with client := { source.client with readyState := .closed }, task := .ending call }
    else { source with task := .ending call }

def continueCall (source : Source) : Source :=
  match source.task with
  | .idle => source
  | .pumping 0 call => { source with task := .ending call }
  | .pumping (turns + 1) call => source.pumpOnce turns call
  | .ending .pumpTransport => { source with task := .idle }
  | .ending .pollEvent => { source with client := source.client.popEvent.2, task := .idle }

/-- The channel of the signal holds one, and none when the worker is gone. -/
def closePage (source : Source) : Source :=
  { source with
    closeSignal := source.closeSignal || source.worker != .gone
    client := { source.client with readyState := .closed } }

/-- A `try_recv` of the signal, and what follows when there is one. -/
def checkSignal (source : Source) (next : SourceWorker) : Source :=
  if source.closeSignal then
    { source with closeSignal := false, outbox := [.closed], worker := .leaving }
  else { source with worker := next }

/-- The events of the stream go to the outbox. -/
def publish (source : Source) (stream : EventStream) (next : SourceWorker) : Source :=
  { source with outbox := stream.events, stream := { stream with events := [] }, worker := next }

/-- What the worker does when its outbox is empty. -/
def work (source : Source) : SourceAction → Source
  | .checks =>
    match source.worker with
    | .starting => source.checkSignal .requesting
    | .reading => source.checkSignal .receiving
    | .waiting => source.checkSignal .waiting
    | _ => source
  | .requestFails error =>
    if source.worker = .requesting then { source with outbox := [.error error], worker := .waiting }
    else source
  | .answers =>
    if source.worker = .requesting then
      { source with
        outbox := [.opened]
        stream := .new source.stream.lastId source.stream.reconnectMs
        worker := .reading }
    else source
  | .arrives piece =>
    if source.worker = .receiving then
      let stream := source.stream.read piece
      source.publish stream (if stream.finished then .leaving else .reading)
    else source
  | .ends flushed =>
    if source.worker = .receiving then source.publish (source.stream.finish flushed) .waiting
    else source
  | .timesOut => if source.worker = .receiving then { source with worker := .reading } else source
  | .breaks error =>
    if source.worker = .receiving then { source with outbox := [.error error], worker := .waiting }
    else source
  | .elapses => if source.worker = .waiting then { source with worker := .starting } else source
  | .leaves => if source.worker = .leaving then { source with worker := .gone } else source
  | _ => source

def step (source : Source) (action : SourceAction) : Source :=
  match action with
  | .calls call =>
    if source.task = .idle then { source with task := .pumping maxEventsPerPump call } else source
  | .continues => source.continueCall
  | .closes => if source.task = .idle then source.closePage else source
  | .parses text =>
    if source.task = .idle then { source with client := source.client.parseSseStream text }
    else source
  | .delivers =>
    match source.outbox with
    | [] => source
    | event :: outbox => { source with events := trySend source.events event, outbox }
  | action => if source.outbox.isEmpty then source.work action else source

end Source

end GhitaBrowser.Realtime
