import GhitaBrowser.Lib.History
import GhitaBrowser.Lib.Str

/-!
# WebSockets

The page's thread and the worker of a socket share two bounded channels. Every access to a
channel is one step, so that the worker may act between any two of the page's.
-/

namespace GhitaBrowser.Realtime
open GhitaBrowser.Str

def maxRealtimeMessageBytes : Nat := 1024 * 1024
def maxRealtimeQueue : Nat := 100
def maxEventsPerPump : Nat := 128

/-- `try_send` of a `sync_channel` whose receiver lives: a full channel takes nothing. -/
def trySend {α : Type} (channel : List α) (item : α) : List α :=
  if channel.length < maxRealtimeQueue then channel ++ [item] else channel

inductive WebSocketReadyState where
  | connecting
  | opened
  | closing
  | closed
deriving DecidableEq

def WebSocketReadyState.code : WebSocketReadyState → Nat
  | connecting => 0
  | opened => 1
  | closing => 2
  | closed => 3

inductive WebSocketMessage where
  | text (text : Text)
  | binary (bytes : List UInt8)
deriving DecidableEq

inductive WebSocketCommand where
  | send (message : WebSocketMessage)
  | close (code : Option Nat) (reason : Option Text)
deriving DecidableEq

inductive WebSocketTransportEvent where
  | opened (protocol : Text)
  | message (message : WebSocketMessage)
  | sent (bytes : Nat)
  | closed
  | error (error : Text)
deriving DecidableEq

def messageLen : WebSocketMessage → Nat
  | .text text => byteLen text
  | .binary bytes => bytes.length

structure WebSocketClient where
  url : Text
  protocol : Text
  readyState : WebSocketReadyState
  bufferedAmount : Nat
  receiveQueue : List WebSocketMessage
  sentQueue : List WebSocketMessage
  lastError : Option Text

namespace WebSocketClient

/-- The `match event` of `pump_transport`. -/
def handle (client : WebSocketClient) : WebSocketTransportEvent → WebSocketClient
  | .opened protocol => { client with protocol, readyState := .opened }
  | .message message =>
    if client.receiveQueue.length < maxRealtimeQueue then
      { client with receiveQueue := client.receiveQueue ++ [message] }
    else client
  | .sent bytes =>
    { client with
      bufferedAmount := client.bufferedAmount - bytes
      sentQueue := client.sentQueue.tail }
  | .closed => { client with readyState := .closed }
  | .error error => { client with lastError := some error, readyState := .closed }

/-- `send` behind its `pump_transport`; `listening` says that the worker is still there. -/
def send (client : WebSocketClient) (commands : List WebSocketCommand) (listening : Bool)
    (message : WebSocketMessage) :
    Except String Unit × WebSocketClient × List WebSocketCommand :=
  if client.readyState ≠ .opened then
    (.error "WebSocket is not in OPEN state", client, commands)
  else if maxRealtimeMessageBytes < messageLen message then
    (.error "WebSocket frame exceeds 1 MB limit", client, commands)
  else if maxRealtimeQueue ≤ client.sentQueue.length then
    (.error "WebSocket send queue is full", client, commands)
  else if !listening then (.error "WebSocket transport is closed", client, commands)
  else if maxRealtimeQueue ≤ commands.length then
    (.error "WebSocket transport queue is full", client, commands)
  else
    (.ok (), { client with
      bufferedAmount := client.bufferedAmount + messageLen message
      sentQueue := client.sentQueue ++ [message] }, commands ++ [.send message])

/-- What is wrong with the arguments of `close`. -/
def refusesClose (code : Option Nat) (reason : Option Text) : Option String :=
  if code.any fun code => !(1000 ≤ code && code ≤ 4999) || code == 1004 || code == 1005 ||
      code == 1006 || code == 1015 then
    some "Invalid WebSocket close code"
  else if reason.any fun reason => 123 < byteLen reason then
    some "WebSocket close reason exceeds 123 bytes"
  else none

/-- `close` behind its `pump_transport`. -/
def close (client : WebSocketClient) (commands : List WebSocketCommand) (listening : Bool)
    (code : Option Nat) (reason : Option Text) :
    Except String Unit × WebSocketClient × List WebSocketCommand :=
  if client.readyState = .closed then (.ok (), client, commands)
  else
    match refusesClose code reason with
    | some error => (.error error, client, commands)
    | none =>
      let client := { client with readyState := .closing }
      if !listening then (.ok (), { client with readyState := .closed }, commands)
      else if maxRealtimeQueue ≤ commands.length then
        (.error "WebSocket transport queue is full", client, commands)
      else (.ok (), client, commands ++ [.close code reason])

def popIncoming (client : WebSocketClient) : Option WebSocketMessage × WebSocketClient :=
  (client.receiveQueue.head?, { client with receiveQueue := client.receiveQueue.tail })

end WebSocketClient

/-! ## The two threads -/

inductive SocketCall where
  | pumpTransport
  | send (message : WebSocketMessage)
  | close (code : Option Nat) (reason : Option Text)
  | pollIncoming
deriving DecidableEq

/-- Where the page is in a call: with so many turns of the loop of `pump_transport` left, or
behind the loop. -/
inductive SocketTask where
  | idle
  | pumping (turns : Nat) (call : SocketCall)
  | ending (call : SocketCall)
deriving DecidableEq

/-- Where the worker is: a command that it has taken is still to be carried out, and before it
is gone it has sent its last event. -/
inductive SocketWorker where
  | connecting
  | running
  | took (command : WebSocketCommand)
  | leaving
  | gone
deriving DecidableEq

/-- `requested` is the subprotocol that the worker was started with. -/
structure Socket where
  requested : Text
  client : WebSocketClient
  task : SocketTask
  worker : SocketWorker
  commands : List WebSocketCommand
  events : List WebSocketTransportEvent

/-- `calls` and `continues` are the page's, the others the worker's and the network's. -/
inductive SocketAction where
  | calls (call : SocketCall)
  | continues
  | fails (error : Text)
  | connects (selected : Text)
  | takes
  | carriesOut (failure : Option Text)
  | arrives (message : WebSocketMessage)
  | ends
  | breaks (error : Text)
  | leaves
deriving DecidableEq

namespace Socket

/-- `with_origin` behind its checks. -/
def new (url protocol : Text) : Socket :=
  { requested := protocol
    client :=
      { url, protocol, readyState := .connecting, bufferedAmount := 0, receiveQueue := []
        sentQueue := [], lastError := none }
    task := .idle
    worker := .connecting
    commands := []
    events := [] }

def listening (socket : Socket) : Bool := socket.worker != .gone

/-- One `try_recv` of the loop of `pump_transport`. -/
def pumpOnce (socket : Socket) (turns : Nat) (call : SocketCall) : Socket :=
  match socket.events with
  | event :: events =>
    { socket with client := socket.client.handle event, events, task := .pumping turns call }
  | [] =>
    if socket.listening then { socket with task := .ending call }
    else
      { socket with client := { socket.client with readyState := .closed }, task := .ending call }

/-- What a call does behind `pump_transport`. -/
def finishCall (socket : Socket) (call : SocketCall) : Socket :=
  match call with
  | .pumpTransport => { socket with task := .idle }
  | .pollIncoming => { socket with client := socket.client.popIncoming.2, task := .idle }
  | .send message =>
    let (_, client, commands) := socket.client.send socket.commands socket.listening message
    { socket with client, commands, task := .idle }
  | .close code reason =>
    let (_, client, commands) := socket.client.close socket.commands socket.listening code reason
    { socket with client, commands, task := .idle }

def continueCall (socket : Socket) : Socket :=
  match socket.task with
  | .idle => socket
  | .pumping 0 call => { socket with task := .ending call }
  | .pumping (turns + 1) call => socket.pumpOnce turns call
  | .ending call => socket.finishCall call

/-- The worker sends an event and goes on as `worker`. -/
def emit (socket : Socket) (event : WebSocketTransportEvent) (worker : SocketWorker) : Socket :=
  { socket with events := trySend socket.events event, worker }

/-- `{:?}` of the visible characters of a header. -/
def debugText (text : Text) : Text :=
  '"' :: (text.flatMap fun c =>
    if c == '"' || c == '\\' then ['\\', c] else if c == '\t' then ['\\', 't'] else [c]) ++ ['"']

/-- The end of `connect_with_config` and the check of the server's choice. -/
def connected (socket : Socket) (selected : Text) : Socket :=
  if !socket.requested.isEmpty && selected != socket.requested then
    socket.emit (.error ("server selected unexpected subprotocol ".toList ++ debugText selected))
      .leaving
  else socket.emit (.opened selected) .running

def step (socket : Socket) : SocketAction → Socket
  | .calls call =>
    if socket.task = .idle then { socket with task := .pumping maxEventsPerPump call } else socket
  | .continues => socket.continueCall
  | .fails error => if socket.worker = .connecting then socket.emit (.error error) .leaving else socket
  | .connects selected => if socket.worker = .connecting then socket.connected selected else socket
  | .takes =>
    match socket.worker, socket.commands with
    | .running, command :: commands => { socket with worker := .took command, commands }
    | _, _ => socket
  | .carriesOut failure =>
    match socket.worker, failure with
    | .took (.send message), none => socket.emit (.sent (messageLen message)) .running
    | .took (.send _), some error => socket.emit (.error error) .leaving
    | .took (.close _ _), _ => socket.emit .closed .leaving
    | _, _ => socket
  | .arrives message =>
    if socket.worker = .running then socket.emit (.message message) .running else socket
  | .ends => if socket.worker = .running then socket.emit .closed .leaving else socket
  | .breaks error => if socket.worker = .running then socket.emit (.error error) .leaving else socket
  | .leaves => if socket.worker = .leaving then { socket with worker := .gone } else socket

end Socket

end GhitaBrowser.Realtime
