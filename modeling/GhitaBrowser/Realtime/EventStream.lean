import GhitaBrowser.Html.Parser
import GhitaBrowser.Lib.Str

/-!
# Event streams

The worker of an `EventSource` decodes what it reads, cuts off every block that a blank line
ends and dispatches the events of the block. The decoder stands outside of the repository.
-/

namespace GhitaBrowser.Realtime
open GhitaBrowser.Str

def maxSseBufferBytes : Nat := 1024 * 1024

structure EventSourceEvent where
  eventType : Text
  data : Text
  lastEventId : Text
deriving DecidableEq

inductive EventSourceTransportEvent where
  | opened
  | event (event : EventSourceEvent)
  | retry (milliseconds : Nat)
  | closed
  | error (error : String)
deriving DecidableEq

/-! ## Blocks -/

/-- `replace("\r\n", "\n")`: the `'\r'` directly before a `'\n'` goes. -/
def replaceCrlf : Text → Text
  | [] => []
  | c :: rest => if c == '\r' && rest.head? == some '\n' then replaceCrlf rest else c :: replaceCrlf rest

/-- `str::lines`, after the characters of a line so far. -/
def linesFrom (line : Text) : Text → List Text
  | [] => if line.isEmpty then [] else [line]
  | c :: rest =>
    if c == '\n' then (stripEnd ['\r'] line).getD line :: linesFrom [] rest
    else linesFrom (line ++ [c]) rest

def lines (text : Text) : List Text := linesFrom [] text

/-- `str::parse::<u64>`. -/
def parseU64 (text : Text) : Option Nat := do
  let digits := if text.head? = some '+' then text.tail else text
  if digits.isEmpty then none
  else
    let value ← digits.foldlM (fun acc c => do return acc * 10 + (← Html.digitValue 10 c)) 0
    if value < 2 ^ 64 then some value else none

/-- The variables of `parse_sse_events` while it reads the lines of a block. -/
structure BlockState where
  events : List EventSourceTransportEvent
  eventType : Text
  data : List Text
  eventId : Text

/-- The `match field`. -/
def setField (state : BlockState) (field value : Text) : BlockState :=
  if field == "event".toList then { state with eventType := value }
  else if field == "data".toList then { state with data := state.data ++ [value] }
  else if field == "id".toList && !value.elem '\x00' then { state with eventId := value }
  else if field == "retry".toList then
    match parseU64 value with
    | some milliseconds => { state with events := state.events ++ [.retry milliseconds] }
    | none => state
  else state

def readLine (state : BlockState) (line : Text) : BlockState :=
  if startsWith [':'] line then state
  else
    let (field, value) := (splitOnce [':'] line).getD (line, [])
    setField state field ((stripStart [' '] value).getD value)

/-- The events so far and `last_id`. -/
abbrev Parsed := List EventSourceTransportEvent × Text

def readBlock (parsed : Parsed) (block : Text) : Parsed :=
  let state := (lines block).foldl readLine
    { events := parsed.1, eventType := "message".toList, data := [], eventId := parsed.2 }
  if state.data.isEmpty then (state.events, parsed.2)
  else (state.events ++ [.event
    { eventType := state.eventType
      data := ['\n'].intercalate state.data
      lastEventId := state.eventId }], state.eventId)

def blankLf : Text := ['\n', '\n']
def blankCrlf : Text := ['\r', '\n', '\r', '\n']

def parseSseEvents (text lastId : Text) : Parsed :=
  (split blankLf (replaceCrlf text)).foldl readBlock ([], lastId)

/-! ## The worker's buffer -/

/-- `str::find`, in characters. -/
def findText (pattern : Text) : Text → Option Nat
  | [] => none
  | c :: rest =>
    if startsWith pattern (c :: rest) then some 0 else (findText pattern rest).map (· + 1)

/-- The earlier one of two places that are there. -/
def earlier (left right : Option Nat) : Option Nat :=
  match left, right with
  | some left, some right => some (min left right)
  | some index, none | none, some index => some index
  | none, none => none

def sseEventBoundary (buffer : Text) : Option Nat :=
  earlier (findText blankLf buffer) (findText blankCrlf buffer)

/-- What the worker keeps while it reads one response; `events` is all that it has handed to
the channel. -/
structure EventStream where
  pending : Text
  lastId : Text
  reconnectMs : Nat
  events : List EventSourceTransportEvent
  finished : Bool

namespace EventStream

/-- The variables of the loop live on from one response to the next. -/
def new (lastId : Text) (reconnectMs : Nat) : EventStream :=
  { pending := [], lastId, reconnectMs, events := [], finished := false }

def sseDispatch (stream : EventStream) (event : EventSourceTransportEvent) : EventStream :=
  let stream := match event with
    | .retry milliseconds => { stream with reconnectMs := max 100 (min milliseconds 60000) }
    | _ => stream
  { stream with events := stream.events ++ [event] }

/-- `for event in parse_sse_events(&payload, &mut last_id)`. -/
def dispatchBlock (stream : EventStream) (payload : Text) : EventStream :=
  let (events, lastId) := parseSseEvents payload stream.lastId
  events.foldl sseDispatch { stream with lastId }

variable (stream : EventStream)

@[simp] theorem sseDispatch_pending (event : EventSourceTransportEvent) :
    (stream.sseDispatch event).pending = stream.pending := by
  cases event <;> rfl

theorem dispatchAll_pending (events : List EventSourceTransportEvent) :
    (events.foldl sseDispatch stream).pending = stream.pending := by
  induction events generalizing stream with
  | nil => rfl
  | cons event events ih => rw [List.foldl_cons, ih, sseDispatch_pending]

@[simp] theorem dispatchBlock_pending (payload : Text) :
    (stream.dispatchBlock payload).pending = stream.pending :=
  dispatchAll_pending _ _

/-- `while let Some(boundary) = sse_event_boundary(&pending)`. -/
def drain (stream : EventStream) : EventStream :=
  match hboundary : sseEventBoundary stream.pending with
  | none => stream
  | some boundary =>
    let payload := stream.pending.take boundary
    let consumed :=
      if startsWith blankCrlf (stream.pending.drop boundary) then boundary + 4 else boundary + 2
    drain (dispatchBlock { stream with pending := stream.pending.drop consumed } payload)
termination_by stream.pending.length
decreasing_by
  rw [dispatchBlock_pending, List.length_drop]
  cases hpending : stream.pending with
  | nil => rw [hpending] at hboundary; cases hboundary
  | cons c rest => simp only [List.length_cons]; split <;> omega

/-- What follows a read that has given text. -/
def read (stream : EventStream) (piece : Text) : EventStream :=
  if stream.finished then stream
  else
    let stream := { stream with pending := stream.pending ++ piece }
    if maxSseBufferBytes < byteLen stream.pending then
      { stream with
        events := stream.events ++ [.error "EventSource buffer exceeds 1 MB"]
        finished := true }
    else stream.drain

/-- The end of the response, with what the decoder still held. -/
def finish (stream : EventStream) (flushed : Text) : EventStream :=
  if stream.finished then stream
  else
    let pending := stream.pending ++ flushed
    let stream := if (Str.trim pending).isEmpty then stream else stream.dispatchBlock pending
    { stream with pending := [], events := stream.events ++ [.closed], finished := true }

end EventStream

/-! ## Chunks -/

inductive CoderResult where
  | inputEmpty
  | outputFull
deriving DecidableEq

/-- The incremental decoder. `decode_to_string` has the room that is left in the string it writes
to, which it does not grow, and is told whether the stream ends here. -/
structure Utf8Decoder where
  State : Type
  new : State
  decodeToString : State → List UInt8 → Nat → Bool → CoderResult × Text × State

namespace Utf8Decoder

variable (decoder : Utf8Decoder)

/-- Calls for pieces of a stream, each with its room, and one for its end. -/
def calls : decoder.State → List (List UInt8 × Nat) → Nat → List (CoderResult × Text)
  | state, [], room =>
    let (result, text, _) := decoder.decodeToString state [] room true
    [(result, text)]
  | state, (bytes, room) :: rest, lastRoom =>
    let (result, text, state) := decoder.decodeToString state bytes room false
    (result, text) :: calls state rest lastRoom

/-- As long as every call has read all of its input, the texts are those of the whole stream. -/
def Decodes (decodeAll : List UInt8 → Text) : Prop :=
  ∀ pieces lastRoom, (∀ call ∈ decoder.calls decoder.new pieces lastRoom, call.1 = .inputEmpty) →
    ((decoder.calls decoder.new pieces lastRoom).map Prod.snd).flatten =
      decodeAll (pieces.map Prod.fst).flatten

-- The capacity after `String::reserve`, from the one before and the length to make room for.
variable (reserve : Nat → Nat → Nat)

/-- The worker reads chunks one by one, with the capacity of `pending`. What the decoder says of
its room is dropped. -/
def feed : decoder.State → Nat → EventStream → List (List UInt8) → EventStream
  | state, _, stream, [] =>
    -- the string of the flush is new and has no room
    let (_, flushed, _) := decoder.decodeToString state [] 0 true
    stream.finish flushed
  | state, capacity, stream, chunk :: chunks =>
    let capacity := reserve capacity (byteLen stream.pending + chunk.length)
    let room := capacity - byteLen stream.pending
    let (_, piece, state) := decoder.decodeToString state chunk room false
    feed state capacity (stream.read piece) chunks

/-- The chunks with the room that the worker has for them. -/
def rooms : decoder.State → Nat → EventStream → List (List UInt8) → List (List UInt8 × Nat)
  | _, _, _, [] => []
  | state, capacity, stream, chunk :: chunks =>
    let capacity := reserve capacity (byteLen stream.pending + chunk.length)
    let room := capacity - byteLen stream.pending
    let (_, piece, state) := decoder.decodeToString state chunk room false
    (chunk, room) :: rooms state capacity (stream.read piece) chunks

end Utf8Decoder

end GhitaBrowser.Realtime
