import GhitaBrowser.Media.IsoBmff

/-!
# Media sources and their buffers (`mse.rs`)

A `SourceBuffer` parses what is appended, puts the samples of the append window into
its list, lets each replace the stored ones it overlaps, and sorts the list at the
end. A failed append is undone by cutting the list back to its old length. A method
that takes `&mut self` returns the buffer it leaves; an append returns it also when it
fails, since the source has changed it by then.
-/

namespace GhitaBrowser.Media

open Outcome (okOr)
open Checked (signed unsigned)

def maxSourceBuffers : Nat := 8
def maxSamplesPerBuffer : Nat := 100000
def maxBytesPerBuffer : Nat := 128 * 1024 * 1024
def maxTotalMediaBytes : Nat := 256 * 1024 * 1024
def maxMediaTimeUs : Int := 24 * 60 * 60 * 1000000
def rangeGapToleranceUs : Int := 50000

inductive MediaContainer where
  | isoBmff
  | webM
  | ogg
  | wave
  | unknown
deriving DecidableEq, Repr

structure ParsedMediaType where
  essence : String
  container : MediaContainer
  codecs : List MediaCodec
deriving DecidableEq, Repr

inductive MediaSourceReadyState where
  | closed
  | open
  | ended
deriving DecidableEq, Repr

inductive MediaSourceEvent where
  | sourceOpen
  | sourceEnded
  | sourceClose
  | updateStart
  | update
  | updateEnd
  | abort
deriving DecidableEq, Repr

structure TimeRange where
  startUs : Int
  endUs : Int
deriving DecidableEq, Repr

def TimeRange.new (startUs endUs : Int) : Option TimeRange :=
  if startUs < 0 ∨ endUs ≤ startUs ∨ maxMediaTimeUs < endUs then none else some ⟨startUs, endUs⟩

def TimeRange.contains (range : TimeRange) (timestampUs : Int) : Bool :=
  range.startUs ≤ timestampUs && timestampUs < range.endUs

structure AppendReport where
  initializationSegment : Bool
  appendedSamples : Nat
  droppedSamples : Nat
  evictedSamples : Nat
  buffered : List TimeRange
deriving DecidableEq, Repr

def AppendReport.default : AppendReport := ⟨false, 0, 0, 0, []⟩

structure SourceBuffer where
  id : Nat
  mediaType : ParsedMediaType
  tracks : List TrackInfo
  samples : List EncodedSample
  queuedBytes : Nat
  updating : Bool
  timestampOffsetUs : Int
  appendWindow : TimeRange
  events : List MediaSourceEvent
deriving DecidableEq, Repr

def SourceBuffer.new (id : Nat) (mediaType : ParsedMediaType) : SourceBuffer where
  id := id
  mediaType := mediaType
  tracks := []
  samples := []
  queuedBytes := 0
  updating := false
  timestampOffsetUs := 0
  appendWindow := ⟨0, maxMediaTimeUs⟩
  events := []

/-- `duration as i64`. -/
def asI64 (value : Nat) : Int := if value < 2 ^ 63 then value else (value : Int) - 2 ^ 64

/-- `saturating_add` of two `i64`. -/
def saturatingAddI64 (a b : Int) : Int := max (-2 ^ 63) (min (a + b) (2 ^ 63 - 1))

/-- Where a stored sample ends. -/
def EncodedSample.stop (sample : EncodedSample) : Int :=
  saturatingAddI64 sample.presentationTimestampUs (asI64 sample.durationUs)

def bytesOf (samples : List EncodedSample) : Nat := (samples.map fun sample => sample.data.length).sum

/-- The order of `sort_by_key(|sample| (sample.presentation_timestamp_us, sample.track_id))`. -/
def presentedBefore (first second : EncodedSample) : Bool :=
  first.presentationTimestampUs < second.presentationTimestampUs ||
    first.presentationTimestampUs = second.presentationTimestampUs &&
      first.trackId ≤ second.trackId

/-- The two passes that merge sorted intervals differ in the gap they close. -/
def mergeRanges (gap : Int) (merged : List TimeRange) (range : TimeRange) : List TimeRange :=
  match merged.getLast? with
  | some last =>
    if range.startUs ≤ saturatingAddI64 last.endUs gap then
      merged.dropLast ++ [{ last with endUs := max last.endUs range.endUs }]
    else merged ++ [range]
  | none => merged ++ [range]

namespace SourceBuffer

variable (self : SourceBuffer)

def buffered : List TimeRange :=
  let intervals := self.samples.filterMap fun sample => do
    let duration ← if sample.durationUs < 2 ^ 63 then some (sample.durationUs : Int) else none
    let stop ← signed 64 (sample.presentationTimestampUs + duration)
    TimeRange.new (max sample.presentationTimestampUs 0) stop
  let sorted := intervals.insertionSort fun first second => first.startUs ≤ second.startUs
  sorted.foldl (mergeRanges rangeGapToleranceUs) []

def setTimestampOffset (offsetUs : Int) : Outcome SourceBuffer :=
  if self.updating ∨ maxMediaTimeUs < offsetUs.natAbs then
    .err "Invalid SourceBuffer timestamp offset"
  else .ok { self with timestampOffsetUs := offsetUs }

def setAppendWindow (range : TimeRange) : Outcome SourceBuffer :=
  if self.updating then .err "Cannot change append window while updating"
  else .ok { self with appendWindow := range }

/-! ## Appending -/

/-- The timestamps of a parsed sample after the offset, and where it ends. -/
def place (sample : EncodedSample) : Outcome (EncodedSample × Int) := do
  let dts ← okOr "SourceBuffer decode timestamp overflow"
    (signed 64 (sample.decodeTimestampUs + self.timestampOffsetUs))
  let pts ← okOr "SourceBuffer presentation timestamp overflow"
    (signed 64 (sample.presentationTimestampUs + self.timestampOffsetUs))
  -- `i64::try_from(duration).unwrap_or(i64::MAX)`
  let duration : Int := min sample.durationUs (2 ^ 63 - 1)
  let stop ← okOr "SourceBuffer sample end timestamp overflow" (signed 64 (pts + duration))
  return ({ sample with decodeTimestampUs := dts, presentationTimestampUs := pts }, stop)

/-- Whether a sample that ends at `stop` lies outside the append window. -/
def leavesWindow (sample : EncodedSample) (stop : Int) : Bool :=
  !self.appendWindow.contains sample.presentationTimestampUs || self.appendWindow.endUs < stop

/-- The closure of `retain`: whether a stored sample stays beside a new one that ends at `stop`. -/
def staysBeside (sample : EncodedSample) (stop : Int) (existing : EncodedSample) : Bool :=
  existing.trackId ≠ sample.trackId || existing.stop ≤ sample.presentationTimestampUs ||
    stop ≤ existing.presentationTimestampUs

/-- One turn of the loop over the parsed samples. -/
def appendSample (report : AppendReport) (parsed : EncodedSample) :
    SourceBuffer × Outcome AppendReport :=
  match self.place parsed with
  | .ok (sample, stop) =>
    if self.leavesWindow sample stop then
      (self, .ok { report with droppedSamples := report.droppedSamples + 1 })
    else
    match unsigned 64 (self.queuedBytes + sample.data.length) with
    | none => (self, .err "SourceBuffer byte count overflow")
    | some projected =>
      if maxBytesPerBuffer < projected ∨ maxSamplesPerBuffer ≤ self.samples.length then
        (self, .err "SourceBuffer memory budget exceeded")
      else
      let stayed := self.samples.filter (staysBeside sample stop)
      let evictedBytes := bytesOf (self.samples.filter fun old => !staysBeside sample stop old)
      -- both updates of the byte count saturate
      let queuedBytes := min (self.queuedBytes - evictedBytes + sample.data.length) (2 ^ 64 - 1)
      ({ self with samples := stayed ++ [sample], queuedBytes },
        .ok { report with
          evictedSamples := report.evictedSamples + (self.samples.length - stayed.length)
          appendedSamples := report.appendedSamples + 1 })
  | .err message => (self, .err message)
  | .panic => (self, .panic)
  | .timeout => (self, .timeout)

/-- The loop over the parsed samples, which the first failure ends. -/
def appendSamples (self : SourceBuffer) (report : AppendReport) :
    List EncodedSample → SourceBuffer × Outcome AppendReport
  | [] => (self, .ok report)
  | sample :: rest =>
    match self.appendSample report sample with
    | (next, .ok report) => appendSamples next report rest
    | (next, failed) => (next, failed)

def sorted : SourceBuffer := { self with samples := self.samples.insertionSort (presentedBefore · ·) }

/-- The branch of `append_buffer_inner` for the first segment. -/
def appendInit (bytes : Bytes) : SourceBuffer × Outcome AppendReport :=
  match parseInitSegment bytes with
  | .ok tracks =>
    if self.mediaType.codecs ≠ [] ∧ ∃ track ∈ tracks, track.codec ∉ self.mediaType.codecs then
      (self, .err "Initialization segment codec does not match SourceBuffer type")
    else
      ({ self with tracks },
        .ok { AppendReport.default with
          initializationSegment := true, buffered := self.buffered })
  | .err message => (self, .err message)
  | .panic => (self, .panic)
  | .timeout => (self, .timeout)

/-- The branch of `append_buffer_inner` for the later segments. -/
def appendMedia (bytes : Bytes) : SourceBuffer × Outcome AppendReport :=
  match parseMediaSegment bytes self.tracks with
  | .ok parsed =>
    match self.appendSamples .default parsed with
    | (next, .ok report) => (next.sorted, .ok { report with buffered := next.sorted.buffered })
    | (next, failed) => (next, failed)
  | .err message => (self, .err message)
  | .panic => (self, .panic)
  | .timeout => (self, .timeout)

def appendBufferInner (bytes : Bytes) : SourceBuffer × Outcome AppendReport :=
  if self.mediaType.container ≠ .isoBmff then
    (self, .err "This SourceBuffer currently requires ISO-BMFF segments")
  else if self.tracks = [] then self.appendInit bytes
  else self.appendMedia bytes

def appendBuffer (bytes : Bytes) : SourceBuffer × Outcome AppendReport :=
  if self.updating then (self, .err "SourceBuffer is already updating") else
  let started := { self with updating := true, events := self.events ++ [MediaSourceEvent.updateStart] }
  match started.appendBufferInner bytes with
  | (next, .err message) =>
    ({ next with
        updating := false
        samples := next.samples.take self.samples.length
        queuedBytes := self.queuedBytes
        events := next.events.take self.events.length ++
          [MediaSourceEvent.updateStart, .abort, .updateEnd] },
      .err message)
  | (next, result) =>
    ({ next with
        updating := false
        events := next.events ++ [MediaSourceEvent.update, .updateEnd] }, result)

/-! ## Removing -/

/-- `retain` with the count of the bytes that go; the plain `-=` panics when it underflows. -/
def retain (keep : EncodedSample → Bool) : Outcome (SourceBuffer × Nat) := do
  let stayed := self.samples.filter keep
  let removedBytes := bytesOf (self.samples.filter fun sample => !keep sample)
  let queuedBytes ← Checked.sub self.queuedBytes removedBytes
  return ({ self with samples := stayed, queuedBytes }, self.samples.length - stayed.length)

def remove (range : TimeRange) : Outcome (SourceBuffer × Nat) :=
  if self.updating then .err "Cannot remove while SourceBuffer is updating"
  else self.retain fun sample =>
    sample.stop ≤ range.startUs || range.endUs ≤ sample.presentationTimestampUs

def evictBefore (timestampUs : Int) : Outcome (SourceBuffer × Nat) :=
  self.retain fun sample => timestampUs < sample.stop

def abort : SourceBuffer :=
  { self with updating := false, events := self.events ++ [.abort] }

/-- What `drain_events` leaves. -/
def drained : SourceBuffer := { self with events := [] }

end SourceBuffer

/-! ## The media source -/

structure MediaSource where
  readyState : MediaSourceReadyState
  durationUs : Option Int
  sourceBuffers : List SourceBuffer
  nextBufferId : Nat
  events : List MediaSourceEvent
deriving DecidableEq, Repr

def MediaSource.new : MediaSource := ⟨.closed, none, [], 1, []⟩

namespace MediaSource

variable (self : MediaSource)

def openSource : Outcome MediaSource :=
  if self.readyState ≠ .closed then .err "MediaSource is already open"
  else .ok { self with readyState := .open, events := self.events ++ [.sourceOpen] }

def requireOpen : Outcome Unit :=
  if self.readyState ≠ .open then .err "MediaSource is not open" else .ok ()

/-- `remove` fails only on a buffer that is updating, which none is between two calls, so the
state a failure would leave is not kept. -/
def setDuration (durationUs : Int) : Outcome MediaSource := do
  self.requireOpen
  if durationUs ≤ 0 ∨ maxMediaTimeUs < durationUs then
    .err "MediaSource duration is outside the supported range"
  else
  let sourceBuffers ← self.sourceBuffers.mapM fun buffer => do
    return (← buffer.remove ⟨durationUs, maxMediaTimeUs⟩).1
  return { self with durationUs := some durationUs, sourceBuffers }

/-- `mediaType` is what `parse_media_type` makes of the content type, and `supports` are the
capabilities. -/
def addSourceBuffer (mediaType : Outcome ParsedMediaType) (supports : MediaCodec → Bool) :
    Outcome (MediaSource × Nat) := do
  self.requireOpen
  if maxSourceBuffers ≤ self.sourceBuffers.length then
    .err "MediaSource SourceBuffer budget exceeded"
  else
  let mediaType ← mediaType
  if ¬(mediaType.container = .isoBmff ∧ mediaType.codecs ≠ [] ∧ mediaType.codecs.all supports) then
    .err "MediaSource type or decoder is unsupported"
  else
  let id := self.nextBufferId
  return ({ self with
    nextBufferId := min (id + 1) (2 ^ 32 - 1)
    sourceBuffers := self.sourceBuffers ++ [.new id mediaType] }, id)

def totalQueuedBytes : Nat := (self.sourceBuffers.map (·.queuedBytes)).sum

/-- The undo of `append_buffer` when the sum over all buffers is too large. -/
def cutBack (before after : SourceBuffer) : SourceBuffer :=
  { after with
    samples := after.samples.take before.samples.length
    queuedBytes := before.queuedBytes
    events := after.events.take before.events.length }

def appendBuffer (id : Nat) (bytes : Bytes) : MediaSource × Outcome AppendReport :=
  if self.readyState ≠ .open then (self, .err "MediaSource is not open") else
  match self.sourceBuffers.findIdx? (fun buffer => buffer.id = id) with
  | none => (self, .err "Unknown MediaSource SourceBuffer")
  | some index =>
    match self.sourceBuffers[index]? with
    | none => (self, .panic)
    | some before =>
      match before.appendBuffer bytes with
      | (after, .ok report) =>
        let next := { self with sourceBuffers := self.sourceBuffers.set index after }
        if maxTotalMediaBytes < next.totalQueuedBytes then
          ({ self with sourceBuffers := self.sourceBuffers.set index (cutBack before after) },
            .err "MediaSource total byte budget exceeded")
        else (next, .ok report)
      | (after, failed) =>
        ({ self with sourceBuffers := self.sourceBuffers.set index after }, failed)

def endOfStream : Outcome MediaSource := do
  self.requireOpen
  if self.sourceBuffers.any (·.updating) then
    .err "Cannot end MediaSource while a SourceBuffer is updating"
  else if self.sourceBuffers.all (·.samples.isEmpty) then .err "Cannot end an empty MediaSource"
  else return { self with readyState := .ended, events := self.events ++ [.sourceEnded] }

def close : MediaSource :=
  { self with
    readyState := .closed, durationUs := none, sourceBuffers := []
    events := self.events ++ [.sourceClose] }

/-- A change of one buffer through `source_buffer_mut`. -/
def updateBuffer (id : Nat) (change : SourceBuffer → Outcome SourceBuffer) :
    Outcome MediaSource :=
  match self.sourceBuffers.findIdx? (fun buffer => buffer.id = id) with
  | none => .ok self
  | some index =>
    match self.sourceBuffers[index]? with
    | none => .panic
    | some buffer => do
      return { self with sourceBuffers := self.sourceBuffers.set index (← change buffer) }

end MediaSource

end GhitaBrowser.Media
