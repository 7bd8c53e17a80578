import GhitaBrowser.Lib.Checked
import Mathlib.Data.List.Sort

/-!
# The fragmented MP4 parser (`iso_bmff.rs`)

`parse_init_segment` reads the tracks of a `ftyp`/`moov` segment, and
`parse_media_segment` cuts the payload of a `moof`/`mdat` segment into samples. Every
`+`, `-`, `/` and `[i]` of the source is the panicking operation of `Lib.Checked`, and
every `checked_` call and `get` is the one that gives an `Option`. A `u32` read from
the bytes is a `UInt32`; `usize` and `u64` are `Nat`, `i64` and `i128` are `Int`, and
where such a value is made the width is checked as the source checks it.
-/

namespace GhitaBrowser.Media

open Outcome (okOr)
open Checked (add sub divide divideSigned index range? saturatingAdd signed unsigned)

abbrev Bytes : Type := List UInt8

def maxBoxes : Nat := 4096
def maxTracks : Nat := 32
def maxSamplesPerSegment : Nat := 100000
def maxSegmentBytes : Nat := 64 * 1024 * 1024

inductive TrackKind where
  | audio
  | video
  | unknown
deriving DecidableEq, Repr

/-- `MediaCodec` of `media_core.rs`. -/
inductive MediaCodec where
  | avc
  | hevc
  | vp8
  | vp9
  | av1
  | aac
  | opus
  | vorbis
  | pcm
  | unknown (name : String)
deriving DecidableEq, Repr

structure TrackInfo where
  trackId : UInt32
  timescale : UInt32
  kind : TrackKind
  codec : MediaCodec
deriving DecidableEq, Repr

/-- `EncodedSample` of `media_core.rs`. -/
structure EncodedSample where
  trackId : UInt32
  decodeTimestampUs : Int
  presentationTimestampUs : Int
  durationUs : Nat
  keyframe : Bool
  data : Bytes
deriving DecidableEq, Repr

structure Mp4Box where
  kind : Bytes
  payload : Bytes
deriving DecidableEq, Repr

structure TrackFragmentDefaults where
  trackId : UInt32
  duration : UInt32
  size : UInt32
  flags : UInt32
deriving DecidableEq, Repr

structure RunSample where
  duration : UInt32
  size : UInt32
  flags : UInt32
  compositionOffset : Int
deriving DecidableEq, Repr

structure TrackRun where
  trackId : UInt32
  baseDecodeTime : Nat
  samples : List RunSample
deriving DecidableEq, Repr

/-- A byte string literal of four letters. -/
def fourcc (a b c d : Char) : Bytes := [a, b, c, d].map fun letter => letter.toNat.toUInt8

/-! ## Readers -/

/-- `from_be_bytes` of the first `count` bytes, each taken with `value[i]`. -/
def fromBeBytes (value : Bytes) (count : Nat) : Outcome Nat :=
  (List.range count).foldlM (fun total i => do return total * 256 + (← index value i).toNat) 0

def readU24 (bytes : Bytes) (offset : Nat) : Outcome UInt32 := do
  let value ← okOr "Truncated ISO-BMFF u24" (range? bytes offset (saturatingAdd offset 3))
  return .ofNat (← fromBeBytes value 3)

def readBeU32 (bytes : Bytes) (offset : Nat) : Outcome UInt32 := do
  let value ← okOr "Truncated ISO-BMFF u32" (range? bytes offset (saturatingAdd offset 4))
  return .ofNat (← fromBeBytes value 4)

def readBeU64 (bytes : Bytes) (offset : Nat) : Outcome Nat := do
  let value ← okOr "Truncated ISO-BMFF u64" (range? bytes offset (saturatingAdd offset 8))
  fromBeBytes value 8

def checkedSkip (bytes : Bytes) (offset length : Nat) : Outcome Nat := do
  let stop ← okOr "ISO-BMFF field offset overflow" (unsigned 64 (offset + length))
  if bytes.length < stop then .err "Truncated ISO-BMFF optional field" else return stop

def scaleTime (value : Int) (timescale : UInt32) : Outcome Int := do
  let product ← okOr "ISO-BMFF timestamp scale overflow" (signed 128 (value * 1000000))
  let scaled ← divideSigned product timescale.toNat
  okOr "ISO-BMFF timestamp exceeds supported range" (signed 64 scaled)

def scaleDuration (value timescale : UInt32) : Outcome Nat := do
  let product ← okOr "ISO-BMFF duration scale overflow" (unsigned 64 (value.toNat * 1000000))
  let scaled ← divide product timescale.toNat
  if scaled = 0 then .err "ISO-BMFF sample duration rounds to zero" else return scaled

def validateSegmentSize (bytes : Bytes) : Outcome Unit :=
  if bytes = [] ∨ maxSegmentBytes < bytes.length then
    .err "ISO-BMFF segment size budget exceeded"
  else return ()

/-! ## Boxes -/

/-- The header length and the size of the box at `offset`, whose first four bytes are `size32`. -/
def boxSize (bytes : Bytes) (offset size32 : Nat) : Outcome (Nat × Nat) :=
  if size32 = 1 then do
    let extended ← readBeU64 bytes (← add offset 8)
    let size ← okOr "ISO-BMFF extended box size exceeds address space" (unsigned 64 extended)
    return (16, size)
  else if size32 = 0 then do return (8, ← sub bytes.length offset)
  else return (8, size32)

/-- One turn of the loop of `parse_boxes`: the box at `offset` and where it ends. -/
def parseBox (bytes : Bytes) (offset : Nat) : Outcome (Mp4Box × Nat) := do
  let basic ← okOr "Truncated ISO-BMFF box header" (range? bytes offset (saturatingAdd offset 8))
  let size32 ← fromBeBytes basic 4
  let kind := [← index basic 4, ← index basic 5, ← index basic 6, ← index basic 7]
  let (header, size) ← boxSize bytes offset size32
  if size < header then .err "ISO-BMFF box size is smaller than its header" else
  let stop ← okOr "ISO-BMFF box size overflow" (unsigned 64 (offset + size))
  let payload ← okOr "ISO-BMFF box exceeds segment boundaries"
    (range? bytes (← add offset header) stop)
  return (⟨kind, payload⟩, stop)

/-- The loop of `parse_boxes` from `offset`, when `room` more boxes may be read. -/
def parseBoxesFrom (bytes : Bytes) : Nat → Nat → Outcome (List Mp4Box)
  | 0, offset =>
    if offset < bytes.length then .err "ISO-BMFF box count budget exceeded" else .ok []
  | room + 1, offset =>
    if offset < bytes.length then do
      let (item, stop) ← parseBox bytes offset
      return item :: (← parseBoxesFrom bytes room stop)
    else .ok []

def parseBoxes (bytes : Bytes) : Outcome (List Mp4Box) := parseBoxesFrom bytes maxBoxes 0

/-- `find(|item| item.kind == …).ok_or_else(…)`. -/
def findBox (boxes : List Mp4Box) (kind : Bytes) (message : String) : Outcome Mp4Box :=
  okOr message (boxes.find? fun item => item.kind = kind)

/-! ## The initialization segment -/

/-- The field after the times of a full box, which are twice as long in version 1. -/
def versionedU32 (bytes : Bytes) (message : String) : Outcome UInt32 := do
  let version ← okOr message bytes.head?
  readBeU32 bytes (if version = 1 then 20 else 12)

def parseTkhdTrackId (bytes : Bytes) : Outcome UInt32 :=
  versionedU32 bytes "Truncated ISO-BMFF tkhd box"

def parseMdhdTimescale (bytes : Bytes) : Outcome UInt32 := do
  let timescale ← versionedU32 bytes "Truncated ISO-BMFF mdhd box"
  if timescale = 0 ∨ 10000000 < timescale then .err "ISO-BMFF track timescale is invalid"
  else return timescale

def parseHandlerKind (bytes : Bytes) : Outcome TrackKind := do
  let handler ← okOr "Truncated ISO-BMFF hdlr box" (range? bytes 8 12)
  return if handler = fourcc 's' 'o' 'u' 'n' then .audio
    else if handler = fourcc 'v' 'i' 'd' 'e' then .video
    else .unknown

/-- A character of more bytes that has begun: the bits so far, how many bytes are to come, and the
range of the next one. -/
structure Utf8Sequence where
  bits : Nat
  missing : Nat
  low : UInt8
  high : UInt8

def utf8Lead (byte : UInt8) : Option Utf8Sequence :=
  if 0xC2 ≤ byte ∧ byte ≤ 0xDF then some ⟨byte.toNat - 0xC0, 1, 0x80, 0xBF⟩
  else if 0xE0 ≤ byte ∧ byte ≤ 0xEF then
    some ⟨byte.toNat - 0xE0, 2, if byte = 0xE0 then 0xA0 else 0x80,
      if byte = 0xED then 0x9F else 0xBF⟩
  else if 0xF0 ≤ byte ∧ byte ≤ 0xF4 then
    some ⟨byte.toNat - 0xF0, 3, if byte = 0xF0 then 0x90 else 0x80,
      if byte = 0xF4 then 0x8F else 0xBF⟩
  else none

/-- The replacement character. -/
def replacement : Char := Char.ofNat 0xFFFD

/-- `String::from_utf8_lossy`: a sequence that is broken off, or a byte that begins none, is one
replacement character. -/
def fromUtf8Lossy (begun : Option Utf8Sequence) : Bytes → List Char
  | [] => if begun.isSome then [replacement] else []
  | byte :: rest =>
    match begun.filter fun sequence => sequence.low ≤ byte && byte ≤ sequence.high with
    | some ⟨bits, missing, _, _⟩ =>
      let bits := bits * 64 + (byte.toNat - 0x80)
      if missing ≤ 1 then Char.ofNat bits :: fromUtf8Lossy none rest
      else fromUtf8Lossy (some ⟨bits, missing - 1, 0x80, 0xBF⟩) rest
    | none =>
      (if begun.isSome then [replacement] else []) ++
        if byte < 0x80 then Char.ofNat byte.toNat :: fromUtf8Lossy none rest
        else match utf8Lead byte with
          | some sequence => fromUtf8Lossy (some sequence) rest
          | none => replacement :: fromUtf8Lossy none rest

/-- The `match` on the kind of a sample entry. -/
def entryCodec (kind : Bytes) : MediaCodec :=
  if kind = fourcc 'a' 'v' 'c' '1' ∨ kind = fourcc 'a' 'v' 'c' '3' then .avc
  else if kind = fourcc 'h' 'v' 'c' '1' ∨ kind = fourcc 'h' 'e' 'v' '1' then .hevc
  else if kind = fourcc 'v' 'p' '0' '8' then .vp8
  else if kind = fourcc 'v' 'p' '0' '9' then .vp9
  else if kind = fourcc 'a' 'v' '0' '1' then .av1
  else if kind = fourcc 'm' 'p' '4' 'a' then .aac
  else if kind = fourcc 'O' 'p' 'u' 's' then .opus
  else .unknown (String.ofList (fromUtf8Lossy none kind))

/-- `stsd.payload.len() < 8 || read_be_u32(stsd.payload, 4)? == 0`. -/
def hasNoEntry (stsd : Bytes) : Outcome Bool :=
  if stsd.length < 8 then return true else do return (← readBeU32 stsd 4) == 0

def parseSampleEntryCodec (minf : Bytes) : Outcome MediaCodec := do
  let stbl ← findBox (← parseBoxes minf) (fourcc 's' 't' 'b' 'l')
    "ISO-BMFF track has no stbl box"
  let stsd ← findBox (← parseBoxes stbl.payload) (fourcc 's' 't' 's' 'd')
    "ISO-BMFF track has no stsd box"
  if ← hasNoEntry stsd.payload then .err "ISO-BMFF stsd has no sample entry" else
  let entries ← parseBoxes (← Checked.from? stsd.payload 8)
  let entry ← okOr "ISO-BMFF stsd sample entry is truncated" entries.head?
  return entryCodec entry.kind

def parseTrack (bytes : Bytes) : Outcome TrackInfo := do
  let children ← parseBoxes bytes
  let tkhd ← findBox children (fourcc 't' 'k' 'h' 'd') "ISO-BMFF track has no tkhd box"
  let trackId ← parseTkhdTrackId tkhd.payload
  if trackId = 0 then .err "ISO-BMFF track id cannot be zero" else
  let mdia ← findBox children (fourcc 'm' 'd' 'i' 'a') "ISO-BMFF track has no mdia box"
  let mediaChildren ← parseBoxes mdia.payload
  let mdhd ← findBox mediaChildren (fourcc 'm' 'd' 'h' 'd') "ISO-BMFF track has no mdhd box"
  let timescale ← parseMdhdTimescale mdhd.payload
  let handler ← findBox mediaChildren (fourcc 'h' 'd' 'l' 'r') "ISO-BMFF track has no hdlr box"
  let kind ← parseHandlerKind handler.payload
  let minf ← findBox mediaChildren (fourcc 'm' 'i' 'n' 'f') "ISO-BMFF track has no minf box"
  let codec ← parseSampleEntryCodec minf.payload
  return { trackId, timescale, kind, codec }

/-- One turn of the loop over the children of the `moov` box. -/
def addTrack (tracks : List TrackInfo) (item : Mp4Box) : Outcome (List TrackInfo) :=
  if item.kind ≠ fourcc 't' 'r' 'a' 'k' then return tracks
  else if maxTracks ≤ tracks.length then .err "ISO-BMFF track budget exceeded"
  else do return tracks ++ [← parseTrack item.payload]

/-- `windows(2).any(…)` on the sorted tracks. -/
def repeatsId : List TrackInfo → Bool
  | first :: second :: rest => first.trackId = second.trackId || repeatsId (second :: rest)
  | _ => false

def parseInitSegment (bytes : Bytes) : Outcome (List TrackInfo) := do
  validateSegmentSize bytes
  let top ← parseBoxes bytes
  if ¬top.any fun item => item.kind = fourcc 'f' 't' 'y' 'p' then
    .err "ISO-BMFF initialization segment has no ftyp box"
  else
  let moov ← findBox top (fourcc 'm' 'o' 'o' 'v')
    "ISO-BMFF initialization segment has no moov box"
  let tracks ← (← parseBoxes moov.payload).foldlM addTrack []
  if tracks = [] then .err "ISO-BMFF initialization segment has no tracks" else
  let tracks := tracks.insertionSort fun first second => first.trackId ≤ second.trackId
  if repeatsId tracks then .err "ISO-BMFF initialization segment has duplicate track ids"
  else return tracks

/-! ## The movie fragment -/

/-- A field that is there when `bit` is set in the flags, and the offset behind it. -/
def optionalU32 (bytes : Bytes) (flags bit : UInt32) (offset : Nat) (default : UInt32) :
    Outcome (UInt32 × Nat) :=
  if flags &&& bit ≠ 0 then do return (← readBeU32 bytes offset, ← add offset 4)
  else return (default, offset)

/-- A field of `length` bytes that is skipped when `bit` is set in the flags. -/
def optionalSkip (bytes : Bytes) (flags bit : UInt32) (offset length : Nat) : Outcome Nat :=
  if flags &&& bit ≠ 0 then checkedSkip bytes offset length else return offset

/-- The last field of a `tfhd` box; nothing reads behind it, so the offset stays. -/
def tfhdSampleFlags (bytes : Bytes) (flags : UInt32) (offset : Nat) : Outcome UInt32 :=
  if flags &&& 0x000020 ≠ 0 then readBeU32 bytes offset else return 0

def parseTfhd (bytes : Bytes) : Outcome TrackFragmentDefaults :=
  if bytes.length < 8 then .err "Truncated ISO-BMFF tfhd box" else do
  let flags ← readU24 bytes 1
  let trackId ← readBeU32 bytes 4
  let offset ← optionalSkip bytes flags 0x000001 8 8
  let offset ← optionalSkip bytes flags 0x000002 offset 4
  let (duration, offset) ← optionalU32 bytes flags 0x000008 offset 0
  let (size, offset) ← optionalU32 bytes flags 0x000010 offset 0
  let sampleFlags ← tfhdSampleFlags bytes flags offset
  if trackId = 0 then .err "ISO-BMFF tfhd track id cannot be zero"
  else return { trackId, duration, size, flags := sampleFlags }

def parseTfdt (bytes : Bytes) : Outcome Nat := do
  let version ← okOr "Truncated ISO-BMFF tfdt box" bytes.head?
  if version = 1 then readBeU64 bytes 4 else return (← readBeU32 bytes 4).toNat

/-- `raw as i32`. -/
def asI32 (raw : UInt32) : Int := raw.toBitVec.toInt

/-- The entry of sample `index` in the table of a `trun` box, and the offset behind it. -/
def parseRunSample (bytes : Bytes) (version : UInt8) (flags : UInt32)
    (firstSampleFlags : Option UInt32) (defaults : TrackFragmentDefaults) (index offset : Nat) :
    Outcome (RunSample × Nat) := do
  let (duration, offset) ← optionalU32 bytes flags 0x000100 offset defaults.duration
  let (size, offset) ← optionalU32 bytes flags 0x000200 offset defaults.size
  let (sampleFlags, offset) ← optionalU32 bytes flags 0x000400 offset
    (if index = 0 then firstSampleFlags.getD defaults.flags else defaults.flags)
  let (raw, offset) ← optionalU32 bytes flags 0x000800 offset 0
  let compositionOffset := if version = 1 then asI32 raw else (raw.toNat : Int)
  return ({ duration, size, flags := sampleFlags, compositionOffset }, offset)

/-- One turn of the loop over the sample table. -/
def addRunSample (bytes : Bytes) (version : UInt8) (flags : UInt32)
    (firstSampleFlags : Option UInt32) (defaults : TrackFragmentDefaults)
    (state : List RunSample × Nat) (index : Nat) : Outcome (List RunSample × Nat) := do
  let (sample, offset) ←
    parseRunSample bytes version flags firstSampleFlags defaults index state.2
  return (state.1 ++ [sample], offset)

def parseFirstSampleFlags (bytes : Bytes) (flags : UInt32) (offset : Nat) :
    Outcome (Option UInt32 × Nat) :=
  if flags &&& 0x000004 ≠ 0 then do
    return (some (← readBeU32 bytes offset), ← add offset 4)
  else return (none, offset)

def parseTrun (bytes : Bytes) (defaults : TrackFragmentDefaults) : Outcome (List RunSample) :=
  if bytes.length < 8 then .err "Truncated ISO-BMFF trun box" else do
  let version ← index bytes 0
  let flags ← readU24 bytes 1
  let count := (← readBeU32 bytes 4).toNat
  if count = 0 ∨ maxSamplesPerSegment < count then
    .err "ISO-BMFF trun sample count budget exceeded"
  else
  let offset ← optionalSkip bytes flags 0x000001 8 4
  let (firstSampleFlags, offset) ← parseFirstSampleFlags bytes flags offset
  let (samples, offset) ← (List.range count).foldlM
    (addRunSample bytes version flags firstSampleFlags defaults) ([], offset)
  if bytes.length < offset then .err "Truncated ISO-BMFF trun sample table" else return samples

/-- `try_fold` of the durations with `checked_add`. -/
def runDuration (samples : List RunSample) : Option Nat :=
  samples.foldlM (fun total sample => unsigned 64 (total + sample.duration.toNat)) 0

/-- What the walk over a fragment has collected. -/
structure Fragment where
  runs : List TrackRun
  cumulativeSamples : Nat
deriving DecidableEq, Repr

/-- One turn of the loop over the `trun` boxes of a track fragment; the number is `next_time`. -/
def addTrun (defaults : TrackFragmentDefaults) (state : Fragment × Nat) (trun : Mp4Box) :
    Outcome (Fragment × Nat) := do
  let (fragment, nextTime) := state
  let declared := (← readBeU32 trun.payload 4).toNat
  let cumulativeSamples := saturatingAdd fragment.cumulativeSamples declared
  if maxSamplesPerSegment < cumulativeSamples then
    .err "ISO-BMFF sample count budget exceeded"
  else
  let samples ← parseTrun trun.payload defaults
  let duration ← okOr "ISO-BMFF run duration overflow" (runDuration samples)
  let run := { trackId := defaults.trackId, baseDecodeTime := nextTime, samples }
  let nextTime ← okOr "ISO-BMFF run timestamp overflow" (unsigned 64 (nextTime + duration))
  return (⟨fragment.runs ++ [run], cumulativeSamples⟩, nextTime)

/-- One turn of the loop over the children of the `moof` box. -/
def addTraf (fragment : Fragment) (item : Mp4Box) : Outcome Fragment :=
  if item.kind ≠ fourcc 't' 'r' 'a' 'f' then return fragment else do
  let children ← parseBoxes item.payload
  let tfhd ← findBox children (fourcc 't' 'f' 'h' 'd') "ISO-BMFF traf has no tfhd box"
  let defaults ← parseTfhd tfhd.payload
  let tfdt ← findBox children (fourcc 't' 'f' 'd' 't') "ISO-BMFF traf has no tfdt box"
  let baseDecodeTime ← parseTfdt tfdt.payload
  let truns := children.filter fun item => item.kind = fourcc 't' 'r' 'u' 'n'
  let (fragment, _) ← truns.foldlM (addTrun defaults) (fragment, baseDecodeTime)
  return fragment

def parseMovieFragment (bytes : Bytes) : Outcome (List TrackRun) := do
  return (← (← parseBoxes bytes).foldlM addTraf ⟨[], 0⟩).runs

/-! ## The media segment -/

/-- The samples made so far and how much of the payload they took. -/
structure Demuxed where
  output : List EncodedSample
  payloadOffset : Nat
deriving DecidableEq, Repr

/-- One turn of the loop over the samples of `run`; the number is `decode_time`. -/
def addSample (payload : Bytes) (track : TrackInfo) (run : TrackRun) (state : Demuxed × Nat)
    (sample : RunSample) : Outcome (Demuxed × Nat) :=
  let (demuxed, decodeTime) := state
  if sample.duration = 0 ∨ sample.size = 0 then
    .err "ISO-BMFF sample has no duration or payload"
  else do
  let stop ← okOr "ISO-BMFF sample payload offset overflow"
    (unsigned 64 (demuxed.payloadOffset + sample.size.toNat))
  let data ← okOr "ISO-BMFF sample exceeds the mdat payload"
    (range? payload demuxed.payloadOffset stop)
  let dts ← scaleTime decodeTime track.timescale
  let presentation ← okOr "ISO-BMFF composition timestamp overflow"
    (signed 128 (decodeTime + sample.compositionOffset))
  let pts ← scaleTime presentation track.timescale
  let duration ← scaleDuration sample.duration track.timescale
  let made : EncodedSample :=
    { trackId := run.trackId, decodeTimestampUs := dts, presentationTimestampUs := pts
      durationUs := duration, keyframe := sample.flags &&& 0x00010000 = 0, data }
  let decodeTime ← okOr "ISO-BMFF decode timestamp overflow"
    (unsigned 64 (decodeTime + sample.duration.toNat))
  return (⟨demuxed.output ++ [made], stop⟩, decodeTime)

/-- One turn of the loop over the runs. -/
def addRun (tracks : List TrackInfo) (payload : Bytes) (demuxed : Demuxed) (run : TrackRun) :
    Outcome Demuxed := do
  let track ← okOr "ISO-BMFF media segment references an unknown track"
    (tracks.find? fun track => track.trackId = run.trackId)
  let (demuxed, _) ← run.samples.foldlM (addSample payload track run) (demuxed, run.baseDecodeTime)
  return demuxed

/-- `map(|run| run.samples.len()).sum::<usize>()`. -/
def sampleCount (runs : List TrackRun) : Outcome Nat :=
  runs.foldlM (fun total run => add total run.samples.length) 0

def parseMediaSegment (bytes : Bytes) (tracks : List TrackInfo) :
    Outcome (List EncodedSample) := do
  validateSegmentSize bytes
  if tracks = [] ∨ maxTracks < tracks.length then
    .err "ISO-BMFF media segment has no valid track configuration"
  else
  let top ← parseBoxes bytes
  let moof ← findBox top (fourcc 'm' 'o' 'o' 'f') "ISO-BMFF media segment has no moof box"
  let mdat ← findBox top (fourcc 'm' 'd' 'a' 't') "ISO-BMFF media segment has no mdat box"
  if tracks.any fun track => track.timescale = 0 then
    .err "ISO-BMFF track timescale must be non-zero"
  else
  let runs ← parseMovieFragment moof.payload
  let count ← sampleCount runs
  if count = 0 ∨ maxSamplesPerSegment < count then .err "ISO-BMFF sample count budget exceeded"
  else
  let demuxed ← runs.foldlM (addRun tracks mdat.payload) ⟨[], 0⟩
  if demuxed.payloadOffset ≠ mdat.payload.length then
    .err "ISO-BMFF mdat contains unreferenced payload bytes"
  else return demuxed.output

end GhitaBrowser.Media
