import GhitaBrowser.Media.IsoBmff

/-!
# The fragmented MP4 parser never panics

Every function of the parser ends in `Ok` or `Err` on every byte string: no slice is
taken outside its bounds, no `+` wraps, nothing is divided by zero, and the loops have
a number of turns that is known before they start. The one fact all of it rests on is
`Fits`: a segment is at most 64 MiB, and every payload is a part of it, so an offset
inside one is far from the end of `usize`. What a media segment gives is at most
`maxSamplesPerSegment` samples, and their data, put together again, is the payload of
the first `mdat` box.
-/

namespace GhitaBrowser.Media

open Outcome List
open Checked (add sub divide divideSigned index range? saturatingAdd signed unsigned)

/-- The size `validate_segment_size` accepts, which every part of a segment keeps. -/
def Fits (bytes : Bytes) : Prop := bytes.length ≤ maxSegmentBytes

theorem Fits.of_infix {part bytes : Bytes} (h : Fits bytes) (within : part <:+: bytes) :
    Fits part := Nat.le_trans within.length_le h

theorem validateSegmentSize_ends (bytes : Bytes) :
    (validateSegmentSize bytes).Ends fun _ => Fits bytes :=
  .guard fun accepted => ends_ok (Nat.le_of_not_lt fun long => accepted (.inr long))

/-! ## Readers -/

/-- A `get` whose bound was added with saturation does not saturate inside a segment. -/
theorem length_of_saturating {bytes part : Bytes} {offset count : Nat} (fits : Fits bytes)
    (h : range? bytes offset (saturatingAdd offset count) = some part) :
    offset + count ≤ bytes.length ∧ part.length = count := by
  have long : bytes.length < 2 ^ 64 - 1 :=
    Nat.lt_of_le_of_lt fits (by decide)
  obtain ⟨⟨-, inside⟩, -⟩ := Checked.range?_eq_some.mp h
  have length := Checked.length_of_range? h
  unfold saturatingAdd at inside length
  omega

theorem fromBeBytes_ends {value : Bytes} {count : Nat} (h : count ≤ value.length) :
    (fromBeBytes value count).Ends fun total => total < 256 ^ count := by
  induction count with
  | zero => exact ends_ok Nat.zero_lt_one
  | succ count ih =>
    unfold fromBeBytes at ih ⊢
    rw [range_succ, foldlM_append]
    refine (ih (Nat.le_of_succ_le h)).bind fun total small => ?_
    rw [foldlM_cons, Checked.index_eq h]
    refine ends_ok (?_ : total * 256 + value[count].toNat < 256 ^ (count + 1))
    have := value[count].toNat_lt
    rw [Nat.pow_succ]
    omega

theorem readU24_ends {bytes : Bytes} (fits : Fits bytes) (offset : Nat) :
    (readU24 bytes offset).Ends fun _ => offset + 3 ≤ bytes.length := by
  refine (ends_okOr fun _ => length_of_saturating fits).bind fun value ⟨inside, length⟩ => ?_
  exact (fromBeBytes_ends length.ge).bind fun _ _ => ends_ok inside

theorem readBeU32_ends {bytes : Bytes} (fits : Fits bytes) (offset : Nat) :
    (readBeU32 bytes offset).Ends fun _ => offset + 4 ≤ bytes.length := by
  refine (ends_okOr fun _ => length_of_saturating fits).bind fun value ⟨inside, length⟩ => ?_
  exact (fromBeBytes_ends length.ge).bind fun _ _ => ends_ok inside

theorem readBeU64_ends {bytes : Bytes} (fits : Fits bytes) (offset : Nat) :
    (readBeU64 bytes offset).Ends fun value => offset + 8 ≤ bytes.length ∧ value < 2 ^ 64 := by
  refine (ends_okOr fun _ => length_of_saturating fits).bind fun value ⟨inside, length⟩ => ?_
  exact (fromBeBytes_ends length.ge).mono fun total small => ⟨inside, small⟩

theorem checkedSkip_ends (bytes : Bytes) (offset length : Nat) :
    (checkedSkip bytes offset length).Ends (· ≤ bytes.length) :=
  (ends_okOr (P := fun _ => True) fun _ _ => trivial).bind fun _ _ =>
    .guard fun inside => ends_ok (Nat.le_of_not_lt inside)

theorem add_ends {bytes : Bytes} (fits : Fits bytes) {offset count : Nat}
    (inside : offset + count ≤ bytes.length) :
    (add offset count).Ends fun stop => stop = offset + count ∧ stop ≤ bytes.length := by
  have small : offset + count < 2 ^ 64 :=
    Nat.lt_of_le_of_lt (Nat.le_trans inside fits) (by decide)
  exact ends_of_eq (Checked.add_eq small) ⟨rfl, inside⟩

theorem optionalU32_ends {bytes : Bytes} (fits : Fits bytes) (flags bit default : UInt32)
    {offset : Nat} (inside : offset ≤ bytes.length) :
    (optionalU32 bytes flags bit offset default).Ends fun field => field.2 ≤ bytes.length := by
  refine .ite (fun _ => ?_) fun _ => ends_ok inside
  refine (readBeU32_ends fits offset).bind fun value read => ?_
  exact (add_ends fits read).bind fun stop known => ends_ok known.2

theorem optionalSkip_ends {bytes : Bytes} (flags bit : UInt32) {offset : Nat} (length : Nat)
    (inside : offset ≤ bytes.length) :
    (optionalSkip bytes flags bit offset length).Ends (· ≤ bytes.length) :=
  .ite (fun _ => checkedSkip_ends bytes offset length) fun _ => ends_ok inside

theorem scaleTime_ends {timescale : UInt32} (positive : timescale ≠ 0) (value : Int) :
    (scaleTime value timescale).Ends fun scaled => -2 ^ 63 ≤ scaled ∧ scaled < 2 ^ 63 := by
  have divisor : (0 : Int) < timescale.toNat := by
    have : timescale.toNat ≠ 0 := fun zero => positive (UInt32.toNat_inj.mp zero)
    omega
  refine (ends_okOr fun _ => Checked.signed_eq_some.mp).bind fun product ⟨range, same⟩ => ?_
  subst same
  rw [Checked.divideSigned_eq divisor (by simpa using range.1) (by simpa using range.2)]
  refine ends_okOr fun scaled made => ?_
  obtain ⟨range, rfl⟩ := Checked.signed_eq_some.mp made
  simpa using range

/-- A duration of a sample has at least one microsecond and fits in `i64`. -/
theorem scaleDuration_ends {timescale : UInt32} (positive : timescale ≠ 0) (value : UInt32) :
    (scaleDuration value timescale).Ends fun scaled => 0 < scaled ∧ scaled < 2 ^ 63 := by
  have divisor : timescale.toNat ≠ 0 := fun zero => positive (UInt32.toNat_inj.mp zero)
  refine (ends_okOr fun _ => Checked.unsigned_eq_some.mp).bind fun product ⟨_, same⟩ => ?_
  have small : product < 2 ^ 63 := by
    have := value.toNat_lt
    omega
  refine (ends_of_eq (P := (· ≤ product)) (Checked.divide_eq divisor)
    (Nat.div_le_self _ _)).bind fun scaled below => ?_
  exact .guard fun some => ends_ok ⟨Nat.pos_of_ne_zero some, Nat.lt_of_le_of_lt below small⟩

/-! ## Boxes -/

theorem boxSize_ends {bytes : Bytes} (fits : Fits bytes) {offset : Nat}
    (inside : offset + 8 ≤ bytes.length) (size32 : Nat) :
    (boxSize bytes offset size32).Ends fun header => 8 ≤ header.1 := by
  refine .ite (fun _ => ?_) fun _ => .ite (fun _ => ?_) fun _ => ends_ok Nat.le.refl
  · refine (add_ends fits inside).bind fun start _ => ?_
    refine (readBeU64_ends fits start).bind fun extended _ => ?_
    exact (ends_okOr (P := fun _ => True) fun _ _ => trivial).bind fun _ _ =>
      ends_ok (Nat.le_add_left 8 8)
  · rw [Checked.sub_eq (by omega)]
    exact ends_ok Nat.le.refl

theorem parseBox_ends {bytes : Bytes} (fits : Fits bytes) (offset : Nat) :
    (parseBox bytes offset).Ends fun read =>
      read.1.payload <:+: bytes ∧ offset + 8 ≤ read.2 ∧ read.2 ≤ bytes.length := by
  refine (ends_okOr fun _ => length_of_saturating fits).bind fun basic ⟨inside, length⟩ => ?_
  refine (fromBeBytes_ends (by omega)).bind fun size32 _ => ?_
  rw [Checked.index_eq (by omega), Checked.index_eq (by omega), Checked.index_eq (by omega),
    Checked.index_eq (by omega)]
  refine (boxSize_ends fits inside size32).bind fun (header, size) atLeast => ?_
  refine .guard fun covers => ?_
  refine (ends_okOr fun _ => Checked.unsigned_eq_some.mp).bind fun stop ⟨small, same⟩ => ?_
  subst same
  -- the header is part of the box, so where the payload starts fits in `usize` too
  dsimp only at atLeast covers
  rw [Checked.add_eq (by omega)]
  refine (ends_okOr fun _ found => found).bind fun payload cut => ends_ok ?_
  obtain ⟨⟨-, within⟩, -⟩ := Checked.range?_eq_some.mp cut
  exact ⟨Checked.infix_of_range? cut, by dsimp only; omega, within⟩

theorem parseBoxesFrom_ends {bytes : Bytes} (fits : Fits bytes) (room offset : Nat) :
    (parseBoxesFrom bytes room offset).Ends fun boxes =>
      boxes.length ≤ room ∧ ∀ item ∈ boxes, item.payload <:+: bytes := by
  induction room generalizing offset with
  | zero =>
    refine .guard fun _ => ends_ok ⟨Nat.le.refl, ?_⟩
    simp
  | succ room ih =>
    refine .ite (fun _ => ?_) fun _ => ends_ok ⟨Nat.zero_le _, by simp⟩
    refine (parseBox_ends fits offset).bind fun (item, stop) ⟨within, _⟩ => ?_
    refine (ih stop).bind fun boxes ⟨few, each⟩ => ends_ok ⟨Nat.succ_le_succ few, ?_⟩
    exact forall_mem_cons.mpr ⟨within, each⟩

theorem parseBoxes_ends {bytes : Bytes} (fits : Fits bytes) :
    (parseBoxes bytes).Ends fun boxes => ∀ item ∈ boxes, Fits item.payload :=
  (parseBoxesFrom_ends fits maxBoxes 0).mono fun _ known item among =>
    fits.of_infix (known.2 item among)

theorem findBox_ends {boxes : List Mp4Box} (each : ∀ item ∈ boxes, Fits item.payload)
    (kind : Bytes) (message : String) :
    (findBox boxes kind message).Ends fun item =>
      Fits item.payload ∧ boxes.find? (fun item => item.kind = kind) = some item :=
  ends_okOr fun item found => ⟨each item (mem_of_find?_eq_some found), found⟩

/-! ## The initialization segment -/

theorem versionedU32_ends {bytes : Bytes} (fits : Fits bytes) (message : String) :
    (versionedU32 bytes message).Ends fun _ => True :=
  (ends_okOr (P := fun _ => True) fun _ _ => trivial).bind fun _ _ =>
    (readBeU32_ends fits _).mono fun _ _ => trivial

theorem parseMdhdTimescale_ends {bytes : Bytes} (fits : Fits bytes) :
    (parseMdhdTimescale bytes).Ends (· ≠ 0) :=
  (versionedU32_ends fits _).bind fun _ _ => .guard fun valid =>
    ends_ok fun zero => valid (.inl zero)

theorem hasNoEntry_ends {stsd : Bytes} (fits : Fits stsd) :
    (hasNoEntry stsd).Ends fun noEntry => noEntry = false → 8 ≤ stsd.length := by
  refine .ite (fun _ => ends_ok nofun) fun long => ?_
  exact (readBeU32_ends fits 4).bind fun _ _ => ends_ok fun _ => Nat.le_of_not_lt long

theorem parseSampleEntryCodec_ends {minf : Bytes} (fits : Fits minf) :
    (parseSampleEntryCodec minf).Ends fun _ => True := by
  refine (parseBoxes_ends fits).bind fun children each => ?_
  refine (findBox_ends each _ _).bind fun stbl ⟨fitsStbl, _⟩ => ?_
  refine (parseBoxes_ends fitsStbl).bind fun children each => ?_
  refine (findBox_ends each _ _).bind fun stsd ⟨fitsStsd, _⟩ => ?_
  refine (hasNoEntry_ends fitsStsd).bind fun noEntry long => .guard fun hasEntry => ?_
  rw [Checked.from?_eq (long (Bool.eq_false_iff.mpr hasEntry))]
  have rest : Fits (stsd.payload.drop 8) := fitsStsd.of_infix (drop_suffix _ _).isInfix
  refine (parseBoxes_ends rest).bind fun entries _ => ?_
  exact (ends_okOr (P := fun _ => True) fun _ _ => trivial).bind fun _ _ => ends_ok trivial

theorem parseTrack_ends {bytes : Bytes} (fits : Fits bytes) :
    (parseTrack bytes).Ends fun track => track.timescale ≠ 0 := by
  refine (parseBoxes_ends fits).bind fun children each => ?_
  refine (findBox_ends each _ _).bind fun tkhd ⟨fitsTkhd, _⟩ => ?_
  refine (versionedU32_ends fitsTkhd _).bind fun trackId _ => .guard fun _ => ?_
  refine (findBox_ends each _ _).bind fun mdia ⟨fitsMdia, _⟩ => ?_
  refine (parseBoxes_ends fitsMdia).bind fun mediaChildren each => ?_
  refine (findBox_ends each _ _).bind fun mdhd ⟨fitsMdhd, _⟩ => ?_
  refine (parseMdhdTimescale_ends fitsMdhd).bind fun timescale positive => ?_
  refine (findBox_ends each _ _).bind fun handler _ => ?_
  have kindEnds : (parseHandlerKind handler.payload).Ends fun _ => True :=
    (ends_okOr (P := fun _ => True) fun _ _ => trivial).bind fun _ _ => ends_ok trivial
  refine kindEnds.bind fun kind _ => ?_
  refine (findBox_ends each _ _).bind fun minf ⟨fitsMinf, _⟩ => ?_
  exact (parseSampleEntryCodec_ends fitsMinf).bind fun codec _ => ends_ok positive

/-- What `parse_init_segment` gives: no more tracks than the budget, none with timescale zero. -/
def ValidTracks (tracks : List TrackInfo) : Prop :=
  tracks.length ≤ maxTracks ∧ ∀ track ∈ tracks, track.timescale ≠ 0

theorem addTrack_ends {tracks : List TrackInfo} (valid : ValidTracks tracks) {item : Mp4Box}
    (fits : Fits item.payload) : (addTrack tracks item).Ends ValidTracks := by
  refine .ite (fun _ => ends_ok valid) fun _ => .guard fun room => ?_
  refine (parseTrack_ends fits).bind fun track positive => ends_ok ⟨?_, ?_⟩
  · simp only [length_append, length_singleton]
    omega
  · intro other among
    rcases mem_append.mp among with old | new
    · exact valid.2 other old
    · exact mem_singleton.mp new ▸ positive

theorem parseInitSegment_ends (bytes : Bytes) :
    (parseInitSegment bytes).Ends fun tracks => ValidTracks tracks ∧ tracks ≠ [] := by
  refine (validateSegmentSize_ends bytes).bind fun _ fits => ?_
  refine (parseBoxes_ends fits).bind fun top each => .guard fun _ => ?_
  refine (findBox_ends each _ _).bind fun moov ⟨fitsMoov, _⟩ => ?_
  refine (parseBoxes_ends fitsMoov).bind fun children each => ?_
  have none : ValidTracks [] := ⟨Nat.zero_le _, by simp⟩
  refine (ends_foldlM (fun item among tracks valid => addTrack_ends valid (each item among))
    [] none).bind fun tracks valid => .guard fun some => .guard fun _ => ends_ok ⟨⟨?_, ?_⟩, ?_⟩
  · exact (length_insertionSort _ tracks).trans_le valid.1
  · exact fun track among => valid.2 track ((mem_insertionSort _).mp among)
  · intro sortedNone
    have := length_insertionSort (fun first second => first.trackId ≤ second.trackId) tracks
    rw [sortedNone] at this
    exact some (eq_nil_of_length_eq_zero this.symm)

/-! ## The movie fragment -/

theorem parseTfhd_ends {bytes : Bytes} (fits : Fits bytes) :
    (parseTfhd bytes).Ends fun _ => True := by
  refine .guard fun long => ?_
  have start : 8 ≤ bytes.length := Nat.le_of_not_lt long
  refine (readU24_ends fits 1).bind fun flags _ => ?_
  refine (readBeU32_ends fits 4).bind fun trackId _ => ?_
  -- each field that is read or skipped leaves the offset inside the box
  refine (optionalSkip_ends flags 0x1 8 start).bind fun offset inside => ?_
  refine (optionalSkip_ends flags 0x2 4 inside).bind fun offset inside => ?_
  refine (optionalU32_ends fits flags 0x8 0 inside).bind fun (duration, offset) inside => ?_
  refine (optionalU32_ends fits flags 0x10 0 inside).bind fun (size, offset) inside => ?_
  refine (Ends.ite (fun _ => (readBeU32_ends fits offset).mono fun _ _ => trivial)
    fun _ => ends_ok trivial).bind fun sampleFlags _ => ?_
  exact .guard fun _ => ends_ok trivial

theorem parseTfdt_ends {bytes : Bytes} (fits : Fits bytes) :
    (parseTfdt bytes).Ends fun _ => True := by
  refine (ends_okOr (P := fun _ => True) fun _ _ => trivial).bind fun version _ => ?_
  refine .ite (fun _ => (readBeU64_ends fits 4).mono fun _ _ => trivial) fun _ => ?_
  exact (readBeU32_ends fits 4).bind fun _ _ => ends_ok trivial

theorem parseRunSample_ends {bytes : Bytes} (fits : Fits bytes) (version : UInt8)
    (flags : UInt32) (first : Option UInt32) (defaults : TrackFragmentDefaults) (index : Nat)
    {offset : Nat} (inside : offset ≤ bytes.length) :
    (parseRunSample bytes version flags first defaults index offset).Ends fun read =>
      read.2 ≤ bytes.length := by
  refine (optionalU32_ends fits flags _ _ inside).bind fun (duration, offset) inside => ?_
  refine (optionalU32_ends fits flags _ _ inside).bind fun (size, offset) inside => ?_
  refine (optionalU32_ends fits flags _ _ inside).bind fun (sampleFlags, offset) inside => ?_
  refine (optionalU32_ends fits flags _ _ inside).bind fun (raw, offset) inside => ?_
  exact ends_ok inside

theorem addRunSamples_ends {bytes : Bytes} (fits : Fits bytes) (version : UInt8) (flags : UInt32)
    (first : Option UInt32) (defaults : TrackFragmentDefaults) (indices : List Nat)
    {samples : List RunSample} {offset : Nat} (inside : offset ≤ bytes.length) :
    (indices.foldlM (addRunSample bytes version flags first defaults) (samples, offset)).Ends
      fun read => read.1.length = samples.length + indices.length := by
  induction indices generalizing samples offset with
  | nil => exact ends_ok rfl
  | cons index indices ih =>
    rw [foldlM_cons]
    unfold addRunSample
    rw [bind_assoc]
    refine (parseRunSample_ends fits version flags first defaults index inside).bind
      fun (sample, offset) inside => ?_
    refine (@ih (samples ++ [sample]) _ inside).mono fun read known => ?_
    simp only [known, length_append, length_cons, length_nil]
    omega

theorem parseFirstSampleFlags_ends {bytes : Bytes} (fits : Fits bytes) (flags : UInt32)
    {offset : Nat} (inside : offset ≤ bytes.length) :
    (parseFirstSampleFlags bytes flags offset).Ends fun first => first.2 ≤ bytes.length := by
  refine .ite (fun _ => ?_) fun _ => ends_ok inside
  refine (readBeU32_ends fits offset).bind fun value read => ?_
  exact (add_ends fits read).bind fun stop known => ends_ok known.2

/-- A run has as many samples as its header declares, which is the number the walk over the
fragment counted. -/
theorem parseTrun_ends {bytes : Bytes} (fits : Fits bytes) (defaults : TrackFragmentDefaults)
    {declared : UInt32} (counted : readBeU32 bytes 4 = ok declared) :
    (parseTrun bytes defaults).Ends fun samples => samples.length = declared.toNat := by
  refine .guard fun long => ?_
  have start : 8 ≤ bytes.length := Nat.le_of_not_lt long
  obtain ⟨version, first⟩ : ∃ version, index bytes 0 = ok version :=
    ⟨_, Checked.index_eq (Nat.lt_of_lt_of_le (by decide) start)⟩
  rw [first]
  refine (readU24_ends fits 1).bind fun flags _ => ?_
  rw [counted]
  refine .guard fun _ => ?_
  refine (optionalSkip_ends flags 0x1 4 start).bind fun offset inside => ?_
  refine (parseFirstSampleFlags_ends fits flags inside).bind fun (first, offset) inside => ?_
  refine (@addRunSamples_ends _ fits version flags first defaults _ [] _ inside).bind
    fun (samples, offset) known => .guard fun _ => ends_ok ?_
  simpa using known

def samplesOf (runs : List TrackRun) : Nat := (runs.map fun run => run.samples.length).sum

/-- The budget of the walk: every sample of the runs has been counted. -/
def Fragment.Counted (fragment : Fragment) : Prop :=
  samplesOf fragment.runs ≤ fragment.cumulativeSamples ∧
    fragment.cumulativeSamples ≤ maxSamplesPerSegment

theorem addTrun_ends (defaults : TrackFragmentDefaults) {state : Fragment × Nat}
    (counted : state.1.Counted) {trun : Mp4Box} (fits : Fits trun.payload) :
    (addTrun defaults state trun).Ends fun next => next.1.Counted := by
  obtain ⟨fragment, nextTime⟩ := state
  obtain ⟨covered, below⟩ := counted
  refine (readBeU32_ends fits 4).known.bind fun declared ⟨_, read⟩ => .guard fun budget => ?_
  refine (parseTrun_ends fits defaults read).bind fun samples length => ?_
  refine (ends_okOr (P := fun _ => True) fun _ _ => trivial).bind fun duration _ => ?_
  refine (ends_okOr (P := fun _ => True) fun _ _ => trivial).bind fun next _ => ends_ok ?_
  refine ⟨?_, Nat.le_of_not_lt budget⟩
  -- the count is far from saturating, so it grows by what the run has
  have exact : saturatingAdd fragment.cumulativeSamples declared.toNat =
      fragment.cumulativeSamples + declared.toNat := by
    have := declared.toNat_lt
    unfold maxSamplesPerSegment at below
    dsimp only at below
    unfold saturatingAdd
    omega
  have grown : samplesOf (fragment.runs ++ [⟨defaults.trackId, nextTime, samples⟩]) =
      samplesOf fragment.runs + declared.toNat := by
    simp [samplesOf, length]
  dsimp only at covered ⊢
  omega

theorem addTraf_ends {fragment : Fragment} (counted : fragment.Counted) {item : Mp4Box}
    (fits : Fits item.payload) : (addTraf fragment item).Ends Fragment.Counted := by
  refine .ite (fun _ => ends_ok counted) fun _ => ?_
  refine (parseBoxes_ends fits).bind fun children each => ?_
  refine (findBox_ends each _ _).bind fun tfhd ⟨fitsTfhd, _⟩ => ?_
  refine (parseTfhd_ends fitsTfhd).bind fun defaults _ => ?_
  refine (findBox_ends each _ _).bind fun tfdt ⟨fitsTfdt, _⟩ => ?_
  refine (parseTfdt_ends fitsTfdt).bind fun base _ => ?_
  refine (ends_foldlM (P := fun state : Fragment × Nat => state.1.Counted)
    (fun trun among state counted => addTrun_ends defaults counted
      (each trun (mem_of_mem_filter among))) (fragment, base) counted).bind
    fun state counted => ends_ok counted

theorem parseMovieFragment_ends {bytes : Bytes} (fits : Fits bytes) :
    (parseMovieFragment bytes).Ends fun runs => samplesOf runs ≤ maxSamplesPerSegment := by
  refine (parseBoxes_ends fits).bind fun children each => ?_
  have none : (Fragment.mk [] 0).Counted := ⟨Nat.le.refl, Nat.zero_le _⟩
  refine (ends_foldlM (fun item among fragment counted => addTraf_ends counted (each item among))
    _ none).bind fun fragment counted => ends_ok ?_
  exact Nat.le_trans counted.1 counted.2

/-! ## The media segment -/

/-- The sum of the lengths does not overflow, because the walk has bounded it. -/
theorem sampleCount_ends {runs : List TrackRun} (few : samplesOf runs ≤ maxSamplesPerSegment) :
    (sampleCount runs).Ends (· = samplesOf runs) := by
  have fold : ∀ (runs : List TrackRun) (total : Nat), total + samplesOf runs < 2 ^ 64 →
      runs.foldlM (fun total run => add total run.samples.length) total =
        ok (total + samplesOf runs) := by
    intro runs
    induction runs with
    | nil => exact fun _ _ => rfl
    | cons run runs ih =>
      intro total small
      have split : samplesOf (run :: runs) = run.samples.length + samplesOf runs := by
        simp [samplesOf]
      rw [foldlM_cons, Checked.add_eq (by omega), ok_bind, ih _ (by omega), split,
        Nat.add_assoc]
  have small : 0 + samplesOf runs < 2 ^ 64 := by
    unfold maxSamplesPerSegment at few
    omega
  exact ends_of_eq (fold runs 0 small) (Nat.zero_add _)

/-- What every sample of a segment satisfies. -/
structure EncodedSample.WellFormed (sample : EncodedSample) : Prop where
  duration : 0 < sample.durationUs ∧ sample.durationUs < 2 ^ 63
  presentation : -2 ^ 63 ≤ sample.presentationTimestampUs ∧
    sample.presentationTimestampUs < 2 ^ 63
  decode : -2 ^ 63 ≤ sample.decodeTimestampUs ∧ sample.decodeTimestampUs < 2 ^ 63

/-- `made` samples have been cut from `payload`, and their data is all of it up to the offset. -/
structure Demuxed.Covers (payload : Bytes) (made : Nat) (demuxed : Demuxed) : Prop where
  length : demuxed.output.length = made
  data : (demuxed.output.map (·.data)).flatten = payload.take demuxed.payloadOffset
  wellFormed : ∀ sample ∈ demuxed.output, sample.WellFormed

theorem addSample_ends {payload : Bytes} {track : TrackInfo} (positive : track.timescale ≠ 0)
    (run : TrackRun) {made : Nat} {state : Demuxed × Nat} (covers : state.1.Covers payload made)
    (sample : RunSample) :
    (addSample payload track run state sample).Ends fun next =>
      next.1.Covers payload (made + 1) := by
  obtain ⟨demuxed, decodeTime⟩ := state
  refine .guard fun _ => ?_
  refine (ends_okOr (P := fun _ => True) fun _ _ => trivial).bind fun stop _ => ?_
  refine (ends_okOr fun _ => Checked.take_append_range?).bind fun data extended => ?_
  refine (scaleTime_ends positive _).bind fun dts decode => ?_
  refine (ends_okOr (P := fun _ => True) fun _ _ => trivial).bind fun shown _ => ?_
  refine (scaleTime_ends positive _).bind fun pts presentation => ?_
  refine (scaleDuration_ends positive _).bind fun duration bounds => ?_
  refine (ends_okOr (P := fun _ => True) fun _ _ => trivial).bind fun next _ => ends_ok ?_
  refine ⟨by simp [covers.length], by simp [covers.data, extended], fun other among => ?_⟩
  rcases mem_append.mp among with old | new
  · exact covers.wellFormed other old
  · exact mem_singleton.mp new ▸ ⟨bounds, presentation, decode⟩

theorem addSamples_ends {payload : Bytes} {track : TrackInfo} (positive : track.timescale ≠ 0)
    (run : TrackRun) (samples : List RunSample) {made : Nat} {state : Demuxed × Nat}
    (covers : state.1.Covers payload made) :
    (samples.foldlM (addSample payload track run) state).Ends fun next =>
      next.1.Covers payload (made + samples.length) := by
  induction samples generalizing made state with
  | nil => exact ends_ok covers
  | cons sample samples ih =>
    rw [foldlM_cons]
    refine (addSample_ends positive run covers sample).bind fun next covers => ?_
    refine (ih covers).mono fun last covers => ?_
    rwa [length_cons, Nat.add_comm samples.length, ← Nat.add_assoc]

theorem addRuns_ends {tracks : List TrackInfo} {payload : Bytes}
    (positive : ∀ track ∈ tracks, track.timescale ≠ 0) (runs : List TrackRun) {made : Nat}
    {demuxed : Demuxed} (covers : demuxed.Covers payload made) :
    (runs.foldlM (addRun tracks payload) demuxed).Ends fun next =>
      next.Covers payload (made + samplesOf runs) := by
  induction runs generalizing made demuxed with
  | nil => exact ends_ok covers
  | cons run runs ih =>
    rw [foldlM_cons]
    refine Ends.bind (P := (·.Covers payload (made + run.samples.length))) ?_
      fun next covers => (ih covers).mono fun last covers => ?_
    · refine (ends_okOr fun _ => mem_of_find?_eq_some).bind fun track among => ?_
      refine (@addSamples_ends _ _ (positive track among) run run.samples _ (demuxed, _)
        covers).bind fun next covers => ends_ok covers
    · have split : samplesOf (run :: runs) = run.samples.length + samplesOf runs := by
        simp [samplesOf]
      rwa [split, ← Nat.add_assoc]

/-- What a media segment gives: samples within the budget, cut one after the other from the
whole payload of its first `mdat` box. -/
def Demuxes (bytes : Bytes) (samples : List EncodedSample) : Prop :=
  samples.length ≤ maxSamplesPerSegment ∧ (∀ sample ∈ samples, sample.WellFormed) ∧
    ∃ top mdat, parseBoxes bytes = ok top ∧
      top.find? (fun item => item.kind = fourcc 'm' 'd' 'a' 't') = some mdat ∧
        (samples.map (·.data)).flatten = mdat.payload

theorem parseMediaSegment_ends (bytes : Bytes) (tracks : List TrackInfo) :
    (parseMediaSegment bytes tracks).Ends (Demuxes bytes) := by
  refine (validateSegmentSize_ends bytes).bind fun _ fits => .guard fun _ => ?_
  refine (parseBoxes_ends fits).known.bind fun top ⟨each, read⟩ => ?_
  refine (findBox_ends each _ _).bind fun moof ⟨fitsMoof, _⟩ => ?_
  refine (findBox_ends each _ _).bind fun mdat ⟨_, found⟩ => .guard fun scaled => ?_
  have positive : ∀ track ∈ tracks, track.timescale ≠ 0 := by
    simpa using scaled
  refine (parseMovieFragment_ends fitsMoof).bind fun runs few => ?_
  refine (sampleCount_ends few).bind fun count _ => .guard fun _ => ?_
  have start : (Demuxed.mk [] 0).Covers mdat.payload 0 := ⟨rfl, rfl, by simp⟩
  refine (addRuns_ends positive runs start).bind fun demuxed covers => .guard fun whole => ?_
  refine ends_ok ⟨?_, covers.wellFormed, top, mdat, read, found, ?_⟩
  · rw [covers.length, Nat.zero_add]
    exact few
  · rw [covers.data, Decidable.not_not.mp whole, take_length]

/-- Both entry points return on every byte string, whatever the tracks are that the second is
given, and what it returns is within the sample budget and cut from the payload. -/
theorem segments_safe (bytes : Bytes) (tracks : List TrackInfo) :
    (parseInitSegment bytes).Returns ∧ (parseMediaSegment bytes tracks).Returns ∧
      ∀ samples, parseMediaSegment bytes tracks = ok samples →
        samples.length ≤ maxSamplesPerSegment ∧
          ∃ top mdat, parseBoxes bytes = ok top ∧
            top.find? (fun item => item.kind = fourcc 'm' 'd' 'a' 't') = some mdat ∧
              ∀ sample ∈ samples, sample.data <:+: mdat.payload := by
  obtain ⟨returns, ensures⟩ := parseMediaSegment_ends bytes tracks
  refine ⟨(parseInitSegment_ends bytes).1, returns, fun samples returned => ?_⟩
  obtain ⟨few, -, top, mdat, read, found, whole⟩ := ensures samples returned
  refine ⟨few, top, mdat, read, found, fun sample among => ?_⟩
  rw [← whole]
  exact infix_of_mem_flatten (mem_map_of_mem among)

end GhitaBrowser.Media
