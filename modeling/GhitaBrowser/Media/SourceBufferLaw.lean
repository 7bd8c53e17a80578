import GhitaBrowser.Lib.Replace
import GhitaBrowser.Media.IsoBmffLaw
import GhitaBrowser.Media.SourceBuffer

/-!
# What a source buffer holds

A buffer is `Sound` when its byte count is the sum over its samples, the samples of a
track do not overlap, the list is in presentation order and both budgets are kept.
Every call keeps this, with one exception: a failed append cuts the list back to its
old length, which restores it only if what the segment replaced was a tail of the list
that the segment itself put back (`Undoes`). That the samples do not overlap (`Placed`)
survives even such a failure.
-/

namespace GhitaBrowser.Media

open Outcome List
open Checked (signed unsigned)

/-! ## Intervals -/

/-- The presentation intervals of two samples of one track have no point in common. -/
def Apart (first second : EncodedSample) : Prop :=
  first.trackId = second.trackId →
    first.presentationTimestampUs + first.durationUs ≤ second.presentationTimestampUs ∨
      second.presentationTimestampUs + second.durationUs ≤ first.presentationTimestampUs

theorem Apart.symm {first second : EncodedSample} (h : Apart first second) :
    Apart second first := fun same => (h same.symm).symm

/-- The interval of a stored sample lies in `i64`. -/
structure EncodedSample.Stored (sample : EncodedSample) : Prop where
  duration : 0 < sample.durationUs ∧ sample.durationUs < 2 ^ 63
  start : -2 ^ 63 ≤ sample.presentationTimestampUs
  stop : sample.presentationTimestampUs + sample.durationUs < 2 ^ 63

theorem EncodedSample.Stored.stop_eq {sample : EncodedSample} (h : sample.Stored) :
    sample.stop = sample.presentationTimestampUs + sample.durationUs := by
  have cast : asI64 sample.durationUs = sample.durationUs := if_pos h.duration.2
  have := h.start
  have := h.stop
  unfold EncodedSample.stop saturatingAddI64
  rw [cast]
  omega

/-- Whether `retain` keeps `old` when `new` comes in. -/
def keeps (old new : EncodedSample) : Bool := SourceBuffer.staysBeside new new.stop old

/-- `retain` lets a stored sample stay exactly if it is apart from the new one. -/
theorem keeps_iff {old new : EncodedSample} (hold : old.Stored) (hnew : new.Stored) :
    keeps old new ↔ Apart old new := by
  unfold keeps SourceBuffer.staysBeside Apart
  rw [hold.stop_eq, hnew.stop_eq]
  simp only [ne_eq, decide_not, Bool.or_eq_true, Bool.not_eq_eq_eq_not, Bool.not_true,
    decide_eq_false_iff_not, decide_eq_true_eq]
  tauto

/-- What `retain` keeps and what it drops are all the bytes. -/
theorem bytesOf_filter_add (samples : List EncodedSample) (keep : EncodedSample → Bool) :
    bytesOf (samples.filter keep) + bytesOf (samples.filter fun sample => !keep sample) =
      bytesOf samples := by
  induction samples with
  | nil => rfl
  | cons sample samples ih =>
    cases h : keep sample <;> simp [bytesOf, h] at ih ⊢ <;> omega

namespace SourceBuffer

variable {self : SourceBuffer}

/-! ## One sample -/

/-- Whether the budgets leave no room for a sample. -/
def refuses (self : SourceBuffer) (sample : EncodedSample) : Bool :=
  maxBytesPerBuffer < self.queuedBytes + sample.data.length ||
    maxSamplesPerBuffer ≤ self.samples.length

/-- The buffer with one more sample, which has replaced what it overlaps. -/
def accept (self : SourceBuffer) (sample : EncodedSample) : SourceBuffer :=
  { self with
    samples := Replace.push keeps self.samples sample
    queuedBytes := self.queuedBytes -
      bytesOf (self.samples.filter fun old => !keeps old sample) + sample.data.length }

/-- What the loop does with a parsed sample: it fails, skips it, or takes it as it is placed. -/
def verdict (self : SourceBuffer) (parsed : EncodedSample) : Option (Option EncodedSample) :=
  match self.place parsed with
  | .ok (sample, stop) =>
    if self.leavesWindow sample stop then some none
    else if self.refuses sample then none
    else some (some sample)
  | _ => none

theorem place_ok {parsed sample : EncodedSample} {stop : Int}
    (wellFormed : parsed.WellFormed) (h : self.place parsed = .ok (sample, stop)) :
    sample.Stored ∧ stop = sample.stop := by
  obtain ⟨dts, -, h⟩ := bind_eq_ok.mp h
  obtain ⟨pts, shown, h⟩ := bind_eq_ok.mp h
  obtain ⟨limit, ends, h⟩ := bind_eq_ok.mp h
  obtain ⟨low, same⟩ := Checked.signed_eq_some.mp (okOr_eq_ok.mp shown)
  obtain ⟨high, rfl⟩ := Checked.signed_eq_some.mp (okOr_eq_ok.mp ends)
  cases h
  have short := wellFormed.duration.2
  have fits : min (parsed.durationUs : Int) (2 ^ 63 - 1) = parsed.durationUs := by omega
  rw [fits] at high ⊢
  have stored : EncodedSample.Stored { parsed with
      decodeTimestampUs := dts, presentationTimestampUs := pts } :=
    ⟨wellFormed.duration, by simpa [same] using low.1, by simpa using high.2⟩
  exact ⟨stored, stored.stop_eq.symm⟩

theorem place_ends (parsed : EncodedSample) : (self.place parsed).Ends fun _ => True :=
  (ends_okOr (P := fun _ => True) fun _ _ => trivial).bind fun _ _ =>
    (ends_okOr (P := fun _ => True) fun _ _ => trivial).bind fun _ _ =>
      (ends_okOr (P := fun _ => True) fun _ _ => trivial).bind fun _ _ => ends_ok trivial

/-- What `verdict` says of a sample that is taken. -/
theorem verdict_taken {parsed sample : EncodedSample} (wellFormed : parsed.WellFormed)
    (h : self.verdict parsed = some (some sample)) :
    sample.Stored ∧ self.refuses sample = false := by
  unfold verdict at h
  split at h
  · rename_i placed stop found
    split at h
    · cases h
    · split at h
      · cases h
      · cases h
        exact ⟨(place_ok wellFormed found).1, Bool.eq_false_iff.mpr ‹_›⟩
  · cases h

/-- One turn of the loop, by what `verdict` says. -/
theorem appendSample_eq (report : AppendReport) {parsed : EncodedSample}
    (wellFormed : parsed.WellFormed) :
    match self.verdict parsed with
    | none => ∃ message, self.appendSample report parsed = (self, .err message)
    | some none => ∃ report', self.appendSample report parsed = (self, .ok report')
    | some (some sample) =>
      ∃ report', self.appendSample report parsed = (self.accept sample, .ok report') := by
  unfold verdict appendSample
  rcases @place_ends self parsed with ⟨⟨result, placed⟩ | ⟨message, placed⟩, -⟩
  · obtain ⟨sample, stop⟩ := result
    obtain ⟨stored, rfl⟩ := place_ok wellFormed placed
    simp only [placed]
    by_cases outside : self.leavesWindow sample sample.stop
    · simp [outside]
    rw [if_neg outside, if_neg outside]
    by_cases full : self.refuses sample
    · rw [if_pos full]
      simp only [refuses, Bool.or_eq_true, decide_eq_true_eq] at full
      cases counted : unsigned 64 (self.queuedBytes + sample.data.length) with
      | none => exact ⟨_, rfl⟩
      | some projected =>
        obtain ⟨-, rfl⟩ := Checked.unsigned_eq_some.mp counted
        exact ⟨_, if_pos full⟩
    · rw [if_neg full]
      simp only [refuses, Bool.or_eq_true, decide_eq_true_eq] at full
      -- a sum within the budget is far from the end of `usize`, so no update saturates
      have small : self.queuedBytes + sample.data.length < 2 ^ 63 := by
        have : maxBytesPerBuffer < 2 ^ 63 := by decide
        omega
      have counted := Checked.unsigned_eq_some.mpr
        ⟨Nat.lt_of_lt_of_le small (by decide : 2 ^ 63 ≤ 2 ^ 64), rfl⟩
      simp only [counted, if_neg full, accept, Replace.push]
      refine ⟨_, Prod.ext ?_ rfl⟩
      have exact : ∀ evicted, min (self.queuedBytes - evicted + sample.data.length) (2 ^ 64 - 1) =
          self.queuedBytes - evicted + sample.data.length := by omega
      simp only [exact]
      rfl
  · simp only [placed]
    exact ⟨message, rfl⟩

/-! ## A whole segment -/

/-- The samples of a segment that the loop takes before it ends or fails. -/
def taken (self : SourceBuffer) : List EncodedSample → List EncodedSample
  | [] => []
  | parsed :: rest =>
    match self.verdict parsed with
    | none => []
    | some none => taken self rest
    | some (some sample) => sample :: taken (self.accept sample) rest

variable {segment : List EncodedSample}

/-- The loop leaves the buffer that has accepted what was taken. -/
theorem appendSamples_fst (report : AppendReport)
    (wellFormed : ∀ parsed ∈ segment, parsed.WellFormed) :
    (self.appendSamples report segment).1 = (self.taken segment).foldl accept self := by
  induction segment generalizing self report with
  | nil => rfl
  | cons parsed rest ih =>
    obtain ⟨first, later⟩ := forall_mem_cons.mp wellFormed
    have turn := @appendSample_eq self report _ first
    unfold appendSamples taken
    rcases h : self.verdict parsed with _ | _ | sample
    · rw [h] at turn
      obtain ⟨message, turn⟩ := turn
      rw [turn]
      rfl
    · rw [h] at turn
      obtain ⟨report', turn⟩ := turn
      rw [turn]
      exact ih report' later
    · rw [h] at turn
      obtain ⟨report', turn⟩ := turn
      rw [turn]
      exact ih report' later

/-- No sample makes the loop panic. -/
theorem appendSamples_returns (report : AppendReport)
    (wellFormed : ∀ parsed ∈ segment, parsed.WellFormed) :
    (self.appendSamples report segment).2.Returns := by
  induction segment generalizing self report with
  | nil => exact ok_returns report
  | cons parsed rest ih =>
    obtain ⟨first, later⟩ := forall_mem_cons.mp wellFormed
    have turn := @appendSample_eq self report _ first
    unfold appendSamples
    rcases h : self.verdict parsed with _ | _ | sample
    · rw [h] at turn
      obtain ⟨message, turn⟩ := turn
      rw [turn]
      exact err_returns message
    · rw [h] at turn
      obtain ⟨report', turn⟩ := turn
      rw [turn]
      exact ih report' later
    · rw [h] at turn
      obtain ⟨report', turn⟩ := turn
      rw [turn]
      exact ih report' later

theorem samples_foldl_accept (news : List EncodedSample) :
    (news.foldl accept self).samples = Replace.pushAll keeps self.samples news := by
  induction news generalizing self with
  | nil => rfl
  | cons new news ih => exact ih

theorem foldl_accept_frame (news : List EncodedSample) :
    news.foldl accept self = { self with
      samples := (news.foldl accept self).samples
      queuedBytes := (news.foldl accept self).queuedBytes } := by
  induction news generalizing self with
  | nil => rfl
  | cons new news ih =>
    rw [foldl_cons]
    exact ih

theorem foldl_accept_congr (news : List EncodedSample) (updating : Bool)
    (events : List MediaSourceEvent) :
    news.foldl accept { self with updating, events } =
      { news.foldl accept self with updating, events } := by
  induction news generalizing self with
  | nil => rfl
  | cons new news ih => exact @ih (self.accept new)

/-- The samples lie in `i64` and those of a track do not overlap. No failure breaks this. -/
structure Placed (buffer : SourceBuffer) : Prop where
  apart : buffer.samples.Pairwise Apart
  stored : ∀ sample ∈ buffer.samples, sample.Stored

/-- What holds of the list while samples come in, before it is sorted again. -/
structure Consistent (buffer : SourceBuffer) : Prop extends Placed buffer where
  bytes : buffer.queuedBytes = bytesOf buffer.samples
  count : buffer.samples.length ≤ maxSamplesPerBuffer
  budget : buffer.queuedBytes ≤ maxBytesPerBuffer

/-- What holds of the buffer between two calls. -/
structure Sound (buffer : SourceBuffer) : Prop extends Consistent buffer where
  ordered : buffer.samples.Pairwise fun first second =>
    first.presentationTimestampUs ≤ second.presentationTimestampUs

theorem Placed.accept (h : self.Placed) {sample : EncodedSample} (stored : sample.Stored) :
    (self.accept sample).Placed := by
  refine ⟨?_, fun other among => ?_⟩
  · exact Replace.pairwise_push h.apart fun old among stays =>
      (keeps_iff (h.stored old among) stored).mp stays
  · rcases mem_append.mp among with old | new
    · exact h.stored other (mem_of_mem_filter old)
    · exact mem_singleton.mp new ▸ stored

theorem Placed.of_subperm {before after : SourceBuffer} (h : before.Placed)
    (part : after.samples.Subperm before.samples) : after.Placed := by
  obtain ⟨middle, perm, sublist⟩ := part
  refine ⟨?_, fun sample among => h.stored sample (sublist.subset (perm.mem_iff.mpr among))⟩
  exact (perm.pairwise_iff Apart.symm).mp (h.apart.sublist sublist)

theorem Consistent.accept (h : self.Consistent) {sample : EncodedSample} (stored : sample.Stored)
    (room : self.refuses sample = false) : (self.accept sample).Consistent := by
  simp only [refuses, Bool.or_eq_false_iff, decide_eq_false_iff_not] at room
  have split := bytesOf_filter_add self.samples (keeps · sample)
  have pushed : bytesOf (Replace.push keeps self.samples sample) =
      bytesOf (self.samples.filter (keeps · sample)) + sample.data.length := by
    simp [Replace.push, bytesOf]
  have bytes := h.bytes
  refine ⟨h.toPlaced.accept stored, ?_, ?_, ?_⟩
  · change _ - bytesOf _ + _ = bytesOf (Replace.push keeps self.samples sample)
    rw [pushed]
    omega
  · have := length_filter_le (keeps · sample) self.samples
    simp only [SourceBuffer.accept, Replace.push, length_append, length_singleton]
    omega
  · change _ - _ + _ ≤ _
    omega

theorem Placed.foldl_taken (h : self.Placed) (wellFormed : ∀ parsed ∈ segment, parsed.WellFormed) :
    ((self.taken segment).foldl SourceBuffer.accept self).Placed := by
  induction segment generalizing self with
  | nil => exact h
  | cons parsed rest ih =>
    obtain ⟨first, later⟩ := forall_mem_cons.mp wellFormed
    unfold taken
    rcases admitted : self.verdict parsed with _ | _ | sample
    · exact h
    · exact ih h later
    · exact ih (h.accept (verdict_taken first admitted).1) later

theorem Consistent.foldl_taken (h : self.Consistent)
    (wellFormed : ∀ parsed ∈ segment, parsed.WellFormed) :
    ((self.taken segment).foldl SourceBuffer.accept self).Consistent := by
  induction segment generalizing self with
  | nil => exact h
  | cons parsed rest ih =>
    obtain ⟨first, later⟩ := forall_mem_cons.mp wellFormed
    unfold taken
    rcases admitted : self.verdict parsed with _ | _ | sample
    · exact h
    · exact ih h later
    · obtain ⟨stored, room⟩ := verdict_taken first admitted
      exact ih (h.accept stored room) later

/-- The order of the list, which the sort makes of any list. -/
def Presented (first second : EncodedSample) : Prop := presentedBefore first second = true

instance : DecidableRel Presented := fun _ _ => inferInstanceAs (Decidable (_ = true))

theorem presented_iff {first second : EncodedSample} : Presented first second ↔
    first.presentationTimestampUs < second.presentationTimestampUs ∨
      first.presentationTimestampUs = second.presentationTimestampUs ∧
        first.trackId.toNat ≤ second.trackId.toNat := by
  simp [Presented, presentedBefore, UInt32.le_iff_toNat_le]

instance : Std.Total Presented where
  total first second := by
    simp only [presented_iff]
    omega

instance : IsTrans EncodedSample Presented where
  trans first second third := by
    simp only [presented_iff]
    omega

theorem sorted_perm : self.sorted.samples.Perm self.samples :=
  perm_insertionSort Presented self.samples

theorem Consistent.sorted (h : self.Consistent) : self.sorted.Sound := by
  have perm := @sorted_perm self
  have bytes : bytesOf self.sorted.samples = bytesOf self.samples :=
    List.Perm.sum_nat (perm.map fun sample => sample.data.length)
  refine { toPlaced := h.toPlaced.of_subperm perm.subperm, bytes := bytes ▸ h.bytes
           count := perm.length_eq.trans_le h.count, budget := h.budget, ordered := ?_ }
  refine (pairwise_insertionSort Presented _).imp fun before => ?_
  have := presented_iff.mp before
  omega

/-! ## One append -/

/-- The append gets as far as merging the samples of `segment`. -/
def Merges (self : SourceBuffer) (bytes : Bytes) (segment : List EncodedSample) : Prop :=
  self.mediaType.container = .isoBmff ∧ self.tracks ≠ [] ∧
    parseMediaSegment bytes self.tracks = .ok segment

theorem Merges.wellFormed {bytes : Bytes}
    (h : self.Merges bytes segment) : ∀ parsed ∈ segment, parsed.WellFormed :=
  ((parseMediaSegment_ends bytes self.tracks).2 segment h.2.2).2.1

/-- The three ways the inner append ends: it refuses the bytes, it takes the tracks of an
initialization segment, or it merges a media segment. -/
theorem appendBufferInner_cases (self : SourceBuffer) (bytes : Bytes) :
    ((∀ segment, ¬self.Merges bytes segment) ∧
      ∃ message, self.appendBufferInner bytes = (self, .err message)) ∨
    (∃ tracks report, self.tracks = [] ∧ tracks ≠ [] ∧
      self.appendBufferInner bytes = ({ self with tracks }, .ok report)) ∨
    ∃ segment, self.Merges bytes segment ∧
      ((∃ message, self.appendBufferInner bytes =
          ((self.taken segment).foldl accept self, .err message)) ∨
        ∃ report, self.appendBufferInner bytes =
          (((self.taken segment).foldl accept self).sorted, .ok report)) := by
  unfold appendBufferInner
  split
  · rename_i other
    exact .inl ⟨fun segment merges => other merges.1, _, rfl⟩
  rename_i container
  split
  · rename_i noTracks
    have nothing : ∀ segment, ¬self.Merges bytes segment := fun _ merges => merges.2.1 noTracks
    unfold appendInit
    rcases (parseInitSegment_ends bytes).1 with ⟨tracks, parsed⟩ | ⟨message, parsed⟩
    · simp only [parsed]
      split
      · exact .inl ⟨nothing, _, rfl⟩
      · have some := ((parseInitSegment_ends bytes).2 tracks parsed).2
        exact .inr (.inl ⟨tracks, _, noTracks, some, rfl⟩)
    · simp only [parsed]
      exact .inl ⟨nothing, message, rfl⟩
  · rename_i tracks
    unfold appendMedia
    rcases (parseMediaSegment_ends bytes self.tracks).1 with ⟨segment, parsed⟩ | ⟨message, parsed⟩
    · have merges : self.Merges bytes segment :=
        ⟨Decidable.not_not.mp container, tracks, parsed⟩
      have left := @appendSamples_fst self _ .default merges.wellFormed
      have returns := @appendSamples_returns self _ .default merges.wellFormed
      refine .inr (.inr ⟨segment, merges, ?_⟩)
      simp only [parsed]
      generalize self.appendSamples .default segment = loop at left returns
      obtain ⟨next, result⟩ := loop
      obtain rfl : next = _ := left
      rcases returns with ⟨report, rfl⟩ | ⟨message, rfl⟩
      · exact .inr ⟨_, rfl⟩
      · exact .inl ⟨message, rfl⟩
    · simp only [parsed]
      refine .inl ⟨fun segment merges => ?_, message, rfl⟩
      cases parsed.symm.trans merges.2.2

/-- Cutting the list back restores it: what the segment replaced is a tail of the list, and the
samples of the segment that are left begin with that same tail. Nothing being replaced is the
usual case, with an empty tail. -/
def Undoes (self : SourceBuffer) (bytes : Bytes) : Prop :=
  ∀ segment, self.updating = false → self.Merges bytes segment →
    ∃ kept, (∀ old ∈ self.samples.take kept, ∀ new ∈ self.taken segment, keeps old new) ∧
      (∀ old ∈ self.samples.drop kept, ∃ new ∈ self.taken segment, ¬keeps old new) ∧
      self.samples.drop kept <+: Replace.live keeps (self.taken segment)

/-- The parts of a buffer that a failed append must leave as they are. -/
def Same (before after : SourceBuffer) : Prop :=
  after.tracks = before.tracks ∧ after.samples = before.samples ∧
    after.queuedBytes = before.queuedBytes

/-- The buffer that the inner append works on. -/
def started (self : SourceBuffer) : SourceBuffer :=
  { self with updating := true, events := self.events ++ [MediaSourceEvent.updateStart] }

theorem taken_started (segment : List EncodedSample) (updating : Bool)
    (events : List MediaSourceEvent) :
    taken { self with updating, events } segment = self.taken segment := by
  induction segment generalizing self with
  | nil => rfl
  | cons parsed rest ih =>
    unfold taken
    have same : verdict { self with updating, events } parsed = self.verdict parsed := rfl
    rw [same]
    rcases self.verdict parsed with _ | _ | sample
    · rfl
    · exact ih
    · exact congrArg (sample :: ·) (@ih (self.accept sample))

theorem undoes_iff {bytes : Bytes}
    (idle : self.updating = false) (merges : self.Merges bytes segment) :
    (Replace.pushAll keeps self.samples (self.taken segment)).take self.samples.length =
      self.samples ↔ self.Undoes bytes := by
  rw [Replace.pushAll_eq, Replace.kept, Replace.take_filter_append_iff]
  simp only [all_eq_true, not_forall, exists_prop]
  refine ⟨fun restored other _ merges' => ?_, fun undoes => undoes segment idle merges⟩
  obtain rfl : segment = other := Outcome.ok.inj (merges.2.2.symm.trans merges'.2.2)
  exact restored

/-- What an append leaves, by how it ends. The undo of a failure has restored the byte count,
and the list of samples as far as cutting it back does. -/
theorem appendBuffer_cases (self : SourceBuffer) (bytes : Bytes) :
    (∃ message, (self.appendBuffer bytes).2 = .err message ∧
      (∀ segment, self.updating = false → ¬self.Merges bytes segment) ∧
      Same self (self.appendBuffer bytes).1) ∨
    (∃ report tracks, (self.appendBuffer bytes).2 = .ok report ∧ self.tracks = [] ∧ tracks ≠ [] ∧
      ∃ events, (self.appendBuffer bytes).1 = { self with updating := false, tracks, events }) ∨
    ∃ segment, self.updating = false ∧ self.Merges bytes segment ∧
      ((∃ message events, self.appendBuffer bytes =
          ({ self with
              updating := false
              samples := (Replace.pushAll keeps self.samples (self.taken segment)).take
                self.samples.length
              events },
            .err message)) ∨
        ∃ report events, self.appendBuffer bytes =
          ({ ((self.taken segment).foldl accept self).sorted with updating := false, events },
            .ok report)) := by
  unfold appendBuffer
  split
  · rename_i busy
    exact .inl ⟨_, rfl, fun _ idle => by simp [busy] at idle, rfl, rfl, rfl⟩
  rename_i busy
  have idle : self.updating = false := Bool.eq_false_iff.mpr busy
  rcases appendBufferInner_cases self.started bytes with
    ⟨nothing, message, inner⟩ | ⟨tracks, report, noTracks, some, inner⟩ | ⟨segment, merges, inner⟩
  · simp only [started] at inner
    simp only [inner]
    exact .inl ⟨message, rfl, fun segment _ => nothing segment, rfl, take_length, rfl⟩
  · simp only [started] at inner
    simp only [inner]
    exact .inr (.inl ⟨report, tracks, rfl, noTracks, some, _, rfl⟩)
  · refine .inr (.inr ⟨segment, idle, merges, ?_⟩)
    simp only [started, taken_started, foldl_accept_congr] at inner
    rcases inner with ⟨message, inner⟩ | ⟨report, inner⟩
    · refine .inl ⟨message, (self.events ++ [MediaSourceEvent.updateStart]).take
        self.events.length ++ [MediaSourceEvent.updateStart, .abort, .updateEnd], ?_⟩
      simp only [inner]
      rw [foldl_accept_frame, samples_foldl_accept]
    · refine .inr ⟨report, self.events ++ [MediaSourceEvent.updateStart] ++
        [MediaSourceEvent.update, .updateEnd], ?_⟩
      simp only [inner]
      rfl

theorem appendBuffer_returns (self : SourceBuffer) (bytes : Bytes) :
    (self.appendBuffer bytes).2.Returns := by
  rcases appendBuffer_cases self bytes with
    ⟨message, failed, -⟩ | ⟨report, tracks, done, -⟩ | ⟨segment, -, -, ends⟩
  · exact failed ▸ err_returns message
  · exact done ▸ ok_returns report
  · rcases ends with ⟨message, events, ends⟩ | ⟨report, events, ends⟩
    · exact ends ▸ err_returns message
    · exact ends ▸ ok_returns report

/-- A failed append leaves the tracks, the samples and the byte count as they were exactly when
cutting the list back undoes what was merged. -/
theorem same_iff_undoes {bytes : Bytes} {message : String}
    (failed : (self.appendBuffer bytes).2 = .err message) :
    Same self (self.appendBuffer bytes).1 ↔ self.Undoes bytes := by
  rcases appendBuffer_cases self bytes with
    ⟨-, -, nothing, same⟩ | ⟨report, tracks, done, -⟩ | ⟨segment, idle, merges, ends⟩
  · exact ⟨fun _ segment idle merges => absurd merges (nothing segment idle), fun _ => same⟩
  · rw [done] at failed
    cases failed
  · rcases ends with ⟨message, events, ends⟩ | ⟨report, events, ends⟩
    · rw [ends, ← undoes_iff idle merges]
      exact ⟨fun same => same.2.1, fun restored => ⟨rfl, restored, rfl⟩⟩
    · rw [ends] at failed
      cases failed

theorem Sound.of_same {before after : SourceBuffer} (h : before.Sound)
    (same : after.samples = before.samples ∧ after.queuedBytes = before.queuedBytes) :
    after.Sound := by
  obtain ⟨samples, queued⟩ := same
  have bytes := h.bytes
  have budget := h.budget
  rw [← queued, ← samples] at bytes
  rw [← queued] at budget
  exact { bytes, budget, apart := samples ▸ h.apart, stored := samples ▸ h.stored,
          count := samples ▸ h.count, ordered := samples ▸ h.ordered }

theorem Sound.appendBuffer (h : self.Sound) {bytes : Bytes}
    (undone : ∀ message, (self.appendBuffer bytes).2 = .err message → self.Undoes bytes) :
    (self.appendBuffer bytes).1.Sound := by
  rcases appendBuffer_cases self bytes with
    ⟨message, failed, -, same⟩ | ⟨report, tracks, -, -, -, events, left⟩ |
      ⟨segment, -, merges, ⟨message, events, ends⟩ | ⟨report, events, ends⟩⟩
  · exact h.of_same same.2
  · rw [left]
    exact h.of_same ⟨rfl, rfl⟩
  · have failed : (self.appendBuffer bytes).2 = .err message := by rw [ends]
    exact h.of_same ((same_iff_undoes failed).mpr (undone message failed)).2
  · rw [ends]
    exact (h.toConsistent.foldl_taken merges.wellFormed).sorted.of_same ⟨rfl, rfl⟩

/-! ## Removing -/

theorem Sound.retain (h : self.Sound) (keep : EncodedSample → Bool) :
    ∃ next removed, self.retain keep = .ok (next, removed) ∧ next.Sound := by
  have split := bytesOf_filter_add self.samples keep
  have bytes := h.bytes
  have subtracts := Checked.sub_eq
    (show bytesOf (self.samples.filter fun sample => !keep sample) ≤ self.queuedBytes by omega)
  refine ⟨_, _, by simp only [SourceBuffer.retain, subtracts, ok_bind]; rfl, ?_⟩
  have count := h.count
  have budget := h.budget
  have shorter := length_filter_le keep self.samples
  exact {
    bytes := by dsimp only; omega
    apart := h.apart.filter _
    stored := fun sample among => h.stored sample (mem_of_mem_filter among)
    count := by dsimp only; omega
    budget := by dsimp only; omega
    ordered := h.ordered.filter _ }

end SourceBuffer

end GhitaBrowser.Media

/-!
## Runs of calls on a source buffer

Every call on a sound buffer ends, and all but one kind leave it sound. The exception
is an append that fails after a sample of the segment has replaced a stored one:
`run_underflows` shows a run in which the byte count, the order of the list and the
subtraction of `remove` go wrong after it.
-/

namespace GhitaBrowser.Media

open Outcome

/-! ## Segments of the source's tests -/

namespace Fixture

/-- `to_be_bytes` of a `u32`. -/
def be32 (value : Nat) : Bytes :=
  [value / 2 ^ 24, value / 2 ^ 16, value / 2 ^ 8, value].map fun part => part.toUInt8

def boxed (kind payload : Bytes) : Bytes := be32 (payload.length + 8) ++ kind ++ payload

def fullBox (version : UInt8) (flags : Nat) (body : Bytes) : Bytes :=
  version :: (be32 flags).drop 1 ++ body

/-- An initialization segment with one video track of codec `avc1` and timescale 1000. -/
def init : Bytes :=
  let tkhd := boxed (fourcc 't' 'k' 'h' 'd') (fullBox 0 0 (be32 0 ++ be32 0 ++ be32 1 ++ be32 0))
  let mdhd := boxed (fourcc 'm' 'd' 'h' 'd')
    (fullBox 0 0 (be32 0 ++ be32 0 ++ be32 1000 ++ be32 0))
  let hdlr := boxed (fourcc 'h' 'd' 'l' 'r') (fullBox 0 0 (be32 0 ++ fourcc 'v' 'i' 'd' 'e'))
  let entry := boxed (fourcc 'a' 'v' 'c' '1') (be32 0 ++ be32 0)
  let stsd := boxed (fourcc 's' 't' 's' 'd') (fullBox 0 0 (be32 1 ++ entry))
  let minf := boxed (fourcc 'm' 'i' 'n' 'f') (boxed (fourcc 's' 't' 'b' 'l') stsd)
  let mdia := boxed (fourcc 'm' 'd' 'i' 'a') (mdhd ++ hdlr ++ minf)
  boxed (fourcc 'f' 't' 'y' 'p') (fourcc 'i' 's' 'o' 'm') ++
    boxed (fourcc 'm' 'o' 'o' 'v') (boxed (fourcc 't' 'r' 'a' 'k') (tkhd ++ mdia))

/-- A track fragment whose samples have a duration of 40 ms each. -/
def traf (baseTime : Nat) (payloads : List Bytes) : Bytes :=
  let tfhd := boxed (fourcc 't' 'f' 'h' 'd') (fullBox 0 0x000008 (be32 1 ++ be32 40))
  let tfdt := boxed (fourcc 't' 'f' 'd' 't')
    (fullBox 1 0 (be32 (baseTime / 2 ^ 32) ++ be32 (baseTime % 2 ^ 32)))
  let table := payloads.flatMap fun payload => be32 payload.length
  let trun := boxed (fourcc 't' 'r' 'u' 'n')
    (fullBox 0 0x000200 (be32 payloads.length ++ table))
  boxed (fourcc 't' 'r' 'a' 'f') (tfhd ++ tfdt ++ trun)

/-- A media segment with a track fragment for each start time. -/
def media (fragments : List (Nat × List Bytes)) : Bytes :=
  boxed (fourcc 'm' 'o' 'o' 'f') (fragments.flatMap fun (base, payloads) => traf base payloads) ++
    boxed (fourcc 'm' 'd' 'a' 't') (fragments.flatMap fun (_, payloads) => payloads.flatten)

def videoType : ParsedMediaType := ⟨"video/mp4", .isoBmff, [.avc]⟩

/-- Two samples of one byte, at 0 and at 40 ms. -/
def stored : Bytes := media [(0, [[1], [2]])]

/-- A sample of five bytes at 0, and one so late that its end overflows. -/
def failing : Bytes := media [(0, [[3, 3, 3, 3, 3]]), (9223372036854775, [[4]])]

end Fixture

namespace SourceBuffer

variable {self : SourceBuffer}

/-! ## Runs -/

/-- The calls that change a buffer. -/
inductive Call where
  | append (bytes : Bytes)
  | remove (range : TimeRange)
  | evictBefore (timestampUs : Int)
  | setTimestampOffset (offsetUs : Int)
  | setAppendWindow (range : TimeRange)
  | abort
  | drainEvents

/-- The buffer a call leaves, where an `Err` without a change leaves the one it had. -/
def settle (self : SourceBuffer) : Outcome SourceBuffer → Outcome SourceBuffer
  | .err _ => .ok self
  | result => result

def Call.apply (self : SourceBuffer) : Call → Outcome SourceBuffer
  | .append bytes =>
    match self.appendBuffer bytes with
    | (_, .panic) => .panic
    | (_, .timeout) => .timeout
    | (next, _) => .ok next
  | .remove range => settle self do return (← self.remove range).1
  | .evictBefore timestampUs => settle self do return (← self.evictBefore timestampUs).1
  | .setTimestampOffset offsetUs => settle self (self.setTimestampOffset offsetUs)
  | .setAppendWindow range => settle self (self.setAppendWindow range)
  | .abort => .ok self.abort
  | .drainEvents => .ok self.drained

/-- A call is undone when it is not a failed append whose cut leaves another list. -/
def Call.Undone (self : SourceBuffer) : Call → Prop
  | .append bytes => ∀ message, (self.appendBuffer bytes).2 = .err message → self.Undoes bytes
  | _ => True

theorem Sound.call (h : self.Sound) (call : Call) :
    ∃ next, call.apply self = .ok next ∧ (call.Undone self → next.Sound) := by
  cases call with
  | append bytes =>
    have kept := @Sound.appendBuffer self h bytes
    have returns := appendBuffer_returns self bytes
    simp only [Call.apply, Call.Undone]
    generalize self.appendBuffer bytes = result at kept returns
    obtain ⟨next, result⟩ := result
    rcases returns with ⟨report, rfl⟩ | ⟨message, rfl⟩
    · exact ⟨next, rfl, kept⟩
    · exact ⟨next, rfl, kept⟩
  | remove range =>
    simp only [Call.apply, SourceBuffer.remove]
    split
    · exact ⟨self, rfl, fun _ => h⟩
    · obtain ⟨next, removed, result, sound⟩ := h.retain fun sample =>
        sample.stop ≤ range.startUs || range.endUs ≤ sample.presentationTimestampUs
      exact ⟨next, by rw [result]; rfl, fun _ => sound⟩
  | evictBefore timestampUs =>
    obtain ⟨next, removed, result, sound⟩ := h.retain fun sample => timestampUs < sample.stop
    exact ⟨next, by simp only [Call.apply, evictBefore, result]; rfl, fun _ => sound⟩
  | setTimestampOffset offsetUs =>
    simp only [Call.apply, SourceBuffer.setTimestampOffset]
    split
    · exact ⟨self, rfl, fun _ => h⟩
    · exact ⟨_, rfl, fun _ => h.of_same ⟨rfl, rfl⟩⟩
  | setAppendWindow range =>
    simp only [Call.apply, SourceBuffer.setAppendWindow]
    split
    · exact ⟨self, rfl, fun _ => h⟩
    · exact ⟨_, rfl, fun _ => h.of_same ⟨rfl, rfl⟩⟩
  | abort => exact ⟨_, rfl, fun _ => h.of_same ⟨rfl, rfl⟩⟩
  | drainEvents => exact ⟨_, rfl, fun _ => h.of_same ⟨rfl, rfl⟩⟩

theorem new_sound (id : Nat) (mediaType : ParsedMediaType) : (new id mediaType).Sound where
  bytes := rfl
  apart := .nil
  stored := nofun
  count := Nat.zero_le _
  budget := Nat.zero_le _
  ordered := .nil

/-- One call that is undone if it fails. -/
def Orderly (before after : SourceBuffer) : Prop :=
  ∃ call : Call, call.Undone before ∧ call.apply before = .ok after

/-- In a run whose failed appends are all undone, every buffer is sound, and no call on it
panics. -/
theorem run_sound {id : Nat} {mediaType : ParsedMediaType} {buffer : SourceBuffer}
    (run : Relation.ReflTransGen Orderly (new id mediaType) buffer) :
    buffer.Sound ∧ ∀ call : Call, (call.apply buffer).Succeeds := by
  have sound : buffer.Sound := by
    induction run with
    | refl => exact new_sound id mediaType
    | tail _ step ih =>
      obtain ⟨call, undone, left⟩ := step
      obtain ⟨next, result, kept⟩ := ih.call call
      exact Outcome.ok.inj (result.symm.trans left) ▸ kept undone
  refine ⟨sound, fun call => ?_⟩
  obtain ⟨next, result, -⟩ := sound.call call
  exact ⟨next, result⟩

section Tests

open Fixture

/-- The buffer after the first two segments. -/
def filled : SourceBuffer :=
  (((new 1 videoType).appendBuffer init).1.appendBuffer stored).1

/-- A refused segment that is not MP4 at all changes nothing, so the run goes on soundly. -/
theorem run_sound_filled : (filled.appendBuffer [0]).1.Sound := by
  have first : Orderly (new 1 videoType) ((new 1 videoType).appendBuffer init).1 := by
    refine ⟨.append init, fun message failed => ?_, by decide +kernel⟩
    have done : ((new 1 videoType).appendBuffer init).2 =
        .ok { AppendReport.default with initializationSegment := true } := by decide +kernel
    cases done.symm.trans failed
  have second : Orderly ((new 1 videoType).appendBuffer init).1 filled := by
    refine ⟨.append stored, fun message failed => ?_, by decide +kernel⟩
    have done : (((new 1 videoType).appendBuffer init).1.appendBuffer stored).2 =
        .ok { AppendReport.default with appendedSamples := 2, buffered := [⟨0, 80000⟩] } := by decide +kernel
    cases done.symm.trans failed
  have third : Orderly filled (filled.appendBuffer [0]).1 := by
    refine ⟨.append [0], fun message _ segment _ merges => ?_, by decide +kernel⟩
    have refused : parseMediaSegment [0] filled.tracks = .err "Truncated ISO-BMFF box header" := by
      decide +kernel
    cases refused.symm.trans merges.2.2
  exact (run_sound (((Relation.ReflTransGen.refl.tail first).tail second).tail third)).1

/-- The failed append has replaced the first stored sample. What the cut leaves is out of order
and has six bytes where two are counted, and removing them underflows. -/
theorem run_underflows :
    (filled.appendBuffer failing).2 = .err "SourceBuffer sample end timestamp overflow" ∧
      Call.apply filled (.append failing) = .ok (filled.appendBuffer failing).1 ∧
      (filled.appendBuffer failing).1.queuedBytes = 2 ∧
      bytesOf (filled.appendBuffer failing).1.samples = 6 ∧
      (filled.appendBuffer failing).1.samples.map (·.presentationTimestampUs) = [40000, 0] ∧
      Call.apply (filled.appendBuffer failing).1 (.remove ⟨0, 100000⟩) = .panic := by
  decide +kernel

end Tests

end SourceBuffer

end GhitaBrowser.Media
