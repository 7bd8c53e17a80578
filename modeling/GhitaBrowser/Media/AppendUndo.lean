import GhitaBrowser.Media.SourceBufferLaw

/-!
# When a failed append has changed nothing

A media source appends to one of its buffers and takes the append back when the sum
over all buffers is too large. It does so by cutting the list back to its old length,
but the append has sorted the list by then, and the tracks of an initialization segment
are not taken back at all. `failed_append_iff` gives the exact conditions under which
both undos, this one and that of the buffer itself, restore what was there.
-/

namespace GhitaBrowser.Media

open Outcome List

namespace SourceBuffer

variable {self : SourceBuffer}

/-! ## Samples stay apart -/

theorem Placed.appendBuffer (h : self.Placed) (bytes : Bytes) :
    (self.appendBuffer bytes).1.Placed := by
  rcases appendBuffer_cases self bytes with
    ⟨message, failed, -, same⟩ | ⟨report, tracks, -, -, -, events, left⟩ |
      ⟨segment, -, merges, ⟨message, events, ends⟩ | ⟨report, events, ends⟩⟩
  · exact h.of_subperm (same.2.1 ▸ .refl _)
  · rw [left]
    exact h.of_subperm (.refl _)
  · rw [ends]
    refine (h.foldl_taken merges.wellFormed).of_subperm ?_
    rw [samples_foldl_accept]
    exact (take_sublist _ _).subperm
  · rw [ends]
    exact (h.foldl_taken merges.wellFormed).of_subperm sorted_perm.subperm

variable {next : SourceBuffer}

theorem Placed.retain (h : self.Placed) {keep : EncodedSample → Bool}
    {removed : Nat} (result : self.retain keep = .ok (next, removed)) : next.Placed := by
  obtain ⟨queued, -, left⟩ := bind_eq_ok.mp result
  cases left
  exact h.of_subperm (filter_sublist (l := self.samples)).subperm

theorem of_settle {P : SourceBuffer → Prop} (h : P self) {result : Outcome SourceBuffer}
    (each : ∀ next, result = .ok next → P next)
    (left : self.settle result = .ok next) : P next := by
  cases result with
  | ok value => exact each next left
  | err message =>
    cases left
    exact h
  | panic => cases left
  | timeout => cases left

theorem Placed.remove (h : self.Placed) {range : TimeRange} {removed : Nat}
    (result : self.remove range = .ok (next, removed)) : next.Placed := by
  unfold SourceBuffer.remove at result
  split at result
  · cases result
  · exact h.retain result

theorem Placed.call (h : self.Placed) {call : Call}
    (left : call.apply self = .ok next) : next.Placed := by
  cases call with
  | append bytes =>
    have placed := h.appendBuffer bytes
    simp only [Call.apply] at left
    split at left
    · cases left
    · cases left
    · rename_i equal
      cases left
      rw [equal] at placed
      exact placed
  | remove range =>
    refine of_settle (P := Placed) h (fun next result => ?_) left
    obtain ⟨⟨after, removed⟩, done, result⟩ := bind_eq_ok.mp result
    cases result
    exact h.remove done
  | evictBefore timestampUs =>
    refine of_settle (P := Placed) h (fun next result => ?_) left
    obtain ⟨⟨after, removed⟩, done, result⟩ := bind_eq_ok.mp result
    cases result
    exact h.retain done
  | setTimestampOffset offsetUs =>
    refine of_settle (P := Placed) h (fun next result => ?_) left
    unfold SourceBuffer.setTimestampOffset at result
    split at result
    · cases result
    · cases result
      exact ⟨h.apart, h.stored⟩
  | setAppendWindow range =>
    refine of_settle (P := Placed) h (fun next result => ?_) left
    unfold SourceBuffer.setAppendWindow at result
    split at result
    · cases result
    · cases result
      exact ⟨h.apart, h.stored⟩
  | abort =>
    cases left
    exact ⟨h.apart, h.stored⟩
  | drainEvents =>
    cases left
    exact ⟨h.apart, h.stored⟩

/-! ## The cut behind the sort -/

theorem Placed.antisymm (h : self.Placed) {first second : EncodedSample}
    (here : first ∈ self.samples) (there : second ∈ self.samples) (before : Presented first second)
    (after : Presented second first) : first = second := by
  by_contra different
  have : Std.Symm Apart := ⟨fun _ _ => Apart.symm⟩
  have apart := h.apart.forall here there different
  have longFirst := (h.stored first here).duration.1
  have longSecond := (h.stored second there).duration.1
  have before := presented_iff.mp before
  have after := presented_iff.mp after
  have track : first.trackId = second.trackId := UInt32.toNat_inj.mp (by omega)
  have := apart track
  omega

/-- Cutting the sorted list back restores the old one exactly when the merged list is a
rearrangement of the old one and of further samples that come behind it. -/
theorem take_sorted_iff (h : self.Placed) (old : List EncodedSample) :
    self.sorted.samples.take old.length = old ↔
      ∃ added, self.samples.Perm (old ++ added) ∧ (old ++ added).Pairwise Presented := by
  constructor
  · intro restored
    have split : old ++ self.sorted.samples.drop old.length = self.sorted.samples := by
      conv => lhs; lhs; rw [← restored]
      exact take_append_drop _ _
    refine ⟨self.sorted.samples.drop old.length, ?_, ?_⟩
    · rw [split]
      exact sorted_perm.symm
    · rw [split]
      exact pairwise_insertionSort Presented _
  · rintro ⟨added, perm, ordered⟩
    have same : self.sorted.samples = old ++ added := by
      refine @List.Perm.eq_of_pairwise _ Presented _ _ ?_
        (pairwise_insertionSort Presented _) ordered (sorted_perm.trans perm)
      intro first second here there before after
      exact h.antisymm (sorted_perm.mem_iff.mp here) (perm.mem_iff.mpr there) before after
    rw [same, take_left]

/-- The segment puts back unchanged what it replaces, and what it adds besides comes behind all
that was stored, in a list that is in order. -/
def Extends (self : SourceBuffer) (bytes : Bytes) : Prop :=
  ∀ segment, self.updating = false → self.Merges bytes segment →
    ∃ added, (Replace.kept keeps self.samples (self.taken segment) ++
        Replace.live keeps (self.taken segment)).Perm (self.samples ++ added) ∧
      (self.samples ++ added).Pairwise Presented

/-- The undo of a media source restores the buffer exactly when it was not the initialization
segment that went in, and the media segment extends what was stored. -/
theorem same_cutBack_iff (h : self.Placed) {bytes : Bytes} {report : AppendReport}
    (done : (self.appendBuffer bytes).2 = .ok report) :
    Same self (MediaSource.cutBack self (self.appendBuffer bytes).1) ↔
      self.tracks ≠ [] ∧ self.Extends bytes := by
  rcases appendBuffer_cases self bytes with
    ⟨message, failed, -⟩ | ⟨report, tracks, -, noTracks, some, events, left⟩ |
      ⟨segment, idle, merges, ⟨message, events, ends⟩ | ⟨report, events, ends⟩⟩
  · cases failed.symm.trans done
  · rw [left]
    refine ⟨fun same => absurd (same.1.trans noTracks) some, fun known => absurd noTracks known.1⟩
  · rw [ends] at done
    cases done
  · have placed := h.foldl_taken merges.wellFormed
    have tracks : ((self.taken segment).foldl accept self).tracks = self.tracks := by
      rw [foldl_accept_frame]
    have cut := take_sorted_iff placed self.samples
    rw [samples_foldl_accept, Replace.pushAll_eq] at cut
    rw [ends]
    constructor
    · refine fun same => ⟨merges.2.1, fun other _ merges' => ?_⟩
      obtain rfl : segment = other := Outcome.ok.inj (merges.2.2.symm.trans merges'.2.2)
      exact cut.mp same.2.1
    · exact fun known => ⟨tracks, cut.mpr (known.2 segment idle merges), rfl⟩

end SourceBuffer

namespace MediaSource

variable {self : MediaSource}

/-! ## Media sources -/

/-- The calls that change a media source, those on one of its buffers included. -/
inductive Call where
  | openSource
  | setDuration (durationUs : Int)
  | addSourceBuffer (mediaType : Outcome ParsedMediaType) (supports : MediaCodec → Bool)
  | appendBuffer (id : Nat) (bytes : Bytes)
  | onBuffer (id : Nat) (call : SourceBuffer.Call)
  | endOfStream
  | close
  | drainEvents

def Call.apply (self : MediaSource) : Call → Outcome MediaSource
  | .openSource => self.openSource
  | .setDuration durationUs => self.setDuration durationUs
  | .addSourceBuffer mediaType supports => do
    return (← self.addSourceBuffer mediaType supports).1
  | .appendBuffer id bytes => .ok (self.appendBuffer id bytes).1
  | .onBuffer id call => self.updateBuffer id call.apply
  | .endOfStream => self.endOfStream
  | .close => .ok self.close
  | .drainEvents => .ok { self with events := [] }

/-- The media sources that calls can lead to. -/
def Reachable (source : MediaSource) : Prop :=
  Relation.ReflTransGen (fun before after => ∃ call : Call, call.apply before = .ok after) new source

/-- No buffer of the source has samples that overlap. -/
def Placed (self : MediaSource) : Prop := ∀ buffer ∈ self.sourceBuffers, buffer.Placed

theorem Placed.set (h : self.Placed) (index : Nat) {buffer : SourceBuffer}
    (placed : buffer.Placed) :
    Placed { self with sourceBuffers := self.sourceBuffers.set index buffer } := by
  intro other among
  rcases mem_or_eq_of_mem_set among with old | rfl
  · exact h other old
  · exact placed

theorem Placed.appendBuffer (h : self.Placed) (id : Nat) (bytes : Bytes) :
    (self.appendBuffer id bytes).1.Placed := by
  unfold MediaSource.appendBuffer
  split
  · exact h
  split
  · exact h
  split
  · exact h
  · rename_i before found
    have placed := (h before (mem_of_getElem? found)).appendBuffer bytes
    split
    · rename_i after report equal
      rw [equal] at placed
      dsimp only
      split
      · refine h.set _ (placed.of_subperm ?_)
        exact (take_sublist _ _).subperm
      · exact h.set _ placed
    · rename_i equal
      rw [equal] at placed
      exact h.set _ placed

/-- The loop of `set_duration`. -/
theorem placed_of_mapM {range : TimeRange} {buffers next : List SourceBuffer}
    (h : ∀ buffer ∈ buffers, buffer.Placed)
    (removed : buffers.mapM (fun buffer => do return (← buffer.remove range).1) = .ok next) :
    ∀ buffer ∈ next, buffer.Placed := by
  induction buffers generalizing next with
  | nil =>
    cases removed
    exact nofun
  | cons buffer buffers ih =>
    obtain ⟨here, later⟩ := forall_mem_cons.mp h
    rw [mapM_cons] at removed
    obtain ⟨first, removedHere, removed⟩ := bind_eq_ok.mp removed
    obtain ⟨⟨after, count⟩, done, same⟩ := bind_eq_ok.mp removedHere
    obtain ⟨rest, restDone, removed⟩ := bind_eq_ok.mp removed
    cases same
    cases removed
    exact forall_mem_cons.mpr ⟨here.remove done, ih later restDone⟩

theorem Placed.call (h : self.Placed) {call : Call} {next : MediaSource}
    (left : call.apply self = .ok next) : next.Placed := by
  cases call with
  | openSource =>
    simp only [Call.apply, MediaSource.openSource] at left
    split at left
    · cases left
    · cases left
      exact h
  | setDuration durationUs =>
    obtain ⟨-, -, left⟩ := bind_eq_ok.mp left
    split at left
    · cases left
    obtain ⟨buffers, removed, left⟩ := bind_eq_ok.mp left
    cases left
    exact placed_of_mapM h removed
  | addSourceBuffer mediaType supports =>
    obtain ⟨⟨source, id⟩, added, left⟩ := bind_eq_ok.mp left
    cases left
    obtain ⟨-, -, added⟩ := bind_eq_ok.mp added
    split at added
    · cases added
    obtain ⟨mediaType, -, added⟩ := bind_eq_ok.mp added
    split at added
    · cases added
    cases added
    intro buffer among
    rcases mem_append.mp among with old | here
    · exact h buffer old
    · exact mem_singleton.mp here ▸ (SourceBuffer.new_sound _ _).toPlaced
  | appendBuffer id bytes =>
    cases left
    exact h.appendBuffer id bytes
  | onBuffer id call =>
    simp only [Call.apply, updateBuffer] at left
    split at left
    · cases left
      exact h
    split at left
    · cases left
    · rename_i buffer found
      obtain ⟨next, changed, left⟩ := bind_eq_ok.mp left
      cases left
      exact h.set _ ((h buffer (mem_of_getElem? found)).call changed)
  | endOfStream =>
    obtain ⟨-, -, left⟩ := bind_eq_ok.mp left
    split at left
    · cases left
    split at left
    · cases left
    · cases left
      exact h
  | close =>
    cases left
    exact nofun
  | drainEvents =>
    cases left
    exact h

theorem Reachable.placed {source : MediaSource} (h : source.Reachable) : source.Placed := by
  induction h with
  | refl => exact nofun
  | tail _ step ih =>
    obtain ⟨call, left⟩ := step
    exact ih.call left

/-! ## Failed appends -/

/-- The undo of a failed append to the buffer `id` restores everything: where the buffer itself
has refused the bytes by its own undo, and where the sum over all buffers was too large by that
of the source. -/
def Undoes (self : MediaSource) (id : Nat) (bytes : Bytes) : Prop :=
  ∀ buffer, self.readyState = .open →
    self.sourceBuffers.find? (fun buffer => buffer.id = id) = some buffer →
      (∀ message, (buffer.appendBuffer bytes).2 = .err message → buffer.Undoes bytes) ∧
        ∀ report, (buffer.appendBuffer bytes).2 = .ok report →
          buffer.tracks ≠ [] ∧ buffer.Extends bytes

/-- Every buffer has the tracks, the samples and the byte count it had. -/
def Same (before after : MediaSource) : Prop :=
  List.Forall₂ SourceBuffer.Same before.sourceBuffers after.sourceBuffers

theorem forall₂_set_iff {α : Type} {R : α → α → Prop} (refl : ∀ value, R value value)
    {values : List α} {index : Nat} {old new : α} (found : values[index]? = some old) :
    List.Forall₂ R values (values.set index new) ↔ R old new := by
  induction values generalizing index with
  | nil => cases found
  | cons value values ih =>
    cases index with
    | zero =>
      cases found
      simpa using fun _ value _ => refl value
    | succ index => simp [refl, ih found]

theorem Same.rfl : Same self self :=
  forall₂_same.mpr fun _ _ => ⟨Eq.refl _, Eq.refl _, Eq.refl _⟩

theorem same_iff_undoes (h : self.Placed) {id : Nat} {bytes : Bytes} {message : String}
    (failed : (self.appendBuffer id bytes).2 = .err message) :
    Same self (self.appendBuffer id bytes).1 ↔ self.Undoes id bytes := by
  unfold MediaSource.appendBuffer at failed ⊢
  split at failed
  · rename_i closed
    rw [if_pos closed]
    exact ⟨fun _ _ isOpen => absurd isOpen closed, fun _ => Same.rfl⟩
  rename_i notClosed
  have isOpen : self.readyState = .open := Decidable.not_not.mp notClosed
  rw [if_neg notClosed]
  have located := @List.find?_eq_bind_findIdx?_getElem? _ self.sourceBuffers
    fun buffer => buffer.id = id
  rcases position : self.sourceBuffers.findIdx? (fun buffer => buffer.id = id) with _ | index
  · rw [position] at located
    rw [position]
    refine ⟨fun _ buffer _ found => ?_, fun _ => Same.rfl⟩
    cases located.symm.trans found
  rw [position] at located failed ⊢
  dsimp only at failed ⊢
  rcases found : self.sourceBuffers[index]? with _ | before
  · rw [found] at failed
    cases failed
  rw [found] at failed
  replace located := located.trans found
  -- the conditions speak of the one buffer that was found
  have here : self.Undoes id bytes ↔
      (∀ message, (before.appendBuffer bytes).2 = .err message → before.Undoes bytes) ∧
        ∀ report, (before.appendBuffer bytes).2 = .ok report →
          before.tracks ≠ [] ∧ before.Extends bytes := by
    refine ⟨fun undoes => undoes before isOpen located, fun known buffer _ other => ?_⟩
    exact Option.some.inj (located.symm.trans other) ▸ known
  have placed := h before (mem_of_getElem? found)
  rw [here]
  rcases result : before.appendBuffer bytes with ⟨after, outcome⟩
  dsimp only at failed ⊢
  rw [result] at failed ⊢
  have refl : ∀ buffer : SourceBuffer, SourceBuffer.Same buffer buffer := fun _ => ⟨rfl, rfl, rfl⟩
  cases outcome with
  | ok report =>
    have done : (before.appendBuffer bytes).2 = .ok report := by rw [result]
    have cut := SourceBuffer.same_cutBack_iff placed done
    rw [result] at cut
    dsimp only at failed ⊢
    split at failed
    · rename_i exceeds
      rw [if_pos exceeds]
      refine (forall₂_set_iff refl found).trans (cut.trans ?_)
      exact ⟨fun known => ⟨nofun, fun _ _ => known⟩, fun known => known.2 report rfl⟩
    · cases failed
  | err inner =>
    have stopped : (before.appendBuffer bytes).2 = .err inner := by rw [result]
    have undone := SourceBuffer.same_iff_undoes stopped
    rw [result] at undone
    refine (forall₂_set_iff refl found).trans (undone.trans ?_)
    exact ⟨fun known => ⟨fun _ _ => known, nofun⟩, fun known => known.1 inner rfl⟩
  | panic => cases failed
  | timeout => cases failed

end MediaSource

/-- A failed append leaves the tracks, the samples and the byte count of a buffer, and of all
buffers of a media source, as they were exactly when its undo restores them. -/
theorem failed_append_iff (buffer : SourceBuffer) (bytes : Bytes) {source : MediaSource}
    (reachable : source.Reachable) (id : Nat) :
    (∀ message, (buffer.appendBuffer bytes).2 = .err message →
      (SourceBuffer.Same buffer (buffer.appendBuffer bytes).1 ↔ buffer.Undoes bytes)) ∧
    ∀ message, (source.appendBuffer id bytes).2 = .err message →
      (MediaSource.Same source (source.appendBuffer id bytes).1 ↔ source.Undoes id bytes) :=
  ⟨fun _ => SourceBuffer.same_iff_undoes, fun _ => MediaSource.same_iff_undoes reachable.placed⟩

open Fixture

/-- An open source whose only buffer has the number 1. -/
def MediaSource.opened : MediaSource :=
  { MediaSource.new with
    readyState := .open, events := [.sourceOpen], nextBufferId := 2
    sourceBuffers := [.new 1 videoType] }

/-- The source after the two segments of `SourceBuffer.filled`. -/
def MediaSource.filled : MediaSource :=
  ((MediaSource.opened.appendBuffer 1 init).1.appendBuffer 1 stored).1

/-- The failing segment is not undone on the buffer of the source, and a segment that is not MP4 at
all is. -/
theorem failed_append_iff_opened :
    ¬SourceBuffer.filled.Undoes failing ∧ ¬MediaSource.filled.Undoes 1 failing ∧
      MediaSource.filled.Undoes 1 [0] := by
  have reachable : MediaSource.filled.Reachable :=
    (((Relation.ReflTransGen.refl.tail ⟨.openSource, rfl⟩).tail
      ⟨.addSourceBuffer (.ok videoType) fun _ => true, by decide⟩).tail
      ⟨.appendBuffer 1 init, rfl⟩).tail ⟨.appendBuffer 1 stored, rfl⟩
  obtain ⟨onBuffer, onSource⟩ := failed_append_iff SourceBuffer.filled failing reachable 1
  obtain ⟨-, onOther⟩ := failed_append_iff SourceBuffer.filled [0] reachable 1
  refine ⟨fun undoes => ?_, fun undoes => ?_, (onOther "Truncated ISO-BMFF box header"
    (by decide +kernel)).mp (by unfold MediaSource.Same SourceBuffer.Same; decide +kernel)⟩
  · have same :=
      (onBuffer "SourceBuffer sample end timestamp overflow" (by decide +kernel)).mpr undoes
    exact absurd same.2.1 (by decide +kernel)
  · have same :=
      (onSource "SourceBuffer sample end timestamp overflow" (by decide +kernel)).mpr undoes
    exact absurd same (by unfold MediaSource.Same SourceBuffer.Same; decide +kernel)

/-- The segment has replaced the first of two samples before it failed, and the cut keeps the
second one and the replacement. -/
theorem failed_append_replaces :
    (SourceBuffer.filled.appendBuffer failing).2 =
        .err "SourceBuffer sample end timestamp overflow" ∧
      SourceBuffer.filled.samples.map (·.data) = [[1], [2]] ∧
      (SourceBuffer.filled.appendBuffer failing).1.samples.map (·.data) = [[2], [3, 3, 3, 3, 3]] := by
  decide +kernel

end GhitaBrowser.Media
