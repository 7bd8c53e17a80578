import GhitaBrowser.Realtime.EventStream

/-!
# Cutting a buffer into blocks

The worker cuts its buffer at the first blank line in either spelling. More text behind a buffer
does not move its cuts, so the blocks do not depend on the chunks.
-/

namespace GhitaBrowser.Realtime

open List
open GhitaBrowser.Str

/-! ## Cuts -/

/-- A block, the blank line that ends it and what follows. -/
structure Cut where
  payload : Text
  blank : Text
  rest : Text
deriving DecidableEq

/-- The first blank line in either spelling. -/
def nextCut : Text → Option Cut
  | [] => none
  | c :: rest =>
    if startsWith blankCrlf (c :: rest) then
      some { payload := [], blank := blankCrlf, rest := (c :: rest).drop 4 }
    else if startsWith blankLf (c :: rest) then
      some { payload := [], blank := blankLf, rest := (c :: rest).drop 2 }
    else (nextCut rest).map fun cut => { cut with payload := c :: cut.payload }

variable {text : Text}

theorem startsWith_iff {pattern : Text} :
    startsWith pattern text = true ↔ ∃ rest, text = pattern ++ rest := by
  rw [startsWith, isPrefixOf_iff_prefix]
  exact ⟨fun ⟨rest, h⟩ => ⟨rest, h.symm⟩, fun ⟨rest, h⟩ => ⟨rest, h.symm⟩⟩

variable {cut : Cut}

theorem nextCut_eq (h : nextCut text = some cut) :
    text = cut.payload ++ cut.blank ++ cut.rest ∧ (cut.blank = blankLf ∨ cut.blank = blankCrlf) := by
  induction text generalizing cut with
  | nil => cases h
  | cons c rest ih =>
    unfold nextCut at h
    split at h
    · next hstarts =>
      cases h
      obtain ⟨more, hmore⟩ := startsWith_iff.1 hstarts
      exact ⟨by rw [hmore]; rfl, .inr rfl⟩
    split at h
    · next hstarts =>
      cases h
      obtain ⟨more, hmore⟩ := startsWith_iff.1 hstarts
      exact ⟨by rw [hmore]; rfl, .inl rfl⟩
    obtain ⟨cut, hcut, rfl⟩ := Option.map_eq_some_iff.1 h
    obtain ⟨heq, hblank⟩ := ih hcut
    exact ⟨congrArg (c :: ·) heq, hblank⟩

theorem nextCut_first (h : nextCut text = some cut) {before after : Text}
    (hpayload : cut.payload = before ++ after) (hafter : after ≠ []) :
    startsWith blankLf (after ++ cut.blank ++ cut.rest) = false ∧
      startsWith blankCrlf (after ++ cut.blank ++ cut.rest) = false := by
  induction text generalizing cut before with
  | nil => cases h
  | cons c rest ih =>
    have hwhole := (nextCut_eq h).1
    unfold nextCut at h
    split at h
    · cases h
      exact absurd (append_eq_nil_iff.1 hpayload.symm).2 hafter
    split at h
    · cases h
      exact absurd (append_eq_nil_iff.1 hpayload.symm).2 hafter
    obtain ⟨cut, hcut, rfl⟩ := Option.map_eq_some_iff.1 h
    cases before with
    | nil =>
      rw [nil_append] at hpayload
      dsimp only at hpayload hwhole ⊢
      rw [← hpayload, ← hwhole]
      exact ⟨Bool.eq_false_iff.2 ‹_›, Bool.eq_false_iff.2 ‹_›⟩
    | cons d before =>
      have hfirst := ih hcut (List.cons.inj hpayload).2
      exact hfirst

theorem nextCut_length (h : nextCut text = some cut) :
    cut.rest.length < text.length := by
  obtain ⟨heq, hblank⟩ := nextCut_eq h
  rw [heq, length_append, length_append]
  obtain hblank | hblank := hblank <;> rw [hblank] <;> simp only [blankLf, blankCrlf,
    length_cons, length_nil] <;> omega

theorem startsWith_append {pattern : Text} (h : pattern.length ≤ text.length) (more : Text) :
    startsWith pattern (text ++ more) = startsWith pattern text := by
  rw [Bool.eq_iff_iff, startsWith, startsWith, isPrefixOf_iff_prefix, isPrefixOf_iff_prefix]
  exact ⟨fun hprefix => prefix_of_prefix_length_le hprefix (prefix_append _ _) h,
    fun hprefix => hprefix.trans (prefix_append _ _)⟩

theorem front_append {c : Char} {rest : Text} (h : nextCut rest = some cut) (more : Text) :
    startsWith blankCrlf (c :: rest ++ more) = startsWith blankCrlf (c :: rest) ∧
      startsWith blankLf (c :: rest ++ more) = startsWith blankLf (c :: rest) := by
  obtain ⟨heq, hblank⟩ := nextCut_eq h
  have hlength : 2 ≤ rest.length := by
    rw [heq, length_append, length_append]
    obtain hblank | hblank := hblank <;> simp only [hblank, blankLf, blankCrlf, length_cons] <;>
      omega
  have hshort : blankLf.length ≤ (c :: rest).length := Nat.le_succ_of_le hlength
  refine ⟨?_, startsWith_append hshort more⟩
  by_cases hlong : 3 ≤ rest.length
  · have hcrlf : blankCrlf.length ≤ (c :: rest).length := Nat.succ_le_succ hlong
    exact startsWith_append hcrlf more
  -- two characters with a blank line in them are that blank line
  · have hrest : rest = blankLf := by
      obtain hblank | hblank := hblank
      · rw [heq, length_append, length_append, hblank] at hlong
        have hempty : cut.payload.length = 0 ∧ cut.rest.length = 0 := by
          simp only [blankLf, length_cons, length_nil] at hlong
          omega
        rw [heq, hblank, length_eq_zero_iff.1 hempty.1, length_eq_zero_iff.1 hempty.2]
        rfl
      · rw [heq, length_append, length_append, hblank] at hlong
        simp only [blankCrlf, length_cons] at hlong
        omega
    simp [hrest, startsWith, blankCrlf, blankLf, isPrefixOf]

theorem nextCut_append (h : nextCut text = some cut) (more : Text) :
    nextCut (text ++ more) = some { cut with rest := cut.rest ++ more } := by
  induction text generalizing cut with
  | nil => cases h
  | cons c rest ih =>
    have hwhole := (nextCut_eq h).1
    rw [cons_append, nextCut]
    unfold nextCut at h
    split at h
    · next hstarts =>
      cases h
      obtain ⟨rest', hrest⟩ := startsWith_iff.1 hstarts
      rw [← cons_append, hrest, append_assoc,
        if_pos (startsWith_iff.2 ⟨rest' ++ more, rfl⟩)]
      rfl
    split at h
    · next hcrlf hstarts =>
      cases h
      obtain ⟨rest', hrest⟩ := startsWith_iff.1 hstarts
      rw [← cons_append, hrest, append_assoc,
        if_neg (by simp [startsWith, blankLf, blankCrlf]),
        if_pos (startsWith_iff.2 ⟨rest' ++ more, rfl⟩)]
      rfl
    · next hcrlf hlf =>
      obtain ⟨cut, hcut, rfl⟩ := Option.map_eq_some_iff.1 h
      obtain ⟨hcrlf', hlf'⟩ := front_append (c := c) hcut more
      rw [← cons_append, hcrlf', if_neg hcrlf, hlf', if_neg hlf, ih hcut]
      rfl

def cuts (text : Text) : List Cut :=
  match _h : nextCut text with
  | none => []
  | some cut => cut :: cuts cut.rest
termination_by text.length
decreasing_by exact nextCut_length ‹_›

/-- What is left behind the last cut. -/
def backlog (text : Text) : Text :=
  match _h : nextCut text with
  | none => text
  | some cut => backlog cut.rest
termination_by text.length
decreasing_by exact nextCut_length ‹_›

theorem cuts_none (h : nextCut text = none) : cuts text = [] := by
  rw [cuts]; split
  · rfl
  · next hcut => rw [h] at hcut; cases hcut

theorem cuts_some (h : nextCut text = some cut) :
    cuts text = cut :: cuts cut.rest := by
  rw [cuts]; split
  · next hcut => rw [h] at hcut; cases hcut
  · next hcut => rw [h] at hcut; cases hcut; rfl

def payloads (text : Text) : List Text := (cuts text).map (·.payload)

theorem payloads_none (h : nextCut text = none) : payloads text = [] := by
  rw [payloads, cuts_none h, map_nil]

theorem payloads_some (h : nextCut text = some cut) :
    payloads text = cut.payload :: payloads cut.rest := by
  rw [payloads, cuts_some h, map_cons, payloads]

theorem backlog_none (h : nextCut text = none) : backlog text = text := by
  rw [backlog]; split
  · rfl
  · next hcut => rw [h] at hcut; cases hcut

theorem backlog_some (h : nextCut text = some cut) :
    backlog text = backlog cut.rest := by
  rw [backlog]; split
  · next hcut => rw [h] at hcut; cases hcut
  · next hcut => rw [h] at hcut; cases hcut; rfl

theorem earlier_zero (right : Option Nat) : earlier (some 0) right = some 0 := by
  cases right <;> simp [earlier]

theorem earlier_zero_right (left : Option Nat) : earlier left (some 0) = some 0 := by
  cases left <;> simp [earlier]

theorem earlier_succ (left right : Option Nat) :
    earlier (left.map (· + 1)) (right.map (· + 1)) = (earlier left right).map (· + 1) := by
  cases left <;> cases right <;> simp [earlier]

theorem sseEventBoundary_eq (text : Text) :
    sseEventBoundary text = (nextCut text).map (·.payload.length) := by
  induction text with
  | nil => rfl
  | cons c rest ih =>
    unfold sseEventBoundary at ih ⊢
    rw [nextCut, findText, findText]
    by_cases hcrlf : startsWith blankCrlf (c :: rest) = true
    · rw [if_pos hcrlf, if_pos hcrlf, earlier_zero_right]
      rfl
    by_cases hlf : startsWith blankLf (c :: rest) = true
    · rw [if_pos hlf, if_neg hcrlf, if_neg hcrlf, if_pos hlf, earlier_zero]
      rfl
    · rw [if_neg hlf, if_neg hcrlf, if_neg hcrlf, if_neg hlf, earlier_succ, ih, Option.map_map,
        Option.map_map]
      rfl

/-- What the loop takes for the separator behind a block. -/
theorem consumed_eq (h : nextCut text = some cut) :
    text.take cut.payload.length = cut.payload ∧
      text.drop (if startsWith blankCrlf (text.drop cut.payload.length) then cut.payload.length + 4
        else cut.payload.length + 2) = cut.rest := by
  obtain ⟨heq, hblank⟩ := nextCut_eq h
  rw [append_assoc] at heq
  have hdrop : text.drop cut.payload.length = cut.blank ++ cut.rest := by
    rw [heq, drop_left]
  refine ⟨by rw [heq, take_left], ?_⟩
  rw [hdrop]
  obtain hblank | hblank := hblank
  · rw [if_neg (by simp [hblank, startsWith, blankLf, blankCrlf]), ← drop_drop, hdrop, hblank]
    rfl
  · rw [if_pos (startsWith_iff.2 ⟨cut.rest, by rw [hblank]⟩), ← drop_drop, hdrop, hblank]
    rfl

/-- The events of one more block. -/
def readPayload (parsed : Parsed) (payload : Text) : Parsed :=
  let (events, lastId) := parseSseEvents payload parsed.2
  (parsed.1 ++ events, lastId)

namespace EventStream

def parsed (stream : EventStream) : Parsed := (stream.events, stream.lastId)

variable (stream : EventStream)

theorem dispatchEvents_spec (events : List EventSourceTransportEvent) :
    (events.foldl sseDispatch stream).parsed = (stream.events ++ events, stream.lastId) ∧
      (events.foldl sseDispatch stream).finished = stream.finished := by
  induction events generalizing stream with
  | nil => simp [parsed]
  | cons event events ih =>
    rw [foldl_cons]
    obtain ⟨hparsed, hfinished⟩ := ih (stream.sseDispatch event)
    have hevents : (stream.sseDispatch event).events = stream.events ++ [event] := by
      cases event <;> rfl
    have hlast : (stream.sseDispatch event).lastId = stream.lastId := by cases event <;> rfl
    have hover : (stream.sseDispatch event).finished = stream.finished := by cases event <;> rfl
    rw [hparsed, hfinished, hevents, hlast, hover, append_assoc]
    exact ⟨rfl, rfl⟩

theorem dispatchBlock_spec (payload : Text) :
    (stream.dispatchBlock payload).parsed = readPayload stream.parsed payload ∧
      (stream.dispatchBlock payload).finished = stream.finished :=
  dispatchEvents_spec _ _

/-- The loop dispatches the blocks that the buffer is cut into. -/
theorem drain_spec :
    stream.drain.parsed =
        (payloads stream.pending).foldl readPayload stream.parsed ∧
      stream.drain.pending = backlog stream.pending ∧
      stream.drain.finished = stream.finished := by
  fun_induction drain stream with
  | case1 stream hboundary =>
    rw [sseEventBoundary_eq, Option.map_eq_none_iff] at hboundary
    rw [payloads_none hboundary, backlog_none hboundary]
    exact ⟨rfl, rfl, rfl⟩
  | case2 stream boundary hboundary payload consumed ih =>
    rw [sseEventBoundary_eq] at hboundary
    obtain ⟨cut, hcut, rfl⟩ := Option.map_eq_some_iff.1 hboundary
    obtain ⟨hpayload, hrest⟩ := consumed_eq hcut
    obtain ⟨hparsed, hfinished⟩ := dispatchBlock_spec
      { stream with pending := stream.pending.drop consumed } payload
    obtain ⟨ihparsed, ihpending, ihfinished⟩ := ih
    rw [dispatchBlock_pending] at ihparsed ihpending
    rw [ihparsed, ihpending, ihfinished, hparsed, hfinished, payloads_some hcut, backlog_some hcut]
    simp only [consumed, payload, dite_eq_ite, hrest, hpayload]
    exact ⟨rfl, trivial, trivial⟩

end EventStream

theorem cuts_append (text more : Text) :
    cuts (text ++ more) =
        (cuts text).map (fun cut => { cut with rest := cut.rest ++ more }) ++
          cuts (backlog text ++ more) ∧
      backlog (text ++ more) = backlog (backlog text ++ more) := by
  fun_induction backlog text with
  | case1 text hcut =>
    rw [cuts_none hcut, map_nil, nil_append]
    exact ⟨rfl, rfl⟩
  | case2 text cut hcut ih =>
    have hcut' := nextCut_append hcut more
    rw [cuts_some hcut, cuts_some hcut', backlog_some hcut', map_cons, cons_append]
    exact ⟨congrArg _ ih.1, ih.2⟩

theorem payloads_append (text more : Text) :
    payloads (text ++ more) = payloads text ++ payloads (backlog text ++ more) := by
  rw [payloads, (cuts_append text more).1, map_append, map_map]
  rfl

end GhitaBrowser.Realtime
