import GhitaBrowser.Realtime.EventCuts
import Mathlib.Data.List.TakeWhile

/-!
# Chunks and whole streams

Reading the blocks of a stream one by one gives what `parse_sse_events` gives for the whole text,
unless a bare blank line is cut off behind a carriage return.
-/

namespace GhitaBrowser.Realtime

open List
open GhitaBrowser.Str

variable {stream : EventStream}

/-! ## Blocks of a text -/

theorem replaceCrlf_cons (c d : Char) (rest : Text) :
    replaceCrlf (c :: d :: rest) =
      if c = '\r' ∧ d = '\n' then replaceCrlf (d :: rest) else c :: replaceCrlf (d :: rest) := by
  rw [replaceCrlf]
  simp

theorem replaceCrlf_append {left right : Text}
    (h : left.getLast? = some '\r' → right.head? ≠ some '\n') :
    replaceCrlf (left ++ right) = replaceCrlf left ++ replaceCrlf right := by
  induction left with
  | nil => rfl
  | cons c rest ih =>
    cases rest with
    | nil =>
      rw [singleton_append, replaceCrlf, replaceCrlf]
      by_cases hc : c = '\r'
      · have hright := h (by rw [hc]; rfl)
        simp [hc, hright, replaceCrlf]
      · simp [hc, replaceCrlf]
    | cons d rest =>
      have ih := ih (fun hlast => h (by rw [getLast?_cons_cons, hlast]))
      rw [cons_append, cons_append, replaceCrlf_cons, replaceCrlf_cons,
        ← cons_append, ih]
      split <;> rfl

@[simp] theorem replaceCrlf_getLast? (text : Text) :
    (replaceCrlf text).getLast? = text.getLast? := by
  induction text with
  | nil => rfl
  | cons c rest ih =>
    cases rest with
    | nil => simp [replaceCrlf]
    | cons d rest =>
      rw [replaceCrlf_cons, getLast?_cons_cons]
      split
      · exact ih
      · rw [getLast?_cons, ih, getLast?_cons]
        rfl

/-- Put events in front of those of a block. -/
def BlockState.behind (before : List EventSourceTransportEvent) (state : BlockState) : BlockState :=
  { state with events := before ++ state.events }

theorem setField_behind (before : List EventSourceTransportEvent) (state : BlockState)
    (field value : Text) :
    setField (state.behind before) field value = (setField state field value).behind before := by
  unfold setField
  split
  · rfl
  split
  · rfl
  split
  · rfl
  split
  · split
    · exact congrArg (BlockState.mk · _ _ _) (append_assoc _ _ _)
    · rfl
  · rfl

theorem readLines_behind (before : List EventSourceTransportEvent) (state : BlockState)
    (block : List Text) :
    block.foldl readLine (state.behind before) = (block.foldl readLine state).behind before := by
  induction block generalizing state with
  | nil => rfl
  | cons line block ih =>
    rw [foldl_cons, foldl_cons, ← ih]
    congr 1
    unfold readLine
    split
    · rfl
    · exact setField_behind _ _ _ _

theorem readBlock_behind (events : List EventSourceTransportEvent) (parsed : Parsed) (block : Text) :
    readBlock (events ++ parsed.1, parsed.2) block =
      (events ++ (readBlock parsed block).1, (readBlock parsed block).2) := by
  have hlines := readLines_behind events
    { events := parsed.1, eventType := "message".toList, data := [], eventId := parsed.2 }
    (lines block)
  unfold BlockState.behind at hlines
  unfold readBlock
  rw [hlines]
  dsimp only
  split
  · rfl
  · rw [append_assoc]

theorem readBlocks_behind (events : List EventSourceTransportEvent) (parsed : Parsed)
    (blocks : List Text) :
    blocks.foldl readBlock (events ++ parsed.1, parsed.2) =
      (events ++ (blocks.foldl readBlock parsed).1, (blocks.foldl readBlock parsed).2) := by
  induction blocks generalizing parsed with
  | nil => rfl
  | cons block blocks ih => rw [foldl_cons, readBlock_behind, ih, foldl_cons]

theorem foldl_readBlock (lastId : Text) (parsed : Parsed) (blocks : List Text) :
    blocks.foldl readBlock (parsed.1, lastId) =
      (parsed.1 ++ (blocks.foldl readBlock ([], lastId)).1,
        (blocks.foldl readBlock ([], lastId)).2) := by
  have hblocks := readBlocks_behind parsed.1 ([], lastId) blocks
  rwa [append_nil] at hblocks

/-! ## Blank lines between blocks -/

/-- The blocks of a text without carriage returns before newlines. -/
def blocksOf : Text → List Text
  | [] => [[]]
  | [c] => [[c]]
  | c :: d :: rest =>
    if c = '\n' ∧ d = '\n' then [] :: blocksOf rest
    else (blocksOf (d :: rest)).modifyHead (c :: ·)

theorem blocksOf_ne_nil (text : Text) : blocksOf text ≠ [] := by
  fun_induction blocksOf text with
  | case1 => simp
  | case2 c => simp
  | case3 c d rest h ih => simp
  | case4 c d rest h ih => simpa using ih

theorem blocksOf_cons (c : Char) (rest : Text) : blocksOf (c :: rest) ≠ [[]] := by
  cases rest with
  | nil => simp [blocksOf]
  | cons d rest =>
    rw [blocksOf]
    split
    · simp [blocksOf_ne_nil]
    · cases blocksOf (d :: rest) <;> simp

theorem startsWith_blankLf (c d : Char) (rest : Text) :
    startsWith blankLf (c :: d :: rest) = true ↔ c = '\n' ∧ d = '\n' := by
  rw [startsWith_iff]
  constructor
  · rintro ⟨more, h⟩
    cases h
    exact ⟨rfl, rfl⟩
  · rintro ⟨rfl, rfl⟩
    exact ⟨rest, rfl⟩

theorem splitFrom_eq (part text : Text) :
    splitFrom blankLf 0 part text = (blocksOf text).modifyHead (part ++ ·) := by
  fun_induction blocksOf text generalizing part with
  | case1 => simp [splitFrom]
  | case2 c => simp [splitFrom, startsWith, blankLf, isPrefixOf]
  | case3 c d rest h ih =>
    obtain ⟨rfl, rfl⟩ := h
    rw [splitFrom, if_pos ((startsWith_blankLf _ _ _).2 ⟨rfl, rfl⟩)]
    have hrest := ih []
    simp only [nil_append] at hrest
    exact congrArg₂ List.cons (append_nil part).symm (hrest.trans (by cases blocksOf rest <;> rfl))
  | case4 c d rest h ih =>
    rw [splitFrom, if_neg (fun hstarts => h ((startsWith_blankLf _ _ _).1 hstarts)), ih]
    cases blocksOf (d :: rest) <;> simp

theorem split_eq (text : Text) : split blankLf text = blocksOf text := by
  rw [split, splitFrom_eq]
  cases blocksOf text <;> rfl

theorem blocksOf_blank {text : Text} (h : text.getLast? ≠ some '\n') (more : Text) :
    blocksOf (text ++ blankLf ++ more) = blocksOf text ++ blocksOf more := by
  fun_induction blocksOf text with
  | case1 => rfl
  | case2 c =>
    have hc : c ≠ '\n' := fun hc => h (by rw [hc]; rfl)
    simp [blankLf, blocksOf, hc]
  | case3 c d rest hblank ih =>
    obtain ⟨rfl, rfl⟩ := hblank
    have hrest : rest.getLast? ≠ some '\n' := by
      cases rest with
      | nil => simp
      | cons e rest => rwa [getLast?_cons_cons, getLast?_cons_cons] at h
    exact congrArg ([] :: ·) (ih hrest)
  | case4 c d rest hblank ih =>
    rw [getLast?_cons_cons] at h
    have hrest := ih h
    rw [cons_append, cons_append] at hrest
    rw [cons_append, cons_append, cons_append, cons_append, blocksOf,
      if_neg hblank, hrest]
    cases hblocks : blocksOf (d :: rest) with
    | nil => exact absurd hblocks (blocksOf_ne_nil _)
    | cons block blocks => rfl

theorem blocksOf_newline {text : Text} (h : text.getLast? ≠ some '\n') :
    ∃ blocks last, blocksOf text = blocks ++ [last] ∧
      blocksOf (text ++ ['\n']) = blocks ++ [last ++ ['\n']] ∧
      (last = [] ∨ last.getLast? = text.getLast?) := by
  fun_induction blocksOf text with
  | case1 => exact ⟨[], [], rfl, rfl, .inl rfl⟩
  | case2 c =>
    have hc : c ≠ '\n' := fun hc => h (by rw [hc]; rfl)
    exact ⟨[], [c], rfl, by simp [blocksOf, hc], .inr rfl⟩
  | case3 c d rest hblank ih =>
    obtain ⟨rfl, rfl⟩ := hblank
    cases rest with
    | nil => exact absurd rfl h
    | cons e rest =>
      rw [getLast?_cons_cons, getLast?_cons_cons] at h
      obtain ⟨blocks, last, hblocks, hmore, hlast⟩ := ih h
      refine ⟨[] :: blocks, last, by rw [hblocks]; rfl, ?_, ?_⟩
      · exact congrArg ([] :: ·) hmore
      · rwa [getLast?_cons_cons, getLast?_cons_cons]
  | case4 c d rest hblank ih =>
    rw [getLast?_cons_cons] at h
    obtain ⟨blocks, last, hblocks, hmore, hlast⟩ := ih h
    rw [cons_append] at hmore
    rw [cons_append, cons_append, blocksOf, if_neg hblank, hmore, hblocks,
      getLast?_cons_cons]
    cases blocks with
    | nil =>
      refine ⟨[], c :: last, rfl, rfl, .inr ?_⟩
      obtain rfl | hlast := hlast
      · exact absurd hblocks (blocksOf_cons _ _)
      · rw [getLast?_cons, hlast, getLast?_cons]
        rfl
    | cons block blocks => exact ⟨(c :: block) :: blocks, last, rfl, rfl, hlast⟩

/-! ## Lines of a block -/

theorem linesFrom_newline {line text : Text} (hline : line ++ text ≠ [])
    (hlf : text.getLast? ≠ some '\n') (hcr : (line ++ text).getLast? ≠ some '\r') :
    linesFrom line (text ++ ['\n']) = linesFrom line text := by
  induction text generalizing line with
  | nil =>
    rw [append_nil] at hline hcr
    have hstrip : stripEnd ['\r'] line = none := by
      rw [stripEnd, if_neg]
      intro hends
      obtain ⟨before, rfl⟩ := isSuffixOf_iff_suffix.1 hends
      exact hcr (by simp)
    simp [linesFrom, hstrip, hline]
  | cons c rest ih =>
    rw [cons_append, linesFrom, linesFrom]
    have hrest : rest.getLast? ≠ some '\n' := by
      cases rest with
      | nil => simp
      | cons d rest => rwa [getLast?_cons_cons] at hlf
    split
    · next hc =>
      cases rest with
      | nil => exact absurd (by rw [eq_of_beq hc]; rfl) hlf
      | cons d rest =>
        have hcr' : ([] ++ d :: rest).getLast? ≠ some '\r' := by
          rwa [getLast?_append, getLast?_cons_cons, getLast?_cons,
            Option.some_or, ← getLast?_cons] at hcr
        rw [ih (cons_ne_nil _ _) hrest hcr']
    · have hline' : line ++ [c] ++ rest = line ++ c :: rest := by simp
      exact ih (hline' ▸ hline) hrest (hline' ▸ hcr)

theorem readBlock_newline {block : Text} (parsed : Parsed)
    (h : block = [] ∨ block.getLast? ≠ some '\n' ∧ block.getLast? ≠ some '\r') :
    readBlock parsed (block ++ ['\n']) = readBlock parsed block := by
  by_cases hempty : block = []
  · rw [hempty]
    rfl
  · obtain ⟨hlf, hcr⟩ := h.resolve_left hempty
    have hlines : lines (block ++ ['\n']) = lines block :=
      @linesFrom_newline [] _ hempty hlf hcr
    rw [readBlock, hlines, readBlock]

theorem readBlock_nil (parsed : Parsed) : readBlock parsed [] = parsed := rfl

theorem readBlocks_leading (parsed : Parsed) (text : Text) :
    (blocksOf ('\n' :: text)).foldl readBlock parsed = (blocksOf text).foldl readBlock parsed := by
  induction text with
  | nil => rfl
  | cons c rest ih =>
    rw [blocksOf]
    split
    · next hblank =>
      obtain ⟨-, rfl⟩ := hblank
      rw [foldl_cons, readBlock_nil, ih]
    · cases hblocks : blocksOf (c :: rest) with
      | nil => rfl
      | cons block blocks => rfl

theorem readBlocks_newline {text : Text} (parsed : Parsed) (hlf : text.getLast? ≠ some '\n')
    (hcr : text.getLast? ≠ some '\r') :
    (blocksOf (text ++ ['\n'])).foldl readBlock parsed = (blocksOf text).foldl readBlock parsed := by
  obtain ⟨blocks, last, hblocks, hmore, hlast⟩ := blocksOf_newline hlf
  rw [hblocks, hmore, foldl_append, foldl_append]
  exact readBlock_newline _ (hlast.imp_right fun hlast => by rw [hlast]; exact ⟨hlf, hcr⟩)

theorem readBlocks_blank {text : Text} (parsed : Parsed) (more : Text)
    (h : text.getLast? ≠ some '\n' ∨ ∃ before, text = before ++ ['\n'] ∧
      before.getLast? ≠ some '\n' ∧ before.getLast? ≠ some '\r') :
    (blocksOf (text ++ blankLf ++ more)).foldl readBlock parsed =
      (blocksOf more).foldl readBlock ((blocksOf text).foldl readBlock parsed) := by
  obtain h | ⟨before, rfl, hlf, hcr⟩ := h
  · rw [blocksOf_blank h, foldl_append]
  · have hshift : before ++ ['\n'] ++ blankLf ++ more = before ++ blankLf ++ ('\n' :: more) := by
      simp [blankLf]
    rw [hshift, blocksOf_blank hlf, foldl_append, readBlocks_leading,
      readBlocks_newline _ hlf hcr]

/-! ## Blocks that are read one by one -/

/-- A bare blank line right behind a carriage return. -/
def Cut.behindCr (cut : Cut) : Prop :=
  cut.blank = blankLf ∧ cut.payload.getLast? = some '\r'

theorem parseSseEvents_eq (text lastId : Text) :
    parseSseEvents text lastId = (blocksOf (replaceCrlf text)).foldl readBlock ([], lastId) := by
  rw [parseSseEvents, split_eq]

theorem readPayload_eq (parsed : Parsed) (text : Text) :
    readPayload parsed text = (blocksOf (replaceCrlf text)).foldl readBlock parsed := by
  rw [readPayload, parseSseEvents_eq]
  exact (foldl_readBlock parsed.2 parsed _).symm

theorem payload_end {text : Text} {cut : Cut} (h : nextCut text = some cut) {before : Text}
    (hpayload : cut.payload = before ++ ['\n']) :
    cut.blank = blankCrlf ∧ before.getLast? ≠ some '\n' ∧ before.getLast? ≠ some '\r' := by
  have hblank : cut.blank = blankCrlf := by
    refine (nextCut_eq h).2.resolve_left fun hblank => ?_
    have hfirst := (nextCut_first h hpayload (cons_ne_nil _ _)).1
    rw [hblank] at hfirst
    cases hfirst
  have hafter {c : Char} (hlast : before.getLast? = some c) :
      startsWith blankLf ([c, '\n'] ++ blankCrlf ++ cut.rest) = false ∧
        startsWith blankCrlf ([c, '\n'] ++ blankCrlf ++ cut.rest) = false := by
    obtain ⟨before, rfl⟩ := getLast?_eq_some_iff.1 hlast
    rw [append_assoc] at hpayload
    have hfirst := nextCut_first h hpayload (cons_ne_nil _ _)
    rwa [hblank] at hfirst
  refine ⟨hblank, fun hlast => ?_, fun hlast => ?_⟩
  · exact Bool.noConfusion (hafter hlast).1
  · exact Bool.noConfusion (hafter hlast).2

theorem readPayload_cut {text : Text} {cut : Cut} (h : nextCut text = some cut)
    (hclean : ¬cut.behindCr) (parsed : Parsed) :
    readPayload parsed text = readPayload (readPayload parsed cut.payload) cut.rest := by
  obtain ⟨heq, hblank⟩ := nextCut_eq h
  have hreplaced : replaceCrlf text =
      replaceCrlf cut.payload ++ blankLf ++ replaceCrlf cut.rest := by
    obtain hblank | hblank := hblank
    · have hsplit := @replaceCrlf_append cut.payload (blankLf ++ cut.rest)
        fun hlast => absurd ⟨hblank, hlast⟩ hclean
      rw [heq, hblank, append_assoc, hsplit, append_assoc]
      simp [blankLf, replaceCrlf]
    · have hsplit := @replaceCrlf_append cut.payload (blankCrlf ++ cut.rest)
        fun _ => by simp [blankCrlf]
      rw [heq, hblank, append_assoc, hsplit, append_assoc]
      simp [blankLf, blankCrlf, replaceCrlf]
  rw [readPayload_eq, readPayload_eq, readPayload_eq, hreplaced, readBlocks_blank]
  by_cases hlast : cut.payload.getLast? = some '\n'
  · obtain ⟨before, hpayload⟩ := getLast?_eq_some_iff.1 hlast
    obtain ⟨-, hlf, hcr⟩ := payload_end h hpayload
    refine .inr ⟨replaceCrlf before, ?_, by rwa [replaceCrlf_getLast?], by rwa [replaceCrlf_getLast?]⟩
    rw [hpayload, replaceCrlf_append fun hlast => absurd hlast hcr]
    rfl
  · exact .inl (by rwa [replaceCrlf_getLast?])

theorem readPayload_cuts (text : Text) (hclean : ∀ cut ∈ cuts text, ¬cut.behindCr)
    (parsed : Parsed) :
    readPayload parsed text =
      readPayload ((payloads text).foldl readPayload parsed) (backlog text) := by
  fun_induction backlog text generalizing parsed with
  | case1 text hcut => rw [payloads_none hcut]; rfl
  | case2 text cut hcut ih =>
    rw [cuts_some hcut] at hclean
    rw [payloads_some hcut, foldl_cons,
      readPayload_cut hcut (hclean cut (mem_cons_self ..)),
      ih fun other hmem => hclean other (mem_cons_of_mem _ hmem)]

/-! ## White space -/

/-- Characters that no field of a line has in its name. -/
abbrev AllWhite (text : Text) : Prop := ∀ c ∈ text, isWhitespace c = true

theorem splitOnce_white {line : Text} (h : AllWhite line) : splitOnce [':'] line = none := by
  induction line with
  | nil => rfl
  | cons c rest ih =>
    have hc := h c (mem_cons_self ..)
    have hcolon : startsWith [':'] (c :: rest) = false := by
      rw [Bool.eq_false_iff]
      intro hstarts
      obtain ⟨more, heq⟩ := startsWith_iff.1 hstarts
      cases heq
      exact absurd hc (by decide)
    rw [splitOnce, hcolon, ih fun d hd => h d (mem_cons_of_mem _ hd)]
    rfl

theorem readLine_white (state : BlockState) {line : Text} (h : AllWhite line) :
    readLine state line = state := by
  have hname {name : String} {c : Char} (hc : c ∈ name.toList) (hblack : isWhitespace c = false) :
      (line == name.toList) = false := by
    rw [beq_eq_false_iff_ne]
    intro heq
    have hwhite := h c (heq ▸ hc)
    rw [hblack] at hwhite
    cases hwhite
  unfold readLine
  split
  · rfl
  · rw [splitOnce_white h]
    dsimp only [Option.getD]
    unfold setField
    rw [hname (c := 'e') (by decide) (by decide), hname (c := 'd') (by decide) (by decide),
      hname (c := 'd') (by decide) (by decide), hname (c := 'r') (by decide) (by decide)]
    rfl

theorem linesFrom_mem {line text written : Text} (hmem : written ∈ linesFrom line text) {c : Char}
    (hc : c ∈ written) : c ∈ line ++ text := by
  induction text generalizing line with
  | nil =>
    rw [linesFrom] at hmem
    split at hmem
    · cases hmem
    · rwa [mem_singleton.1 hmem, ← append_nil line] at hc
  | cons d rest ih =>
    rw [linesFrom] at hmem
    split at hmem
    · obtain rfl | hmem := mem_cons.1 hmem
      · refine mem_append_left _ ?_
        unfold stripEnd at hc
        split at hc
        · exact mem_of_mem_take hc
        · exact hc
      · exact mem_append_right _ (mem_cons_of_mem _ (ih hmem))
    · simpa using ih hmem

theorem blocksOf_mem {text block : Text} (hmem : block ∈ blocksOf text) {c : Char} (hc : c ∈ block) :
    c ∈ text := by
  fun_induction blocksOf text generalizing block with
  | case1 => rwa [mem_singleton.1 hmem] at hc
  | case2 d => rwa [mem_singleton.1 hmem] at hc
  | case3 d e rest h ih =>
    obtain rfl | hmem := mem_cons.1 hmem
    · cases hc
    · exact mem_cons_of_mem _ (mem_cons_of_mem _ (ih hmem hc))
  | case4 d e rest h ih =>
    cases hblocks : blocksOf (e :: rest) with
    | nil => exact absurd hblocks (blocksOf_ne_nil _)
    | cons first blocks =>
      rw [hblocks] at hmem ih
      obtain rfl | hmem := mem_cons.1 hmem
      · obtain rfl | hc := mem_cons.1 hc
        · exact mem_cons_self ..
        · exact mem_cons_of_mem _ (ih (mem_cons_self ..) hc)
      · exact mem_cons_of_mem _ (ih (mem_cons_of_mem _ hmem) hc)

theorem replaceCrlf_mem {text : Text} {c : Char} (hc : c ∈ replaceCrlf text) : c ∈ text := by
  induction text with
  | nil => exact hc
  | cons d rest ih =>
    rw [replaceCrlf] at hc
    split at hc
    · exact mem_cons_of_mem _ (ih hc)
    · exact mem_cons.2 ((mem_cons.1 hc).imp_right ih)

theorem allWhite_of_trim {text : Text} (h : (Str.trim text).isEmpty = true) : AllWhite text := by
  rw [List.isEmpty_iff, Str.trim, trimEnd, reverse_eq_nil_iff, dropWhile_eq_nil_iff] at h
  intro c hc
  rw [← takeWhile_append_dropWhile (p := isWhitespace) (l := text)] at hc
  obtain hc | hc := mem_append.1 hc
  · exact mem_takeWhile_imp hc
  · exact h c (mem_reverse.2 hc)

theorem readPayload_white {text : Text} (h : AllWhite text) (parsed : Parsed) :
    readPayload parsed text = parsed := by
  have hlines (state : BlockState) {written : List Text} (hwritten : ∀ line ∈ written, AllWhite line) :
      written.foldl readLine state = state := by
    induction written with
    | nil => rfl
    | cons line written ih =>
      rw [foldl_cons, readLine_white _ (hwritten line (mem_cons_self ..)),
        ih fun other hmem => hwritten other (mem_cons_of_mem _ hmem)]
  have hblock {block : Text} (hblock : AllWhite block) : readBlock parsed block = parsed := by
    have hwritten : ∀ line ∈ lines block, AllWhite line := fun line hmem c hc =>
      hblock c (@linesFrom_mem [] _ _ hmem _ hc)
    rw [readBlock, hlines _ hwritten]
    rfl
  rw [readPayload_eq]
  have hblocks : ∀ block ∈ blocksOf (replaceCrlf text), AllWhite block :=
    fun block hmem c hc => h c (replaceCrlf_mem (blocksOf_mem hmem hc))
  generalize blocksOf (replaceCrlf text) = blocks at hblocks
  induction blocks with
  | nil => rfl
  | cons block blocks ih =>
    rw [foldl_cons, hblock (hblocks block (mem_cons_self ..)),
      ih fun other hmem => hblocks other (mem_cons_of_mem _ hmem)]

/-! ## Chunks -/

namespace EventStream

theorem finish_spec (hopen : stream.finished = false) (flushed : Text) :
    (stream.finish flushed).events =
      (readPayload stream.parsed (stream.pending ++ flushed)).1 ++ [.closed] := by
  rw [finish, hopen, if_neg Bool.false_ne_true]
  dsimp only
  split
  · next hblank => rw [readPayload_white (allWhite_of_trim hblank)]; rfl
  · rw [← (dispatchBlock_spec stream _).1]; rfl

theorem read_spec (hopen : stream.finished = false) {piece : Text}
    (hfits : byteLen (stream.pending ++ piece) ≤ maxSseBufferBytes) :
    (stream.read piece).parsed =
        (payloads (stream.pending ++ piece)).foldl readPayload stream.parsed ∧
      (stream.read piece).pending = backlog (stream.pending ++ piece) ∧
      (stream.read piece).finished = false := by
  rw [read, hopen, if_neg Bool.false_ne_true]
  dsimp only
  rw [if_neg (Nat.not_lt.2 hfits)]
  have hdrain := drain_spec { stream with pending := stream.pending ++ piece }
  rw [hopen] at hdrain
  exact hdrain

end EventStream

/-- What is not cut off yet stays within the buffer at every read. -/
def FitsBuffer (pieces : List Text) : Prop :=
  ∀ before piece after, pieces = before ++ piece :: after → after ≠ [] →
    byteLen (backlog before.flatten ++ piece) ≤ maxSseBufferBytes

section Feed

variable (decoder : Utf8Decoder) (reserve : Nat → Nat → Nat)

/-- The decoder's answers to the worker. -/
def answers (state : decoder.State) (capacity : Nat) (stream : EventStream)
    (chunks : List (List UInt8)) : List (CoderResult × Text) :=
  decoder.calls state (decoder.rooms reserve state capacity stream chunks) 0

/-- The texts among them. -/
def pieces (state : decoder.State) (capacity : Nat) (stream : EventStream)
    (chunks : List (List UInt8)) : List Text :=
  (answers decoder reserve state capacity stream chunks).map Prod.snd

theorem rooms_fst (state : decoder.State) (capacity : Nat) (stream : EventStream)
    (chunks : List (List UInt8)) :
    (decoder.rooms reserve state capacity stream chunks).map Prod.fst = chunks := by
  induction chunks generalizing state capacity stream with
  | nil => rfl
  | cons chunk chunks ih => exact congrArg (chunk :: ·) (ih _ _ _)

theorem feed_spec (state : decoder.State) (capacity : Nat) (stream : EventStream)
    (chunks : List (List UInt8)) (seen : List Text) (start : Parsed)
    (hopen : stream.finished = false) (hpending : stream.pending = backlog seen.flatten)
    (hparsed : stream.parsed = (payloads seen.flatten).foldl readPayload start)
    (hfits : FitsBuffer (seen ++ pieces decoder reserve state capacity stream chunks))
    (hclean : ∀ cut ∈ cuts (seen ++ pieces decoder reserve state capacity stream chunks).flatten,
      ¬cut.behindCr) :
    (decoder.feed reserve state capacity stream chunks).events =
      (readPayload start
        (seen ++ pieces decoder reserve state capacity stream chunks).flatten).1 ++ [.closed] := by
  induction chunks generalizing state capacity stream seen with
  | nil =>
    let flushed := (decoder.decodeToString state [] 0 true).2.1
    have hlast : (seen ++ pieces decoder reserve state capacity stream []).flatten =
        seen.flatten ++ flushed := by
      rw [flatten_append]
      exact congrArg (seen.flatten ++ ·) flatten_singleton
    rw [Utf8Decoder.feed, EventStream.finish_spec hopen, hparsed, hpending]
    rw [hlast] at hclean ⊢
    obtain ⟨hcuts, hbacklog⟩ := cuts_append seen.flatten flushed
    -- the rest is cut as the end of the whole text is
    have hrest : ∀ cut ∈ cuts (backlog seen.flatten ++ flushed), ¬cut.behindCr :=
      fun cut hmem => hclean cut (by rw [hcuts]; exact mem_append_right _ hmem)
    rw [readPayload_cuts _ hclean, readPayload_cuts _ hrest, hbacklog, payloads_append seen.flatten,
      foldl_append]
  | cons chunk chunks ih =>
    let grown := reserve capacity (byteLen stream.pending + chunk.length)
    let answer := decoder.decodeToString state chunk (grown - byteLen stream.pending) false
    let piece := answer.2.1
    have hpieces : seen ++ pieces decoder reserve state capacity stream (chunk :: chunks) =
        seen ++ [piece] ++ pieces decoder reserve answer.2.2 grown (stream.read piece) chunks := by
      rw [append_assoc]
      rfl
    have hread : byteLen (stream.pending ++ piece) ≤ maxSseBufferBytes := by
      rw [hpending]
      refine hfits seen piece _ rfl ?_
      cases chunks <;> exact cons_ne_nil _ _
    obtain ⟨hparsed', hpending', hopen'⟩ := EventStream.read_spec hopen hread
    rw [hpending] at hparsed' hpending'
    rw [hpieces] at hfits hclean ⊢
    refine ih answer.2.2 grown (stream.read piece) (seen ++ [piece]) hopen' ?_ ?_ hfits hclean
    · rw [hpending', flatten_append, flatten_singleton, (cuts_append seen.flatten piece).2]
    · rw [hparsed', hparsed, flatten_append, flatten_singleton,
        payloads_append seen.flatten, foldl_append]

/-- Cut into any chunks, a stream gives the events of its whole text, if the decoder has room for
its output in every call, the buffer holds what is not cut off yet and no bare blank line is cut
off behind a carriage return. -/
theorem feed_events (decodeAll : List UInt8 → Text) (chunks : List (List UInt8)) (lastId : Text)
    (reconnectMs : Nat) (hdecoder : decoder.Decodes decodeAll)
    (hroom : ∀ answer ∈ answers decoder reserve decoder.new 0 (.new lastId reconnectMs) chunks,
      answer.1 = .inputEmpty)
    (hfits : FitsBuffer (pieces decoder reserve decoder.new 0 (.new lastId reconnectMs) chunks))
    (hclean : ∀ cut ∈ cuts (decodeAll chunks.flatten), ¬cut.behindCr) :
    (decoder.feed reserve decoder.new 0 (.new lastId reconnectMs) chunks).events =
      (parseSseEvents (decodeAll chunks.flatten) lastId).1 ++ [.closed] := by
  have hdecoded := hdecoder _ 0 hroom
  rw [rooms_fst] at hdecoded
  rw [← hdecoded] at hclean ⊢
  have hempty : nextCut [] = none := rfl
  refine feed_spec decoder reserve decoder.new 0 _ chunks [] ([], lastId) rfl ?_ ?_ hfits hclean
  · rw [flatten_nil, backlog_none hempty]; rfl
  · rw [flatten_nil, payloads_none hempty]; rfl

end Feed

theorem byteLen_backlog (text : Text) : byteLen (backlog text) ≤ byteLen text := by
  fun_induction backlog text with
  | case1 text hcut => exact Nat.le_refl _
  | case2 text cut hcut ih =>
    rw [(nextCut_eq hcut).1, byteLen_append]
    exact Nat.le_add_left_of_le ih

theorem fitsBuffer_of_le {pieces : List Text} (h : byteLen pieces.flatten ≤ maxSseBufferBytes) :
    FitsBuffer pieces := by
  rintro before piece after rfl -
  have hbacklog := byteLen_backlog before.flatten
  simp only [flatten_append, flatten_cons, byteLen_append] at h ⊢
  omega

/-! ## Streams of ASCII characters -/

def asciiText (bytes : List UInt8) : Text := bytes.map fun byte => Char.ofNat byte.toNat

def asciiBytes (text : String) : List UInt8 := text.toList.map fun c => UInt8.ofNat c.toNat

/-- The decoder on ASCII characters: each takes one byte of the room. -/
def asciiDecoder : Utf8Decoder where
  State := Unit
  new := ()
  decodeToString _ bytes room _ :=
    if bytes.length ≤ room then (.inputEmpty, asciiText bytes, ())
    else (.outputFull, asciiText (bytes.take room), ())

/-- The amortized growth of a string. -/
def amortized (capacity needed : Nat) : Nat :=
  if needed ≤ capacity then capacity else max (max (2 * capacity) needed) 8

theorem asciiDecoder_room {bytes : List UInt8} {room : Nat} (h : bytes.length ≤ room)
    (last : Bool) :
    asciiDecoder.decodeToString asciiDecoder.new bytes room last =
      (.inputEmpty, asciiText bytes, asciiDecoder.new) :=
  if_pos h

/-- There is always room for ASCII characters. -/
theorem asciiDecoder_reads (capacity : Nat) (stream : EventStream) (chunk : List UInt8) :
    asciiDecoder.decodeToString asciiDecoder.new chunk
      (amortized capacity (byteLen stream.pending + chunk.length) - byteLen stream.pending) false =
        (.inputEmpty, asciiText chunk, asciiDecoder.new) := by
  refine asciiDecoder_room ?_ false
  unfold amortized
  split <;> omega

theorem asciiDecoder_answers (capacity : Nat) (stream : EventStream) (chunks : List (List UInt8)) :
    answers asciiDecoder amortized asciiDecoder.new capacity stream chunks =
      (chunks ++ [[]]).map fun chunk => (.inputEmpty, asciiText chunk) := by
  induction chunks generalizing capacity stream with
  | nil => rfl
  | cons chunk chunks ih =>
    rw [answers, Utf8Decoder.rooms, asciiDecoder_reads, Utf8Decoder.calls, asciiDecoder_reads]
    exact congrArg (_ :: ·) (ih _ _)

theorem asciiDecoder_decodes : asciiDecoder.Decodes asciiText := by
  intro chunks lastRoom hroom
  induction chunks with
  | nil => rfl
  | cons piece chunks ih =>
    obtain ⟨bytes, room⟩ := piece
    obtain ⟨hfirst, hrest⟩ := forall_mem_cons.1 hroom
    have hlength : bytes.length ≤ room := by
      by_contra hlength
      exact absurd ((congrArg Prod.fst (if_neg hlength)).symm.trans hfirst) nofun
    have hcalls : asciiDecoder.calls asciiDecoder.new ((bytes, room) :: chunks) lastRoom =
        (.inputEmpty, asciiText bytes) :: asciiDecoder.calls asciiDecoder.new chunks lastRoom := by
      rw [Utf8Decoder.calls, asciiDecoder_room hlength]
    rw [hcalls, map_cons, flatten_cons, ih hrest, map_cons, flatten_cons]
    exact (map_append ..).symm

theorem feed_events_split :
    (asciiDecoder.feed amortized asciiDecoder.new 0 (.new [] 3000)
        [asciiBytes "data: a\r\n\r", asciiBytes "\ndata: b\n"]).events =
      [.event ⟨"message".toList, "a".toList, []⟩, .event ⟨"message".toList, "b".toList, []⟩,
        .closed] := by
  have hcuts : cuts (asciiText [asciiBytes "data: a\r\n\r", asciiBytes "\ndata: b\n"].flatten) =
      [⟨"data: a".toList, blankCrlf, "data: b\n".toList⟩] := by
    rw [@cuts_some _ ⟨"data: a".toList, blankCrlf, "data: b\n".toList⟩ (by decide),
      cuts_none (by decide)]
  refine (feed_events asciiDecoder amortized asciiText
    [asciiBytes "data: a\r\n\r", asciiBytes "\ndata: b\n"] [] 3000 asciiDecoder_decodes
    ?_ ?_ ?_).trans (by decide)
  · rw [asciiDecoder_answers]
    simp
  · rw [pieces, asciiDecoder_answers]
    exact fitsBuffer_of_le (by decide)
  rw [hcuts]
  intro cut hmem
  rw [mem_singleton.1 hmem]
  exact fun hbehind => absurd hbehind.1 (by decide)

/-! ## A line that does not end -/

theorem byteLen_replicate (length : Nat) (c : Char) :
    byteLen (List.replicate length c) = length * c.utf8Size := by
  induction length with
  | zero => simp
  | succ length ih => rw [replicate_succ, byteLen_cons, ih, Nat.succ_mul, Nat.add_comm]

theorem nextCut_unbroken {text : Text} (h : '\n' ∉ text) : nextCut text = none := by
  cases hcut : nextCut text with
  | none => rfl
  | some cut =>
    obtain ⟨heq, hblank⟩ := nextCut_eq hcut
    refine absurd ?_ h
    rw [heq]
    exact mem_append_left _ (mem_append_right _
      (by obtain hblank | hblank := hblank <;> rw [hblank] <;> decide))

theorem feed_finished (decoder : Utf8Decoder) (reserve : Nat → Nat → Nat) (state : decoder.State)
    (capacity : Nat) (h : stream.finished = true) (chunks : List (List UInt8)) :
    decoder.feed reserve state capacity stream chunks = stream := by
  induction chunks generalizing state capacity with
  | nil =>
    rw [Utf8Decoder.feed]
    dsimp only
    rw [EventStream.finish, if_pos h]
  | cons chunk chunks ih =>
    rw [Utf8Decoder.feed]
    dsimp only
    rw [EventStream.read, if_pos h, ih]

theorem feed_unbroken {chunks : List (List UInt8)} (capacity : Nat)
    (hopen : stream.finished = false)
    (hpending : '\n' ∉ stream.pending) (hfits : byteLen stream.pending ≤ maxSseBufferBytes)
    (hchunks : ∀ chunk ∈ chunks, '\n' ∉ asciiText chunk)
    (hlong : maxSseBufferBytes < byteLen (stream.pending ++ asciiText chunks.flatten)) :
    (asciiDecoder.feed amortized asciiDecoder.new capacity stream chunks).events =
      stream.events ++ [.error "EventSource buffer exceeds 1 MB"] := by
  induction chunks generalizing stream capacity with
  | nil =>
    rw [flatten_nil, asciiText, map_nil, append_nil] at hlong
    exact absurd hlong (Nat.not_lt.2 hfits)
  | cons chunk chunks ih =>
    have hpiece : '\n' ∉ stream.pending ++ asciiText chunk := fun hmem =>
      (mem_append.1 hmem).elim hpending (hchunks chunk (mem_cons_self ..))
    rw [Utf8Decoder.feed, asciiDecoder_reads]
    dsimp only
    by_cases hover : maxSseBufferBytes < byteLen (stream.pending ++ asciiText chunk)
    · have hgone : stream.read (asciiText chunk) =
          { stream with
            pending := stream.pending ++ asciiText chunk
            events := stream.events ++ [.error "EventSource buffer exceeds 1 MB"]
            finished := true } := by
        rw [EventStream.read, if_neg (by simp [hopen])]
        exact if_pos hover
      rw [hgone, feed_finished]
      rfl
    · obtain ⟨hparsed, hpending', hopen'⟩ := EventStream.read_spec hopen (Nat.not_lt.1 hover)
      have hcut := nextCut_unbroken hpiece
      rw [payloads_none hcut, foldl_nil] at hparsed
      rw [backlog_none hcut] at hpending'
      have hevents : (stream.read (asciiText chunk)).events = stream.events :=
        congrArg Prod.fst hparsed
      refine (ih _ hopen' (by rwa [hpending']) ?_ (fun other hmem => ?_) ?_).trans ?_
      · rw [hpending']
        exact Nat.not_lt.1 hover
      · exact hchunks other (mem_cons_of_mem _ hmem)
      · rw [hpending', append_assoc]
        simpa [asciiText] using hlong
      · rw [hevents]

theorem replaceCrlf_unbroken {text : Text} (h : '\n' ∉ text) : replaceCrlf text = text := by
  induction text with
  | nil => rfl
  | cons c rest ih =>
    have hhead : rest.head? ≠ some '\n' := fun hhead =>
      h (mem_cons_of_mem _ (mem_of_mem_head? hhead))
    rw [replaceCrlf, ih fun hmem => h (mem_cons_of_mem _ hmem), if_neg (by simp [hhead])]

theorem blocksOf_unbroken {text : Text} (h : '\n' ∉ text) : blocksOf text = [text] := by
  fun_induction blocksOf text with
  | case1 => rfl
  | case2 c => rfl
  | case3 c d rest hblank ih => exact absurd (hblank.1 ▸ mem_cons_self ..) h
  | case4 c d rest hblank ih => rw [ih fun hmem => h (mem_cons_of_mem _ hmem)]; rfl

theorem linesFrom_unbroken {line text : Text} (hline : line ++ text ≠ []) (h : '\n' ∉ text) :
    linesFrom line text = [line ++ text] := by
  induction text generalizing line with
  | nil =>
    rw [append_nil] at hline ⊢
    rw [linesFrom, if_neg (by simp [hline])]
  | cons c rest ih =>
    have hc : (c == '\n') = false := by
      rw [beq_eq_false_iff_ne]
      rintro rfl
      exact h (mem_cons_self ..)
    have hshift : line ++ [c] ++ rest = line ++ c :: rest := by simp
    rw [linesFrom, hc, if_neg Bool.false_ne_true,
      ih (hshift ▸ hline) fun hmem => h (mem_cons_of_mem _ hmem), hshift]

theorem parseSseEvents_line (length : Nat) :
    (parseSseEvents ("data:".toList ++ List.replicate (length + 1) 'a') []).1 =
      [.event ⟨"message".toList, List.replicate (length + 1) 'a', []⟩] := by
  have hunbroken : '\n' ∉ "data:".toList ++ replicate (length + 1) 'a' := by
    rw [mem_append, mem_replicate]
    simp
  have hlines : lines ("data:".toList ++ replicate (length + 1) 'a') =
      ["data:".toList ++ replicate (length + 1) 'a'] :=
    @linesFrom_unbroken [] _ (by simp) hunbroken
  have hread : readLine ⟨[], "message".toList, [], []⟩
      ("data:".toList ++ replicate (length + 1) 'a') =
        ⟨[], "message".toList, [replicate (length + 1) 'a'], []⟩ := rfl
  rw [parseSseEvents_eq, replaceCrlf_unbroken hunbroken, blocksOf_unbroken hunbroken,
    foldl_cons, foldl_nil, readBlock, hlines, foldl_cons, foldl_nil, hread]
  simp [intercalate]

/-- A bare blank line behind a carriage return leaves it in the data, and a line that is longer
than the buffer gives an error in place of its event. -/
theorem feed_events_fails :
    ((asciiDecoder.feed amortized asciiDecoder.new 0 (.new [] 3000)
        [asciiBytes "data: a\r\n\n"]).events =
        [.event ⟨"message".toList, "a\r".toList, []⟩, .closed] ∧
      (parseSseEvents (asciiText (asciiBytes "data: a\r\n\n")) []).1 =
        [.event ⟨"message".toList, "a".toList, []⟩]) ∧
    ∀ chunks, chunks = asciiBytes "data:" :: List.replicate 129 (List.replicate 8192 97) →
      (asciiDecoder.feed amortized asciiDecoder.new 0 (.new [] 3000) chunks).events =
          [.error "EventSource buffer exceeds 1 MB"] ∧
        (parseSseEvents (asciiText chunks.flatten) []).1 =
          [.event ⟨"message".toList, List.replicate (129 * 8192) 'a', []⟩] := by
  refine ⟨⟨?_, by decide⟩, ?_⟩
  · have hfirst : nextCut (asciiText (asciiBytes "data: a\r\n\n")) =
        some ⟨"data: a\r".toList, blankLf, []⟩ := by decide
    have hcr : readPayload ((payloads (asciiText (asciiBytes "data: a\r\n\n"))).foldl readPayload
        ([], [])) (backlog (asciiText (asciiBytes "data: a\r\n\n"))) =
        ([.event ⟨"message".toList, "a\r".toList, []⟩], []) := by
      rw [payloads_some hfirst, payloads_none rfl, backlog_some hfirst, backlog_none rfl]
      decide
    obtain ⟨hparsed, hpending, hopen⟩ := @EventStream.read_spec (.new [] 3000) rfl
      (asciiText (asciiBytes "data: a\r\n\n")) (by decide)
    refine (EventStream.finish_spec hopen []).trans ?_
    rw [hparsed, hpending, append_nil]
    exact congrArg (·.1 ++ [.closed]) hcr
  · rintro chunks rfl
    have htext : asciiText (asciiBytes "data:" ::
        replicate 129 (replicate 8192 97)).flatten =
        "data:".toList ++ replicate (129 * 8192) 'a' := by
      rw [flatten_cons, flatten_replicate_replicate, asciiText, map_append,
        map_replicate]
      rfl
    have hchunks : ∀ chunk ∈ asciiBytes "data:" :: replicate 129 (replicate 8192 97),
        '\n' ∉ asciiText chunk := by
      intro chunk hmem
      obtain rfl | hmem := mem_cons.1 hmem
      · decide
      · rw [eq_of_mem_replicate hmem, asciiText, map_replicate, mem_replicate]
        simp
    refine ⟨?_, by rw [htext]; exact parseSseEvents_line _⟩
    refine feed_unbroken 0 rfl (not_mem_nil) (by decide) hchunks ?_
    rw [htext, byteLen_append, byteLen_append, byteLen_replicate]
    decide

end GhitaBrowser.Realtime
