import GhitaBrowser.Wasm.Binary
import GhitaBrowser.Lib.Outcome

/-!
# The interpreter's two decoders

`wasm_interp.rs` reads instructions a second and a third time. `exec_instruction`
reads the immediates of the opcode it executes; every arm of it does so before it
touches the operand stack, and `decodeImmediate` is that part of it.
`skip_immediates` only computes where the next instruction starts, for the scanners
`find_end` and `find_else_or_end`.
-/

namespace GhitaBrowser.Wasm

open Leb128
open Outcome (bind_eq_ok err_returns ok_bind ok_returns)

def maxLabels : Nat := 1024

def byteAt (code : List UInt8) (pc : Nat) (message : String) : Outcome UInt8 :=
  Outcome.okOr message code[pc]?

/-- `u32::from(byte & 0x7F) << shift`, or the same on `i32` and `i64`: the shift panics
when its amount reaches the width. -/
def placed (w : Nat) (byte : UInt8) (shift : Nat) : Outcome (BitVec w) :=
  if shift < w then .ok (payload w byte <<< shift) else .panic

/-! ## Immediates, as `exec_instruction` reads them -/

/-- The loop of `read_leb_u32`, with `count` iterations left. -/
def execLebU32Loop (code : List UInt8) :
    Nat → BitVec 32 → Nat → Nat → Outcome (BitVec 32 × Nat)
  | 0, _, _, _ => .err "Instruction immediate too long"
  | count + 1, result, shift, pc => do
    let byte ← byteAt code pc "Instruction immediate out of range"
    let part ← placed 32 byte shift
    let result := result ||| part
    if continues byte then execLebU32Loop code count result (shift + 7) (pc + 1)
    else .ok (result, pc + 1)

def execLebU32 (code : List UInt8) (pc : Nat) : Outcome (Nat × Nat) := do
  let (value, pc) ← execLebU32Loop code 5 0 0 pc
  .ok (value.toNat, pc)

/-- The loop of `read_leb_i32` (five bytes, up to shift 35) and of `read_leb_i64`
(ten bytes, up to shift 70). -/
def execLebSignedLoop (w : Nat) (code : List UInt8) :
    Nat → BitVec w → Nat → Nat → Outcome (BitVec w × Nat)
  | 0, _, _, _ => .err "Instruction immediate too long"
  | count + 1, result, shift, pc => do
    let byte ← byteAt code pc "Instruction immediate out of range"
    let part ← placed w byte shift
    let result := result ||| part
    let shift := shift + 7
    if continues byte then execLebSignedLoop w code count result shift (pc + 1)
    else if shift < w && signBit byte then
      .ok (result ||| (BitVec.allOnes w <<< shift), pc + 1)
    else .ok (result, pc + 1)

def execLebI32 (code : List UInt8) (pc : Nat) : Outcome (BitVec 32 × Nat) :=
  execLebSignedLoop 32 code 5 0 0 pc

def execLebI64 (code : List UInt8) (pc : Nat) : Outcome (BitVec 64 × Nat) :=
  execLebSignedLoop 64 code 10 0 0 pc

/-- The loop that consumes a type-index block type after its first byte. Only the end
of the code stops it; `fuel` above the number of bytes left is enough. -/
def execBlockIndexLoop (code : List UInt8) : Nat → Nat → Nat → Outcome Nat
  | 0, _, _ => .timeout
  | fuel + 1, shift, pc => do
    let byte ← byteAt code pc "Block type index out of range"
    let _ ← placed 32 byte shift
    if continues byte then execBlockIndexLoop code fuel (shift + 7) (pc + 1)
    else .ok (pc + 1)

/-- A block type that is one byte: empty or a value type. -/
def singleByteBlockType (byte : UInt8) : Prop :=
  byte.toNat = 0x40 ∨ (0x7C ≤ byte.toNat ∧ byte.toNat ≤ 0x7F)

instance (byte : UInt8) : Decidable (singleByteBlockType byte) :=
  inferInstanceAs (Decidable (_ ∨ _))

/-- The block type that the first byte stands for, without the bytes after it. -/
def execBlockTypeOf (byte : UInt8) : BlockType :=
  if byte.toNat = 0x40 then .empty
  else if 0x7C ≤ byte.toNat ∧ byte.toNat ≤ 0x7F then .value byte
  else .typeIndex byte.toNat

def execBlockType (code : List UInt8) (pc : Nat) : Outcome (BlockType × Nat) := do
  let byte ← byteAt code pc "Missing block type"
  if singleByteBlockType byte then .ok (execBlockTypeOf byte, pc + 1)
  else
    let pc ← execBlockIndexLoop code (code.length + 1) 0 (pc + 1)
    .ok (execBlockTypeOf byte, pc)

/-- `for _ in 0..count { labels.push(read_leb_u32(frame)?) }`. -/
def execLabels (code : List UInt8) : Nat → Nat → Outcome (List Nat × Nat)
  | 0, pc => .ok ([], pc)
  | count + 1, pc => do
    let (label, pc) ← execLebU32 code pc
    let (labels, pc) ← execLabels code count pc
    .ok (label :: labels, pc)

def execReserved (code : List UInt8) (pc : Nat) (missing nonzero : String) :
    Outcome (UInt8 × Nat) := do
  let reserved ← byteAt code pc missing
  if reserved.toNat ≠ 0 then .err nonzero else .ok (reserved, pc + 1)

def execBytes (code : List UInt8) (pc count : Nat) (missing : String) :
    Outcome (List UInt8 × Nat) :=
  if pc + count ≤ code.length then .ok ((code.drop pc).take count, pc + count)
  else .err missing

/-- The immediates of `opcode`, whose first byte is at `pc`, and the `pc` after them. -/
def decodeImmediate (code : List UInt8) (opcode : UInt8) (pc : Nat) :
    Outcome (Immediate × Nat) :=
  let op := opcode.toNat
  if opensBlock opcode then do
    let (type, pc) ← execBlockType code pc
    .ok (.block type, pc)
  else if op = 0x0C ∨ op = 0x0D then do
    let (label, pc) ← execLebU32 code pc
    .ok (.index label, pc)
  else if op = 0x0E then do
    let (count, pc) ← execLebU32 code pc
    if count > maxLabels then .err "br_table label budget exceeded"
    else
      let (labels, pc) ← execLabels code count pc
      let (defaultLabel, pc) ← execLebU32 code pc
      .ok (.brTable labels defaultLabel, pc)
  else if op = 0x10 ∨ op = 0x12 ∨ op = 0x13 then do
    let (index, pc) ← execLebU32 code pc
    .ok (.index index, pc)
  else if op = 0x11 then do
    let (typeIndex, pc) ← execLebU32 code pc
    let (reserved, pc) ← execReserved code pc "call_indirect reserved byte missing"
      "call_indirect reserved byte must be zero"
    .ok (.callIndirect typeIndex reserved.toNat, pc)
  else if 0x20 ≤ op ∧ op ≤ 0x24 then do
    let (index, pc) ← execLebU32 code pc
    .ok (.index index, pc)
  else if 0x28 ≤ op ∧ op ≤ 0x3E then do
    let (align, pc) ← execLebU32 code pc
    let (offset, pc) ← execLebU32 code pc
    .ok (.memarg align offset, pc)
  else if op = 0x3F then do
    let (reserved, pc) ← execReserved code pc "memory.size reserved byte missing"
      "memory.size reserved byte must be zero"
    .ok (.reserved reserved, pc)
  else if op = 0x40 then do
    let (reserved, pc) ← execReserved code pc "memory.grow reserved byte missing"
      "memory.grow reserved byte must be zero"
    .ok (.reserved reserved, pc)
  else if op = 0x41 then do
    let (value, pc) ← execLebI32 code pc
    .ok (.i32 value, pc)
  else if op = 0x42 then do
    let (value, pc) ← execLebI64 code pc
    .ok (.i64 value, pc)
  else if op = 0x43 then do
    let (bytes, pc) ← execBytes code pc 4 "f32.const missing bytes"
    .ok (.f32 bytes, pc)
  else if op = 0x44 then do
    let (bytes, pc) ← execBytes code pc 8 "f64.const missing bytes"
    .ok (.f64 bytes, pc)
  -- Opcodes without immediates, and opcodes without an arm.
  else .ok (.none, pc)

/-! ## `skip_immediates` and the scanners -/

/-- The closure `leb`: the cursor after a number of at most `max` bytes. -/
def skipLeb (code : List UInt8) : Nat → Nat → Outcome Nat
  | 0, _ => .err "Immediate too long"
  | max + 1, cursor => do
    let byte ← byteAt code cursor "Truncated immediate"
    if continues byte then skipLeb code max (cursor + 1) else .ok (cursor + 1)

/-- `for _ in 0..count { leb(&mut cursor, 5)? }`. -/
def skipLebs (code : List UInt8) : Nat → Nat → Outcome Nat
  | 0, cursor => .ok cursor
  | count + 1, cursor => do
    let cursor ← skipLeb code 5 cursor
    skipLebs code count cursor

/-- The loop over `(0..20).step_by(7)` that reads a vector's length: after its third
byte it stops, whether or not that byte is the last. -/
def skipCountLoop (code : List UInt8) (truncated : String) :
    Nat → BitVec 32 → Nat → Nat → Outcome (BitVec 32 × Nat)
  | 0, count, _, cursor => .ok (count, cursor)
  | left + 1, count, shift, cursor => do
    let byte ← byteAt code cursor truncated
    let part ← placed 32 byte shift
    let count := count ||| part
    if continues byte then skipCountLoop code truncated left count (shift + 7) (cursor + 1)
    else .ok (count, cursor + 1)

def skipCount (code : List UInt8) (truncated : String) (cursor : Nat) :
    Outcome (Nat × Nat) := do
  let (count, cursor) ← skipCountLoop code truncated 3 0 0 cursor
  .ok (count.toNat, cursor)

/-- The `pc` after the instruction at `pc`. -/
def skipImmediates (code : List UInt8) (pc : Nat) : Outcome Nat := do
  let opcode ← byteAt code pc "Truncated instruction"
  let op := opcode.toNat
  let cursor := pc + 1
  if opensBlock opcode then
    let blockType ← byteAt code cursor "Missing block type"
    if singleByteBlockType blockType then .ok (cursor + 1) else skipLeb code 5 (cursor + 1)
  else if op = 0x0C ∨ op = 0x0D ∨ op = 0x10 ∨ op = 0x12 ∨ op = 0x13 then skipLeb code 5 cursor
  else if op = 0x11 then skipLebs code 2 cursor
  else if op = 0x0E then
    let (count, cursor) ← skipCount code "Truncated br_table" cursor
    skipLebs code (min count maxLabels + 1) cursor
  else if op = 0x1C then
    let (count, cursor) ← skipCount code "Truncated select_t" cursor
    .ok (cursor + min count 4)
  else if 0x20 ≤ op ∧ op ≤ 0x24 then skipLeb code 5 cursor
  else if 0x28 ≤ op ∧ op ≤ 0x3E then skipLebs code 2 cursor
  else if op = 0x3F ∨ op = 0x40 then .ok (cursor + 1)
  else if op = 0x41 ∨ op = 0x42 then skipLeb code 10 cursor
  else if op = 0x43 then .ok (cursor + 4)
  else if op = 0x44 then .ok (cursor + 8)
  else .ok cursor

/-- The loop of `find_end`. Every turn moves the cursor forward, so `fuel` above the
number of bytes left is enough. -/
def findEndLoop (code : List UInt8) : Nat → Nat → Nat → Outcome Nat
  | 0, _, _ => .timeout
  | fuel + 1, cursor, depth =>
    match code[cursor]? with
    | none => .err "Unbalanced block: missing end"
    | some opcode =>
      if opcode.toNat = 0x0B ∧ depth = 0 then .ok cursor
      else do
        let next ← skipImmediates code cursor
        findEndLoop code fuel next (depthAfter opcode depth)

def findEnd (code : List UInt8) (pc : Nat) : Outcome Nat :=
  findEndLoop code (code.length + 1) pc 0

def findElseOrEndLoop (code : List UInt8) : Nat → Nat → Nat → Outcome Nat
  | 0, _, _ => .timeout
  | fuel + 1, cursor, depth =>
    match code[cursor]? with
    | none => .err "Unbalanced block: missing end"
    | some opcode =>
      if (opcode.toNat = 0x05 ∨ opcode.toNat = 0x0B) ∧ depth = 0 then .ok (cursor + 1)
      else do
        let next ← skipImmediates code cursor
        findElseOrEndLoop code fuel next (depthAfter opcode depth)

def findElseOrEnd (code : List UInt8) (pc : Nat) : Outcome Nat :=
  findElseOrEndLoop code (code.length + 1) pc 0

/-! ## What the readers return -/

variable (code : List UInt8)

theorem byteAt_cases (pc : Nat) (message : String) :
    (code.drop pc = [] ∧ byteAt code pc message = .err message) ∨
      ∃ byte, code[pc]? = some byte ∧ code.drop pc = byte :: code.drop (pc + 1) ∧
        byteAt code pc message = .ok byte := by
  rcases here : code[pc]? with _ | byte
  · refine .inl ⟨?_, by simp [byteAt, here]⟩
    exact List.drop_eq_nil_of_le (List.getElem?_eq_none_iff.mp here)
  · refine .inr ⟨byte, rfl, ?_, by simp [byteAt, here]⟩
    rw [List.drop_eq_getElem?_toList_append, here]
    rfl

@[simp] theorem byteAt_returns (pc : Nat) (message : String) :
    (byteAt code pc message).Returns := Outcome.okOr_returns _ _

theorem placed_of_lt {w : Nat} {byte : UInt8} {shift : Nat} (small : shift < w) :
    placed w byte shift = .ok (payload w byte <<< shift) := if_pos small

theorem execLebU32Loop_eq_ok {code : List UInt8} {count pc pc' : Nat} (read : List UInt8)
    {number : BitVec 32} (small : 7 * read.length + 7 * count < 32 + 7) :
    execLebU32Loop code count (value 32 read) (7 * read.length) pc = .ok (number, pc') ↔
      ∃ run, encoding count (code.drop pc) = some run ∧ number = value 32 (read ++ run) ∧
        pc' = pc + run.length := by
  induction count generalizing read pc with
  | zero => simp [execLebU32Loop, encoding]
  | succ count ih =>
    rw [execLebU32Loop]
    rcases byteAt_cases code pc "Instruction immediate out of range" with
      ⟨empty, here⟩ | ⟨byte, _, split, here⟩
    · rw [here, empty]
      simp [encoding]
    · have shift : 7 * read.length + 7 = 7 * (read ++ [byte]).length := by simp; omega
      rw [here, split, ok_bind, placed_of_lt (by omega), ok_bind,
        ← value_concat, shift]
      cases more : continues byte with
      | false =>
        rw [encoding_cons_of_last more]
        simp [eq_comm]
      | true =>
        rw [if_pos rfl, ih _ (by simp at shift ⊢; omega), exists_encoding_cons more]
        simp only [List.append_assoc, List.singleton_append, List.length_cons, Nat.add_assoc,
          Nat.add_comm 1]

theorem execLebU32Loop_returns {count shift : Nat} (result : BitVec 32)
    (pc : Nat) (small : shift + 7 * count < 32 + 7) :
    (execLebU32Loop code count result shift pc).Returns := by
  induction count generalizing result shift pc with
  | zero => exact err_returns _
  | succ count ih =>
    rw [execLebU32Loop]
    refine (byteAt_returns ..).bind fun byte _ => ?_
    rw [placed_of_lt (by omega), ok_bind]
    split
    · exact ih _ _ (by omega)
    · exact ok_returns _

theorem execLebU32_eq_ok {code : List UInt8} {pc pc' number : Nat} :
    execLebU32 code pc = .ok (number, pc') ↔
      ∃ run, encoding 5 (code.drop pc) = some run ∧ number = (value 32 run).toNat ∧
        pc' = pc + run.length := by
  unfold execLebU32
  rw [bind_eq_ok]
  have loop : ∀ number pc', execLebU32Loop code 5 0 0 pc = .ok (number, pc') ↔
      ∃ run, encoding 5 (code.drop pc) = some run ∧ number = value 32 run ∧
        pc' = pc + run.length := fun _ _ => execLebU32Loop_eq_ok [] (by simp)
  constructor
  · rintro ⟨⟨wide, next⟩, h₁, h₂⟩
    obtain ⟨run, found, rfl, rfl⟩ := (loop _ _).mp h₁
    cases h₂
    exact ⟨run, found, rfl, rfl⟩
  · rintro ⟨run, found, rfl, rfl⟩
    exact ⟨(value 32 run, pc + run.length), (loop _ _).mpr ⟨run, found, rfl, rfl⟩, rfl⟩

@[simp] theorem execLebU32_returns (pc : Nat) :
    (execLebU32 code pc).Returns :=
  (execLebU32Loop_returns code 0 pc (by omega)).bind fun _ _ => ok_returns _

theorem execLebSignedLoop_eq_ok {w : Nat} {code : List UInt8} {count pc pc' : Nat}
    (read : List UInt8) {number : BitVec w} (small : 7 * read.length + 7 * count < w + 7) :
    execLebSignedLoop w code count (value w read) (7 * read.length) pc = .ok (number, pc') ↔
      ∃ run, encoding count (code.drop pc) = some run ∧
        number = signedValue w (read ++ run) ∧ pc' = pc + run.length := by
  induction count generalizing read pc with
  | zero => simp [execLebSignedLoop, encoding]
  | succ count ih =>
    rw [execLebSignedLoop]
    rcases byteAt_cases code pc "Instruction immediate out of range" with
      ⟨empty, here⟩ | ⟨byte, _, split, here⟩
    · rw [here, empty]
      simp [encoding]
    · have shift : 7 * read.length + 7 = 7 * (read ++ [byte]).length := by simp; omega
      rw [here, split, ok_bind, placed_of_lt (by omega), ok_bind,
        ← value_concat, shift]
      cases more : continues byte with
      | false =>
        rw [encoding_cons_of_last more, if_neg (by simp)]
        simp only [Option.some.injEq, exists_eq_left', signedValue_concat, List.length_singleton]
        split <;> simp [eq_comm]
      | true =>
        rw [if_pos rfl, ih _ (by simp at shift ⊢; omega), exists_encoding_cons more]
        simp only [List.append_assoc, List.singleton_append, List.length_cons, Nat.add_assoc,
          Nat.add_comm 1]

theorem execLebSignedLoop_returns {w : Nat} {count shift : Nat}
    (result : BitVec w) (pc : Nat) (small : shift + 7 * count < w + 7) :
    (execLebSignedLoop w code count result shift pc).Returns := by
  induction count generalizing result shift pc with
  | zero => exact err_returns _
  | succ count ih =>
    rw [execLebSignedLoop]
    refine (byteAt_returns ..).bind fun byte _ => ?_
    rw [placed_of_lt (by omega), ok_bind]
    dsimp only
    split
    · exact ih _ _ (by omega)
    · split <;> exact ok_returns _

theorem execLebI32_eq_ok {code : List UInt8} {pc pc' : Nat} {number : BitVec 32} :
    execLebI32 code pc = .ok (number, pc') ↔
      ∃ run, encoding 5 (code.drop pc) = some run ∧ number = signedValue 32 run ∧
        pc' = pc + run.length := execLebSignedLoop_eq_ok [] (by simp)

@[simp] theorem execLebI32_returns (pc : Nat) :
    (execLebI32 code pc).Returns := execLebSignedLoop_returns code 0 pc (by omega)

theorem execLebI64_eq_ok {code : List UInt8} {pc pc' : Nat} {number : BitVec 64} :
    execLebI64 code pc = .ok (number, pc') ↔
      ∃ run, encoding 10 (code.drop pc) = some run ∧ number = signedValue 64 run ∧
        pc' = pc + run.length := execLebSignedLoop_eq_ok [] (by simp)

@[simp] theorem execLebI64_returns (pc : Nat) :
    (execLebI64 code pc).Returns := execLebSignedLoop_returns code 0 pc (by omega)

/-- With `left` bytes to go before the shift reaches 35, the block type loop ends at the end
of the number, stops at the end of the code, or panics on the byte after those. -/
theorem execBlockIndexLoop_cases (fuel left pc : Nat) (bound : left ≤ 5)
    (enough : code.length - pc < fuel) :
    (∃ run, encoding left (code.drop pc) = some run ∧
      execBlockIndexLoop code fuel (35 - 7 * left) pc = .ok (pc + run.length)) ∨
    (encoding left (code.drop pc) = none ∧ (code.drop pc).length ≤ left ∧
      ∃ message, execBlockIndexLoop code fuel (35 - 7 * left) pc = .err message) ∨
    (encoding left (code.drop pc) = none ∧ left < (code.drop pc).length ∧
      execBlockIndexLoop code fuel (35 - 7 * left) pc = .panic) := by
  induction left generalizing fuel pc with
  | zero =>
    obtain ⟨fuel, rfl⟩ : ∃ n, fuel = n + 1 := ⟨fuel - 1, by omega⟩
    rw [execBlockIndexLoop]
    rcases byteAt_cases code pc "Block type index out of range" with
      ⟨empty, here⟩ | ⟨byte, _, split, here⟩
    · exact .inr (.inl ⟨rfl, by simp [empty], _, by rw [here]; rfl⟩)
    · exact .inr (.inr ⟨rfl, by simp [split], by rw [here]; rfl⟩)
  | succ left ih =>
    obtain ⟨fuel, rfl⟩ : ∃ n, fuel = n + 1 := ⟨fuel - 1, by omega⟩
    rw [execBlockIndexLoop]
    rcases byteAt_cases code pc "Block type index out of range" with
      ⟨empty, here⟩ | ⟨byte, inRange, split, here⟩
    · exact .inr (.inl ⟨by simp [empty, encoding], by simp [empty], _, by rw [here]; rfl⟩)
    · have positive : pc < code.length := (List.getElem?_eq_some_iff.mp inRange).1
      have shift : 35 - 7 * (left + 1) + 7 = 35 - 7 * left := by omega
      rw [here, split, ok_bind, placed_of_lt (by omega), ok_bind, shift]
      cases more : continues byte with
      | false => exact .inl ⟨[byte], encoding_cons_of_last more, rfl⟩
      | true =>
        rw [if_pos rfl, encoding, if_pos more, List.length_cons]
        rcases ih fuel (pc + 1) (by omega) (by omega) with
          ⟨run, found, ends⟩ | ⟨found, short, ends⟩ | ⟨found, long, ends⟩
        · refine .inl ⟨byte :: run, by rw [found]; rfl, ?_⟩
          rw [ends, List.length_cons]
          congr 1
          omega
        · exact .inr (.inl ⟨by rw [found]; rfl, by omega, ends⟩)
        · exact .inr (.inr ⟨by rw [found]; rfl, by omega, ends⟩)

theorem execLabels_returns (count pc : Nat) :
    (execLabels code count pc).Returns := by
  induction count generalizing pc with
  | zero => exact ok_returns _
  | succ count ih =>
    rw [execLabels]
    refine (execLebU32_returns code pc).bind fun first _ => ?_
    exact (ih first.2).bind fun _ _ => ok_returns _

@[simp] theorem execReserved_returns (pc : Nat) (missing nonzero : String) :
    (execReserved code pc missing nonzero).Returns := by
  unfold execReserved
  refine (byteAt_returns ..).bind fun byte _ => ?_
  split <;> simp

@[simp] theorem execBytes_returns (pc count : Nat) (missing : String) :
    (execBytes code pc count missing).Returns := by
  unfold execBytes
  split <;> simp

theorem skipLeb_eq_ok {code : List UInt8} {max cursor next : Nat} :
    skipLeb code max cursor = .ok next ↔
      ∃ run, encoding max (code.drop cursor) = some run ∧ next = cursor + run.length := by
  induction max generalizing cursor with
  | zero => simp [skipLeb, encoding]
  | succ max ih =>
    rw [skipLeb]
    rcases byteAt_cases code cursor "Truncated immediate" with
      ⟨empty, here⟩ | ⟨byte, _, split, here⟩
    · rw [here, empty]
      simp [encoding]
    · rw [here, split, ok_bind]
      cases more : continues byte with
      | false =>
        rw [encoding_cons_of_last more]
        simp [eq_comm]
      | true =>
        rw [if_pos rfl, ih, exists_encoding_cons more]
        simp only [List.length_cons, Nat.add_assoc, Nat.add_comm 1]

@[simp] theorem skipLeb_returns (max cursor : Nat) :
    (skipLeb code max cursor).Returns := by
  induction max generalizing cursor with
  | zero => exact err_returns _
  | succ max ih =>
    rw [skipLeb]
    refine (byteAt_returns ..).bind fun byte _ => ?_
    split
    · exact ih _
    · exact ok_returns _

theorem skipLeb_advances {code : List UInt8} {max cursor next : Nat}
    (h : skipLeb code max cursor = .ok next) : cursor < next := by
  obtain ⟨run, found, rfl⟩ := skipLeb_eq_ok.mp h
  have := (encoding_length found).1
  omega

@[simp] theorem skipLebs_returns (count cursor : Nat) :
    (skipLebs code count cursor).Returns := by
  induction count generalizing cursor with
  | zero => exact ok_returns _
  | succ count ih =>
    rw [skipLebs]
    exact (skipLeb_returns ..).bind fun next _ => ih next

theorem skipLebs_advances {code : List UInt8} {count cursor next : Nat}
    (h : skipLebs code count cursor = .ok next) : cursor ≤ next := by
  induction count generalizing cursor with
  | zero =>
    cases h
    exact Nat.le_refl _
  | succ count ih =>
    obtain ⟨middle, first, rest⟩ := bind_eq_ok.mp h
    exact Nat.le_trans (Nat.le_of_lt (skipLeb_advances first)) (ih rest)

theorem skipCountLoop_returns (truncated : String) {left shift : Nat}
    (count : BitVec 32) (cursor : Nat) (small : shift + 7 * left < 32 + 7) :
    (skipCountLoop code truncated left count shift cursor).Returns := by
  induction left generalizing count shift cursor with
  | zero => exact ok_returns _
  | succ left ih =>
    rw [skipCountLoop]
    refine (byteAt_returns ..).bind fun byte _ => ?_
    rw [placed_of_lt (by omega), ok_bind]
    dsimp only
    split
    · exact ih _ _ (by omega)
    · exact ok_returns _

@[simp] theorem skipCount_returns (truncated : String) (cursor : Nat) :
    (skipCount code truncated cursor).Returns :=
  (skipCountLoop_returns code truncated 0 cursor (by omega)).bind fun _ _ =>
    ok_returns _

theorem skipCountLoop_advances {code : List UInt8} {truncated : String}
    {left shift cursor next : Nat} {count number : BitVec 32} (small : shift + 7 * left < 32 + 7)
    (h : skipCountLoop code truncated left count shift cursor = .ok (number, next)) :
    cursor ≤ next := by
  induction left generalizing count shift cursor with
  | zero =>
    cases h
    exact Nat.le_refl _
  | succ left ih =>
    rw [skipCountLoop] at h
    obtain ⟨byte, _, h⟩ := bind_eq_ok.mp h
    rw [placed_of_lt (by omega), ok_bind] at h
    dsimp only at h
    split at h
    · have := ih (by omega) h
      omega
    · cases h
      omega

theorem skipCount_advances {code : List UInt8} {truncated : String} {cursor count next : Nat}
    (h : skipCount code truncated cursor = .ok (count, next)) : cursor ≤ next := by
  obtain ⟨⟨number, middle⟩, loop, h⟩ := bind_eq_ok.mp h
  cases h
  exact skipCountLoop_advances (by omega) loop

@[simp] theorem skipImmediates_returns (pc : Nat) :
    (skipImmediates code pc).Returns := by
  unfold skipImmediates
  refine (byteAt_returns ..).bind fun opcode _ => ?_
  refine .ite (fun _ => ?_) fun _ => ?_
  · refine (byteAt_returns ..).bind fun blockType _ => ?_
    exact .ite (fun _ => ok_returns _) fun _ => skipLeb_returns ..
  refine .ite (fun _ => skipLeb_returns ..) fun _ => ?_
  refine .ite (fun _ => skipLebs_returns ..) fun _ => ?_
  refine .ite (fun _ => ?_) fun _ => ?_
  · exact (skipCount_returns ..).bind fun _ _ => skipLebs_returns ..
  refine .ite (fun _ => ?_) fun _ => ?_
  · exact (skipCount_returns ..).bind fun _ _ => ok_returns _
  refine .ite (fun _ => skipLeb_returns ..) fun _ => ?_
  refine .ite (fun _ => skipLebs_returns ..) fun _ => ?_
  refine .ite (fun _ => ok_returns _) fun _ => ?_
  refine .ite (fun _ => skipLeb_returns ..) fun _ => ?_
  refine .ite (fun _ => ok_returns _) fun _ => ?_
  exact .ite (fun _ => ok_returns _) fun _ => ok_returns _

theorem skipImmediates_advances {code : List UInt8} {pc next : Nat}
    (h : skipImmediates code pc = .ok next) : pc < next := by
  have number : ∀ max, (skipLeb code max (pc + 1)).Ensures (pc < ·) := fun max next read => by
    have := skipLeb_advances read
    omega
  have numbers : ∀ count cursor, pc < cursor → (skipLebs code count cursor).Ensures (pc < ·) :=
    fun count cursor after next read => Nat.lt_of_lt_of_le after (skipLebs_advances read)
  have here : ∀ length, (Outcome.ok (pc + 1 + length)).Ensures (pc < ·) := fun length =>
    Outcome.ensures_ok (by omega)
  suffices (skipImmediates code pc).Ensures (pc < ·) from this next h
  unfold skipImmediates
  refine .bind fun opcode _ => ?_
  refine .ite (fun _ => ?_) fun _ => ?_
  · refine .bind fun blockType _ => .ite (fun _ => here 1) fun _ next read => ?_
    have := skipLeb_advances read
    omega
  refine .ite (fun _ => number 5) fun _ => ?_
  refine .ite (fun _ => numbers 2 _ (Nat.lt_succ_self pc)) fun _ => ?_
  refine .ite (fun _ => .bind fun counted read => ?_) fun _ => ?_
  · have := skipCount_advances read
    exact numbers _ _ (by omega)
  refine .ite (fun _ => .bind fun counted read => ?_) fun _ => ?_
  · have := skipCount_advances read
    exact Outcome.ensures_ok (by omega)
  refine .ite (fun _ => number 5) fun _ => ?_
  refine .ite (fun _ => numbers 2 _ (Nat.lt_succ_self pc)) fun _ => ?_
  refine .ite (fun _ => here 1) fun _ => ?_
  refine .ite (fun _ => number 10) fun _ => ?_
  refine .ite (fun _ => here 4) fun _ => ?_
  exact .ite (fun _ => here 8) fun _ => here 0

/-- The continuation of a type-index block type at `pc`, the byte after the first: five
bytes are enough for it, or the code ends within them. -/
def ShortContinuation (code : List UInt8) (pc : Nat) : Prop :=
  (encoding 5 (code.drop pc)).isSome ∨ (code.drop pc).length ≤ 5

instance (code : List UInt8) (pc : Nat) : Decidable (ShortContinuation code pc) :=
  inferInstanceAs (Decidable (_ ∨ _))

theorem execBlockType_returns_iff (pc : Nat) :
    (execBlockType code pc).Returns ↔
      ∀ first, code[pc]? = some first → ¬singleByteBlockType first →
        ShortContinuation code (pc + 1) := by
  unfold execBlockType ShortContinuation
  rcases byteAt_cases code pc "Missing block type" with ⟨empty, here⟩ | ⟨first, inCode, _, here⟩
  · have missing : code[pc]? = none := List.getElem?_eq_none_iff.mpr (List.drop_eq_nil_iff.mp empty)
    simp [here, missing]
  · rw [here, ok_bind, inCode]
    by_cases single : singleByteBlockType first
    · simp [single]
    · rw [if_neg single]
      rcases execBlockIndexLoop_cases code (code.length + 1) 5 (pc + 1)
        (Nat.le_refl 5) (by omega) with
        ⟨run, found, ends⟩ | ⟨found, short, message, ends⟩ | ⟨found, long, ends⟩
      · simp [ends, found]
      · simp only [Nat.reduceMul, Nat.sub_self] at ends
        rw [ends, Outcome.err_bind]
        simp only [err_returns, true_iff]
        exact fun _ _ _ => .inr short
      · simp only [Nat.reduceMul, Nat.sub_self] at ends
        rw [ends, Outcome.panic_bind]
        constructor
        · rintro (⟨_, impossible⟩ | ⟨_, impossible⟩) <;> cases impossible
        · intro safe
          rcases safe first rfl single with found' | short
          · simp [found] at found'
          · omega

theorem execBlockType_ne_timeout (pc : Nat) :
    execBlockType code pc ≠ .timeout := by
  unfold execBlockType
  rcases byteAt_cases code pc "Missing block type" with ⟨empty, here⟩ | ⟨first, inCode, _, here⟩
  · simp [here]
  · rw [here, ok_bind]
    split
    · simp
    · rcases execBlockIndexLoop_cases code (code.length + 1) 5 (pc + 1)
        (Nat.le_refl 5) (by omega) with
        ⟨run, _, ends⟩ | ⟨_, _, message, ends⟩ | ⟨_, _, ends⟩
      · simp [ends]
      · simp only [Nat.reduceMul, Nat.sub_self] at ends
        simp [ends]
      · simp only [Nat.reduceMul, Nat.sub_self] at ends
        simp [ends]

theorem decodeImmediate_of_opensBlock {code : List UInt8} {opcode : UInt8} {pc : Nat}
    (opens : opensBlock opcode) :
    decodeImmediate code opcode pc =
      execBlockType code pc >>= fun decoded => .ok (.block decoded.1, decoded.2) := by
  unfold decodeImmediate
  rw [if_pos opens]

/-- Apart from block types, no immediate makes the reader panic or run on. -/
theorem decodeImmediate_returns {code : List UInt8} {opcode : UInt8} {pc : Nat}
    (closed : ¬opensBlock opcode) : (decodeImmediate code opcode pc).Returns := by
  have done : ∀ (immediate : Immediate) (pc : Nat),
      (Outcome.ok (immediate, pc)).Returns := fun _ _ => ok_returns _
  unfold decodeImmediate
  dsimp only
  rw [if_neg closed]
  refine .ite (fun _ => (execLebU32_returns ..).bind fun _ _ => done _ _) fun _ => ?_
  refine .ite (fun _ => (execLebU32_returns ..).bind fun count _ => ?_) fun _ => ?_
  · refine .ite (fun _ => err_returns _) fun _ => ?_
    refine (execLabels_returns ..).bind fun labels _ => ?_
    exact (execLebU32_returns ..).bind fun _ _ => done _ _
  refine .ite (fun _ => (execLebU32_returns ..).bind fun _ _ => done _ _) fun _ => ?_
  refine .ite (fun _ => (execLebU32_returns ..).bind fun _ _ => ?_) fun _ => ?_
  · exact (execReserved_returns ..).bind fun _ _ => done _ _
  refine .ite (fun _ => (execLebU32_returns ..).bind fun _ _ => done _ _) fun _ => ?_
  refine .ite (fun _ => (execLebU32_returns ..).bind fun _ _ => ?_) fun _ => ?_
  · exact (execLebU32_returns ..).bind fun _ _ => done _ _
  refine .ite (fun _ => (execReserved_returns ..).bind fun _ _ => done _ _) fun _ => ?_
  refine .ite (fun _ => (execReserved_returns ..).bind fun _ _ => done _ _) fun _ => ?_
  refine .ite (fun _ => (execLebI32_returns ..).bind fun _ _ => done _ _) fun _ => ?_
  refine .ite (fun _ => (execLebI64_returns ..).bind fun _ _ => done _ _) fun _ => ?_
  refine .ite (fun _ => (execBytes_returns ..).bind fun _ _ => done _ _) fun _ => ?_
  exact .ite (fun _ => (execBytes_returns ..).bind fun _ _ => done _ _) fun _ => done _ _

/-- A scanner stops at an opcode in the block it started in and skips every other instruction. -/
def Scans (code : List UInt8) (stops : UInt8 → Prop) [DecidablePred stops] (place : Nat → Nat)
    (scan : Nat → Nat → Nat → Outcome Nat) : Prop :=
  ∀ fuel cursor depth, scan (fuel + 1) cursor depth =
    match code[cursor]? with
    | none => .err "Unbalanced block: missing end"
    | some opcode =>
      if stops opcode ∧ depth = 0 then .ok (place cursor)
      else do
        let next ← skipImmediates code cursor
        scan fuel next (depthAfter opcode depth)

theorem findEndLoop_scans : Scans code (·.toNat = 0x0B) id (findEndLoop code) := fun _ _ _ => rfl

theorem findElseOrEndLoop_scans :
    Scans code (fun opcode => opcode.toNat = 0x05 ∨ opcode.toNat = 0x0B) (· + 1)
      (findElseOrEndLoop code) := fun _ _ _ => rfl

theorem Scans.returns {code : List UInt8} {stops : UInt8 → Prop} [DecidablePred stops]
    {place : Nat → Nat} {scan : Nat → Nat → Nat → Outcome Nat} (scans : Scans code stops place scan)
    {fuel cursor : Nat} (depth : Nat) (enough : code.length - cursor < fuel) :
    (scan fuel cursor depth).Returns := by
  induction fuel generalizing cursor depth with
  | zero => omega
  | succ fuel ih =>
    rw [scans]
    split
    case h_1 => exact err_returns _
    case h_2 opcode here =>
      have inRange : cursor < code.length := (List.getElem?_eq_some_iff.mp here).1
      split
      · exact ok_returns _
      · refine (skipImmediates_returns code cursor).bind fun next skipped => ih _ ?_
        have := skipImmediates_advances skipped
        omega

@[simp] theorem findEnd_returns (pc : Nat) : (findEnd code pc).Returns :=
  (findEndLoop_scans code).returns 0 (by omega)

@[simp] theorem findElseOrEnd_returns (pc : Nat) : (findElseOrEnd code pc).Returns :=
  (findElseOrEndLoop_scans code).returns 0 (by omega)

end GhitaBrowser.Wasm
