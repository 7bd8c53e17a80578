import GhitaBrowser.Lib.Leb128
import GhitaBrowser.Lib.Outcome

/-!
# Module data and the byte cursor

The types of `wasm.rs` and its `Cursor`, with the LEB128 readers. A reader takes
the cursor and returns a value and the cursor after it; a failed read stops the
whole parse, so the cursor it leaves behind is not kept.

Indices and sizes (`u32`, `usize`) are `Nat`; values computed bit by bit are
`BitVec`.
-/

namespace GhitaBrowser.Wasm

open Leb128

def maxModuleBytes : Nat := 8 * 1024 * 1024
def maxTypes : Nat := 4096
def maxFunctions : Nat := 4096
def maxImports : Nat := 2048
def maxExports : Nat := 2048
def maxGlobals : Nat := 2048
def maxLocalsPerFunction : Nat := 1024
def maxCodeDepth : Nat := 1024
def maxTableEntries : Nat := 1024
def maxMemoryPages : Nat := 1024
def maxDataSegments : Nat := 2048

inductive ValueType where
  | i32 | i64 | f32 | f64 | funcRef | externRef
deriving DecidableEq, Repr

structure FuncType where
  parameters : List ValueType
  results : List ValueType
deriving DecidableEq, Repr

structure Limits where
  min : Nat
  max : Option Nat
deriving DecidableEq, Repr

structure TableType where
  elementType : ValueType
  limits : Limits
deriving DecidableEq, Repr

structure MemoryType where
  limits : Limits
deriving DecidableEq, Repr

structure GlobalType where
  valueType : ValueType
  mutable : Bool
deriving DecidableEq, Repr

inductive ImportKind where
  | function (typeIndex : Nat)
  | table (type : TableType)
  | memory (type : MemoryType)
  | global (type : GlobalType)
deriving DecidableEq, Repr

structure Import where
  module : List UInt8
  name : List UInt8
  kind : ImportKind
deriving DecidableEq, Repr

inductive ExportKind where
  | function | table | memory | global
deriving DecidableEq, Repr

structure Export where
  name : List UInt8
  kind : ExportKind
  index : Nat
deriving DecidableEq, Repr

structure Global where
  valueType : ValueType
  mutable : Bool
  init : List UInt8
deriving DecidableEq, Repr

structure LocalDecl where
  count : Nat
  valueType : ValueType
deriving DecidableEq, Repr

structure FunctionBody where
  locals : List LocalDecl
  code : List UInt8
deriving DecidableEq, Repr

structure ElementSegment where
  tableIndex : Nat
  offset : List UInt8
  functionIndices : List Nat
deriving DecidableEq, Repr

structure DataSegment where
  memoryIndex : Nat
  offset : List UInt8
  bytes : List UInt8
deriving DecidableEq, Repr

structure WasmModule where
  types : List FuncType := []
  imports : List Import := []
  functionTypeIndices : List Nat := []
  tables : List TableType := []
  memories : List MemoryType := []
  globals : List Global := []
  exports : List Export := []
  start : Option Nat := none
  elements : List ElementSegment := []
  data : List DataSegment := []
  bodies : List FunctionBody := []
  totalFunctions : Nat := 0
deriving DecidableEq, Repr

/-! ## Cursor -/

structure Cursor where
  bytes : List UInt8
  pos : Nat
deriving DecidableEq, Repr

abbrev Reader (α : Type) : Type := StateT Cursor (Except String) α

namespace Cursor

def new (bytes : List UInt8) : Cursor := ⟨bytes, 0⟩

def isEmpty (c : Cursor) : Bool := c.bytes.length ≤ c.pos

def remaining (c : Cursor) : Nat := c.bytes.length - c.pos

end Cursor

def fail {α : Type} (message : String) : Reader α := fun _ => .error message

def readU8 : Reader UInt8 := fun c =>
  match c.bytes[c.pos]? with
  | some byte => .ok (byte, { c with pos := c.pos + 1 })
  | none => .error "Unexpected end of input"

def peekU8 : Reader UInt8 := fun c =>
  match c.bytes[c.pos]? with
  | some byte => .ok (byte, c)
  | none => .error "Unexpected end of input"

def readBytes (count : Nat) : Reader (List UInt8) := fun c =>
  if c.remaining < count then .error "Unexpected end of input"
  else .ok ((c.bytes.drop c.pos).take count, { c with pos := c.pos + count })

/-- The loop of `read_leb_u64`, with `count` iterations left. -/
def readLebU64Loop : Nat → BitVec 64 → Nat → Reader (BitVec 64)
  | 0, _, _ => fail "LEB128 integer too long"
  | count + 1, result, shift => do
    let byte ← readU8
    let result := result ||| (payload 64 byte <<< shift)
    if continues byte then readLebU64Loop count result (shift + 7) else pure result

def readLebU64 : Reader (BitVec 64) := readLebU64Loop 10 0 0

def readLebU32 : Reader Nat := do
  let value ← readLebU64
  if value.toNat < 2 ^ 32 then pure value.toNat else fail "LEB128 value exceeds u32"

/-- The loop of `read_leb_i64`; it stops at shift 70, ten bytes in. -/
def readLebI64Loop : Nat → BitVec 64 → Nat → Reader (BitVec 64)
  | 0, _, _ => fail "LEB128 integer too long"
  | count + 1, result, shift => do
    let byte ← readU8
    let result := result ||| (payload 64 byte <<< shift)
    let shift := shift + 7
    if continues byte then readLebI64Loop count result shift
    else if shift < 64 && signBit byte then pure (result ||| (BitVec.allOnes 64 <<< shift))
    else pure result

def readLebI64 : Reader (BitVec 64) := readLebI64Loop 10 0 0

def readLebI32 : Reader (BitVec 32) := do
  let value ← readLebI64
  if -2 ^ 31 ≤ value.toInt ∧ value.toInt < 2 ^ 31 then pure (value.setWidth 32)
  else fail "LEB128 value exceeds i32"

/-- `for _ in 0..count` over a reader. -/
def readMany {α : Type} (read : Reader α) : Nat → Reader (List α)
  | 0 => pure []
  | count + 1 => do
    let head ← read
    let tail ← readMany read count
    pure (head :: tail)

/-- A byte of the form `10xxxxxx`. -/
def utf8Tail (byte : UInt8) : Bool := 0x80 ≤ byte && byte ≤ 0xBF

/-- `std::str::from_utf8`: no overlong form, no surrogate, nothing above U+10FFFF. -/
def validUtf8 : List UInt8 → Bool
  | [] => true
  | a :: rest =>
    if a < 0x80 then validUtf8 rest
    else match rest with
      | [] => false
      | b :: rest =>
        if 0xC2 ≤ a && a ≤ 0xDF then utf8Tail b && validUtf8 rest
        else match rest with
          | [] => false
          | c :: rest =>
            if 0xE0 ≤ a && a ≤ 0xEF then
              (if a == 0xE0 then 0xA0 ≤ b && b ≤ 0xBF
                else if a == 0xED then 0x80 ≤ b && b ≤ 0x9F else utf8Tail b) &&
                utf8Tail c && validUtf8 rest
            else match rest with
              | [] => false
              | d :: rest =>
                0xF0 ≤ a && a ≤ 0xF4 &&
                (if a == 0xF0 then 0x90 ≤ b && b ≤ 0xBF
                  else if a == 0xF4 then 0x80 ≤ b && b ≤ 0x8F else utf8Tail b) &&
                utf8Tail c && utf8Tail d && validUtf8 rest

def readName : Reader (List UInt8) := do
  let length ← readLebU32
  if length > 1024 then fail "Name length exceeds 1024 bytes"
  else do
    let bytes ← readBytes length
    if validUtf8 bytes then pure bytes else fail "Name is not valid UTF-8"

/-! ## What the readers return -/

@[simp] theorem bind_run {α β : Type} (read : Reader α) (next : α → Reader β) (c : Cursor) :
    (read >>= next) c = (read c >>= fun result => next result.1 result.2) := rfl

@[simp] theorem pure_run {α : Type} (value : α) (c : Cursor) :
    (pure value : Reader α) c = .ok (value, c) := rfl

@[simp] theorem fail_run {α : Type} (message : String) (c : Cursor) :
    (fail message : Reader α) c = .error message := rfl

theorem bind_run_eq_ok {α β : Type} {read : Reader α} {next : α → Reader β} {c c' : Cursor}
    {value : β} :
    (read >>= next) c = .ok (value, c') ↔
      ∃ middle c₁, read c = .ok (middle, c₁) ∧ next middle c₁ = .ok (value, c') := by
  rw [bind_run]
  cases read c with
  | error message =>
    constructor
    · intro h
      cases h
    · rintro ⟨_, _, h, _⟩
      cases h
  | ok result =>
    obtain ⟨middle, c₁⟩ := result
    constructor
    · intro h
      exact ⟨middle, c₁, rfl, h⟩
    · rintro ⟨_, _, h, h'⟩
      cases h
      exact h'

theorem readU8_eq_ok {c c' : Cursor} {byte : UInt8} :
    readU8 c = .ok (byte, c') ↔
      c.bytes[c.pos]? = some byte ∧ c' = { c with pos := c.pos + 1 } := by
  unfold readU8
  split
  case h_1 other here =>
    rw [here]
    constructor
    · intro h
      cases h
      exact ⟨rfl, rfl⟩
    · rintro ⟨same, rfl⟩
      cases same
      rfl
  case h_2 missing =>
    rw [missing]
    constructor
    · intro h
      cases h
    · rintro ⟨h, _⟩
      cases h

/-- The bytes that are left to read. -/
def Cursor.rest (c : Cursor) : List UInt8 := c.bytes.drop c.pos

def Cursor.advance (c : Cursor) (count : Nat) : Cursor := { c with pos := c.pos + count }

theorem Cursor.advance_add (c : Cursor) (m n : Nat) :
    (c.advance m).advance n = c.advance (m + n) := by
  simp [advance, Nat.add_assoc]

theorem Cursor.rest_cases (c : Cursor) :
    (c.rest = [] ∧ c.bytes[c.pos]? = none) ∨
      ∃ byte, c.bytes[c.pos]? = some byte ∧ c.rest = byte :: (c.advance 1).rest := by
  rcases here : c.bytes[c.pos]? with _ | byte
  · refine .inl ⟨?_, rfl⟩
    rw [List.getElem?_eq_none_iff] at here
    exact List.drop_eq_nil_of_le here
  · refine .inr ⟨byte, rfl, ?_⟩
    unfold rest advance
    rw [List.drop_eq_getElem?_toList_append, here]
    rfl

theorem readU8_run {c : Cursor} {byte : UInt8} (here : c.bytes[c.pos]? = some byte) :
    readU8 c = .ok (byte, c.advance 1) := readU8_eq_ok.mpr ⟨here, rfl⟩

theorem readU8_end {c : Cursor} (here : c.bytes[c.pos]? = none) :
    readU8 c = .error "Unexpected end of input" := by
  simp [readU8, here]

variable {number : BitVec 64}

/-- After the bytes `read`, the loop holds their value and the shift of the next byte. -/
theorem readLebU64Loop_eq_ok {count : Nat} (read : List UInt8) {c c' : Cursor} :
    readLebU64Loop count (value 64 read) (7 * read.length) c = .ok (number, c') ↔
      ∃ run, encoding count c.rest = some run ∧ number = value 64 (read ++ run) ∧
        c' = c.advance run.length := by
  induction count generalizing read c with
  | zero => simp [readLebU64Loop, encoding]
  | succ count ih =>
    rw [readLebU64Loop, bind_run]
    rcases c.rest_cases with ⟨empty, here⟩ | ⟨byte, here, split⟩
    · rw [readU8_end here, empty]
      simp [encoding, Bind.bind, Except.bind]
    · rw [readU8_run here, split]
      change (if continues byte then _ else _ : Reader (BitVec 64)) _ = _ ↔ _
      have shift : 7 * read.length + 7 = 7 * (read ++ [byte]).length := by simp; omega
      rw [← value_concat, shift]
      cases more : continues byte with
      | false =>
        rw [encoding_cons_of_last more]
        simp [eq_comm]
      | true =>
        rw [if_pos rfl, ih, exists_encoding_cons more]
        simp only [List.append_assoc, List.singleton_append, Cursor.advance_add, List.length_cons,
          Nat.add_comm 1]

theorem readLebU64_eq_ok {c c' : Cursor} :
    readLebU64 c = .ok (number, c') ↔
      ∃ run, encoding 10 c.rest = some run ∧ number = value 64 run ∧
        c' = c.advance run.length := readLebU64Loop_eq_ok []

theorem readLebU32_eq_ok {c c' : Cursor} {number : Nat} :
    readLebU32 c = .ok (number, c') ↔
      ∃ run, encoding 10 c.rest = some run ∧ (value 64 run).toNat < 2 ^ 32 ∧
        number = (value 64 run).toNat ∧ c' = c.advance run.length := by
  unfold readLebU32
  rw [bind_run_eq_ok]
  constructor
  · rintro ⟨wide, c₁, h₁, h₂⟩
    obtain ⟨run, found, rfl, rfl⟩ := readLebU64_eq_ok.mp h₁
    split at h₂
    · cases h₂
      exact ⟨run, found, ‹_›, rfl, rfl⟩
    · cases h₂
  · rintro ⟨run, found, small, rfl, rfl⟩
    refine ⟨_, _, readLebU64_eq_ok.mpr ⟨run, found, rfl, rfl⟩, ?_⟩
    rw [if_pos small]
    rfl

theorem readLebI64Loop_eq_ok {count : Nat} (read : List UInt8) {c c' : Cursor} :
    readLebI64Loop count (value 64 read) (7 * read.length) c = .ok (number, c') ↔
      ∃ run, encoding count c.rest = some run ∧ number = signedValue 64 (read ++ run) ∧
        c' = c.advance run.length := by
  induction count generalizing read c with
  | zero => simp [readLebI64Loop, encoding]
  | succ count ih =>
    rw [readLebI64Loop, bind_run]
    rcases c.rest_cases with ⟨empty, here⟩ | ⟨byte, here, split⟩
    · rw [readU8_end here, empty]
      simp [encoding, Bind.bind, Except.bind]
    · rw [readU8_run here, split]
      change (if continues byte then _ else _ : Reader (BitVec 64)) _ = _ ↔ _
      have shift : 7 * read.length + 7 = 7 * (read ++ [byte]).length := by simp; omega
      rw [← value_concat, shift]
      cases more : continues byte with
      | false =>
        rw [encoding_cons_of_last more, if_neg (by simp)]
        simp only [Option.some.injEq, exists_eq_left', signedValue_concat, List.length_singleton]
        split <;> simp [eq_comm]
      | true =>
        rw [if_pos rfl, ih, exists_encoding_cons more]
        simp only [List.append_assoc, List.singleton_append, Cursor.advance_add, List.length_cons,
          Nat.add_comm 1]

theorem readLebI64_eq_ok {c c' : Cursor} :
    readLebI64 c = .ok (number, c') ↔
      ∃ run, encoding 10 c.rest = some run ∧ number = signedValue 64 run ∧
        c' = c.advance run.length := readLebI64Loop_eq_ok []

theorem readLebI32_eq_ok {c c' : Cursor} {number : BitVec 32} :
    readLebI32 c = .ok (number, c') ↔
      ∃ run, encoding 10 c.rest = some run ∧
        (-2 ^ 31 ≤ (signedValue 64 run).toInt ∧ (signedValue 64 run).toInt < 2 ^ 31) ∧
        number = signedValue 32 run ∧ c' = c.advance run.length := by
  unfold readLebI32
  rw [bind_run_eq_ok]
  constructor
  · rintro ⟨wide, c₁, h₁, h₂⟩
    obtain ⟨run, found, rfl, rfl⟩ := readLebI64_eq_ok.mp h₁
    split at h₂
    case isTrue small =>
      rw [setWidth_signedValue (by omega)] at h₂
      cases h₂
      exact ⟨run, found, small, rfl, rfl⟩
    case isFalse => cases h₂
  · rintro ⟨run, found, small, rfl, rfl⟩
    refine ⟨_, _, readLebI64_eq_ok.mpr ⟨run, found, rfl, rfl⟩, ?_⟩
    rw [if_pos small, setWidth_signedValue (by omega)]
    rfl

end GhitaBrowser.Wasm

/-!
## Structural validation of a function body

`validate_code` walks the bytes of a body instruction by instruction. It keeps the
nesting depth and its maximum, reads the immediates of every opcode and throws
their values away. The model's `validateImmediate` returns what was read, so that
the other two decoders of the same format can be compared with this one.
-/

namespace GhitaBrowser.Wasm

inductive BlockType where
  | empty
  | value (byte : UInt8)
  | typeIndex (index : Nat)
deriving DecidableEq, Repr

inductive Immediate where
  | none
  | block (type : BlockType)
  | index (value : Nat)
  | brTable (labels : List Nat) (default : Nat)
  | callIndirect (typeIndex tableIndex : Nat)
  | selectTypes (types : List UInt8)
  | memarg (align offset : Nat)
  | reserved (byte : UInt8)
  | i32 (value : BitVec 32)
  | i64 (value : BitVec 64)
  | f32 (bytes : List UInt8)
  | f64 (bytes : List UInt8)
deriving DecidableEq, Repr

/-- Block type: `0x40`, a value type byte, or a type index LEB. -/
def validateBlockType : Reader BlockType := do
  let blockType ← peekU8
  if blockType.toNat = 0x40 then
    let _ ← readU8
    pure .empty
  else if 0x7C ≤ blockType.toNat ∧ blockType.toNat ≤ 0x7F then
    let _ ← readU8
    pure (.value blockType)
  else
    let index ← readLebU32
    pure (.typeIndex index)

def validateSelectType : Reader UInt8 := do
  let valueType ← readU8
  if 0x7C ≤ valueType.toNat ∧ valueType.toNat ≤ 0x7F then pure valueType
  else fail "select type vector must contain value types"

/-- The opcodes that open a block: `block`, `loop` and `if`. -/
def opensBlock (opcode : UInt8) : Prop := 0x02 ≤ opcode.toNat ∧ opcode.toNat ≤ 0x04

instance (opcode : UInt8) : Decidable (opensBlock opcode) :=
  inferInstanceAs (Decidable (_ ∧ _))

/-- The `match opcode` of `validate_code`, without its `0x0B` arm. -/
def validateImmediate (opcode : UInt8) : Reader Immediate :=
  let op := opcode.toNat
  if op = 0x02 ∨ op = 0x03 then do
    return .block (← validateBlockType)
  else if op = 0x04 then do
    return .block (← validateBlockType)
  else if op = 0x00 ∨ op = 0x01 then pure .none
  else if op = 0x05 then pure .none
  else if op = 0x0F then pure .none
  else if op = 0x1A ∨ op = 0x1B then pure .none
  else if op = 0x1C then do
    let count ← readLebU32
    if count > 4 then fail "select type vector budget exceeded"
    else return .selectTypes (← readMany validateSelectType count)
  else if op = 0x0C ∨ op = 0x0D then do
    return .index (← readLebU32)
  else if op = 0x0E then do
    let count ← readLebU32
    if count > 1024 then fail "br_table label budget exceeded"
    else
      let labels ← readMany readLebU32 count
      return .brTable labels (← readLebU32)
  else if op = 0x10 then do
    return .index (← readLebU32)
  else if op = 0x11 then do
    let typeIndex ← readLebU32
    let tableIndex ← readLebU32
    if tableIndex ≠ 0 then fail "call_indirect reserved table index must be zero"
    else return .callIndirect typeIndex tableIndex
  else if op = 0x12 ∨ op = 0x13 then do
    return .index (← readLebU32)
  else if 0x20 ≤ op ∧ op ≤ 0x24 then do
    return .index (← readLebU32)
  else if 0x28 ≤ op ∧ op ≤ 0x3E then do
    let align ← readLebU32
    return .memarg align (← readLebU32)
  else if op = 0x3F ∨ op = 0x40 then do
    let reserved ← readU8
    if reserved.toNat ≠ 0 then fail "memory instruction reserved byte must be zero"
    else return .reserved reserved
  else if op = 0x41 then do
    return .i32 (← readLebI32)
  else if op = 0x42 then do
    return .i64 (← readLebI64)
  else if op = 0x43 then do
    return .f32 (← readBytes 4)
  else if op = 0x44 then do
    return .f64 (← readBytes 8)
  else if 0x45 ≤ op ∧ op ≤ 0xC4 then pure .none
  else fail ("Unsupported opcode " ++ hexByte opcode)

/-- The nesting depth after an instruction other than the last `end`. -/
def depthAfter (opcode : UInt8) (depth : Nat) : Nat :=
  if opcode.toNat = 0x0B then depth - 1
  else if opensBlock opcode then depth + 1 else depth

/-- One turn of the loop of `validate_code`: `none` when the body is complete,
else the depth after the instruction. -/
def validateStep (depth : Nat) : Reader (Option Nat) := do
  if (← get).isEmpty then fail "Function body missing end opcode"
  else
    let opcode ← readU8
    if opcode.toNat = 0x0B then
      if depth = 0 then pure none else pure (some (depthAfter opcode depth))
    else
      let _ ← validateImmediate opcode
      pure (some (depthAfter opcode depth))

/-- The loop of `validate_code`. Every turn reads a byte, so `fuel` above the
number of bytes left is enough. -/
def validateLoop : Nat → Nat → Nat → Reader Nat
  | 0, _, _ => fail "fuel"
  | fuel + 1, depth, maxDepth => do
    match ← validateStep depth with
    | none => pure maxDepth
    | some depth => validateLoop fuel depth (max maxDepth depth)

def validateCode (code : List UInt8) : Except String Nat :=
  (validateLoop (code.length + 1) 0 0).run' (Cursor.new code)

end GhitaBrowser.Wasm
