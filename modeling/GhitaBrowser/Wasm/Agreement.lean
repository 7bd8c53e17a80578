import GhitaBrowser.Wasm.Decode

/-!
# When the three decoders agree

`validate_code`, `skip_immediates` and `exec_instruction` each read the same bytes.
`Plain` says of one instruction that its immediates are written in a form that all
three read alike; `decoders_agree_iff` shows that a body the validator accepts has
only plain instructions exactly when the decoders agree at every instruction
boundary and the two scanners find the `end` and `else` that the validator matched.
-/

namespace GhitaBrowser.Wasm

open Leb128
open Outcome (bind_eq_ok ok_bind)

/-! ## Instruction boundaries -/

/-- The validator reads `opcode` at `pc`, with these immediates, up to `next`. -/
def Validated (code : List UInt8) (pc : Nat) (opcode : UInt8) (immediate : Immediate)
    (next : Nat) : Prop :=
  code[pc]? = some opcode ∧
    if opcode.toNat = 0x0B then immediate = .none ∧ next = pc + 1
    else validateImmediate opcode ⟨code, pc + 1⟩ = .ok (immediate, ⟨code, next⟩)

/-- One turn of the validator's loop, from a boundary and its depth to the next. -/
def NextBoundary (code : List UInt8) (a b : Nat × Nat) : Prop :=
  validateStep a.2 ⟨code, a.1⟩ = .ok (some b.2, ⟨code, b.1⟩)

/-- The validator's loop reaches `pc` at `depth`. -/
def Boundary (code : List UInt8) (pc depth : Nat) : Prop :=
  Relation.ReflTransGen (NextBoundary code) (0, 0) (pc, depth)

/-- The `end` that closes the block open at `(pc, depth)`: the first one at that depth. -/
def MatchedEnd (code : List UInt8) (pc depth finish : Nat) : Prop :=
  Relation.ReflTransGen (fun a b => NextBoundary code a b ∧ depth ≤ b.2)
    (pc, depth) (finish, depth) ∧ code[finish]? = some 0x0B

/-- The first `else` or `end` at the depth of `(pc, depth)`. -/
def MatchedElse (code : List UInt8) (pc depth finish : Nat) : Prop :=
  Relation.ReflTransGen (fun a b => NextBoundary code a b ∧ depth ≤ b.2 ∧
      ¬(a.2 = depth ∧ code[a.1]? = some 0x05))
    (pc, depth) (finish, depth) ∧
  (code[finish]? = some 0x05 ∨ code[finish]? = some 0x0B)

/-! ## The property -/

/-- The three decoders read the instruction at `pc` alike. -/
def AgreeAt (code : List UInt8) (pc : Nat) : Prop :=
  ∀ opcode immediate next, Validated code pc opcode immediate next →
    skipImmediates code pc = .ok next ∧
      decodeImmediate code opcode (pc + 1) = .ok (immediate, next)

def DecodersAgree (code : List UInt8) : Prop :=
  ∀ pc depth, Boundary code pc depth → AgreeAt code pc

/-- `find_end` after a block opener or an `else`, and `find_else_or_end` after an `if`,
return what the validator matched. -/
def ScannersMatch (code : List UInt8) : Prop :=
  ∀ pc depth opcode immediate next, Boundary code pc depth →
    Validated code pc opcode immediate next →
    (opensBlock opcode ∨ opcode.toNat = 0x05 →
      ∃ finish, MatchedEnd code next (depthAfter opcode depth) finish ∧
        findEnd code next = .ok finish) ∧
    (opcode.toNat = 0x04 →
      ∃ finish, MatchedElse code next (depthAfter opcode depth) finish ∧
        findElseOrEnd code next = .ok (finish + 1))

/-! ## Plain instructions -/

inductive Layout where
  | none | block | index | brTable | callIndirect | selectTypes | memarg | reserved
  | i32 | i64 | f32 | f64
deriving DecidableEq, Repr

/-- The immediates that follow an opcode. -/
def layout (opcode : UInt8) : Layout :=
  let op := opcode.toNat
  if 0x02 ≤ op ∧ op ≤ 0x04 then .block
  else if op = 0x0E then .brTable
  else if op = 0x11 then .callIndirect
  else if op = 0x1C then .selectTypes
  else if op = 0x0C ∨ op = 0x0D ∨ op = 0x10 ∨ op = 0x12 ∨ op = 0x13 ∨ (0x20 ≤ op ∧ op ≤ 0x24)
    then .index
  else if 0x28 ≤ op ∧ op ≤ 0x3E then .memarg
  else if op = 0x3F ∨ op = 0x40 then .reserved
  else if op = 0x41 then .i32
  else if op = 0x42 then .i64
  else if op = 0x43 then .f32
  else if op = 0x44 then .f64
  else .none

/-- The bytes of the number at `pc`. -/
def numberAt (code : List UInt8) (pc : Nat) : List UInt8 :=
  (encoding 10 (code.drop pc)).getD []

def lengthAt (code : List UInt8) (pc : Nat) : Nat := (numberAt code pc).length

def u32At (code : List UInt8) (pc : Nat) : Nat := (value 64 (numberAt code pc)).toNat

/-- Each of the `count` numbers from `pc` on takes at most five bytes. -/
def ShortNumbers (code : List UInt8) : Nat → Nat → Prop
  | 0, _ => True
  | count + 1, pc => lengthAt code pc ≤ 5 ∧ ShortNumbers code count (pc + lengthAt code pc)

/-- A block type that all decoders read alike: one byte, or a type index that is written
in two to six bytes and equals its own first byte. -/
def PlainBlockType (code : List UInt8) (pc : Nat) : Prop :=
  ∀ first ∈ code[pc]?, singleByteBlockType first ∨
    (continues first ∧ lengthAt code pc ≤ 6 ∧
      u32At code pc = first.toNat)

/-- The immediates from `pc` on are written in a form that all decoders read alike. -/
def PlainImmediate (code : List UInt8) (pc : Nat) : Layout → Prop
  | .none | .reserved | .i64 | .f32 | .f64 => True
  | .block => PlainBlockType code pc
  | .index | .i32 => lengthAt code pc ≤ 5
  | .brTable => lengthAt code pc ≤ 3 ∧
      ShortNumbers code (u32At code pc + 1) (pc + lengthAt code pc)
  | .callIndirect => lengthAt code pc ≤ 5 ∧ lengthAt code (pc + lengthAt code pc) = 1
  | .selectTypes => False
  | .memarg => ShortNumbers code 2 pc

def Plain (code : List UInt8) (pc : Nat) : Prop :=
  ∀ opcode ∈ code[pc]?, PlainImmediate code (pc + 1) (layout opcode)

/-! ## The decoders, layout by layout -/

def Layout.Has (op : Nat) : Layout → Prop
  | .block => 0x02 ≤ op ∧ op ≤ 0x04
  | .brTable => op = 0x0E
  | .callIndirect => op = 0x11
  | .selectTypes => op = 0x1C
  | .index => op = 0x0C ∨ op = 0x0D ∨ op = 0x10 ∨ op = 0x12 ∨ op = 0x13 ∨
      (0x20 ≤ op ∧ op ≤ 0x24)
  | .memarg => 0x28 ≤ op ∧ op ≤ 0x3E
  | .reserved => op = 0x3F ∨ op = 0x40
  | .i32 => op = 0x41
  | .i64 => op = 0x42
  | .f32 => op = 0x43
  | .f64 => op = 0x44
  | .none => op ≤ 0x01 ∨ (0x05 ≤ op ∧ op ≤ 0x0B) ∨ op = 0x0F ∨ (0x14 ≤ op ∧ op ≤ 0x1B) ∨
      (0x1D ≤ op ∧ op ≤ 0x1F) ∨ (0x25 ≤ op ∧ op ≤ 0x27) ∨ 0x45 ≤ op

theorem layout_has (opcode : UInt8) : (layout opcode).Has opcode.toNat := by
  unfold layout
  dsimp only
  iterate 11 refine iteInduction (motive := (Layout.Has opcode.toNat ·)) id fun _ => ?_
  simp only [Layout.Has]
  omega

/-- The validator's arms, by layout; `.none` covers the opcodes without one as well. -/
def validateLayout (opcode : UInt8) : Layout → Reader Immediate
  | .block => do return .block (← validateBlockType)
  | .index => do return .index (← readLebU32)
  | .brTable => do
    let count ← readLebU32
    if count > 1024 then fail "br_table label budget exceeded"
    else
      let labels ← readMany readLebU32 count
      return .brTable labels (← readLebU32)
  | .callIndirect => do
    let typeIndex ← readLebU32
    let tableIndex ← readLebU32
    if tableIndex ≠ 0 then fail "call_indirect reserved table index must be zero"
    else return .callIndirect typeIndex tableIndex
  | .selectTypes => do
    let count ← readLebU32
    if count > 4 then fail "select type vector budget exceeded"
    else return .selectTypes (← readMany validateSelectType count)
  | .memarg => do
    let align ← readLebU32
    return .memarg align (← readLebU32)
  | .reserved => do
    let reserved ← readU8
    if reserved.toNat ≠ 0 then fail "memory instruction reserved byte must be zero"
    else return .reserved reserved
  | .i32 => do return .i32 (← readLebI32)
  | .i64 => do return .i64 (← readLebI64)
  | .f32 => do return .f32 (← readBytes 4)
  | .f64 => do return .f64 (← readBytes 8)
  | .none =>
    if opcode.toNat ≤ 0x01 ∨ opcode.toNat = 0x05 ∨ opcode.toNat = 0x0F ∨
      opcode.toNat = 0x1A ∨ opcode.toNat = 0x1B ∨
      (0x45 ≤ opcode.toNat ∧ opcode.toNat ≤ 0xC4) then pure .none
    else fail ("Unsupported opcode " ++ hexByte opcode)

theorem validateImmediate_eq (opcode : UInt8) :
    validateImmediate opcode = validateLayout opcode (layout opcode) := by
  have has := layout_has opcode
  unfold validateImmediate
  dsimp only
  cases h : layout opcode with
  | none =>
    rw [h, Layout.Has] at has
    obtain has | has | has | has | has | has :
        opcode.toNat ≤ 0x01 ∨ opcode.toNat = 0x05 ∨ opcode.toNat = 0x0F ∨
        (opcode.toNat = 0x1A ∨ opcode.toNat = 0x1B) ∨
        (0x45 ≤ opcode.toNat ∧ opcode.toNat ≤ 0xC4) ∨
        (1 < opcode.toNat ∧ opcode.toNat ≠ 0x05 ∧ opcode.toNat ≠ 0x0F ∧
          ¬(opcode.toNat = 0x1A ∨ opcode.toNat = 0x1B ∨
            (0x45 ≤ opcode.toNat ∧ opcode.toNat ≤ 0xC4))) := by omega
    all_goals simp (disch := omega) only [↓if_pos, ↓if_neg, validateLayout]
  | index =>
    rw [h, Layout.Has] at has
    rcases has with has | has | has | has | has | has <;>
      simp (disch := omega) only [↓if_pos, ↓if_neg, validateLayout]
  | block =>
    rw [h, Layout.Has] at has
    obtain has | has : opcode.toNat ≤ 0x03 ∨ opcode.toNat = 0x04 := by omega
    all_goals simp (disch := omega) only [↓if_pos, ↓if_neg, validateLayout]
  | _ =>
    rw [h, Layout.Has] at has
    simp (disch := omega) only [↓if_pos, ↓if_neg, validateLayout]

/-- The arms of `skip_immediates`, by layout. -/
def skipLayout (code : List UInt8) (cursor : Nat) : Layout → Outcome Nat
  | .block => do
    let blockType ← byteAt code cursor "Missing block type"
    if singleByteBlockType blockType then .ok (cursor + 1) else skipLeb code 5 (cursor + 1)
  | .index => skipLeb code 5 cursor
  | .brTable => do
    let (count, cursor) ← skipCount code "Truncated br_table" cursor
    skipLebs code (min count maxLabels + 1) cursor
  | .callIndirect | .memarg => skipLebs code 2 cursor
  | .selectTypes => do
    let (count, cursor) ← skipCount code "Truncated select_t" cursor
    .ok (cursor + min count 4)
  | .reserved => .ok (cursor + 1)
  | .i32 | .i64 => skipLeb code 10 cursor
  | .f32 => .ok (cursor + 4)
  | .f64 => .ok (cursor + 8)
  | .none => .ok cursor

variable {code : List UInt8}

theorem skipImmediates_eq {pc : Nat} {opcode : UInt8}
    (here : code[pc]? = some opcode) :
    skipImmediates code pc = skipLayout code (pc + 1) (layout opcode) := by
  have has := layout_has opcode
  have reads : byteAt code pc "Truncated instruction" = .ok opcode := by simp [byteAt, here]
  unfold skipImmediates opensBlock
  rw [reads, ok_bind]
  dsimp only
  cases h : layout opcode with
  | index =>
    rw [h, Layout.Has] at has
    obtain has | has : ((opcode.toNat = 0x0C ∨ opcode.toNat = 0x0D ∨ opcode.toNat = 0x10 ∨
        opcode.toNat = 0x12 ∨ opcode.toNat = 0x13) ∨
        (0x20 ≤ opcode.toNat ∧ opcode.toNat ≤ 0x24)) := by omega
    all_goals simp (disch := omega) only [↓if_pos, ↓if_neg, skipLayout]
  | _ =>
    rw [h, Layout.Has] at has
    simp (disch := omega) only [↓if_pos, ↓if_neg, skipLayout]

/-- The immediate reading of `exec_instruction`, by layout. -/
def decodeLayout (code : List UInt8) (opcode : UInt8) (pc : Nat) :
    Layout → Outcome (Immediate × Nat)
  | .block => do
    let (type, pc) ← execBlockType code pc
    .ok (.block type, pc)
  | .index => do
    let (index, pc) ← execLebU32 code pc
    .ok (.index index, pc)
  | .brTable => do
    let (count, pc) ← execLebU32 code pc
    if count > maxLabels then .err "br_table label budget exceeded"
    else
      let (labels, pc) ← execLabels code count pc
      let (defaultLabel, pc) ← execLebU32 code pc
      .ok (.brTable labels defaultLabel, pc)
  | .callIndirect => do
    let (typeIndex, pc) ← execLebU32 code pc
    let (reserved, pc) ← execReserved code pc "call_indirect reserved byte missing"
      "call_indirect reserved byte must be zero"
    .ok (.callIndirect typeIndex reserved.toNat, pc)
  | .memarg => do
    let (align, pc) ← execLebU32 code pc
    let (offset, pc) ← execLebU32 code pc
    .ok (.memarg align offset, pc)
  | .reserved => do
    let name := if opcode.toNat = 0x3F then "memory.size" else "memory.grow"
    let (reserved, pc) ← execReserved code pc (name ++ " reserved byte missing")
      (name ++ " reserved byte must be zero")
    .ok (.reserved reserved, pc)
  | .i32 => do
    let (value, pc) ← execLebI32 code pc
    .ok (.i32 value, pc)
  | .i64 => do
    let (value, pc) ← execLebI64 code pc
    .ok (.i64 value, pc)
  | .f32 => do
    let (bytes, pc) ← execBytes code pc 4 "f32.const missing bytes"
    .ok (.f32 bytes, pc)
  | .f64 => do
    let (bytes, pc) ← execBytes code pc 8 "f64.const missing bytes"
    .ok (.f64 bytes, pc)
  | .selectTypes | .none => .ok (.none, pc)

theorem decodeImmediate_eq (code : List UInt8) (opcode : UInt8) (pc : Nat) :
    decodeImmediate code opcode pc = decodeLayout code opcode pc (layout opcode) := by
  have has := layout_has opcode
  unfold decodeImmediate opensBlock
  dsimp only
  cases h : layout opcode with
  | index =>
    rw [h, Layout.Has] at has
    obtain has | has | has : (opcode.toNat = 0x0C ∨ opcode.toNat = 0x0D) ∨
        (opcode.toNat = 0x10 ∨ opcode.toNat = 0x12 ∨ opcode.toNat = 0x13) ∨
        (0x20 ≤ opcode.toNat ∧ opcode.toNat ≤ 0x24) := by omega
    all_goals
      simp (disch := omega) only [↓if_pos, ↓if_neg, decodeLayout]
  | reserved =>
    rw [h, Layout.Has] at has
    rcases has with has | has
    all_goals simp (disch := omega) only [↓if_pos, ↓if_neg, decodeLayout]
    all_goals rfl
  | _ =>
    rw [h, Layout.Has] at has
    simp (disch := omega) only [↓if_pos, ↓if_neg, decodeLayout]

/-! ## Numbers that the validator has read -/

/-- `read_leb_u32` of the validator succeeds at `pc`. -/
def U32At (code : List UInt8) (pc : Nat) : Prop :=
  encoding 10 (code.drop pc) = some (numberAt code pc) ∧ u32At code pc < 2 ^ 32

theorem numberAt_eq {pc : Nat} {run : List UInt8}
    (found : encoding 10 (code.drop pc) = some run) : numberAt code pc = run := by
  simp [numberAt, found]

theorem U32At.length_pos {pc : Nat} (h : U32At code pc) :
    0 < lengthAt code pc := (encoding_length h.1).1

variable {c : Cursor}

theorem readLebU32_at {pc number : Nat} :
    readLebU32 ⟨code, pc⟩ = .ok (number, c) ↔
      U32At code pc ∧ number = u32At code pc ∧ c = ⟨code, pc + lengthAt code pc⟩ := by
  rw [readLebU32_eq_ok]
  constructor
  · rintro ⟨run, found, small, rfl, rfl⟩
    have same : numberAt code pc = run := numberAt_eq found
    rw [U32At, u32At, lengthAt, same]
    exact ⟨⟨found, small⟩, rfl, rfl⟩
  · rintro ⟨⟨found, small⟩, rfl, rfl⟩
    exact ⟨_, found, small, rfl, rfl⟩

theorem execLebU32_at {pc number next : Nat} (h : U32At code pc) :
    execLebU32 code pc = .ok (number, next) ↔
      lengthAt code pc ≤ 5 ∧ number = u32At code pc ∧ next = pc + lengthAt code pc := by
  rw [execLebU32_eq_ok]
  have narrow : (value 32 (numberAt code pc)).toNat = u32At code pc :=
    toNat_value_of_lt (by decide) h.2
  constructor
  · rintro ⟨run, found, rfl, rfl⟩
    obtain ⟨rfl, short⟩ := (encoding_eq_some_iff h.1).mp found
    exact ⟨short, narrow, rfl⟩
  · rintro ⟨short, rfl, rfl⟩
    exact ⟨_, (encoding_eq_some_iff h.1).mpr ⟨rfl, short⟩, narrow.symm, rfl⟩

theorem skipLeb_at {pc max next : Nat} (h : U32At code pc) :
    skipLeb code max pc = .ok next ↔
      lengthAt code pc ≤ max ∧ next = pc + lengthAt code pc := by
  rw [skipLeb_eq_ok]
  constructor
  · rintro ⟨run, found, rfl⟩
    obtain ⟨rfl, short⟩ := (encoding_eq_some_iff h.1).mp found
    exact ⟨short, rfl⟩
  · rintro ⟨short, rfl⟩
    exact ⟨_, (encoding_eq_some_iff h.1).mpr ⟨rfl, short⟩, rfl⟩

/-- The validator reads `count` numbers from `pc` on. -/
def NumbersAt (code : List UInt8) : Nat → Nat → Prop
  | 0, _ => True
  | count + 1, pc => U32At code pc ∧ NumbersAt code count (pc + lengthAt code pc)

def numbersAt (code : List UInt8) : Nat → Nat → List Nat
  | 0, _ => []
  | count + 1, pc => u32At code pc :: numbersAt code count (pc + lengthAt code pc)

def numbersEnd (code : List UInt8) : Nat → Nat → Nat
  | 0, pc => pc
  | count + 1, pc => numbersEnd code count (pc + lengthAt code pc)

theorem numbersEnd_succ (code : List UInt8) (count pc : Nat) :
    numbersEnd code (count + 1) pc =
      numbersEnd code count pc + lengthAt code (numbersEnd code count pc) := by
  induction count generalizing pc with
  | zero => rfl
  | succ count ih =>
    rw [numbersEnd, ih]
    rfl

theorem shortNumbers_succ (code : List UInt8) (count pc : Nat) :
    ShortNumbers code (count + 1) pc ↔
      ShortNumbers code count pc ∧ lengthAt code (numbersEnd code count pc) ≤ 5 := by
  induction count generalizing pc with
  | zero => simp [ShortNumbers, numbersEnd]
  | succ count ih =>
    rw [ShortNumbers, ih, ShortNumbers, numbersEnd, and_assoc]

theorem numbersAt_succ (code : List UInt8) (count pc : Nat) :
    NumbersAt code (count + 1) pc ↔
      NumbersAt code count pc ∧ U32At code (numbersEnd code count pc) := by
  induction count generalizing pc with
  | zero => simp [NumbersAt, numbersEnd]
  | succ count ih =>
    rw [NumbersAt, ih, NumbersAt, numbersEnd, and_assoc]

theorem readMany_at {count pc : Nat} {labels : List Nat} :
    readMany readLebU32 count ⟨code, pc⟩ = .ok (labels, c) ↔
      NumbersAt code count pc ∧ labels = numbersAt code count pc ∧
        c = ⟨code, numbersEnd code count pc⟩ := by
  induction count generalizing pc labels c with
  | zero =>
    simp only [readMany, pure_run, NumbersAt, numbersAt, numbersEnd, true_and]
    constructor
    · intro h
      cases h
      exact ⟨rfl, rfl⟩
    · rintro ⟨rfl, rfl⟩
      rfl
  | succ count ih =>
    rw [readMany, bind_run_eq_ok, NumbersAt, numbersAt, numbersEnd]
    constructor
    · rintro ⟨head, c₁, first, rest⟩
      obtain ⟨isNumber, rfl, rfl⟩ := readLebU32_at.mp first
      obtain ⟨tail, c₂, rest, done⟩ := bind_run_eq_ok.mp rest
      obtain ⟨areNumbers, rfl, rfl⟩ := ih.mp rest
      cases done
      exact ⟨⟨isNumber, areNumbers⟩, rfl, rfl⟩
    · rintro ⟨⟨isNumber, areNumbers⟩, rfl, rfl⟩
      refine ⟨_, _, readLebU32_at.mpr ⟨isNumber, rfl, rfl⟩, ?_⟩
      exact bind_run_eq_ok.mpr ⟨_, _, ih.mpr ⟨areNumbers, rfl, rfl⟩, rfl⟩

theorem skipLebs_at {count pc next : Nat} (h : NumbersAt code count pc) :
    skipLebs code count pc = .ok next ↔
      ShortNumbers code count pc ∧ next = numbersEnd code count pc := by
  induction count generalizing pc with
  | zero => simp [skipLebs, ShortNumbers, numbersEnd, eq_comm]
  | succ count ih =>
    obtain ⟨isNumber, areNumbers⟩ := h
    rw [skipLebs, bind_eq_ok, ShortNumbers, numbersEnd]
    constructor
    · rintro ⟨middle, first, rest⟩
      obtain ⟨short, rfl⟩ := (skipLeb_at isNumber).mp first
      obtain ⟨shorts, rfl⟩ := (ih areNumbers).mp rest
      exact ⟨⟨short, shorts⟩, rfl⟩
    · rintro ⟨⟨short, shorts⟩, rfl⟩
      exact ⟨_, (skipLeb_at isNumber).mpr ⟨short, rfl⟩, (ih areNumbers).mpr ⟨shorts, rfl⟩⟩

theorem execLabels_at {count pc next : Nat} {labels : List Nat}
    (h : NumbersAt code count pc) :
    execLabels code count pc = .ok (labels, next) ↔
      ShortNumbers code count pc ∧ labels = numbersAt code count pc ∧
        next = numbersEnd code count pc := by
  induction count generalizing pc labels next with
  | zero =>
    simp only [execLabels, ShortNumbers, numbersAt, numbersEnd, true_and]
    constructor
    · intro h
      cases h
      exact ⟨rfl, rfl⟩
    · rintro ⟨rfl, rfl⟩
      rfl
  | succ count ih =>
    obtain ⟨isNumber, areNumbers⟩ := h
    rw [execLabels, bind_eq_ok, ShortNumbers, numbersAt, numbersEnd]
    constructor
    · rintro ⟨⟨label, middle⟩, first, rest⟩
      obtain ⟨short, rfl, rfl⟩ := (execLebU32_at isNumber).mp first
      obtain ⟨⟨labels', finish⟩, rest, done⟩ := bind_eq_ok.mp rest
      obtain ⟨shorts, rfl, rfl⟩ := (ih areNumbers).mp rest
      cases done
      exact ⟨⟨short, shorts⟩, rfl, rfl⟩
    · rintro ⟨⟨short, shorts⟩, rfl, rfl⟩
      refine ⟨(_, _), (execLebU32_at isNumber).mpr ⟨short, rfl, rfl⟩, ?_⟩
      exact bind_eq_ok.mpr ⟨(_, _), (ih areNumbers).mpr ⟨shorts, rfl, rfl⟩, rfl⟩

theorem skipCountLoop_at (truncated : String) (left : Nat) {max pc : Nat}
    (read : List UInt8) {run : List UInt8} (found : encoding max (code.drop pc) = some run)
    (small : 7 * read.length + 7 * left < 32 + 7) :
    skipCountLoop code truncated left (value 32 read) (7 * read.length) pc =
      .ok (value 32 (read ++ run.take left), pc + (run.take left).length) := by
  induction left generalizing max pc read run with
  | zero => simp [skipCountLoop]
  | succ left ih =>
    rw [skipCountLoop]
    rcases byteAt_cases code pc truncated with ⟨empty, _⟩ | ⟨byte, _, split, here⟩
    · rw [empty] at found
      cases max <;> simp [encoding] at found
    · have shift : 7 * read.length + 7 = 7 * (read ++ [byte]).length := by simp; omega
      rw [split] at found
      rw [here, ok_bind, placed_of_lt (by omega), ok_bind, ← value_concat, shift]
      rcases encoding_head found with ⟨last, rfl⟩ | ⟨more, tail, inRest, rfl⟩
      · simp [last]
      · simp only [more, if_true]
        rw [ih _ inRest (by simp at shift ⊢; omega), List.take_succ_cons, List.append_assoc,
          List.singleton_append, List.length_cons, Nat.add_right_comm, Nat.add_assoc]

theorem skipCount_at (truncated : String) {pc : Nat} (h : U32At code pc) :
    skipCount code truncated pc =
      .ok ((value 32 ((numberAt code pc).take 3)).toNat, pc + ((numberAt code pc).take 3).length) := by
  have loop := skipCountLoop_at truncated 3 [] h.1 (by simp)
  unfold skipCount
  rw [show (0 : BitVec 32) = value 32 [] from rfl, show 0 = 7 * ([] : List UInt8).length from rfl,
    loop]
  rfl

/-! ## Agreement, layout by layout -/

/-- Both decoders of the interpreter read the immediates at `pc` as the validator did. -/
def LayoutAgrees (code : List UInt8) (opcode : UInt8) (pc : Nat) (immediate : Immediate)
    (next : Nat) (layout : Layout) : Prop :=
  skipLayout code pc layout = .ok next ∧
    decodeLayout code opcode pc layout = .ok (immediate, next)

section Layouts

variable {code : List UInt8} {opcode : UInt8} {pc next : Nat} {immediate : Immediate}

theorem index_agrees_iff
    (validated : validateLayout opcode .index ⟨code, pc⟩ = .ok (immediate, ⟨code, next⟩)) :
    LayoutAgrees code opcode pc immediate next .index ↔ PlainImmediate code pc .index := by
  obtain ⟨value, c, read, done⟩ := bind_run_eq_ok.mp validated
  obtain ⟨isNumber, rfl, rfl⟩ := readLebU32_at.mp read
  cases done
  constructor
  · rintro ⟨skipped, _⟩
    exact ((skipLeb_at isNumber).mp skipped).1
  · intro short
    refine ⟨(skipLeb_at isNumber).mpr ⟨short, rfl⟩, ?_⟩
    exact bind_eq_ok.mpr ⟨(_, _), (execLebU32_at isNumber).mpr ⟨short, rfl, rfl⟩, rfl⟩

theorem memarg_agrees_iff
    (validated : validateLayout opcode .memarg ⟨code, pc⟩ = .ok (immediate, ⟨code, next⟩)) :
    LayoutAgrees code opcode pc immediate next .memarg ↔ PlainImmediate code pc .memarg := by
  obtain ⟨align, c, first, rest⟩ := bind_run_eq_ok.mp validated
  obtain ⟨isAlign, rfl, rfl⟩ := readLebU32_at.mp first
  obtain ⟨offset, c, second, done⟩ := bind_run_eq_ok.mp rest
  obtain ⟨isOffset, rfl, rfl⟩ := readLebU32_at.mp second
  cases done
  have numbers : NumbersAt code 2 pc := ⟨isAlign, isOffset, trivial⟩
  constructor
  · rintro ⟨skipped, _⟩
    exact ((skipLebs_at numbers).mp skipped).1
  · rintro ⟨short, short', _⟩
    refine ⟨(skipLebs_at numbers).mpr ⟨⟨short, short', trivial⟩, rfl⟩, ?_⟩
    refine bind_eq_ok.mpr ⟨(_, _), (execLebU32_at isAlign).mpr ⟨short, rfl, rfl⟩, ?_⟩
    exact bind_eq_ok.mpr ⟨(_, _), (execLebU32_at isOffset).mpr ⟨short', rfl, rfl⟩, rfl⟩

theorem i32_agrees_iff
    (validated : validateLayout opcode .i32 ⟨code, pc⟩ = .ok (immediate, ⟨code, next⟩)) :
    LayoutAgrees code opcode pc immediate next .i32 ↔ PlainImmediate code pc .i32 := by
  obtain ⟨number, c, read, done⟩ := bind_run_eq_ok.mp validated
  obtain ⟨run, found, _, rfl, rfl⟩ := readLebI32_eq_ok.mp read
  have same : numberAt code pc = run := numberAt_eq found
  cases done
  rw [PlainImmediate, lengthAt, same]
  constructor
  · rintro ⟨_, decoded⟩
    obtain ⟨⟨other, finish⟩, read, _⟩ := bind_eq_ok.mp decoded
    obtain ⟨run', found', _⟩ := execLebI32_eq_ok.mp read
    exact ((encoding_eq_some_iff found).mp found').2
  · intro short
    refine ⟨skipLeb_eq_ok.mpr ⟨run, found, rfl⟩, ?_⟩
    refine bind_eq_ok.mpr ⟨(signedValue 32 run, pc + run.length), ?_, rfl⟩
    exact execLebI32_eq_ok.mpr ⟨run, (encoding_eq_some_iff found).mpr ⟨rfl, short⟩, rfl, rfl⟩

theorem i64_agrees
    (validated : validateLayout opcode .i64 ⟨code, pc⟩ = .ok (immediate, ⟨code, next⟩)) :
    LayoutAgrees code opcode pc immediate next .i64 := by
  obtain ⟨number, c, read, done⟩ := bind_run_eq_ok.mp validated
  obtain ⟨run, found, rfl, rfl⟩ := readLebI64_eq_ok.mp read
  cases done
  refine ⟨skipLeb_eq_ok.mpr ⟨run, found, rfl⟩, ?_⟩
  refine bind_eq_ok.mpr ⟨(signedValue 64 run, pc + run.length), ?_, rfl⟩
  exact execLebI64_eq_ok.mpr ⟨run, found, rfl, rfl⟩

theorem readBytes_eq_ok {count : Nat} {bytes : List UInt8} {c' : Cursor} :
    readBytes count c = .ok (bytes, c') ↔
      count ≤ c.remaining ∧ bytes = (c.bytes.drop c.pos).take count ∧ c' = c.advance count := by
  unfold readBytes
  split
  · constructor
    · intro h
      cases h
    · rintro ⟨enough, _⟩
      omega
  · constructor
    · intro h
      cases h
      exact ⟨by omega, rfl, rfl⟩
    · rintro ⟨_, rfl, rfl⟩
      rfl

theorem execBytes_of_readBytes {count : Nat} {bytes : List UInt8} (inCode : pc ≤ code.length)
    (read : readBytes count ⟨code, pc⟩ = .ok (bytes, c)) (missing : String) :
    execBytes code pc count missing = .ok (bytes, pc + count) ∧ c = ⟨code, pc + count⟩ := by
  obtain ⟨enough, rfl, rfl⟩ := readBytes_eq_ok.mp read
  unfold Cursor.remaining at enough
  exact ⟨if_pos (by dsimp only at enough; omega), rfl⟩

theorem f32_agrees (inCode : pc ≤ code.length)
    (validated : validateLayout opcode .f32 ⟨code, pc⟩ = .ok (immediate, ⟨code, next⟩)) :
    LayoutAgrees code opcode pc immediate next .f32 := by
  obtain ⟨bytes, c, read, done⟩ := bind_run_eq_ok.mp validated
  obtain ⟨decoded, rfl⟩ := execBytes_of_readBytes inCode read "f32.const missing bytes"
  cases done
  exact ⟨rfl, bind_eq_ok.mpr ⟨_, decoded, rfl⟩⟩

theorem f64_agrees (inCode : pc ≤ code.length)
    (validated : validateLayout opcode .f64 ⟨code, pc⟩ = .ok (immediate, ⟨code, next⟩)) :
    LayoutAgrees code opcode pc immediate next .f64 := by
  obtain ⟨bytes, c, read, done⟩ := bind_run_eq_ok.mp validated
  obtain ⟨decoded, rfl⟩ := execBytes_of_readBytes inCode read "f64.const missing bytes"
  cases done
  exact ⟨rfl, bind_eq_ok.mpr ⟨_, decoded, rfl⟩⟩

theorem reserved_agrees
    (validated : validateLayout opcode .reserved ⟨code, pc⟩ = .ok (immediate, ⟨code, next⟩)) :
    LayoutAgrees code opcode pc immediate next .reserved := by
  obtain ⟨byte, c, read, done⟩ := bind_run_eq_ok.mp validated
  obtain ⟨here, rfl⟩ := readU8_eq_ok.mp read
  split at done
  · cases done
  case isFalse zero =>
    cases done
    refine ⟨rfl, bind_eq_ok.mpr ⟨(byte, pc + 1), ?_, rfl⟩⟩
    have present : ∀ message, byteAt code pc message = .ok byte := fun message => by
      unfold byteAt
      rw [show code[pc]? = some byte from here]
      rfl
    unfold execReserved
    rw [present, ok_bind, if_neg zero]

theorem none_agrees
    (validated : validateLayout opcode .none ⟨code, pc⟩ = .ok (immediate, ⟨code, next⟩)) :
    LayoutAgrees code opcode pc immediate next .none := by
  dsimp only [validateLayout] at validated
  split at validated
  · cases validated
    exact ⟨rfl, rfl⟩
  · cases validated

/-- The interpreter has no arm for `select` with types. -/
theorem selectTypes_disagrees
    (validated : validateLayout opcode .selectTypes ⟨code, pc⟩ = .ok (immediate, ⟨code, next⟩)) :
    ¬LayoutAgrees code opcode pc immediate next .selectTypes := by
  rintro ⟨_, decoded⟩
  obtain ⟨count, c, _, rest⟩ := bind_run_eq_ok.mp validated
  split at rest
  · cases rest
  · obtain ⟨types, c, _, done⟩ := bind_run_eq_ok.mp rest
    cases done
    cases decoded

/-- The reserved byte of `call_indirect` is read as a byte, not as a number. -/
theorem execReserved_at {finish : Nat} {reserved : UInt8} (isNumber : U32At code pc)
    (zero : u32At code pc = 0) (missing nonzero : String) :
    execReserved code pc missing nonzero = .ok (reserved, finish) ↔
      lengthAt code pc = 1 ∧ reserved = 0 ∧ finish = pc + 1 := by
  unfold execReserved
  obtain ⟨found, _⟩ := isNumber
  unfold lengthAt
  rcases byteAt_cases code pc missing with ⟨empty, _⟩ | ⟨byte, _, split, here⟩
  · rw [empty] at found
    simp [encoding] at found
  · rw [here, ok_bind]
    rw [split] at found
    rcases encoding_head found with ⟨last, one⟩ | ⟨more, tail, inRest, many⟩
    · have isZero : byte = 0 := by
        refine eq_zero_of_payload last ?_
        rw [← value_singleton, ← one]
        exact zero
      subst isZero
      rw [one]
      simp [eq_comm]
    · have nonzero' : byte.toNat ≠ 0 := by
        intro isZero
        have : byte = 0 := UInt8.toNat_inj.mp isZero
        subst this
        exact absurd more (by decide)
      have positive := (encoding_length inRest).1
      rw [if_pos nonzero', many, List.length_cons]
      constructor
      · intro h
        cases h
      · rintro ⟨one, _⟩
        omega

theorem callIndirect_agrees_iff
    (validated : validateLayout opcode .callIndirect ⟨code, pc⟩ = .ok (immediate, ⟨code, next⟩)) :
    LayoutAgrees code opcode pc immediate next .callIndirect ↔
      PlainImmediate code pc .callIndirect := by
  obtain ⟨typeIndex, c, first, rest⟩ := bind_run_eq_ok.mp validated
  obtain ⟨isType, rfl, rfl⟩ := readLebU32_at.mp first
  obtain ⟨tableIndex, c, second, done⟩ := bind_run_eq_ok.mp rest
  obtain ⟨isTable, rfl, rfl⟩ := readLebU32_at.mp second
  split at done
  · cases done
  case isFalse nonzero =>
    have zero : u32At code (pc + lengthAt code pc) = 0 := by simpa using nonzero
    cases done
    have numbers : NumbersAt code 2 pc := ⟨isType, isTable, trivial⟩
    constructor
    · rintro ⟨_, decoded⟩
      obtain ⟨⟨index, middle⟩, read, rest⟩ := bind_eq_ok.mp decoded
      obtain ⟨short, rfl, rfl⟩ := (execLebU32_at isType).mp read
      obtain ⟨⟨reserved, finish⟩, read, _⟩ := bind_eq_ok.mp rest
      exact ⟨short, ((execReserved_at isTable zero ..).mp read).1⟩
    · rintro ⟨short, one⟩
      refine ⟨(skipLebs_at numbers).mpr ⟨⟨short, by omega, trivial⟩, rfl⟩, ?_⟩
      refine bind_eq_ok.mpr ⟨(_, _), (execLebU32_at isType).mpr ⟨short, rfl, rfl⟩, ?_⟩
      refine bind_eq_ok.mpr
        ⟨(0, _), (execReserved_at isTable zero ..).mpr ⟨one, rfl, rfl⟩, ?_⟩
      rw [zero, one]
      rfl

theorem brTable_agrees_iff
    (validated : validateLayout opcode .brTable ⟨code, pc⟩ = .ok (immediate, ⟨code, next⟩)) :
    LayoutAgrees code opcode pc immediate next .brTable ↔ PlainImmediate code pc .brTable := by
  obtain ⟨count, c, first, rest⟩ := bind_run_eq_ok.mp validated
  obtain ⟨isCount, rfl, rfl⟩ := readLebU32_at.mp first
  split at rest
  · cases rest
  case isFalse inBudget =>
    obtain ⟨labels, c, second, rest⟩ := bind_run_eq_ok.mp rest
    obtain ⟨areLabels, rfl, rfl⟩ := readMany_at.mp second
    obtain ⟨defaultLabel, c, third, done⟩ := bind_run_eq_ok.mp rest
    obtain ⟨isDefault, rfl, rfl⟩ := readLebU32_at.mp third
    cases done
    have small : u32At code pc ≤ maxLabels := Nat.le_of_not_gt inBudget
    have numbers := (numbersAt_succ _ _ _).mpr ⟨areLabels, isDefault⟩
    rw [PlainImmediate]
    by_cases short : lengthAt code pc ≤ 3
    · have whole : (numberAt code pc).take 3 = numberAt code pc := List.take_of_length_le short
      have sameCount : (value 32 (numberAt code pc)).toNat = u32At code pc :=
        toNat_value_of_lt (by decide) isCount.2
      have counted := skipCount_at "Truncated br_table" isCount
      rw [whole, sameCount] at counted
      have skips : skipLayout code pc .brTable =
          skipLebs code (u32At code pc + 1) (pc + lengthAt code pc) := by
        rw [skipLayout, counted, ok_bind]
        dsimp only
        rw [Nat.min_eq_left small]
        rfl
      rw [LayoutAgrees, skips, skipLebs_at numbers, numbersEnd_succ]
      constructor
      · rintro ⟨⟨shorts, _⟩, _⟩
        exact ⟨short, shorts⟩
      · rintro ⟨_, shorts⟩
        refine ⟨⟨shorts, rfl⟩, ?_⟩
        obtain ⟨shortLabels, shortDefault⟩ := (shortNumbers_succ _ _ _).mp shorts
        refine bind_eq_ok.mpr
          ⟨(_, _), (execLebU32_at isCount).mpr ⟨by omega, rfl, rfl⟩, ?_⟩
        dsimp only
        rw [if_neg (Nat.not_lt.mpr small)]
        refine bind_eq_ok.mpr
          ⟨(_, _), (execLabels_at areLabels).mpr ⟨shortLabels, rfl, rfl⟩, ?_⟩
        exact bind_eq_ok.mpr
          ⟨(_, _), (execLebU32_at isDefault).mpr ⟨shortDefault, rfl, rfl⟩, rfl⟩
    · -- The scanner takes the rest of the count for the first label, so it stops one label
      -- before the end.
      refine iff_of_false ?_ fun plain => short plain.1
      rintro ⟨skipped, _⟩
      have low : (value 64 (numberAt code pc)).toNat < 2 ^ (7 * 3) := by
        have := Nat.lt_of_le_of_lt small (show maxLabels < 2 ^ (7 * 3) by decide)
        exact this
      have sameCount : (value 32 ((numberAt code pc).take 3)).toNat = u32At code pc := by
        rw [u32At, ← value_take_of_lt low]
        refine toNat_value_of_lt (by decide) ?_
        rw [value_take_of_lt low]
        exact isCount.2
      have three : ((numberAt code pc).take 3).length = 3 := by
        rw [List.length_take]
        unfold lengthAt at short
        omega
      have counted := skipCount_at "Truncated br_table" isCount
      rw [sameCount, three] at counted
      rw [skipLayout, counted, ok_bind] at skipped
      dsimp only at skipped
      rw [Nat.min_eq_left small] at skipped
      obtain ⟨middle, first', rest'⟩ := bind_eq_ok.mp skipped
      obtain ⟨run, found, rfl⟩ := skipLeb_eq_ok.mp first'
      have middleOf := encoding_drop 3 isCount.1 (by unfold lengthAt at short; omega)
      rw [List.drop_drop] at middleOf
      obtain rfl := encoding_unique found middleOf
      have here : pc + 3 + ((numberAt code pc).drop 3).length = pc + lengthAt code pc := by
        rw [List.length_drop]
        unfold lengthAt at short ⊢
        omega
      rw [here] at rest'
      obtain ⟨_, same⟩ := (skipLebs_at areLabels).mp rest'
      have := isDefault.length_pos
      omega

theorem validateBlockType_eq_ok {type : BlockType}
    (h : validateBlockType ⟨code, pc⟩ = .ok (type, c)) :
    ∃ first, code[pc]? = some first ∧
      ((singleByteBlockType first ∧ type = execBlockTypeOf first ∧ c = ⟨code, pc + 1⟩) ∨
        (¬singleByteBlockType first ∧ U32At code pc ∧ type = .typeIndex (u32At code pc) ∧
          c = ⟨code, pc + lengthAt code pc⟩)) := by
  obtain ⟨first, c₁, peeked, rest⟩ := bind_run_eq_ok.mp h
  unfold peekU8 at peeked
  dsimp only at peeked
  cases here : code[pc]? with
  | none => simp [here] at peeked
  | some byte =>
    rw [here] at peeked
    cases peeked
    have reads : readU8 ⟨code, pc⟩ = .ok (first, ⟨code, pc + 1⟩) := readU8_run here
    refine ⟨first, rfl, ?_⟩
    unfold singleByteBlockType execBlockTypeOf
    split at rest
    case isTrue empty =>
      rw [bind_run, reads] at rest
      cases rest
      exact .inl ⟨.inl empty, by rw [if_pos empty], rfl⟩
    case isFalse notEmpty =>
      split at rest
      case isTrue isValue =>
        rw [bind_run, reads] at rest
        cases rest
        exact .inl ⟨.inr isValue, by rw [if_neg notEmpty, if_pos isValue], rfl⟩
      case isFalse notValue =>
        obtain ⟨index, c₂, read, done⟩ := bind_run_eq_ok.mp rest
        obtain ⟨isNumber, rfl, rfl⟩ := readLebU32_at.mp read
        cases done
        refine .inr ⟨?_, isNumber, rfl, rfl⟩
        rintro (empty | isValue)
        · exact notEmpty empty
        · exact notValue isValue

theorem execBlockTypeOf_index {first : UInt8} (many : ¬singleByteBlockType first) :
    execBlockTypeOf first = .typeIndex first.toNat := by
  unfold execBlockTypeOf
  rw [if_neg fun empty => many (.inl empty), if_neg fun isValue => many (.inr isValue)]

theorem execBlockIndexLoop_at {run : List UInt8} {max finish : Nat}
    (found : encoding max (code.drop pc) = some run) :
    execBlockIndexLoop code (code.length + 1) 0 pc = .ok finish ↔
      run.length ≤ 5 ∧ finish = pc + run.length := by
  rcases execBlockIndexLoop_cases code (code.length + 1) 5 pc
    (Nat.le_refl 5) (by omega) with
    ⟨run', found', ends⟩ | ⟨none', _, message, ends⟩ | ⟨none', _, ends⟩
  all_goals simp only [Nat.reduceMul, Nat.sub_self] at ends
  · obtain ⟨rfl, short⟩ := (encoding_eq_some_iff found).mp found'
    rw [ends]
    constructor
    · intro h
      cases h
      exact ⟨short, rfl⟩
    · rintro ⟨_, rfl⟩
      rfl
  all_goals
    rw [ends]
    refine iff_of_false (by simp) fun ⟨short, _⟩ => ?_
    rw [encoding_of_length_le found short] at none'
    cases none'

theorem block_agrees_iff
    (validated : validateLayout opcode .block ⟨code, pc⟩ = .ok (immediate, ⟨code, next⟩)) :
    LayoutAgrees code opcode pc immediate next .block ↔ PlainImmediate code pc .block := by
  obtain ⟨type, c, read, done⟩ := bind_run_eq_ok.mp validated
  cases done
  obtain ⟨first, here, cases'⟩ := validateBlockType_eq_ok read
  have present : ∀ message, byteAt code pc message = .ok first := fun message => by
    simp [byteAt, here]
  have plain : PlainImmediate code pc .block ↔ singleByteBlockType first ∨
      (continues first ∧ lengthAt code pc ≤ 6 ∧ u32At code pc = first.toNat) := by
    rw [PlainImmediate, PlainBlockType, here]
    simp
  rw [plain, LayoutAgrees, skipLayout, decodeLayout, execBlockType, present,
    ok_bind, ok_bind]
  rcases cases' with ⟨single, rfl, same⟩ | ⟨many, isNumber, rfl, same⟩
  · cases same
    rw [if_pos single, if_pos single]
    exact iff_of_true ⟨rfl, rfl⟩ (.inl single)
  · cases same
    rw [if_neg many, if_neg many]
    have split : code.drop pc = first :: code.drop (pc + 1) := by
      rw [List.drop_eq_getElem?_toList_append, here]
      rfl
    have found := isNumber.1
    rw [split] at found
    rcases encoding_head found with ⟨last, one⟩ | ⟨more, tail, inRest, whole⟩
    · -- One byte in all: the interpreter reads a second number behind it.
      have length : lengthAt code pc = 1 := by rw [lengthAt, one]; rfl
      refine iff_of_false ?_ ?_
      · rintro ⟨skipped, _⟩
        have := skipLeb_advances skipped
        omega
      · rintro (single | ⟨more, _⟩)
        · exact many single
        · simp [last] at more
    · have length : lengthAt code pc = tail.length + 1 := by rw [lengthAt, whole]; rfl
      have next' : pc + lengthAt code pc = pc + 1 + tail.length := by omega
      constructor
      · rintro ⟨skipped, decoded⟩
        obtain ⟨⟨type, finish⟩, block, done⟩ := bind_eq_ok.mp decoded
        obtain ⟨finish', loop, typed⟩ := bind_eq_ok.mp block
        obtain ⟨short, rfl⟩ := (execBlockIndexLoop_at inRest).mp loop
        cases typed
        simp only [execBlockTypeOf_index many, Outcome.ok.injEq, Prod.mk.injEq,
          Immediate.block.injEq, BlockType.typeIndex.injEq] at done
        exact .inr ⟨more, by omega, done.1.symm⟩
      · rintro (single | ⟨_, short, index⟩)
        · exact absurd single many
        · refine ⟨skipLeb_eq_ok.mpr ⟨tail, ?_, next'⟩, ?_⟩
          · exact encoding_of_length_le inRest (by omega)
          · have loop : execBlockIndexLoop code (code.length + 1) 0 (pc + 1) =
                .ok (pc + 1 + tail.length) := (execBlockIndexLoop_at inRest).mpr ⟨by omega, rfl⟩
            rw [loop, ok_bind, ok_bind, execBlockTypeOf_index many, index, next']

end Layouts

theorem agreeAt_iff {pc next : Nat} {opcode : UInt8} {immediate : Immediate}
    (validated : Validated code pc opcode immediate next) :
    (skipImmediates code pc = .ok next ∧
      decodeImmediate code opcode (pc + 1) = .ok (immediate, next)) ↔ Plain code pc := by
  obtain ⟨here, read⟩ := validated
  have inCode : pc + 1 ≤ code.length := (List.getElem?_eq_some_iff.mp here).1
  have plain : Plain code pc ↔ PlainImmediate code (pc + 1) (layout opcode) := by
    simp [Plain, here]
  rw [plain, skipImmediates_eq here, decodeImmediate_eq]
  change LayoutAgrees code opcode (pc + 1) immediate next (layout opcode) ↔ _
  split at read
  case isTrue ends =>
    obtain ⟨rfl, rfl⟩ := read
    have none' : layout opcode = .none := by
      unfold layout
      simp [ends]
    rw [none']
    exact iff_of_true ⟨rfl, rfl⟩ trivial
  case isFalse =>
    rw [validateImmediate_eq] at read
    cases h : layout opcode with
    | none => exact iff_of_true (none_agrees (h ▸ read)) trivial
    | block => exact block_agrees_iff (h ▸ read)
    | index => exact index_agrees_iff (h ▸ read)
    | brTable => exact brTable_agrees_iff (h ▸ read)
    | callIndirect => exact callIndirect_agrees_iff (h ▸ read)
    | selectTypes => exact iff_of_false (selectTypes_disagrees (h ▸ read)) id
    | memarg => exact memarg_agrees_iff (h ▸ read)
    | reserved => exact iff_of_true (reserved_agrees (h ▸ read)) trivial
    | i32 => exact i32_agrees_iff (h ▸ read)
    | i64 => exact iff_of_true (i64_agrees (h ▸ read)) trivial
    | f32 => exact iff_of_true (f32_agrees inCode (h ▸ read)) trivial
    | f64 => exact iff_of_true (f64_agrees inCode (h ▸ read)) trivial

/-! ## A turn of the validator -/

/-- A reader leaves the bytes it reads from as they are. -/
def KeepsBytes {α : Type} (read : Reader α) : Prop :=
  ∀ c value c', read c = .ok (value, c') → c'.bytes = c.bytes

theorem keepsBytes_pure {α : Type} (value : α) : KeepsBytes (pure value : Reader α) := by
  rintro c _ _ ⟨⟩
  rfl

theorem keepsBytes_fail {α : Type} (message : String) :
    KeepsBytes (fail message : Reader α) := by
  rintro c _ _ ⟨⟩

theorem KeepsBytes.bind {α β : Type} {read : Reader α} {next : α → Reader β}
    (first : KeepsBytes read) (rest : ∀ value, KeepsBytes (next value)) :
    KeepsBytes (read >>= next) := by
  intro c value c' done
  obtain ⟨middle, c₁, h₁, h₂⟩ := bind_run_eq_ok.mp done
  exact (rest middle c₁ value c' h₂).trans (first c middle c₁ h₁)

theorem KeepsBytes.ite {α : Type} {p : Prop} [Decidable p] {a b : Reader α}
    (ha : KeepsBytes a) (hb : KeepsBytes b) : KeepsBytes (if p then a else b) := by
  split
  · exact ha
  · exact hb

theorem keepsBytes_readU8 : KeepsBytes readU8 := fun _ _ _ read => by
  obtain ⟨_, rfl⟩ := readU8_eq_ok.mp read
  rfl

theorem keepsBytes_readLebU32 : KeepsBytes readLebU32 := fun _ _ _ read => by
  obtain ⟨run, _, _, _, rfl⟩ := readLebU32_eq_ok.mp read
  rfl

theorem keepsBytes_readBytes (count : Nat) : KeepsBytes (readBytes count) := fun _ _ _ read => by
  obtain ⟨_, _, rfl⟩ := readBytes_eq_ok.mp read
  rfl

theorem keepsBytes_readMany {α : Type} {read : Reader α} (keeps : KeepsBytes read)
    (count : Nat) : KeepsBytes (readMany read count) := by
  induction count with
  | zero => exact keepsBytes_pure _
  | succ count ih => exact keeps.bind fun _ => ih.bind fun _ => keepsBytes_pure _

theorem keepsBytes_validateBlockType : KeepsBytes validateBlockType := by
  have peeks : KeepsBytes peekU8 := fun c _ _ read => by
    unfold peekU8 at read
    split at read
    · cases read
      rfl
    · cases read
  refine peeks.bind fun _ => .ite (keepsBytes_readU8.bind fun _ => keepsBytes_pure _) ?_
  refine .ite (keepsBytes_readU8.bind fun _ => keepsBytes_pure _) ?_
  exact keepsBytes_readLebU32.bind fun _ => keepsBytes_pure _

theorem keepsBytes_validateImmediate (opcode : UInt8) :
    KeepsBytes (validateImmediate opcode) := by
  have number := keepsBytes_readLebU32
  rw [validateImmediate_eq]
  cases layout opcode with
  | none => exact .ite (keepsBytes_pure _) (keepsBytes_fail _)
  | block => exact keepsBytes_validateBlockType.bind fun _ => keepsBytes_pure _
  | index => exact number.bind fun _ => keepsBytes_pure _
  | brTable =>
    refine number.bind fun _ => .ite (keepsBytes_fail _) ?_
    exact (keepsBytes_readMany number _).bind fun _ => number.bind fun _ => keepsBytes_pure _
  | callIndirect =>
    refine number.bind fun _ => number.bind fun _ => ?_
    exact .ite (keepsBytes_fail _) (keepsBytes_pure _)
  | selectTypes =>
    refine number.bind fun _ => .ite (keepsBytes_fail _) ?_
    refine (keepsBytes_readMany ?_ _).bind fun _ => keepsBytes_pure _
    exact keepsBytes_readU8.bind fun _ => .ite (keepsBytes_pure _) (keepsBytes_fail _)
  | memarg => exact number.bind fun _ => number.bind fun _ => keepsBytes_pure _
  | reserved =>
    exact keepsBytes_readU8.bind fun _ => .ite (keepsBytes_fail _) (keepsBytes_pure _)
  | i32 =>
    refine KeepsBytes.bind (fun _ _ _ read => ?_) fun _ => keepsBytes_pure _
    obtain ⟨run, _, _, _, rfl⟩ := readLebI32_eq_ok.mp read
    rfl
  | i64 =>
    refine KeepsBytes.bind (fun _ _ _ read => ?_) fun _ => keepsBytes_pure _
    obtain ⟨run, _, _, rfl⟩ := readLebI64_eq_ok.mp read
    rfl
  | f32 => exact (keepsBytes_readBytes 4).bind fun _ => keepsBytes_pure _
  | f64 => exact (keepsBytes_readBytes 8).bind fun _ => keepsBytes_pure _

/-- What one turn of the validator's loop has read. -/
theorem validateStep_eq_ok {pc depth : Nat} {result : Option Nat}
    (h : validateStep depth ⟨code, pc⟩ = .ok (result, c)) :
    ∃ opcode immediate next, Validated code pc opcode immediate next ∧ c = ⟨code, next⟩ ∧
      result = if opcode.toNat = 0x0B ∧ depth = 0 then none else some (depthAfter opcode depth) := by
  obtain ⟨c₀, c₁, got, rest⟩ := bind_run_eq_ok.mp h
  cases got
  split at rest
  · cases rest
  · obtain ⟨opcode, c₂, read, rest⟩ := bind_run_eq_ok.mp rest
    obtain ⟨here, rfl⟩ := readU8_eq_ok.mp read
    split at rest
    case isTrue ends =>
      refine ⟨opcode, .none, pc + 1, ⟨here, ?_⟩, ?_⟩
      · rw [if_pos ends]
        exact ⟨rfl, rfl⟩
      · split at rest
        case isTrue bottom =>
          cases rest
          exact ⟨rfl, (if_pos ⟨ends, bottom⟩).symm⟩
        case isFalse open' =>
          cases rest
          exact ⟨rfl, (if_neg fun both => open' both.2).symm⟩
    case isFalse notEnd =>
      obtain ⟨immediate, c₃, read, done⟩ := bind_run_eq_ok.mp rest
      have bytes := keepsBytes_validateImmediate opcode _ _ _ read
      obtain ⟨bytes₃, next⟩ := c₃
      cases bytes
      cases done
      refine ⟨opcode, immediate, next, ⟨here, ?_⟩, rfl, (if_neg fun both => notEnd both.1).symm⟩
      rw [if_neg notEnd]
      exact read

theorem Boundary.validates {maxDepth pc depth : Nat}
    (accepted : validateCode code = .ok maxDepth) (h : Boundary code pc depth) :
    ∃ fuel seen result, validateLoop fuel depth seen ⟨code, pc⟩ = .ok result := by
  unfold Boundary at h
  generalize at' : (pc, depth) = place at h
  induction h generalizing pc depth with
  | refl =>
    cases at'
    unfold validateCode StateT.run' at accepted
    cases run : validateLoop (code.length + 1) 0 0 ⟨code, 0⟩ with
    | error message =>
      rw [show Cursor.new code = ⟨code, 0⟩ from rfl, run] at accepted
      cases accepted
    | ok result => exact ⟨_, _, _, run⟩
  | @tail a b reach step ih =>
    obtain ⟨fuel, seen, result, run⟩ := @ih a.1 a.2 rfl
    cases at'
    cases fuel with
    | zero => cases run
    | succ fuel =>
      obtain ⟨next, c, turn, rest⟩ := bind_run_eq_ok.mp run
      rw [show validateStep a.2 ⟨code, a.1⟩ = _ from step] at turn
      cases turn
      exact ⟨fuel, _, _, rest⟩

/-! ## The scanners -/

theorem depthAfter_sub {opcode : UInt8} {depth low : Nat} (le : low ≤ depth)
    (stays : ¬(opcode.toNat = 0x0B ∧ depth = low)) :
    low ≤ depthAfter opcode depth ∧
      depthAfter opcode (depth - low) = depthAfter opcode depth - low := by
  unfold depthAfter
  by_cases ends : opcode.toNat = 0x0B
  · have deep : depth ≠ low := fun same => stays ⟨ends, same⟩
    rw [if_pos ends, if_pos ends]
    omega
  · rw [if_neg ends, if_neg ends]
    split <;> omega

/-- From a boundary a scanner stops where the validator is back in the block for the first
time at an opcode that stops it. -/
theorem Scans.matches {stops : UInt8 → Prop} [DecidablePred stops]
    {place : Nat → Nat} {scan : Nat → Nat → Nat → Outcome Nat} (scans : Scans code stops place scan)
    (ends : ∀ opcode : UInt8, opcode.toNat = 0x0B → stops opcode) (agree : DecodersAgree code)
    {fuel pc depth seen low : Nat} {result : Nat × Cursor}
    (run : validateLoop fuel depth seen ⟨code, pc⟩ = .ok result) (boundary : Boundary code pc depth)
    (le : low ≤ depth) (room : Nat) (enough : code.length - pc < room) :
    ∃ finish opcode, Relation.ReflTransGen (fun a b => NextBoundary code a b ∧ low ≤ b.2 ∧
          ¬(a.2 = low ∧ ∃ opcode, code[a.1]? = some opcode ∧ stops opcode)) (pc, depth) (finish, low) ∧
      code[finish]? = some opcode ∧ stops opcode ∧ scan room pc (depth - low) = .ok (place finish) := by
  induction fuel generalizing pc depth seen room with
  | zero => cases run
  | succ fuel ih =>
    obtain ⟨next, c, turn, rest⟩ := bind_run_eq_ok.mp run
    obtain ⟨opcode, immediate, after, validated, rfl, rfl⟩ := validateStep_eq_ok turn
    obtain ⟨room, rfl⟩ : ∃ n, room = n + 1 := ⟨room - 1, by omega⟩
    have here := validated.1
    rw [scans, here]
    dsimp only
    by_cases found : stops opcode ∧ depth = low
    · obtain ⟨stopped, rfl⟩ := found
      rw [Nat.sub_self, if_pos ⟨stopped, rfl⟩]
      exact ⟨pc, opcode, .refl, here, stopped, rfl⟩
    · obtain ⟨deep, same⟩ := depthAfter_sub le fun both => found ⟨ends _ both.1, both.2⟩
      have goesOn : ¬(opcode.toNat = 0x0B ∧ depth = 0) := fun both =>
        found ⟨ends _ both.1, Nat.le_antisymm (both.2 ▸ Nat.zero_le low) le⟩
      rw [if_neg goesOn] at turn rest
      have step : NextBoundary code (pc, depth) (after, depthAfter opcode depth) := turn
      have passed : ¬(depth = low ∧ ∃ opcode, code[pc]? = some opcode ∧ stops opcode) := by
        rintro ⟨level, other, isOther, stopped⟩
        rw [here] at isOther
        cases isOther
        exact found ⟨stopped, level⟩
      have skipped := (agree pc depth boundary _ _ _ validated).1
      have forward := skipImmediates_advances skipped
      have inCode := (List.getElem?_eq_some_iff.mp here).1
      obtain ⟨finish, last, walk, isLast, stopped, scanned⟩ :=
        ih rest (boundary.tail step) deep room (by omega)
      refine ⟨finish, last, .head ⟨step, deep, passed⟩ walk, isLast, stopped, ?_⟩
      rw [if_neg fun both => found ⟨both.1, by omega⟩, skipped, ok_bind, same]
      exact scanned

/-! ## The result -/

theorem decodersAgree_iff {maxDepth : Nat}
    (accepted : validateCode code = .ok maxDepth) :
    DecodersAgree code ↔ ∀ pc depth, Boundary code pc depth → Plain code pc := by
  constructor
  · intro agree pc depth boundary
    obtain ⟨fuel, seen, result, run⟩ := boundary.validates accepted
    cases fuel with
    | zero => cases run
    | succ fuel =>
      obtain ⟨next, c, turn, _⟩ := bind_run_eq_ok.mp run
      obtain ⟨opcode, immediate, after, validated, _⟩ := validateStep_eq_ok turn
      exact (agreeAt_iff validated).mp (agree pc depth boundary _ _ _ validated)
  · intro plain pc depth boundary opcode immediate next validated
    exact (agreeAt_iff validated).mpr (plain pc depth boundary)

theorem scannersMatch_of_agree {maxDepth : Nat}
    (accepted : validateCode code = .ok maxDepth) (agree : DecodersAgree code) :
    ScannersMatch code := by
  intro pc depth opcode immediate next boundary validated
  have afterwards : opensBlock opcode ∨ opcode.toNat = 0x05 →
      Boundary code next (depthAfter opcode depth) := fun kind => by
    obtain ⟨fuel, seen, result, run⟩ := boundary.validates accepted
    cases fuel with
    | zero => cases run
    | succ fuel =>
      obtain ⟨result, c, turn, _⟩ := bind_run_eq_ok.mp run
      obtain ⟨opcode', immediate', next', validated', rfl, rfl⟩ := validateStep_eq_ok turn
      have sameOpcode : opcode' = opcode :=
        Option.some.inj (validated'.1.symm.trans validated.1)
      subst sameOpcode
      have skipped := (agree pc depth boundary _ _ _ validated).1
      have skipped' := (agree pc depth boundary _ _ _ validated').1
      rw [skipped] at skipped'
      cases skipped'
      have notEnd : ¬(opcode'.toNat = 0x0B ∧ depth = 0) := by
        unfold opensBlock at kind
        omega
      rw [if_neg notEnd] at turn
      exact boundary.tail turn
  constructor
  · intro kind
    obtain ⟨fuel, seen, result, run⟩ := (afterwards kind).validates accepted
    obtain ⟨finish, last, walk, here, isEnd, scanned⟩ := (findEndLoop_scans code).matches
      (fun _ => id) agree run (afterwards kind) (Nat.le_refl _) (code.length + 1) (by omega)
    obtain rfl : last = 0x0B := UInt8.toNat_inj.mp isEnd
    rw [Nat.sub_self] at scanned
    exact ⟨finish, ⟨Relation.ReflTransGen.mono (fun _ _ step => ⟨step.1, step.2.1⟩) _ _ walk, here⟩,
      scanned⟩
  · intro isIf
    have kind : opensBlock opcode ∨ opcode.toNat = 0x05 := by
      unfold opensBlock
      omega
    obtain ⟨fuel, seen, result, run⟩ := (afterwards kind).validates accepted
    obtain ⟨finish, last, walk, here, stopped, scanned⟩ := (findElseOrEndLoop_scans code).matches
      (fun _ => .inr) agree run (afterwards kind) (Nat.le_refl _) (code.length + 1) (by omega)
    rw [Nat.sub_self] at scanned
    refine ⟨finish, ⟨Relation.ReflTransGen.mono (fun _ _ step => ⟨step.1, step.2.1, fun both =>
      step.2.2 ⟨both.1, 0x05, both.2, .inl rfl⟩⟩) _ _ walk, stopped.imp ?_ ?_⟩, scanned⟩
    · exact fun isElse => here.trans (congrArg some (UInt8.toNat_inj.mp isElse))
    · exact fun isEnd => here.trans (congrArg some (UInt8.toNat_inj.mp isEnd))

/-- In a validated body the three decoders read every instruction alike exactly when each is
plain: written in a way that all of them know. -/
theorem decoders_agree_iff {maxDepth : Nat}
    (accepted : validateCode code = .ok maxDepth) :
    (DecodersAgree code ∧ ScannersMatch code) ↔
      ∀ pc depth, Boundary code pc depth → Plain code pc := by
  rw [← decodersAgree_iff accepted]
  exact ⟨fun both => both.1, fun agree => ⟨agree, scannersMatch_of_agree accepted agree⟩⟩

/-- `block; end; end` with the type of the block given as type index 0. -/
def indexedBlock : List UInt8 := [0x02, 0x00, 0x0B, 0x0B]

theorem decoders_agree_iff_indexedBlock :
    (DecodersAgree indexedBlock ∧ ScannersMatch indexedBlock) ↔
      ∀ pc depth, Boundary indexedBlock pc depth → Plain indexedBlock pc :=
  decoders_agree_iff (show validateCode indexedBlock = .ok 1 by decide)

/-- The scanners skip the `end` of the block. -/
theorem decoders_disagree : validateCode indexedBlock = .ok 1 ∧
    ¬(DecodersAgree indexedBlock ∧ ScannersMatch indexedBlock) ∧
    findEnd indexedBlock 2 = .ok 2 ∧ skipImmediates indexedBlock 0 = .ok 3 := by
  refine ⟨by decide, ?_, by decide, by decide⟩
  rintro ⟨agree, _⟩
  have validated : Validated indexedBlock 0 0x02 (.block (.typeIndex 0)) 2 :=
    ⟨rfl, by decide⟩
  have skipped := (agree 0 0 .refl _ _ _ validated).1
  exact absurd skipped (by decide)

end GhitaBrowser.Wasm
