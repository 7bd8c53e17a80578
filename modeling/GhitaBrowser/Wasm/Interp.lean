import GhitaBrowser.Wasm.Parse
import GhitaBrowser.Wasm.Decode
import GhitaBrowser.Wasm.Numeric

/-!
# Instances and instructions

The state of `wasm_interp.rs` and what one instruction does to it. A frame keeps its
operand stack and its control stack with the top first; `splitOff` and `sliceFrom`
take their positions from the bottom, as the source's vectors do, and panic where
`Vec::split_off` and slicing do.

`usize` is 64 bits wide. Sums of a memory address and an `u32` offset stay below
2^64, so the `checked_add` of the source never fails on them.
-/

namespace GhitaBrowser.Wasm

open Outcome (err_returns ok_returns)

def maxInterpreterSteps : Nat := 1000000
def maxMemoryBytes : Nat := 16 * 1024 * 1024
def maxCallDepthWasm : Nat := 256
def maxStackValues : Nat := 10000
def pageSize : Nat := 65536

inductive ControlKind where
  | block | loop | if
deriving DecidableEq, Repr

structure ControlFrame where
  kind : ControlKind
  elsePc : Nat
  endPc : Nat
  /-- Operand stack height at block entry. -/
  stackHeight : Nat
  resultCount : Nat
deriving DecidableEq, Repr

structure Frame where
  functionIndex : Nat
  pc : Nat
  locals : List WasmValue
  stack : OperandStack
  controls : List ControlFrame
  /-- Operand stack height at function entry. -/
  stackHeight : Nat
  steps : Nat
deriving DecidableEq, Repr

structure WasmInstance where
  module : WasmModule
  globals : List WasmValue
  memory : List UInt8
  table : List (Option Nat)
deriving DecidableEq, Repr

/-! ## Vectors with their top first -/

/-- `stack.split_off(at)`: what lies above, bottom first, and what stays. -/
def splitOff (stack : OperandStack) (position : Nat) :
    Outcome (List WasmValue × OperandStack) :=
  if position ≤ stack.length then
    .ok ((stack.take (stack.length - position)).reverse, stack.drop (stack.length - position))
  else .panic

/-- `stack[from..].to_vec()`, bottom first. -/
def sliceFrom (stack : OperandStack) (position : Nat) : Outcome (List WasmValue) :=
  if position ≤ stack.length then .ok (stack.take (stack.length - position)).reverse
  else .panic

/-- `stack.truncate(length)`. -/
def truncate {α : Type} (stack : List α) (length : Nat) : List α :=
  stack.drop (stack.length - length)

/-- `stack.extend(values)`. -/
def extend (stack : OperandStack) (values : List WasmValue) : OperandStack :=
  values.reverse ++ stack

/-! ## The instance -/

namespace WasmInstance

variable (self : WasmInstance)

def writeMemory (offset : Nat) (bytes : List UInt8) : Outcome WasmInstance :=
  let finish := offset + bytes.length
  if finish ≥ 2 ^ 64 then .err "Memory write offset overflow"
  else if finish > self.memory.length ∨ self.memory.length > maxMemoryBytes then
    .err "Memory write out of bounds"
  else .ok { self with memory := self.memory.take offset ++ bytes ++ self.memory.drop finish }

def growMemory (deltaPages : Nat) : Outcome (Nat × WasmInstance) :=
  let oldPages := self.memory.length / pageSize
  let newLen := self.memory.length + deltaPages * pageSize
  if newLen > maxMemoryBytes then .err "Memory growth exceeds 16 MiB"
  else
    let grown := self.memory ++ List.replicate (deltaPages * pageSize) 0
    .ok (oldPages, { self with memory := grown })

def importedFunctionCount : Nat := (self.module.imports.filter Import.isFunction).length

def definedBodyIndex (functionIndex : Nat) : Option Nat :=
  if functionIndex < self.importedFunctionCount then none
  else some (functionIndex - self.importedFunctionCount)

/-- The type index of each function import, in order. -/
def importedTypeIndices : List Nat :=
  self.module.imports.filterMap fun entry =>
    match entry.kind with
    | .function typeIndex => some typeIndex
    | _ => none

def functionType (functionIndex : Nat) : Option FuncType := do
  if functionIndex < self.importedFunctionCount then
    let typeIndex ← self.importedTypeIndices[functionIndex]?
    self.module.types[typeIndex]?
  else
    let typeIndex ←
      self.module.functionTypeIndices[functionIndex - self.importedFunctionCount]?
    self.module.types[typeIndex]?

/-- The loop of `eval_const_expr`. Every turn reads a byte. -/
def evalConstExprLoop : Nat → Option WasmValue → Reader WasmValue
  | 0, _ => fail "fuel"
  | fuel + 1, value => do
    let done : Reader WasmValue :=
      match value with
      | some value => pure value
      | none => fail "Constant expression produced no value"
    if (← get).isEmpty then done
    else
      let opcode ← readU8
      match opcode.toNat with
      | 0x41 => do evalConstExprLoop fuel (some (.i32 (← readLebI32)))
      | 0x42 => do evalConstExprLoop fuel (some (.i64 (← readLebI64)))
      | 0x43 => do
        let bytes ← readBytes 4
        evalConstExprLoop fuel (some (.f32 (littleEndian 32 bytes)))
      | 0x44 => do
        let bytes ← readBytes 8
        evalConstExprLoop fuel (some (.f64 (littleEndian 64 bytes)))
      | 0x23 => do
        let index ← readLebU32
        match self.globals[index]? with
        | some value => evalConstExprLoop fuel (some value)
        | none => fail "Global index out of range"
      | 0x0B => done
      | _ => fail ("Unsupported const opcode " ++ hexByte opcode)

def evalConstExpr (expr : List UInt8) : Except String WasmValue :=
  (evalConstExprLoop self (expr.length + 1) none).run' (Cursor.new expr)

def initGlobals : List Global → WasmInstance → Except String WasmInstance
  | [], self => pure self
  | global :: rest, self => do
    let value ← self.evalConstExpr global.init
    initGlobals rest { self with globals := self.globals ++ [value] }

/-- A segment offset: a non-negative i32. -/
def segmentBase (message : String) : WasmValue → Except String Nat
  | .i32 value => if value.msb then .error message else pure value.toNat
  | _ => .error message

/-- `table[base + offset] = Some(function_index)` for each entry of a segment. -/
def writeElements : List Nat → Nat → WasmInstance → Except String WasmInstance
  | [], _, self => pure self
  | functionIndex :: rest, slot, self =>
    if functionIndex ≥ self.module.totalFunctions then
      .error "Element function index out of range"
    else if slot ≥ self.table.length then .error "Element segment exceeds table size"
    else writeElements rest (slot + 1)
      { self with table := self.table.set slot (some functionIndex) }

def initElements : List ElementSegment → WasmInstance → Except String WasmInstance
  | [], self => pure self
  | segment :: rest, self => do
    let value ← self.evalConstExpr segment.offset
    let base ← segmentBase "Element offset must be a non-negative i32" value
    initElements rest (← writeElements segment.functionIndices base self)

def initData : List DataSegment → WasmInstance → Except String WasmInstance
  | [], self => pure self
  | segment :: rest, self => do
    let value ← self.evalConstExpr segment.offset
    let base ← segmentBase "Data offset must be a non-negative i32" value
    let finish := base + segment.bytes.length
    if finish > self.memory.length then .error "Data segment exceeds memory"
    else
      let memory := self.memory.take base ++ segment.bytes ++ self.memory.drop finish
      initData rest { self with memory := memory }

def instantiate (module : WasmModule) : Except String WasmInstance := do
  let pages := (module.memories.head?.map (·.limits.min)).getD 0
  let bytes := pages * pageSize
  if bytes ≥ 2 ^ 64 then .error "Memory size overflow"
  else if bytes > maxMemoryBytes then .error "Memory exceeds 16 MiB"
  else
    let entries := (module.tables.head?.map (·.limits.min)).getD 0
    if entries > maxTableEntries then .error "Table exceeds budget"
    else
      let self : WasmInstance :=
        ⟨module, [], List.replicate bytes 0, List.replicate entries none⟩
      let self ← initGlobals module.globals self
      let self ← initElements module.elements self
      initData module.data self

/-! ## Memory instructions -/

/-- The bytes `[address, address + size)` of the memory. -/
def memoryRange (address size : Nat) : Outcome (List UInt8) :=
  if address + size ≤ self.memory.length then .ok ((self.memory.drop address).take size)
  else .err "memory access out of range"

def memoryLoad (address : Nat) (opcode : UInt8) : Outcome WasmValue :=
  let read (size : Nat) : Outcome (BitVec 64) := do
    let bytes ← self.memoryRange address size
    .ok (littleEndian 64 bytes)
  match opcode.toNat with
  | 0x28 => do return .i32 ((← read 4).setWidth 32)
  | 0x29 => do return .i64 (← read 8)
  | 0x2A => do return .f32 ((← read 4).setWidth 32)
  | 0x2B => do return .f64 (← read 8)
  | 0x2C => do return .i32 (((← read 1).setWidth 8).signExtend 32)
  | 0x2D => do return .i32 (((← read 1).setWidth 8).setWidth 32)
  | 0x2E => do return .i32 (((← read 2).setWidth 16).signExtend 32)
  | 0x2F => do return .i32 (((← read 2).setWidth 16).setWidth 32)
  | 0x30 => do return .i64 (((← read 1).setWidth 8).signExtend 64)
  | 0x31 => do return .i64 (((← read 1).setWidth 8).setWidth 64)
  | 0x32 => do return .i64 (((← read 2).setWidth 16).signExtend 64)
  | 0x33 => do return .i64 (((← read 2).setWidth 16).setWidth 64)
  | 0x34 => do return .i64 (((← read 4).setWidth 32).signExtend 64)
  | 0x35 => do return .i64 (((← read 4).setWidth 32).setWidth 64)
  | _ => .err ("Unknown load opcode " ++ hexByte opcode)

/-- The bytes a store writes, when the value fits the opcode. -/
def storedBytes (opcode : UInt8) (value : WasmValue) : Outcome (List UInt8) :=
  match opcode.toNat, value with
  | 0x36, .i32 v => .ok (toLittleEndian 4 v)
  | 0x37, .i64 v => .ok (toLittleEndian 8 v)
  | 0x38, .f32 v => .ok (toLittleEndian 4 v)
  | 0x39, .f64 v => .ok (toLittleEndian 8 v)
  | 0x3A, .i32 v => .ok (toLittleEndian 1 v)
  | 0x3B, .i32 v => .ok (toLittleEndian 2 v)
  | 0x3C, .i64 v => .ok (toLittleEndian 1 v)
  | 0x3D, .i64 v => .ok (toLittleEndian 2 v)
  | 0x3E, .i64 v => .ok (toLittleEndian 4 v)
  | _, _ => .err ("Store opcode " ++ hexByte opcode ++ " with incompatible value " ++ value.debug)

def memoryStore (address : Nat) (opcode : UInt8) (value : WasmValue) : Outcome WasmInstance := do
  let bytes ← storedBytes opcode value
  let finish := address + bytes.length
  if finish ≤ self.memory.length then
    .ok { self with memory := self.memory.take address ++ bytes ++ self.memory.drop finish }
  else .err "memory access out of range"

/-- `memory.grow`: the old size in pages, or -1 when the memory may not grow. -/
def grow (delta : BitVec 32) : BitVec 32 × WasmInstance :=
  let newBytes := self.memory.length + delta.toNat * pageSize
  if delta.msb ∨ newBytes > maxMemoryBytes then (-1, self)
  else
    let memory := self.memory ++ List.replicate (delta.toNat * pageSize) 0
    (BitVec.ofNat 32 (self.memory.length / pageSize), { self with memory := memory })

end WasmInstance

/-! ## One instruction -/

inductive Action where
  | continue
  | branch (label : Nat)
  | call (index : Nat)
  | callIndirect (typeIndex : Nat)
  | return
deriving DecidableEq, Repr

/-- `stack.pop().ok_or_else(..)`. -/
def pop (missing : String) : OperandStack → Outcome (WasmValue × OperandStack)
  | [] => .err missing
  | value :: stack => .ok (value, stack)

/-- Pop a value and require it to be an i32. -/
def popCondition (missing wrongType : String) (stack : OperandStack) :
    Outcome (BitVec 32 × OperandStack) := do
  match ← pop missing stack with
  | (.i32 value, stack) => .ok (value, stack)
  | _ => .err wrongType

def sameType : WasmValue → WasmValue → Bool
  | .i32 _, .i32 _ | .i64 _, .i64 _ | .f32 _, .f32 _ | .f64 _, .f64 _ => true
  | _, _ => false

def effectiveAddress (stack : OperandStack) (offset : Nat) : Outcome (Nat × OperandStack) := do
  let (base, stack) ← popCondition "memory access missing address" "memory address must be i32"
    stack
  if base.msb then .err "negative memory address" else .ok (base.toNat + offset, stack)

def blockResultCount (self : WasmInstance) : BlockType → Outcome Nat
  | .empty => .ok 0
  | .value _ => .ok 1
  | .typeIndex index =>
    match self.module.types[index]? with
    | some type => .ok (min type.results.length 1)
    | none => .err "Block type index out of range"

def controlKindOf (opcode : UInt8) : ControlKind :=
  if opcode.toNat = 0x02 then .block else if opcode.toNat = 0x03 then .loop else .if

/-- `block`, `loop` and `if`, after their block type. -/
def openBlock (self : WasmInstance) (opcode : UInt8) (code : List UInt8) (type : BlockType)
    (frame : Frame) : Outcome Frame := do
  let kind := controlKindOf opcode
  let resultCount ← blockResultCount self type
  let enter (frame : Frame) : Outcome Frame := do
    let endPc ← findEnd code frame.pc
    let control : ControlFrame := ⟨kind, frame.pc, endPc, frame.stack.length, resultCount⟩
    .ok { frame with controls := control :: frame.controls }
  if kind = .if then
    let (condition, stack) ← popCondition "if missing condition" "if condition must be i32"
      frame.stack
    let frame := { frame with stack := stack }
    if condition = 0 then
      let elsePc ← findElseOrEnd code frame.pc
      let endPc ← findEnd code frame.pc
      let control : ControlFrame := ⟨kind, elsePc, endPc, frame.stack.length, resultCount⟩
      .ok { frame with
        pc := if elsePc < endPc then elsePc else endPc
        controls := control :: frame.controls }
    else enter frame
  else enter frame

/-- An arm of `exec_instruction` after its immediates: the frame's `pc` is past them. -/
def execImmediate (self : WasmInstance) (opcode : UInt8) (code : List UInt8)
    (immediate : Immediate) (frame : Frame) : Outcome (Action × WasmInstance × Frame) :=
  let op := opcode.toNat
  let put (stack : OperandStack) : Outcome (Action × WasmInstance × Frame) :=
    .ok (.continue, self, { frame with stack := stack })
  match immediate with
  | .block type => do
    let frame ← openBlock self opcode code type frame
    .ok (.continue, self, frame)
  | .brTable labels defaultLabel => do
    let (index, stack) ← popCondition "br_table missing index" "br_table index must be i32"
      frame.stack
    -- A negative index is above every label when read unsigned.
    let label := (labels[index.toNat]?).getD defaultLabel
    .ok (.branch label, self, { frame with stack := stack })
  | .callIndirect typeIndex _ => .ok (.callIndirect typeIndex, self, frame)
  | .selectTypes _ => .err ("Unsupported opcode " ++ hexByte opcode)
  | .memarg _ offset =>
    if op ≤ 0x35 then do
      let (address, stack) ← effectiveAddress frame.stack offset
      let value ← self.memoryLoad address opcode
      put (value :: stack)
    else do
      let (value, stack) ← pop "store on empty stack" frame.stack
      let (address, stack) ← effectiveAddress stack offset
      let self ← self.memoryStore address opcode value
      .ok (.continue, self, { frame with stack := stack })
  | .reserved _ =>
    if op = 0x3F then
      put (.i32 (BitVec.ofNat 32 (self.memory.length / pageSize)) :: frame.stack)
    else do
      let (delta, stack) ← popCondition "memory.grow missing delta"
        "memory.grow delta must be i32" frame.stack
      let (pages, self) := self.grow delta
      .ok (.continue, self, { frame with stack := .i32 pages :: stack })
  | .i32 value => put (.i32 value :: frame.stack)
  | .i64 value => put (.i64 value :: frame.stack)
  | .f32 bytes => put (.f32 (littleEndian 32 bytes) :: frame.stack)
  | .f64 bytes => put (.f64 (littleEndian 64 bytes) :: frame.stack)
  | .index index =>
    if op = 0x0C ∨ op = 0x0D then
      if index ≥ frame.controls.length + 1 then .err "br label out of range"
      else if op = 0x0D then do
        let (condition, stack) ← popCondition "br_if missing condition"
          "br_if condition must be i32" frame.stack
        let action := if condition = 0 then Action.continue else Action.branch index
        .ok (action, self, { frame with stack := stack })
      else .ok (.branch index, self, frame)
    else if op = 0x10 ∨ op = 0x12 then .ok (.call index, self, frame)
    else if op = 0x13 then .ok (.callIndirect index, self, frame)
    else if op = 0x20 then
      match frame.locals[index]? with
      | some value => put (value :: frame.stack)
      | none => .err "local.get index out of range"
    else if op = 0x21 then do
      let (value, stack) ← pop "local.set on empty stack" frame.stack
      if index < frame.locals.length then
        .ok (.continue, self,
          { frame with stack := stack, locals := frame.locals.set index value })
      else .err "local.set index out of range"
    else if op = 0x22 then do
      let (value, _) ← pop "local.tee on empty stack" frame.stack
      if index < frame.locals.length then
        .ok (.continue, self, { frame with locals := frame.locals.set index value })
      else .err "local.tee index out of range"
    else if op = 0x23 then
      match self.globals[index]? with
      | some value => put (value :: frame.stack)
      | none => .err "global.get index out of range"
    else do
      let (value, stack) ← pop "global.set on empty stack" frame.stack
      if index < self.globals.length then
        .ok (.continue, { self with globals := self.globals.set index value },
          { frame with stack := stack })
      else .err "global.set index out of range"
  | .none =>
    -- `else`: jump to the matching end, whose handler closes the `if` frame.
    if op = 0x05 then do
      let endPc ← findEnd code frame.pc
      .ok (.continue, self, { frame with pc := endPc })
    else if op = 0x0F then .ok (.return, self, frame)
    else if op = 0x1A then do
      let (_, stack) ← pop "drop on empty stack" frame.stack
      put stack
    else if op = 0x1B then do
      let (condition, stack) ← popCondition "select missing condition"
        "select condition must be i32" frame.stack
      let (second, stack) ← pop "select missing operand" stack
      let (first, stack) ← pop "select missing operand" stack
      if !sameType first second then .err "select operand type mismatch"
      else put ((if condition ≠ 0 then first else second) :: stack)
    else if 0x45 ≤ op ∧ op ≤ 0xC4 then do
      put (← execNumeric opcode frame.stack)
    else .err ("Unsupported opcode " ++ hexByte opcode)

/-- `exec_instruction` on the top frame, whose `pc` is just past the opcode. -/
def execInstruction (self : WasmInstance) (opcode : UInt8) (code : List UInt8) (frame : Frame) :
    Outcome (Action × WasmInstance × Frame) := do
  let (immediate, pc) ← decodeImmediate code opcode frame.pc
  execImmediate self opcode code immediate { frame with pc := pc }

/-! ## Apart from its immediates, an instruction never panics -/

variable {stack : OperandStack}

theorem splitOff_of_le {position : Nat} (inRange : position ≤ stack.length) :
    splitOff stack position = .ok ((stack.take (stack.length - position)).reverse,
      stack.drop (stack.length - position)) := if_pos inRange

theorem splitOff_of_lt {position : Nat} (outside : stack.length < position) :
    splitOff stack position = .panic := if_neg (by omega)

theorem sliceFrom_of_le {position : Nat} (inRange : position ≤ stack.length) :
    sliceFrom stack position = .ok (stack.take (stack.length - position)).reverse :=
  if_pos inRange

@[simp] theorem pop_returns (missing : String) (stack : OperandStack) :
    (pop missing stack).Returns := by
  cases stack <;> simp [pop]

@[simp] theorem popCondition_returns (missing wrongType : String) (stack : OperandStack) :
    (popCondition missing wrongType stack).Returns := by
  unfold popCondition
  refine (pop_returns ..).bind fun popped _ => ?_
  split <;> simp

@[simp] theorem effectiveAddress_returns (stack : OperandStack) (offset : Nat) :
    (effectiveAddress stack offset).Returns := by
  unfold effectiveAddress
  refine (popCondition_returns ..).bind fun popped _ => ?_
  exact .ite (fun _ => err_returns _) fun _ => ok_returns _

@[simp] theorem WasmInstance.memoryRange_returns (self : WasmInstance) (address size : Nat) :
    (self.memoryRange address size).Returns := by
  unfold memoryRange
  split <;> simp

@[simp] theorem WasmInstance.memoryLoad_returns (self : WasmInstance) (address : Nat)
    (opcode : UInt8) : (self.memoryLoad address opcode).Returns := by
  have loaded : ∀ size, (self.memoryRange address size >>= fun bytes =>
      Outcome.ok (littleEndian 64 bytes)).Returns := fun size =>
    (memoryRange_returns ..).bind fun _ _ => ok_returns _
  unfold memoryLoad
  dsimp only
  split
  case h_15 => exact err_returns _
  all_goals exact (loaded _).bind fun _ _ => ok_returns _

@[simp] theorem WasmInstance.storedBytes_returns (opcode : UInt8) (value : WasmValue) :
    (storedBytes opcode value).Returns := by
  unfold storedBytes
  split <;> simp

@[simp] theorem WasmInstance.memoryStore_returns (self : WasmInstance) (address : Nat)
    (opcode : UInt8) (value : WasmValue) : (self.memoryStore address opcode value).Returns := by
  unfold memoryStore
  refine (storedBytes_returns ..).bind fun bytes _ => ?_
  exact .ite (fun _ => ok_returns _) fun _ => err_returns _

@[simp] theorem blockResultCount_returns (self : WasmInstance) (type : BlockType) :
    (blockResultCount self type).Returns := by
  unfold blockResultCount
  split
  · simp
  · simp
  · split <;> simp

@[simp] theorem openBlock_returns (self : WasmInstance) (opcode : UInt8) (code : List UInt8)
    (type : BlockType) (frame : Frame) : (openBlock self opcode code type frame).Returns := by
  unfold openBlock
  refine (blockResultCount_returns ..).bind fun resultCount _ => ?_
  refine .ite (fun _ => (popCondition_returns ..).bind fun popped _ => ?_) fun _ => ?_
  · refine .ite (fun _ => (findElseOrEnd_returns ..).bind fun _ _ => ?_) fun _ => ?_
    · exact (findEnd_returns ..).bind fun _ _ => ok_returns _
    · exact (findEnd_returns ..).bind fun _ _ => ok_returns _
  · exact (findEnd_returns ..).bind fun _ _ => ok_returns _

theorem execImmediate_returns (self : WasmInstance) (opcode : UInt8) (code : List UInt8)
    (immediate : Immediate) (frame : Frame) :
    (execImmediate self opcode code immediate frame).Returns := by
  cases immediate with
  | none =>
    refine .ite (fun _ => (findEnd_returns ..).bind fun _ _ => ok_returns _) fun _ => ?_
    refine .ite (fun _ => ok_returns _) fun _ => ?_
    refine .ite (fun _ => (pop_returns ..).bind fun _ _ => ok_returns _) fun _ => ?_
    refine .ite (fun _ => (popCondition_returns ..).bind fun _ _ => ?_) fun _ => ?_
    · refine (pop_returns ..).bind fun _ _ => (pop_returns ..).bind fun _ _ => ?_
      exact .ite (fun _ => err_returns _) fun _ => ok_returns _
    refine .ite (fun _ => ?_) fun _ => err_returns _
    exact (execNumeric_returns ..).bind fun _ _ => ok_returns _
  | block type => exact (openBlock_returns ..).bind fun _ _ => ok_returns _
  | index index =>
    refine .ite (fun _ => ?_) fun _ => ?_
    · refine .ite (fun _ => err_returns _) fun _ => ?_
      refine .ite (fun _ => ?_) fun _ => ok_returns _
      exact (popCondition_returns ..).bind fun _ _ => ok_returns _
    refine .ite (fun _ => ok_returns _) fun _ => ?_
    refine .ite (fun _ => ok_returns _) fun _ => ?_
    refine .ite (fun _ => ?_) fun _ => ?_
    · split <;> exact (by simp)
    refine .ite (fun _ => (pop_returns ..).bind fun _ _ => ?_) fun _ => ?_
    · exact .ite (fun _ => ok_returns _) fun _ => err_returns _
    refine .ite (fun _ => (pop_returns ..).bind fun _ _ => ?_) fun _ => ?_
    · exact .ite (fun _ => ok_returns _) fun _ => err_returns _
    refine .ite (fun _ => ?_) fun _ => (pop_returns ..).bind fun _ _ => ?_
    · split <;> exact (by simp)
    · exact .ite (fun _ => ok_returns _) fun _ => err_returns _
  | brTable labels defaultLabel =>
    exact (popCondition_returns ..).bind fun _ _ => ok_returns _
  | callIndirect typeIndex tableIndex => exact ok_returns _
  | selectTypes types => exact err_returns _
  | memarg align offset =>
    refine .ite (fun _ => (effectiveAddress_returns ..).bind fun _ _ => ?_) fun _ => ?_
    · exact (WasmInstance.memoryLoad_returns ..).bind fun _ _ => ok_returns _
    · refine (pop_returns ..).bind fun _ _ => (effectiveAddress_returns ..).bind fun _ _ => ?_
      exact (WasmInstance.memoryStore_returns ..).bind fun _ _ => ok_returns _
  | reserved byte =>
    refine .ite (fun _ => ok_returns _) fun _ => ?_
    exact (popCondition_returns ..).bind fun _ _ => ok_returns _
  | i32 value => exact ok_returns _
  | i64 value => exact ok_returns _
  | f32 bytes => exact ok_returns _
  | f64 bytes => exact ok_returns _

end GhitaBrowser.Wasm
