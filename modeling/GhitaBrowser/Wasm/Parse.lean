import GhitaBrowser.Wasm.Binary

/-!
# The module parser

`parse_module` and the section parsers of `wasm.rs`, in the order of the source.
A section parser takes the module read so far and returns it with its section
added.
-/

namespace GhitaBrowser.Wasm

def ValueType.fromByte (byte : UInt8) : Reader ValueType :=
  match byte.toNat with
  | 0x7F => pure .i32
  | 0x7E => pure .i64
  | 0x7D => pure .f32
  | 0x7C => pure .f64
  | 0x70 => pure .funcRef
  | 0x6F => pure .externRef
  | _ => fail ("Invalid value type byte " ++ hexByte byte)

def ValueType.isNumeric : ValueType → Bool
  | .i32 | .i64 | .f32 | .f64 => true
  | .funcRef | .externRef => false

def readValueType : Reader ValueType := do
  ValueType.fromByte (← readU8)

def readValueTypeVec (max : Nat) : Reader (List ValueType) := do
  let count ← readLebU32
  if count > max then fail "Value type vector budget exceeded"
  else readMany readValueType count

def parseFuncType : Reader FuncType := do
  let form ← readU8
  if form.toNat ≠ 0x60 then fail "Only function types are supported"
  else
    let parameters ← readValueTypeVec maxLocalsPerFunction
    let results ← readValueTypeVec 64
    if results.length > 1 then fail "Multi-value results are not supported"
    else pure ⟨parameters, results⟩

def parseTypeSection (module : WasmModule) : Reader WasmModule := do
  let count ← readLebU32
  if count > maxTypes then fail "Type budget exceeded"
  else
    let types ← readMany parseFuncType count
    pure { module with types := module.types ++ types }

def readLimits : Reader Limits := do
  let flag ← readU8
  match flag.toNat with
  | 0x00 =>
    let min ← readLebU64
    pure ⟨min.toNat, none⟩
  | 0x01 =>
    let min ← readLebU64
    let max ← readLebU64
    if max.toNat < min.toNat then fail "Limits max is smaller than min"
    else pure ⟨min.toNat, some max.toNat⟩
  | _ => fail ("Invalid limits flag " ++ hexByte flag)

def readTableType : Reader TableType := do
  let elementType ← readValueType
  if elementType.isNumeric then fail "Table element type must be a reference type"
  else
    let limits ← readLimits
    match limits.max with
    | some max =>
      if max > maxTableEntries then fail "Table entry budget exceeded"
      else pure ⟨elementType, limits⟩
    | none => pure ⟨elementType, limits⟩

def readMemoryType : Reader MemoryType := do
  let limits ← readLimits
  if limits.min > maxMemoryPages then fail "Memory minimum exceeds 1024 pages"
  else
    match limits.max with
    | some max =>
      if max > maxMemoryPages then fail "Memory maximum exceeds 1024 pages"
      else pure ⟨limits⟩
    | none => pure ⟨limits⟩

def readGlobalType : Reader GlobalType := do
  let valueType ← readValueType
  let flag ← readU8
  match flag.toNat with
  | 0x00 => pure ⟨valueType, false⟩
  | 0x01 => pure ⟨valueType, true⟩
  | _ => fail ("Invalid mutability byte " ++ hexByte flag)

def parseImport : Reader Import := do
  let moduleName ← readName
  let name ← readName
  let kindByte ← readU8
  let kind ← match kindByte.toNat with
    | 0x00 => ImportKind.function <$> readLebU32
    | 0x01 => ImportKind.table <$> readTableType
    | 0x02 => ImportKind.memory <$> readMemoryType
    | 0x03 => ImportKind.global <$> readGlobalType
    | _ => fail ("Invalid import kind " ++ hexByte kindByte)
  pure ⟨moduleName, name, kind⟩

def parseImportSection (module : WasmModule) : Reader WasmModule := do
  let count ← readLebU32
  if count > maxImports then fail "Import budget exceeded"
  else
    let imports ← readMany parseImport count
    pure { module with imports := module.imports ++ imports }

def parseFunctionTypeIndex (module : WasmModule) : Reader Nat := do
  let typeIndex ← readLebU32
  if typeIndex ≥ module.types.length then fail "Function type index out of range"
  else pure typeIndex

def parseFunctionSection (module : WasmModule) : Reader WasmModule := do
  let count ← readLebU32
  if count > maxFunctions then fail "Function budget exceeded"
  else
    let indices ← readMany (parseFunctionTypeIndex module) count
    pure { module with functionTypeIndices := module.functionTypeIndices ++ indices }

def parseTableSection (module : WasmModule) : Reader WasmModule := do
  let count ← readLebU32
  if count > maxTableEntries then fail "Table budget exceeded"
  else
    let tables ← readMany readTableType count
    pure { module with tables := module.tables ++ tables }

def parseMemorySection (module : WasmModule) : Reader WasmModule := do
  let count ← readLebU32
  if count > 1 then fail "Multiple memories are not supported"
  else
    let memories ← readMany readMemoryType count
    pure { module with memories := module.memories ++ memories }

/-- `skip_immediate`: the operand of a constant instruction. -/
def skipImmediate (opcode : UInt8) : Reader Unit :=
  match opcode.toNat with
  | 0x41 => do let _ ← readLebI32
  | 0x42 => do let _ ← readLebI64
  | 0x43 => do let _ ← readBytes 4
  | 0x44 => do let _ ← readBytes 8
  | _ => pure ()

/-- The loop of `read_expr`, from the cursor position where the expression starts. -/
def readExprLoop (start : Nat) : Nat → Nat → Reader (List UInt8)
  | 0, _ => fail "fuel"
  | fuel + 1, depth => do
    let opcode ← readU8
    let op := opcode.toNat
    let found : Reader (List UInt8) := do
      let c ← get
      pure ((c.bytes.take (c.pos - 1)).drop start)
    if op = 0x0B then
      if depth = 0 then found
      -- The second exit of the source: the `end` that brings the depth back to zero.
      else if depth - 1 = 0 then found
      else readExprLoop start fuel (depth - 1)
    else if opensBlock opcode then readExprLoop start fuel (depth + 1)
    else if 0x41 ≤ op ∧ op ≤ 0x44 then do
      skipImmediate opcode
      readExprLoop start fuel depth
    else if op = 0x23 then do
      let _ ← readLebU32
      readExprLoop start fuel depth
    else fail ("Invalid constant expression opcode " ++ hexByte opcode)

def readExpr : Reader (List UInt8) := do
  let c ← get
  readExprLoop c.pos (c.remaining + 1) 0

def parseGlobal : Reader Global := do
  let globalType ← readGlobalType
  let init ← readExpr
  pure ⟨globalType.valueType, globalType.mutable, init⟩

def parseGlobalSection (module : WasmModule) : Reader WasmModule := do
  let count ← readLebU32
  if count > maxGlobals then fail "Global budget exceeded"
  else
    let globals ← readMany parseGlobal count
    pure { module with globals := module.globals ++ globals }

def parseExport : Reader Export := do
  let name ← readName
  let kindByte ← readU8
  let kind ← match kindByte.toNat with
    | 0x00 => pure ExportKind.function
    | 0x01 => pure ExportKind.table
    | 0x02 => pure ExportKind.memory
    | 0x03 => pure ExportKind.global
    | _ => fail ("Invalid export kind " ++ hexByte kindByte)
  let index ← readLebU32
  pure ⟨name, kind, index⟩

def parseExportSection (module : WasmModule) : Reader WasmModule := do
  let count ← readLebU32
  if count > maxExports then fail "Export budget exceeded"
  else
    let exports ← readMany parseExport count
    pure { module with exports := module.exports ++ exports }

def parseStartSection (module : WasmModule) : Reader WasmModule := do
  let start ← readLebU32
  pure { module with start := some start }

def parseElement : Reader ElementSegment := do
  let tableIndex ← readLebU32
  let offset ← readExpr
  let functionCount ← readLebU32
  if functionCount > maxTableEntries then fail "Element function budget exceeded"
  else
    let functionIndices ← readMany readLebU32 functionCount
    pure ⟨tableIndex, offset, functionIndices⟩

def parseElementSection (module : WasmModule) : Reader WasmModule := do
  let count ← readLebU32
  if count > maxTableEntries then fail "Element segment budget exceeded"
  else
    let elements ← readMany parseElement count
    pure { module with elements := module.elements ++ elements }

/-- The local groups of a body; `total` is the number of locals declared so far. -/
def parseLocals : Nat → Nat → Reader (List LocalDecl)
  | 0, _ => pure []
  | groups + 1, total => do
    let count ← readLebU32
    -- `saturating_add` on u32
    let total := min (total + count) (2 ^ 32 - 1)
    if total > maxLocalsPerFunction then fail "Per-function local budget exceeded"
    else
      let valueType ← readValueType
      if !valueType.isNumeric then fail "Function locals must be numeric types"
      else
        let rest ← parseLocals groups total
        pure (⟨count, valueType⟩ :: rest)

/-- One body, read with a cursor of its own over `bytes`. -/
def parseBody (bytes : List UInt8) : Except String FunctionBody := do
  let (locals, body) ← (do
    let groups ← readLebU32
    if groups > maxLocalsPerFunction then fail "Local declaration budget exceeded"
    else parseLocals groups 0 : Reader (List LocalDecl)).run (Cursor.new bytes)
  let code := bytes.drop body.pos
  let depth ← validateCode code
  if depth > maxCodeDepth then .error "Code nesting depth exceeded"
  else pure ⟨locals, code⟩

def parseSizedBody : Reader FunctionBody := do
  let bodySize ← readLebU32
  if bodySize > (← get).remaining then fail "Function body extends beyond section"
  else
    let bytes ← readBytes bodySize
    liftM (parseBody bytes)

def parseCodeSection (module : WasmModule) : Reader WasmModule := do
  let count ← readLebU32
  if count > maxFunctions then fail "Code body budget exceeded"
  else
    let bodies ← readMany parseSizedBody count
    pure { module with bodies := module.bodies ++ bodies }

def parseDataSegment : Reader DataSegment := do
  let memoryIndex ← readLebU32
  let offset ← readExpr
  let byteCount ← readLebU32
  if byteCount > (← get).remaining then fail "Data segment extends beyond section"
  else
    let bytes ← readBytes byteCount
    pure ⟨memoryIndex, offset, bytes⟩

def parseDataSection (module : WasmModule) : Reader WasmModule := do
  let count ← readLebU32
  if count > maxDataSegments then fail "Data segment budget exceeded"
  else
    let data ← readMany parseDataSegment count
    pure { module with data := module.data ++ data }

/-- What `parse_module` carries from section to section. -/
structure ParseState where
  module : WasmModule := {}
  seen : List Nat := []
  lastSection : Nat := 0
  dataCountDeclared : Option Nat := none

/-- The contents of one section, with the section's own cursor. -/
def parseSection (id : Nat) (state : ParseState) : Reader ParseState :=
  let into (parse : WasmModule → Reader WasmModule) : Reader ParseState := do
    let module ← parse state.module
    pure { state with module }
  match id with
  | 1 => into parseTypeSection
  | 2 => into parseImportSection
  | 3 => into parseFunctionSection
  | 4 => into parseTableSection
  | 5 => into parseMemorySection
  | 6 => into parseGlobalSection
  | 7 => into parseExportSection
  | 8 => into parseStartSection
  | 9 => into parseElementSection
  | 10 => into parseCodeSection
  | 11 => into parseDataSection
  | 12 => do
    let count ← readLebU32
    if count > maxDataSegments then fail "Data segment budget exceeded"
    else pure { state with dataCountDeclared := some count }
  | _ => fail s!"Unknown section id {id}"

/-- One turn of the section loop of `parse_module`. -/
def parseOneSection (state : ParseState) : Reader ParseState := do
  let sectionId := (← readU8).toNat
  if sectionId = 0 then fail "Custom sections are not supported"
  else if sectionId > 12 then fail s!"Unknown section id {sectionId}"
  else if sectionId ∈ state.seen then fail s!"Duplicate section {sectionId}"
  else if sectionId < state.lastSection ∧ sectionId ≠ 10 then fail s!"Out-of-order section {sectionId}"
  else
    let size ← readLebU32
    if size > (← get).remaining then fail "Section extends beyond module end"
    else
      let bytes ← readBytes size
      let state := { state with seen := sectionId :: state.seen, lastSection := sectionId }
      let (state, rest) ← liftM ((parseSection sectionId state).run (Cursor.new bytes))
      if !rest.isEmpty then fail s!"Section {sectionId} has trailing bytes"
      else pure state

/-- The section loop. A section is read at most once, so thirteen turns are enough. -/
def parseSections : Nat → ParseState → Reader ParseState
  | 0, _ => fail "fuel"
  | fuel + 1, state => do
    if (← get).isEmpty then pure state
    else
      let state ← parseOneSection state
      parseSections fuel state

def Import.isFunction (entry : Import) : Bool :=
  match entry.kind with
  | .function _ => true
  | _ => false

def exportInRange (module : WasmModule) (entry : Export) : Except String Unit :=
  match entry.kind with
  | .function =>
    if entry.index ≥ module.totalFunctions then .error "Export function index out of range"
    else pure ()
  | .global =>
    if entry.index ≥ module.globals.length then .error "Export global index out of range"
    else pure ()
  | .table =>
    if entry.index ≥ module.tables.length then .error "Export table index out of range"
    else pure ()
  | .memory =>
    if entry.index ≥ module.memories.length then .error "Export memory index out of range"
    else pure ()

/-- The cross-section checks at the end of `parse_module`. -/
def checkModule (state : ParseState) : Except String WasmModule := do
  let imported := (state.module.imports.filter Import.isFunction).length
  let module : WasmModule :=
    { state.module with totalFunctions := imported + state.module.functionTypeIndices.length }
  if module.totalFunctions > maxFunctions then .error "Function budget exceeded"
  else if module.bodies.length ≠ module.functionTypeIndices.length then
    .error "Code section does not match function section"
  else if module.start.any (· ≥ module.totalFunctions) then
    .error "Start function index out of range"
  else if module.memories.length > 1 then .error "Multiple memories are not supported"
  else if state.dataCountDeclared.any (· ≠ module.data.length) then
    .error "Data count does not match data section"
  else
    module.exports.forM (exportInRange module)
    pure module

def parseModule (bytes : List UInt8) : Except String WasmModule := do
  if bytes.length > maxModuleBytes then .error "WASM module exceeds 8 MB"
  else
    let state ← (do
      let magic ← readBytes 4
      if magic ≠ [0x00, 0x61, 0x73, 0x6D] then fail "Invalid WASM magic"
      else
        let version ← readBytes 4
        if version ≠ [0x01, 0x00, 0x00, 0x00] then fail "Unsupported WASM version"
        else parseSections 13 {} : Reader ParseState).run' (Cursor.new bytes)
    checkModule state

/-- The smallest module of the parser's tests: `(i32) -> i32`, exported as "add1". -/
example : (parseModule
    ([0x00, 0x61, 0x73, 0x6D, 0x01, 0x00, 0x00, 0x00] ++
     [0x01, 0x06, 0x01, 0x60, 0x01, 0x7F, 0x01, 0x7F] ++
     [0x03, 0x02, 0x01, 0x00] ++
     [0x07, 0x08, 0x01, 0x04, 0x61, 0x64, 0x64, 0x31, 0x00, 0x00] ++
     [0x0A, 0x06, 0x01, 0x04, 0x00, 0x20, 0x00, 0x0B])).toOption.map (·.bodies) =
    some [⟨[], [0x20, 0x00, 0x0B]⟩] := by decide +kernel

end GhitaBrowser.Wasm
