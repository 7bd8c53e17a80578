import GhitaBrowser.Wasm.Globals

/-!
# Indices

A module refers to its types, functions, tables, memories and globals by index. The
parser checks some of these references (`parseModule_inRange`): those of function
types, exports and the start function. Those of element segments and of initialisers
wait for `instantiate`, which uses them (`instantiate_inRange`).
-/

namespace GhitaBrowser.Wasm

/-! ## Index spaces -/

/-- The kind of export that an import could be. -/
def ImportKind.space : ImportKind → ExportKind
  | .function _ => .function
  | .table _ => .table
  | .memory _ => .memory
  | .global _ => .global

/-- The number of definitions of a kind in the module itself. -/
def definedCount (module : WasmModule) : ExportKind → Nat
  | .function => module.functionTypeIndices.length
  | .table => module.tables.length
  | .memory => module.memories.length
  | .global => module.globals.length

/-- The size of an index space: what is imported, then what is defined. -/
def indexSpace (module : WasmModule) (kind : ExportKind) : Nat :=
  (module.imports.filter (·.kind.space = kind)).length + definedCount module kind

/-- The indices of the `global.get`s of a constant expression. -/
def constGlobalsLoop : Nat → Reader (List Nat)
  | 0 => fail "fuel"
  | fuel + 1 => do
    if (← get).isEmpty then pure []
    else
      let opcode ← readU8
      match opcode.toNat with
      | 0x41 => do
        let _ ← readLebI32
        constGlobalsLoop fuel
      | 0x42 => do
        let _ ← readLebI64
        constGlobalsLoop fuel
      | 0x43 => do
        let _ ← readBytes 4
        constGlobalsLoop fuel
      | 0x44 => do
        let _ ← readBytes 8
        constGlobalsLoop fuel
      | 0x23 => do
        let index ← readLebU32
        let rest ← constGlobalsLoop fuel
        pure (index :: rest)
      | 0x0B => pure []
      | _ => fail "Unsupported const opcode"

def constGlobals (expr : List UInt8) : Except String (List Nat) :=
  (constGlobalsLoop (expr.length + 1)).run' (Cursor.new expr)

/-- Every global that an expression refers to is one of the first `count`. -/
def RefersBelow (count : Nat) (expr : List UInt8) : Prop :=
  ∃ indices, constGlobals expr = .ok indices ∧ ∀ index ∈ indices, index < count

/-! ## Sections -/

/-- What the sections establish, whatever comes after them. -/
structure SectionsHold (module : WasmModule) : Prop where
  functionTypes : ∀ index ∈ module.functionTypeIndices, index < module.types.length
  memoryLimits : ∀ memory ∈ module.memories, ∀ max ∈ memory.limits.max, memory.limits.min ≤ max

/-- Whatever the reader returns has the property. -/
def Yields {α : Type} (P : α → Prop) (read : Reader α) : Prop :=
  ∀ c c' result, read c = .ok (result, c') → P result

namespace Yields

variable {α β : Type} {P : α → Prop} {Q : β → Prop}

theorem pure {a : α} (h : P a) : Yields P (Pure.pure a) := by
  intro c c' result ok
  cases ok
  exact h

theorem fail {message : String} : Yields P (Wasm.fail message) := by
  intro c c' result ok
  cases ok

theorem bind {read : Reader β} {next : β → Reader α} (first : Yields Q read)
    (h : ∀ value, Q value → Yields P (next value)) : Yields P (read >>= next) := by
  intro c c' result ok
  obtain ⟨value, middle, here, ok⟩ := bind_run_eq_ok.mp ok
  exact h value (first c middle value here) middle c' result ok

theorem bind_any {read : Reader β} {next : β → Reader α} (h : ∀ value, Yields P (next value)) :
    Yields P (read >>= next) := by
  have any : Yields (fun _ => True) read := fun _ _ _ _ => trivial
  exact any.bind fun value _ => h value

theorem ite {p : Prop} [Decidable p] {yes no : Reader α} (hyes : p → Yields P yes)
    (hno : ¬p → Yields P no) : Yields P (if p then yes else no) := by
  split
  · exact hyes ‹_›
  · exact hno ‹_›

end Yields

theorem readMany_yields {α : Type} {P : α → Prop} {read : Reader α} (each : Yields P read)
    (count : Nat) : Yields (fun items => ∀ item ∈ items, P item) (readMany read count) := by
  induction count with
  | zero => exact .pure (by simp)
  | succ count ih =>
    exact each.bind fun head first => ih.bind fun tail rest =>
      .pure (List.forall_mem_cons.mpr ⟨first, rest⟩)

theorem counted_yields {α : Type} {P : α → Prop} {Q : WasmModule → Prop} {read : Reader α}
    {add : List α → WasmModule} {max : Nat} {message : String} (each : Yields P read)
    (h : ∀ items, (∀ item ∈ items, P item) → Q (add items)) :
    Yields Q (do
      let count ← readLebU32
      if count > max then Wasm.fail message
      else
        let items ← readMany read count
        Pure.pure (add items)) :=
  .bind_any fun count => .ite (fun _ => .fail) fun _ =>
    (readMany_yields each count).bind fun items all => .pure (h items all)

theorem parseFunctionTypeIndex_yields (module : WasmModule) :
    Yields (· < module.types.length) (parseFunctionTypeIndex module) :=
  .bind_any fun _ => .ite (fun _ => .fail) fun inRange => .pure (Nat.lt_of_not_le inRange)

theorem readLimits_yields : Yields (fun limits => ∀ max ∈ limits.max, limits.min ≤ max) readLimits := by
  refine .bind_any fun flag => ?_
  split
  · refine .bind_any fun min => .pure ?_
    simp
  · refine .bind_any fun min => .bind_any fun max => .ite (fun _ => .fail) fun ordered => .pure ?_
    simpa using ordered
  · exact .fail

theorem readMemoryType_yields :
    Yields (fun memory => ∀ max ∈ memory.limits.max, memory.limits.min ≤ max) readMemoryType := by
  refine readLimits_yields.bind fun limits ordered => .ite (fun _ => .fail) fun _ => ?_
  split
  · exact .ite (fun _ => .fail) fun _ => .pure ordered
  · exact .pure ordered

variable {state : ParseState}

theorem parseSection_yields (holds : SectionsHold state.module) (id : Nat) :
    Yields (fun after => SectionsHold after.module) (parseSection id state) := by
  have into : ∀ {parse : WasmModule → Reader WasmModule}, Yields SectionsHold (parse state.module) →
      Yields (fun after : ParseState => SectionsHold after.module) (do
        let module ← parse state.module
        pure { state with module }) :=
    fun parsed => parsed.bind fun module kept => .pure kept
  -- the sections that add neither types, functions nor memories
  have plain : ∀ {α : Type} {read : Reader α} {add : List α → WasmModule} {max : Nat}
      {message : String}, (∀ items, SectionsHold (add items)) → Yields SectionsHold (do
        let count ← readLebU32
        if count > max then fail message
        else
          let items ← readMany read count
          pure (add items)) :=
    fun kept => counted_yields (P := fun _ => True) (fun _ _ _ _ => trivial) fun items _ => kept items
  have same : ∀ module : WasmModule, module.types = state.module.types →
      module.functionTypeIndices = state.module.functionTypeIndices →
      module.memories = state.module.memories → SectionsHold module := by
    intro module types functions memories
    exact ⟨by rw [types, functions]; exact holds.functionTypes,
      by rw [memories]; exact holds.memoryLimits⟩
  unfold parseSection
  dsimp only
  split
  · refine into (plain fun items => ⟨fun index among => ?_, holds.memoryLimits⟩)
    rw [List.length_append]
    exact Nat.lt_add_right _ (holds.functionTypes index among)
  · exact into (plain fun items => same _ rfl rfl rfl)
  · refine into (counted_yields (parseFunctionTypeIndex_yields _) fun items inRange => ?_)
    refine ⟨fun index among => ?_, holds.memoryLimits⟩
    rcases List.mem_append.mp among with old | new
    · exact holds.functionTypes index old
    · exact inRange index new
  · exact into (plain fun items => same _ rfl rfl rfl)
  · refine into (counted_yields readMemoryType_yields fun items ordered => ?_)
    refine ⟨holds.functionTypes, fun memory among => ?_⟩
    rcases List.mem_append.mp among with old | new
    · exact holds.memoryLimits memory old
    · exact ordered memory new
  · exact into (plain fun items => same _ rfl rfl rfl)
  · exact into (plain fun items => same _ rfl rfl rfl)
  · exact into (.bind_any fun start => .pure (same _ rfl rfl rfl))
  · exact into (plain fun items => same _ rfl rfl rfl)
  · exact into (plain fun items => same _ rfl rfl rfl)
  · exact into (plain fun items => same _ rfl rfl rfl)
  · exact .bind_any fun count => .ite (fun _ => .fail) fun _ => .pure holds
  · exact .fail

theorem parseOneSection_yields (holds : SectionsHold state.module) :
    Yields (fun after => SectionsHold after.module) (parseOneSection state) := by
  refine .bind_any fun id => .ite (fun _ => .fail) fun _ => .ite (fun _ => .fail) fun _ => ?_
  refine .ite (fun _ => .fail) fun _ => .ite (fun _ => .fail) fun _ => .bind_any fun size => ?_
  refine .bind_any fun c => .ite (fun _ => .fail) fun _ => .bind_any fun bytes => ?_
  have contents : Yields (fun parsed : ParseState × Cursor => SectionsHold parsed.1.module)
      (liftM ((parseSection id.toNat
        { state with seen := id.toNat :: state.seen, lastSection := id.toNat }).run
          (Cursor.new bytes))) := by
    intro before after parsed ok
    cases ran : (parseSection id.toNat
        { state with seen := id.toNat :: state.seen, lastSection := id.toNat }).run
          (Cursor.new bytes) with
    | error message =>
      rw [ran] at ok
      cases ok
    | ok result =>
      rw [ran] at ok
      cases ok
      have kept := @parseSection_yields
        { state with seen := id.toNat :: state.seen, lastSection := id.toNat } holds id.toNat
      exact kept _ _ _ ran
  exact contents.bind fun parsed kept => .ite (fun _ => .fail) fun _ => .pure kept

theorem parseSections_yields (holds : SectionsHold state.module) (fuel : Nat) :
    Yields (fun after => SectionsHold after.module) (parseSections fuel state) := by
  induction fuel generalizing state with
  | zero => exact .fail
  | succ fuel ih =>
    refine .bind_any fun c => .ite (fun _ => .pure holds) fun _ => ?_
    exact (parseOneSection_yields holds).bind fun next kept => ih kept

/-! ## The parser -/

theorem totalFunctions_eq (module : WasmModule) :
    (module.imports.filter Import.isFunction).length + module.functionTypeIndices.length =
      indexSpace module .function := by
  have same : ∀ entry : Import, entry.isFunction = decide (entry.kind.space = .function) := by
    intro entry
    unfold Import.isFunction
    cases entry.kind <;> rfl
  unfold indexSpace definedCount
  rw [funext same]

theorem lt_of_check {index bound : Nat} {message : String}
    (h : (if index ≥ bound then .error message else pure () : Except String Unit) = .ok ()) :
    index < bound := by
  split at h
  · cases h
  · exact Nat.lt_of_not_le ‹_›

variable {module : WasmModule}

theorem exportInRange_ok {entry : Export}
    (total : module.totalFunctions = indexSpace module .function)
    (h : exportInRange module entry = .ok ()) : entry.index < indexSpace module entry.kind := by
  have defined : definedCount module entry.kind ≤ indexSpace module entry.kind :=
    Nat.le_add_left _ _
  unfold exportInRange at h
  cases kind : entry.kind <;> rw [kind] at h defined
  case function => exact total ▸ lt_of_check h
  -- imported tables, memories and globals are not counted, so the check is stricter than needed
  all_goals exact Nat.lt_of_lt_of_le (lt_of_check h) defined

/-- The references that the parser checks. -/
structure ModuleInRange (module : WasmModule) : Prop where
  functionTypes : ∀ index ∈ module.functionTypeIndices, index < module.types.length
  exports : ∀ entry ∈ module.exports, entry.index < indexSpace module entry.kind
  start : ∀ index ∈ module.start, index < indexSpace module .function

theorem forM_ok {α : Type} {check : α → Except String Unit} {items : List α}
    (h : items.forM check = .ok ()) : ∀ item ∈ items, check item = .ok () := by
  induction items with
  | nil => simp
  | cons item items ih =>
    obtain ⟨_, first, rest⟩ := except_bind_eq_ok.mp h
    exact List.forall_mem_cons.mpr ⟨first, ih rest⟩

theorem checkModule_ok (holds : SectionsHold state.module) (h : checkModule state = .ok module) :
    ModuleInRange module ∧ SectionsHold module ∧
      module.totalFunctions = indexSpace module .function := by
  unfold checkModule at h
  dsimp only at h
  split at h
  · cases h
  split at h
  · cases h
  split at h
  · cases h
  rename_i start
  split at h
  · cases h
  split at h
  · cases h
  obtain ⟨_, exports, h⟩ := except_bind_eq_ok.mp h
  cases h
  have total := totalFunctions_eq state.module
  refine ⟨⟨holds.functionTypes, ?_, ?_⟩, ⟨holds.functionTypes, holds.memoryLimits⟩, total⟩
  · exact fun entry among => exportInRange_ok total (forM_ok exports entry among)
  · intro index isStart
    rw [Option.any_eq_true] at start
    refine Nat.lt_of_not_le fun tooMany => start ⟨index, isStart, ?_⟩
    exact decide_eq_true (total ▸ tooMany)

theorem parseModule_ok {bytes : List UInt8} (h : parseModule bytes = .ok module) :
    ModuleInRange module ∧ SectionsHold module ∧
      module.totalFunctions = indexSpace module .function := by
  have contents : Yields (fun state : ParseState => SectionsHold state.module) (do
      let magic ← readBytes 4
      if magic ≠ [0x00, 0x61, 0x73, 0x6D] then fail "Invalid WASM magic"
      else
        let version ← readBytes 4
        if version ≠ [0x01, 0x00, 0x00, 0x00] then fail "Unsupported WASM version"
        else parseSections 13 {}) := by
    refine .bind_any fun magic => .ite (fun _ => .fail) fun _ => .bind_any fun version => ?_
    refine .ite (fun _ => .fail) fun _ => parseSections_yields ⟨?_, ?_⟩ 13 <;> simp
  unfold parseModule at h
  split at h
  · cases h
  obtain ⟨state, read, h⟩ := except_bind_eq_ok.mp h
  obtain ⟨c, read⟩ := run'_eq_ok.mp read
  exact checkModule_ok (contents _ _ _ read) h

/-! ## Instantiation -/

theorem constGlobalsLoop_tracks (self : WasmInstance) (fuel : Nat) (value : Option WasmValue) :
    Tracks (fun _ indices => ∀ index ∈ indices, index < self.globals.length)
      (self.evalConstExprLoop fuel value) (constGlobalsLoop fuel) := by
  induction fuel generalizing value with
  | zero => exact .fail
  | succ fuel ih =>
    unfold WasmInstance.evalConstExprLoop constGlobalsLoop
    refine .bind fun c => .ite ?done (.bind fun opcode => ?_)
    case done =>
      cases value with
      | none => exact .fail
      | some value => exact .pure (by simp)
    generalize opcode.toNat = op
    split
    · exact .bind fun value => ih _
    · exact .bind fun value => ih _
    · exact .bind fun bytes => ih _
    · exact .bind fun bytes => ih _
    · refine .bind fun index => ?_
      rcases here : self.globals[index]? with _ | value
      · exact .fail
      · have inRange := (List.getElem?_eq_some_iff.mp here).1
        exact (ih (some value)).map fun _ indices below =>
          List.forall_mem_cons.mpr ⟨inRange, below⟩
    · cases value with
      | none => exact .fail
      | some value => exact .pure (by simp)
    · exact .fail

theorem refersBelow_of_eval {self : WasmInstance} {expr : List UInt8} {value : WasmValue}
    (h : self.evalConstExpr expr = .ok value) : RefersBelow self.globals.length expr := by
  obtain ⟨c, evaluated⟩ := run'_eq_ok.mp h
  obtain ⟨indices, reads, below⟩ := constGlobalsLoop_tracks self _ none _ _ _ evaluated
  exact ⟨indices, run'_eq_ok.mpr ⟨c, reads⟩, below⟩

/-- What a successful instantiation has checked of the references. -/
structure InstanceInRange (module : WasmModule) : Prop where
  functions : ∀ segment ∈ module.elements, ∀ index ∈ segment.functionIndices,
    index < module.totalFunctions
  /-- An initialiser refers to the globals before its own. -/
  initialisers : ∀ (index : Nat) (global : Global), module.globals[index]? = some global →
    RefersBelow index global.init
  elementOffsets : ∀ segment ∈ module.elements, RefersBelow module.globals.length segment.offset
  dataOffsets : ∀ segment ∈ module.data, RefersBelow module.globals.length segment.offset

theorem initGlobals_refers {globals : List Global} {self after : WasmInstance}
    (h : WasmInstance.initGlobals globals self = .ok after) :
    after.globals.length = self.globals.length + globals.length ∧
      ∀ (index : Nat) (global : Global), globals[index]? = some global →
        RefersBelow (self.globals.length + index) global.init := by
  induction globals generalizing self with
  | nil =>
    cases h
    exact ⟨rfl, nofun⟩
  | cons first globals ih =>
    obtain ⟨value, evaluated, h⟩ := except_bind_eq_ok.mp h
    obtain ⟨length, rest⟩ := ih h
    simp only [List.length_append, List.length_singleton] at length rest
    refine ⟨by rw [length, List.length_cons]; omega, fun index global here => ?_⟩
    cases index with
    | zero =>
      cases here
      exact refersBelow_of_eval evaluated
    | succ index =>
      have refers := rest index global here
      rwa [Nat.add_assoc, Nat.add_comm 1] at refers

theorem initElements_refers {segments : List ElementSegment} {self after : WasmInstance}
    (h : WasmInstance.initElements segments self = .ok after) :
    ∀ segment ∈ segments, RefersBelow self.globals.length segment.offset ∧
      ∀ index ∈ segment.functionIndices, index < self.module.totalFunctions := by
  induction segments generalizing self with
  | nil => simp
  | cons segment segments ih =>
    obtain ⟨value, evaluated, h⟩ := except_bind_eq_ok.mp h
    obtain ⟨base, -, h⟩ := except_bind_eq_ok.mp h
    obtain ⟨written, writes, h⟩ := except_bind_eq_ok.mp h
    obtain ⟨⟨table, rfl⟩, functions⟩ := WasmInstance.writeElements_eq_ok writes
    have rest := ih h
    exact List.forall_mem_cons.mpr ⟨⟨refersBelow_of_eval evaluated, functions⟩, rest⟩

theorem initData_refers {segments : List DataSegment} {self after : WasmInstance}
    (h : WasmInstance.initData segments self = .ok after) :
    ∀ segment ∈ segments, RefersBelow self.globals.length segment.offset := by
  induction segments generalizing self with
  | nil => simp
  | cons segment segments ih =>
    obtain ⟨value, evaluated, h⟩ := except_bind_eq_ok.mp h
    obtain ⟨base, -, h⟩ := except_bind_eq_ok.mp h
    dsimp only at h
    split at h
    · cases h
    · have rest := ih h
      exact List.forall_mem_cons.mpr ⟨refersBelow_of_eval evaluated, rest⟩

theorem instantiate_inRange {start : WasmInstance}
    (h : WasmInstance.instantiate module = .ok start) : InstanceInRange module := by
  obtain ⟨-, table, first, second, initialised, elements, data⟩ := WasmInstance.instantiate_steps h
  obtain ⟨values, rfl⟩ := WasmInstance.initGlobals_eq_ok initialised
  obtain ⟨length, initialisers⟩ := initGlobals_refers initialised
  have segments := initElements_refers elements
  obtain ⟨table', rfl⟩ := WasmInstance.initElements_eq_ok elements
  have offsets := initData_refers data
  simp only [List.length_nil, Nat.zero_add] at length initialisers segments offsets
  rw [length] at segments offsets
  exact ⟨fun segment among => (segments segment among).2, initialisers,
    fun segment among => (segments segment among).1, offsets⟩

/-- The parser checks the indices of function types, exports and the start function, and a
module that can be instantiated has those of element segments and initialisers in range too. -/
theorem parseModule_inRange {bytes : List UInt8} {module : WasmModule}
    (h : parseModule bytes = .ok module) :
    ModuleInRange module ∧
      (∀ start, WasmInstance.instantiate module = .ok start → InstanceInRange module) ∧
      module.totalFunctions = indexSpace module .function := by
  obtain ⟨inRange, -, total⟩ := parseModule_ok h
  exact ⟨inRange, fun _ instantiated => instantiate_inRange instantiated, total⟩

/-- A function that is exported as "f", started and put into a table, and two globals, the second
initialised with the first. -/
def linkedBytes : List UInt8 :=
  [0x00, 0x61, 0x73, 0x6D, 0x01, 0x00, 0x00, 0x00] ++
  [0x01, 0x04, 0x01, 0x60, 0x00, 0x00] ++
  [0x03, 0x02, 0x01, 0x00] ++
  [0x04, 0x04, 0x01, 0x70, 0x00, 0x01] ++
  [0x06, 0x0B, 0x02, 0x7F, 0x00, 0x41, 0x00, 0x0B, 0x7F, 0x00, 0x23, 0x00, 0x0B] ++
  [0x07, 0x05, 0x01, 0x01, 0x66, 0x00, 0x00] ++
  [0x08, 0x01, 0x00] ++
  [0x09, 0x07, 0x01, 0x00, 0x41, 0x00, 0x0B, 0x01, 0x00] ++
  [0x0A, 0x04, 0x01, 0x02, 0x00, 0x0B]

def linkedModule : WasmModule where
  types := [⟨[], []⟩]
  functionTypeIndices := [0]
  tables := [⟨.funcRef, ⟨1, none⟩⟩]
  globals := [⟨.i32, false, [0x41, 0x00]⟩, ⟨.i32, false, [0x23, 0x00]⟩]
  exports := [⟨[0x66], .function, 0⟩]
  start := some 0
  elements := [⟨0, [0x41, 0x00], [0]⟩]
  bodies := [⟨[], [0x0B]⟩]
  totalFunctions := 1

theorem parseModule_inRange_linked : ModuleInRange linkedModule ∧ InstanceInRange linkedModule := by
  obtain ⟨inModule, inInstance, -⟩ :=
    @parseModule_inRange linkedBytes linkedModule (by decide +kernel)
  refine ⟨inModule, ?_⟩
  have starts : (WasmInstance.instantiate linkedModule).isOk := by decide +kernel
  cases started : WasmInstance.instantiate linkedModule with
  | ok start => exact inInstance start started
  | error message =>
    rw [started] at starts
    cases starts

/-- An imported function of type 7, a global initialised with global 4, an element segment with
function 9 for table 5, and a data segment for memory 3; the module has none of them. -/
def danglingBytes : List UInt8 :=
  [0x00, 0x61, 0x73, 0x6D, 0x01, 0x00, 0x00, 0x00] ++
  [0x02, 0x07, 0x01, 0x01, 0x65, 0x01, 0x66, 0x00, 0x07] ++
  [0x06, 0x06, 0x01, 0x7F, 0x00, 0x23, 0x04, 0x0B] ++
  [0x09, 0x07, 0x01, 0x05, 0x41, 0x00, 0x0B, 0x01, 0x09] ++
  [0x0B, 0x07, 0x01, 0x03, 0x41, 0x00, 0x0B, 0x01, 0x2A]

def danglingModule : WasmModule where
  imports := [⟨[0x65], [0x66], .function 7⟩]
  globals := [⟨.i32, false, [0x23, 0x04]⟩]
  elements := [⟨5, [0x41, 0x00], [9]⟩]
  data := [⟨3, [0x41, 0x00], [0x2A]⟩]
  totalFunctions := 1

theorem dangling_accepted :
    parseModule danglingBytes = .ok danglingModule ∧ danglingModule.types.length = 0 ∧
      indexSpace danglingModule .table = 0 ∧ indexSpace danglingModule .memory = 0 ∧
      indexSpace danglingModule .function = 1 ∧
      constGlobals [0x23, 0x04] = .ok [4] ∧ indexSpace danglingModule .global = 1 := by
  decide +kernel

end GhitaBrowser.Wasm
