import GhitaBrowser.Wasm.Calls

/-!
# What runs do to an instance

A step of the interpreter leaves the instance alone, or sets a global, or writes to
the memory, or grows it; `nextState_changes` says which and by what instruction.
Invariants of an instance then follow for invocations (`invoke_keeps`) and for any
sequence of requests by the embedder (`after_keeps`).
-/

namespace GhitaBrowser.Wasm

variable {self : WasmInstance}

/-! ## Instantiation -/

theorem run'_eq_ok {α : Type} {read : Reader α} {c : Cursor} {result : α} :
    read.run' c = .ok result ↔ ∃ c', read c = .ok (result, c') := by
  change (read c).map Prod.fst = .ok result ↔ _
  cases read c <;> simp [Except.map, Prod.ext_iff]

namespace WasmInstance

theorem initGlobals_eq_ok {globals : List Global} {after : WasmInstance}
    (h : initGlobals globals self = .ok after) :
    ∃ values, after = { self with globals := self.globals ++ values } := by
  induction globals generalizing self with
  | nil =>
    cases h
    exact ⟨[], by rw [List.append_nil]⟩
  | cons global globals ih =>
    obtain ⟨value, -, h⟩ := except_bind_eq_ok.mp h
    obtain ⟨values, rfl⟩ := ih h
    exact ⟨value :: values, by rw [List.append_assoc]; rfl⟩

theorem writeElements_eq_ok {indices : List Nat} {slot : Nat} {after : WasmInstance}
    (h : writeElements indices slot self = .ok after) :
    (∃ table, after = { self with table := table }) ∧
      ∀ index ∈ indices, index < self.module.totalFunctions := by
  induction indices generalizing slot self with
  | nil =>
    cases h
    exact ⟨⟨_, rfl⟩, by simp⟩
  | cons index indices ih =>
    rw [writeElements] at h
    split at h
    · cases h
    · split at h
      · cases h
      · rename_i inRange _
        obtain ⟨⟨table, rfl⟩, rest⟩ := ih h
        exact ⟨⟨table, rfl⟩, List.forall_mem_cons.mpr ⟨Nat.lt_of_not_le inRange, rest⟩⟩

theorem initElements_eq_ok {segments : List ElementSegment} {after : WasmInstance}
    (h : initElements segments self = .ok after) :
    ∃ table, after = { self with table := table } := by
  induction segments generalizing self with
  | nil =>
    cases h
    exact ⟨_, rfl⟩
  | cons segment segments ih =>
    obtain ⟨value, -, h⟩ := except_bind_eq_ok.mp h
    obtain ⟨base, -, h⟩ := except_bind_eq_ok.mp h
    obtain ⟨written, writes, h⟩ := except_bind_eq_ok.mp h
    obtain ⟨⟨table, rfl⟩, -⟩ := writeElements_eq_ok writes
    obtain ⟨table', rfl⟩ := ih h
    exact ⟨table', rfl⟩

theorem initData_eq_ok {segments : List DataSegment} {after : WasmInstance}
    (h : initData segments self = .ok after) :
    ∃ memory, memory.length = self.memory.length ∧ after = { self with memory := memory } := by
  induction segments generalizing self with
  | nil =>
    cases h
    exact ⟨_, rfl, rfl⟩
  | cons segment segments ih =>
    obtain ⟨value, -, h⟩ := except_bind_eq_ok.mp h
    obtain ⟨base, -, h⟩ := except_bind_eq_ok.mp h
    dsimp only at h
    split at h
    · cases h
    · obtain ⟨memory, length, rfl⟩ := ih h
      refine ⟨memory, length.trans ?_, rfl⟩
      simp only [List.length_append, List.length_take, List.length_drop]
      omega

/-- The pages of memory that a module starts with. -/
def declaredPages (module : WasmModule) : Nat :=
  (module.memories.head?.map (·.limits.min)).getD 0

/-- The three passes of `instantiate` over an instance with empty memory and table. -/
theorem instantiate_steps {module : WasmModule} (h : instantiate module = .ok self) :
    declaredPages module * pageSize ≤ maxMemoryBytes ∧ ∃ table first second,
      initGlobals module.globals
        ⟨module, [], List.replicate (declaredPages module * pageSize) 0, table⟩ = .ok first ∧
      initElements module.elements first = .ok second ∧ initData module.data second = .ok self := by
  unfold instantiate at h
  dsimp only at h
  split at h
  · cases h
  split at h
  · cases h
  split at h
  · cases h
  rename_i small _
  obtain ⟨first, initialised, h⟩ := except_bind_eq_ok.mp h
  obtain ⟨second, elements, h⟩ := except_bind_eq_ok.mp h
  exact ⟨Nat.le_of_not_lt small, _, first, second, initialised, elements, h⟩

theorem instantiate_eq_ok {module : WasmModule} (h : instantiate module = .ok self) :
    self.module = module ∧ self.memory.length = declaredPages module * pageSize ∧
      self.memory.length ≤ maxMemoryBytes ∧
      ∃ memory table, initGlobals module.globals ⟨module, [], memory, table⟩ =
        .ok ⟨module, self.globals, memory, table⟩ := by
  obtain ⟨small, table, first, second, initialised, elements, data⟩ := instantiate_steps h
  obtain ⟨values, rfl⟩ := initGlobals_eq_ok initialised
  obtain ⟨table', rfl⟩ := initElements_eq_ok elements
  obtain ⟨memory, length, rfl⟩ := initData_eq_ok data
  rw [List.length_replicate] at length
  exact ⟨rfl, length, length ▸ small, _, _, initialised⟩

end WasmInstance

/-! ## Steps of the interpreter -/

/-- The instruction that the next step executes, with its immediates and the operand stack it
finds; none where a budget stops the step. -/
def nextInstruction (state : RunState) : Option (UInt8 × Immediate × OperandStack) :=
  match state.frames with
  | [] => none
  | frame :: _ =>
    if state.total + 1 > maxInterpreterSteps ∨ frame.stack.length > maxStackValues then none
    else match codeOf state.self frame with
      | .ok code =>
        match code[frame.pc]? with
        | some opcode =>
          match decodeImmediate code opcode (frame.pc + 1) with
          | .ok (immediate, _) => some (opcode, immediate, frame.stack)
          | _ => none
        | none => none
      | _ => none

/-- The index and the value of the `global.set` that is next. -/
def nextGlobalSet (state : RunState) : Option (Nat × WasmValue) :=
  match nextInstruction state with
  | some (opcode, .index index, value :: _) =>
    if opcode.toNat = 0x24 then some (index, value) else none
  | _ => none

/-- The pages that the `memory.grow` that is next asks for. -/
def nextGrow (state : RunState) : Option (BitVec 32) :=
  match nextInstruction state with
  | some (opcode, .reserved _, .i32 delta :: _) =>
    if opcode.toNat = 0x40 then some delta else none
  | _ => none

/-- What a step from `state` can make of the instance. -/
inductive Changes (state : RunState) : WasmInstance → Prop
  | keeps : Changes state state.self
  | globalSet {index : Nat} {value : WasmValue} (next : nextGlobalSet state = some (index, value))
      (inRange : index < state.self.globals.length) :
      Changes state { state.self with globals := state.self.globals.set index value }
  | store {memory : List UInt8} (length : memory.length = state.self.memory.length) :
      Changes state { state.self with memory := memory }
  | grow {delta : BitVec 32} (next : nextGrow state = some delta) :
      Changes state (state.self.grow delta).2

theorem WasmInstance.grow_snd (self : WasmInstance) (delta : BitVec 32) :
    ∃ memory, (self.grow delta).2 = { self with memory := memory } ∧
      (memory.length = self.memory.length ∨
        memory.length = self.memory.length + delta.toNat * pageSize ∧
          memory.length ≤ maxMemoryBytes) := by
  unfold grow
  dsimp only
  split
  · exact ⟨self.memory, rfl, .inl rfl⟩
  · rename_i granted
    have length : (self.memory ++ List.replicate (delta.toNat * pageSize) (0 : UInt8)).length =
        self.memory.length + delta.toNat * pageSize := by simp
    refine ⟨_, rfl, .inr ⟨length, ?_⟩⟩
    rw [length]
    exact Nat.le_of_not_lt fun exceeds => granted (.inr exceeds)

/-- Only `global.set`, the stores and `memory.grow` change the instance. -/
theorem execImmediate_changes {state : RunState} {frame : Frame} {opcode : UInt8}
    {code : List UInt8} {immediate : Immediate}
    (next : nextInstruction state = some (opcode, immediate, frame.stack))
    (has : immediate.layout.Has opcode.toNat ∨ (immediate = .none ∧ opcode.toNat = 0x1C)) :
    (execImmediate state.self opcode code immediate frame).Ensures
      fun result => Changes state result.2.1 := by
  refine (execImmediate_executed state.self opcode code immediate frame).mono fun result executed => ?_
  cases executed with
  | globalSet last popped inRange =>
    have opcodes : opcode.toNat = 0x0C ∨ opcode.toNat = 0x0D ∨ opcode.toNat = 0x10 ∨
        opcode.toNat = 0x12 ∨ opcode.toNat = 0x13 ∨ (0x20 ≤ opcode.toNat ∧ opcode.toNat ≤ 0x24) := by
      simpa [Immediate.layout, Layout.Has] using has
    simp only [List.mem_cons, List.not_mem_nil, or_false, not_or] at last
    have isSet : opcode.toNat = 0x24 := by omega
    exact .globalSet (by simp [nextGlobalSet, next, popped, isSet]) inRange
  | store length => exact .store length
  | grow notSize popped =>
    have opcodes : opcode.toNat = 0x3F ∨ opcode.toNat = 0x40 := by
      simpa [Immediate.layout, Layout.Has] using has
    exact .grow (by simp [nextGrow, next, popped, opcodes.resolve_left notSize])
  | _ => exact .keeps

theorem dispatch_changes {state : RunState} {top : Frame} {below : List Frame}
    (frames : state.frames = top :: below) :
    (dispatch state.self top state.total).Ensures fun result => Changes state result.1 := by
  unfold dispatch
  refine .ite (fun _ _ impossible => by cases impossible) fun steps => ?_
  refine .ite (fun _ _ impossible => by cases impossible) fun height => ?_
  refine .bind fun code isCode => .bind fun opcode isOpcode => ?_
  refine .ite (fun _ => .bind fun _ _ => Outcome.ensures_ok .keeps) fun _ => ?_
  refine .bind fun result executed => .bind fun _ _ => Outcome.ensures_ok ?_
  obtain ⟨⟨immediate, pc⟩, read, executed⟩ := Outcome.bind_eq_ok.mp executed
  have here : code[top.pc]? = some opcode := by
    rwa [byteAt, Outcome.okOr_eq_ok] at isOpcode
  have next : nextInstruction state = some (opcode, immediate, top.stack) := by
    simp only at read
    simp only [nextInstruction, frames, steps, height, or_self, if_false, isCode, here, read]
  exact @execImmediate_changes _ { top with steps := top.steps + 1, pc := pc } _ _ _ next
    (decodeImmediate_has read) result executed

/-- The instance that a step leaves. -/
def instanceAfter : Status RunState RunResult → WasmInstance
  | .running state => state.self
  | .halted result => result.1

theorem nextState_changes (state : RunState) : Changes state (instanceAfter (nextState state)) := by
  obtain ⟨self, frames, total⟩ := state
  cases frames with
  | nil => exact .keeps
  | cons frame below =>
    have changes := @dispatch_changes ⟨self, frame :: below, total⟩ _ _ rfl
    unfold nextState
    dsimp only at changes ⊢
    cases dispatched : dispatch self frame total with
    | err message => exact .keeps
    | panic => exact .keeps
    | timeout => exact .keeps
    | ok result =>
      obtain ⟨self', signal⟩ := result
      have changed := changes _ dispatched
      cases signal with
      | next frame' => exact changed
      | leave results => cases below <;> exact changed
      | call index args caller =>
        dsimp only
        cases enterFunction self' index args (caller :: below) <;> exact changed

/-! ## Invocations -/

/-- What every step of an invocation keeps holds throughout it and after it. -/
theorem invoke_keeps {P : WasmInstance → Prop} {index : Nat}
    {args : List WasmValue} (start : P self)
    (step : ∀ state, Reachable self index args state → P state.self →
      ∀ after, Changes state after → P after) :
    (∀ state, Reachable self index args state → P state.self) ∧ P (self.invoke index args).1 := by
  have during : ∀ state, Reachable self index args state → P state.self := by
    rintro state ⟨type, frames, started, run⟩
    have both : Reachable self index args state ∧ P state.self := by
      refine run.invariant (P := fun s => Reachable self index args s ∧ P s.self)
        ⟨⟨type, frames, started, .refl _⟩, start⟩ ?_
      rintro before after ⟨reached, holds⟩ next
      refine ⟨reached.steps (.head next (.refl _)), ?_⟩
      have changes := nextState_changes before
      rw [next] at changes
      exact step before reached holds _ changes
    exact both.2
  refine ⟨during, ?_⟩
  rcases invokeStart_returns self index args with ⟨⟨type, frames⟩, started⟩ | ⟨message, fails⟩
  · obtain ⟨last, self', outcome, halts, -, invoked⟩ := invoke_halts started
    have reached : Reachable self index args last := ⟨type, frames, started, halts.1⟩
    have changes := nextState_changes last
    rw [halts.2] at changes
    rw [invoked]
    exact step last reached (during last reached) _ changes
  · simpa [WasmInstance.invoke, fails] using start

/-! ## What the embedder does -/

/-- A request by the embedder to an instance. -/
inductive Request where
  | invoke (index : Nat) (args : List WasmValue)
  | growMemory (deltaPages : Nat)
  | writeMemory (offset : Nat) (bytes : List UInt8)

/-- The instance after a request; one that fails before it starts changes nothing. -/
def Request.run (self : WasmInstance) : Request → WasmInstance
  | .invoke index args => (self.invoke index args).1
  | .growMemory deltaPages =>
    match self.growMemory deltaPages with
    | .ok (_, grown) => grown
    | _ => self
  | .writeMemory offset bytes =>
    match self.writeMemory offset bytes with
    | .ok written => written
    | _ => self

theorem Request.run_growMemory (self : WasmInstance) (deltaPages : Nat) :
    ∃ memory, Request.run self (.growMemory deltaPages) = { self with memory := memory } ∧
      (memory.length = self.memory.length ∨
        memory.length = self.memory.length + deltaPages * pageSize ∧
          memory.length ≤ maxMemoryBytes) := by
  by_cases exceeds : self.memory.length + deltaPages * pageSize > maxMemoryBytes
  · have refused : self.growMemory deltaPages = .err "Memory growth exceeds 16 MiB" :=
      if_pos exceeds
    rw [Request.run, refused]
    exact ⟨self.memory, rfl, .inl rfl⟩
  · have grown : self.growMemory deltaPages = .ok (self.memory.length / pageSize,
        { self with memory := self.memory ++ List.replicate (deltaPages * pageSize) 0 }) :=
      if_neg exceeds
    rw [Request.run, grown]
    refine ⟨self.memory ++ List.replicate (deltaPages * pageSize) 0, rfl, .inr ?_⟩
    rw [List.length_append, List.length_replicate]
    exact ⟨rfl, Nat.le_of_not_lt exceeds⟩

theorem Request.run_writeMemory (self : WasmInstance) (offset : Nat) (bytes : List UInt8) :
    ∃ memory, memory.length = self.memory.length ∧
      Request.run self (.writeMemory offset bytes) = { self with memory := memory } := by
  have same : ∃ memory, memory.length = self.memory.length ∧
      self = { self with memory := memory } := ⟨self.memory, rfl, rfl⟩
  unfold Request.run WasmInstance.writeMemory
  dsimp only
  by_cases overflow : offset + bytes.length ≥ 2 ^ 64
  · rw [if_pos overflow]
    exact same
  rw [if_neg overflow]
  by_cases outside : offset + bytes.length > self.memory.length ∨ self.memory.length > maxMemoryBytes
  · rw [if_pos outside]
    exact same
  · rw [if_neg outside]
    refine ⟨_, ?_, rfl⟩
    simp only [List.length_append, List.length_take, List.length_drop]
    omega

def after (self : WasmInstance) (requests : List Request) : WasmInstance :=
  requests.foldl Request.run self

/-- Every request of the sequence is made where `Allowed` has it. -/
def AllAllowed (Allowed : WasmInstance → Request → Prop) : WasmInstance → List Request → Prop
  | _, [] => True
  | self, request :: requests =>
    Allowed self request ∧ AllAllowed Allowed (request.run self) requests

theorem after_keeps {P : WasmInstance → Prop} {Allowed : WasmInstance → Request → Prop}
    (step : ∀ self request, P self → Allowed self request → P (request.run self))
    {requests : List Request} (start : P self)
    (allowed : AllAllowed Allowed self requests) : P (after self requests) := by
  induction requests generalizing self with
  | nil => exact start
  | cons request requests ih => exact ih (step self request start allowed.1) allowed.2

end GhitaBrowser.Wasm
