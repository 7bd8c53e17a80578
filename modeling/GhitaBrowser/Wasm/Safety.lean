import GhitaBrowser.Wasm.Run

/-!
# Which runs end without a panic

Two places of the interpreter can panic: the `split_off` at an `end` that closes a
block, when the operand stack is below the height the block recorded, and the shift
in the loop that skips a type-index block type, on the sixth byte of the
continuation. `SafeStep` rules both out before a step; `invoke_returns_iff` shows
that an invocation ends in `Ok` or `Err` exactly when every state of its run is
safe. `validate_code` ensures neither, as the two modules at the end show.
-/

namespace GhitaBrowser.Wasm

open Outcome (bind_eq_ok ensures_ok err_returns okOr_returns ok_returns)

/-- What has to hold of the top frame before a step, when the step is taken. -/
def SafeDispatch (self : WasmInstance) (frame : Frame) (total : Nat) : Prop :=
  total < maxInterpreterSteps → frame.stack.length ≤ maxStackValues →
    ∀ code opcode, codeOf self frame = .ok code → code[frame.pc]? = some opcode →
      (opcode.toNat = 0x0B → ∀ control ∈ frame.controls.head?,
        control.stackHeight ≤ frame.stack.length) ∧
      (opensBlock opcode → ∀ first ∈ code[frame.pc + 1]?, ¬singleByteBlockType first →
        ShortContinuation code (frame.pc + 2))

def SafeStep (state : RunState) : Prop :=
  ∀ frame ∈ state.frames.head?, SafeDispatch state.self frame state.total

/-- The states of the run that an invocation starts. -/
def Reachable (self : WasmInstance) (index : Nat) (args : List WasmValue)
    (state : RunState) : Prop :=
  ∃ type frames, invokeStart self index args = .ok (type, frames) ∧
    Machine.Steps nextState ⟨self, frames, 0⟩ state

/-! ## What an instruction does -/

theorem pop_eq_ok {missing : String} {stack : OperandStack} {popped : WasmValue × OperandStack}
    (h : pop missing stack = .ok popped) : stack = popped.1 :: popped.2 := by
  cases stack with
  | nil => cases h
  | cons value stack =>
    cases h
    rfl

theorem popCondition_eq_ok {missing wrongType : String} {stack : OperandStack}
    {popped : BitVec 32 × OperandStack} (h : popCondition missing wrongType stack = .ok popped) :
    stack = .i32 popped.1 :: popped.2 := by
  obtain ⟨⟨value, below⟩, first, h⟩ := bind_eq_ok.mp h
  have whole := pop_eq_ok first
  cases value <;> cases h
  exact whole

theorem WasmInstance.memoryStore_eq_ok {self after : WasmInstance} {address : Nat} {opcode : UInt8}
    {value : WasmValue} (h : self.memoryStore address opcode value = .ok after) :
    ∃ memory, memory.length = self.memory.length ∧ after = { self with memory := memory } := by
  obtain ⟨bytes, _, h⟩ := bind_eq_ok.mp h
  dsimp only at h
  split at h
  · rename_i fits
    cases h
    refine ⟨_, ?_, rfl⟩
    simp only [List.length_append, List.length_take, List.length_drop]
    omega
  · cases h

/-- What an instruction does that succeeds: all that `execImmediate` can answer. -/
inductive Executed (self : WasmInstance) (opcode : UInt8) (code : List UInt8) (frame : Frame) :
    Immediate → Action × WasmInstance × Frame → Prop
  | stays {immediate : Immediate} (stack : OperandStack) (locals : List WasmValue) :
      Executed self opcode code frame immediate
        (.continue, self, { frame with stack := stack, locals := locals })
  | jumps {endPc : Nat} (found : findEnd code frame.pc = .ok endPc) :
      Executed self opcode code frame .none (.continue, self, { frame with pc := endPc })
  | opens {type : BlockType} {after : Frame} (opened : openBlock self opcode code type frame = .ok after) :
      Executed self opcode code frame (.block type) (.continue, self, after)
  | returns (isReturn : opcode.toNat = 0x0F) :
      Executed self opcode code frame .none (.return, self, frame)
  | br {label : Nat} (isBr : opcode.toNat = 0x0C) :
      Executed self opcode code frame (.index label) (.branch label, self, frame)
  | brIf {label : Nat} {condition : BitVec 32} {stack : OperandStack} (isIf : opcode.toNat = 0x0D)
      (popped : frame.stack = .i32 condition :: stack) :
      Executed self opcode code frame (.index label) (.branch label, self, { frame with stack := stack })
  | brTable {labels : List Nat} {last label : Nat} {index : BitVec 32} {stack : OperandStack}
      (popped : frame.stack = .i32 index :: stack) :
      Executed self opcode code frame (.brTable labels last)
        (.branch label, self, { frame with stack := stack })
  | call {index : Nat} (isCall : opcode.toNat = 0x10 ∨ opcode.toNat = 0x12) :
      Executed self opcode code frame (.index index) (.call index, self, frame)
  | callByType {index : Nat} (isIndirect : opcode.toNat = 0x13) :
      Executed self opcode code frame (.index index) (.callIndirect index, self, frame)
  | callIndirect {typeIndex tableIndex : Nat} :
      Executed self opcode code frame (.callIndirect typeIndex tableIndex)
        (.callIndirect typeIndex, self, frame)
  | globalSet {index : Nat} {value : WasmValue} {stack : OperandStack}
      (last : opcode.toNat ∉ [0x0C, 0x0D, 0x10, 0x12, 0x13, 0x20, 0x21, 0x22, 0x23])
      (popped : frame.stack = value :: stack) (inRange : index < self.globals.length) :
      Executed self opcode code frame (.index index)
        (.continue, { self with globals := self.globals.set index value }, { frame with stack := stack })
  | store {align offset : Nat} {memory : List UInt8} {stack : OperandStack}
      (length : memory.length = self.memory.length) :
      Executed self opcode code frame (.memarg align offset)
        (.continue, { self with memory := memory }, { frame with stack := stack })
  | grow {byte : UInt8} {delta : BitVec 32} {stack : OperandStack} (notSize : opcode.toNat ≠ 0x3F)
      (popped : frame.stack = .i32 delta :: stack) :
      Executed self opcode code frame (.reserved byte)
        (.continue, (self.grow delta).2, { frame with stack := .i32 (self.grow delta).1 :: stack })

theorem execImmediate_executed (self : WasmInstance) (opcode : UInt8) (code : List UInt8)
    (immediate : Immediate) (frame : Frame) :
    (execImmediate self opcode code immediate frame).Ensures
      (Executed self opcode code frame immediate) := by
  have put : ∀ stack, (Outcome.ok (Action.continue, self, { frame with stack := stack })).Ensures
      (Executed self opcode code frame immediate) := fun _ => ensures_ok (.stays _ _)
  have fails : ∀ message, (Outcome.err message : Outcome (Action × WasmInstance × Frame)).Ensures
      (Executed self opcode code frame immediate) := fun _ _ impossible => by cases impossible
  cases immediate with
  | none =>
    refine .ite (fun _ => .bind fun _ found => ensures_ok (.jumps found)) fun _ => ?_
    refine .ite (fun isReturn => ensures_ok (.returns isReturn)) fun _ => ?_
    refine .ite (fun _ => .bind fun _ _ => put _) fun _ => ?_
    refine .ite (fun _ => .bind fun _ _ => .bind fun _ _ => .bind fun _ _ => ?_) fun _ => ?_
    · exact .ite (fun _ => fails _) fun _ => put _
    · exact .ite (fun _ => .bind fun _ _ => put _) fun _ => fails _
  | block type => exact .bind fun _ opened => ensures_ok (.opens opened)
  | index index =>
    refine .ite (fun isBranch => .ite (fun _ => fails _) fun _ => ?_) fun notBranch => ?_
    · refine .ite (fun isIf => .bind fun popped pops => ensures_ok ?_) fun notIf => ?_
      · by_cases zero : popped.1 = 0
        · rw [if_pos zero]
          exact .stays _ _
        · rw [if_neg zero]
          exact .brIf isIf (popCondition_eq_ok pops)
      · exact ensures_ok (.br (isBranch.resolve_right notIf))
    refine .ite (fun isCall => ensures_ok (.call isCall)) fun notCall => ?_
    refine .ite (fun is => ensures_ok (.callByType is)) fun notIndirect => ?_
    refine .ite (fun _ => ?_) fun notLocalGet => ?_
    · split
      · exact put _
      · exact fails _
    refine .ite (fun _ => .bind fun _ _ => ?_) fun notLocalSet => ?_
    · exact .ite (fun _ => ensures_ok (.stays _ _)) fun _ => fails _
    refine .ite (fun _ => .bind fun _ _ => ?_) fun notTee => .ite (fun _ => ?_) fun notGet => ?_
    · exact .ite (fun _ => ensures_ok (.stays _ _)) fun _ => fails _
    · split
      · exact put _
      · exact fails _
    refine .bind fun popped pops => .ite (fun inRange => ?_) fun _ => fails _
    refine ensures_ok (.globalSet ?_ (pop_eq_ok pops) inRange)
    simp only [List.mem_cons, List.not_mem_nil, or_false]
    omega
  | brTable labels last =>
    exact .bind fun _ pops => ensures_ok (.brTable (popCondition_eq_ok pops))
  | callIndirect typeIndex tableIndex => exact ensures_ok .callIndirect
  | selectTypes types => exact fails _
  | memarg align offset =>
    refine .ite (fun _ => .bind fun _ _ => .bind fun _ _ => put _) fun _ => ?_
    refine .bind fun _ _ => .bind fun _ _ => .bind fun after stored => ?_
    obtain ⟨memory, length, rfl⟩ := WasmInstance.memoryStore_eq_ok stored
    exact ensures_ok (.store length)
  | reserved byte =>
    refine .ite (fun _ => put _) fun notSize => .bind fun _ pops => ?_
    exact ensures_ok (.grow notSize (popCondition_eq_ok pops))
  | i32 value => exact put _
  | i64 value => exact put _
  | f32 bytes => exact put _
  | f64 bytes => exact put _

variable {self : WasmInstance}

theorem functionType_of_defined {index defined typeIndex : Nat}
    {type : FuncType} (body : self.definedBodyIndex index = some defined)
    (typeOf : self.module.functionTypeIndices[defined]? = some typeIndex)
    (typed : self.module.types[typeIndex]? = some type) :
    self.functionType index = some type := by
  unfold WasmInstance.definedBodyIndex at body
  unfold WasmInstance.functionType
  split at body
  · cases body
  case isFalse notImported =>
    cases body
    rw [if_neg notImported, typeOf]
    exact typed

theorem callWith_eq_ok {frame : Frame} {index paramCount : Nat} {missing : String} {signal : Signal}
    (h : callWith frame index paramCount missing = .ok signal) :
    paramCount ≤ frame.stack.length ∧
      ∃ args, signal = .call index args { frame with stack := frame.stack.drop paramCount } := by
  unfold callWith at h
  split at h
  · cases h
  case isFalse enough =>
    rw [splitOff_of_le (by omega)] at h
    cases h
    have all : frame.stack.length - (frame.stack.length - paramCount) = paramCount := by omega
    exact ⟨by omega, _, by rw [all]⟩

/-- What comes of the action of an instruction. -/
inductive Performed (self : WasmInstance) (frame : Frame) : Action → Signal → Prop
  | goesOn : Performed self frame .continue (.next frame)
  | leaves {action : Action} {results : List WasmValue}
      (asks : action = .branch frame.controls.length ∨ action = .return)
      (sliced : sliceFrom frame.stack frame.stackHeight = .ok results) :
      Performed self frame action (.leave results)
  | lands {label : Nat} {control : ControlFrame} {keep : List WasmValue}
      (found : frame.controls[label]? = some control)
      (sliced : sliceFrom frame.stack (frame.stack.length -
        min control.resultCount (frame.stack.length - control.stackHeight)) = .ok keep) :
      Performed self frame (.branch label) (.next { frame with
        stack := extend (truncate frame.stack control.stackHeight) keep
        controls := frame.controls.drop label
        pc := branchTarget control })
  | calls {index : Nat} {type : FuncType} {args : List WasmValue}
      (typed : self.functionType index = some type) (enough : type.parameters.length ≤ frame.stack.length) :
      Performed self frame (.call index)
        (.call index args { frame with stack := frame.stack.drop type.parameters.length })
  | callsIndirect {typeIndex index : Nat} {type : FuncType} {args : List WasmValue}
      (typed : self.functionType index = some type)
      (enough : 1 + type.parameters.length ≤ frame.stack.length) :
      Performed self frame (.callIndirect typeIndex)
        (.call index args { frame with stack := frame.stack.drop (1 + type.parameters.length) })

theorem perform_performed (self : WasmInstance) (frame : Frame) (action : Action) :
    (perform self frame action).Ensures (Performed self frame action) := by
  cases action with
  | «continue» => exact ensures_ok .goesOn
  | branch label =>
    refine .ite (fun outer => .bind fun _ sliced => ?_) fun _ => ?_
    · exact ensures_ok (.leaves (.inl (congrArg _ outer)) sliced)
    · split
      · rintro _ ⟨⟩
      · next found => exact .bind fun _ sliced => ensures_ok (.lands found sliced)
  | «return» => exact .bind fun _ sliced => ensures_ok (.leaves (.inr rfl) sliced)
  | call index =>
    refine .bind fun type typed signal h => ?_
    obtain ⟨enough, args, rfl⟩ := callWith_eq_ok h
    exact .calls (Outcome.okOr_eq_ok.mp typed) enough
  | callIndirect typeIndex =>
    refine .bind fun popped pops => .ite (fun _ _ impossible => by cases impossible) fun _ => ?_
    refine .bind fun entry _ => .bind fun defined body => .bind fun calleeType typeOf => ?_
    refine .ite (fun _ _ impossible => by cases impossible) fun same => ?_
    refine .bind fun type typed signal h => ?_
    obtain rfl := Decidable.not_not.mp same
    obtain ⟨enough, args, rfl⟩ := callWith_eq_ok h
    rw [Outcome.okOr_eq_ok] at body typeOf typed
    have whole := popCondition_eq_ok pops
    have below : frame.stack.drop (1 + type.parameters.length) =
        popped.2.drop type.parameters.length := by
      rw [whole, Nat.add_comm, List.drop_succ_cons]
    rw [← below]
    refine .callsIndirect (functionType_of_defined body typeOf typed) ?_
    rw [whole, List.length_cons, Nat.add_comm]
    exact Nat.succ_le_succ enough

/-! ## The heights a frame starts with stay -/

/-- The parts of a frame that only a call sets. -/
def Frame.SameCall (a b : Frame) : Prop :=
  b.functionIndex = a.functionIndex ∧ b.stackHeight = a.stackHeight

theorem openBlock_sameCall (self : WasmInstance) (opcode : UInt8) (code : List UInt8)
    (type : BlockType) (frame : Frame) :
    (openBlock self opcode code type frame).Ensures frame.SameCall := by
  unfold openBlock
  refine .bind fun resultCount _ => ?_
  refine .ite (fun _ => .bind fun popped _ => ?_) fun _ => ?_
  · refine .ite (fun _ => .bind fun _ _ => .bind fun _ _ => ?_) fun _ => ?_
    · exact ensures_ok ⟨rfl, rfl⟩
    · exact .bind fun _ _ => ensures_ok ⟨rfl, rfl⟩
  · exact .bind fun _ _ => ensures_ok ⟨rfl, rfl⟩

theorem execImmediate_sameCall (self : WasmInstance) (opcode : UInt8) (code : List UInt8)
    (immediate : Immediate) (frame : Frame) :
    (execImmediate self opcode code immediate frame).Ensures
      fun result => frame.SameCall result.2.2 := by
  refine (execImmediate_executed self opcode code immediate frame).mono fun result executed => ?_
  cases executed with
  | opens opened => exact openBlock_sameCall _ _ _ _ _ _ opened
  | _ => exact ⟨rfl, rfl⟩

/-- The frame that a signal leaves on top of the frames below. -/
def Signal.frame? : Signal → Option Frame
  | .next frame | .call _ _ frame => some frame
  | .leave _ => none

theorem endOpcode_sameCall (frame : Frame) :
    (endOpcode frame).Ensures fun signal => ∀ after ∈ signal.frame?, frame.SameCall after := by
  unfold endOpcode
  split
  · refine .bind fun _ _ => ensures_ok ?_
    rintro after ⟨⟩
  · refine .bind fun _ _ => ensures_ok ?_
    rintro after ⟨⟩
    exact ⟨rfl, rfl⟩

theorem perform_sameCall (self : WasmInstance) (frame : Frame) (action : Action) :
    (perform self frame action).Ensures
      fun signal => ∀ after ∈ signal.frame?, frame.SameCall after := by
  intro signal performed after inSignal
  cases perform_performed self frame action signal performed with
  | leaves asks sliced => cases inSignal
  | _ =>
    cases inSignal
    exact ⟨rfl, rfl⟩

theorem dispatch_sameCall (self : WasmInstance) (frame : Frame) (total : Nat) :
    (dispatch self frame total).Ensures
      fun result => ∀ after ∈ result.2.frame?, frame.SameCall after := by
  unfold dispatch
  refine .ite (fun _ _ impossible => by cases impossible) fun _ => ?_
  refine .ite (fun _ _ impossible => by cases impossible) fun _ => ?_
  refine .bind fun code _ => .bind fun opcode _ => ?_
  refine .ite (fun _ => ?_) fun _ => ?_
  · refine .bind fun signal ended => ensures_ok ?_
    have closed := endOpcode_sameCall _ signal ended
    exact closed
  · refine .bind fun result executed => .bind fun signal performed => ensures_ok ?_
    obtain ⟨⟨immediate, pc⟩, _, executed⟩ := bind_eq_ok.mp executed
    have before := execImmediate_sameCall _ _ _ _ _ result executed
    intro after inSignal
    have behind := perform_sameCall _ _ _ signal performed after inSignal
    exact ⟨behind.1.trans before.1, behind.2.trans before.2⟩

/-- What a step that goes on does to the frames. -/
theorem nextState_cases {a b : RunState} (h : nextState a = .running b) :
    ∃ frame below, a.frames = frame :: below ∧
      ((∃ self' frame', dispatch a.self frame a.total = .ok (self', .next frame') ∧
          b.frames = frame' :: below) ∨
        (∃ self' results caller rest,
          dispatch a.self frame a.total = .ok (self', .leave results) ∧
          below = caller :: rest ∧ b.frames = caller.receive results :: rest) ∨
        ∃ self' index args caller callee,
          dispatch a.self frame a.total = .ok (self', .call index args caller) ∧
          b.frames = callee :: caller :: below ∧
          enterFunction self' index args (caller :: below) = .ok b.frames) := by
  obtain ⟨self, frames, total⟩ := a
  cases frames with
  | nil => cases h
  | cons frame below =>
    refine ⟨frame, below, rfl, ?_⟩
    simp only [nextState] at h
    cases dispatched : dispatch self frame total with
    | err message => simp [dispatched] at h
    | panic => simp [dispatched] at h
    | timeout => simp [dispatched] at h
    | ok result =>
      obtain ⟨self', signal⟩ := result
      rw [dispatched] at h
      cases signal with
      | next frame' =>
        cases h
        exact .inl ⟨self', frame', rfl, rfl⟩
      | leave results =>
        cases below with
        | nil => cases h
        | cons caller rest =>
          cases h
          exact .inr (.inl ⟨self', results, caller, rest, rfl, rfl, rfl⟩)
      | call index args caller =>
        dsimp only at h
        cases entered : enterFunction self' index args (caller :: below) with
        | err message => simp [entered] at h
        | panic => simp [entered] at h
        | timeout => simp [entered] at h
        | ok frames =>
          rw [entered] at h
          cases h
          obtain ⟨locals, rfl⟩ := enterFunction_eq_ok entered
          exact .inr (.inr ⟨self', index, args, caller, _, rfl, rfl, entered⟩)

/-- Every frame of the state starts its operands at height zero, as `run_function` sets it. -/
def FromZero (state : RunState) : Prop := ∀ frame ∈ state.frames, frame.stackHeight = 0

theorem nextState_fromZero {a b : RunState} (h : nextState a = .running b) (zero : FromZero a) :
    FromZero b := by
  obtain ⟨frame, below, frames, cases'⟩ := nextState_cases h
  unfold FromZero at zero ⊢
  rw [frames, List.forall_mem_cons] at zero
  have kept := dispatch_sameCall a.self frame a.total
  rcases cases' with ⟨_, after, done, left⟩ | ⟨_, _, caller, rest, _, rfl, left⟩ |
    ⟨_, _, _, caller, callee, done, _, entered⟩
  · have same := (kept _ done after rfl).2
    rw [left]
    exact List.forall_mem_cons.mpr ⟨same.trans zero.1, zero.2⟩
  · rw [left]
    exact List.forall_mem_cons.mpr (List.forall_mem_cons.mp zero.2)
  · have same := (kept _ done caller rfl).2
    obtain ⟨locals, top⟩ := enterFunction_eq_ok entered
    rw [top]
    exact List.forall_mem_cons.mpr ⟨rfl, List.forall_mem_cons.mpr ⟨same.trans zero.1, zero.2⟩⟩

theorem steps_fromZero {a b : RunState} (h : Machine.Steps nextState a b) (zero : FromZero a) :
    FromZero b := h.invariant zero fun _ _ zero step => nextState_fromZero step zero

variable {args : List WasmValue}

theorem reachable_fromZero {index : Nat}
    {state : RunState} (h : Reachable self index args state) : FromZero state := by
  obtain ⟨type, frames, started, run⟩ := h
  refine steps_fromZero run ?_
  obtain ⟨type', _, started⟩ := bind_eq_ok.mp started
  obtain ⟨entered, enters, started⟩ := bind_eq_ok.mp started
  cases started
  obtain ⟨locals, rfl⟩ := enterFunction_eq_ok enters
  simp [FromZero]

/-! ## A step panics exactly when it is not safe -/

section Step

variable {self : WasmInstance} {frame : Frame}

theorem endOpcode_returns_iff (zero : frame.stackHeight = 0) :
    (endOpcode frame).Returns ↔
      ∀ control ∈ frame.controls.head?, control.stackHeight ≤ frame.stack.length := by
  unfold endOpcode
  cases frame.controls with
  | nil =>
    rw [sliceFrom_of_le (by omega)]
    simp
  | cons control controls =>
    by_cases inRange : control.stackHeight ≤ frame.stack.length
    · simp [splitOff_of_le inRange, inRange]
    · simp [splitOff_of_lt (Nat.lt_of_not_le inRange), inRange, Outcome.Returns]

theorem endOpcode_ne_timeout (frame : Frame) : endOpcode frame ≠ .timeout := by
  unfold endOpcode sliceFrom splitOff
  cases frame.controls with
  | nil => dsimp only; split <;> simp
  | cons control controls => dsimp only; split <;> simp

theorem callWith_returns (frame : Frame) (index paramCount : Nat) (missing : String) :
    (callWith frame index paramCount missing).Returns := by
  unfold callWith
  refine .ite (fun _ => err_returns _) fun _ => ?_
  rw [splitOff_of_le (by omega)]
  exact ok_returns _

theorem perform_returns (zero : frame.stackHeight = 0) (action : Action) :
    (perform self frame action).Returns := by
  have slice : ∀ position ≤ frame.stack.length, (sliceFrom frame.stack position).Returns :=
    fun position inRange => by simp [sliceFrom_of_le inRange]
  cases action with
  | «continue» => exact ok_returns _
  | branch label =>
    refine .ite (fun _ => (slice _ (by omega)).bind fun _ _ => ok_returns _) fun _ => ?_
    split
    · exact err_returns _
    · exact (slice _ (by omega)).bind fun _ _ => ok_returns _
  | call index => exact (okOr_returns ..).bind fun _ _ => callWith_returns ..
  | callIndirect typeIndex =>
    refine (popCondition_returns ..).bind fun _ _ => .ite (fun _ => err_returns _)
      fun _ => ?_
    refine (okOr_returns ..).bind fun _ _ => (okOr_returns ..).bind fun _ _ => ?_
    refine (okOr_returns ..).bind fun _ _ => .ite (fun _ => err_returns _)
      fun _ => ?_
    exact (okOr_returns ..).bind fun _ _ => callWith_returns ..
  | «return» => exact (slice _ (by omega)).bind fun _ _ => ok_returns _

theorem execInstruction_cases (self : WasmInstance) (frame : Frame) (opcode : UInt8)
    (code : List UInt8) :
    let safe := opensBlock opcode → ∀ first ∈ code[frame.pc]?, ¬singleByteBlockType first →
      ShortContinuation code (frame.pc + 1)
    (safe ∧ (execInstruction self opcode code frame).Returns) ∨
      (¬safe ∧ execInstruction self opcode code frame = .panic) := by
  intro safe
  unfold execInstruction
  have runs : (decodeImmediate code opcode frame.pc).Returns →
      (decodeImmediate code opcode frame.pc >>= fun decoded =>
        execImmediate self opcode code decoded.1 { frame with pc := decoded.2 }).Returns :=
    fun decoded => decoded.bind fun _ _ => execImmediate_returns ..
  by_cases opens : opensBlock opcode
  · by_cases isSafe : safe
    · refine .inl ⟨isSafe, runs ?_⟩
      rw [decodeImmediate_of_opensBlock opens]
      have read := (execBlockType_returns_iff code frame.pc).mpr (isSafe opens)
      exact read.bind fun _ _ => ok_returns _
    · have unread : ¬(execBlockType code frame.pc).Returns := fun read =>
        isSafe fun _ => (execBlockType_returns_iff code frame.pc).mp read
      refine .inr ⟨isSafe, ?_⟩
      rw [decodeImmediate_of_opensBlock opens,
        Outcome.eq_panic unread (execBlockType_ne_timeout code frame.pc)]
      rfl
  · exact .inl ⟨fun opens' => absurd opens' opens, runs (decodeImmediate_returns opens)⟩

theorem execOpcode_cases (self : WasmInstance) {frame : Frame} (zero : frame.stackHeight = 0)
    (code : List UInt8) (opcode : UInt8) :
    let safe := (opcode.toNat = 0x0B → ∀ control ∈ frame.controls.head?,
        control.stackHeight ≤ frame.stack.length) ∧
      (opensBlock opcode → ∀ first ∈ code[frame.pc]?, ¬singleByteBlockType first →
        ShortContinuation code (frame.pc + 1))
    (safe ∧ (execOpcode self code opcode frame).Returns) ∨
      (¬safe ∧ execOpcode self code opcode frame = .panic) := by
  intro safe
  unfold execOpcode
  by_cases ends : opcode.toNat = 0x0B
  · have closed : ¬opensBlock opcode := fun opens => by
      have := opens.1
      have := opens.2
      omega
    rw [if_pos ends]
    by_cases returns : (endOpcode frame).Returns
    · refine .inl ⟨⟨fun _ => (endOpcode_returns_iff zero).mp returns, fun opens => ?_⟩, ?_⟩
      · exact absurd opens closed
      · exact returns.bind fun _ _ => ok_returns _
    · refine .inr ⟨fun isSafe => returns ((endOpcode_returns_iff zero).mpr (isSafe.1 ends)), ?_⟩
      rw [Outcome.eq_panic returns (endOpcode_ne_timeout frame)]
      rfl
  · rw [if_neg ends]
    rcases execInstruction_cases self frame opcode code with ⟨isSafe, executed⟩ | ⟨unsafe', panics⟩
    · refine .inl ⟨⟨fun ends' => absurd ends' ends, isSafe⟩, ?_⟩
      refine executed.bind fun result executed => ?_
      obtain ⟨⟨immediate, pc⟩, _, executed⟩ := bind_eq_ok.mp executed
      have same := (execImmediate_sameCall _ _ _ _ _ result executed).2
      exact (perform_returns (same.trans zero) _).bind fun _ _ => ok_returns _
    · refine .inr ⟨fun isSafe => unsafe' isSafe.2, ?_⟩
      rw [panics]
      rfl

theorem codeOf_returns (self : WasmInstance) (frame : Frame) : (codeOf self frame).Returns := by
  unfold codeOf
  refine (okOr_returns ..).bind fun _ _ => (okOr_returns ..).bind fun _ _ => ?_
  exact ok_returns _

theorem dispatch_cases (self : WasmInstance) {frame : Frame} (zero : frame.stackHeight = 0) (total : Nat) :
    (SafeDispatch self frame total ∧ (dispatch self frame total).Returns) ∨
      (¬SafeDispatch self frame total ∧ dispatch self frame total = .panic) := by
  unfold dispatch
  by_cases budget : total + 1 > maxInterpreterSteps
  · rw [if_pos budget]
    exact .inl ⟨fun inBudget => by omega, err_returns _⟩
  rw [if_neg budget]
  by_cases tall : frame.stack.length > maxStackValues
  · rw [if_pos tall]
    exact .inl ⟨fun _ small => by omega, err_returns _⟩
  rw [if_neg tall]
  rcases codeOf_returns self frame with ⟨code, hcode⟩ | ⟨message, hcode⟩
  · rw [hcode, Outcome.ok_bind]
    rcases byteAt_cases code frame.pc "Function ran past its body" with
      ⟨empty, here⟩ | ⟨opcode, inCode, _, here⟩
    · rw [here]
      refine .inl ⟨fun _ _ code' opcode hcode' inCode => ?_, err_returns _⟩
      rw [hcode] at hcode'
      cases hcode'
      have outside := List.getElem?_eq_none_iff.mpr (List.drop_eq_nil_iff.mp empty)
      rw [outside] at inCode
      cases inCode
    · rw [here, Outcome.ok_bind]
      have top : ({ frame with steps := frame.steps + 1, pc := frame.pc + 1 } : Frame).stackHeight
          = 0 := zero
      rcases execOpcode_cases self top code opcode with ⟨safe, returns⟩ | ⟨safe, panics⟩
      · refine .inl ⟨fun _ _ code' opcode' hcode' inCode' => ?_, returns⟩
        rw [hcode] at hcode'
        cases hcode'
        rw [inCode] at inCode'
        cases inCode'
        exact safe
      · exact .inr ⟨fun isSafe => safe (isSafe (by omega) (by omega) code opcode hcode inCode),
          panics⟩
  · rw [hcode]
    refine .inl ⟨fun _ _ code opcode hcode' => ?_, err_returns _⟩
    rw [hcode] at hcode'
    cases hcode'

end Step

/-! ## The run of an invocation -/

theorem zeroOf_returns (type : ValueType) : (zeroOf type).Returns := by
  cases type <;> simp [zeroOf]

theorem zerosOf_returns (decl : LocalDecl) : (zerosOf decl).Returns := by
  refine .ite (fun _ => ok_returns _) fun _ => ?_
  exact (zeroOf_returns _).bind fun _ _ => ok_returns _

theorem zeroLocals_returns (decls : List LocalDecl) : (zeroLocals decls).Returns := by
  induction decls with
  | nil => exact ok_returns _
  | cons decl rest ih =>
    rw [zeroLocals]
    exact (zerosOf_returns decl).bind fun _ _ => ih.bind fun _ _ => ok_returns _

theorem enterFunction_returns (self : WasmInstance) (index : Nat) (args : List WasmValue)
    (frames : List Frame) : (enterFunction self index args frames).Returns := by
  refine .ite (fun _ => err_returns _) fun _ => ?_
  refine (okOr_returns ..).bind fun _ _ => (okOr_returns ..).bind fun _ _ => ?_
  exact (zeroLocals_returns _).bind fun _ _ => ok_returns _

theorem invokeStart_returns (self : WasmInstance) (index : Nat) (args : List WasmValue) :
    (invokeStart self index args).Returns := by
  refine .bind ?_ fun _ _ => (enterFunction_returns ..).bind fun _ _ => ok_returns _
  refine (okOr_returns ..).bind fun _ _ => (okOr_returns ..).bind fun _ _ => ?_
  refine (okOr_returns ..).bind fun _ _ => .ite (fun _ => err_returns _) fun _ => ?_
  exact .ite (fun _ => err_returns _) fun _ => ok_returns _

theorem dispatch_budget {frame : Frame} {total : Nat}
    {result : WasmInstance × Signal} (h : dispatch self frame total = .ok result) :
    total + 1 ≤ maxInterpreterSteps := by
  unfold dispatch at h
  by_contra spent
  rw [if_pos (by omega)] at h
  cases h

theorem nextState_total {a b : RunState} (h : nextState a = .running b) :
    b.total = a.total + 1 := by
  unfold nextState at h
  split at h
  · cases h
  · split at h
    · cases h
      rfl
    · split at h
      · cases h
      · cases h
        rfl
    · split at h
      · cases h
        rfl
      all_goals cases h
    all_goals cases h

theorem steps_total {a b : RunState} (h : Machine.Steps nextState a b) : a.total ≤ b.total :=
  h.invariant (P := fun state => a.total ≤ state.total) (Nat.le_refl _) fun _ _ le step => by
    rw [nextState_total step]
    omega

/-- A state of a run panics next exactly when its step is not safe. -/
theorem nextState_panics_iff {state : RunState} (zero : FromZero state) :
    (∃ self, nextState state = .halted (self, .panic)) ↔ ¬SafeStep state := by
  obtain ⟨self, frames, total⟩ := state
  cases frames with
  | nil => simp [nextState, SafeStep]
  | cons frame below =>
    have top : frame.stackHeight = 0 := zero frame (by simp)
    have safeStep : SafeStep ⟨self, frame :: below, total⟩ ↔ SafeDispatch self frame total := by
      simp [SafeStep]
    rw [safeStep]
    rcases dispatch_cases self top total with ⟨safe, returns⟩ | ⟨notSafe, panics⟩
    · refine ⟨?_, fun notSafe => absurd safe notSafe⟩
      rintro ⟨last, halts⟩
      exfalso
      unfold nextState at halts
      rcases returns with ⟨⟨self', signal⟩, dispatched⟩ | ⟨message, dispatched⟩
      · simp only [dispatched] at halts
        cases signal with
        | next frame' => cases halts
        | leave results => cases below <;> cases halts
        | call index args frame' =>
          dsimp only at halts
          rcases enterFunction_returns self' index args (frame' :: below) with
            ⟨frames, entered⟩ | ⟨message, entered⟩
          · simp [entered] at halts
          · simp [entered] at halts
      · simp [dispatched] at halts
    · simp [nextState, panics, notSafe]

/-- The step budget bounds the recursion: with the fuel of `invoke` it never runs out. -/
theorem executeFrame_ne_timeout {fuel : Nat} {frame : Frame}
    {below : List Frame} {total : Nat} (zero : FromZero ⟨self, frame :: below, total⟩)
    (inBudget : total ≤ maxInterpreterSteps) (enough : maxInterpreterSteps < fuel + total) :
    (executeFrame fuel self (frame :: below) total).outcome ≠ .timeout := by
  induction fuel generalizing self frame below total with
  | zero => omega
  | succ fuel ih =>
    have top : frame.stackHeight = 0 := zero frame (by simp)
    rw [executeFrame]
    cases dispatched : dispatch self frame total with
    | err message => simp [LoopEnd.fails]
    | panic => simp [LoopEnd.fails]
    | timeout =>
      rcases dispatch_cases self top total with ⟨_, returns⟩ | ⟨_, panics⟩
      · simp [dispatched, Outcome.Returns] at returns
      · simp [dispatched] at panics
    | ok result =>
      have budget := dispatch_budget dispatched
      obtain ⟨self', signal⟩ := result
      have after : ∀ state, nextState ⟨self, frame :: below, total⟩ = .running state →
          FromZero state := fun state step => nextState_fromZero step zero
      cases signal with
      | next frame' =>
        refine ih (after _ ?_) budget (by omega)
        simp [nextState, dispatched]
      | leave results => simp
      | call index args frame' =>
        dsimp only
        cases entered : enterFunction self' index args (frame' :: below) with
        | err message => simp [LoopEnd.fails]
        | panic => simp [LoopEnd.fails]
        | timeout =>
          have returns := enterFunction_returns self' index args (frame' :: below)
          simp [entered, Outcome.Returns] at returns
        | ok frames =>
          have calls : nextState ⟨self, frame :: below, total⟩ =
              .running ⟨self', frames, total + 1⟩ := by
            simp [nextState, dispatched, entered]
          obtain ⟨locals, rfl⟩ := enterFunction_eq_ok entered
          have callee := executeFrame_runs fuel self' ⟨index, 0, locals, [], [], 0, 0⟩
            (frame' :: below) (total + 1)
          have calleeEnds := ih (after _ calls) budget (by omega)
          dsimp only
          generalize executeFrame fuel self' _ (total + 1) = ended at callee calleeEnds ⊢
          cases callee with
          | errs run halted => simp [LoopEnd.fails]
          | panics run halted => simp [LoopEnd.fails]
          | outOfFuel => exact absurd rfl calleeEnds
          | @leaves self₀ self'' top below' total₀ results run height left =>
            cases below' with
            | nil => simp at height
            | cons caller below' =>
              have zero₀ := steps_fromZero run.steps (after _ calls)
              have later : total + 1 ≤ total₀ := steps_total run.steps
              have returns : nextState ⟨self₀, top :: caller :: below', total₀⟩ =
                  .running ⟨self'', caller.receive results :: below', total₀ + 1⟩ := by
                simp [nextState, left]
              refine ih (nextState_fromZero returns zero₀) (dispatch_budget left) ?_
              omega

theorem invokeStart_eq_ok {index : Nat} {type : FuncType}
    {frames : List Frame} (h : invokeStart self index args = .ok (type, frames)) :
    ∃ locals, frames = [⟨index, 0, locals, [], [], 0, 0⟩] := by
  obtain ⟨type', _, h⟩ := bind_eq_ok.mp h
  obtain ⟨entered, enters, h⟩ := bind_eq_ok.mp h
  cases h
  exact enterFunction_eq_ok enters

/-- An invocation that starts is a run of the machine to its end. -/
theorem invoke_halts {index : Nat} {type : FuncType} {frames : List Frame}
    (started : invokeStart self index args = .ok (type, frames)) :
    ∃ last self' outcome, Machine.HaltsAt nextState ⟨self, frames, 0⟩ last (self', outcome) ∧
      outcome ≠ .timeout ∧
      self.invoke index args = (self', checkResults type outcome) := by
  obtain ⟨locals, rfl⟩ := invokeStart_eq_ok started
  have zero : FromZero ⟨self, [⟨index, 0, locals, [], [], 0, 0⟩], 0⟩ := by simp [FromZero]
  have runs := executeFrame_runs stepFuel self ⟨index, 0, locals, [], [], 0, 0⟩ [] 0
  have ends : (executeFrame stepFuel self [⟨index, 0, locals, [], [], 0, 0⟩] 0).outcome ≠
      .timeout := executeFrame_ne_timeout zero (Nat.zero_le _) (Nat.lt_succ_self _)
  unfold WasmInstance.invoke
  simp only [started]
  generalize executeFrame stepFuel self _ 0 = ended at runs ends ⊢
  cases runs with
  | @leaves self₀ self' top below total results run height left =>
    obtain rfl := List.eq_nil_of_length_eq_zero height
    have halts : nextState ⟨self₀, [top], total⟩ = .halted (self', .ok results) := by
      simp [nextState, left]
    exact ⟨_, self', .ok results, ⟨run.steps, halts⟩, by simp, rfl⟩
  | errs run halted => exact ⟨_, _, _, ⟨run, halted⟩, by simp, rfl⟩
  | panics run halted => exact ⟨_, _, _, ⟨run, halted⟩, by simp, rfl⟩
  | outOfFuel => exact absurd rfl ends

theorem checkResults_returns_iff {type : FuncType} {outcome : Outcome (List WasmValue)}
    (ends : outcome ≠ .timeout) :
    (checkResults type outcome).Returns ↔ outcome ≠ .panic := by
  cases outcome with
  | ok results =>
    have returns : (checkResults type (.ok results)).Returns :=
      .ite (fun _ => err_returns _) fun _ => ok_returns _
    simp [returns]
  | err message => simp [checkResults]
  | panic => simp [checkResults, Outcome.Returns]
  | timeout => exact absurd rfl ends

/-- An invocation ends with results or an error, and never in a panic, exactly when every
instruction that its run comes to passes the two checks the interpreter leaves out. -/
theorem invoke_returns_iff (self : WasmInstance) (index : Nat) (args : List WasmValue) :
    (self.invoke index args).2.Returns ↔
      ∀ state, Reachable self index args state → SafeStep state := by
  rcases invokeStart_returns self index args with ⟨⟨type, frames⟩, started⟩ | ⟨message, fails⟩
  · obtain ⟨last, self', outcome, halts, ends, invoked⟩ := invoke_halts started
    rw [invoked, checkResults_returns_iff ends]
    constructor
    · rintro noPanic state ⟨type', frames', started', run⟩
      rw [started] at started'
      cases started'
      by_contra notSafe
      have zero := reachable_fromZero ⟨type, frames, started, run⟩
      obtain ⟨self₁, panics⟩ := (nextState_panics_iff zero).mpr notSafe
      have same := (halts.unique ⟨run, panics⟩).2
      cases same
      exact noPanic rfl
    · rintro safe rfl
      have reached : Reachable self index args last := ⟨type, frames, started, halts.1⟩
      exact (nextState_panics_iff (reachable_fromZero reached)).mp ⟨self', halts.2⟩
        (safe last reached)
  · constructor
    · rintro _ state ⟨type, frames, started, _⟩
      rw [fails] at started
      cases started
    · intro _
      simp [WasmInstance.invoke, fails]

/-! ## Modules whose invocation panics -/

/-- The module with one function `() -> ()` whose body is `code`. -/
def oneFunctionModule (code : List UInt8) : List UInt8 :=
  [0x00, 0x61, 0x73, 0x6D, 0x01, 0x00, 0x00, 0x00] ++
  [0x01, 0x04, 0x01, 0x60, 0x00, 0x00] ++
  [0x03, 0x02, 0x01, 0x00] ++
  [0x0A, UInt8.ofNat (code.length + 3), 0x01, UInt8.ofNat (code.length + 1), 0x00] ++ code

/-- Parse, instantiate and invoke function 0 without arguments. -/
def runModule (bytes : List UInt8) : Except String (Outcome (List WasmValue)) := do
  let module ← parseModule bytes
  let self ← WasmInstance.instantiate module
  pure (self.invoke 0 []).2

theorem except_bind_eq_ok {α β : Type} {x : Except String α} {f : α → Except String β} {result : β} :
    (x >>= f) = .ok result ↔ ∃ middle, x = .ok middle ∧ f middle = .ok result := by
  cases x <;> simp [Bind.bind, Except.bind]

theorem exists_of_runModule {bytes : List UInt8} {outcome : Outcome (List WasmValue)}
    (h : runModule bytes = .ok outcome) :
    ∃ module self, parseModule bytes = .ok module ∧ WasmInstance.instantiate module = .ok self ∧
      (self.invoke 0 []).2 = outcome := by
  obtain ⟨module, parsed, h⟩ := except_bind_eq_ok.mp h
  obtain ⟨self, bound, h⟩ := except_bind_eq_ok.mp h
  exact ⟨module, self, parsed, bound, Except.ok.inj h⟩

/-- `i32.const 0; block; drop; end; end`: the `end` of the block splits an empty stack
at height one. -/
def dropBelowBlock : List UInt8 := [0x41, 0x00, 0x02, 0x40, 0x1A, 0x0B, 0x0B]

/-- A block whose type index, zero, is written with eight bytes. -/
def longBlockIndex : List UInt8 :=
  [0x02, 0x80, 0x80, 0x80, 0x80, 0x80, 0x80, 0x80, 0x00, 0x0B, 0x0B]

theorem invoke_panics :
    (∃ module self, parseModule (oneFunctionModule dropBelowBlock) = .ok module ∧
      WasmInstance.instantiate module = .ok self ∧ (self.invoke 0 []).2 = .panic) ∧
    ∃ module self, parseModule (oneFunctionModule longBlockIndex) = .ok module ∧
      WasmInstance.instantiate module = .ok self ∧ (self.invoke 0 []).2 = .panic :=
  ⟨exists_of_runModule (by decide +kernel), exists_of_runModule (by decide +kernel)⟩

end GhitaBrowser.Wasm
