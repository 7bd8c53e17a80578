import GhitaBrowser.Wasm.Interp
import GhitaBrowser.Lib.Machine

/-!
# Running a function

`execute_frame` is a loop over the top frame; a call runs `run_function`, and so
another `execute_frame`, in the middle of it. `executeFrame` is that recursion.
`dispatch` is the part of the loop's body before the recursive call. The machine
`nextState` applies the same `dispatch` to an explicit state, and
`executeFrame_runs` shows that the recursion ends as the machine's run does.
-/

namespace GhitaBrowser.Wasm

/-- What the loop does after one instruction. -/
inductive Signal where
  /-- Go on with the top frame. -/
  | next (frame : Frame)
  /-- Drop the top frame and return these values, bottom first. -/
  | leave (results : List WasmValue)
  /-- Call a function; `frame` is the top frame without the arguments. -/
  | call (index : Nat) (args : List WasmValue) (frame : Frame)
deriving DecidableEq, Repr

/-! ## The body of the loop -/

/-- `end`: close the innermost control frame, or finish the function. -/
def endOpcode (frame : Frame) : Outcome Signal :=
  match frame.controls with
  | [] => do
    let results ← sliceFrom frame.stack frame.stackHeight
    .ok (.leave results)
  | control :: controls => do
    let (above, stack) ← splitOff frame.stack control.stackHeight
    let resultCount := min control.resultCount above.length
    let keep := above.drop (above.length - resultCount)
    .ok (.next { frame with controls := controls, stack := extend stack keep })

def branchTarget (control : ControlFrame) : Nat :=
  if control.kind = .loop then control.elsePc else control.endPc

/-- `Action::Branch`. -/
def takeBranch (frame : Frame) (label : Nat) : Outcome Signal :=
  if label = frame.controls.length then do
    let results ← sliceFrom frame.stack frame.stackHeight
    .ok (.leave results)
  else
    match frame.controls[label]? with
    | none => .err "br label out of range"
    | some control => do
      let keepCount := min control.resultCount (frame.stack.length - control.stackHeight)
      let keep ← sliceFrom frame.stack (frame.stack.length - keepCount)
      .ok (.next { frame with
        stack := extend (truncate frame.stack control.stackHeight) keep
        controls := frame.controls.drop label
        pc := branchTarget control })

/-- Move the arguments of a call off the stack. -/
def callWith (frame : Frame) (index paramCount : Nat) (missing : String) : Outcome Signal := do
  if frame.stack.length < paramCount then .err missing
  else
    let (args, stack) ← splitOff frame.stack (frame.stack.length - paramCount)
    .ok (.call index args { frame with stack := stack })

/-- `Action::Call`. -/
def takeCall (self : WasmInstance) (frame : Frame) (index : Nat) : Outcome Signal := do
  let type ← Outcome.okOr "Function index out of range" (self.functionType index)
  callWith frame index type.parameters.length "call missing arguments on stack"

/-- `Action::CallIndirect`. -/
def takeCallIndirect (self : WasmInstance) (frame : Frame) (typeIndex : Nat) :
    Outcome Signal := do
  let (index, stack) ← popCondition "call_indirect missing table index"
    "call_indirect table index must be i32" frame.stack
  let frame := { frame with stack := stack }
  if index.msb then .err "call_indirect negative index"
  else
    let entry ← Outcome.okOr "call_indirect null or out of range"
      (self.table[index.toNat]?).join
    let defined ← Outcome.okOr "call_indirect target is an import" (self.definedBodyIndex entry)
    let calleeTypeIndex ← Outcome.okOr "call_indirect target is an import"
      self.module.functionTypeIndices[defined]?
    if calleeTypeIndex ≠ typeIndex then .err "call_indirect type mismatch"
    else
      let type ← Outcome.okOr "call_indirect type index out of range"
        self.module.types[typeIndex]?
      callWith frame entry type.parameters.length "call_indirect missing arguments on stack"

def perform (self : WasmInstance) (frame : Frame) : Action → Outcome Signal
  | .continue => .ok (.next frame)
  | .branch label => takeBranch frame label
  | .call index => takeCall self frame index
  | .callIndirect typeIndex => takeCallIndirect self frame typeIndex
  | .return => do
    let results ← sliceFrom frame.stack frame.stackHeight
    .ok (.leave results)

/-- The code of a frame's function. -/
def codeOf (self : WasmInstance) (frame : Frame) : Outcome (List UInt8) := do
  let defined ← Outcome.okOr "Function has no body (import)"
    (self.definedBodyIndex frame.functionIndex)
  let body ← Outcome.okOr "Function has no body (import)" self.module.bodies[defined]?
  .ok body.code

/-- The part of a turn that depends on the opcode; `frame.pc` is past it. Where it fails,
the instance is as before: the opcodes that change it are followed by
`Action::Continue`. -/
def execOpcode (self : WasmInstance) (code : List UInt8) (opcode : UInt8) (frame : Frame) :
    Outcome (WasmInstance × Signal) :=
  if opcode.toNat = 0x0B then do
    let signal ← endOpcode frame
    .ok (self, signal)
  else do
    let (action, self, frame) ← execInstruction self opcode code frame
    let signal ← perform self frame action
    .ok (self, signal)

/-- One turn of the loop on the top frame; `total` counts the steps before it. -/
def dispatch (self : WasmInstance) (frame : Frame) (total : Nat) :
    Outcome (WasmInstance × Signal) := do
  if total + 1 > maxInterpreterSteps then .err "WASM step budget exceeded"
  else if frame.stack.length > maxStackValues then
    .err "WASM operand stack budget exceeded"
  else
    let code ← codeOf self frame
    let opcode ← byteAt code frame.pc "Function ran past its body"
    execOpcode self code opcode { frame with steps := frame.steps + 1, pc := frame.pc + 1 }

/-! ## Calls -/

def zeroOf : ValueType → Outcome WasmValue
  | .i32 => .ok (.i32 0)
  | .i64 => .ok (.i64 0)
  | .f32 => .ok (.f32 0)
  | .f64 => .ok (.f64 0)
  | _ => .err "Non-numeric local type"

/-- The locals of one declaration; the type is only looked at when there is one. -/
def zerosOf (decl : LocalDecl) : Outcome (List WasmValue) :=
  if decl.count = 0 then .ok []
  else do
    let zero ← zeroOf decl.valueType
    .ok (List.replicate decl.count zero)

def zeroLocals : List LocalDecl → Outcome (List WasmValue)
  | [] => .ok []
  | decl :: rest => do
    let zeros ← zerosOf decl
    let others ← zeroLocals rest
    .ok (zeros ++ others)

/-- `run_function` up to its call of `execute_frame`: the frames with the callee's on top. -/
def enterFunction (self : WasmInstance) (index : Nat) (args : List WasmValue)
    (frames : List Frame) : Outcome (List Frame) := do
  if frames.length ≥ maxCallDepthWasm then .err "WASM call depth exceeded"
  else
    let defined ← Outcome.okOr "Function has no body (import)" (self.definedBodyIndex index)
    let body ← Outcome.okOr "Function has no body (import)" self.module.bodies[defined]?
    let zeros ← zeroLocals body.locals
    .ok (⟨index, 0, args ++ zeros, [], [], 0, 0⟩ :: frames)

/-- The caller's frame after a call has returned. -/
def Frame.receive (frame : Frame) (results : List WasmValue) : Frame :=
  { frame with stack := extend frame.stack results }

/-- How a loop ends, with the instance as it is then: results, the frames below, and
the number of steps. -/
structure LoopEnd where
  self : WasmInstance
  outcome : Outcome (List WasmValue × List Frame × Nat)

/-- The loop ends without results; the failure is kept. -/
def LoopEnd.fails (self : WasmInstance) {α : Type} : Outcome α → LoopEnd
  | .ok _ => ⟨self, .err "InvalidStateError: WASM frame is detached"⟩
  | .err message => ⟨self, .err message⟩
  | .panic => ⟨self, .panic⟩
  | .timeout => ⟨self, .timeout⟩

def executeFrame : Nat → WasmInstance → List Frame → Nat → LoopEnd
  | 0, self, _, _ => ⟨self, .timeout⟩
  | _ + 1, self, [], _ => ⟨self, .err "InvalidStateError: WASM frame is detached"⟩
  | fuel + 1, self, frame :: below, total =>
    match dispatch self frame total with
    | .ok (self, .next frame) => executeFrame fuel self (frame :: below) (total + 1)
    | .ok (self, .leave results) => ⟨self, .ok (results, below, total + 1)⟩
    | .ok (self, .call index args frame) =>
      match enterFunction self index args (frame :: below) with
      | .ok frames =>
        match executeFrame fuel self frames (total + 1) with
        | ⟨self, .ok (results, caller :: below, total)⟩ =>
          executeFrame fuel self (caller.receive results :: below) total
        | ⟨self, failed⟩ => LoopEnd.fails self failed
      | failed => LoopEnd.fails self failed
    | failed => LoopEnd.fails self failed

/-- `invoke` up to its call of `run_function`: the function's type. -/
def invokeType (self : WasmInstance) (index : Nat) (args : List WasmValue) :
    Outcome FuncType := do
  let defined ← Outcome.okOr
    "Cannot invoke an imported function (host imports unsupported)" (self.definedBodyIndex index)
  let typeIndex ← Outcome.okOr "Function index out of range or is an import"
    self.module.functionTypeIndices[defined]?
  let type ← Outcome.okOr "Function type index out of range" self.module.types[typeIndex]?
  if args.length ≠ type.parameters.length then
    .err "Argument count does not match function type"
  else if self.module.bodies[defined]?.isNone then
    .err "Cannot invoke an imported function (host imports unsupported)"
  else .ok type

/-- The state `invoke` starts to run from: the type of the function and its frame. -/
def invokeStart (self : WasmInstance) (index : Nat) (args : List WasmValue) :
    Outcome (FuncType × List Frame) := do
  let type ← invokeType self index args
  let frames ← enterFunction self index args []
  .ok (type, frames)

/-- Every step raises the step count, and the budget ends the run. -/
def stepFuel : Nat := maxInterpreterSteps + 1

/-- The check of `invoke` on what the function returned. -/
def checkResults (type : FuncType) : Outcome (List WasmValue) → Outcome (List WasmValue)
  | .ok results =>
    if results.length ≠ type.results.length then
      .err "Result count does not match function type"
    else .ok results
  | failed => failed

def WasmInstance.invoke (self : WasmInstance) (index : Nat) (args : List WasmValue) :
    WasmInstance × Outcome (List WasmValue) :=
  match invokeStart self index args with
  | .ok (type, frames) =>
    match executeFrame stepFuel self frames 0 with
    | ⟨self, ended⟩ => (self, checkResults type (ended >>= fun finished => .ok finished.1))
  | .err message => (self, .err message)
  | .panic => (self, .panic)
  | .timeout => (self, .timeout)

/-! ## The machine -/

structure RunState where
  self : WasmInstance
  frames : List Frame
  total : Nat
deriving DecidableEq, Repr

/-- How a run ends: the instance, and the results or a failure. -/
abbrev RunResult : Type := WasmInstance × Outcome (List WasmValue)

def nextState (state : RunState) : Status RunState RunResult :=
  match state.frames with
  | [] => .halted (state.self, .err "InvalidStateError: WASM frame is detached")
  | frame :: below =>
    match dispatch state.self frame state.total with
    | .ok (self, .next frame) => .running ⟨self, frame :: below, state.total + 1⟩
    | .ok (self, .leave results) =>
      match below with
      | [] => .halted (self, .ok results)
      | caller :: below => .running ⟨self, caller.receive results :: below, state.total + 1⟩
    | .ok (self, .call index args frame) =>
      match enterFunction self index args (frame :: below) with
      | .ok frames => .running ⟨self, frames, state.total + 1⟩
      | .err message => .halted (self, .err message)
      | .panic => .halted (self, .panic)
      | .timeout => .halted (self, .timeout)
    | .err message => .halted (state.self, .err message)
    | .panic => .halted (state.self, .panic)
    | .timeout => .halted (state.self, .timeout)

/-! ## The recursion ends as the machine's run does -/

/-- A step of the machine from a state with more than `depth` frames. -/
def StepAbove (depth : Nat) (a b : RunState) : Prop :=
  nextState a = .running b ∧ depth < a.frames.length

/-- A run that only touches the frames above the bottom `depth` ones. -/
def RunsAbove (depth : Nat) : RunState → RunState → Prop :=
  Relation.ReflTransGen (StepAbove depth)

theorem RunsAbove.steps {depth : Nat} {a b : RunState} (h : RunsAbove depth a b) :
    Machine.Steps nextState a b :=
  Relation.ReflTransGen.mono (fun _ _ step => step.1) _ _ h

theorem RunsAbove.mono {low high : Nat} (le : low ≤ high) {a b : RunState}
    (h : RunsAbove high a b) : RunsAbove low a b :=
  Relation.ReflTransGen.mono (fun _ _ step => ⟨step.1, le.trans_lt step.2⟩) _ _ h

theorem enterFunction_eq_ok {self : WasmInstance} {index : Nat} {args : List WasmValue}
    {frames entered : List Frame} (h : enterFunction self index args frames = .ok entered) :
    ∃ locals, entered = ⟨index, 0, locals, [], [], 0, 0⟩ :: frames := by
  unfold enterFunction at h
  split at h
  · cases h
  · obtain ⟨defined, _, h⟩ := Outcome.bind_eq_ok.mp h
    obtain ⟨body, _, h⟩ := Outcome.bind_eq_ok.mp h
    obtain ⟨zeros, _, h⟩ := Outcome.bind_eq_ok.mp h
    cases h
    exact ⟨_, rfl⟩

/-- How the loop on a state with `depth` frames below the top ends, in terms of the machine. -/
inductive EndsAs (start : RunState) (depth : Nat) : LoopEnd → Prop
  | leaves {self self' : WasmInstance} {top : Frame} {below : List Frame} {total : Nat}
      {results : List WasmValue} (run : RunsAbove depth start ⟨self, top :: below, total⟩)
      (height : below.length = depth)
      (left : dispatch self top total = .ok (self', .leave results)) :
      EndsAs start depth ⟨self', .ok (results, below, total + 1)⟩
  | errs {last : RunState} {self : WasmInstance} {message : String}
      (run : Machine.Steps nextState start last)
      (halted : nextState last = .halted (self, .err message)) :
      EndsAs start depth ⟨self, .err message⟩
  | panics {last : RunState} {self : WasmInstance}
      (run : Machine.Steps nextState start last)
      (halted : nextState last = .halted (self, .panic)) :
      EndsAs start depth ⟨self, .panic⟩
  | outOfFuel {self : WasmInstance} : EndsAs start depth ⟨self, .timeout⟩

theorem EndsAs.trans {start middle : RunState} {depth : Nat} {loopEnd : LoopEnd}
    (first : RunsAbove depth start middle) (second : EndsAs middle depth loopEnd) :
    EndsAs start depth loopEnd := by
  cases second with
  | leaves run height left => exact .leaves (first.trans run) height left
  | errs run halted => exact .errs (first.steps.trans run) halted
  | panics run halted => exact .panics (first.steps.trans run) halted
  | outOfFuel => exact .outOfFuel

theorem executeFrame_runs (fuel : Nat) (self : WasmInstance) (frame : Frame)
    (below : List Frame) (total : Nat) :
    EndsAs ⟨self, frame :: below, total⟩ below.length
      (executeFrame fuel self (frame :: below) total) := by
  induction fuel generalizing self frame below total with
  | zero => exact .outOfFuel
  | succ fuel ih =>
    have step : ∀ next, nextState ⟨self, frame :: below, total⟩ = .running next →
        RunsAbove below.length ⟨self, frame :: below, total⟩ next := fun next running =>
      .single ⟨running, Nat.lt_succ_self _⟩
    have stays : Machine.Steps nextState ⟨self, frame :: below, total⟩
        ⟨self, frame :: below, total⟩ := .refl _
    rw [executeFrame]
    cases dispatched : dispatch self frame total with
    | err message => exact .errs stays (by simp [nextState, dispatched])
    | panic => exact .panics stays (by simp [nextState, dispatched])
    | timeout => exact .outOfFuel
    | ok result =>
      obtain ⟨self', signal⟩ := result
      cases signal with
      | next frame' =>
        refine (ih self' frame' below (total + 1)).trans (step _ ?_)
        simp [nextState, dispatched]
      | leave results => exact .leaves .refl rfl dispatched
      | call index args frame' =>
        dsimp only
        cases entered : enterFunction self' index args (frame' :: below) with
        | err message => exact .errs stays (by simp [nextState, dispatched, entered])
        | panic => exact .panics stays (by simp [nextState, dispatched, entered])
        | timeout => exact .outOfFuel
        | ok frames =>
          have calls : nextState ⟨self, frame :: below, total⟩ =
              .running ⟨self', frames, total + 1⟩ := by
            simp [nextState, dispatched, entered]
          obtain ⟨locals, rfl⟩ := enterFunction_eq_ok entered
          have callee := ih self' ⟨index, 0, locals, [], [], 0, 0⟩ (frame' :: below) (total + 1)
          dsimp only
          generalize executeFrame fuel self' _ (total + 1) = ended at callee ⊢
          cases callee with
          | errs run halted => exact .errs ((step _ calls).steps.trans run) halted
          | panics run halted => exact .panics ((step _ calls).steps.trans run) halted
          | outOfFuel => exact .outOfFuel
          | @leaves self₀ self'' top below' total₀ results run height left =>
            cases below' with
            | nil => simp at height
            | cons caller below' =>
              have same : below'.length = below.length := by simpa using height
              have returns : nextState ⟨self₀, top :: caller :: below', total₀⟩ =
                  .running ⟨self'', caller.receive results :: below', total₀ + 1⟩ := by
                simp [nextState, left]
              have deep : below.length < (top :: caller :: below').length := by
                simp only [List.length_cons, same]
                omega
              have whole : RunsAbove below.length ⟨self, frame :: below, total⟩
                  ⟨self'', caller.receive results :: below', total₀ + 1⟩ :=
                ((step _ calls).trans (run.mono (by simp))).tail ⟨returns, deep⟩
              have rest := ih self'' (caller.receive results) below' (total₀ + 1)
              rw [same] at rest
              exact rest.trans whole

end GhitaBrowser.Wasm
