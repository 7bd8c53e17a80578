import GhitaBrowser.Wasm.Safety
import GhitaBrowser.Wasm.Agreement

/-!
# What a call leaves on the caller's stack

A completed call is a stretch of a run: a step that calls, a run above the caller's
frame, and the step that drops the callee's frame. `call_replaces_iff` shows what
the caller's stack is then: the arguments are gone, everything below them is as it
was, and on top lies the callee's whole operand stack. That is the declared number
of results exactly when the callee leaves with that many operands; only `invoke`
checks it.
-/

namespace GhitaBrowser.Wasm

/-! ## Completed calls -/

/-- The opcode that the top frame executes next. -/
def opcodeAt (self : WasmInstance) (frame : Frame) : Option UInt8 :=
  match codeOf self frame with
  | .ok code => code[frame.pc]?
  | _ => none

/-- The operands of a call beside its arguments: the table index of `call_indirect`. -/
def tableOperands (opcode : UInt8) : Nat :=
  if opcode.toNat = 0x11 ∨ opcode.toNat = 0x13 then 1 else 0

/-- The operands of a branch: the condition of `br_if` or the index of `br_table`. -/
def branchOperands (opcode : UInt8) : Nat :=
  if opcode.toNat = 0x0D ∨ opcode.toNat = 0x0E then 1 else 0

/-- The step from `before` to `entered` calls function `index` with the frames `below`
the caller's. -/
def Calls (before : RunState) (index : Nat) (below : List Frame) (entered : RunState) : Prop :=
  ∃ frame self' args caller, before.frames = frame :: below ∧
    dispatch before.self frame before.total = .ok (self', .call index args caller) ∧
    nextState before = .running entered

/-- The callee entered in `entered` takes its last step in `last`, back to `depth` frames. -/
def Completes (depth : Nat) (entered last after : RunState) : Prop :=
  RunsAbove depth entered last ∧ nextState last = .running after ∧
    last.frames.length = depth + 1 ∧ after.frames.length = depth

/-- The arguments on top of the caller's stack are replaced by the declared number of
results; the rest of its stack and the frames below are as before. -/
def ReplacesArguments (before after : RunState) (type : FuncType) : Prop :=
  ∃ frame caller below opcode results, before.frames = frame :: below ∧
    after.frames = caller :: below ∧ opcodeAt before.self frame = some opcode ∧
    tableOperands opcode + type.parameters.length ≤ frame.stack.length ∧
    caller.stack =
      results ++ frame.stack.drop (tableOperands opcode + type.parameters.length) ∧
    results.length = type.results.length

/-- The callee leaves with `count` operands, its branch's own operand not counted. -/
def LeavesWith (last : RunState) (count : Nat) : Prop :=
  ∃ frame below opcode, last.frames = frame :: below ∧
    opcodeAt last.self frame = some opcode ∧
    frame.stack.length = count + branchOperands opcode

/-! ## The operands of calls and branches -/

/-- What an instruction has done to the operand stack when it asks for `action`. -/
def ActionFacts (self : WasmInstance) (opcode : UInt8) (frame : Frame)
    (result : Action × WasmInstance × Frame) : Prop :=
  match result.1 with
  | .continue => True
  | .branch _ => result.2.1 = self ∧
      result.2.2.stack.length + branchOperands opcode = frame.stack.length
  | .call _ => result.2.1 = self ∧ result.2.2.stack = frame.stack ∧ tableOperands opcode = 0
  | .callIndirect _ =>
    result.2.1 = self ∧ result.2.2.stack = frame.stack ∧ tableOperands opcode = 1
  | .return => result.2.1 = self ∧ result.2.2.stack = frame.stack ∧ branchOperands opcode = 0

variable {stack : OperandStack}

/-- The layout that an immediate has been read with. -/
def Immediate.layout : Immediate → Layout
  | .none => .none
  | .block _ => .block
  | .index _ => .index
  | .brTable _ _ => .brTable
  | .callIndirect _ _ => .callIndirect
  | .selectTypes _ => .selectTypes
  | .memarg _ _ => .memarg
  | .reserved _ => .reserved
  | .i32 _ => .i32
  | .i64 _ => .i64
  | .f32 _ => .f32
  | .f64 _ => .f64

theorem decodeLayout_layout (code : List UInt8) (opcode : UInt8) (pc : Nat) (layout : Layout) :
    (decodeLayout code opcode pc layout).Ensures fun decoded =>
      decoded.1.layout = layout ∨ (decoded.1 = .none ∧ layout = .selectTypes) := by
  have fits : ∀ (immediate : Immediate) (pc : Nat), immediate.layout = layout →
      (Outcome.ok (immediate, pc)).Ensures fun decoded =>
        decoded.1.layout = layout ∨ (decoded.1 = .none ∧ layout = .selectTypes) :=
    fun _ _ same => Outcome.ensures_ok (.inl same)
  cases layout with
  | none => exact fits _ _ rfl
  | selectTypes => exact Outcome.ensures_ok (.inr ⟨rfl, rfl⟩)
  | brTable =>
    refine .bind fun _ _ => .ite (fun _ _ impossible => by cases impossible) fun _ => ?_
    exact .bind fun _ _ => .bind fun _ _ => fits _ _ rfl
  | callIndirect => exact .bind fun _ _ => .bind fun _ _ => fits _ _ rfl
  | memarg => exact .bind fun _ _ => .bind fun _ _ => fits _ _ rfl
  | _ => exact .bind fun _ _ => fits _ _ rfl

variable {self : WasmInstance} {frame : Frame}

theorem execImmediate_action {opcode : UInt8} {code : List UInt8} {immediate : Immediate}
    (has : immediate.layout.Has opcode.toNat ∨ (immediate = .none ∧ opcode.toNat = 0x1C)) :
    (execImmediate self opcode code immediate frame).Ensures (ActionFacts self opcode frame) := by
  refine (execImmediate_executed self opcode code immediate frame).mono fun result executed => ?_
  cases executed with
  | returns isReturn => exact ⟨rfl, rfl, by simp [branchOperands, isReturn]⟩
  | br isBr => exact ⟨rfl, by simp [branchOperands, isBr]⟩
  | brIf isIf popped => exact ⟨rfl, by simp [branchOperands, isIf, popped]⟩
  | brTable popped =>
    have isTable : opcode.toNat = 0x0E := by simpa [Immediate.layout, Layout.Has] using has
    exact ⟨rfl, by simp [branchOperands, isTable, popped]⟩
  | call isCall => rcases isCall with is | is <;> exact ⟨rfl, rfl, by simp [tableOperands, is]⟩
  | callByType isIndirect => exact ⟨rfl, rfl, by simp [tableOperands, isIndirect]⟩
  | callIndirect =>
    have isIndirect : opcode.toNat = 0x11 := by simpa [Immediate.layout, Layout.Has] using has
    exact ⟨rfl, rfl, by simp [tableOperands, isIndirect]⟩
  | _ => trivial

/-- What is decoded fits the opcode; `select` with a type list has no immediate here. -/
theorem decodeImmediate_has {code : List UInt8} {opcode : UInt8} {pc : Nat}
    {decoded : Immediate × Nat} (read : decodeImmediate code opcode pc = .ok decoded) :
    decoded.1.layout.Has opcode.toNat ∨ (decoded.1 = .none ∧ opcode.toNat = 0x1C) := by
  rw [decodeImmediate_eq] at read
  have opcodes := layout_has opcode
  rcases decodeLayout_layout _ _ _ _ decoded read with same | ⟨isNone, isSelect⟩
  · exact .inl (same ▸ opcodes)
  · rw [isSelect] at opcodes
    exact .inr ⟨isNone, opcodes⟩

theorem execInstruction_action (self : WasmInstance) (opcode : UInt8) (code : List UInt8)
    (frame : Frame) :
    (execInstruction self opcode code frame).Ensures (ActionFacts self opcode frame) := by
  unfold execInstruction
  exact .bind fun decoded read => execImmediate_action (decodeImmediate_has read)

/-! ## What a calling and a leaving step do -/

theorem opcodeAt_eq {code : List UInt8}
    (here : codeOf self frame = .ok code) : opcodeAt self frame = code[frame.pc]? := by
  simp [opcodeAt, here]

/-- A step that gets as far as its opcode. -/
theorem dispatch_eq_ok {total : Nat}
    {result : WasmInstance × Signal} (h : dispatch self frame total = .ok result) :
    ∃ code opcode, opcodeAt self frame = some opcode ∧
      execOpcode self code opcode
        { frame with steps := frame.steps + 1, pc := frame.pc + 1 } = .ok result := by
  unfold dispatch at h
  split at h
  · cases h
  · split at h
    · cases h
    · obtain ⟨code, hcode, h⟩ := Outcome.bind_eq_ok.mp h
      obtain ⟨opcode, here, h⟩ := Outcome.bind_eq_ok.mp h
      rw [byteAt, Outcome.okOr_eq_ok] at here
      exact ⟨code, opcode, (opcodeAt_eq hcode).trans here, h⟩

variable {args : List WasmValue} {index : Nat}

variable {results : List WasmValue}

theorem sliceFrom_length {position : Nat}
    (h : sliceFrom stack position = .ok results) : results.length = stack.length - position := by
  unfold sliceFrom at h
  split at h
  · cases h
    simp
  · cases h

theorem endOpcode_ne_call {caller : Frame} :
    endOpcode frame ≠ .ok (.call index args caller) := by
  intro h
  unfold endOpcode at h
  split at h
  · obtain ⟨_, _, h⟩ := Outcome.bind_eq_ok.mp h
    cases h
  · obtain ⟨_, _, h⟩ := Outcome.bind_eq_ok.mp h
    cases h

theorem endOpcode_leave
    (h : endOpcode frame = .ok (.leave results)) (zero : frame.stackHeight = 0) :
    results.length = frame.stack.length := by
  unfold endOpcode at h
  split at h
  · obtain ⟨values, sliced, h⟩ := Outcome.bind_eq_ok.mp h
    cases h
    rw [sliceFrom_length sliced, zero, Nat.sub_zero]
  · obtain ⟨_, _, h⟩ := Outcome.bind_eq_ok.mp h
    cases h

/-- The operands of a calling step. -/
theorem dispatch_call {self' : WasmInstance} {caller : Frame} {total : Nat}
    (h : dispatch self frame total = .ok (self', .call index args caller)) :
    ∃ type opcode, self.functionType index = some type ∧ opcodeAt self frame = some opcode ∧
      tableOperands opcode + type.parameters.length ≤ frame.stack.length ∧
      caller.stack = frame.stack.drop (tableOperands opcode + type.parameters.length) := by
  obtain ⟨code, opcode, here, h⟩ := dispatch_eq_ok h
  unfold execOpcode at h
  split at h
  · obtain ⟨signal, ended, h⟩ := Outcome.bind_eq_ok.mp h
    cases h
    exact absurd ended endOpcode_ne_call
  · obtain ⟨⟨action, self₁, frame₁⟩, executed, h⟩ := Outcome.bind_eq_ok.mp h
    obtain ⟨signal, performed, h⟩ := Outcome.bind_eq_ok.mp h
    cases h
    have facts := execInstruction_action _ _ _ _ _ executed
    cases perform_performed _ _ _ _ performed with
    | calls typed enough =>
      obtain ⟨rfl, same, none'⟩ := facts
      dsimp only at same
      rw [same] at enough
      refine ⟨_, opcode, typed, here, ?_⟩
      rw [none', Nat.zero_add, same]
      exact ⟨enough, rfl⟩
    | callsIndirect typed enough =>
      obtain ⟨rfl, same, one⟩ := facts
      dsimp only at same
      rw [same] at enough
      refine ⟨_, opcode, typed, here, ?_⟩
      rw [one, same]
      exact ⟨enough, rfl⟩

/-- The callee's operands in its last step: its results and its branch's operand. -/
theorem dispatch_leave {self' : WasmInstance} {total : Nat} (zero : frame.stackHeight = 0)
    (h : dispatch self frame total = .ok (self', .leave results)) :
    ∃ opcode, opcodeAt self frame = some opcode ∧
      frame.stack.length = results.length + branchOperands opcode := by
  obtain ⟨code, opcode, here, h⟩ := dispatch_eq_ok h
  refine ⟨opcode, here, ?_⟩
  unfold execOpcode at h
  split at h
  case isTrue ends =>
    obtain ⟨signal, ended, h⟩ := Outcome.bind_eq_ok.mp h
    cases h
    have length := endOpcode_leave ended zero
    have plain : branchOperands opcode = 0 := by simp [branchOperands, ends]
    rw [length, plain]
    rfl
  case isFalse =>
    obtain ⟨⟨action, self₁, frame₁⟩, executed, h⟩ := Outcome.bind_eq_ok.mp h
    obtain ⟨signal, performed, h⟩ := Outcome.bind_eq_ok.mp h
    cases h
    have facts := execInstruction_action _ _ _ _ _ executed
    obtain ⟨⟨immediate, pc⟩, _, executed⟩ := Outcome.bind_eq_ok.mp executed
    have same := (execImmediate_sameCall _ _ _ _ _ _ executed).2
    cases perform_performed _ _ _ _ performed with
    | leaves asks sliced =>
      rw [sliceFrom_length sliced, same.trans zero, Nat.sub_zero]
      rcases asks with rfl | rfl
      · exact facts.2.symm
      · obtain ⟨_, whole, plain⟩ := facts
        dsimp only at whole
        rw [plain, whole]
        rfl

/-! ## The frames below a run -/

/-- As long as a run stays above the bottom frames, it leaves them as they are. -/
theorem RunsAbove.bottom {depth : Nat} {a b : RunState} (run : RunsAbove depth a b)
    (bottom : List Frame) (length : bottom.length = depth)
    (start : ∃ top, a.frames = top ++ bottom) (above : depth < b.frames.length) :
    ∃ top, b.frames = top ++ bottom := by
  induction run with
  | refl => exact start
  | @tail b c _ step ih =>
    obtain ⟨top, split⟩ := ih step.2
    obtain ⟨frame, below, frames, cases'⟩ := nextState_cases step.1
    cases top with
    | nil =>
      have := step.2
      rw [split, List.nil_append, length] at this
      omega
    | cons first top =>
      rw [split, List.cons_append] at frames
      obtain ⟨rfl, rfl⟩ := List.cons.inj frames
      rcases cases' with ⟨_, frame', _, rfl'⟩ | ⟨_, results, caller, rest, _, rest', rfl'⟩ |
        ⟨_, _, _, caller, callee, _, rfl', -⟩
      · exact ⟨frame' :: top, by rw [rfl']; rfl⟩
      · cases top with
        | nil =>
          rw [rfl', List.length_cons] at above
          rw [List.nil_append] at rest'
          rw [rest', List.length_cons] at length
          omega
        | cons second top =>
          rw [List.cons_append] at rest'
          obtain ⟨rfl, rfl⟩ := List.cons.inj rest'
          exact ⟨second.receive results :: top, by rw [rfl']; rfl⟩
      · exact ⟨callee :: caller :: top, by rw [rfl']; rfl⟩

/-! ## The result -/

theorem Reachable.steps
    {a b : RunState} (h : Reachable self index args a) (run : Machine.Steps nextState a b) :
    Reachable self index args b := by
  obtain ⟨type, frames, started, reach⟩ := h
  exact ⟨type, frames, started, reach.trans run⟩

/-- A completed call takes its arguments off the caller's stack and puts the callee's whole
operand stack there; no other part of the frames below the callee changes. -/
theorem call_completes {start : Nat} {before entered last after : RunState} {below : List Frame}
    (reachable : Reachable self start args before) (calls : Calls before index below entered)
    (completes : Completes (below.length + 1) entered last after) :
    ∃ frame caller type opcode callee leaving results,
      before.frames = frame :: below ∧ before.self.functionType index = some type ∧
      opcodeAt before.self frame = some opcode ∧
      tableOperands opcode + type.parameters.length ≤ frame.stack.length ∧
      last.frames.head? = some callee ∧ opcodeAt last.self callee = some leaving ∧
      callee.stack.length = results.length + branchOperands leaving ∧
      after.frames = caller :: below ∧
      caller.stack =
        results ++ frame.stack.drop (tableOperands opcode + type.parameters.length) := by
  obtain ⟨frame, self', passed, caller, framesBefore, dispatched, entering⟩ := calls
  obtain ⟨run, leaving, heightLast, heightAfter⟩ := completes
  obtain ⟨type, opcode, typed, here, enough, rest⟩ := dispatch_call dispatched
  -- The callee is entered on top of the caller's frame without the arguments.
  have start : ∃ top, entered.frames = top ++ (caller :: below) := by
    obtain ⟨frame', below', frames, cases'⟩ := nextState_cases entering
    rw [framesBefore] at frames
    obtain ⟨rfl, rfl⟩ := List.cons.inj frames
    rw [dispatched] at cases'
    rcases cases' with ⟨_, _, impossible, _⟩ | ⟨_, _, _, _, impossible, _⟩ |
      ⟨_, _, _, caller', callee, same, frames, -⟩
    · cases impossible
    · cases impossible
    · cases same
      exact ⟨[callee], frames⟩
  obtain ⟨top, framesLast⟩ := run.bottom (caller :: below) rfl start (by omega)
  obtain ⟨callee, rfl⟩ : ∃ callee, top = [callee] := by
    rw [framesLast, List.length_append, List.length_cons] at heightLast
    exact List.length_eq_one_iff.mp (by omega)
  have zero : callee.stackHeight = 0 := by
    have reached := (reachable.steps (.head entering (.refl _))).steps run.steps
    exact reachable_fromZero reached callee (by rw [framesLast]; simp)
  obtain ⟨callee', below', frames, cases'⟩ := nextState_cases leaving
  rw [framesLast, List.singleton_append] at frames
  obtain ⟨rfl, rfl⟩ := List.cons.inj frames
  rcases cases' with ⟨_, _, _, frames⟩ | ⟨_, results, caller', rest', left, same, frames⟩ |
    ⟨_, _, _, _, _, _, frames, -⟩
  · rw [frames] at heightAfter
    simp at heightAfter
  · obtain ⟨rfl, rfl⟩ := List.cons.inj same
    obtain ⟨leaving, hereLast, height⟩ := dispatch_leave zero left
    refine ⟨frame, caller.receive results, type, opcode, callee, leaving, results.reverse,
      framesBefore, typed, here, enough, ?_, hereLast, ?_, frames, ?_⟩
    · rw [framesLast]
      rfl
    · rw [List.length_reverse]
      exact height
    · rw [← rest]
      rfl
  · rw [frames] at heightAfter
    simp only [List.length_cons] at heightAfter
    omega

/-- A completed call puts the results of the callee in the place of its arguments exactly when the
callee leaves with nothing but its results on its stack. -/
theorem call_replaces_iff {self : WasmInstance} {start : Nat} {args : List WasmValue}
    {before entered last after : RunState} {index : Nat} {below : List Frame} {type : FuncType}
    (reachable : Reachable self start args before) (calls : Calls before index below entered)
    (completes : Completes (below.length + 1) entered last after)
    (typed : before.self.functionType index = some type) :
    ReplacesArguments before after type ↔ LeavesWith last type.results.length := by
  obtain ⟨frame, caller, type', opcode, callee, leaving, results, framesBefore, typed', here,
    enough, top, hereLast, height, framesAfter, stack⟩ :=
    call_completes reachable calls completes
  rw [typed] at typed'
  cases typed'
  obtain ⟨rest, framesLast⟩ : ∃ rest, last.frames = callee :: rest := List.head?_eq_some_iff.mp top
  constructor
  · rintro ⟨frame', caller', below', opcode', results', framesBefore', framesAfter', here', _,
      stack', declared⟩
    rw [framesBefore] at framesBefore'
    obtain ⟨rfl, rfl⟩ := List.cons.inj framesBefore'
    rw [framesAfter] at framesAfter'
    obtain ⟨rfl, _⟩ := List.cons.inj framesAfter'
    rw [here] at here'
    cases here'
    have same : results = results' := List.append_cancel_right (stack.symm.trans stack')
    refine ⟨callee, rest, leaving, framesLast, hereLast, ?_⟩
    rw [height, same, declared]
  · rintro ⟨callee', rest', leaving', framesLast', hereLast', height'⟩
    rw [framesLast] at framesLast'
    obtain ⟨rfl, rfl⟩ := List.cons.inj framesLast'
    rw [hereLast] at hereLast'
    cases hereLast'
    exact ⟨frame, caller, below, opcode, results, framesBefore, framesAfter, here, enough, stack,
      by omega⟩

/-! ## A call that leaves an operand too many -/

/-- Function 0 of type `() -> i32` calls function 1 of type `() -> ()`, which ends with an
operand on its stack. -/
def extraOperandBytes : List UInt8 :=
  [0x00, 0x61, 0x73, 0x6D, 0x01, 0x00, 0x00, 0x00] ++
  [0x01, 0x08, 0x02, 0x60, 0x00, 0x01, 0x7F, 0x60, 0x00, 0x00] ++
  [0x03, 0x03, 0x02, 0x00, 0x01] ++
  [0x0A, 0x0B, 0x02, 0x04, 0x00, 0x10, 0x01, 0x0B, 0x04, 0x00, 0x41, 0x01, 0x0B]

def extraOperandInstance : WasmInstance where
  module :=
    { types := [⟨[], [.i32]⟩, ⟨[], []⟩], functionTypeIndices := [0, 1],
      bodies := [⟨[], [0x10, 0x01, 0x0B]⟩, ⟨[], [0x41, 0x01, 0x0B]⟩], totalFunctions := 2 }
  globals := []
  memory := []
  table := []

/-- The states of the run before the call, in the callee twice, and after the call. -/
def extraOperandStates : RunState × RunState × RunState × RunState :=
  let state := RunState.mk extraOperandInstance
  (state [⟨0, 0, [], [], [], 0, 0⟩] 0,
    state [⟨1, 0, [], [], [], 0, 0⟩, ⟨0, 2, [], [], [], 0, 1⟩] 1,
    state [⟨1, 2, [], [.i32 1], [], 0, 1⟩, ⟨0, 2, [], [], [], 0, 1⟩] 2,
    state [⟨0, 2, [], [.i32 1], [], 0, 1⟩] 3)

theorem extraOperand_calls :
    Calls extraOperandStates.1 1 [] extraOperandStates.2.1 :=
  ⟨⟨0, 0, [], [], [], 0, 0⟩, extraOperandInstance, [], ⟨0, 2, [], [], [], 0, 1⟩, rfl,
    by decide, by decide⟩

theorem extraOperand_completes :
    Completes 1 extraOperandStates.2.1 extraOperandStates.2.2.1 extraOperandStates.2.2.2 :=
  ⟨.single ⟨by decide +kernel, by decide +kernel⟩, by decide +kernel, by decide +kernel,
    by decide⟩

theorem extraOperand_reachable : Reachable extraOperandInstance 0 [] extraOperandStates.1 :=
  ⟨⟨[], [.i32]⟩, [⟨0, 0, [], [], [], 0, 0⟩], by decide, .refl _⟩

theorem call_replaces_iff_extraOperand :
    ReplacesArguments extraOperandStates.1 extraOperandStates.2.2.2 ⟨[], []⟩ ↔
      LeavesWith extraOperandStates.2.2.1 0 :=
  call_replaces_iff extraOperand_reachable extraOperand_calls
    extraOperand_completes (by decide)

theorem call_leaves_extra_operand :
    (parseModule extraOperandBytes >>= WasmInstance.instantiate) = .ok extraOperandInstance ∧
    ∃ before entered last after,
      Reachable extraOperandInstance 0 [] before ∧ Calls before 1 [] entered ∧
      Completes 1 entered last after ∧
      before.self.functionType 1 = some ⟨[], []⟩ ∧
      ¬ReplacesArguments before after ⟨[], []⟩ ∧
      (extraOperandInstance.invoke 0 []).2 = .ok [.i32 1] := by
  refine ⟨by decide +kernel, _, _, _, _, extraOperand_reachable, extraOperand_calls,
    extraOperand_completes, by decide, ?_, by decide⟩
  rintro ⟨frame, caller, below, opcode, results, framesBefore, framesAfter, _, _, stack, declared⟩
  cases framesBefore
  cases framesAfter
  have length := congrArg List.length stack
  rw [List.length_append, declared] at length
  simp at length

end GhitaBrowser.Wasm
