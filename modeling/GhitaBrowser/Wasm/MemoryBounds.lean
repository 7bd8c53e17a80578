import GhitaBrowser.Wasm.Instances
import GhitaBrowser.Wasm.Indices

/-!
# Bounds on calls and memory

All frames of an invocation share one step count, so the run that an invocation starts
has at most as many steps as the budget allows, however deep its calls and whatever
branches they take. The frames are those of the invocation: each call gives them back as
it found them when it returns, and a trap ends the invocation, with nothing left for the
next one to find (`invoke_within_budgets`).
-/

namespace GhitaBrowser.Wasm

/-- `state` is reached from the start of the invocation by `steps` instructions. -/
def ReachableIn (steps : Nat) (self : WasmInstance) (index : Nat) (args : List WasmValue)
    (state : RunState) : Prop :=
  ∃ type frames, invokeStart self index args = .ok (type, frames) ∧
    Machine.StepsIn nextState steps ⟨self, frames, 0⟩ state

/-- The invocation is refused before its first instruction, or it is a run from one frame and a
step count of zero that halts. -/
def Terminates (self : WasmInstance) (index : Nat) (args : List WasmValue) : Prop :=
  (∃ message, invokeStart self index args = .err message ∧
    self.invoke index args = (self, .err message)) ∨
  ∃ type frame last self' outcome, invokeStart self index args = .ok (type, [frame]) ∧
    Machine.HaltsAt nextState ⟨self, [frame], 0⟩ last (self', outcome) ∧
    outcome ≠ .timeout ∧ self.invoke index args = (self', checkResults type outcome)

/-- The call entered in `entered` comes back to the frames it was made from, or its trap is the
end of the whole invocation. -/
def CallEnds (self : WasmInstance) (index : Nat) (args : List WasmValue) (below : List Frame)
    (entered : RunState) : Prop :=
  ∃ callee caller last, entered.frames = callee :: caller :: below ∧
    RunsAbove (below.length + 1) entered last ∧
    ((∃ after results, nextState last = .running after ∧
        after.frames = caller.receive results :: below) ∨
      ∃ type frames self' outcome, invokeStart self index args = .ok (type, frames) ∧
        nextState last = .halted (self', outcome) ∧
        self.invoke index args = (self', checkResults type outcome))

/-! ## Steps -/

theorem nextState_budget {a b : RunState} (h : nextState a = .running b) :
    b.total ≤ maxInterpreterSteps := by
  rw [nextState_total h]
  obtain ⟨frame, below, _, cases'⟩ := nextState_cases h
  rcases cases' with ⟨_, _, done, _⟩ | ⟨_, _, _, _, done, _⟩ | ⟨_, _, _, _, _, done, _, _⟩
  all_goals exact dispatch_budget done

theorem enterFunction_depth {self : WasmInstance} {index : Nat} {args : List WasmValue}
    {frames entered : List Frame} (h : enterFunction self index args frames = .ok entered) :
    entered.length ≤ maxCallDepthWasm := by
  obtain ⟨locals, rfl⟩ := enterFunction_eq_ok h
  unfold enterFunction at h
  split at h
  · cases h
  · rename_i room
    exact Nat.lt_of_not_le room

theorem nextState_depth {a b : RunState} (h : nextState a = .running b)
    (within : a.frames.length ≤ maxCallDepthWasm) : b.frames.length ≤ maxCallDepthWasm := by
  obtain ⟨frame, below, frames, cases'⟩ := nextState_cases h
  rw [frames] at within
  rcases cases' with ⟨_, _, _, left⟩ | ⟨_, _, _, _, _, rfl, left⟩ | ⟨_, _, _, _, _, _, _, entered⟩
  · exact left ▸ within
  · exact left ▸ (Nat.le_succ _).trans within
  · exact enterFunction_depth entered

theorem stepsIn_total {steps : Nat} {a b : RunState} (h : Machine.StepsIn nextState steps a b) :
    b.total = a.total + steps := by
  induction steps generalizing a with
  | zero =>
    cases h
    rfl
  | succ steps ih =>
    obtain ⟨c, step, rest⟩ := h
    rw [ih rest, nextState_total step, Nat.add_assoc, Nat.add_comm 1]

/-! ## Runs -/

section

variable {self : WasmInstance} {index : Nat} {args : List WasmValue}

theorem Reachable.within {state : RunState} (h : Reachable self index args state) :
    state.total ≤ maxInterpreterSteps ∧ state.frames.length ≤ maxCallDepthWasm := by
  obtain ⟨type, frames, started, run⟩ := h
  obtain ⟨locals, rfl⟩ := invokeStart_eq_ok started
  have start : (0 : Nat) ≤ maxInterpreterSteps ∧ 1 ≤ maxCallDepthWasm := by decide
  refine run.invariant (P := fun state =>
    state.total ≤ maxInterpreterSteps ∧ state.frames.length ≤ maxCallDepthWasm) start ?_
  intro before after held step
  exact ⟨nextState_budget step, nextState_depth step held.2⟩

theorem terminates (self : WasmInstance) (index : Nat) (args : List WasmValue) :
    Terminates self index args := by
  rcases invokeStart_returns self index args with ⟨⟨type, frames⟩, started⟩ | ⟨message, fails⟩
  · obtain ⟨last, self', outcome, halts, ends, invoked⟩ := invoke_halts started
    obtain ⟨locals, rfl⟩ := invokeStart_eq_ok started
    exact .inr ⟨type, _, last, self', outcome, started, halts, ends, invoked⟩
  · exact .inl ⟨message, fails, by simp [WasmInstance.invoke, fails]⟩

/-- The step that leaves a call gives the caller its frame back. -/
theorem frames_restored {callee caller : Frame} {below : List Frame}
    {entered last after : RunState} (frames : entered.frames = callee :: caller :: below)
    (run : RunsAbove (below.length + 1) entered last)
    (above : below.length + 1 < last.frames.length) (leaves : nextState last = .running after)
    (back : ¬ below.length + 1 < after.frames.length) :
    ∃ results, after.frames = caller.receive results :: below := by
  obtain ⟨top, whole⟩ := run.bottom (caller :: below) rfl ⟨[callee], frames⟩ above
  obtain ⟨frame, rest, split, cases'⟩ := nextState_cases leaves
  rw [split, List.length_cons] at above
  rcases cases' with ⟨_, _, _, same⟩ | ⟨_, results, caller', rest', _, rfl, same⟩ |
    ⟨_, _, _, _, _, _, more, -⟩
  · rw [same, List.length_cons] at back
    exact absurd above back
  · rw [same, List.length_cons] at back
    rw [List.length_cons] at above
    have height : (caller :: below).length = (caller' :: rest').length :=
      Nat.le_antisymm (Nat.lt_succ_iff.mp above) (Nat.le_of_not_lt back)
    have same' : top ++ caller :: below = [frame] ++ caller' :: rest' := whole.symm.trans split
    obtain ⟨-, suffix⟩ := List.append_inj' same' height
    obtain ⟨rfl, rfl⟩ := List.cons.inj suffix
    exact ⟨results, same⟩
  · rw [more, List.length_cons, List.length_cons] at back
    exact absurd (Nat.lt_succ_of_lt above) back

theorem callEnds {before entered : RunState} {called : Nat} {below : List Frame}
    (reached : Reachable self index args before) (calls : Calls before called below entered) :
    CallEnds self index args below entered := by
  obtain ⟨frame, self₁, callArgs, caller, framesBefore, dispatched, step⟩ := calls
  have enters : ∃ callee, entered.frames = callee :: caller :: below := by
    obtain ⟨frame', below', frames', cases'⟩ := nextState_cases step
    obtain ⟨rfl, rfl⟩ := List.cons.inj (framesBefore.symm.trans frames')
    rcases cases' with ⟨_, _, other, _⟩ | ⟨_, _, _, _, other, _⟩ |
      ⟨_, _, _, _, callee, same, frames, -⟩
    · cases dispatched.symm.trans other
    · cases dispatched.symm.trans other
    · cases dispatched.symm.trans same
      exact ⟨callee, frames⟩
  obtain ⟨callee, frames⟩ := enters
  obtain ⟨type, start, started, run⟩ := reached
  obtain ⟨final, self', outcome, halts, -, invoked⟩ := invoke_halts started
  have rest : Machine.HaltsAt nextState entered final (self', outcome) :=
    ⟨halts.reaches (run.tail step), halts.2⟩
  have above : below.length + 1 < entered.frames.length := by
    rw [frames]
    exact Nat.lt_succ_self _
  obtain ⟨last, inside, held, ends⟩ :=
    Machine.Steps.exit (P := fun state => below.length + 1 < state.frames.length) rest above
  refine ⟨callee, caller, last, frames, inside, ?_⟩
  rcases ends with ⟨after, leaves, back⟩ | rfl
  · obtain ⟨results, restored⟩ := frames_restored frames inside held leaves back
    exact .inl ⟨after, results, leaves, restored⟩
  · exact .inr ⟨type, start, self', outcome, started, halts.2, invoked⟩

end

/-- Whatever has been asked of an instance before, its next invocation starts with one frame and
no steps and ends; each state of it is reached by as many steps as are counted, within the budget
and the depth; and each of its calls gives the frames back, or traps and ends the invocation. -/
theorem invoke_within_budgets (start : WasmInstance) (requests : List Request) (index : Nat)
    (args : List WasmValue) :
    Terminates (after start requests) index args ∧
      (∀ steps state, ReachableIn steps (after start requests) index args state →
        state.total = steps ∧ steps ≤ maxInterpreterSteps ∧
          state.frames.length ≤ maxCallDepthWasm) ∧
      ∀ before called below entered, Reachable (after start requests) index args before →
        Calls before called below entered →
        CallEnds (after start requests) index args below entered := by
  refine ⟨terminates _ index args, ?_, fun _ _ _ _ reached calls => callEnds reached calls⟩
  rintro steps state ⟨type, frames, started, run⟩
  have total := stepsIn_total run
  rw [Nat.zero_add] at total
  have within := Reachable.within ⟨type, frames, started, run.steps⟩
  exact ⟨total, total ▸ within.1, within.2⟩

end GhitaBrowser.Wasm

/-!
## The size of a memory

A memory is a whole number of pages and never larger than the engine's cap, whatever the
program and the embedder do (`memory_bounded`). The maximum that the module declares is
checked by the parser only. Growth by either side is held against the cap and not against
the maximum, so the memory stays below it just where no granted growth goes past it.
-/

namespace GhitaBrowser.Wasm

/-- The pages that a module allows its memory to have. -/
def declaredMaximum (module : WasmModule) : Option Nat := module.memories.head?.bind (·.limits.max)

/-- A growth that the cap lets through stays within the declared maximum. -/
def GrowsWithin (module : WasmModule) (self : WasmInstance) (deltaPages : Nat) : Prop :=
  self.memory.length + deltaPages * pageSize ≤ maxMemoryBytes →
    ∀ max ∈ declaredMaximum module, self.memory.length + deltaPages * pageSize ≤ max * pageSize

def GrowthAllowed (module : WasmModule) (self : WasmInstance) : Request → Prop
  | .invoke index args => ∀ state, Reachable self index args state →
      ∀ delta ∈ nextGrow state, GrowsWithin module state.self delta.toNat
  | .growMemory deltaPages => GrowsWithin module self deltaPages
  | .writeMemory _ _ => True

/-- A whole number of pages within the cap. -/
structure MemoryHolds (now : WasmInstance) : Prop where
  pages : pageSize ∣ now.memory.length
  cap : now.memory.length ≤ maxMemoryBytes

def WithinMaximum (module : WasmModule) (now : WasmInstance) : Prop :=
  ∀ max ∈ declaredMaximum module, now.memory.length ≤ max * pageSize

/-! ## Steps -/

section

variable {module : WasmModule} {now later : WasmInstance} {deltaPages : Nat}

/-- The length of a memory after a growth, be it refused or granted. -/
def Grown (now later : WasmInstance) (deltaPages : Nat) : Prop :=
  later.memory.length = now.memory.length ∨
    later.memory.length = now.memory.length + deltaPages * pageSize ∧
      later.memory.length ≤ maxMemoryBytes

theorem MemoryHolds.grown (h : MemoryHolds now) (growth : Grown now later deltaPages) :
    MemoryHolds later := by
  rcases growth with same | ⟨length, cap⟩
  · exact ⟨same ▸ h.pages, same ▸ h.cap⟩
  · exact ⟨length ▸ Nat.dvd_add h.pages (Nat.dvd_mul_left _ _), cap⟩

theorem WithinMaximum.grown (h : WithinMaximum module now) (growth : Grown now later deltaPages)
    (within : GrowsWithin module now deltaPages) : WithinMaximum module later := by
  intro max declared
  rcases growth with same | ⟨length, cap⟩
  · exact same ▸ h max declared
  · rw [length] at cap ⊢
    exact within cap max declared

theorem MemoryHolds.changes {state : RunState} {after : WasmInstance} (h : MemoryHolds state.self)
    (changes : Changes state after) : MemoryHolds after := by
  cases changes with
  | keeps => exact h
  | globalSet _ _ => exact ⟨h.pages, h.cap⟩
  | store length => exact ⟨length ▸ h.pages, length ▸ h.cap⟩
  | @grow delta _ =>
    obtain ⟨memory, grown, growth⟩ := state.self.grow_snd delta
    rw [grown]
    exact h.grown growth

theorem WithinMaximum.changes {state : RunState} {after : WasmInstance}
    (h : WithinMaximum module state.self)
    (allowed : ∀ delta ∈ nextGrow state, GrowsWithin module state.self delta.toNat)
    (changes : Changes state after) : WithinMaximum module after := by
  cases changes with
  | keeps => exact h
  | globalSet _ _ => exact h
  | store length => exact fun max declared => length.le.trans (h max declared)
  | @grow delta next =>
    obtain ⟨memory, grown, growth⟩ := state.self.grow_snd delta
    rw [grown]
    exact h.grown growth (allowed delta next)

theorem MemoryHolds.run (request : Request) (h : MemoryHolds now) : MemoryHolds (request.run now) := by
  cases request with
  | invoke index args => exact (invoke_keeps h fun state _ holds _ => holds.changes).2
  | growMemory deltaPages =>
    obtain ⟨memory, grown, growth⟩ := Request.run_growMemory now deltaPages
    rw [grown]
    exact h.grown growth
  | writeMemory offset bytes =>
    obtain ⟨memory, length, written⟩ := Request.run_writeMemory now offset bytes
    rw [written]
    exact ⟨length ▸ h.pages, length ▸ h.cap⟩

theorem WithinMaximum.run (request : Request) (h : WithinMaximum module now)
    (allowed : GrowthAllowed module now request) : WithinMaximum module (request.run now) := by
  cases request with
  | invoke index args =>
    exact (invoke_keeps h fun state reached holds _ =>
      holds.changes (allowed state reached)).2
  | growMemory deltaPages =>
    obtain ⟨memory, grown, growth⟩ := Request.run_growMemory now deltaPages
    rw [grown]
    exact h.grown growth allowed
  | writeMemory offset bytes =>
    obtain ⟨memory, length, written⟩ := Request.run_writeMemory now offset bytes
    rw [written]
    exact fun max declared => length.le.trans (h max declared)

end

/-! ## Runs -/

theorem allAllowed_true (self : WasmInstance) (requests : List Request) :
    AllAllowed (fun _ _ => True) self requests := by
  induction requests generalizing self with
  | nil => trivial
  | cons request requests ih => exact ⟨trivial, ih _⟩

theorem AllAllowed.cons {Allowed : WasmInstance → Request → Prop} {self next : WasmInstance}
    {request : Request} {requests : List Request} (allowed : Allowed self request)
    (ran : request.run self = next) (rest : AllAllowed Allowed next requests) :
    AllAllowed Allowed self (request :: requests) := ⟨allowed, ran ▸ rest⟩

theorem after_cons {self next : WasmInstance} {request : Request} (requests : List Request)
    (ran : request.run self = next) : after self (request :: requests) = after next requests :=
  congrArg (after · requests) ran

theorem declaredPages_le {module : WasmModule} (holds : SectionsHold module) {max : Nat}
    (declared : max ∈ declaredMaximum module) : WasmInstance.declaredPages module ≤ max := by
  unfold declaredMaximum at declared
  unfold WasmInstance.declaredPages
  cases first : module.memories.head? with
  | none =>
    rw [first] at declared
    cases declared
  | some memory =>
    rw [first] at declared
    exact holds.memoryLimits memory (List.mem_of_head? first) max declared

/-- A memory is always whole pages within the cap. It starts with the declared pages, and it is
within the declared maximum as long as no growth that the cap lets through goes past that. -/
theorem memory_bounded {bytes : List UInt8} {module : WasmModule} {start : WasmInstance}
    (parsed : parseModule bytes = .ok module)
    (instantiated : WasmInstance.instantiate module = .ok start) (requests : List Request) :
    pageSize ∣ (after start requests).memory.length ∧
      (after start requests).memory.length ≤ maxMemoryBytes ∧
      start.memory.length = WasmInstance.declaredPages module * pageSize ∧
      (AllAllowed (GrowthAllowed module) start requests →
        ∀ max ∈ declaredMaximum module,
          (after start requests).memory.length ≤ max * pageSize) := by
  obtain ⟨-, length, cap, -⟩ := WasmInstance.instantiate_eq_ok instantiated
  have starts : MemoryHolds start := ⟨length ▸ Nat.dvd_mul_left _ _, cap⟩
  have held : MemoryHolds (after start requests) :=
    after_keeps (fun _ request holds _ => holds.run request) starts (allAllowed_true start requests)
  have within : WithinMaximum module start := fun max declared => by
    rw [length]
    exact Nat.mul_le_mul_right _ (declaredPages_le (parseModule_ok parsed).2.1 declared)
  exact ⟨held.pages, held.cap, length, fun allowed =>
    after_keeps (fun _ request holds => holds.run request) within allowed⟩

/-! ## A function that grows the memory -/

/-- A module with a memory of no pages, a maximum of `max` and a function `() -> i32`. -/
def memoryBytes (max : UInt8) (code : List UInt8) : List UInt8 :=
  [0x00, 0x61, 0x73, 0x6D, 0x01, 0x00, 0x00, 0x00] ++
  [0x01, 0x05, 0x01, 0x60, 0x00, 0x01, 0x7F] ++
  [0x03, 0x02, 0x01, 0x00] ++
  [0x05, 0x04, 0x01, 0x01, 0x00, max] ++
  [0x0A, UInt8.ofNat (code.length + 3), 0x01, UInt8.ofNat (code.length + 1), 0x00] ++ code

def memoryModule (max : Nat) (code : List UInt8) : WasmModule where
  types := [⟨[], [.i32]⟩]
  functionTypeIndices := [0]
  memories := [⟨⟨0, some max⟩⟩]
  bodies := [⟨[], code⟩]
  totalFunctions := 1

/-- `i32.const 1; memory.grow; end`. -/
def growingCode : List UInt8 := [0x41, 0x01, 0x40, 0x00, 0x0B]

section

variable (max : Nat) (memory : List UInt8)

def growingInstance : WasmInstance := ⟨memoryModule max growingCode, [], memory, []⟩

theorem growingInstance_memory : (growingInstance max memory).memory = memory := rfl

/-- A call of the function before its `memory.grow` and after it. -/
def growingPushed (delta : BitVec 32) : RunState :=
  ⟨growingInstance max memory, [⟨0, 2, [], [.i32 delta], [], 0, 1⟩], 1⟩

def growingGrown (pages : BitVec 32) (grown : WasmInstance) : RunState :=
  ⟨grown, [⟨0, 4, [], [.i32 pages], [], 0, 2⟩], 2⟩

theorem growing_pushes :
    nextState ⟨growingInstance max memory, [⟨0, 0, [], [], [], 0, 0⟩], 0⟩ =
      .running (growingPushed max memory 1) := rfl

theorem growing_grows (delta : BitVec 32) :
    nextState (growingPushed max memory delta) =
      .running (growingGrown ((growingInstance max memory).grow delta).1
        ((growingInstance max memory).grow delta).2) := rfl

theorem growing_ends (pages : BitVec 32) :
    nextState (growingGrown pages (growingInstance max memory)) =
      .halted (growingInstance max memory, .ok [.i32 pages]) := rfl

theorem grow_page (h : memory.length + pageSize ≤ maxMemoryBytes) :
    (growingInstance max memory).grow 1 = (BitVec.ofNat 32 (memory.length / pageSize),
      growingInstance max (memory ++ List.replicate pageSize 0)) := by
  unfold WasmInstance.grow
  dsimp only [growingInstance]
  have one : (1 : BitVec 32).toNat * pageSize = pageSize := rfl
  rw [one, if_neg fun refused => refused.elim (by decide) (Nat.not_lt_of_le h)]

theorem growing_allowed (within : memory.length + pageSize ≤ max * pageSize)
    (room : memory.length + pageSize ≤ maxMemoryBytes) :
    GrowthAllowed (memoryModule max growingCode) (growingInstance max memory) (.invoke 0 []) := by
  rintro state ⟨type, frames, started, run⟩ delta next
  cases started
  rcases Machine.Steps.cases_running (growing_pushes max memory) run with rfl | run
  · cases next
  rcases Machine.Steps.cases_running (growing_grows max memory 1) run with rfl | run
  · cases next
    intro granted bound declared
    cases declared
    exact within
  · rw [grow_page max memory room] at run
    obtain rfl := Machine.Steps.eq_of_halted (growing_ends ..) run
    cases next

theorem growing_run (room : memory.length + pageSize ≤ maxMemoryBytes) :
    Request.run (growingInstance max memory) (.invoke 0 []) =
      growingInstance max (memory ++ List.replicate pageSize 0) := by
  have started : invokeStart (growingInstance max memory) 0 [] =
      .ok (⟨[], [.i32]⟩, [⟨0, 0, [], [], [], 0, 0⟩]) := rfl
  obtain ⟨last, after, outcome, halts, -, invoked⟩ := invoke_halts started
  have grows := growing_grows max memory 1
  rw [grow_page max memory room] at grows
  have ends := Machine.HaltsAt.unique halts
    ⟨.head (growing_pushes ..) (.head grows (.refl _)), growing_ends ..⟩
  rw [Request.run, invoked]
  exact congrArg Prod.fst ends.2

theorem growMemory_run {pages : Nat} (granted : memory.length + pages * pageSize ≤ maxMemoryBytes) :
    Request.run (growingInstance max memory) (.growMemory pages) =
      growingInstance max (memory ++ List.replicate (pages * pageSize) 0) := by
  have grown : (growingInstance max memory).growMemory pages = .ok (memory.length / pageSize,
      growingInstance max (memory ++ List.replicate (pages * pageSize) 0)) :=
    if_neg (Nat.not_lt_of_le granted)
  rw [Request.run, grown]

theorem growMemory_refused {pages : Nat} (h : maxMemoryBytes < memory.length + pages * pageSize) :
    Request.run (growingInstance max memory) (.growMemory pages) = growingInstance max memory := by
  have refused : (growingInstance max memory).growMemory pages =
      .err "Memory growth exceeds 16 MiB" := if_pos h
  rw [Request.run, refused]

theorem writeMemory_run {offset : Nat} {bytes : List UInt8} (cap : memory.length ≤ maxMemoryBytes)
    (inside : offset + bytes.length ≤ memory.length) :
    Request.run (growingInstance max memory) (.writeMemory offset bytes) =
      growingInstance max (memory.take offset ++ bytes ++ memory.drop (offset + bytes.length)) := by
  have small : offset + bytes.length < 2 ^ 64 := (inside.trans cap).trans_lt (by decide)
  have written : (growingInstance max memory).writeMemory offset bytes = .ok (growingInstance max
      (memory.take offset ++ bytes ++ memory.drop (offset + bytes.length))) := by
    refine (if_neg (Nat.not_le_of_lt small)).trans (if_neg (not_or.mpr ⟨?_, ?_⟩))
    · exact Nat.not_lt_of_le inside
    · exact Nat.not_lt_of_le cap
  rw [Request.run, written]

end

/-- One page from the embedder, three bytes on it, one page by `memory.grow`, and a growth that
the cap refuses. -/
def growingRequests : List Request :=
  [.growMemory 1, .writeMemory 65533 [1, 2, 3], .invoke 0 [], .growMemory 255]

theorem memory_bounded_growing :
    pageSize ∣ (after (growingInstance 2 []) growingRequests).memory.length ∧
      (after (growingInstance 2 []) growingRequests).memory.length ≤ maxMemoryBytes ∧
      (after (growingInstance 2 []) growingRequests).memory.length ≤ 2 * pageSize ∧
      ∃ page, page.length = pageSize ∧ page.drop 65533 = [1, 2, 3] ∧
        (after (growingInstance 2 []) growingRequests).memory = page ++ List.replicate pageSize 0 := by
  have first := @growMemory_run 2 [] 1 (by decide)
  rw [Nat.one_mul, List.nil_append] at first
  generalize empty : List.replicate pageSize (0 : UInt8) = zeros at first
  have zerosLength : zeros.length = pageSize := by rw [← empty, List.length_replicate]
  have second := @writeMemory_run 2 zeros 65533 [1, 2, 3]
    (by rw [zerosLength]; decide) (by rw [zerosLength]; decide)
  rw [List.drop_of_length_le (by rw [zerosLength]; decide), List.append_nil] at second
  have front : (zeros.take 65533).length = 65533 := by
    rw [List.length_take, zerosLength]
    rfl
  generalize made : zeros.take 65533 ++ [1, 2, 3] = page at second
  have length : page.length = pageSize := by
    rw [← made, List.length_append, front]
    rfl
  have third := growing_run 2 page (by rw [length]; decide)
  rw [empty] at third
  have whole : (page ++ zeros).length = 2 * pageSize := by
    rw [List.length_append, length, zerosLength, Nat.two_mul]
  have fourth := @growMemory_refused 2 (page ++ zeros) 255 (by rw [whole]; decide)
  have allowed : AllAllowed (GrowthAllowed (memoryModule 2 growingCode)) (growingInstance 2 [])
      growingRequests := by
    refine .cons (fun _ bound declared => ?_) first (.cons trivial second
      (.cons (growing_allowed 2 page ?_ ?_) third (.cons (fun granted => ?_) fourth trivial)))
    · cases declared
      decide
    · rw [length]
      decide
    · rw [length]
      decide
    · rw [growingInstance_memory, whole] at granted
      exact absurd granted (by decide)
  have final : after (growingInstance 2 []) growingRequests = growingInstance 2 (page ++ zeros) := by
    rw [growingRequests, after_cons _ first, after_cons _ second, after_cons _ third,
      after_cons _ fourth]
    rfl
  obtain ⟨pages, cap, -, bounded⟩ := @memory_bounded (memoryBytes 2 growingCode)
    (memoryModule 2 growingCode) (growingInstance 2 []) (by decide +kernel) (by decide +kernel)
    growingRequests
  refine ⟨pages, cap, bounded allowed 2 rfl, page, length, ?_, ?_⟩
  · rw [← made, List.drop_append_of_le_length front.ge, List.drop_of_length_le front.le]
    rfl
  · rw [final]
    rfl

/-- The page is granted to the embedder, and `memory.grow` answers with the old size. -/
theorem memory_past_maximum :
    parseModule (memoryBytes 0 growingCode) = .ok (memoryModule 0 growingCode) ∧
      WasmInstance.instantiate (memoryModule 0 growingCode) = .ok (growingInstance 0 []) ∧
      declaredMaximum (memoryModule 0 growingCode) = some 0 ∧
      (after (growingInstance 0 []) [.growMemory 1]).memory.length = 65536 ∧
      ((growingInstance 0 []).invoke 0 []).2 = .ok [.i32 0] := by
  refine ⟨by decide +kernel, by decide +kernel, rfl, ?_, by decide +kernel⟩
  have grown := @growMemory_run 0 [] 1 (by decide)
  simp only [after, List.foldl, grown]
  simp only [growingInstance, List.nil_append, List.length_replicate, pageSize]

end GhitaBrowser.Wasm
