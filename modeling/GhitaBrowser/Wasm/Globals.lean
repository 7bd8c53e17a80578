import GhitaBrowser.Wasm.Instances
import Mathlib.Data.List.Forall2

/-!
# The types of globals

A module declares a type for each global and whether it may change. The interpreter
consults neither: an initialiser gives what its last constant is, and `global.set`
stores whatever is on top of the stack. `globals_hold` shows that the declarations are
respected in every run where the initialisers are constants of the declared types
(`TypedInits`, which a validator would check) and `global.set` is used as declared
(`SetsTyped`).
-/

namespace GhitaBrowser.Wasm

def WasmValue.type : WasmValue → ValueType
  | .i32 _ => .i32
  | .i64 _ => .i64
  | .f32 _ => .f32
  | .f64 _ => .f64

def HasType (global : Global) (value : WasmValue) : Prop := value.type = global.valueType

/-- The globals of an instance are as its module declares them; `start` is the instance as it was
instantiated. -/
structure GlobalsHold (module : WasmModule) (start now : WasmInstance) : Prop where
  types : List.Forall₂ HasType module.globals now.globals
  constants : ∀ (index : Nat) (global : Global), module.globals[index]? = some global →
    global.mutable = false → now.globals[index]? = start.globals[index]?

/-! ## What the code relies on -/

/-- The type of the last constant of an expression; `declared` are the globals before. -/
def constTypeLoop (declared : List Global) : Nat → Option ValueType → Reader ValueType
  | 0, _ => fail "fuel"
  | fuel + 1, type => do
    let done : Reader ValueType :=
      match type with
      | some type => pure type
      | none => fail "Constant expression produced no value"
    if (← get).isEmpty then done
    else
      let opcode ← readU8
      match opcode.toNat with
      | 0x41 => do
        let _ ← readLebI32
        constTypeLoop declared fuel (some .i32)
      | 0x42 => do
        let _ ← readLebI64
        constTypeLoop declared fuel (some .i64)
      | 0x43 => do
        let _ ← readBytes 4
        constTypeLoop declared fuel (some .f32)
      | 0x44 => do
        let _ ← readBytes 8
        constTypeLoop declared fuel (some .f64)
      | 0x23 => do
        let index ← readLebU32
        match declared[index]? with
        | some global => constTypeLoop declared fuel (some global.valueType)
        | none => fail "Global index out of range"
      | 0x0B => done
      | _ => fail "Unsupported const opcode"

def constType (declared : List Global) (expr : List UInt8) : Except String ValueType :=
  (constTypeLoop declared (expr.length + 1) none).run' (Cursor.new expr)

/-- Each initialiser is a constant of the declared type. -/
def TypedInits : List Global → List Global → Prop
  | _, [] => True
  | declared, global :: rest =>
    (constType declared global.init).toOption = some global.valueType ∧
      TypedInits (declared ++ [global]) rest

instance decidableTypedInits : (declared rest : List Global) → Decidable (TypedInits declared rest)
  | _, [] => .isTrue trivial
  | declared, global :: rest =>
    have := decidableTypedInits (declared ++ [global]) rest
    inferInstanceAs (Decidable (_ ∧ _))

/-- If `global.set` is next, it stores a value of the declared type, and into a constant only
what it holds. -/
def SetsTyped (module : WasmModule) (state : RunState) : Prop :=
  ∀ set ∈ nextGlobalSet state, ∀ global ∈ module.globals[set.1]?,
    HasType global set.2 ∧ (global.mutable = false → state.self.globals[set.1]? = some set.2)

instance (global : Global) (value : WasmValue) : Decidable (HasType global value) :=
  inferInstanceAs (Decidable (_ = _))

instance (module : WasmModule) (state : RunState) : Decidable (SetsTyped module state) :=
  inferInstanceAs (Decidable (∀ set ∈ nextGlobalSet state, ∀ global ∈ module.globals[set.1]?, _))

/-- Every `global.set` of an invocation is used as declared. -/
def SetsAllowed (module : WasmModule) (self : WasmInstance) : Request → Prop
  | .invoke index args => ∀ state, Reachable self index args state → SetsTyped module state
  | .growMemory _ | .writeMemory _ _ => True

/-! ## Readers side by side -/

/-- Where the first reader succeeds, so does the second, at the same place and with a result that
is related to the first one's. -/
def Tracks {α β : Type} (R : α → β → Prop) (first : Reader α) (second : Reader β) : Prop :=
  ∀ c c' result, first c = .ok (result, c') → ∃ other, second c = .ok (other, c') ∧ R result other

namespace Tracks

variable {α β γ : Type} {R : α → β → Prop}

theorem pure {a : α} {b : β} (h : R a b) : Tracks R (Pure.pure a) (Pure.pure b) := by
  intro c c' result ok
  cases ok
  exact ⟨b, rfl, h⟩

theorem fail {message : String} {second : Reader β} :
    Tracks R (Wasm.fail message : Reader α) second := by
  intro c c' result ok
  cases ok

theorem bind {read : Reader γ} {first : γ → Reader α} {second : γ → Reader β}
    (h : ∀ value, Tracks R (first value) (second value)) :
    Tracks R (read >>= first) (read >>= second) := by
  intro c c' result ok
  obtain ⟨value, middle, here, ok⟩ := bind_run_eq_ok.mp ok
  obtain ⟨other, same, related⟩ := h value middle c' result ok
  exact ⟨other, bind_run_eq_ok.mpr ⟨value, middle, here, same⟩, related⟩

theorem map {δ : Type} {S : α → δ → Prop} {first : Reader α} {second : Reader β} {f : β → δ}
    (h : Tracks R first second) (more : ∀ a b, R a b → S a (f b)) :
    Tracks S first (do
      let b ← second
      Pure.pure (f b)) := by
  intro c c' result ok
  obtain ⟨other, same, related⟩ := h c c' result ok
  exact ⟨f other, bind_run_eq_ok.mpr ⟨other, c', same, rfl⟩, more _ _ related⟩

theorem ite {p : Prop} [Decidable p] {first first' : Reader α} {second second' : Reader β}
    (yes : Tracks R first second) (no : Tracks R first' second') :
    Tracks R (if p then first else first') (if p then second else second') := by
  split
  · exact yes
  · exact no

end Tracks

/-! ## Initialisers -/

theorem getElem?_of_forall₂ {α β : Type} {R : α → β → Prop} {first : List α} {second : List β}
    (h : List.Forall₂ R first second) {index : Nat} {b : β} (here : second[index]? = some b) :
    ∃ a, first[index]? = some a ∧ R a b := by
  induction h generalizing index with
  | nil => cases here
  | cons related _ ih =>
    cases index with
    | zero =>
      cases here
      exact ⟨_, rfl, related⟩
    | succ index => exact ih here

theorem constTypeLoop_tracks {self : WasmInstance} {declared : List Global}
    (typed : List.Forall₂ HasType declared self.globals) (fuel : Nat) (value : Option WasmValue) :
    Tracks (fun value type => value.type = type) (self.evalConstExprLoop fuel value)
      (constTypeLoop declared fuel (value.map WasmValue.type)) := by
  induction fuel generalizing value with
  | zero => exact .fail
  | succ fuel ih =>
    unfold WasmInstance.evalConstExprLoop constTypeLoop
    refine .bind fun c => .ite ?done (.bind fun opcode => ?_)
    case done =>
      cases value with
      | none => exact .fail
      | some value => exact .pure rfl
    generalize opcode.toNat = op
    split
    · exact .bind fun value => ih (some (.i32 value))
    · exact .bind fun value => ih (some (.i64 value))
    · exact .bind fun bytes => ih (some (.f32 (littleEndian 32 bytes)))
    · exact .bind fun bytes => ih (some (.f64 (littleEndian 64 bytes)))
    · refine .bind fun index => ?_
      rcases here : self.globals[index]? with _ | value
      · exact .fail
      · obtain ⟨global, declares, type⟩ := getElem?_of_forall₂ typed here
        rw [declares]
        dsimp only
        rw [← show value.type = global.valueType from type]
        exact ih (some value)
    · cases value with
      | none => exact .fail
      | some value => exact .pure rfl
    · exact .fail

theorem constType_of_eval {self : WasmInstance} {declared : List Global} {expr : List UInt8}
    {value : WasmValue} (typed : List.Forall₂ HasType declared self.globals)
    (h : self.evalConstExpr expr = .ok value) :
    (constType declared expr).toOption = some value.type := by
  obtain ⟨c, evaluated⟩ := run'_eq_ok.mp h
  obtain ⟨type, reads, rfl⟩ := constTypeLoop_tracks typed _ none _ _ _ evaluated
  have constant : constType declared expr = .ok value.type := run'_eq_ok.mpr ⟨c, reads⟩
  rw [constant]
  rfl

theorem initGlobals_typed {rest declared : List Global} {self after : WasmInstance}
    (typed : List.Forall₂ HasType declared self.globals) (inits : TypedInits declared rest)
    (h : WasmInstance.initGlobals rest self = .ok after) :
    List.Forall₂ HasType (declared ++ rest) after.globals ∧ after.module = self.module := by
  induction rest generalizing declared self with
  | nil =>
    cases h
    exact ⟨by rwa [List.append_nil], rfl⟩
  | cons global rest ih =>
    rw [WasmInstance.initGlobals] at h
    cases evaluated : self.evalConstExpr global.init with
    | error message =>
      rw [evaluated] at h
      cases h
    | ok value =>
      rw [evaluated] at h
      have type := constType_of_eval typed evaluated
      rw [inits.1] at type
      have here : HasType global value := (Option.some.inj type).symm
      have grown : List.Forall₂ HasType (declared ++ [global]) (self.globals ++ [value]) :=
        List.rel_append typed (.cons here .nil)
      have next := ih grown inits.2 h
      rwa [List.append_assoc] at next

/-! ## Runs -/

theorem forall₂_set {α β : Type} {R : α → β → Prop} {first : List α} {second : List β} {index : Nat}
    {b : β} (h : List.Forall₂ R first second) (new : ∀ a, first[index]? = some a → R a b) :
    List.Forall₂ R first (second.set index b) := by
  induction h generalizing index with
  | nil => exact .nil
  | cons related rest ih =>
    cases index with
    | zero => exact .cons (new _ rfl) rest
    | succ index => exact .cons related (ih new)

variable {module : WasmModule}

theorem GlobalsHold.changes {start : WasmInstance} {state : RunState}
    {after : WasmInstance} (h : GlobalsHold module start state.self)
    (typed : SetsTyped module state) (changes : Changes state after) :
    GlobalsHold module start after := by
  cases changes with
  | keeps => exact h
  | @globalSet index value next inRange =>
    have fits := typed (index, value) next
    refine ⟨forall₂_set h.types fun global declares => (fits global declares).1, ?_⟩
    intro other global declares constant
    by_cases here : index = other
    · subst here
      have kept := (fits global declares).2 constant
      rw [List.getElem?_set_self inRange, ← kept]
      exact h.constants index global declares constant
    · rw [List.getElem?_set_ne here]
      exact h.constants other global declares constant
  | store _ => exact ⟨h.types, h.constants⟩
  | @grow delta _ =>
    obtain ⟨memory, grown, -⟩ := state.self.grow_snd delta
    rw [grown]
    exact ⟨h.types, h.constants⟩

theorem GlobalsHold.run {start self : WasmInstance} (request : Request)
    (h : GlobalsHold module start self) (allowed : SetsAllowed module self request) :
    GlobalsHold module start (request.run self) := by
  cases request with
  | invoke index args =>
    exact (invoke_keeps h fun state reached holds _ => holds.changes (allowed state reached)).2
  | growMemory deltaPages =>
    obtain ⟨memory, grown, -⟩ := Request.run_growMemory self deltaPages
    rw [grown]
    exact ⟨h.types, h.constants⟩
  | writeMemory offset bytes =>
    obtain ⟨memory, -, written⟩ := Request.run_writeMemory self offset bytes
    rw [written]
    exact ⟨h.types, h.constants⟩

theorem instantiate_globalsHold {start : WasmInstance}
    (instantiated : WasmInstance.instantiate module = .ok start)
    (inits : TypedInits [] module.globals) : GlobalsHold module start start := by
  obtain ⟨-, -, -, memory, table, initialised⟩ := WasmInstance.instantiate_eq_ok instantiated
  exact ⟨(initGlobals_typed .nil inits initialised).1, fun _ _ _ _ => rfl⟩

/-- Where initialisers and `global.set` respect the declarations, every global holds a value of
its type and every constant its initial value, after any requests and during an invocation. -/
theorem globals_hold {module : WasmModule} {start : WasmInstance} {requests : List Request}
    (instantiated : WasmInstance.instantiate module = .ok start)
    (inits : TypedInits [] module.globals)
    (allowed : AllAllowed (SetsAllowed module) start requests) :
    GlobalsHold module start (after start requests) ∧
      ∀ index args, SetsAllowed module (after start requests) (.invoke index args) →
        ∀ state, Reachable (after start requests) index args state →
          GlobalsHold module start state.self := by
  have held : GlobalsHold module start (after start requests) :=
    after_keeps (fun _ request holds => holds.run request)
      (instantiate_globalsHold instantiated inits) allowed
  refine ⟨held, fun index args sets => ?_⟩
  exact (invoke_keeps held fun state reached holds _ => holds.changes (sets state reached)).1

/-! ## A module with one global -/

/-- The module with one i32 global and one function `() -> ()`. -/
def globalModule (mutable : Bool) (init code : List UInt8) : WasmModule where
  types := [⟨[], []⟩]
  functionTypeIndices := [0]
  globals := [⟨.i32, mutable, init⟩]
  bodies := [⟨[], code⟩]
  totalFunctions := 1

def globalModuleBytes (mutable : Bool) (init code : List UInt8) : List UInt8 :=
  [0x00, 0x61, 0x73, 0x6D, 0x01, 0x00, 0x00, 0x00] ++
  [0x01, 0x04, 0x01, 0x60, 0x00, 0x00] ++
  [0x03, 0x02, 0x01, 0x00] ++
  [0x06, UInt8.ofNat (init.length + 4), 0x01, 0x7F, if mutable then 0x01 else 0x00] ++
    init ++ [0x0B] ++
  [0x0A, UInt8.ofNat (code.length + 3), 0x01, UInt8.ofNat (code.length + 1), 0x00] ++ code

/-- `i32.const 0`, then `i32.const 7; global.set 0; end` for a global that may change. -/
def countingInstance : WasmInstance :=
  ⟨globalModule true [0x41, 0x00] [0x41, 0x07, 0x24, 0x00, 0x0B], [.i32 0], [], []⟩

/-- The states of its invocation, before each of the three instructions. -/
def countingStates : List RunState :=
  [⟨countingInstance, [⟨0, 0, [], [], [], 0, 0⟩], 0⟩,
    ⟨countingInstance, [⟨0, 2, [], [.i32 7], [], 0, 1⟩], 1⟩,
    ⟨{ countingInstance with globals := [.i32 7] }, [⟨0, 4, [], [], [], 0, 2⟩], 2⟩]

theorem counting_reachable {state : RunState} (h : Reachable countingInstance 0 [] state) :
    state ∈ countingStates := by
  obtain ⟨type, frames, started, run⟩ := h
  have begins : invokeStart countingInstance 0 [] =
      .ok (⟨[], []⟩, [⟨0, 0, [], [], [], 0, 0⟩]) := by decide
  cases begins.symm.trans started
  have first : nextState ⟨countingInstance, [⟨0, 0, [], [], [], 0, 0⟩], 0⟩ =
      .running ⟨countingInstance, [⟨0, 2, [], [.i32 7], [], 0, 1⟩], 1⟩ := by decide
  have second : nextState ⟨countingInstance, [⟨0, 2, [], [.i32 7], [], 0, 1⟩], 1⟩ =
      .running ⟨{ countingInstance with globals := [.i32 7] }, [⟨0, 4, [], [], [], 0, 2⟩], 2⟩ := by
    decide
  have third : nextState ⟨{ countingInstance with globals := [.i32 7] },
      [⟨0, 4, [], [], [], 0, 2⟩], 2⟩ =
      .halted ({ countingInstance with globals := [.i32 7] }, .ok []) := by decide
  rcases run.cases_running first with rfl | run
  · decide
  rcases run.cases_running second with rfl | run
  · decide
  · obtain rfl := run.eq_of_halted third
    decide

theorem globals_hold_counting :
    GlobalsHold countingInstance.module countingInstance
      (after countingInstance [.invoke 0 []]) := by
  have typed : ∀ state ∈ countingStates, SetsTyped countingInstance.module state := by
    decide
  have allowed : AllAllowed (SetsAllowed countingInstance.module) countingInstance
      [.invoke 0 []] := ⟨fun state reached => typed state (counting_reachable reached), trivial⟩
  exact (globals_hold (by decide) (by decide) allowed).1

/-- An i64 in a global that is declared to stay an i32, by the initialiser of the one module and
by the function of the other. -/
theorem global_of_other_type :
    parseModule (globalModuleBytes false [0x41, 0x00] [0x42, 0x07, 0x24, 0x00, 0x0B]) =
        .ok (globalModule false [0x41, 0x00] [0x42, 0x07, 0x24, 0x00, 0x0B]) ∧
      (∃ start, WasmInstance.instantiate
          (globalModule false [0x41, 0x00] [0x42, 0x07, 0x24, 0x00, 0x0B]) = .ok start ∧
        start.globals = [.i32 0] ∧ (start.invoke 0 []).2 = .ok [] ∧
        (after start [.invoke 0 []]).globals = [.i64 7]) ∧
      parseModule (globalModuleBytes false [0x42, 0x05] [0x0B]) =
        .ok (globalModule false [0x42, 0x05] [0x0B]) ∧
      ∃ start, WasmInstance.instantiate (globalModule false [0x42, 0x05] [0x0B]) = .ok start ∧
        start.globals = [.i64 5] := by
  refine ⟨by decide +kernel, ⟨⟨globalModule false [0x41, 0x00] [0x42, 0x07, 0x24, 0x00, 0x0B],
    [.i32 0], [], []⟩, by decide, rfl, by decide, by decide⟩,
    by decide +kernel, ⟨globalModule false [0x42, 0x05] [0x0B], [.i64 5], [], []⟩,
    by decide, rfl⟩

end GhitaBrowser.Wasm
