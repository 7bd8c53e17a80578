import GhitaBrowser.Js.Value
import GhitaBrowser.Lib.Program

/-!
# Environments and the operations of the evaluator

`JsvEnvironment` methods, prototype lookup and allocation, as functions on the
store. A record's parent is older than the record, so walking at most as many
parents as there are records reaches the global one.
-/

namespace GhitaBrowser.Js

namespace Properties

variable {α : Type}

def get (properties : Properties α) (name : String) : Option α :=
  (properties.find? fun entry => entry.1 == name).map Prod.snd

def insert : Properties α → String → α → Properties α
  | [], name, value => [(name, value)]
  | (key, old) :: rest, name, value =>
    if key == name then (key, value) :: rest else (key, old) :: insert rest name value

def remove (properties : Properties α) (name : String) : Properties α :=
  properties.filter fun entry => entry.1 != name

def contains (properties : Properties α) (name : String) : Bool :=
  properties.any fun entry => entry.1 == name

def keys (properties : Properties α) : List String := properties.map Prod.fst

end Properties

namespace Store

/-- Allocate a record under `parent`. -/
def withParent (parent : JsvEnvironment) (store : Store) : JsvEnvironment × Store :=
  (⟨store.environments.length⟩,
    { store with environments := store.environments ++ [⟨some parent.record, []⟩] })

def lookupFrom (store : Store) (name : String) : Nat → Nat → Option JsvValue
  | 0, _ => none
  | fuel + 1, record =>
    match store.environments[record]? with
    | none => none
    | some entry =>
      match entry.bindings.get name with
      | some binding => some binding.value
      | none => entry.parent.bind (store.lookupFrom name fuel)

def get (store : Store) (env : JsvEnvironment) (name : String) : Option JsvValue :=
  store.lookupFrom name store.environments.length env.record

def insertBinding (store : Store) (record : Nat) (name : String) (binding : EnvironmentBinding) :
    Store :=
  { store with environments := store.environments.modify record fun entry =>
      { entry with bindings := entry.bindings.insert name binding } }

def define (env : JsvEnvironment) (name : String) (value : JsvValue) (store : Store) : Store :=
  store.insertBinding env.record name ⟨value, true⟩

def declare (env : JsvEnvironment) (name : String) (value : JsvValue) (isMutable allowRedeclare : Bool)
    (store : Store) : Except String Unit × Store :=
  let declared := match store.environments[env.record]? with
    | some entry => entry.bindings.contains name
    | none => false
  if !allowRedeclare && declared then
    (.error ("SyntaxError: identifier '" ++ name ++ "' has already been declared"), store)
  else
    (.ok (), store.insertBinding env.record name ⟨value, isMutable⟩)

/-- `JsvEnvironment::assign_existing`. -/
def assignExistingFrom (name : String) (value : JsvValue) :
    Nat → Nat → Store → Except String Bool × Store
  | 0, _, store => (.ok false, store)
  | fuel + 1, record, store =>
    match store.environments[record]? with
    | none => (.ok false, store)
    | some entry =>
      match entry.bindings.get name with
      | some binding =>
        if !binding.isMutable then
          (.error ("TypeError: assignment to constant '" ++ name ++ "'"), store)
        else (.ok true, store.insertBinding record name ⟨value, true⟩)
      | none =>
        match entry.parent with
        | some parent => assignExistingFrom name value fuel parent store
        | none => (.ok false, store)

/-- `JsvEnvironment::assign`: a name bound nowhere is declared in the innermost
record. -/
def assign (env : JsvEnvironment) (name : String) (value : JsvValue) (store : Store) :
    Except String Unit × Store :=
  match assignExistingFrom name value store.environments.length env.record store with
  | (.error error, store) => (.error error, store)
  | (.ok true, store) => (.ok (), store)
  | (.ok false, store) => declare env name value true true store

def allocObject (object : JsvObject) (store : Store) : JsvValue × Store :=
  (.object store.objects.length, { store with objects := store.objects ++ [object] })

def objectValue (properties : Properties JsvValue) (store : Store) : JsvValue × Store :=
  store.allocObject ⟨properties, none, [], []⟩

def allocArray (values : List JsvValue) (store : Store) : JsvValue × Store :=
  (.array store.arrays.length, { store with arrays := store.arrays ++ [values] })

def allocIterator (state : JsvIteratorState) (store : Store) : Nat × Store :=
  (store.iterators.length, { store with iterators := store.iterators ++ [state] })

def errorValue (name message : String) (store : Store) : JsvValue × Store :=
  (.error store.nextId name message, { store with nextId := store.nextId + 1 })

def arrayAt (store : Store) (ref : Nat) : List JsvValue := store.arrays[ref]?.getD []

def propertiesAt (store : Store) (ref : Nat) : Properties JsvValue :=
  (store.objects[ref]?.map JsvObject.properties).getD []

def modifyObject (store : Store) (ref : Nat) (f : JsvObject → JsvObject) : Store :=
  { store with objects := store.objects.modify ref f }

def setProperty (store : Store) (ref : Nat) (name : String) (value : JsvValue) : Store :=
  store.modifyObject ref fun object =>
    { object with properties := object.properties.insert name value }

def setArray (store : Store) (ref : Nat) (values : List JsvValue) : Store :=
  { store with arrays := store.arrays.set ref values }

/-- The prototype chain is followed for at most 64 objects. -/
def objectPropertyFrom (store : Store) (name : String) : Nat → Nat → Option JsvValue
  | 0, _ => none
  | fuel + 1, ref =>
    match store.objects[ref]? with
    | none => none
    | some object =>
      match object.properties.get name with
      | some value => some value
      | none => object.prototype.bind (store.objectPropertyFrom name fuel)

def objectProperty (store : Store) (ref : Nat) (name : String) : Option JsvValue :=
  store.objectPropertyFrom name 64 ref

end Store

/-- The store of a new engine before its globals are installed: the global record
is record 0. -/
def Store.empty : Store where
  environments := [⟨none, []⟩]
  objects := []
  arrays := []
  maps := []
  sets := []
  weakMaps := []
  weakSets := []
  arrayBuffers := []
  typedArrays := []
  dataViews := []
  proxies := []
  classes := []
  generators := []
  iterators := []
  nextId := 1
  console := []
  stringBytes := 0
  inGenerator := 0
  currentGenerator := none
  proxyDepth := 0
  modules := ⟨[], []⟩
  modulesBusy := false
  modulesEvaluated := 0

end GhitaBrowser.Js

/-!
## The operations of the evaluator

Every evaluator function is an `Eval` program. Reading and writing the store is one
operation; the budgets, the host and the promise table have operations of their own,
so that a property of a run about one of them is a property of these operations and
of the scopes. A promise is settled, and the microtask queue is read, only by the
microtask loop: its operations (`JobOp`) are not available to an `Eval` program.

`evalExpr` carries the position of the expression among the children of the node
that evaluates it. No run reads the position: it names, in a trace, the operand
that was evaluated.
-/

namespace GhitaBrowser.Js

/-- What the engine takes from its platform: number formatting and parsing, the
iteration order of its hash maps, Unicode classes, and the leaf built-ins, which
compute a value from their arguments and call nothing. -/
class Platform where
  debugAssertions : Bool
  formatNumber : Float → String
  parseNumber : String → Option Float
  /-- `i64::from_str_radix` in base 16. -/
  parseHex : String → Option Int
  trim : String → String
  remainder : Float → Float → Float
  elementRead : String → List UInt8 → Nat → Except String Float
  elementWrite : String → List UInt8 → Nat → Float → List UInt8
  keyOrder : Properties JsvValue → Properties JsvValue
  keyOrder_perm : ∀ properties, (keyOrder properties).Perm properties
  leafNative : String → List JsvValue → Store → Except String JsvValue × Store
  stringMethod : String → String → List JsvValue → Store → Except String JsvValue × Store
  /-- `parse_module_source`, with the rest of the source tokenized and parsed. -/
  parseModule : String → Except String ParsedModule
  /-- The address of a promise cell, which keys the table of pending reactions. -/
  promiseAddress : Nat → Nat

inductive Op : Type → Type 1 where
  | store {β : Type} (f : Store → Except String β × Store) : Op β
  /-- The step taken at the start of `eval_expr`. -/
  | enterExpr : Op Unit
  /-- `EvalCtx::step`. -/
  | step : Op Unit
  | hostGet (object : Nat) (property : String) : Op JsvValue
  | hostSet (object : Nat) (property : String) (value : JsvValue) : Op JsvValue
  | hostCall (object : Nat) (method : String) (arguments : List JsvValue) : Op JsvValue
  /-- `source` names the promise whose state an async function copies; no run reads it. -/
  | newPromise (state : JsvPromiseState) (source : Option Nat) : Op Nat
  | promiseState (promise : Nat) : Op JsvPromiseState
  /-- Register a reaction on a promise, with a new pending promise for its result. -/
  | react (promise : Nat) (onFulfilled onRejected onFinally : Option JsvValue) : Op Nat

/-- The operations of the microtask loop. -/
inductive JobOp : Type → Type 1 where
  | script {β : Type} (op : Op β) : JobOp β
  | takeJob : JobOp (Option PromiseReactionJob)
  | putBackJob (job : PromiseReactionJob) : JobOp Unit
  | settle (promise : Nat) (state : JsvPromiseState) : JobOp Unit
  | registerPending (promise : Nat) (reaction : PendingPromiseReaction) : JobOp Unit

inductive Call : Type → Type where
  | evalExpr (position : Nat) (expr : JsvExpr) (env : JsvEnvironment) : Call JsvValue
  | callFunction (func : JsvValue) (args : List JsvValue) (env : JsvEnvironment)
      (thisArg : JsvValue) : Call JsvValue
  | constructClassWithThis (ref : Nat) (args : List JsvValue) (thisValue : JsvValue)
      (env : JsvEnvironment) : Call JsvValue
  | generatorNext (generator : Nat) (argument : JsvValue) : Call (Bool × JsvValue)
  | drainPromiseJobs (env : JsvEnvironment) : Call Unit
  | proxyGet (proxy : Nat) (key : String) (env : JsvEnvironment) : Call JsvValue
  | proxySet (proxy : Nat) (key : String) (value : JsvValue) (env : JsvEnvironment) :
      Call JsvValue

/-- Stretches of a run with something to undo at their end. -/
inductive Scope where
  | ifCondition
  /-- The first condition of a `while`. -/
  | whileCondition
  /-- The body of a `while` loop, for one iteration. -/
  | loopBody
  /-- A function call or a constructor. -/
  | call
  | proxyTrap
  /-- A generator that is being resumed; its `running` flag is cleared at the end. -/
  | resumed (generator : Nat)
  /-- A statement of a generator body. -/
  | generatorStatement (generator : Nat)
deriving DecidableEq

/-- Stretches of a run at whose end an error becomes a value. -/
inductive Guard where
  /-- The statement list of a `try`, `catch` or `finally`. -/
  | tryList
  | asyncBody
  | promiseHandler
  | dynamicImport
deriving DecidableEq

abbrev Eval := Program String Op Call Scope Guard

abbrev JobEval := Program String JobOp Call Scope Guard

def fail {α : Type} (message : String) : Eval α := .throw message

/-! ## Store operations -/

def tryStore {β : Type} (f : Store → Except String β × Store) : Eval β := .op (.store f)

def updateStore {β : Type} (f : Store → β × Store) : Eval β :=
  tryStore fun store => let (reply, store) := f store; (.ok reply, store)

def modifyStore (f : Store → Store) : Eval Unit := updateStore fun store => ((), f store)

def readStore {β : Type} (f : Store → β) : Eval β := updateStore fun store => (f store, store)

def withParent (env : JsvEnvironment) : Eval JsvEnvironment := updateStore (Store.withParent env)

def lookup (env : JsvEnvironment) (name : String) : Eval (Option JsvValue) :=
  readStore fun store => store.get env name

def define (env : JsvEnvironment) (name : String) (value : JsvValue) : Eval Unit :=
  modifyStore (Store.define env name value)

def declare (env : JsvEnvironment) (name : String) (value : JsvValue)
    (isMutable allowRedeclare : Bool) : Eval Unit :=
  tryStore (Store.declare env name value isMutable allowRedeclare)

def assign (env : JsvEnvironment) (name : String) (value : JsvValue) : Eval Unit :=
  tryStore (Store.assign env name value)

def objectValue (properties : Properties JsvValue) : Eval JsvValue :=
  updateStore (Store.objectValue properties)

def arrayValue (values : List JsvValue) : Eval JsvValue := updateStore (Store.allocArray values)

def promiseValue (state : JsvPromiseState) : Eval JsvValue := do
  let ref ← Program.op (Op.newPromise state none)
  return .promise ref

/-! ## Calls -/

def evalExpr (position : Nat) (expr : JsvExpr) (env : JsvEnvironment) : Eval JsvValue :=
  .invoke (.evalExpr position expr env)

def callFunction (func : JsvValue) (args : List JsvValue) (env : JsvEnvironment)
    (thisArg : JsvValue) : Eval JsvValue :=
  .invoke (.callFunction func args env thisArg)

def constructClassWithThis (ref : Nat) (args : List JsvValue) (thisValue : JsvValue)
    (env : JsvEnvironment) : Eval JsvValue :=
  .invoke (.constructClassWithThis ref args thisValue env)

def generatorNext (generator : Nat) (argument : JsvValue) : Eval (Bool × JsvValue) :=
  .invoke (.generatorNext generator argument)

def drainPromiseJobs (env : JsvEnvironment) : Eval Unit := .invoke (.drainPromiseJobs env)

def proxyGet (proxy : Nat) (key : String) (env : JsvEnvironment) : Eval JsvValue :=
  .invoke (.proxyGet proxy key env)

def proxySet (proxy : Nat) (key : String) (value : JsvValue) (env : JsvEnvironment) :
    Eval JsvValue :=
  .invoke (.proxySet proxy key value env)

/-- A suspension passes through an expression with a frame for the rest of it. -/
def suspending (value : JsvValue) (cont : Cont) (rest : Eval JsvValue) : Eval JsvValue :=
  match value with
  | .yieldSignal value conts => return .yieldSignal value (conts ++ [cont])
  | _ => rest

/-- A place where a suspension is an error. -/
def refusingYield {α : Type} (value : JsvValue) (message : String) (rest : Eval α) : Eval α :=
  match value with
  | .yieldSignal .. => fail message
  | _ => rest

def callResultValue : JsvValue → Eval JsvValue
  | .returnSignal value => return value
  | .breakSignal => fail "SyntaxError: illegal break statement in function"
  | .continueSignal => fail "SyntaxError: illegal continue statement in function"
  | value => return value

/-! ## String budget -/

def maxStringLength : Nat := 2 * 1024 * 1024
def maxStringBudget : Nat := 32 * 1024 * 1024

def checkStringAlloc (len : Nat) : Eval Unit :=
  tryStore fun store =>
    if len > maxStringLength then
      (.error ("String too large (" ++ toString len ++ " bytes, max " ++
        toString maxStringLength ++ ")"), store)
    else
      let store := { store with stringBytes := store.stringBytes + len }
      if store.stringBytes > maxStringBudget then
        (.error "String memory budget exceeded", store)
      else (.ok (), store)

end GhitaBrowser.Js
