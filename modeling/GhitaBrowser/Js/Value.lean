import GhitaBrowser.Js.Syntax

/-!
# Values, heap and execution state

Reference-counted cells of the interpreter are references into the lists of a
`Store`; a promise is a reference into the promise table, which is kept apart
because only the promise operations may write it. Completions travel as values:
`returnSignal`, `throwSignal`, `breakSignal`, `continueSignal` and `yieldSignal`.

A value of the source that the engine never builds (a live module binding) has no
constructor here, so that reading through one is the identity. Error objects and
symbols are immutable and carry the identity they are compared by.
-/

namespace GhitaBrowser.Js

/-- A lexical environment: a reference to its record. -/
structure JsvEnvironment where
  record : Nat
deriving DecidableEq, Repr

inductive AssignTarget where
  | identifier (name : String)
  | member (object : JsvExpr) (property : String)
  | index (object : JsvExpr) (key : JsvExpr)

mutual

inductive JsvValue where
  | number (n : Float)
  | boolean (b : Bool)
  | string (s : String)
  | null
  | undefined
  | object (ref : Nat)
  | array (ref : Nat)
  | function (name : String) (params : List ParamBinding) (body : JsvExpr)
      (captured : JsvEnvironment)
  | asyncFunction (name : String) (params : List ParamBinding) (body : JsvExpr)
      (captured : JsvEnvironment)
  | generatorFn (name : String) (params : List ParamBinding) (body : JsvExpr)
      (captured : JsvEnvironment)
  | nativeFn (name : String)
  | boundNativeFn (name : String) (receiver : JsvValue)
  | promise (ref : Nat)
  | symbol (description : String) (id : Nat)
  | error (id : Nat) (name message : String)
  | map (ref : Nat)
  | set (ref : Nat)
  | weakMap (ref : Nat)
  | weakSet (ref : Nat)
  | arrayBuffer (ref : Nat)
  | typedArray (ref : Nat)
  | dataView (ref : Nat)
  | proxy (ref : Nat)
  | class (ref : Nat)
  | generatorObject (ref : Nat)
  | iterator (ref : Nat)
  | getterSetter (get set : JsvValue)
  | hostObject (object : Nat)
  | hostFunction (object : Nat) (method : String)
  | returnSignal (value : JsvValue)
  | throwSignal (reason : JsvValue)
  | breakSignal
  | continueSignal
  | yieldSignal (value : JsvValue) (conts : List Cont)

/-- Continuation frames pushed while a generator suspends. -/
inductive Cont where
  | binaryRight (left : JsvValue) (op : OpKind) (right : JsvExpr) (env : JsvEnvironment)
  | binaryApply (left : JsvValue) (op : OpKind)
  | unaryApply (op : OpKind)
  | callArgs (callee : JsvValue) (done : List JsvValue) (left : List JsvExpr)
      (env : JsvEnvironment) (isNew : Bool) (thisArg : JsvValue)
  | memberApply (property : String) (isOptional : Bool)
  | indexBase (keyExpr : JsvExpr) (isOptional : Bool) (env : JsvEnvironment)
  | indexKey (object : JsvValue) (keyExpr : JsvExpr) (isOptional : Bool) (env : JsvEnvironment)
  | indexApply (object key : JsvValue) (isOptional : Bool)
  | memberAssignBase (property : String) (rhs : JsvExpr) (env : JsvEnvironment)
  | memberAssignApply (object : JsvValue) (property : String)
  | indexAssignBase (keyExpr rhs : JsvExpr) (env : JsvEnvironment)
  | indexAssignKey (object : JsvValue) (rhs : JsvExpr) (env : JsvEnvironment)
  | indexAssignValue (object key : JsvValue)
  | indexAssignApply (object key : JsvValue)
  | arrayElem (done : List JsvValue) (left : List JsvExpr) (env : JsvEnvironment)
  | objectElem (done : List (String × JsvValue)) (left : List ObjectProperty)
      (env : JsvEnvironment)
  | templatePart (output : String) (left : List TemplatePart) (env : JsvEnvironment)
  | ternaryCond (thenExpr elseExpr : JsvExpr) (env : JsvEnvironment)
  | assignApply (target : AssignTarget) (env : JsvEnvironment)
  | varDeclApply (name : String) (kind : DeclarationKind) (env : JsvEnvironment)
  | bindPatternApply (pattern : ParamPattern) (kind : DeclarationKind) (env : JsvEnvironment)
  | returnApply
  | throwApply
  | ifCond (thenBranch : List JsvExpr) (elseBranch : Option (List JsvExpr))
      (env : JsvEnvironment)
  | whileCond (cond : JsvExpr) (body : List JsvExpr) (env : JsvEnvironment)
      (result : JsvValue) (iterations : Nat)
  | whileBody (cond : JsvExpr) (body : List JsvExpr) (env : JsvEnvironment)
      (result : JsvValue) (iterations : Nat)
  | doWhileBody (cond : JsvExpr) (body : List JsvExpr) (env : JsvEnvironment)
      (result : JsvValue) (iterations : Nat)
  | doWhileCond (cond : JsvExpr) (body : List JsvExpr) (env : JsvEnvironment)
      (result : JsvValue) (iterations : Nat)
  | forInRest (binding : String) (kind : DeclarationKind) (body : List JsvExpr)
      (env : JsvEnvironment) (result : JsvValue) (keys : List String)
  | forOfRest (pattern : ParamPattern) (kind : DeclarationKind) (body : List JsvExpr)
      (env : JsvEnvironment) (result : JsvValue) (values : List JsvValue)
  | statements (stmts : List JsvExpr) (env : JsvEnvironment) (result : JsvValue)
  | tryResume (tryBody : List JsvExpr) (catchBinding : Option String)
      (catchBody finallyBody : List JsvExpr) (env : JsvEnvironment) (outcome : JsvValue)
      (stage : Nat)
  | yieldStarLoop (iterator generator : Nat)
  | forOfIterable (pattern : ParamPattern) (kind : DeclarationKind) (body : List JsvExpr)
      (env : JsvEnvironment) (result : JsvValue)
  | callCallee (args : List JsvExpr) (env : JsvEnvironment) (isNew : Bool)
  | callMemberBase (property : String) (args : List JsvExpr) (env : JsvEnvironment)
      (isNew : Bool)
  | callIndexBase (keyExpr : JsvExpr) (args : List JsvExpr) (env : JsvEnvironment)
      (isNew : Bool)
  | callIndexKey (object : JsvValue) (args : List JsvExpr) (env : JsvEnvironment)
      (isNew : Bool)
  | callPrivateBase (name : String) (args : List JsvExpr) (env : JsvEnvironment)

end

instance : Inhabited JsvValue := ⟨.undefined⟩

namespace JsvValue

def asString : JsvValue → Option String
  | string s => some s
  | _ => none

def asSymbolId : JsvValue → Option Nat
  | symbol _ id => some id
  | _ => none

def isNullish : JsvValue → Bool
  | null | undefined => true
  | _ => false

def isTruthy : JsvValue → Bool
  | null | undefined => false
  | boolean b => b
  | number n => n != 0.0 && !n.isNaN
  | string s => s != ""
  | _ => true

/-- Values that can hold properties. -/
def isObjectLike : JsvValue → Bool
  | object _ | array _ | function .. | asyncFunction .. | generatorFn .. | nativeFn _
  | boundNativeFn .. | promise _ | error .. | map _ | set _ | weakMap _ | weakSet _
  | arrayBuffer _ | typedArray _ | dataView _ | proxy _ | «class» _ | generatorObject _
  | iterator _ | getterSetter .. | hostObject _ | hostFunction .. => true
  | _ => false

end JsvValue

/-- A completion that travels through the statement containers. -/
def isAbruptSignal : JsvValue → Bool
  | .returnSignal _ | .throwSignal _ | .breakSignal | .continueSignal | .yieldSignal .. => true
  | _ => false

def isCallable : JsvValue → Bool
  | .function .. | .asyncFunction .. | .generatorFn .. | .nativeFn _ | .boundNativeFn ..
  | .hostFunction .. | .class _ => true
  | _ => false

inductive JsvPromiseState where
  | pending
  | fulfilled (value : JsvValue)
  | rejected (reason : JsvValue)

def JsvPromiseState.isPending : JsvPromiseState → Bool
  | .pending => true
  | _ => false

structure EnvironmentBinding where
  value : JsvValue
  isMutable : Bool

/-- Maps keyed by strings are association lists without duplicate keys. -/
abbrev Properties (α : Type) := List (String × α)

structure EnvironmentRecord where
  parent : Option Nat
  bindings : Properties EnvironmentBinding

structure JsvObject where
  properties : Properties JsvValue
  prototype : Option Nat
  classTags : List Nat
  privateFields : Properties JsvValue

inductive JsvWeakKey where
  | object (ref : Nat)
  | array (ref : Nat)
  | promise (ref : Nat)
  | host (object : Nat)
deriving DecidableEq

structure JsvClass where
  name : String
  id : Nat
  parent : Option JsvValue
  constructor : Option (List ParamBinding × JsvExpr)
  staticMethods : Properties JsvValue
  instanceFields : List (String × Option JsvExpr)
  prototypeObject : Nat
  classEnv : JsvEnvironment

structure GeneratorResume where
  stmts : List JsvExpr
  index : Nat
  env : JsvEnvironment
  conts : List Cont
  result : JsvValue

structure JsvGeneratorState where
  name : String
  params : List ParamBinding
  body : JsvExpr
  captured : JsvEnvironment
  started : Bool
  done : Bool
  resume : Option GeneratorResume
  running : Bool

inductive IteratorKind where
  | array | string | map | set | typedArray | generator | keys | values | entries
deriving DecidableEq

structure JsvIteratorState where
  kind : IteratorKind
  source : JsvValue
  index : Nat
  snapshot : Option JsvValue
  column : Nat
  generator : Option Nat

/-- The bytes of a typed array are read and written by the platform. -/
structure JsvTypedArray where
  kind : String
  buffer : Nat
  byteOffset : Nat
  length : Nat
  bytesPerElement : Nat

structure JsvArrayBuffer where
  bytes : List UInt8
  detached : Bool

structure JsvDataView where
  buffer : Nat
  byteOffset : Nat
  byteLength : Nat

structure ModuleImport where
  specifier : String
  bindings : List (String × String)

/-- A parsed module; the body is the tokenized and parsed rest of its source. -/
structure ParsedModule where
  imports : List ModuleImport
  exports : List String
  body : Except String (List JsvExpr)

structure JsvModuleGraph where
  sources : Properties String
  evaluated : Properties (Properties JsvValue)

/-- Everything an expression may read and write without asking the host, settling
a promise or spending a budget of the claims about the engine. -/
structure Store where
  environments : List EnvironmentRecord
  objects : List JsvObject
  arrays : List (List JsvValue)
  maps : List (List (JsvValue × JsvValue))
  sets : List (List JsvValue)
  weakMaps : List (List (JsvWeakKey × JsvValue))
  weakSets : List (List JsvWeakKey)
  arrayBuffers : List JsvArrayBuffer
  typedArrays : List JsvTypedArray
  dataViews : List JsvDataView
  proxies : List (JsvValue × JsvValue)
  classes : List JsvClass
  generators : List JsvGeneratorState
  iterators : List JsvIteratorState
  /-- Identities handed out to errors, symbols and classes. -/
  nextId : Nat
  console : List String
  stringBytes : Nat
  inGenerator : Nat
  currentGenerator : Option Nat
  proxyDepth : Nat
  modules : JsvModuleGraph
  /-- The graph is vacated while a dynamic import runs. -/
  modulesBusy : Bool
  modulesEvaluated : Nat

inductive PromiseReactionKind where
  | fulfill | reject | finally
deriving DecidableEq

structure PromiseReactionJob where
  kind : PromiseReactionKind
  handler : Option JsvValue
  argument : JsvValue
  result : Nat

structure PendingPromiseReaction where
  onFulfilled : Option JsvValue
  onRejected : Option JsvValue
  onFinally : Option JsvValue
  completionOverride : Option (PromiseReactionKind × JsvValue)
  result : Nat

end GhitaBrowser.Js
