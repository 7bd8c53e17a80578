import GhitaBrowser.Js.Class

/-!
# Expressions

`eval_expr`, one arm for each node. The arm evaluates the subexpression at position `n`, in
source order, with `evalExpr n`.
-/

namespace GhitaBrowser.Js

variable [Platform]

/-- An argument or element as it is evaluated: a spread evaluates what it spreads. -/
def JsvExpr.spreadTarget : JsvExpr → JsvExpr
  | .spread inner => inner
  | expr => expr

/-! ## Literals -/

/-- A getter or setter of an object literal, beside the accessor already there. -/
def accessorEntry (properties : Properties JsvValue) (name : String) (func : JsvValue)
    (isGetter : Bool) : Properties JsvValue :=
  match properties.get name, isGetter with
  | some (.getterSetter _ setter), true => properties.insert name (.getterSetter func setter)
  | some (.getterSetter getter _), false => properties.insert name (.getterSetter getter func)
  | _, true => properties.insert name (.getterSetter func .undefined)
  | _, false => properties.insert name (.getterSetter .undefined func)

/-- The entries of an object literal that evaluate nothing. -/
def plainEntry (env : JsvEnvironment) (properties : Properties JsvValue) :
    ObjectProperty → Properties JsvValue
  | .method name params body isAsync isGenerator =>
    properties.insert name (methodValue name params body isAsync isGenerator env)
  | .getter name body =>
    accessorEntry properties name (.function ("get " ++ name) [] body env) true
  | .setter name param body =>
    accessorEntry properties name (.function ("set " ++ name) [param] body env) false
  | _ => properties

def insertAll (properties : Properties JsvValue) (entries : List (String × JsvValue)) :
    Properties JsvValue :=
  entries.foldl (fun properties entry => properties.insert entry.1 entry.2) properties

def evalObjectLiteral (env : JsvEnvironment) :
    Nat → List ObjectProperty → Properties JsvValue → Eval JsvValue
  | _, [], properties => objectValue properties
  | position, .keyValue name expression :: entries, properties => do
    let value ← evalExpr position expression env
    evalObjectLiteral env (position + 1) entries (properties.insert name value)
  | position, .spread expression :: entries, properties => do
    let value ← evalExpr position expression env
    let own ← ownProperties value
    evalObjectLiteral env (position + 1) entries (insertAll properties own)
  | position, entry :: entries, properties =>
    evalObjectLiteral env position entries (plainEntry env properties entry)

def evalArrayLiteral (env : JsvEnvironment) :
    Nat → List JsvExpr → List JsvValue → Eval JsvValue
  | _, [], values => arrayValue values
  | position, expression :: entries, values => do
    let value ← evalExpr position expression.spreadTarget env
    let items ← match expression with
      | .spread _ => iterateValues value
      | _ => pure [value]
    if values.length + items.length > maxArrayElements then fail "Array element budget exceeded"
    else evalArrayLiteral env (position + 1) entries (values ++ items)

/-- The loop of a template literal. -/
def evalTemplate (env : JsvEnvironment) : Nat → List TemplatePart → String → Eval JsvValue
  | _, [], output => return .string output
  | position, .text text :: parts, output => do
    checkStringAlloc (output ++ text).utf8ByteSize
    evalTemplate env position parts (output ++ text)
  | position, .expr expression :: parts, output => do
    let value ← evalExpr position expression env
    suspending value (.templatePart output parts env) do
      let text ← display value
      checkStringAlloc (output ++ text).utf8ByteSize
      evalTemplate env (position + 1) parts (output ++ text)

/-! ## Calls -/

/-- The loop over the arguments of a call, from `position`; `next` is handed the values.
A suspended argument keeps the callee and the values before it. -/
def evalArguments (env : JsvEnvironment)
    (suspended : List JsvValue → List JsvExpr → Cont) (next : List JsvValue → Eval JsvValue) :
    Nat → List JsvExpr → List JsvValue → Eval JsvValue
  | _, [], values => next values
  | position, arg :: args, values => do
    let value ← evalExpr position arg.spreadTarget env
    suspending value (suspended values args) do
      let items ← match arg with
        | .spread _ => iterateValues value
        | _ => pure [value]
      if values.length + items.length > maxArrayElements then fail "Argument budget exceeded"
      else evalArguments env suspended next (position + 1) args (values ++ items)

/-- The call itself, once callee and arguments are values. -/
def invokeCallee (isNew : Bool) (callee thisArg : JsvValue) (env : JsvEnvironment)
    (args : List JsvValue) : Eval JsvValue :=
  if isNew then invokeNew callee args env
  else do
    let called ← callFunction callee args env thisArg
    callResultValue called

/-- The arguments and the call, for a callee whose children end before `position`. -/
def evalCallWith (position : Nat) (args : List JsvExpr) (env : JsvEnvironment) (isNew : Bool)
    (callee thisArg : JsvValue) : Eval JsvValue :=
  evalArguments env (fun done left => .callArgs callee done left env isNew thisArg)
    (invokeCallee isNew callee thisArg env) position args []

/-- The method a `super` reference finds. -/
def superMethod (name : String) (env : JsvEnvironment) (missing : String) : Eval JsvValue :=
  tryStore fun store =>
    match store.get env "#superProto" with
    | some (.object proto) =>
      match store.objectProperty proto name with
      | some method => (.ok method, store)
      | none => (.error ("TypeError: super." ++ name ++ " is not a function"), store)
    | _ => (.error missing, store)

def thisValue (env : JsvEnvironment) : Eval JsvValue :=
  readStore fun store => (store.get env "this").getD .undefined

def evalCall (callee : JsvExpr) (args : List JsvExpr) (env : JsvEnvironment) (isNew : Bool) :
    Eval JsvValue :=
  match callee with
  | .member base property => do
    let base ← evalExpr 0 base env
    suspending base (.callMemberBase property args env isNew) do
      let func ← readProperty base property env false
      evalCallWith 1 args env isNew func base
  | .index base key => do
    let base ← evalExpr 0 base env
    suspending base (.callIndexBase key args env isNew) do
      let key ← evalExpr 1 key env
      suspending key (.callIndexKey base args env isNew) do
        let func ← indexRead base key env false
        evalCallWith 2 args env isNew func base
  | .privateGet base name => do
    let base ← evalExpr 0 base env
    suspending base (.callPrivateBase name args env) do
      let func ← privateRead base name env
      evalCallWith 1 args env isNew func base
  | .superMember name => do
    let thisArg ← thisValue env
    let func ← superMethod name env "TypeError: super.method() has no superclass"
    evalCallWith 0 args env isNew func thisArg
  | callee => do
    let value ← evalExpr 0 callee env
    suspending value (.callCallee args env isNew) <|
      evalCallWith 1 args env isNew value .undefined

/-- Arguments of a `super` call: no spread, and a suspension is an argument like any other. -/
def evalSuperArguments (env : JsvEnvironment) (next : List JsvValue → Eval JsvValue) :
    Nat → List JsvExpr → List JsvValue → Eval JsvValue
  | _, [], values => next values
  | position, arg :: args, values => do
    let value ← evalExpr position arg env
    evalSuperArguments env next (position + 1) args (values ++ [value])

/-! ## Arms with a body of their own -/

/-- `eval_expr` on `BinaryOp`; `??` is not on the short-circuit list. -/
def evalBinaryOp (left : JsvExpr) (op : OpKind) (right : JsvExpr) (env : JsvEnvironment) :
    Eval JsvValue := do
  let leftValue ← evalExpr 0 left env
  suspending leftValue (.binaryRight .undefined op right env) <|
    if op = .and && !leftValue.isTruthy then return leftValue
    else if op = .or && leftValue.isTruthy then return leftValue
    else do
      let rightValue ← evalExpr 1 right env
      suspending rightValue (.binaryApply leftValue op) <|
        applyBinaryOp leftValue rightValue op env

/-- `typeof` of an unbound identifier does not evaluate it. -/
def evalUnaryOp (op : OpKind) (inner : JsvExpr) (env : JsvEnvironment) : Eval JsvValue := do
  let unbound ← match op, inner with
    | .typeof, .identifier name => readStore fun store => (store.get env name).isNone
    | _, _ => pure false
  if unbound then return .string "undefined"
  else do
    let value ← evalExpr 0 inner env
    suspending value (.unaryApply op) <| applyUnaryOp op value

/-- The branch an `if` selects; the `else` branch starts after the `then` branch. -/
def selectBranch (condValue : JsvValue) (thenBranch : List JsvExpr)
    (elseBranch : Option (List JsvExpr)) (env : JsvEnvironment) : Eval JsvValue :=
  if condValue.isTruthy then evalStatementList 1 thenBranch env
  else match elseBranch with
    | some elseStmts => evalStatementList (1 + thenBranch.length) elseStmts env
    | none => return .undefined

def indexWith (object keyExpr : JsvExpr) (env : JsvEnvironment) (isOptional : Bool) :
    Eval JsvValue := do
  let object ← evalExpr 0 object env
  if isOptional && object.isNullish then return .undefined
  else suspending object (.indexBase keyExpr isOptional env) do
    let key ← evalExpr 1 keyExpr env
    suspending key (.indexKey object .undefined isOptional env) <|
      indexRead object key env isOptional

def memberWith (object : JsvExpr) (property : String) (env : JsvEnvironment)
    (isOptional : Bool) : Eval JsvValue := do
  let object ← evalExpr 0 object env
  if isOptional && object.isNullish then return .undefined
  else suspending object (.memberApply property isOptional) <|
    readProperty object property env isOptional

/-- An update target with its container evaluated. -/
inductive UpdateTarget where
  | identifier (name : String)
  | member (object : JsvValue) (property : String)
  | index (object key : JsvValue)

def updatePlan (env : JsvEnvironment) : JsvExpr → Eval UpdateTarget
  | .identifier name => return .identifier name
  | .member object property => do
    let object ← evalExpr 0 object env
    return .member object property
  | .index object key => do
    let object ← evalExpr 0 object env
    let key ← evalExpr 1 key env
    return .index object key
  | _ => fail "TypeError: invalid update target"

def readTarget (env : JsvEnvironment) : UpdateTarget → Eval JsvValue
  | .identifier name => evalExpr 0 (.identifier name) env
  | .member object property => readProperty object property env false
  | .index object key => indexRead object key env false

def writeTarget (env : JsvEnvironment) (value : JsvValue) : UpdateTarget → Eval Unit
  | .identifier name => assign env name value
  | .member object property => do
    let _ ← writeProperty object property value env
  | .index object key => do
    let _ ← indexWrite object key value env

/-- `eval_expr` on `Update`: the container expressions are evaluated once. -/
def evalUpdate (target : JsvExpr) (isPrefix increment : Bool) (env : JsvEnvironment) :
    Eval JsvValue := do
  let plan ← updatePlan env target
  let current ← readTarget env plan
  refusingYield current "SyntaxError: yield in update target is not supported" <|
    let value := toNumber current
    if !value.isFinite then fail "TypeError: increment/decrement requires a number"
    else do
      let next := JsvValue.number (if increment then value + 1.0 else value - 1.0)
      writeTarget env next plan
      return if isPrefix then next else current

/-- The keys `for ... in` visits. -/
def forInKeys (value : JsvValue) : Eval (List String) :=
  readStore fun store =>
    match value with
    | .object ref =>
      (Platform.keyOrder (store.propertiesAt ref)).keys.filter fun key => !isSymbolPropertyKey key
    | .array ref => (List.range (store.arrayAt ref).length).map toString
    | _ => []

def evalIdentifier (name : String) (env : JsvEnvironment) : Eval JsvValue :=
  if name == "this" then thisValue env
  else tryStore fun store =>
    match store.get env name with
    | some value => (.ok value, store)
    | none =>
      if isSandboxedFunction name then
        (.error ("SecurityError: '" ++ name ++
          "' is not available in sandboxed JavaScript environment"), store)
      else (.error ("ReferenceError: " ++ name ++ " is not defined"), store)

def yieldStarLoop (iterator generator : Nat) (received : JsvValue) : Eval JsvValue := do
  let (done, value) ← iteratorNext iterator received
  if done then return value
  else return .yieldSignal value [.yieldStarLoop iterator generator]

def evalYieldStar (iterable : JsvExpr) (env : JsvEnvironment) : Eval JsvValue := do
  let inGenerator ← readStore Store.inGenerator
  if inGenerator = 0 then fail "SyntaxError: yield* is only valid inside a generator"
  else do
    let value ← evalExpr 0 iterable env
    refusingYield value "SyntaxError: yield* argument cannot suspend" do
      let iterator ← iteratorFrom value
      match ← readStore Store.currentGenerator with
      | some generator => yieldStarLoop iterator generator .undefined
      | none => fail "InvalidStateError: yield* outside a generator body"

def evalYield (value : JsvExpr) (env : JsvEnvironment) : Eval JsvValue := do
  let inGenerator ← readStore Store.inGenerator
  if inGenerator = 0 then fail "SyntaxError: yield is only valid inside a generator function"
  else do
    match ← evalExpr 0 value env with
    | .yieldSignal value conts => return .yieldSignal value conts
    | value => return .yieldSignal value []

/-- `await` looks at the promise as it is now. -/
def evalAwait (value : JsvExpr) (env : JsvEnvironment) : Eval JsvValue := do
  match ← evalExpr 0 value env with
  | .promise ref => do
    match ← Program.op (.promiseState ref) with
    | .fulfilled value => return value
    | .rejected reason => return .throwSignal reason
    | .pending => fail "InvalidStateError: awaited Promise is still pending"
  | other => return other

def evalSuperMember (name : String) (env : JsvEnvironment) : Eval JsvValue := do
  let thisArg ← thisValue env
  let found ← readStore fun store =>
    match store.get env "#superProto" with
    | some (.object proto) => (store.objectProperty proto name).getD .undefined
    | _ => .undefined
  match found with
  | .getterSetter getter setter =>
    if isCallable getter then do
      let called ← callFunction getter [] env thisArg
      callResultValue called
    else return .getterSetter getter setter
  | found => return found

def evalSuperCall (args : List JsvExpr) (env : JsvEnvironment) : Eval JsvValue := do
  let thisArg ← thisValue env
  match ← lookup env "#parentClass" with
  | none => fail "ReferenceError: super is not available in this context"
  | some (.class parent) =>
    evalSuperArguments env (fun values => constructClassWithThis parent values thisArg env) 0 args []
  | some _ => fail "TypeError: super must be called on a class constructor"

def evalSuperMemberCall (name : String) (args : List JsvExpr) (env : JsvEnvironment) :
    Eval JsvValue := do
  let thisArg ← thisValue env
  let method ← superMethod name env "TypeError: super.method() has no superclass"
  evalSuperArguments env (fun values => do
    let called ← callFunction method values env thisArg
    callResultValue called) 0 args []

/-- A function declaration binds its name, unless the name is a blocked one. -/
def evalFunctionDef (name : String) (params : List ParamBinding) (body : JsvExpr)
    (env : JsvEnvironment) : Eval JsvValue :=
  if isSandboxedFunction name then
    fail ("SecurityError: Function '" ++ name ++ "' is not allowed in sandboxed environment")
  else do
    define env name (.function name params body env)
    return .function name params body env

end GhitaBrowser.Js
