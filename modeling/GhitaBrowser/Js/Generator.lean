import GhitaBrowser.Js.Module

/-!
# Generators

A generator suspends by handing out the frames of the expression it is in. `.next()`
feeds a value into the frames, innermost first, and goes on with the statements of
the body. The frames are resumed by `resumeCont`, which repeats the arms of
`eval_expr` from the middle; it does not count as being inside the generator body.
-/

namespace GhitaBrowser.Js

variable [Platform]

/-! ## The rest of a list after a suspension -/

/-- `eval_call_args_after_callee`: a suspended argument is handed over as the only one. -/
def evalCallArgsAfterCallee (callee : JsvValue) (env : JsvEnvironment) (isNew : Bool) :
    List JsvExpr → List JsvValue → Eval (List JsvValue)
  | [], out => return out
  | arg :: args, out => do
    match ← evalExpr 0 arg.spreadTarget env with
    | .yieldSignal value conts =>
      return [.yieldSignal value (conts ++ [.callArgs callee out args env isNew .undefined])]
    | value => do
      let items ← match arg with
        | .spread _ => iterateValues value
        | _ => pure [value]
      if out.length + items.length > maxArrayElements then fail "Argument budget exceeded"
      else evalCallArgsAfterCallee callee env isNew args (out ++ items)

/-- The arguments and the call, once the callee is known. -/
def resumeCall (args : List JsvExpr) (env : JsvEnvironment) (isNew : Bool)
    (callee thisArg : JsvValue) : Eval JsvValue := do
  let values ← evalCallArgsAfterCallee callee env isNew args []
  invokeCallee isNew callee thisArg env values

def evalArrayElements (env : JsvEnvironment) : List JsvExpr → List JsvValue → Eval JsvValue
  | [], values => arrayValue values
  | expression :: left, values => do
    let value ← evalExpr 0 expression.spreadTarget env
    suspending value (.arrayElem values left env) do
      let items ← match expression with
        | .spread _ => iterateValues value
        | _ => pure [value]
      if values.length + items.length > maxArrayElements then
        fail "Array element budget exceeded"
      else evalArrayElements env left (values ++ items)

def evalObjectElements (env : JsvEnvironment) :
    List ObjectProperty → Properties JsvValue → Eval JsvValue
  | [], properties => objectValue properties
  | .keyValue name expression :: left, properties => do
    let value ← evalExpr 0 expression env
    suspending value (.objectElem (Platform.keyOrder properties) left env) <|
      evalObjectElements env left (properties.insert name value)
  | .spread expression :: left, properties => do
    let value ← evalExpr 0 expression env
    suspending value (.objectElem (Platform.keyOrder properties) left env) do
      let own ← ownProperties value
      evalObjectElements env left (insertAll properties own)
  | entry :: left, properties => evalObjectElements env left (plainEntry env properties entry)

/-- The value of a suspended entry is stored under the entry after it: the frame holds
only what is left. -/
def resumeObjectElem (done : Properties JsvValue) (left : List ObjectProperty)
    (env : JsvEnvironment) (value : JsvValue) : Eval JsvValue :=
  match left with
  | [] => evalObjectElements env [] done
  | .keyValue name _ :: rest => evalObjectElements env rest (insertAll done [(name, value)])
  | .spread _ :: rest => do
    let own ← ownProperties value
    evalObjectElements env rest (insertAll done own)
  | _ :: _ => fail "InvalidStateError: object literal continuation lost its entry"

def assignTarget (value : JsvValue) (env : JsvEnvironment) : AssignTarget → Eval Unit
  | .identifier name => assign env name value
  | .member object property => do
    let object ← evalExpr 0 object env
    let _ ← writeProperty object property value env
  | .index object key => do
    let object ← evalExpr 0 object env
    let key ← evalExpr 1 key env
    let _ ← indexWrite object key value env

/-! ## Frames -/

/-- The `TryResume` frame. Only an abrupt completion of a resumed `finally` overrides
the outcome. -/
def resumeTry (tryBody : List JsvExpr) (catchBinding : Option String)
    (catchBody finallyBody : List JsvExpr) (env : JsvEnvironment) (stage : Nat)
    (value : JsvValue) : Eval JsvValue := do
  let resume (outcome : JsvValue) (stage : Nat) : Cont :=
    .tryResume tryBody catchBinding catchBody finallyBody env outcome stage
  let finishing (outcome : JsvValue) : Eval JsvValue :=
    if finallyBody.isEmpty then return outcome
    else do
      let finallyEnv ← withParent env
      let final ← guardedList 0 finallyBody finallyEnv
      suspending final (resume outcome 2) do
        return if stage = 2 && isAbruptSignal final then final else outcome
  match stage, value, catchBinding with
  | 0, .throwSignal _, some _ => do
    let caught ← runCatch 0 catchBinding catchBody env value
    suspending caught (resume .undefined 1) <| finishing caught
  | _, _, _ => finishing value

def resumeCont (cont : Cont) (value : JsvValue) (env : JsvEnvironment) : Eval JsvValue :=
  match cont with
  | .binaryRight _ op right env => do
    let rightValue ← evalExpr 1 right env
    suspending rightValue (.binaryApply value op) <| applyBinaryOp value rightValue op env
  | .binaryApply left op => applyBinaryOp left value op env
  | .unaryApply op => applyUnaryOp op value
  | .callCallee args env isNew => resumeCall args env isNew value .undefined
  | .callMemberBase property args env isNew => do
    let func ← readProperty value property env false
    resumeCall args env isNew func value
  | .callIndexBase keyExpr args env isNew => do
    let key ← evalExpr 1 keyExpr env
    suspending key (.callIndexKey value args env isNew) do
      let func ← indexRead value key env false
      resumeCall args env isNew func value
  | .callIndexKey object args env isNew => do
    let func ← indexRead object value env false
    resumeCall args env isNew func object
  | .callPrivateBase name args env => do
    let func ← privateRead value name env
    resumeCall args env false func value
  | .callArgs callee done left env isNew thisArg => do
    let rest ← evalCallArgsAfterCallee callee env isNew left []
    invokeCallee isNew callee thisArg env (done ++ [value] ++ rest)
  | .memberApply property isOptional => readProperty value property env isOptional
  | .indexBase keyExpr isOptional env => do
    let key ← evalExpr 1 keyExpr env
    suspending key (.indexKey value .undefined isOptional env) <|
      indexRead value key env isOptional
  | .indexKey object keyExpr isOptional env =>
    match keyExpr with
    | .undefined => indexRead object value env isOptional
    | keyExpr => do
      let key ← evalExpr 1 keyExpr env
      suspending key (.indexApply object .undefined isOptional) <|
        indexRead object key env isOptional
  | .indexApply object key isOptional => indexRead object key env isOptional
  | .memberAssignBase property rhs env => do
    let rhs ← evalExpr 1 rhs env
    suspending rhs (.memberAssignApply value property) <| writeProperty value property rhs env
  | .memberAssignApply object property => writeProperty object property value env
  | .indexAssignBase keyExpr rhs env => do
    let key ← evalExpr 1 keyExpr env
    suspending key (.indexAssignKey value rhs env) do
      let rhs ← evalExpr 2 rhs env
      suspending rhs (.indexAssignValue value key) <| indexWrite value key rhs env
  | .indexAssignKey object rhs env => do
    let rhs ← evalExpr 2 rhs env
    suspending rhs (.indexAssignValue object value) <| indexWrite object value rhs env
  | .indexAssignValue object key => indexWrite object key value env
  | .indexAssignApply object key => indexWrite object key value env
  | .arrayElem done left env => evalArrayElements env left (done ++ [value])
  | .objectElem done left env => resumeObjectElem done left env value
  | .templatePart output left env => do
    let text ← display value
    evalTemplate env 0 left (output ++ text)
  | .ternaryCond thenExpr elseExpr env =>
    if value.isTruthy then evalExpr 1 thenExpr env else evalExpr 2 elseExpr env
  | .assignApply target env => do
    assignTarget value env target
    return value
  | .varDeclApply name kind env => do
    declare env name value (kind != .constKind) (kind == .varKind)
    return value
  | .bindPatternApply pattern kind env => do
    bindPattern pattern value env kind
    return value
  | .returnApply => return .returnSignal value
  | .throwApply => return .throwSignal value
  | .ifCond thenBranch elseBranch env => selectBranch value thenBranch elseBranch env
  | .whileCond cond body env result iterations =>
    whileLoopStep cond body env (maxLoopIterations - iterations) result value
  | .whileBody cond body env result iterations =>
    if iterations + 1 > maxLoopIterations then fail infiniteLoop
    else do
      let condValue ← evalExpr 0 cond env
      suspending condValue (.whileCond cond body env result (iterations + 1)) <|
        whileLoopStep cond body env (maxLoopIterations - (iterations + 1)) result condValue
  | .doWhileBody cond body env result iterations =>
    afterBody value result fun result => do
      let condition ← evalExpr 0 cond env
      suspending condition (.doWhileCond cond body env result iterations) <|
        resumeDoWhile cond body env result iterations condition
  | .doWhileCond cond body env result iterations =>
    resumeDoWhile cond body env result iterations value
  | .forInRest binding kind body env result keys =>
    afterBody value result (forInLoopStep binding kind body env keys)
  | .forOfIterable pattern kind body env result => do
    let values ← iterateValues value
    forOfLoop pattern kind body env values result
  | .forOfRest pattern kind body env result values =>
    afterBody value result (forOfLoop pattern kind body env values)
  | .statements stmts env result => evalStatements 0 stmts env result
  | .tryResume tryBody catchBinding catchBody finallyBody env _ stage =>
    resumeTry tryBody catchBinding catchBody finallyBody env stage value
  | .yieldStarLoop iterator generator => yieldStarLoop iterator generator value
where
  /-- A `do ... while` with the value of its condition. -/
  resumeDoWhile (cond : JsvExpr) (body : List JsvExpr) (env : JsvEnvironment)
      (result : JsvValue) (iterations : Nat) (condition : JsvValue) : Eval JsvValue :=
    if !condition.isTruthy then return result
    else if iterations + 1 > maxLoopIterations then fail infiniteLoop
    else doWhileLoopStep cond body env (maxLoopIterations - (iterations + 1)) result

/-! ## next -/

def Store.modifyGenerator (generator : Nat) (f : JsvGeneratorState → JsvGeneratorState)
    (store : Store) : Store :=
  { store with generators := store.generators.modify generator f }

def Store.finishGenerator (generator : Nat) (store : Store) : Store :=
  store.modifyGenerator generator fun state => { state with done := true, resume := none }

def Store.enterGeneratorBody (generator : Nat) (store : Store) : Store :=
  { store with inGenerator := store.inGenerator + 1, currentGenerator := some generator }

def Store.leaveGeneratorBody (store : Store) : Store :=
  { store with inGenerator := store.inGenerator - 1, currentGenerator := none }

/-- `run_generator_statements` over the statements that are left. -/
def runGeneratorStatements (generator : Nat) (stmts : List JsvExpr) (env : JsvEnvironment) :
    Nat → List JsvExpr → JsvValue → Eval (Bool × JsvValue)
  | _, [], result => do
    modifyStore fun store => (store.finishGenerator generator).leaveGeneratorBody
    return (true, result)
  | index, stmt :: rest, result => do
    match ← Program.inside (.generatorStatement generator) (evalExpr index stmt env) with
    | .yieldSignal value conts => do
      modifyStore fun store =>
        (store.modifyGenerator generator fun state =>
          { state with resume := some ⟨stmts, index + 1, env, conts, result⟩ }).leaveGeneratorBody
      return (false, value)
    | .returnSignal value => do
      modifyStore fun store => (store.finishGenerator generator).leaveGeneratorBody
      return (true, value)
    | .breakSignal => do
      modifyStore Store.leaveGeneratorBody
      fail "SyntaxError: illegal break statement in generator"
    | .continueSignal => do
      modifyStore Store.leaveGeneratorBody
      fail "SyntaxError: illegal continue statement in generator"
    | .throwSignal reason => do
      modifyStore fun store => (store.finishGenerator generator).leaveGeneratorBody
      fail ("Uncaught exception in generator: " ++ (← display reason))
    | value => runGeneratorStatements generator stmts env (index + 1) rest value

/-- Feed `value` into the frames, innermost first, then go on with the statements. Each
frame is popped before it is resumed. -/
def resumeFrames (generator : Nat) (resume : GeneratorResume) :
    List Cont → JsvValue → Eval (Bool × JsvValue)
  | [], value => do
    modifyStore fun store => store.modifyGenerator generator fun state =>
      { state with resume := none }
    modifyStore (Store.enterGeneratorBody generator)
    runGeneratorStatements generator resume.stmts resume.env resume.index
      (resume.stmts.drop resume.index) value
  | cont :: conts, value => do
    modifyStore fun store => store.modifyGenerator generator fun state =>
      { state with resume := some { resume with conts := conts.reverse } }
    match ← resumeCont cont value resume.env with
    | .yieldSignal value more => do
      modifyStore fun store => store.modifyGenerator generator fun state =>
        { state with resume := some { resume with conts := conts.reverse ++ more } }
      return (false, value)
    | completed => resumeFrames generator resume conts completed

/-- The state a generator starts from: its body is one statement, in a scope that knows
the name of the function. -/
def startGenerator (generator : Nat) (state : JsvGeneratorState) : Eval GeneratorResume := do
  let env ← withParent state.captured
  if state.name != "" then
    define env state.name (.generatorFn state.name state.params state.body state.captured)
  let resume : GeneratorResume := ⟨[state.body], 0, env, [], .undefined⟩
  modifyStore fun store => store.modifyGenerator generator fun state =>
    { state with started := true, resume := some resume }
  return resume

/-- `generator_next`: `(done, value)`. -/
def generatorNextBody (generator : Nat) (argument : JsvValue) : Eval (Bool × JsvValue) := do
  match ← readStore fun store => store.generators[generator]? with
  | none => fail "InvalidStateError: generator has no resume state"
  | some state =>
    if state.done then return (true, .undefined)
    else if state.running then
      fail "TypeError: generator is already running (reentrant .next)"
    else
      Program.inside (.resumed generator) do
        modifyStore fun store => store.modifyGenerator generator fun state =>
          { state with running := true }
        let resume ← if state.started then pure state.resume else some <$> startGenerator generator state
        match resume with
        | none => do
          modifyStore (Store.finishGenerator generator)
          return (true, .undefined)
        | some resume => resumeFrames generator resume resume.conts.reverse argument

end GhitaBrowser.Js
