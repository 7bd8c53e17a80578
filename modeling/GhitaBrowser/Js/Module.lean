import GhitaBrowser.Js.Expression

/-!
# Dynamic import

`import('specifier')` evaluates a module in a scope under the importing one and
answers with a promise of its exports. The graph is vacated meanwhile, so an import
inside it is refused.
-/

namespace GhitaBrowser.Js

variable [Platform]

/-- `evaluate_in_env_inner` gives up below this depth. -/
def maxModuleDepth : Nat := 64

abbrev ModuleNamespace := Properties JsvValue

/-- Define the imported names in the module scope. -/
def defineImports (specifier : String) (exported : ModuleNamespace) (env : JsvEnvironment) :
    List (String × String) → Eval Unit
  | [] => pure ()
  | (name, localName) :: bindings => do
    match exported.get name with
    | none => fail ("Module '" ++ specifier ++ "' does not export '" ++ name ++ "'")
    | some value => do
      define env localName value
      defineImports specifier exported env bindings

/-- Evaluate the imports in order with `load`. -/
def evaluateImports (load : String → Eval ModuleNamespace) (env : JsvEnvironment) :
    List ModuleImport → Eval Unit
  | [] => pure ()
  | entry :: imports => do
    let exported ← load entry.specifier
    defineImports entry.specifier exported env entry.bindings
    evaluateImports load env imports

/-- The statements of a module or a script, up to the first abrupt one. -/
def evalProgram (env : JsvEnvironment) : Nat → List JsvExpr → JsvValue → Eval JsvValue
  | _, [], result => return result
  | position, expression :: rest, _ => do
    let value ← evalExpr position expression env
    if isAbruptSignal value then return value
    else evalProgram env (position + 1) rest value

/-- Read the exports back from the module scope. -/
def collectExports (specifier : String) (env : JsvEnvironment) :
    List String → ModuleNamespace → Eval ModuleNamespace
  | [], exported => return exported
  | name :: names, exported => do
    match ← lookup env name with
    | none => fail ("Module '" ++ specifier ++ "' did not initialize export '" ++ name ++ "'")
    | some value => collectExports specifier env names (exported.insert name value)

/-- `evaluate_in_env_inner`, with `remaining` levels before the depth limit. -/
def evaluateInEnvInner (env : JsvEnvironment) :
    Nat → List String → String → Eval ModuleNamespace
  | remaining, stack, specifier => do
    match ← readStore fun store => store.modules.evaluated.get specifier with
    | some exported => return exported
    | none =>
      match remaining with
      | 0 => fail "Module dependency depth exceeded"
      | remaining + 1 =>
        if stack.contains specifier then fail ("Circular module dependency: " ++ specifier)
        else do
          match ← readStore fun store => store.modules.sources.get specifier with
          | none => fail ("Module not found: " ++ specifier)
          | some source => do
            let parsed ← Program.ofExcept (Platform.parseModule source)
            let moduleEnv ← withParent env
            evaluateImports (evaluateInEnvInner env remaining (specifier :: stack)) moduleEnv
              parsed.imports
            let statements ← Program.ofExcept parsed.body
            let _ ← evalProgram moduleEnv 0 statements .undefined
            drainPromiseJobs moduleEnv
            let exported ← collectExports specifier moduleEnv parsed.exports []
            modifyStore fun store =>
              { store with modules :=
                  { store.modules with
                    evaluated := store.modules.evaluated.insert specifier exported } }
            return exported

def importModule (specifier : String) (env : JsvEnvironment) : Eval JsvValue := do
  let exported ← evaluateInEnvInner env (maxModuleDepth + 1) [] specifier
  modifyStore fun store => { store with modulesEvaluated := store.modulesEvaluated + 1 }
  let value ← objectValue exported
  promiseValue (.fulfilled value)

/-- `eval_expr` on `DynamicImport`: an error becomes a rejected promise. -/
def evalDynamicImport (specifier : String) (env : JsvEnvironment) : Eval JsvValue := do
  let busy ← readStore Store.modulesBusy
  if busy then fail "Module graph is busy during dynamic import"
  else do
    modifyStore fun store => { store with modulesBusy := true }
    let result ← Program.caught .dynamicImport (importModule specifier env)
    modifyStore fun store => { store with modulesBusy := false }
    match result with
    | .ok promise => return promise
    | .error error => promiseValue (.rejected (.string error))

/-- `eval_expr` after its step. -/
def evalExprBody (expr : JsvExpr) (env : JsvEnvironment) : Eval JsvValue :=
  match expr with
  | .number n => return .number n
  | .string s => do
    checkStringAlloc s.utf8ByteSize
    return .string s
  | .bool b => return .boolean b
  | .null => return .null
  | .undefined => return .undefined
  | .objectLiteral entries => evalObjectLiteral env 0 entries []
  | .arrayLiteral entries => evalArrayLiteral env 0 entries []
  | .identifier name => evalIdentifier name env
  | .thisExpr => thisValue env
  | .assignment name rhs => do
    let value ← evalExpr 0 rhs env
    suspending value (.assignApply (.identifier name) env) do
      assign env name value
      return value
  | .variableDeclaration name initializer kind => do
    let value ← evalExpr 0 initializer env
    suspending value (.varDeclApply name kind env) do
      declare env name value (kind != .constKind) (kind == .varKind)
      return value
  | .destructureDeclaration pattern initializer kind => do
    let value ← evalExpr 0 initializer env
    suspending value (.bindPatternApply pattern kind env) do
      bindPattern pattern value env kind
      return value
  | .destructureAssignment pattern initializer => do
    let value ← evalExpr 0 initializer env
    suspending value (.bindPatternApply pattern .letKind env) do
      bindPattern pattern value env .letKind
      return value
  | .member object property => memberWith object property env false
  | .memberAssignment object property rhs => do
    let object ← evalExpr 0 object env
    suspending object (.memberAssignBase property rhs env) do
      let value ← evalExpr 1 rhs env
      suspending value (.memberAssignApply object property) <|
        writeProperty object property value env
  | .index object key => indexWith object key env false
  | .indexAssignment object key rhs => do
    let object ← evalExpr 0 object env
    suspending object (.indexAssignBase key rhs env) do
      let key ← evalExpr 1 key env
      suspending key (.indexAssignKey object rhs env) do
        let value ← evalExpr 2 rhs env
        suspending value (.indexAssignValue object key) <| indexWrite object key value env
  | .binaryOp left op right => evalBinaryOp left op right env
  | .unaryOp op inner => evalUnaryOp op inner env
  | .ifElse cond thenBranch elseBranch => do
    -- The condition is evaluated one call level deeper.
    let condValue ← Program.inside .ifCondition (evalExpr 0 cond env)
    suspending condValue (.ifCond thenBranch elseBranch env) <|
      selectBranch condValue thenBranch elseBranch env
  | .whileLoop cond body => do
    let condValue ← Program.inside .whileCondition (evalExpr 0 cond env)
    suspending condValue (.whileCond cond body env .undefined 0) <|
      whileLoopStep cond body env maxLoopIterations .undefined condValue
  | .forOf pattern kind iterable body => do
    let iterable ← evalExpr 0 iterable env
    suspending iterable (.forOfIterable pattern kind body env .undefined) do
      let values ← iterateValues iterable
      forOfLoop pattern kind body env values .undefined
  | .switchStmt discriminant cases defaultClause => do
    let disc ← evalExpr 0 discriminant env
    refusingYield disc "SyntaxError: yield in switch discriminant is not supported" <|
      switchCases disc env defaultClause 1 cases false .undefined
  | .ternary cond thenExpr elseExpr => do
    let condition ← evalExpr 0 cond env
    suspending condition (.ternaryCond thenExpr elseExpr env) <|
      if condition.isTruthy then evalExpr 1 thenExpr env else evalExpr 2 elseExpr env
  | .template parts => evalTemplate env 0 parts ""
  | .optionalMember object property => memberWith object property env true
  | .optionalIndex object key => indexWith object key env true
  | .update target isPrefix increment => evalUpdate target isPrefix increment env
  | .block stmts => evalStatementList 0 stmts env
  | .tryCatchFinally tryBody catchBinding catchBody finallyBody =>
    evalTryCatchFinally tryBody catchBinding catchBody finallyBody env
  | .functionDef name params body => evalFunctionDef name params body env
  | .asyncFunctionDef name params body => do
    define env name (.asyncFunction name params body env)
    return .asyncFunction name params body env
  | .generatorDef name params body => do
    define env name (.generatorFn name params body env)
    return .generatorFn name params body env
  | .functionExpr params body isAsync =>
    return if isAsync then .asyncFunction "" params body env else .function "" params body env
  | .generatorExpr params body => return .generatorFn "" params body env
  | .yieldExpr value => evalYield value env
  | .yieldStar iterable => evalYieldStar iterable env
  | .call callee args => evalCall callee args env false
  | .newExpr callee args => evalCall callee args env true
  | .superCall args => evalSuperCall args env
  | .superMember name => evalSuperMember name env
  | .superMemberCall name args => evalSuperMemberCall name args env
  | .privateGet target name => do
    let target ← evalExpr 0 target env
    refusingYield target "SyntaxError: yield in private member access is not supported" <|
      privateRead target name env
  | .privateSet target name rhs => do
    let target ← evalExpr 0 target env
    let value ← evalExpr 1 rhs env
    privateWrite target name value env
    return value
  | .classDef name parent members => evalClassDef name parent members env
  | .dynamicImport specifier => evalDynamicImport specifier env
  | .spread _ => fail "SyntaxError: spread element outside array literal or call"
  | .returnStmt value => do
    let value ← evalExpr 0 value env
    suspending value .returnApply <| return .returnSignal value
  | .throwStmt value => do
    let value ← evalExpr 0 value env
    suspending value .throwApply <| return .throwSignal value
  | .awaitExpr value => evalAwait value env
  | .breakStmt _ => return .breakSignal
  | .continueStmt _ => return .continueSignal
  | .doWhile cond body => doWhileLoopStep cond body env maxLoopIterations .undefined
  | .forIn binding kind object body => do
    let value ← evalExpr 0 object env
    let keys ← forInKeys value
    forInLoopStep binding kind body env keys .undefined
  | .asyncGeneratorDef name params body => do
    if name != "" then define env name (.generatorFn name params body env)
    return .generatorFn name params body env
  | .asyncGeneratorExpr params body => return .generatorFn "" params body env

end GhitaBrowser.Js
