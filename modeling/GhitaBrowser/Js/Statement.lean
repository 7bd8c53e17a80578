import GhitaBrowser.Js.Iterate

/-!
# Statement lists, loops and `try`

Abrupt completions are values here: each container looks at the value of a
statement and passes the signals on. A loop that may go round 10,000 times is a
recursion on the rounds it has left.
-/

namespace GhitaBrowser.Js

variable [Platform]

def maxLoopIterations : Nat := 10000

def infiniteLoop : String := "Infinite loop detected (exceeded 10,000 iterations)"

/-- The statements of a list in its own environment, the first at `position`. -/
def evalStatements : Nat → List JsvExpr → JsvEnvironment → JsvValue → Eval JsvValue
  | _, [], _, result => return result
  | position, stmt :: rest, env, result => do
    let value ← evalExpr position stmt env
    suspending value (.statements rest env result) <|
      if isAbruptSignal value then return value
      else evalStatements (position + 1) rest env value

/-- `eval_statement_list`: a fresh child environment for the list. -/
def evalStatementList (position : Nat) (stmts : List JsvExpr) (env : JsvEnvironment) :
    Eval JsvValue := do
  let listEnv ← withParent env
  evalStatements position stmts listEnv .undefined

/-- An error inside `try`, `catch` or `finally` becomes a thrown string. -/
def guardedList (position : Nat) (stmts : List JsvExpr) (env : JsvEnvironment) :
    Eval JsvValue := do
  match ← Program.caught .tryList (evalStatementList position stmts env) with
  | .ok value => return value
  | .error error => return .throwSignal (.string error)

/-! ## try -/

/-- The catch clause, when there is one and the outcome is a throw. -/
def runCatch (position : Nat) (catchBinding : Option String) (catchBody : List JsvExpr)
    (env : JsvEnvironment) (outcome : JsvValue) : Eval JsvValue := do
  match outcome, catchBinding with
  | .throwSignal reason, some binding => do
    let catchEnv ← withParent env
    define catchEnv binding reason
    guardedList position catchBody catchEnv
  | outcome, _ => return outcome

def evalTryCatchFinally (tryBody : List JsvExpr) (catchBinding : Option String)
    (catchBody finallyBody : List JsvExpr) (env : JsvEnvironment) : Eval JsvValue := do
  let resume (outcome : JsvValue) (stage : Nat) : Cont :=
    .tryResume tryBody catchBinding catchBody finallyBody env outcome stage
  let tryEnv ← withParent env
  let outcome ← guardedList 0 tryBody tryEnv
  suspending outcome (resume .undefined 0) do
    let caught ← runCatch tryBody.length catchBinding catchBody env outcome
    suspending caught (resume .undefined 1) do
      if finallyBody.isEmpty then return caught
      else do
        let finallyEnv ← withParent env
        let final ← guardedList (tryBody.length + catchBody.length) finallyBody finallyEnv
        suspending final (resume caught 2) do
          return if isAbruptSignal final then final else caught

/-! ## Loops -/

/-- What a loop does with the value of its body: end with it, or go on with a result.
A suspension is looked at before. -/
def afterBody (bodyResult result : JsvValue) (next : JsvValue → Eval JsvValue) : Eval JsvValue :=
  match bodyResult with
  | .breakSignal => return result
  | .continueSignal => next result
  | bodyResult => if isAbruptSignal bodyResult then return bodyResult else next bodyResult

/-- `while_loop_step` with `remaining` rounds after this one. -/
def whileLoopStep (cond : JsvExpr) (body : List JsvExpr) (env : JsvEnvironment) :
    Nat → JsvValue → JsvValue → Eval JsvValue
  | remaining, result, condValue =>
    if !condValue.isTruthy then return result
    else do
      let bodyResult ← Program.inside .loopBody do
        let iterationEnv ← withParent env
        evalStatementList 1 body iterationEnv
      suspending bodyResult (.whileBody cond body env result (maxLoopIterations - remaining)) <|
        afterBody bodyResult result fun result =>
          match remaining with
          | 0 => fail infiniteLoop
          | remaining + 1 => do
            let condValue ← evalExpr 0 cond env
            suspending condValue
              (.whileCond cond body env result (maxLoopIterations - remaining))
              (whileLoopStep cond body env remaining result condValue)

def doWhileLoopStep (cond : JsvExpr) (body : List JsvExpr) (env : JsvEnvironment) :
    Nat → JsvValue → Eval JsvValue
  | remaining, result => do
    let bodyResult ← evalStatementList 1 body env
    suspending bodyResult (.doWhileBody cond body env result (maxLoopIterations - remaining)) <|
      afterBody bodyResult result fun result => do
        let condition ← evalExpr 0 cond env
        suspending condition
          (.doWhileCond cond body env result (maxLoopIterations - remaining)) <|
          if !condition.isTruthy then return result
          else
            match remaining with
            | 0 => fail infiniteLoop
            | remaining + 1 => do
              Program.op .step
              doWhileLoopStep cond body env remaining result

/-- Bind the key of a round; a `var` binding lives outside the round. -/
def bindKey (binding : String) (kind : DeclarationKind) (env iterationEnv : JsvEnvironment)
    (key : String) : Eval Unit :=
  match kind with
  | .constKind => declare iterationEnv binding (.string key) false false
  | .letKind => declare iterationEnv binding (.string key) true false
  | .varKind => assign env binding (.string key)

/-- `for_in_loop_step` over the keys that are left. A `continue` skips the step. -/
def forInLoopStep (binding : String) (kind : DeclarationKind) (body : List JsvExpr)
    (env : JsvEnvironment) : List String → JsvValue → Eval JsvValue
  | [], result => return result
  | key :: keys, result => do
    let iterationEnv ← withParent env
    bindKey binding kind env iterationEnv key
    let bodyResult ← evalStatementList 1 body (if kind = .varKind then env else iterationEnv)
    suspending bodyResult (.forInRest binding kind body env result keys) <|
      match bodyResult with
      | .continueSignal => forInLoopStep binding kind body env keys result
      | bodyResult =>
        afterBody bodyResult result fun result => do
          Program.op .step
          forInLoopStep binding kind body env keys result

/-- The loop of `for ... of` over the values that are left. -/
def forOfLoop (pattern : ParamPattern) (kind : DeclarationKind) (body : List JsvExpr)
    (env : JsvEnvironment) : List JsvValue → JsvValue → Eval JsvValue
  | [], result => return result
  | value :: values, result => do
    let iterationEnv ← withParent env
    bindPattern pattern value iterationEnv kind
    let bodyResult ← evalStatementList 1 body iterationEnv
    suspending bodyResult (.forOfRest pattern kind body env result values) <|
      afterBody bodyResult result (forOfLoop pattern kind body env values)

/-! ## switch -/

/-- A clause that runs: its statements, then `next` unless they end the switch. -/
def switchBody (position : Nat) (body : List JsvExpr) (env : JsvEnvironment) (result : JsvValue)
    (next : JsvValue → Eval JsvValue) : Eval JsvValue := do
  match ← evalStatementList position body env with
  | .breakSignal => return result
  | value => if isAbruptSignal value then return value else next value

/-- The clauses of a `switch`, from `position`; `matched` once a case was selected. -/
def switchCases (disc : JsvValue) (env : JsvEnvironment) (defaultClause : Option (List JsvExpr)) :
    Nat → List SwitchCase → Bool → JsvValue → Eval JsvValue
  | position, [], matched, result =>
    match matched, defaultClause with
    | false, some body => switchBody position body env result fun value => return value
    | _, _ => return result
  | position, .mk test body :: cases, matched, result =>
    let run (position : Nat) : Eval JsvValue :=
      switchBody position body env result
        (switchCases disc env defaultClause (position + body.length) cases true)
    match matched, test with
    | false, some test => do
      let value ← evalExpr position test env
      refusingYield value "SyntaxError: yield in switch case is not supported" <|
        if !jsStrictEqual disc value then
          switchCases disc env defaultClause (position + 1 + body.length) cases false result
        else run (position + 1)
    | true, some _ => run (position + 1)
    | _, none => run position

end GhitaBrowser.Js
