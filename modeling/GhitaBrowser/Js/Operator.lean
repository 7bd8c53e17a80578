import GhitaBrowser.Js.Effects

/-!
# Conversions, equality and operators

Display strings, `ToNumber`, property keys, the two equalities and the operator
tables of `apply_binary_op`. `in` on a proxy is the one operator that calls back
into the evaluator.
-/

namespace GhitaBrowser.Js

variable [Platform]

/-- `usize::from_str`: decimal digits, a leading `+` allowed, below 2^64. -/
def parseUsize (text : String) : Option Nat :=
  let digits := match text.toList with
    | '+' :: rest => rest
    | chars => chars
  if digits.isEmpty || !digits.all fun c => '0' ≤ c && c ≤ '9' then none
  else
    let value := digits.foldl (fun n c => n * 10 + (c.toNat - '0'.toNat)) 0
    if value < 2 ^ 64 then some value else none

def displayNumber (n : Float) : String :=
  if n.isInf then (if n > 0.0 then "Infinity" else "-Infinity")
  else if n == n.floor && n.isFinite && n.abs < 1e15 then toString n.toInt64
  else if n == 0.0 then "-0"
  else Platform.formatNumber n

/-- `to_display_string_at_depth`; the fuel is what is left of the 32 levels. -/
def displayString (store : Store) : Nat → JsvValue → String
  | 0, _ => "…"
  | fuel + 1, value =>
    match value with
    | .number n => displayNumber n
    | .boolean b => toString b
    | .string s => s
    | .null => "null"
    | .undefined => "undefined"
    | .object _ => "[object Object]"
    | .array ref =>
      "[" ++ ", ".intercalate ((store.arrayAt ref).map (displayString store fuel)) ++ "]"
    | .function name .. => "[Function: " ++ name ++ "]"
    | .asyncFunction name .. => "[AsyncFunction: " ++ name ++ "]"
    | .generatorFn name .. => "[GeneratorFunction: " ++ name ++ "]"
    | .nativeFn name => "[Native Function: " ++ name ++ "]"
    | .boundNativeFn name _ => "[Native Method: " ++ name ++ "]"
    | .promise _ => "[object Promise]"
    | .symbol description _ => description
    | .error _ name message => name ++ ": " ++ message
    | .map ref => "[object Map (" ++ toString (store.maps[ref]?.getD []).length ++ " entries)]"
    | .set ref => "[object Set (" ++ toString (store.sets[ref]?.getD []).length ++ " values)]"
    | .weakMap _ => "[object WeakMap]"
    | .weakSet _ => "[object WeakSet]"
    | .arrayBuffer ref =>
      match store.arrayBuffers[ref]? with
      | some buffer =>
        if buffer.detached then "[object ArrayBuffer (detached)]"
        else "[object ArrayBuffer (" ++ toString buffer.bytes.length ++ " bytes)]"
      | none => "[object ArrayBuffer (detached)]"
    | .typedArray ref =>
      "[object " ++ (store.typedArrays[ref]?.map JsvTypedArray.kind).getD "" ++ "]"
    | .dataView _ => "[object DataView]"
    | .proxy _ => "[object Proxy]"
    | .class ref => "[class " ++ (store.classes[ref]?.map JsvClass.name).getD "" ++ "]"
    | .generatorObject _ => "[object Generator]"
    | .iterator _ => "[object Iterator]"
    | .getterSetter getter setter =>
      if isCallable getter && isCallable setter then "[Getter/Setter]"
      else if isCallable getter then "[Getter]"
      else "[Setter]"
    | .hostObject _ => "[object HostObject]"
    | .hostFunction _ name => "[Host Function: " ++ name ++ "]"
    -- The source counts the levels below a signal from zero again.
    | .returnSignal value => displayString store fuel value
    | .throwSignal value => displayString store fuel value
    | .breakSignal => "break"
    | .continueSignal => "continue"
    | .yieldSignal value _ => displayString store fuel value

/-- `to_display_string`. -/
def Store.display (store : Store) (value : JsvValue) : String := displayString store 33 value

def display (value : JsvValue) : Eval String := readStore fun store => store.display value

/-- `whole_hex_number`: a signed hexadecimal literal and nothing else. -/
def wholeHexNumber (trimmed : String) : Option Float :=
  let (negative, body) := match trimmed.toList with
    | '-' :: rest => (true, rest)
    | '+' :: rest => (false, rest)
    | chars => (false, chars)
  let digits := match body with
    | '0' :: 'x' :: rest | '0' :: 'X' :: rest => rest
    | _ => []
  if digits.isEmpty then none
  else (Platform.parseHex (String.ofList digits)).map fun value =>
    if negative then -(Float.ofInt value) else Float.ofInt value

def notANumber : Float := 0.0 / 0.0

def toNumber : JsvValue → Float
  | .number n => n
  | .boolean b => if b then 1.0 else 0.0
  | .null => 0.0
  | .string s =>
    let trimmed := Platform.trim s
    if trimmed == "" then 0.0
    else match Platform.parseNumber trimmed with
      | some value => value
      | none => (wholeHexNumber trimmed).getD notANumber
  | _ => notANumber

def symbolKeyPrefix : String := "\x00\x01@symbol:"

def isSymbolPropertyKey (key : String) : Bool := symbolKeyPrefix.isPrefixOf key

def Store.propertyKey (store : Store) : JsvValue → String
  | .symbol _ id => symbolKeyPrefix ++ toString id
  | .number n =>
    if n.isFinite && n == n.floor then toString n.toInt64 else store.display (.number n)
  | value => store.display value

def propertyKey (value : JsvValue) : Eval String := readStore fun store => store.propertyKey value

/-- `function_identity_eq`: the same declaration in the same environment record. -/
def functionIdentityEq : JsvValue → JsvValue → Bool
  | .function n p b e, .function n' p' b' e'
  | .asyncFunction n p b e, .asyncFunction n' p' b' e'
  | .generatorFn n p b e, .generatorFn n' p' b' e' => n == n' && p == p' && b == b' && e == e'
  | .nativeFn name, .nativeFn name' => name == name'
  | .hostFunction o m, .hostFunction o' m' => o == o' && m == m'
  | _, _ => false

/-- `PartialEq for JsvValue`. -/
def sameValue : JsvValue → JsvValue → Bool
  | .number l, .number r => l == r
  | .boolean l, .boolean r => l == r
  | .string l, .string r => l == r
  | .null, .null | .undefined, .undefined => true
  | .object l, .object r | .array l, .array r | .promise l, .promise r
  | .map l, .map r | .set l, .set r | .weakMap l, .weakMap r | .weakSet l, .weakSet r
  | .arrayBuffer l, .arrayBuffer r | .typedArray l, .typedArray r | .dataView l, .dataView r
  | .proxy l, .proxy r | .class l, .class r | .generatorObject l, .generatorObject r
  | .iterator l, .iterator r | .hostObject l, .hostObject r
  | .symbol _ l, .symbol _ r | .error l _ _, .error r _ _ => l == r
  | .getterSetter lg ls, .getterSetter rg rs => sameValue lg rg && sameValue ls rs
  | .generatorFn n p b e, .generatorFn n' p' b' e'
  | .function n p b e, .function n' p' b' e'
  | .asyncFunction n p b e, .asyncFunction n' p' b' e' =>
    n == n' && p == p' && b == b' && e == e'
  | .nativeFn l, .nativeFn r => l == r
  | .boundNativeFn ln l, .boundNativeFn rn r => ln == rn && sameValue l r
  | .hostFunction lo ln, .hostFunction ro rn => lo == ro && ln == rn
  | .returnSignal l, .returnSignal r | .throwSignal l, .throwSignal r => sameValue l r
  | .yieldSignal l lc, .yieldSignal r rc => sameValue l r && lc.length == rc.length
  | .breakSignal, .breakSignal | .continueSignal, .continueSignal => true
  | _, _ => false

def jsStrictEqual : JsvValue → JsvValue → Bool
  | .number l, .number r => l == r
  | .string l, .string r => l == r
  | .boolean l, .boolean r => l == r
  | .null, .null | .undefined, .undefined => true
  | .object l, .object r | .array l, .array r | .promise l, .promise r
  | .map l, .map r | .set l, .set r | .weakMap l, .weakMap r | .weakSet l, .weakSet r
  | .arrayBuffer l, .arrayBuffer r | .typedArray l, .typedArray r | .dataView l, .dataView r
  | .proxy l, .proxy r | .class l, .class r | .generatorObject l, .generatorObject r
  | .iterator l, .iterator r | .hostObject l, .hostObject r
  | .symbol _ l, .symbol _ r | .error l _ _, .error r _ _ => l == r
  | .hostFunction lo ln, .hostFunction ro rn => lo == ro && ln == rn
  | .nativeFn l, .nativeFn r => l == r
  | .boundNativeFn ln l, .boundNativeFn rn r => ln == rn && sameValue l r
  | left, right => functionIdentityEq left right

def sameValueZero (left right : JsvValue) : Bool :=
  match left, right with
  | .number l, .number r => l == r || (l.isNaN && r.isNaN)
  | _, _ => sameValue left right

def typeofName : JsvValue → String
  | .number _ => "number"
  | .string _ => "string"
  | .boolean _ => "boolean"
  | .symbol .. => "symbol"
  | .undefined => "undefined"
  | .function .. | .asyncFunction .. | .generatorFn .. | .nativeFn _ | .boundNativeFn ..
  | .class _ | .hostFunction .. => "function"
  | _ => "object"

/-- The string two operands of `+` concatenate to, billed before it is built. -/
def concatenate (left right : String) (billed : Nat) : Eval JsvValue := do
  checkStringAlloc billed
  return .string (left ++ right)

def numericFallthrough (left right : JsvValue) (op : OpKind) : Eval JsvValue := do
  let coerced (value : JsvValue) : JsvValue :=
    match value with
    | .boolean _ => .number (toNumber value)
    | value => value
  let equal :=
    match coerced left, coerced right with
    | .number n, .string s => n == toNumber (.string s)
    | .string s, .number n => toNumber (.string s) == n
    | left, right => jsStrictEqual left right
  match op with
  | .eq => return .boolean equal
  | .neq => return .boolean !equal
  | .add =>
    match left, right with
    | .string _, _ | _, .string _ =>
      let leftText ← display left
      let rightText ← display right
      concatenate leftText rightText (leftText.utf8ByteSize + rightText.utf8ByteSize)
    | _, _ => return .number (toNumber left + toNumber right)
  | .sub => return .number (toNumber left - toNumber right)
  | .mul => return .number (toNumber left * toNumber right)
  | .div => return .number (toNumber left / toNumber right)
  | .mod => return .number (Platform.remainder (toNumber left) (toNumber right))
  | .lt => return .boolean (toNumber left < toNumber right)
  | .le => return .boolean (toNumber left ≤ toNumber right)
  | .gt => return .boolean (toNumber left > toNumber right)
  | .ge => return .boolean (toNumber left ≥ toNumber right)
  | _ => fail "Type mismatch in binary operation"

def numberOperation (l r : Float) : OpKind → Eval JsvValue
  | .add => return .number (l + r)
  | .sub => return .number (l - r)
  | .mul => return .number (l * r)
  | .div => return .number (l / r)
  | .mod => return .number (Platform.remainder l r)
  | .eq => return .boolean (l == r)
  | .neq => return .boolean (l != r)
  | .lt => return .boolean (l < r)
  | .le => return .boolean (l ≤ r)
  | .gt => return .boolean (l > r)
  | .ge => return .boolean (l ≥ r)
  | _ => fail "Invalid operator for numbers"

def stringOperation (l r : String) : OpKind → Eval JsvValue
  | .add => concatenate l r (l.utf8ByteSize + r.utf8ByteSize)
  | .eq => return .boolean (l == r)
  | .neq => return .boolean (l != r)
  | .lt => return .boolean (l < r)
  | .le => return .boolean (l ≤ r)
  | .gt => return .boolean (l > r)
  | .ge => return .boolean (l ≥ r)
  | _ => fail "Invalid operator for strings"

/-- Whether `prototype` is on the prototype chain of `ref`, over 64 objects. -/
def Store.chainHas (store : Store) (prototype : Nat) : Nat → Option Nat → Bool
  | 0, _ => false
  | _, none => false
  | fuel + 1, some ref =>
    ref == prototype ||
      store.chainHas prototype fuel ((store.objects[ref]?).bind JsvObject.prototype)

def instanceOf (left right : JsvValue) : Eval JsvValue := do
  let prototype ← match right with
    | .class ref => readStore fun store => (store.classes[ref]?.map JsvClass.prototypeObject)
    | .object ref => pure (some ref)
    | _ => fail "TypeError: instanceof requires a constructor object"
  match left, prototype with
  | .object ref, some prototype =>
    readStore fun store => .boolean
      (store.chainHas prototype 64 ((store.objects[ref]?).bind JsvObject.prototype))
  | _, _ => return .boolean false

def Store.proxyTrap (store : Store) (proxy : Nat) (trap : String) : Option JsvValue :=
  match store.proxies[proxy]? with
  | some (_, .object handler) => store.objectProperty handler trap
  | _ => none

/-- The trap of a proxy, when the handler has a callable one, with target and handler. -/
def proxyParts (proxy : Nat) (trap : String) : Eval (JsvValue × JsvValue × Option JsvValue) :=
  readStore fun store =>
    let (target, handler) := store.proxies[proxy]?.getD (.undefined, .undefined)
    (target, handler, (store.proxyTrap proxy trap).filter isCallable)

def hasProperty (store : Store) (key : String) : JsvValue → Bool
  | .object ref => (store.objectProperty ref key).isSome
  | .array ref => (parseUsize key).any fun index => decide (index < (store.arrayAt ref).length)
  | _ => false

def proxyHas (proxy : Nat) (key : String) (env : JsvEnvironment) : Eval Bool := do
  let (target, handler, trap) ← proxyParts proxy "has"
  match trap with
  | some trap =>
    let called ← callFunction trap [target, .string key] env handler
    return (← callResultValue called).isTruthy
  | none => readStore fun store => hasProperty store key target

def inOperation (left right : JsvValue) (env : JsvEnvironment) : Eval JsvValue := do
  let key ← propertyKey left
  match right with
  | .object _ | .array _ => readStore fun store => .boolean (hasProperty store key right)
  | .proxy proxy => return .boolean (← proxyHas proxy key env)
  | other => fail ("TypeError: cannot use 'in' on " ++ (← display other))

def applyBinaryOp (left right : JsvValue) (op : OpKind) (env : JsvEnvironment) : Eval JsvValue :=
  match op with
  | .and => return if !left.isTruthy then left else right
  | .or => return if left.isTruthy then left else right
  | .nullish => return if left.isNullish then right else left
  | .strictEq => return .boolean (jsStrictEqual left right)
  | .strictNeq => return .boolean !jsStrictEqual left right
  | .instanceof => instanceOf left right
  | .in => inOperation left right env
  | op =>
    match left, right with
    | .number l, .number r => numberOperation l r op
    | .string l, .string r => stringOperation l r op
    | .null, .undefined | .undefined, .null =>
      match op with
      | .eq => return .boolean true
      | .neq => return .boolean false
      | _ => fail "Type mismatch in binary operation"
    | .number n, right =>
      if op = .add then do
        let text ← display right
        concatenate (Platform.formatNumber n) text text.utf8ByteSize
      else numericFallthrough (.number n) right op
    | .string s, right =>
      if op = .add then do
        let text ← display right
        concatenate s text (s.utf8ByteSize + text.utf8ByteSize)
      else numericFallthrough (.string s) right op
    | left, right => numericFallthrough left right op

def applyUnaryOp (op : OpKind) (value : JsvValue) : Eval JsvValue :=
  match op with
  | .sub => return .number (-toNumber value)
  | .not => return .boolean !value.isTruthy
  | .typeof => return .string (typeofName value)
  | _ => fail "Invalid unary operation"

end GhitaBrowser.Js
