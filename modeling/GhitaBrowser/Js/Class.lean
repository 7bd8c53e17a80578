import GhitaBrowser.Js.Native
import GhitaBrowser.Js.Statement

/-!
# Classes, private members and `new`
-/

namespace GhitaBrowser.Js

variable [Platform]

/-- The function value a method is made into. -/
def methodValue (name : String) (params : List ParamBinding) (body : JsvExpr)
    (isAsync isGenerator : Bool) (env : JsvEnvironment) : JsvValue :=
  if isAsync then .asyncFunction name params body env
  else if isGenerator then .generatorFn name params body env
  else .function name params body env

/-- Drop leading `#` characters. -/
def stripHash (name : String) : String := String.ofList (name.toList.dropWhile (· == '#'))

def isPrivateName (name : String) : Bool := name.toList.head? == some '#'

/-- The slot of a private method on the prototype. -/
def privateMethodKey (id : Nat) (stripped : String) : String :=
  toString id ++ "\x00private:" ++ stripped

def privateFieldKey (id : Nat) (stripped : String) : String := toString id ++ ":" ++ stripped

/-! ## Private members -/

/-- The members of the private protocol need a class body around them. -/
def Store.privateClassId (store : Store) (env : JsvEnvironment) : Except String Nat :=
  match store.get env "#classId" with
  | some (.number id) =>
    if id > 0.0 && id == id.floor then .ok id.toUInt64.toNat
    else .error "ReferenceError: private member access outside of a class body"
  | _ => .error "ReferenceError: private member access outside of a class body"

def privateRead (target : JsvValue) (name : String) (env : JsvEnvironment) : Eval JsvValue :=
  tryStore fun store =>
    match store.privateClassId env, target with
    | .error error, _ => (.error error, store)
    | .ok id, .object ref =>
      let stripped := stripHash name
      let object := store.objects[ref]?.getD ⟨[], none, [], []⟩
      if !object.classTags.contains id then
        (.error ("TypeError: Cannot read private member #" ++ stripped ++
          " from an object whose class did not declare it"), store)
      else
        match object.privateFields.get (privateFieldKey id stripped) with
        | some value => (.ok value, store)
        | none =>
          (.ok ((store.objectProperty ref (privateMethodKey id stripped)).getD .undefined), store)
    | .ok _, _ => (.error "TypeError: cannot access a private member on a non-object", store)

def privateWrite (target : JsvValue) (name : String) (value : JsvValue) (env : JsvEnvironment) :
    Eval Unit :=
  tryStore fun store =>
    match store.privateClassId env, target with
    | .error error, _ => (.error error, store)
    | .ok id, .object ref =>
      let stripped := stripHash name
      let object := store.objects[ref]?.getD ⟨[], none, [], []⟩
      if !object.classTags.contains id then
        (.error ("TypeError: Cannot write private member #" ++ stripped ++
          " to an object whose class did not declare it"), store)
      else
        (.ok (), store.modifyObject ref fun object =>
          { object with
            privateFields := object.privateFields.insert (privateFieldKey id stripped) value })
    | .ok _, _ => (.error "TypeError: cannot access a private member on a non-object", store)

/-! ## Class definitions -/

/-- What the members of a class body have contributed so far. -/
structure ClassParts where
  constructor : Option (List ParamBinding × JsvExpr)
  instanceMethods : List String
  staticMethods : Properties JsvValue
  privateNames : List String
  instanceFields : List (String × Option JsvExpr)

/-- Put a getter or setter beside the accessor already on the prototype. -/
def Store.addAccessor (prototype : Nat) (name : String) (func : JsvValue) (isGetter : Bool)
    (store : Store) : Store :=
  let (getter, setter) := match (store.propertiesAt prototype).get name with
    | some (.getterSetter getter setter) => (getter, setter)
    | _ => (.undefined, .undefined)
  store.setProperty prototype name
    (if isGetter then .getterSetter func setter else .getterSetter getter func)

def addMethod (id prototype : Nat) (methodEnv : JsvEnvironment) (parts : ClassParts) :
    JsvClassMethod → Eval ClassParts
  | .mk name params body isAsync isGenerator isStatic isGetter isSetter isPrivate =>
    let func := methodValue name params body isAsync isGenerator methodEnv
    if !isStatic && !isPrivate && name == "constructor" then
      return { parts with constructor := some (params, body) }
    else if isPrivate then do
      modifyStore fun store =>
        store.setProperty prototype (privateMethodKey id (stripHash name)) func
      return { parts with privateNames := parts.privateNames ++ [name] }
    else if isStatic then
      return { parts with staticMethods := parts.staticMethods.insert name func }
    else if isGetter || isSetter then do
      modifyStore (Store.addAccessor prototype name func isGetter)
      return parts
    else do
      modifyStore fun store => store.setProperty prototype name func
      return { parts with
        instanceMethods :=
          if parts.instanceMethods.contains name then parts.instanceMethods
          else parts.instanceMethods ++ [name] }

/-- The members of a class body; a static initializer is evaluated at its `position`. -/
def addMembers (id prototype : Nat) (classEnv methodEnv : JsvEnvironment) :
    Nat → List ClassMember → ClassParts → Eval ClassParts
  | _, [], parts => return parts
  | position, .method method :: members, parts => do
    let parts ← addMethod id prototype methodEnv parts method
    addMembers id prototype classEnv methodEnv position members parts
  | position, .field name initializer isStatic :: members, parts => do
    let parts := if isPrivateName name then
        { parts with privateNames := parts.privateNames ++ [name] }
      else parts
    match isStatic, initializer with
    | false, initializer =>
      addMembers id prototype classEnv methodEnv position members
        { parts with instanceFields := parts.instanceFields ++ [(name, initializer)] }
    | true, none =>
      addMembers id prototype classEnv methodEnv position members
        { parts with staticMethods := parts.staticMethods.insert name .undefined }
    | true, some initializer => do
      let value ← evalExpr position initializer classEnv
      addMembers id prototype classEnv methodEnv (position + 1) members
        { parts with staticMethods := parts.staticMethods.insert name value }

/-- The superclass a class definition evaluates to, if any. -/
def classParent (parent : Option JsvExpr) (env : JsvEnvironment) : Eval (Option JsvValue) :=
  match parent with
  | none => return none
  | some expr => do
    match ← evalExpr 0 expr env with
    | .class ref => return some (.class ref)
    | .null => return none
    | other =>
      fail ("TypeError: class extends value " ++ (← display other) ++ " is not a constructor")

def Store.prototypeOf (store : Store) : Option JsvValue → Option Nat
  | some (.class ref) => store.classes[ref]?.map JsvClass.prototypeObject
  | _ => none

def superProtoValue (store : Store) (parent : Option JsvValue) : JsvValue :=
  ((store.prototypeOf parent).map JsvValue.object).getD .undefined

def evalClassDef (name : Option String) (parentExpr : Option JsvExpr)
    (members : List ClassMember) (env : JsvEnvironment) : Eval JsvValue := do
  let parent ← classParent parentExpr env
  let id ← updateStore fun store => (store.nextId, { store with nextId := store.nextId + 1 })
  let classEnv ← withParent env
  let prototype ← updateStore fun store =>
    (store.objects.length,
      { store with objects := store.objects ++ [⟨[], store.prototypeOf parent, [], []⟩] })
  let methodEnv ← withParent classEnv
  modifyStore fun store =>
    let store := store.define methodEnv "#classId" (natNumber id)
    let store := store.define methodEnv "#superProto" (superProtoValue store parent)
    store.define methodEnv "#parentClass" (parent.getD .undefined)
  let parts ← addMembers id prototype classEnv methodEnv (if parentExpr.isSome then 1 else 0)
    members ⟨none, [], [], [], []⟩
  if parts.instanceMethods.length + parts.staticMethods.length + parts.privateNames.length > 1024
  then fail "Class member budget exceeded"
  else do
    let ref ← updateStore fun store =>
      (store.classes.length,
        { store with classes := store.classes ++
            [⟨name.getD "", id, parent, parts.constructor, parts.staticMethods,
              parts.instanceFields, prototype, classEnv⟩] })
    match name with
    | some name => do
      define classEnv name (.class ref)
      define env name (.class ref)
      return .class ref
    | none => return .class ref

/-! ## Construction -/

/-- The ids of a class and its ancestors; a class is younger than its parent. -/
def Store.classTags (store : Store) : Nat → Nat → List Nat
  | 0, _ => []
  | fuel + 1, ref =>
    match store.classes[ref]? with
    | none => []
    | some entry =>
      entry.id :: match entry.parent with
        | some (.class parent) => store.classTags fuel parent
        | _ => []

def constructClass (ref : Nat) (args : List JsvValue) (env : JsvEnvironment) :
    Eval JsvValue := do
  let thisValue ← updateStore fun store =>
    store.allocObject ⟨[], store.classes[ref]?.map JsvClass.prototypeObject,
      store.classTags store.classes.length ref, []⟩
  constructClassWithThis ref args thisValue env

/-- The scope of a field initializer or a constructor body. -/
def memberEnv (entry : JsvClass) (thisValue : JsvValue) : Eval JsvEnvironment := do
  let env ← withParent entry.classEnv
  modifyStore fun store =>
    let store := store.define env "this" thisValue
    let store := store.define env "#classId" (natNumber entry.id)
    let store := store.define env "#superProto" (superProtoValue store entry.parent)
    store.define env "#parentClass" (entry.parent.getD .undefined)
  return env

/-- Initialize the instance fields in order. -/
def initializeFields (entry : JsvClass) (object : Nat) (fieldEnv : JsvEnvironment) :
    Nat → List (String × Option JsvExpr) → Eval Unit
  | _, [] => pure ()
  | position, (name, initializer) :: fields => do
    let value ← match initializer with
      | some expr => evalExpr position expr fieldEnv
      | none => pure .undefined
    modifyStore fun store =>
      if isPrivateName name then
        store.modifyObject object fun object =>
          { object with
            privateFields := object.privateFields.insert
              (privateFieldKey entry.id (String.ofList name.toList.tail)) value }
      else store.setProperty object name value
    initializeFields entry object fieldEnv (position + 1) fields

/-- What a constructor body's completion makes of `new`. -/
def constructorResult (thisValue : JsvValue) : JsvValue → Eval JsvValue
  | .returnSignal value => return if value.isObjectLike then value else thisValue
  | .throwSignal reason => return .throwSignal reason
  | .breakSignal => return .breakSignal
  | .continueSignal => return .continueSignal
  | .yieldSignal .. => fail "SyntaxError: yield in class constructor is not supported"
  | _ => return thisValue

def constructClassWithThisInner (ref : Nat) (args : List JsvValue) (thisValue : JsvValue)
    (env : JsvEnvironment) : Eval JsvValue := do
  match thisValue, ← readStore fun store => store.classes[ref]? with
  | .object object, some entry => do
    let fieldEnv ← memberEnv entry thisValue
    initializeFields entry object fieldEnv 0 entry.instanceFields
    match entry.constructor, entry.parent with
    | some (params, body), _ => do
      let ctorEnv ← memberEnv entry thisValue
      bindParams ctorEnv params args 0
      let result ← evalExpr 0 body ctorEnv
      constructorResult thisValue result
    | none, some (.class parent) => constructClassWithThis parent args thisValue env
    | none, some _ => fail "TypeError: invalid superclass"
    | none, none => return thisValue
  | _, _ => fail "TypeError: super() requires a valid this"

/-! ## new -/

def constructibleNatives : List String :=
  ["Map", "Set", "WeakMap", "WeakSet", "WeakRef", "FinalizationRegistry", "ArrayBuffer",
    "DataView", "Function", "Proxy", "Symbol", "Error", "TypeError", "RangeError",
    "ReferenceError"] ++
  ["SyntaxError", "EvalError", "URIError", "Array", "Object", "Promise"]

def typedArrayNames : List String :=
  ["Int8Array", "Uint8Array", "Uint8ClampedArray", "Int16Array", "Uint16Array", "Int32Array",
    "Uint32Array", "Float32Array", "Float64Array"]

def isConstructibleNative (name : String) : Bool :=
  constructibleNatives.contains name || typedArrayNames.contains name ||
    "Intl.".isPrefixOf name

/-- `invoke_new`, over the function `Reflect.construct` hands its target to. -/
def invokeNewWith (again : JsvValue → List JsvValue → JsvEnvironment → Eval JsvValue)
    (callee : JsvValue) (args : List JsvValue) (env : JsvEnvironment) : Eval JsvValue :=
  match callee with
  | .class ref => constructClass ref args env
  | .hostFunction object method => .op (.hostCall object method args)
  | .nativeFn name =>
    if isConstructibleNative name then callNativeFn again name args env
    else fail ("TypeError: " ++ name ++ " is not a constructor")
  | func =>
    if isCallable func then do
      let called ← callFunction func args env .undefined
      callResultValue called
    else do
      fail ("TypeError: " ++ (← display func) ++ " is not a constructor")

/-- `invoke_new`. `Reflect.construct` is not a constructible native itself, so the inner
function is never asked. -/
def invokeNew (callee : JsvValue) (args : List JsvValue) (env : JsvEnvironment) :
    Eval JsvValue :=
  invokeNewWith (fun _ _ _ => fail "TypeError: Reflect.construct is not a constructor")
    callee args env

end GhitaBrowser.Js
