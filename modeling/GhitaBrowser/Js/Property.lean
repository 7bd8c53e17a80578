import GhitaBrowser.Js.Operator

/-!
# Property access

Reading and writing named and indexed properties, with getters, setters, proxies
and host objects, and the members every kind of value has.
-/

namespace GhitaBrowser.Js

variable [Platform]

def maxArrayElements : Nat := 262144
def maxCollectionEntries : Nat := 65536
def maxIteratorResults : Nat := 100000

def hostWindow : Nat := 2

def natNumber (n : Nat) : JsvValue := .number (Float.ofNat n)

/-! ## Members of the built-in kinds -/

/-- A member that is a method is bound to its receiver under `family.property`. -/
def boundMember (family : String) (methods : List String) (receiver : JsvValue)
    (property : String) : JsvValue :=
  if methods.contains property then .boundNativeFn (family ++ "." ++ property) receiver
  else .undefined

def arrayMethods : List String :=
  ["push", "pop", "shift", "unshift", "join", "slice", "indexOf", "includes", "find",
    "findIndex", "some", "every", "forEach", "map", "filter", "reduce", "reduceRight"] ++
  ["concat", "reverse", "sort", "fill", "at", "keys", "values", "entries", "flat", "flatMap",
    "copyWithin", "lastIndexOf", "splice"]

/-- `string_method_supported`. -/
def stringMethods : List String :=
  ["toUpperCase", "toLowerCase", "trim", "trimStart", "trimEnd", "charAt", "charCodeAt",
    "indexOf", "includes", "startsWith", "endsWith", "slice", "substring", "replace", "split"] ++
  ["repeat", "concat", "padStart", "padEnd", "at", "replaceAll", "matchAll", "normalize"]

def mapMethods : List String :=
  ["get", "set", "has", "delete", "clear", "keys", "values", "entries", "forEach"]

def setMethods : List String :=
  ["add", "has", "delete", "clear", "keys", "values", "entries", "forEach"]

def typedArrayMethods : List String :=
  ["subarray", "set", "slice", "fill", "join", "indexOf", "includes", "forEach", "map",
    "filter", "reduce", "some"] ++
  ["every", "keys", "values", "entries", "at", "reverse", "sort", "find", "findIndex"]

def dataViewMethods : List String :=
  ["getInt8", "getUint8", "getInt16", "getUint16", "getInt32", "getUint32", "getFloat32",
    "getFloat64", "setInt8", "setUint8", "setInt16", "setUint16", "setInt32", "setUint32",
    "setFloat32", "setFloat64"]

def arrayMember (ref : Nat) (property : String) : Eval JsvValue :=
  if property == "length" then readStore fun store => natNumber (store.arrayAt ref).length
  else return boundMember "Array" arrayMethods (.array ref) property

def stringMember (text property : String) : JsvValue :=
  if property == "length" then natNumber text.length
  else boundMember "String" stringMethods (.string text) property

def mapMember (ref : Nat) (property : String) : Eval JsvValue :=
  if property == "size" then readStore fun store => natNumber (store.maps[ref]?.getD []).length
  else return boundMember "Map" mapMethods (.map ref) property

def setMember (ref : Nat) (property : String) : Eval JsvValue :=
  if property == "size" then readStore fun store => natNumber (store.sets[ref]?.getD []).length
  else return boundMember "Set" setMethods (.set ref) property

def typedArrayMember (ref : Nat) (property : String) : Eval JsvValue := do
  let array ← readStore fun store => store.typedArrays[ref]?
  match array, property with
  | some array, "length" => return natNumber array.length
  | some array, "byteLength" => return natNumber (array.length * array.bytesPerElement)
  | some array, "byteOffset" => return natNumber array.byteOffset
  | some array, "buffer" => return .arrayBuffer array.buffer
  | _, property => return boundMember "TypedArray" typedArrayMethods (.typedArray ref) property

def dataViewMember (ref : Nat) (property : String) : Eval JsvValue := do
  let view ← readStore fun store => store.dataViews[ref]?
  match view, property with
  | some view, "buffer" => return .arrayBuffer view.buffer
  | some view, "byteLength" => return natNumber view.byteLength
  | some view, "byteOffset" => return natNumber view.byteOffset
  | _, property => return boundMember "DataView" dataViewMethods (.dataView ref) property

def ParamBinding.isRest (param : ParamBinding) : Bool :=
  match param.pattern with
  | .rest _ => true
  | _ => false

/-- The `length` of a function: its parameters without a rest parameter. -/
def parameterCount (params : List ParamBinding) : Nat :=
  (params.filter fun param => !param.isRest).length

def functionMember (name : String) (params : List ParamBinding) (body : JsvExpr)
    (captured : JsvEnvironment) : String → Eval JsvValue
  | "length" => return natNumber (parameterCount params)
  | "name" => return .string name
  | "prototype" => objectValue []
  | "call" => return .boundNativeFn "Function.call" (.function name params body captured)
  | "apply" => return .boundNativeFn "Function.apply" (.function name params body captured)
  | _ => return .undefined

def classMember (ref : Nat) (property : String) : Eval JsvValue :=
  readStore fun store =>
    match store.classes[ref]? with
    | none => .undefined
    | some entry =>
      match property with
      | "prototype" => .object entry.prototypeObject
      | "name" => .string entry.name
      | "length" => natNumber ((entry.constructor.map fun c => parameterCount c.1).getD 0)
      | property => (entry.staticMethods.get property).getD .undefined

/-- Methods an object has by the brand its native constructor left on it. -/
def brandedMember (ref : Nat) (property : String) : Eval JsvValue :=
  readStore fun store =>
    let properties := store.propertiesAt ref
    match (properties.get "__ghita_native_brand").bind JsvValue.asString, property with
    | some "WeakRef", "deref" =>
      .boundNativeFn "WeakRef.deref" ((properties.get "deref_target").getD .undefined)
    | some "FinalizationRegistry", "register" => .nativeFn "FinalizationRegistry.register"
    | some "FinalizationRegistry", "unregister" => .nativeFn "FinalizationRegistry.unregister"
    | some "DateTimeFormat", "format" => .nativeFn "DateTimeFormat.format"
    | some "NumberFormat", "format" => .nativeFn "NumberFormat.format"
    | _, _ => .undefined

/-! ## Reads -/

/-- What a found property reads as: an accessor calls its getter. -/
def readFound (found : JsvValue) (object : Nat) (env : JsvEnvironment) : Eval JsvValue :=
  match found with
  | .getterSetter getter _ =>
    if isCallable getter then do
      let called ← callFunction getter [] env (.object object)
      callResultValue called
    else return found
  | found => return found

def readProperty (value : JsvValue) (property : String) (env : JsvEnvironment)
    (isOptional : Bool) : Eval JsvValue := do
  match value with
  | .null | .undefined =>
    if isOptional then return .undefined
    else fail ("TypeError: Cannot read property '" ++ property ++ "' of " ++ (← display value))
  | .object ref =>
    match ← readStore fun store => store.objectProperty ref property with
    | some found => readFound found ref env
    | none => brandedMember ref property
  | .array ref => arrayMember ref property
  | .string text => return stringMember text property
  | .promise _ => return boundMember "Promise" ["then", "catch", "finally"] value property
  | .map ref => mapMember ref property
  | .set ref => setMember ref property
  | .weakMap _ => return boundMember "WeakMap" ["get", "set", "has", "delete"] value property
  | .weakSet _ => return boundMember "WeakSet" ["add", "has", "delete"] value property
  | .arrayBuffer ref =>
    if property == "byteLength" then
      readStore fun store =>
        natNumber ((store.arrayBuffers[ref]?.map fun buffer => buffer.bytes.length).getD 0)
    else return boundMember "ArrayBuffer" ["slice"] value property
  | .typedArray ref => typedArrayMember ref property
  | .dataView ref => dataViewMember ref property
  | .error _ name message =>
    match property with
    | "name" => return .string name
    | "message" => return .string message
    | property => return boundMember "Error" ["toString"] value property
  | .symbol description _ =>
    match property with
    | "description" => return .string description
    | property => return boundMember "Symbol" ["toString"] value property
  | .class ref => classMember ref property
  | .function name params body captured | .asyncFunction name params body captured
  | .generatorFn name params body captured => functionMember name params body captured property
  | .generatorObject _ => return boundMember "Generator" ["next", "return", "throw"] value property
  | .iterator _ => return boundMember "Iterator" ["next", "return"] value property
  | .proxy proxy => proxyGet proxy property env
  | .hostObject object => .op (.hostGet object property)
  | .hostFunction object method =>
    if object == hostWindow && method == "MediaSource" && property == "isTypeSupported" then
      return .hostFunction hostWindow "MediaSource.isTypeSupported"
    else fail ("TypeError: Cannot read property '" ++ property ++ "' of a host function")
  | other =>
    fail ("TypeError: Cannot read property '" ++ property ++ "' of " ++ (← display other))

/-- The element of a typed array, `undefined` beyond its length. -/
def Store.typedElement (store : Store) (ref : Nat) (index : Option Nat) :
    Except String JsvValue :=
  match store.typedArrays[ref]? with
  | none => .ok .undefined
  | some array =>
    match store.arrayBuffers[array.buffer]? with
    | none => .ok .undefined
    | some buffer =>
      if buffer.detached then .error "TypeError: Cannot access a detached ArrayBuffer"
      else
        match index.filter fun index => decide (index < array.length) with
        | none => .ok .undefined
        | some index => (Platform.elementRead array.kind buffer.bytes index).map .number

/-- `direct_property_read`: no getter runs and no host is asked. -/
def Store.directPropertyRead (store : Store) (key : String) : JsvValue → JsvValue
  | .object ref => (store.objectProperty ref key).getD .undefined
  | .array ref =>
    if key == "length" then natNumber (store.arrayAt ref).length
    else ((parseUsize key).bind fun index => (store.arrayAt ref)[index]?).getD .undefined
  | .typedArray ref =>
    match store.typedElement ref (parseUsize key) with
    | .ok value => value
    | .error _ => .undefined
  | _ => .undefined

def symbolIndexRead (value : JsvValue) (key : String) (env : JsvEnvironment) : Eval JsvValue :=
  readStore fun store =>
    match store.get env "Symbol" with
    | some (.object symbols) =>
      let isWellKnown (name : String) : Bool :=
        match ((store.propertiesAt symbols).get name).bind JsvValue.asSymbolId with
        | some id => symbolKeyPrefix ++ toString id == key
        | none => false
      if isWellKnown "iterator" then .boundNativeFn "[Symbol.iterator]" value
      else if isWellKnown "toStringTag" then .string "[object Object]"
      else .undefined
    | _ => .undefined

def indexRead (value key : JsvValue) (env : JsvEnvironment) (isOptional : Bool) :
    Eval JsvValue := do
  let keyText ← propertyKey key
  match value with
  | .null | .undefined =>
    if isOptional then return .undefined
    else fail ("TypeError: Cannot read property '" ++ keyText ++ "' of null or undefined")
  | .array ref =>
    if keyText == "length" then readStore fun store => natNumber (store.arrayAt ref).length
    else if isSymbolPropertyKey keyText then symbolIndexRead value keyText env
    else readStore fun store =>
      ((parseUsize keyText).bind fun index => (store.arrayAt ref)[index]?).getD .undefined
  | .string text =>
    return ((parseUsize keyText).bind fun index =>
      text.toList[index]?.map fun c => .string c.toString).getD .undefined
  | .typedArray ref =>
    if isSymbolPropertyKey keyText then do
      -- A detached buffer is refused before the symbol is looked at.
      let _ ← tryStore fun store => (store.typedElement ref none, store)
      symbolIndexRead value keyText env
    else tryStore fun store => (store.typedElement ref (parseUsize keyText), store)
  | .object ref =>
    if isSymbolPropertyKey keyText then symbolIndexRead value keyText env
    else
      match ← readStore fun store => store.objectProperty ref keyText with
      | some found => readFound found ref env
      | none => return .undefined
  | .proxy proxy => proxyGet proxy keyText env
  | .generatorObject _ | .iterator _ =>
    if isSymbolPropertyKey keyText then symbolIndexRead value keyText env
    else return .undefined
  | .hostObject object => .op (.hostGet object keyText)
  | other => fail ("TypeError: " ++ (← display other) ++ " is not indexable")

/-! ## Writes -/

/-- A property write on an object: an accessor calls its setter. -/
def writeObject (ref : Nat) (property : String) (rhs : JsvValue) (env : JsvEnvironment) :
    Eval JsvValue := do
  match ← readStore fun store => (store.propertiesAt ref).get property with
  | some (.getterSetter _ setter) =>
    if isCallable setter then do
      let called ← callFunction setter [rhs] env (.object ref)
      callResultValue called
    else fail "TypeError: property has no setter"
  | _ => do
    modifyStore fun store => store.setProperty ref property rhs
    return rhs

/-- `Vec::resize` with `undefined`. -/
def resized (values : List JsvValue) (length : Nat) : List JsvValue :=
  values.take length ++ List.replicate (length - values.length) .undefined

def writeProperty (value : JsvValue) (property : String) (rhs : JsvValue)
    (env : JsvEnvironment) : Eval JsvValue := do
  match value with
  | .hostObject object => .op (.hostSet object property rhs)
  | .proxy proxy => proxySet proxy property rhs env
  | .object ref => writeObject ref property rhs env
  | .array ref =>
    if property == "length" then
      match rhs with
      | .number n =>
        if n.isFinite && n ≥ 0.0 then
          let length := n.toUInt64.toNat
          if length > maxArrayElements then fail "RangeError: array length budget exceeded"
          else do
            modifyStore fun store => store.setArray ref (resized (store.arrayAt ref) length)
            return rhs
        else fail "RangeError: invalid array length"
      | _ => fail "RangeError: invalid array length"
    else fail ("TypeError: Cannot set property '" ++ property ++ "' of " ++ (← display value))
  | other =>
    fail ("TypeError: Cannot set property '" ++ property ++ "' of " ++ (← display other))

/-- Write an element of an array, growing it up to the index. -/
def writeElement (ref : Nat) (keyText : String) (rhs : JsvValue) : Eval JsvValue :=
  match parseUsize keyText with
  | none => fail "TypeError: invalid array index"
  | some index =>
    if index ≥ maxArrayElements then fail "RangeError: array index budget exceeded"
    else do
      modifyStore fun store =>
        let values := store.arrayAt ref
        let grown := if index ≥ values.length then resized values (index + 1) else values
        store.setArray ref (grown.set index rhs)
      return rhs

def writeTypedElement (ref : Nat) (keyText : String) (rhs : JsvValue) : Eval JsvValue := do
  tryStore fun store =>
    match store.typedElement ref none with
    | .error error => (.error error, store)
    | .ok _ =>
      match parseUsize keyText with
      | none => (.error "TypeError: invalid typed array index", store)
      | some index =>
        match store.typedArrays[ref]? with
        | none => (.ok (), store)
        | some array =>
          if index < array.length then
            (.ok (), { store with arrayBuffers := store.arrayBuffers.modify array.buffer fun buffer =>
              { buffer with
                bytes := Platform.elementWrite array.kind buffer.bytes index (toNumber rhs) } })
          else (.ok (), store)
  return rhs

def indexWrite (value key rhs : JsvValue) (env : JsvEnvironment) : Eval JsvValue := do
  let keyText ← propertyKey key
  match value with
  | .array ref => writeElement ref keyText rhs
  | .typedArray ref => writeTypedElement ref keyText rhs
  | .object ref => writeObject ref keyText rhs env
  | .proxy proxy => proxySet proxy keyText rhs env
  | .hostObject object => .op (.hostSet object keyText rhs)
  | other => fail ("TypeError: Cannot set property of " ++ (← display other))

/-! ## Proxies -/

/-- The body of `proxy_get`, run inside the proxy depth. -/
def proxyGetBody (proxy : Nat) (key : String) (env : JsvEnvironment) : Eval JsvValue :=
  .inside .proxyTrap do
    let (target, handler, trap) ← proxyParts proxy "get"
    match trap with
    | some trap => do
      let called ← callFunction trap [target, .string key, handler] env handler
      callResultValue called
    | none => readProperty target key env false

/-- The body of `proxy_set`, run inside the proxy depth. -/
def proxySetBody (proxy : Nat) (key : String) (value : JsvValue) (env : JsvEnvironment) :
    Eval JsvValue :=
  .inside .proxyTrap do
    let (target, handler, trap) ← proxyParts proxy "set"
    match trap with
    | some trap => do
      let called ← callFunction trap [target, .string key, value, handler] env handler
      let accepted ← callResultValue called
      if accepted.isTruthy then return value
      else fail ("TypeError: 'set' proxy trap returned false for '" ++ key ++ "'")
    | none => writeProperty target key value env

/-- `own_properties`; a proxy shows those of its target. -/
def Store.ownPropertiesFrom (store : Store) : Nat → JsvValue →
    Except String (List (String × JsvValue))
  | 0, _ => .ok []
  | fuel + 1, value =>
    match value with
    | .object ref =>
      .ok ((Platform.keyOrder (store.propertiesAt ref)).filter fun entry =>
        !isSymbolPropertyKey entry.1)
    | .array ref =>
      .ok ((store.arrayAt ref).zipIdx.map fun (item, index) => (toString index, item))
    | .typedArray ref =>
      match store.typedArrays[ref]? with
      | none => .ok []
      | some array => do
        let _ ← store.typedElement ref none
        (List.range array.length).mapM fun index => do
          let value ← store.typedElement ref (some index)
          return (toString index, value)
    | .proxy proxy =>
      match store.proxies[proxy]? with
      | some (target, _) => store.ownPropertiesFrom fuel target
      | none => .ok []
    | _ => .ok []

/-- Proxies are older than the values that wrap them, so their number bounds the chain. -/
def ownProperties (value : JsvValue) : Eval (List (String × JsvValue)) :=
  tryStore fun store => (store.ownPropertiesFrom (store.proxies.length + 1) value, store)

end GhitaBrowser.Js
