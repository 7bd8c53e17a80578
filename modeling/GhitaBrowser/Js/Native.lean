import GhitaBrowser.Js.Promise

/-!
# Built-in functions

`call_native_fn` and `call_bound_native`. Built-ins that call back into scripts
(`forEach`, the collection constructors, `Reflect.apply`, `Reflect.construct`) and
those that touch promises are programs; those that only compute with their
arguments and the store are store operations, and the leaves among them (`Math`,
`JSON`, dates, number parsing, string methods) come from the platform.
-/

namespace GhitaBrowser.Js

variable [Platform]

/-! ## Console -/

def maxConsoleLines : Nat := 500
def maxConsoleLineBytes : Nat := 16 * 1024
def maxConsoleBytes : Nat := 1024 * 1024

/-- The longest prefix of at most `budget` bytes. -/
def takeBytes : Nat → List Char → List Char
  | _, [] => []
  | budget, c :: rest =>
    if c.utf8Size ≤ budget then c :: takeBytes (budget - c.utf8Size) rest else []

/-- Drop the oldest lines until both console limits hold. -/
def retainedLines : List String → List String
  | [] => []
  | line :: lines =>
    if (line :: lines).length > maxConsoleLines ||
        ((line :: lines).map String.utf8ByteSize).sum > maxConsoleBytes then
      retainedLines lines
    else line :: lines

def pushConsole (console : List String) (line : String) : List String :=
  let line :=
    if line.utf8ByteSize > maxConsoleLineBytes then
      String.ofList (takeBytes maxConsoleLineBytes line.toList) ++ "…"
    else line
  retainedLines (console ++ [line])

/-- The console methods print their arguments behind a label. -/
def consoleWrite (label : String) (args : List JsvValue) : Eval JsvValue := do
  modifyStore fun store =>
    let line := label ++ " ".intercalate (args.map store.display)
    { store with console := pushConsole store.console line }
  return .undefined

/-! ## Collections -/

def weakKeyOf : JsvValue → Option JsvWeakKey
  | .object ref => some (.object ref)
  | .array ref => some (.array ref)
  | .promise ref => some (.promise ref)
  | .hostObject object => some (.host object)
  | _ => none

/-- Set the value of a key, in place when it is there. `none` past the entry budget. -/
def insertEntry {κ : Type} (same : κ → κ → Bool) (key : κ) (value : JsvValue)
    (entries : List (κ × JsvValue)) : Option (List (κ × JsvValue)) :=
  match entries.findIdx? fun entry => same entry.1 key with
  | some index => some (entries.modify index fun entry => (entry.1, value))
  | none => if entries.length ≥ maxCollectionEntries then none else some (entries ++ [(key, value)])

/-- Add a member once. `none` past the entry budget. -/
def insertMember {κ : Type} (same : κ → κ → Bool) (value : κ) (values : List κ) :
    Option (List κ) :=
  if values.any fun existing => same existing value then some values
  else if values.length ≥ maxCollectionEntries then none
  else some (values ++ [value])

def removeFirst {κ : Type} (matching : κ → Bool) (values : List κ) : Option (List κ) :=
  (values.findIdx? matching).map values.eraseIdx

/-- The items a collection constructor is given; none for a missing or nullish argument. -/
def constructorItems (args : List JsvValue) : Eval (List JsvValue) :=
  match args.head? with
  | none | some .undefined | some .null => return []
  | some iterable => iterateValues iterable

/-- Key and value of an entry given to `Map` or `WeakMap`. -/
def Store.pairOf (store : Store) (family : String) : JsvValue → Except String (JsvValue × JsvValue)
  | .array ref =>
    let pair := store.arrayAt ref
    .ok (pair[0]?.getD .undefined, pair[1]?.getD .undefined)
  | _ => .error ("TypeError: " ++ family ++ " iterable values must be key/value pairs")

def mapConstructor (args : List JsvValue) : Eval JsvValue := do
  let items ← constructorItems args
  tryStore fun store =>
    let entries : Except String (List (JsvValue × JsvValue)) := items.foldlM (fun entries item => do
      let (key, value) ← store.pairOf "Map" item
      match insertEntry sameValueZero key value entries with
      | some entries => .ok entries
      | none => .error "RangeError: Map entry budget exceeded") []
    match entries with
    | .error error => (.error error, store)
    | .ok entries => (.ok (.map store.maps.length), { store with maps := store.maps ++ [entries] })

def setConstructor (args : List JsvValue) : Eval JsvValue := do
  let items ← constructorItems args
  tryStore fun store =>
    let values : Except String (List JsvValue) := items.foldlM (fun values item =>
      match insertMember sameValueZero item values with
      | some values => .ok values
      | none => .error "RangeError: Set entry budget exceeded") []
    match values with
    | .error error => (.error error, store)
    | .ok values => (.ok (.set store.sets.length), { store with sets := store.sets ++ [values] })

def weakMapConstructor (args : List JsvValue) : Eval JsvValue := do
  let items ← constructorItems args
  tryStore fun store =>
    let entries : Except String (List (JsvWeakKey × JsvValue)) :=
      items.foldlM (fun entries item => do
        let (key, value) ← store.pairOf "WeakMap" item
        match weakKeyOf key with
        | none => .error "TypeError: WeakMap key must be an object"
        | some key =>
          match insertEntry (· == ·) key value entries with
          | some entries => .ok entries
          | none => .error "RangeError: WeakMap entry budget exceeded") []
    match entries with
    | .error error => (.error error, store)
    | .ok entries =>
      (.ok (.weakMap store.weakMaps.length), { store with weakMaps := store.weakMaps ++ [entries] })

def weakSetConstructor (args : List JsvValue) : Eval JsvValue := do
  let items ← constructorItems args
  tryStore fun store =>
    let keys : Except String (List JsvWeakKey) := items.foldlM (fun keys item =>
      match weakKeyOf item with
      | none => .error "TypeError: WeakSet value must be an object"
      | some key =>
        match insertMember (· == ·) key keys with
        | some keys => .ok keys
        | none => .error "RangeError: WeakSet entry budget exceeded") []
    match keys with
    | .error error => (.error error, store)
    | .ok keys =>
      (.ok (.weakSet store.weakSets.length), { store with weakSets := store.weakSets ++ [keys] })

/-! ## Methods of the built-in kinds -/

def argument (args : List JsvValue) (index : Nat) : JsvValue := args[index]?.getD .undefined

def arrayMethod (name : String) (ref : Nat) (args : List JsvValue) : Eval JsvValue :=
  tryStore fun store =>
    let values := store.arrayAt ref
    match name with
    | "Array.push" =>
      if values.length + args.length > maxArrayElements then
        (.error "Array element budget exceeded", store)
      else (.ok (natNumber (values.length + args.length)), store.setArray ref (values ++ args))
    | "Array.pop" => (.ok (values.getLast?.getD .undefined), store.setArray ref values.dropLast)
    | "Array.shift" => (.ok (values.head?.getD .undefined), store.setArray ref values.tail)
    | "Array.unshift" =>
      if values.length + args.length > maxArrayElements then
        (.error "Array element budget exceeded", store)
      else (.ok (natNumber (values.length + args.length)), store.setArray ref (args ++ values))
    | _ => (.error ("TypeError: unsupported native method " ++ name), store)

def arrayJoin (ref : Nat) (args : List JsvValue) : Eval JsvValue := do
  let text ← readStore fun store =>
    let separator := (args.head?.map store.display).getD ","
    separator.intercalate ((store.arrayAt ref).map store.display)
  checkStringAlloc text.utf8ByteSize
  return .string text

/-- Call a callback with what `forEach` finds at each of the first `count` indices;
the collection may shrink meanwhile. -/
def forEachEntry (callback : JsvValue) (env : JsvEnvironment)
    (entry : Nat → Store → Option (List JsvValue)) : Nat → Nat → Eval JsvValue
  | 0, _ => return .undefined
  | count + 1, index => do
    match ← readStore (entry index) with
    | none => return .undefined
    | some args => do
      let called ← callFunction callback args env .undefined
      let _ ← callResultValue called
      forEachEntry callback env entry count (index + 1)

def Store.mapAt (store : Store) (ref : Nat) : List (JsvValue × JsvValue) :=
  store.maps[ref]?.getD []

def Store.setAt (store : Store) (ref : Nat) : List JsvValue := store.sets[ref]?.getD []

def mapForEach (ref : Nat) (args : List JsvValue) (env : JsvEnvironment) : Eval JsvValue := do
  let callback := argument args 0
  if !isCallable callback then fail "TypeError: Map.forEach callback must be callable"
  else do
    let count ← readStore fun store => (store.mapAt ref).length
    forEachEntry callback env (fun index store =>
      (store.mapAt ref)[index]?.map fun entry => [entry.2, entry.1, .map ref]) count 0

def setForEach (ref : Nat) (args : List JsvValue) (env : JsvEnvironment) : Eval JsvValue := do
  let callback := argument args 0
  if !isCallable callback then fail "TypeError: Set.forEach callback must be callable"
  else do
    let count ← readStore fun store => (store.setAt ref).length
    forEachEntry callback env (fun index store =>
      (store.setAt ref)[index]?.map fun value => [value, value, .set ref]) count 0

def mapMethod (name : String) (ref : Nat) (args : List JsvValue) (env : JsvEnvironment) :
    Eval JsvValue :=
  let key := argument args 0
  let write (entries : List (JsvValue × JsvValue)) (store : Store) : Store :=
    { store with maps := store.maps.set ref entries }
  let find (store : Store) : Option (JsvValue × JsvValue) :=
    (store.mapAt ref).find? fun entry => sameValueZero entry.1 key
  match name with
  | "Map.get" => readStore fun store => ((find store).map Prod.snd).getD .undefined
  | "Map.set" => tryStore fun store =>
    match insertEntry sameValueZero key (argument args 1) (store.mapAt ref) with
    | some entries => (.ok (.map ref), write entries store)
    | none => (.error "RangeError: Map entry budget exceeded", store)
  | "Map.has" => readStore fun store => .boolean (find store).isSome
  | "Map.delete" => updateStore fun store =>
    match removeFirst (fun entry => sameValueZero entry.1 key) (store.mapAt ref) with
    | some entries => (.boolean true, write entries store)
    | none => (.boolean false, store)
  | "Map.clear" => updateStore fun store => (.undefined, write [] store)
  | "Map.keys" => collectionIterator (.map ref) .map 1
  | "Map.values" => collectionIterator (.map ref) .map 2
  | "Map.entries" => collectionIterator (.map ref) .map 0
  | "Map.forEach" => mapForEach ref args env
  | _ => fail ("TypeError: unsupported native method " ++ name)

def setMethod (name : String) (ref : Nat) (args : List JsvValue) (env : JsvEnvironment) :
    Eval JsvValue :=
  let value := argument args 0
  let write (values : List JsvValue) (store : Store) : Store :=
    { store with sets := store.sets.set ref values }
  match name with
  | "Set.add" => tryStore fun store =>
    match insertMember sameValueZero value (store.setAt ref) with
    | some values => (.ok (.set ref), write values store)
    | none => (.error "RangeError: Set entry budget exceeded", store)
  | "Set.has" => readStore fun store =>
    .boolean ((store.setAt ref).any fun existing => sameValueZero existing value)
  | "Set.delete" => updateStore fun store =>
    match removeFirst (fun existing => sameValueZero existing value) (store.setAt ref) with
    | some values => (.boolean true, write values store)
    | none => (.boolean false, store)
  | "Set.clear" => updateStore fun store => (.undefined, write [] store)
  | "Set.keys" | "Set.values" => collectionIterator (.set ref) .set 0
  | "Set.entries" => collectionIterator (.set ref) .set 1
  | "Set.forEach" => setForEach ref args env
  | _ => fail ("TypeError: unsupported native method " ++ name)

/-- Weakly held keys stay live as long as they can be asked for. -/
def weakMapMethod (name : String) (ref : Nat) (args : List JsvValue) : Eval JsvValue :=
  tryStore fun store =>
    let entries := store.weakMaps[ref]?.getD []
    let write (entries : List (JsvWeakKey × JsvValue)) : Store :=
      { store with weakMaps := store.weakMaps.set ref entries }
    match weakKeyOf (argument args 0), name with
    | none, "WeakMap.get" => (.ok .undefined, store)
    | none, "WeakMap.has" | none, "WeakMap.delete" => (.ok (.boolean false), store)
    | none, _ => (.error "TypeError: WeakMap key must be an object", store)
    | some key, "WeakMap.get" =>
      (.ok (((entries.find? fun entry => entry.1 == key).map Prod.snd).getD .undefined), store)
    | some key, "WeakMap.has" => (.ok (.boolean (entries.any fun entry => entry.1 == key)), store)
    | some key, "WeakMap.delete" =>
      match removeFirst (fun entry => entry.1 == key) entries with
      | some entries => (.ok (.boolean true), write entries)
      | none => (.ok (.boolean false), store)
    | some key, "WeakMap.set" =>
      match insertEntry (· == ·) key (argument args 1) entries with
      | some entries => (.ok (.weakMap ref), write entries)
      | none => (.error "RangeError: WeakMap entry budget exceeded", store)
    | some _, name => (.error ("TypeError: unsupported native method " ++ name), store)

def weakSetMethod (name : String) (ref : Nat) (args : List JsvValue) : Eval JsvValue :=
  tryStore fun store =>
    let keys := store.weakSets[ref]?.getD []
    let write (keys : List JsvWeakKey) : Store :=
      { store with weakSets := store.weakSets.set ref keys }
    match weakKeyOf (argument args 0), name with
    | none, _ => (.error "TypeError: WeakSet value must be an object", store)
    | some key, "WeakSet.has" => (.ok (.boolean (keys.contains key)), store)
    | some key, "WeakSet.delete" =>
      match removeFirst (· == key) keys with
      | some keys => (.ok (.boolean true), write keys)
      | none => (.ok (.boolean false), store)
    | some key, "WeakSet.add" =>
      match insertMember (· == ·) key keys with
      | some keys => (.ok (.weakSet ref), write keys)
      | none => (.error "RangeError: WeakSet entry budget exceeded", store)
    | some _, name => (.error ("TypeError: unsupported native method " ++ name), store)

/-- `call_bound_native`. The methods of a kind reject the names they do not know with
the text of the last arm. -/
def callBoundNative (name : String) (receiver : JsvValue) (args : List JsvValue)
    (env : JsvEnvironment) : Eval JsvValue :=
  match name, receiver with
  | "WeakRef.deref", target => return target
  | "Array.join", .array ref => arrayJoin ref args
  | name, .array ref => arrayMethod name ref args
  | name, .map ref => mapMethod name ref args env
  | name, .set ref => setMethod name ref args env
  | name, .weakMap ref => weakMapMethod name ref args
  | name, .weakSet ref => weakSetMethod name ref args
  | "Promise.then", .promise promise | "Promise.catch", .promise promise
  | "Promise.finally", .promise promise => promiseMethod name promise args
  | name, .string text =>
    if stringMethods.any fun method => "String." ++ method == name then
      tryStore (Platform.stringMethod name text args)
    else fail ("TypeError: unsupported native method " ++ name)
  | name, _ => fail ("TypeError: unsupported native method " ++ name)

/-! ## Global functions -/

/-- `is_sandboxed_function`. -/
def sandboxedFunctions : List String :=
  ["eval", "Function", "setTimeout", "setInterval", "clearTimeout", "clearInterval",
    "document.write", "document.writeln", "document.getElementById", "document.createElement",
    "window.alert", "window.confirm", "window.prompt", "window.open", "window.location"] ++
  ["window.history", "window.navigator", "window.frames", "window.parent", "window.top",
    "window.opener", "window.crypto", "window.localStorage", "window.sessionStorage",
    "window.XMLHttpRequest", "window.fetch", "window.requestAnimationFrame",
    "window.cancelAnimationFrame", "globalThis", "window", "document", "self"]

def isSandboxedFunction (name : String) : Bool := sandboxedFunctions.contains name

def errorConstructors : List String :=
  ["Error", "TypeError", "RangeError", "ReferenceError", "SyntaxError", "EvalError", "URIError"]

/-- Built-ins that compute a value and call nothing. -/
def leafNatives : List String :=
  ["parseInt", "parseFloat", "Math.abs", "Math.ceil", "Math.floor", "Math.round", "Math.sqrt",
    "Math.random", "Date.now", "Date.parse", "JSON.stringify", "JSON.parse",
    "DateTimeFormat.format", "NumberFormat.format"]

def promiseNatives : List String :=
  ["Promise.resolve", "Promise.reject", "Promise.all", "Promise.race", "Promise.allSettled",
    "Promise.any"]

/-- The object argument of `Reflect.*`, and the text of its key argument. -/
def reflectTarget (name : String) (args : List JsvValue) (store : Store) :
    Except String (Nat × String) :=
  match args.head? with
  | none => .error ("TypeError: " ++ name ++ " requires a target")
  | some (.object ref) => .ok (ref, (args[1]?.map store.display).getD "")
  | some _ => .error ("TypeError: " ++ name ++ " target must be an object")

def isNonExtensible (properties : Properties JsvValue) : Bool :=
  match properties.get "__ghita_non_extensible" with
  | some (.boolean true) => true
  | _ => false

/-- The `Reflect` functions on plain objects. -/
def reflectObject (name : String) (args : List JsvValue) : Eval JsvValue :=
  tryStore fun store =>
    match reflectTarget name args store with
    | .error error => (.error error, store)
    | .ok (ref, key) =>
      let properties := store.propertiesAt ref
      match name with
      | "Reflect.get" => (.ok ((properties.get key).getD .undefined), store)
      | "Reflect.set" =>
        if isNonExtensible properties && !properties.contains key then
          (.ok (.boolean false), store)
        else (.ok (.boolean true), store.setProperty ref key (argument args 2))
      | "Reflect.has" => (.ok (.boolean (properties.contains key)), store)
      | "Reflect.deleteProperty" =>
        (.ok (.boolean true), store.modifyObject ref fun object =>
          { object with properties := object.properties.remove key })
      | "Reflect.ownKeys" =>
        let (keys, store) := store.allocArray
          ((Platform.keyOrder properties).map fun entry => .string entry.1)
        (.ok keys, store)
      | "Reflect.isExtensible" => (.ok (.boolean !isNonExtensible properties), store)
      | _ =>
        (.ok (.boolean true), store.setProperty ref "__ghita_non_extensible" (.boolean true))

def reflectNatives : List String :=
  ["Reflect.get", "Reflect.set", "Reflect.has", "Reflect.deleteProperty", "Reflect.ownKeys",
    "Reflect.isExtensible", "Reflect.preventExtensions"]

/-- The array of arguments `Reflect.apply` and `Reflect.construct` are given. -/
def argumentArray (name : String) : Option JsvValue → Eval (List JsvValue)
  | some (.array ref) => readStore fun store => store.arrayAt ref
  | _ => fail ("TypeError: " ++ name ++ " arguments must be an array")

/-- An object with the brand its methods are found by. -/
def brandedObject (brand : String) (properties : Properties JsvValue) : Eval JsvValue :=
  objectValue (properties ++ [("__ghita_native_brand", .string brand)])

def objectCreate (args : List JsvValue) : Eval JsvValue :=
  match args.head? with
  | some (.object ref) => updateStore (Store.allocObject ⟨[], some ref, [], []⟩)
  | some .null | none => objectValue []
  | _ => fail "TypeError: Object prototype must be an object or null"

def objectKeys (args : List JsvValue) : Eval JsvValue :=
  match args.head? with
  | some (.object ref) => do
    let keys ← readStore fun store =>
      ((store.propertiesAt ref).keys.filter fun key => !isSymbolPropertyKey key).mergeSort
    arrayValue (keys.map .string)
  | _ => fail "TypeError: Object.keys requires an object"

/-- `call_native_fn`; `construct` is `invoke_new`, which `Reflect.construct` calls. -/
def callNativeFn (construct : JsvValue → List JsvValue → JsvEnvironment → Eval JsvValue)
    (name : String) (args : List JsvValue) (env : JsvEnvironment) : Eval JsvValue :=
  if isSandboxedFunction name then
    fail ("SecurityError: " ++ name ++ " is not available in sandboxed JavaScript environment")
  else if leafNatives.contains name then tryStore (Platform.leafNative name args)
  else if promiseNatives.contains name then promiseNative name args
  else if reflectNatives.contains name then reflectObject name args
  else if errorConstructors.contains name then
    updateStore fun store =>
      store.errorValue name ((args.head?.map store.display).getD "")
  else
    match name with
    | "console.log" | "print" => consoleWrite "" args
    | "console.warn" => consoleWrite "WARN: " args
    | "console.error" => consoleWrite "ERROR: " args
    | "String" => readStore fun store => .string ((args.head?.map store.display).getD "")
    | "Number" => return .number ((args.head?.map toNumber).getD 0.0)
    | "Object.create" => objectCreate args
    | "Object.keys" => objectKeys args
    | "Array.isArray" => return .boolean ((args.head?.getD .undefined) matches .array _)
    | "Map" => mapConstructor args
    | "Set" => setConstructor args
    | "WeakMap" => weakMapConstructor args
    | "WeakSet" => weakSetConstructor args
    | "Reflect.apply" =>
      match args.head? with
      | none => fail "TypeError: Reflect.apply requires a target"
      | some target => do
        let callArgs ← argumentArray name args[2]?
        let called ← callFunction target callArgs env (argument args 1)
        callResultValue called
    | "Reflect.construct" =>
      match args.head? with
      | none => fail "TypeError: Reflect.construct requires a target"
      | some target => do
        let constructArgs ← argumentArray name args[1]?
        construct target constructArgs env
    | "Reflect.defineProperty" | "Reflect.getOwnPropertyDescriptor" | "Reflect.getPrototypeOf"
    | "Reflect.setPrototypeOf" => return .boolean true
    | "WeakRef" =>
      if (weakKeyOf (argument args 0)).isNone then
        fail "TypeError: WeakRef target must be an object"
      else brandedObject "WeakRef" [("deref_target", argument args 0)]
    | "WeakRef.deref" => readStoreChecked args
    | "FinalizationRegistry" =>
      if !isCallable (argument args 0) then
        fail "TypeError: FinalizationRegistry callback must be callable"
      else brandedObject "FinalizationRegistry" [("callback", argument args 0)]
    | "FinalizationRegistry.register" | "FinalizationRegistry.unregister" => return .undefined
    | "Intl.DateTimeFormat" =>
      brandedObject "DateTimeFormat" [("locale", .string "en-US"), ("type", .string "DateTimeFormat")]
    | "Intl.NumberFormat" =>
      brandedObject "NumberFormat" [("locale", .string "en-US"), ("type", .string "NumberFormat")]
    | "Intl.Collator" | "Intl.PluralRules" => objectValue []
    | name => fail ("ReferenceError: " ++ name ++ " is not defined")
where
  readStoreChecked (args : List JsvValue) : Eval JsvValue :=
    match args.head? with
    | none => fail "TypeError: WeakRef.deref requires receiver"
    | some (.object ref) => tryStore fun store =>
      let properties := store.propertiesAt ref
      if (properties.get "__ghita_native_brand").bind JsvValue.asString = some "WeakRef" then
        (.ok ((properties.get "deref_target").getD .undefined), store)
      else (.error "TypeError: WeakRef.deref called on incompatible receiver", store)
    | some _ => fail "TypeError: WeakRef.deref called on incompatible receiver"

end GhitaBrowser.Js
