import GhitaBrowser.Js.Engine

/-!
# The globals of a new engine

`install_globals`, the capabilities `execute_with_host` adds, and `NoHost`, the host
of a script that runs without a browser.
-/

namespace GhitaBrowser.Js

namespace Store

def setGlobal (name : String) (value : JsvValue) (store : Store) : Store :=
  match assignExistingFrom name value store.environments.length 0 store with
  | (.ok true, store) => store
  | _ => store.insertBinding 0 name ⟨value, true⟩

def setGlobals (entries : List (String × JsvValue)) (store : Store) : Store :=
  entries.foldl (fun store entry => store.setGlobal entry.1 entry.2) store

/-- A global object with these properties. -/
def setNamespace (name : String) (properties : Properties JsvValue) (store : Store) : Store :=
  let (value, store) := store.objectValue properties
  store.setGlobal name value

end Store

/-- Native functions under their own names. -/
def natives (names : List String) : List (String × JsvValue) :=
  names.map fun name => (name, .nativeFn name)

/-- The native functions of a namespace. -/
def members (family : String) (names : List String) : Properties JsvValue :=
  names.map fun name => (name, .nativeFn (family ++ "." ++ name))

def mathConstants : Properties JsvValue :=
  [("PI", .number 3.141592653589793), ("E", .number 2.718281828459045),
    ("LN2", .number 0.6931471805599453), ("LN10", .number 2.302585092994046),
    ("LOG2E", .number 1.4426950408889634), ("LOG10E", .number 0.4342944819032518),
    ("SQRT2", .number 1.4142135623730951), ("SQRT1_2", .number 0.7071067811865476),
    ("MAX_VALUE", .number 1.7976931348623157e308), ("MIN_VALUE", .number 5e-324)]

def mathMembers : List String :=
  ["abs", "ceil", "floor", "round", "sqrt", "random", "max", "min", "pow", "exp", "expm1", "log",
    "log2", "log10", "log1p", "sign", "trunc", "cbrt", "hypot", "sin", "cos", "tan", "asin",
    "acos", "atan", "atan2", "imul", "fround", "clz32"]

def objectMembers : List String :=
  ["create", "keys", "values", "entries", "assign", "freeze", "isFrozen", "getOwnPropertyNames",
    "getOwnPropertySymbols", "hasOwn", "defineProperty", "getPrototypeOf", "setPrototypeOf",
    "fromEntries"]

def wellKnownSymbols : List String :=
  ["iterator", "asyncIterator", "toStringTag", "hasInstance", "species", "isConcatSpreadable",
    "toPrimitive", "match", "replace", "search", "split", "unscopables"]

def reflectMembers : List String :=
  ["get", "set", "has", "deleteProperty", "ownKeys", "construct", "apply", "getPrototypeOf",
    "setPrototypeOf", "defineProperty", "isExtensible", "preventExtensions",
    "getOwnPropertyDescriptor"]

def coreFunctions : List String :=
  ["parseInt", "parseFloat", "isNaN", "isFinite", "encodeURIComponent", "decodeURIComponent",
    "String", "Number", "Boolean", "eval", "Function", "structuredClone"]

def globalConstants : List (String × JsvValue) :=
  [("undefined", .undefined), ("null", .null), ("true", .boolean true), ("false", .boolean false),
    ("NaN", .number notANumber), ("Infinity", .number (1.0 / 0.0))]

def sandboxedTimers : List String := ["setTimeout", "setInterval", "clearTimeout", "clearInterval"]

def sandboxedMembers : List String :=
  ["document.write", "document.writeln", "document.getElementById", "document.createElement",
    "window.alert", "window.confirm", "window.prompt", "window.open", "window.location",
    "window.history", "window.navigator", "window.frames", "window.parent", "window.top",
    "window.opener", "window.crypto", "window.localStorage", "window.sessionStorage",
    "window.XMLHttpRequest", "window.fetch", "window.requestAnimationFrame",
    "window.cancelAnimationFrame"]

/-- A name that answers calls with an error. -/
def sandboxed (names : List String) : List (String × JsvValue) :=
  names.map fun name => (name, .nativeFn ("[SANDBOXED] " ++ name ++ " is disabled"))

/-- The symbols of `Symbol`, each with an identity of its own. -/
def Store.wellKnown (store : Store) : Properties JsvValue × Store :=
  let symbols := (wellKnownSymbols.zipIdx store.nextId).map fun (name, id) =>
    (name, JsvValue.symbol name id)
  (symbols, { store with nextId := store.nextId + wellKnownSymbols.length })

def installGlobals (store : Store) : Store :=
  let (symbols, store) := store.wellKnown
  let consoleNames := ["log", "warn", "error", "info", "debug"]
  store
    |>.setNamespace "console" (members "console" consoleNames)
    |>.setGlobals (natives (consoleNames.map fun name => "console." ++ name))
    |>.setNamespace "Math" (mathConstants ++ members "Math" mathMembers)
    |>.setNamespace "Date" (members "Date" ["now", "parse", "UTC"])
    |>.setGlobals (natives ["Date.now", "Date.parse"])
    |>.setNamespace "Object" (members "Object" objectMembers)
    |>.setNamespace "Array" (members "Array" ["isArray", "from", "of"])
    |>.setNamespace "JSON" (members "JSON" ["stringify", "parse"])
    |>.setNamespace "Promise"
      (members "Promise" ["resolve", "reject", "all", "race", "allSettled", "any"])
    |>.setNamespace "Symbol" (symbols ++ members "Symbol" ["for", "keyFor"])
    |>.setGlobals (natives ["Map", "Set", "WeakMap", "WeakSet", "ArrayBuffer", "DataView"])
    |>.setGlobals (natives typedArrayNames)
    |>.setNamespace "Reflect" (members "Reflect" reflectMembers)
    |>.setGlobals (natives ["Proxy"])
    |>.setNamespace "Intl"
      (members "Intl" ["DateTimeFormat", "NumberFormat", "Collator", "PluralRules"])
    |>.setGlobals (natives ["WeakRef", "FinalizationRegistry"])
    |>.setGlobals (natives errorConstructors)
    |>.setGlobals (natives coreFunctions)
    |>.setGlobals globalConstants
    |>.setNamespace "document" []
    |>.setNamespace "window" []
    |>.setNamespace "self" []
    |>.setNamespace "globalThis" []
    |>.setGlobals (sandboxed sandboxedTimers)
    |>.setGlobals (sandboxed sandboxedMembers)

/-- The store of `JsvEngine::new`. -/
def Store.new : Store := installGlobals Store.empty

def hostDocument : Nat := 1

def hostObjects : List (String × Nat) :=
  [("document", hostDocument), ("window", hostWindow), ("self", hostWindow),
    ("globalThis", hostWindow), ("localStorage", 3), ("indexedDB", 8), ("caches", 9),
    ("navigator", 10), ("location", 5), ("history", 4), ("customElements", 12), ("crypto", 13),
    ("performance", 14), ("CSS", 15)]

def hostFunctions : List String :=
  ["fetch", "MediaSource", "WebSocket", "EventSource", "BroadcastChannel", "structuredClone",
    "MutationObserver", "ResizeObserver", "IntersectionObserver", "ReadableStream"] ++
  sandboxedTimers ++ ["Event", "CustomEvent", "FormData"] ++
  ["requestAnimationFrame", "cancelAnimationFrame", "matchMedia"]

/-- The bindings `execute_with_host` installs before it evaluates. -/
def installHost (store : Store) : Store :=
  let objects := hostObjects.map fun entry => (entry.1, JsvValue.hostObject entry.2)
  let functions := hostFunctions.map fun name => (name, JsvValue.hostFunction hostWindow name)
  (objects ++ functions).foldl (fun store entry => store.define ⟨0⟩ entry.1 entry.2) store

/-- A release build, for runs that format no number and call no leaf built-in. -/
@[reducible] def releaseBuild : Platform where
  debugAssertions := false
  formatNumber _ := ""
  parseNumber _ := none
  parseHex _ := none
  trim text := text
  remainder left _ := left
  elementRead _ _ _ := .error ""
  elementWrite _ bytes _ _ := bytes
  keyOrder properties := properties
  keyOrder_perm properties := .refl properties
  leafNative _ _ store := (.ok .undefined, store)
  stringMethod _ _ _ store := (.ok .undefined, store)
  parseModule _ := .error ""
  promiseAddress promise := promise

/-- `NoHost`. -/
instance : JsvHost Unit where
  getProperty _ property view :=
    (.error ("SecurityError: host property '" ++ property ++
      "' is unavailable in this Realm"), view)
  setProperty _ property _ view :=
    (.error ("SecurityError: host property '" ++ property ++
      "' is unavailable in this Realm"), view)
  call _ method _ view :=
    (.error ("SecurityError: host method '" ++ method ++
      "' is unavailable in this Realm"), view)

end GhitaBrowser.Js
