import GhitaBrowser.Js.Property

/-!
# Iteration and binding

The built-in iterators, draining one into a list, and binding patterns and
parameters to values.
-/

namespace GhitaBrowser.Js

variable [Platform]

def iteratorFrom (value : JsvValue) : Eval Nat := do
  match value with
  | .array _ => newIterator .array none none
  | .string _ => newIterator .string none none
  | .map _ => newIterator .map (some value) none
  | .set _ => newIterator .set (some value) none
  | .typedArray _ => newIterator .typedArray none none
  | .generatorObject generator => newIterator .generator none (some generator)
  | .iterator ref => return ref
  | .object _ =>
    fail "TypeError: value is not iterable (no [Symbol.iterator] on plain objects)"
  | other => fail ("TypeError: " ++ (← display other) ++ " is not iterable")
where
  newIterator (kind : IteratorKind) (snapshot : Option JsvValue) (generator : Option Nat) :
      Eval Nat :=
    updateStore (Store.allocIterator ⟨kind, value, 0, snapshot, 0, generator⟩)

def collectionIterator (source : JsvValue) (kind : IteratorKind) (column : Nat) :
    Eval JsvValue := do
  let ref ← updateStore (Store.allocIterator ⟨kind, source, 0, some source, column, none⟩)
  return .iterator ref

/-- The item under the index of an iterator that is not a generator, `none` at its end. -/
def Store.iteratorItem (store : Store) (state : JsvIteratorState) :
    Except String (Option JsvValue × Store) :=
  match state.kind, state.source, state.snapshot with
  | .array, .array ref, _ => .ok ((store.arrayAt ref)[state.index]?, store)
  | .string, .string text, _ =>
    .ok (text.toList[state.index]?.map fun c => .string c.toString, store)
  | .map, _, some (.map ref) =>
    match (store.maps[ref]?.getD [])[state.index]? with
    | none => .ok (none, store)
    | some (key, value) =>
      match state.column with
      | 0 =>
        let (pair, store) := store.allocArray [key, value]
        .ok (some pair, store)
      | 1 => .ok (some key, store)
      | _ => .ok (some value, store)
  | .set, _, some (.set ref) =>
    match (store.sets[ref]?.getD [])[state.index]? with
    | none => .ok (none, store)
    | some value =>
      if state.column == 1 then
        let (pair, store) := store.allocArray [value, value]
        .ok (some pair, store)
      else .ok (some value, store)
  | .typedArray, .typedArray ref, _ =>
    let length := (store.typedArrays[ref]?.map JsvTypedArray.length).getD 0
    match store.typedElement ref (some state.index) with
    | .error error => .error error
    | .ok value => .ok (if state.index < length then some value else none, store)
  | .map, _, _ => .error "InvalidStateError: Map iterator source changed"
  | .set, _, _ => .error "InvalidStateError: Set iterator source changed"
  | .keys, _, _ | .values, _, _ | .entries, _, _ =>
    .error "InvalidStateError: collection column iterators require source"
  | _, _, _ => .error "InvalidStateError: iterator source changed"

/-- Take the next item and move the index. -/
def Store.advanceIterator (iterator : Nat) (store : Store) :
    Except String (Bool × JsvValue) × Store :=
  match store.iterators[iterator]? with
  | none => (.error "InvalidStateError: iterator source changed", store)
  | some state =>
    match store.iteratorItem state with
    | .error error => (.error error, store)
    | .ok (none, store) => (.ok (true, .undefined), store)
    | .ok (some item, store) =>
      (.ok (false, item), { store with iterators := store.iterators.modify iterator fun state =>
        { state with index := state.index + 1 } })

/-- `iterator_next`: `(done, value)`. -/
def iteratorNext (iterator : Nat) (argument : JsvValue) : Eval (Bool × JsvValue) := do
  let state ← readStore fun store => store.iterators[iterator]?
  match state.map JsvIteratorState.kind, state.bind JsvIteratorState.generator with
  | some .generator, some generator => generatorNext generator argument
  | some .generator, none =>
    fail "InvalidStateError: generator iterator lost its generator"
  | _, _ => tryStore (Store.advanceIterator iterator)

/-- The loop of `iterate_values`: `remaining` items may still be taken. -/
def drainIterator (iterator : Nat) : Nat → List JsvValue → Eval (List JsvValue)
  | 0, out => do
    let (done, _) ← iteratorNext iterator .undefined
    if done then return out else fail "Iterator result budget exceeded"
  | remaining + 1, out => do
    let (done, item) ← iteratorNext iterator .undefined
    if done then return out else drainIterator iterator remaining (out ++ [item])

def iterateValues (value : JsvValue) : Eval (List JsvValue) := do
  let iterator ← iteratorFrom value
  drainIterator iterator maxIteratorResults []

/-! ## Patterns -/

mutual

def bindPatternImpl (env : JsvEnvironment) (isMutable allowRedeclare : Bool) :
    ParamPattern → JsvValue → Eval Unit
  | .identifier name, value => declare env name value isMutable allowRedeclare
  | .rest inner, value => bindPatternImpl env isMutable allowRedeclare inner value
  | .array elements rest, value => do
    let items ← iterateValues value
    bindElements env isMutable allowRedeclare elements items
    match rest with
    | none => pure ()
    | some rest => do
      let restValues ← arrayValue (items.drop elements.length)
      bindPatternImpl env isMutable allowRedeclare rest restValues
  | .object entries rest, value => do
    bindEntries env isMutable allowRedeclare entries value
    match rest with
    | none => pure ()
    | some rest => do
      let taken := entries.map Prod.fst
      let own ← ownProperties value
      let remaining ← objectValue (own.filter fun entry =>
        !taken.contains entry.1 && !isSymbolPropertyKey entry.1)
      bindPatternImpl env isMutable allowRedeclare rest remaining

/-- Missing items read as `undefined`. -/
def bindElements (env : JsvEnvironment) (isMutable allowRedeclare : Bool) :
    List ParamPattern → List JsvValue → Eval Unit
  | [], _ => pure ()
  | element :: elements, items => do
    bindPatternImpl env isMutable allowRedeclare element (items.head?.getD .undefined)
    bindElements env isMutable allowRedeclare elements items.tail

def bindEntries (env : JsvEnvironment) (isMutable allowRedeclare : Bool) :
    List (String × ParamPattern) → JsvValue → Eval Unit
  | [], _ => pure ()
  | (key, pattern) :: entries, source => do
    let item ← readStore fun store => store.directPropertyRead key source
    bindPatternImpl env isMutable allowRedeclare pattern item
    bindEntries env isMutable allowRedeclare entries source

end

def bindPattern (pattern : ParamPattern) (value : JsvValue) (env : JsvEnvironment)
    (kind : DeclarationKind) : Eval Unit :=
  bindPatternImpl env (kind != .constKind) (kind == .varKind) pattern value

/-! ## Function environments -/

/-- `bind_params`; defaults are evaluated in the parameter scope. -/
def bindParams (env : JsvEnvironment) : List ParamBinding → List JsvValue → Nat → Eval Unit
  | [], _, _ => pure ()
  | param :: params, args, index => do
    match param.pattern with
    | .rest inner => do
      let remaining ← arrayValue args
      bindPatternImpl env true false inner remaining
      bindParams env params [] (index + 1)
    | pattern => do
      let provided := args.head?.getD .undefined
      let value ← match provided, param.default with
        | .undefined, some default => evalExpr index default env
        | provided, _ => pure provided
      bindPatternImpl env true false pattern value
      bindParams env params args.tail (index + 1)

def functionEnvironment (name : String) (params : List ParamBinding) (body : JsvExpr)
    (captured : JsvEnvironment) (args : List JsvValue) : Eval JsvEnvironment := do
  let env ← withParent captured
  if name != "" then define env name (.function name params body captured)
  match ← lookup captured "#classId" with
  | none => pure ()
  | some classId => do
    match classId with
    | .number id => define env "#classId" (.number id)
    | _ => pure ()
    match ← lookup captured "#superProto" with
    | some superProto => define env "#superProto" superProto
    | none => pure ()
    match ← lookup captured "#parentClass" with
    | some parentClass => define env "#parentClass" parentClass
    | none => pure ()
  bindParams env params args 0
  return env

end GhitaBrowser.Js
