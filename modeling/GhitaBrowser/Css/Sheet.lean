import GhitaBrowser.Css.Selector

/-!
# Style sheets

`parse_css_with_context` reads one item after another (a statement, a block at-rule or a
style rule) from a vector of characters. The bodies of the conditional at-rules and of the
layers are parsed as sheets of their own.
-/

namespace GhitaBrowser.Css

/-! ## Comments -/

inductive CommentScan where
  | plain
  | quoted (quote : Char)
  | comment

/-- The loop of `strip_css_comments`; the first `skip` characters have been read. -/
def stripFrom : Text → Nat → CommentScan → Text
  | [], _, _ => []
  | _ :: rest, skip + 1, scan => stripFrom rest skip scan
  | c :: rest, 0, .quoted quote =>
    match rest with
    | d :: _ =>
      if c == '\\' then c :: d :: stripFrom rest 1 (.quoted quote)
      else c :: stripFrom rest 0 (if c == quote then .plain else .quoted quote)
    | [] => [c]
  | c :: rest, 0, .plain =>
    if c == '"' || c == '\'' then c :: stripFrom rest 0 (.quoted c)
    else if c == '/' && rest.head? == some '*' then stripFrom rest 1 .comment
    else c :: stripFrom rest 0 .plain
  | c :: rest, 0, .comment =>
    if c == '*' && rest.head? == some '/' then stripFrom rest 1 .plain
    else stripFrom rest 0 .comment

def stripCssComments (css : Text) : Text := stripFrom css 0 .plain

/-! ## Conditions -/

/-- `str::parse::<f64>`, then what is below zero as zero, cast to `u32`. -/
class NumberLibrary where
  parseLength : Text → Option Nat

section

variable [NumberLibrary]

def parseMediaLength (value : Text) : Option Nat :=
  let value := Str.trim value
  NumberLibrary.parseLength (Str.trim ((Str.stripEnd "px".toList value).getD value))

/-- The comparison of a range, if it is one of the width. -/
def rangeMatches (compare : Nat → Bool) : Option (Text × Text) → Option Bool
  | none => none
  | some (left, right) =>
    match parseMediaLength right with
    | none => none
    | some value => if Str.trim left == "width".toList then some (compare value) else none

def mediaTermMatches (term : Text) (viewportWidth : Nat) : Outcome Bool :=
  let term := Str.trim term
  if Str.eqIgnoreCase term "all".toList || Str.eqIgnoreCase term "screen".toList then .ok true
  else if Str.startsWith ['('] term && Str.endsWith [')'] term then do
    let inner := Str.trim (← Str.sliceBytes term 1 (byteLen term - 1))
    match Str.stripStart "max-width:".toList inner with
    | some rest => return (parseMediaLength rest).any (viewportWidth ≤ ·)
    | none =>
      match Str.stripStart "min-width:".toList inner with
      | some rest => return (parseMediaLength rest).any (· ≤ viewportWidth)
      | none =>
        match rangeMatches (viewportWidth ≤ ·) (Str.splitOnce "<=".toList inner) with
        | some matched => return matched
        | none =>
          return (rangeMatches (· ≤ viewportWidth) (Str.splitOnce ">=".toList inner)).getD false
  else .ok false

def mediaPartMatches (part : Text) (viewportWidth : Nat) : Outcome Bool :=
  if part.isEmpty then .ok true
  else
    match Str.stripStart "not ".toList part with
    | some rest => do return !(← mediaTermMatches (Str.trim rest) viewportWidth)
    | none => mediaTermMatches part viewportWidth

/-- Every part between the words `and` must match. -/
def mediaPartsMatch (viewportWidth : Nat) : List Text → Outcome Bool
  | [] => .ok true
  | part :: parts => do
    let matched ← mediaPartMatches (Str.trim part) viewportWidth
    return (← mediaPartsMatch viewportWidth parts) && matched

def mediaAlternativesMatch (viewportWidth : Nat) : List Text → Outcome Bool
  | [] => .ok false
  | alternative :: alternatives => do
    let matched ← mediaPartsMatch viewportWidth (Str.split "and".toList alternative)
    return (← mediaAlternativesMatch viewportWidth alternatives) || matched

def mediaQueryMatches (condition : Text) (viewportWidth : Nat) : Outcome Bool :=
  mediaAlternativesMatch viewportWidth (condition.splitOn ',')

end

/-- The parts between the keyword outside of parentheses: where the part begins, where the
scan is, and the characters left, the first `skip` of which belong to a keyword. -/
def splitSupportsFrom (input keyword : Text) :
    Text → Nat → Nat → Nat → Nat → Outcome (List Text)
  | [], _, _, start, _ => do return [← Str.dropBytes input start]
  | c :: rest, skip + 1, depth, start, pos =>
    splitSupportsFrom input keyword rest skip depth start (pos + c.utf8Size)
  | c :: rest, 0, depth, start, pos =>
    if c == '(' then splitSupportsFrom input keyword rest 0 (depth + 1) start (pos + c.utf8Size)
    else if c == ')' then splitSupportsFrom input keyword rest 0 (depth - 1) start (pos + c.utf8Size)
    else if c == ' ' && depth == 0 && Str.startsWith keyword (Str.lowercase (c :: rest)) then do
      let part ← Str.sliceBytes input start pos
      let parts ← splitSupportsFrom input keyword rest (keyword.length - 1) depth
        (pos + byteLen keyword) (pos + c.utf8Size)
      return part :: parts
    else splitSupportsFrom input keyword rest 0 depth start (pos + c.utf8Size)

def splitSupportsTopLevel (input keyword : Text) : Outcome (List Text) :=
  splitSupportsFrom input keyword input 0 0 0 0

def supportedProperties : List String :=
  ["display", "position", "color", "background", "background-color", "width", "height", "min-width",
    "max-width", "margin", "padding", "border", "flex", "flex-direction", "grid",
    "grid-template-columns", "gap", "transform", "transition", "animation", "opacity", "overflow",
    "z-index"]

def isPropertyValueSupported (prop : Text) : Bool :=
  supportedProperties.any fun name => Str.lowercase prop == name.toList

/-- One leading `not `. -/
def stripNot : Nat × Text → Outcome ((Nat × Text) ⊕ (Nat × Text))
  | (negations, rest) =>
    if (Str.getTo rest 4).any (Str.eqIgnoreCase · "not ".toList) then do
      return .inl (negations + 1, Str.trimStart (← Str.dropBytes rest 4))
    else .ok (.inr (negations, rest))

/-- A condition in parentheses; anything else is taken to hold. -/
def supportsTermMatches (trimmed : Text) : Outcome Bool :=
  if Str.startsWith ['('] trimmed && Str.endsWith [')'] trimmed then do
    let inner := Str.trim (← Str.sliceBytes trimmed 1 (byteLen trimmed - 1))
    match Str.splitOnce [':'] inner with
    | some (prop, _) => return isPropertyValueSupported (Str.trim prop)
    | none =>
      match (Str.stripStart "selector(".toList inner).bind (Str.stripEnd [')']) with
      | some selector => return !(← parseSelectorList selector).isEmpty
      | none => return true
  else .ok true

/-- The first clause that decides: a true one of a disjunction, a false one of a conjunction. -/
def clausesMatch (supports : Text → Outcome Bool) (deciding : Bool) : List Text → Outcome Bool
  | [] => .ok !deciding
  | clause :: clauses => do
    let matched ← supports clause
    if matched == deciding then return deciding else clausesMatch supports deciding clauses

def maxMathDepth : Nat := 64

def supportsQueryMatchesBounded : Nat → Text → Outcome Bool
  | 0, _ => .ok false
  | levels + 1, condition =>
    let trimmed := Str.trim condition
    if trimmed.isEmpty then .ok true
    else do
      let (negations, rest) ← loop stripNot (trimmed.length + 1) (0, trimmed)
      if 0 < negations && !rest.isEmpty then do
        let inner ← supportsQueryMatchesBounded levels rest
        return if negations % 2 == 1 then !inner else inner
      else if Str.contains " or ".toList trimmed || Str.contains " OR ".toList trimmed then do
        clausesMatch (supportsQueryMatchesBounded levels) true
          (← splitSupportsTopLevel trimmed " or ".toList)
      else if Str.contains " and ".toList trimmed || Str.contains " AND ".toList trimmed then do
        clausesMatch (supportsQueryMatchesBounded levels) false
          (← splitSupportsTopLevel trimmed " and ".toList)
      else supportsTermMatches trimmed

def supportsQueryMatches (condition : Text) : Outcome Bool :=
  supportsQueryMatchesBounded (maxMathDepth + 1) (Str.trim condition)

/-! ## Declarations -/

inductive CssOrigin where
  | author
  | user
  | userAgent
deriving DecidableEq

structure Declaration where
  property : Text
  value : Text
  important : Bool
  origin : CssOrigin
  layer : Option Text
  layerOrder : Option Nat
  specificity : Specificity
  sourceOrder : Nat

structure CssRule where
  selectors : List Selector
  declarations : List Declaration
  specificity : Specificity
  origin : CssOrigin
  layer : Option Text
  layerOrder : Option Nat
  sourceOrder : Nat

def stripImportant (value : Text) : Outcome (Text × Bool) :=
  let trimmed := Str.trim value
  match Str.stripEnd "!important".toList (Str.lowercase trimmed) with
  | some kept => do return (Str.trimEnd (← takeBytes trimmed (byteLen kept)), true)
  | none => .ok (trimmed, false)

/-- A property with its value, and whether it is important. -/
structure RawDeclaration where
  property : Text
  value : Text
  important : Bool

/-- Steps over a text with strings and escapes, until `stop` holds of the depth and the next
character outside of strings. -/
def stepsOutside (stop : Nat → Char → Bool) (depthAfter : Nat → Char → Nat) :
    Text → Nat → Nat → Option Char → Nat
  | [], _, _, _ => 0
  | _ :: rest, skip + 1, depth, quote => stepsOutside stop depthAfter rest skip depth quote + 1
  | c :: rest, 0, depth, some quote =>
    if c == '\\' && !rest.isEmpty then stepsOutside stop depthAfter rest 1 depth (some quote) + 1
    else stepsOutside stop depthAfter rest 0 depth (if c == quote then none else some quote) + 1
  | c :: rest, 0, depth, none =>
    if stop depth c then 0
    else if c == '"' || c == '\'' then stepsOutside stop depthAfter rest 0 depth (some c) + 1
    else stepsOutside stop depthAfter rest 0 (depthAfter depth c) none + 1

def braceDepth (depth : Nat) (c : Char) : Nat :=
  if c == '{' then depth + 1 else if c == '}' then depth - 1 else depth

def parenDepth (depth : Nat) (c : Char) : Nat :=
  if c == '(' then depth + 1 else if c == ')' then depth - 1 else depth

def selectorEnd (chars : Text) (pos : Nat) : Nat :=
  pos + stepsOutside (fun depth c => c == '{' && depth == 0) braceDepth (chars.drop pos) 0 0 none

def valueEnd (chars : Text) (pos : Nat) : Nat :=
  pos + stepsOutside (fun depth c => (c == ';' && depth == 0) || c == '}') parenDepth
    (chars.drop pos) 0 0 none

/-- The end of a block that has been opened: behind its closing brace, or the end. -/
def blockEnd (chars : Text) (pos : Nat) : Nat :=
  pos + stepsOutside (fun depth _ => depth == 0) braceDepth (chars.drop pos) 0 1 none

def charAt (chars : Text) (pos : Nat) (c : Char) : Bool := chars[pos]? == some c

/-- The name of a property goes up to one of these. -/
def propertyChar (c : Char) : Bool := c != ':' && c != '}' && c != ';'

/-- One turn of the loop over the declarations of a rule. -/
def readDeclaration (chars : Text) :
    Nat × List RawDeclaration →
      Outcome ((Nat × List RawDeclaration) ⊕ (Nat × List RawDeclaration))
  | (pos, declarations) =>
    let start := skipWhile isWhitespace chars pos
    if chars.length ≤ pos || charAt chars pos '}' then .ok (.inr (pos, declarations))
    else if chars.length ≤ start || charAt chars start '}' then .ok (.inr (start, declarations))
    else
      let stop := skipWhile propertyChar chars start
      if !charAt chars stop ':' then
        .ok (.inl (if charAt chars stop ';' then stop + 1 else stop, declarations))
      else do
        let property := Str.lowercase (Str.trim (← slice chars start stop))
        let close := valueEnd chars (stop + 1)
        let value := Str.trim (← slice chars (stop + 1) close)
        let (value, important) ← stripImportant value
        let next := if charAt chars close ';' then close + 1 else close
        if !property.isEmpty && !value.isEmpty then
          return .inl (next, declarations ++ [{ property, value, important }])
        else return .inl (next, declarations)

def readDeclarations (chars : Text) (pos : Nat) : Outcome (Nat × List RawDeclaration) := do
  let (pos, declarations) ← loop (readDeclaration chars) (chars.length + 1) (pos, [])
  return (if charAt chars pos '}' then pos + 1 else pos, declarations)

/-! ## Items -/

inductive Item where
  /-- No item is left. -/
  | finished
  /-- An at-rule that ends with a semicolon. -/
  | statement (header : Text)
  /-- An at-rule with a block. -/
  | block (header body : Text)
  | rule (selector : Text) (declarations : List RawDeclaration)

def atHeaderEnd (chars : Text) (start : Nat) : Nat :=
  skipWhile (fun c => c != ';' && c != '{') chars start

def readAtRule (chars : Text) (start : Nat) : Outcome (Item × Nat) :=
  let stop := atHeaderEnd chars start
  match chars[stop]? with
  | none => .ok (.finished, stop)
  | some c => do
    let header := Str.trim (← slice chars start stop)
    if c == ';' then return (.statement header, stop + 1)
    else do
      let close := blockEnd chars (stop + 1)
      let body ← slice chars (stop + 1) (close - 1)
      return (.block header body, close)

def readRule (chars : Text) (start : Nat) : Outcome (Item × Nat) :=
  let stop := selectorEnd chars start
  if chars.length ≤ stop then .ok (.finished, stop)
  else do
    let selector ← slice chars start stop
    let (next, declarations) ← readDeclarations chars (stop + 1)
    return (.rule (Str.trim selector) declarations, next)

def readItem (chars : Text) (pos : Nat) : Outcome (Item × Nat) :=
  let start := skipWhile isWhitespace chars pos
  match chars[start]? with
  | none => .ok (.finished, start)
  | some c => if c == '@' then readAtRule chars start else readRule chars start

/-! ## Sheets -/

/-- What is passed down to the bodies of blocks. -/
structure SheetContext where
  viewportWidth : Nat
  origin : CssOrigin
  layer : Option Text
  layerOrder : Option Nat

abbrev LayerMap := Std.ExtTreeMap Text Nat

structure SheetState where
  rules : List CssRule
  sourceOrder : Nat
  imports : List Text
  layers : LayerMap

def parseImportUrl (stmt : Text) : Outcome (Option Text) :=
  let stmt := Str.trim stmt
  match Str.stripStart "url(".toList stmt with
  | some rest =>
    .ok (some (Str.trimMatches '\'' (Str.trimMatches '"' (Str.trim (rest.takeWhile (· != ')'))))))
  | none =>
    match stmt with
    | quote :: _ =>
      if quote == '"' || quote == '\'' then do
        match Str.find quote (← Str.dropBytes stmt 1) with
        | none => return none
        | some stop => return some (← Str.sliceBytes stmt 1 (stop + 1))
      else .ok none
    | [] => .ok none

/-- A layer gets the next number when it is first named. -/
def addLayer (layers : LayerMap) (name : Text) : LayerMap :=
  if layers.contains name then layers else layers.insert name layers.size

def nameLayers (layers : LayerMap) (names : Text) : LayerMap :=
  (names.splitOn ',').foldl (fun layers name =>
    if (Str.trim name).isEmpty then layers else addLayer layers (Str.trim name)) layers

def maxImports : Nat := 32

def addImport (imports : List Text) : Option Text → List Text
  | none => imports
  | some url => if !imports.contains url && imports.length < maxImports then imports ++ [url] else imports

def applyStatement (header : Text) (state : SheetState) : Outcome SheetState :=
  match Str.stripStart "@import".toList header with
  | some stmt => do
    return { state with imports := addImport state.imports (← parseImportUrl (Str.trim stmt)) }
  | none =>
    match Str.stripStart "@layer".toList header with
    | some names => .ok { state with layers := nameLayers state.layers (Str.trim names) }
    | none => .ok state

/-- The declarations with their places in the sheet. -/
def numberDeclarations (context : SheetContext) (sourceOrder : Nat) :
    List RawDeclaration → List Declaration
  | [] => []
  | raw :: declarations =>
    { property := raw.property, value := raw.value, important := raw.important
      origin := context.origin, layer := context.layer, layerOrder := context.layerOrder
      specificity := specificityOf 0 0 0, sourceOrder := sourceOrder + 1 } ::
      numberDeclarations context (sourceOrder + 1) declarations

def applyRule (context : SheetContext) (selector : Text) (declarations : List RawDeclaration)
    (state : SheetState) : Outcome SheetState :=
  let numbered := numberDeclarations context state.sourceOrder declarations
  let state := { state with sourceOrder := state.sourceOrder + declarations.length }
  if selector.isEmpty then .ok state
  else do
    let selectors ← parseSelectorList selector
    if !selectors.isEmpty && !numbered.isEmpty then
      return { state with
        rules := state.rules ++
          [{ selectors, declarations := numbered, specificity := greatestSpecificity selectors
             origin := context.origin, layer := context.layer, layerOrder := context.layerOrder
             sourceOrder := state.sourceOrder }] }
    else return state

section

variable [NumberLibrary]

/-- The context in which the body of a block is parsed, if it is; a layer is named first. -/
def blockContext (context : SheetContext) (header : Text) (layers : LayerMap) :
    Outcome (Option (SheetContext × LayerMap)) :=
  match Str.stripStart "@media".toList header with
  | some condition => do
    if context.viewportWidth = 0 then return none
    else if ← mediaQueryMatches (Str.trim condition) context.viewportWidth then
      return some (context, layers)
    else return none
  | none =>
    match Str.stripStart "@supports".toList header with
    | some condition => do
      if ← supportsQueryMatches (Str.trim condition) then return some (context, layers) else return none
    | none =>
      match Str.stripStart "@layer".toList header with
      | some name =>
        let name := if (Str.trim name).isEmpty then "anonymous".toList else Str.trim name
        let layers := addLayer layers name
        .ok (some ({ context with layer := some name, layerOrder := layers[name]? }, layers))
      | none => .ok none

def maxSheetBytes : Nat := 10000000

/-- The text of a sheet without what is over the limit and without comments. -/
def sheetText (css : Text) : Outcome Text := do
  let css ← truncate css maxSheetBytes
  return stripCssComments css

/-- One turn of the loop over a sheet. -/
def sheetTurn (parseBody : SheetContext → Text → SheetState → Outcome SheetState)
    (context : SheetContext) (chars : Text) :
    Nat × SheetState → Outcome ((Nat × SheetState) ⊕ SheetState)
  | (pos, state) => do
    let (item, next) ← readItem chars pos
    match item with
    | .finished => return .inr state
    | .statement header => return .inl (next, ← applyStatement header state)
    | .rule selector declarations =>
      return .inl (next, ← applyRule context selector declarations state)
    | .block header body => do
      match ← blockContext context header state.layers with
      | none => return .inl (next, state)
      | some (inner, layers) =>
        return .inl (next, ← parseBody inner body { state with layers })

/-- The rules of a sheet after those that are there. The numbers of its declarations begin
anew, and the sheet around it goes on with its own. -/
def parseCssWithContext : Nat → SheetContext → Text → SheetState → Outcome SheetState
  | 0, _, _, state => .ok state
  | levels + 1, context, css, state => do
    let chars ← sheetText css
    if (Str.trim chars).isEmpty then return state
    else do
      let after ← loop (sheetTurn (parseCssWithContext levels) context chars) (chars.length + 2)
        (0, { state with sourceOrder := 0 })
      return { after with sourceOrder := state.sourceOrder }

def maxSheetDepth : Nat := 16

def parseCssWithMedia (css : Text) (viewportWidth : Nat) : Outcome (List CssRule) := do
  let context := { viewportWidth, origin := .author, layer := none, layerOrder := none }
  let state ← parseCssWithContext (maxSheetDepth + 1) context css
    { rules := [], sourceOrder := 0, imports := [], layers := ∅ }
  return state.rules

end

end GhitaBrowser.Css
