import GhitaBrowser.Html.Element
import GhitaBrowser.Lib.Str
import Mathlib.Data.Prod.Lex

/-!
# Selectors

A selector is a chain of compound selectors with combinators between them. A pseudo-class
such as `:not(…)` holds a list of selectors, so the types are parametrised by the type of
selectors and the parser by the parser of lists.
-/

namespace GhitaBrowser.Css

open Html

/-! ## Syntax -/

inductive AttributeMatch where
  | presence
  | exact
  | includes
  | dashMatch
  | startsWith
  | endsWith
  | substring
deriving DecidableEq

inductive CaseSensitivity where
  | default
  | caseSensitive
  | caseInsensitive
deriving DecidableEq

structure AttributeSelector where
  name : Text
  operator : AttributeMatch
  value : Text
  caseSensitivity : CaseSensitivity
deriving DecidableEq

inductive Combinator where
  | descendant
  | child
  | adjacentSibling
  | generalSibling
deriving DecidableEq

inductive PseudoClass (S : Type) where
  | root
  | empty
  | firstChild
  | lastChild
  | onlyChild
  | firstOfType
  | lastOfType
  | onlyOfType
  | nthChild (a b : Int)
  | nthLastChild (a b : Int)
  | nthOfType (a b : Int)
  | nthLastOfType (a b : Int)
  | hover
  | active
  | focus
  | focusVisible
  | focusWithin
  | enabled
  | disabled
  | checked
  | indeterminate
  | link
  | visited
  | target
  | valid
  | invalid
  | required
  | optional
  | readOnly
  | readWrite
  | not (list : List S)
  | is (list : List S)
  | whereAny (list : List S)
  | has (list : List S)
  | lang (language : Text)
  | custom (name : Text)

inductive PseudoElement where
  | before
  | after
  | placeholder
  | firstLetter
  | firstLine
  | marker
  | selection
  | custom (name : Text)

structure CompoundSelector (S : Type) where
  tag : Option Text := none
  classes : List Text := []
  id : Option Text := none
  attributes : List AttributeSelector := []
  pseudoClasses : List (PseudoClass S) := []
  pseudoElement : Option PseudoElement := none
  isRoot : Bool := false

def CompoundSelector.isEmpty {S : Type} (compound : CompoundSelector S) : Bool :=
  compound.tag.isNone && compound.classes.isEmpty && compound.id.isNone &&
    compound.attributes.isEmpty && compound.pseudoClasses.isEmpty &&
    compound.pseudoElement.isNone && !compound.isRoot

/-- The older form of an ancestor, for selectors without components. -/
structure SelectorAncestor where
  tag : Option Text
  className : Option Text
  id : Option Text
  direct : Bool

structure Selector where
  tag : Option Text
  className : Option Text
  id : Option Text
  attributes : List (Text × Text)
  ancestors : List SelectorAncestor
  isRoot : Bool
  /-- From left to right; the last one is the target. -/
  components : List (CompoundSelector Selector)
  combinators : List Combinator

/-! ## Specificity -/

/-- Ids, classes and tags. -/
abbrev Specificity := Nat ×ₗ Nat ×ₗ Nat

def specificityOf (ids classes tags : Nat) : Specificity := toLex (ids, toLex (classes, tags))

def Specificity.add (left right : Specificity) : Specificity :=
  specificityOf ((ofLex left).1 + (ofLex right).1)
    ((ofLex (ofLex left).2).1 + (ofLex (ofLex right).2).1)
    ((ofLex (ofLex left).2).2 + (ofLex (ofLex right).2).2)

def boolNat (b : Bool) : Nat := if b then 1 else 0

mutual

def Selector.specificity : Selector → Specificity
  | ⟨tag, className, id, attributes, _, _, components, _⟩ =>
    if components.isEmpty then
      specificityOf (boolNat id.isSome) (boolNat className.isSome + attributes.length)
        (boolNat (tag.any (· != ['*'])))
    else componentsSpecificity components

def componentsSpecificity : List (CompoundSelector Selector) → Specificity
  | [] => specificityOf 0 0 0
  | compound :: components => compoundSpecificity compound |>.add (componentsSpecificity components)

def compoundSpecificity : CompoundSelector Selector → Specificity
  | ⟨tag, classes, id, attributes, pseudoClasses, pseudoElement, isRoot⟩ =>
    specificityOf (boolNat id.isSome) (classes.length + attributes.length + boolNat isRoot)
      (boolNat (tag.any (· != ['*'])) + boolNat pseudoElement.isSome)
      |>.add (pseudoClassesSpecificity pseudoClasses)

def pseudoClassesSpecificity : List (PseudoClass Selector) → Specificity
  | [] => specificityOf 0 0 0
  | pseudo :: rest => pseudoClassSpecificity pseudo |>.add (pseudoClassesSpecificity rest)

def pseudoClassSpecificity : PseudoClass Selector → Specificity
  | .not list => greatestSpecificity list
  | .is list => greatestSpecificity list
  | .has list => greatestSpecificity list
  | .whereAny _ => specificityOf 0 0 0
  | _ => specificityOf 0 1 0

def greatestSpecificity : List Selector → Specificity
  | [] => specificityOf 0 0 0
  | selector :: list => max selector.specificity (greatestSpecificity list)

end

/-! ## Reading a compound -/

def operatorSignatures : List (Text × AttributeMatch) :=
  [("~=".toList, .includes), ("|=".toList, .dashMatch), ("^=".toList, .startsWith),
    ("$=".toList, .endsWith), ("*=".toList, .substring), ("=".toList, .exact)]

/-- The first operator outside of quotes, with its place and its length. -/
def findOperator : Text → Option Char → Nat → Option (Nat × Nat × AttributeMatch)
  | [], _, _ => none
  | c :: rest, some quote, pos =>
    findOperator rest (if c == quote then none else some quote) (pos + c.utf8Size)
  | c :: rest, none, pos =>
    if c == '"' || c == '\'' then findOperator rest (some c) (pos + c.utf8Size)
    else
      match operatorSignatures.find? fun (signature, _) => Str.startsWith signature (c :: rest) with
      | some (signature, operator) => some (pos, signature.length, operator)
      | none => findOperator rest none (pos + c.utf8Size)

/-- The value without its case flag. -/
def readCaseFlag (rest : Text) : Outcome (Text × CaseSensitivity) :=
  if Str.endsWith " i".toList rest || Str.endsWith " I".toList rest then do
    return (Str.trim (← takeBytes rest (byteLen rest - 2)), .caseInsensitive)
  else if Str.endsWith " s".toList rest || Str.endsWith " S".toList rest then do
    return (Str.trim (← takeBytes rest (byteLen rest - 2)), .caseSensitive)
  else .ok (rest, .default)

def parseAttrSelector (content : Text) : Outcome (Option AttributeSelector) := do
  let trimmed := Str.trim content
  match findOperator trimmed none 0 with
  | some (pos, len, operator) =>
    let name := Str.trim (← takeBytes trimmed pos)
    let (rest, caseSensitivity) ← readCaseFlag (Str.trim (← Str.dropBytes trimmed (pos + len)))
    let value := Str.trimMatches '\'' (Str.trimMatches '"' rest)
    return if name.isEmpty then none else some { name, operator, value, caseSensitivity }
  | none =>
    return if trimmed.isEmpty then none
      else some { name := trimmed, operator := .presence, value := [], caseSensitivity := .default }

def maxI32 : Int := 2 ^ 31 - 1

/-- `str::parse::<i32>`. -/
def parseI32 (text : Text) : Option Int := do
  let (negative, digits) := match text with
    | '-' :: digits => (true, digits)
    | '+' :: digits => (false, digits)
    | digits => (false, digits)
  if digits.isEmpty || !digits.all Char.isDigit then none
  else
    let value : Int := (digits.foldl (fun acc c => acc * 10 + (c.toNat - 48)) 0 : Nat)
    let value := if negative then -value else value
    if -2 ^ 31 ≤ value ∧ value ≤ maxI32 then some value else none

def parseAnPlusB (expr : Text) : Int × Int :=
  let expr := (Str.lowercase (Str.trim expr)).filter (· != ' ')
  if expr == "odd".toList then (2, 1)
  else if expr == "even".toList then (2, 0)
  else
    match parseI32 expr with
    | some num => (0, num)
    | none =>
      match Str.splitOnce ['n'] expr with
      | none => (0, 1)
      | some (a, b) =>
        (if a.isEmpty || a == ['+'] then 1 else if a == ['-'] then -1 else (parseI32 a).getD 1,
          if b.isEmpty then 0 else (parseI32 b).getD 0)

def parsePseudoElement (token : Text) : PseudoElement :=
  let lower := Str.lowercase token
  if lower == "before".toList then .before
  else if lower == "after".toList then .after
  else if lower == "placeholder".toList then .placeholder
  else if lower == "first-letter".toList then .firstLetter
  else if lower == "first-line".toList then .firstLine
  else if lower == "marker".toList then .marker
  else if lower == "selection".toList then .selection
  else .custom token

section

variable {S : Type}

/-- The pseudo-classes without an argument. -/
def plainPseudoClasses : List (String × PseudoClass S) :=
  [("root", .root), ("empty", .empty), ("first-child", .firstChild), ("last-child", .lastChild),
    ("only-child", .onlyChild), ("first-of-type", .firstOfType), ("last-of-type", .lastOfType),
    ("only-of-type", .onlyOfType), ("hover", .hover), ("active", .active), ("focus", .focus),
    ("focus-visible", .focusVisible), ("focus-within", .focusWithin), ("enabled", .enabled),
    ("disabled", .disabled), ("checked", .checked), ("indeterminate", .indeterminate),
    ("link", .link), ("visited", .visited), ("target", .target), ("valid", .valid),
    ("invalid", .invalid), ("required", .required), ("optional", .optional),
    ("read-only", .readOnly), ("read-write", .readWrite), ("before", .custom "before".toList),
    ("after", .custom "after".toList)]

variable (parseList : Text → Outcome (List S))

def functionalPseudoClass (name inner : Text) : Outcome (Option (PseudoClass S)) :=
  if name == "not".toList then do return some (.not (← parseList inner))
  else if name == "is".toList || name == "matches".toList then do return some (.is (← parseList inner))
  else if name == "where".toList then do return some (.whereAny (← parseList inner))
  else if name == "has".toList then do return some (.has (← parseList inner))
  else if name == "lang".toList then .ok (some (.lang inner))
  else
    let (a, b) := parseAnPlusB inner
    if name == "nth-child".toList then .ok (some (.nthChild a b))
    else if name == "nth-last-child".toList then .ok (some (.nthLastChild a b))
    else if name == "nth-of-type".toList then .ok (some (.nthOfType a b))
    else if name == "nth-last-of-type".toList then .ok (some (.nthLastOfType a b))
    else .ok none

def parsePseudoClass (token : Text) : Outcome (PseudoClass S) :=
  let lower := Str.lowercase token
  match plainPseudoClasses.find? fun (name, _) => lower == name.toList with
  | some (_, pseudo) => .ok pseudo
  | none =>
    match Str.find '(' token with
    | none => .ok (.custom token)
    | some opening =>
      if Str.endsWith [')'] token then do
        let name := Str.lowercase (Str.trim (← takeBytes token opening))
        let inner := Str.trim (← Str.sliceBytes token (opening + 1) (byteLen token - 1))
        return (← functionalPseudoClass parseList name inner).getD (.custom token)
      else .ok (.custom token)

/-- What the characters being read belong to. -/
inductive TokenKind where
  | tag
  | none
  | className
  | id
  | pseudo
  | element

def flushCompoundToken (compound : CompoundSelector S) (kind : TokenKind) (token : Text) :
    Outcome (CompoundSelector S) :=
  let token := Str.trim token
  if token.isEmpty then .ok compound
  else
    match kind with
    | .tag =>
      if token == ":root".toList then .ok { compound with isRoot := true }
      else
        match Str.splitOnce ['|'] token with
        | some (_, tag) => .ok { compound with tag := some (Str.lowercase tag) }
        | Option.none => .ok { compound with tag := some (Str.lowercase token) }
    | .className => .ok { compound with classes := compound.classes ++ [token] }
    | .id => .ok { compound with id := some token }
    | .pseudo => do
      let pseudo ← parsePseudoClass parseList token
      return { compound with
        isRoot := compound.isRoot || (match pseudo with | .root => true | _ => false)
        pseudoClasses := compound.pseudoClasses ++ [pseudo] }
    | .element => .ok { compound with pseudoElement := some (parsePseudoElement token) }
    | .none => .ok compound

variable (S) in
structure CompoundScan where
  compound : CompoundSelector S := {}
  attrs : List (Text × Text) := []
  current : Text := []
  kind : TokenKind := .tag
  parenDepth : Nat := 0

def CompoundScan.flush (scan : CompoundScan S) (kind : TokenKind) : Outcome (CompoundScan S) := do
  let compound ← flushCompoundToken parseList scan.compound scan.kind scan.current
  return { scan with compound, current := [], kind }

def CompoundScan.addAttr (scan : CompoundScan S) (content : Text) : Outcome (CompoundScan S) := do
  match ← parseAttrSelector content with
  | none => return scan
  | some attr =>
    return { scan with
      compound := { scan.compound with attributes := scan.compound.attributes ++ [attr] }
      attrs := scan.attrs ++ [(attr.name, attr.value)] }

/-- The content of the brackets, up to the closing one outside of quotes. -/
def attrContent : Text → Option Char → Text
  | [], _ => []
  | c :: rest, some quote => c :: attrContent rest (if c == quote then none else some quote)
  | c :: rest, none =>
    if c == '"' || c == '\'' then c :: attrContent rest (some c)
    else if c == ']' then []
    else c :: attrContent rest none

/-- The characters of a compound; the first `skip` of them have been read with a bracket
or a second colon. -/
def scanCompound : Text → Nat → CompoundScan S → Outcome (CompoundScan S)
  | [], _, scan => .ok scan
  | _ :: rest, skip + 1, scan => scanCompound rest skip scan
  | c :: rest, 0, scan =>
    if c == '(' then
      scanCompound rest 0 { scan with parenDepth := scan.parenDepth + 1, current := scan.current ++ [c] }
    else if c == ')' then
      scanCompound rest 0 { scan with parenDepth := scan.parenDepth - 1, current := scan.current ++ [c] }
    else if scan.parenDepth > 0 then scanCompound rest 0 { scan with current := scan.current ++ [c] }
    else if c == '[' then do
      let content := attrContent rest none
      scanCompound rest (content.length + 1) (← (← scan.flush parseList .none).addAttr content)
    else if c == '.' then do scanCompound rest 0 (← scan.flush parseList .className)
    else if c == '#' then do scanCompound rest 0 (← scan.flush parseList .id)
    else if c == ':' then
      if rest.head? = some ':' then do scanCompound rest 1 (← scan.flush parseList .element)
      else do scanCompound rest 0 (← scan.flush parseList .pseudo)
    else scanCompound rest 0 { scan with current := scan.current ++ [c] }

def parseSingleCompound (input : Text) : Outcome (CompoundSelector S × List (Text × Text)) :=
  let trimmed := Str.trim input
  if trimmed.isEmpty then .ok ({}, [])
  else if trimmed == ":root".toList then .ok ({ isRoot := true }, [])
  else do
    let scan ← scanCompound parseList trimmed 0 {}
    let scan ← scan.flush parseList scan.kind
    return (scan.compound, scan.attrs)

end

/-! ## Reading a chain -/

section

variable (parseList : Text → Outcome (List Selector))

structure ChainScan where
  components : List (CompoundSelector Selector) := []
  combinators : List Combinator := []
  current : Text := []
  bracketDepth : Nat := 0
  parenDepth : Nat := 0
  /-- The combinator of the run of spaces and combinators being read. -/
  run : Option Combinator := none

def isAsciiWhitespace (c : Char) : Bool :=
  c == ' ' || c == '\t' || c == '\n' || c == '\x0c' || c == '\r'

/-- What a character of a run makes of its combinator. -/
def runCombinator (combinator : Combinator) (c : Char) : Combinator :=
  if c == '>' then .child
  else if c == '+' then .adjacentSibling
  else if c == '~' then .generalSibling
  else combinator

def ChainScan.flush (scan : ChainScan) : Outcome ChainScan :=
  if (Str.trim scan.current).isEmpty then .ok scan
  else do
    let (compound, _) ← parseSingleCompound parseList (Str.trim scan.current)
    return { scan with
      components := if compound.isEmpty then scan.components else scan.components ++ [compound]
      current := [] }

/-- The end of a run: its combinator stands after the components so far. -/
def ChainScan.endRun (scan : ChainScan) : ChainScan :=
  match scan.run with
  | none => scan
  | some combinator =>
    { scan with
      run := none
      combinators :=
        if scan.components.isEmpty then scan.combinators else scan.combinators ++ [combinator] }

def scanChain (scan : ChainScan) (c : Char) : Outcome ChainScan :=
  let joins := isAsciiWhitespace c || c == '>' || c == '+' || c == '~'
  match scan.run with
  | some combinator =>
    if joins then .ok { scan with run := some (runCombinator combinator c) }
    else .ok (push scan.endRun c)
  | none =>
    if joins && scan.bracketDepth == 0 && scan.parenDepth == 0 then do
      return { ← scan.flush parseList with run := some (runCombinator .descendant c) }
    else .ok (push scan c)
where
  push (scan : ChainScan) (c : Char) : ChainScan :=
    { scan with
      current := scan.current ++ [c]
      bracketDepth := if c == '[' then scan.bracketDepth + 1
        else if c == ']' then scan.bracketDepth - 1 else scan.bracketDepth
      parenDepth := if c == '(' then scan.parenDepth + 1
        else if c == ')' then scan.parenDepth - 1 else scan.parenDepth }

def selectorAncestors (components : List (CompoundSelector Selector))
    (combinators : List Combinator) : List SelectorAncestor :=
  components.dropLast.mapIdx fun idx compound =>
    { tag := compound.tag, className := compound.classes.head?, id := compound.id
      direct := combinators[idx]? == some .child }

def parseSelectorChain (input : Text) : Outcome (Option Selector) := do
  let scan ← input.foldlM (scanChain parseList) {}
  let scan ← scan.endRun.flush parseList
  match scan.components.getLast? with
  | none => return none
  | some target =>
    return some
      { tag := target.tag, className := target.classes.head?, id := target.id
        attributes := target.attributes.map fun attr => (attr.name, attr.value)
        ancestors := selectorAncestors scan.components scan.combinators
        isRoot := target.isRoot, components := scan.components, combinators := scan.combinators }

def parseCompound (input : Text) : Outcome Selector := do
  let (compound, attrs) ← parseSingleCompound parseList input
  return { tag := compound.tag, className := compound.classes.head?, id := compound.id
           attributes := attrs, ancestors := [], isRoot := compound.isRoot
           components := [compound], combinators := [] }

/-- `Selector::parse`, with what parses the lists inside of it. -/
def parseWith (input : Text) : Outcome Selector :=
  let trimmed := Str.trim input
  if trimmed == ":root".toList then
    .ok { tag := none, className := none, id := none, attributes := [], ancestors := [], isRoot := true
          components := [{ isRoot := true }], combinators := [] }
  else do
    match ← parseSelectorChain parseList trimmed with
    | some selector => return selector
    | none => parseCompound parseList trimmed

structure ListScan where
  list : List Selector := []
  current : Text := []
  parenDepth : Nat := 0
  bracketDepth : Nat := 0

def ListScan.flush (scan : ListScan) : Outcome ListScan :=
  if (Str.trim scan.current).isEmpty then .ok { scan with current := [] }
  else do
    return { scan with
      list := scan.list ++ [← parseWith parseList (Str.trim scan.current)], current := [] }

def scanList (scan : ListScan) (c : Char) : Outcome ListScan :=
  if c == ',' && scan.parenDepth == 0 && scan.bracketDepth == 0 then scan.flush parseList
  else
    .ok { scan with
      current := scan.current ++ [c]
      parenDepth := if c == '(' then scan.parenDepth + 1
        else if c == ')' then scan.parenDepth - 1 else scan.parenDepth
      bracketDepth := if c == '[' then scan.bracketDepth + 1
        else if c == ']' then scan.bracketDepth - 1 else scan.bracketDepth }

end

def maxSelectorNestingDepth : Nat := 32

/-- A list with the levels of nesting that are left. -/
def parseSelectorListAt : Nat → Text → Outcome (List Selector)
  | 0, _ => .ok []
  | levels + 1, input => do
    let scan ← input.foldlM (scanList (parseSelectorListAt levels)) {}
    return (← scan.flush (parseSelectorListAt levels)).list

def parseSelectorList (input : Text) : Outcome (List Selector) :=
  parseSelectorListAt maxSelectorNestingDepth input

def Selector.parse (input : Text) : Outcome Selector :=
  parseWith (parseSelectorListAt maxSelectorNestingDepth) input

end GhitaBrowser.Css
