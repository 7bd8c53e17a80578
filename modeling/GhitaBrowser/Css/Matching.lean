import GhitaBrowser.Css.Selector

/-!
# Matching a selector

A selector is matched from its target to the left: one cursor climbs the ancestors of the
element, and the sibling combinators look at the siblings before the element.
-/

namespace GhitaBrowser.Css

open Html

/-- What is known of an ancestor or a sibling. -/
structure ElementAncestry where
  tag : Text
  classes : List Text
  id : Option Text
  attrs : Attrs

structure SiblingContext where
  /-- From 1. -/
  indexInParent : Nat
  siblingsAfter : Nat
  totalSiblings : Nat
  typeIndexInParent : Nat
  totalTypeSiblings : Nat
  /-- In document order. -/
  previousSiblings : List ElementAncestry

structure ElementMatchingContext where
  tag : Text
  classes : List Text
  id : Option Text
  attrs : Attrs
  isRoot : Bool
  /-- The nearest one first. -/
  ancestors : List ElementAncestry
  indexInParent : Nat
  siblingsAfter : Nat
  totalSiblings : Nat
  typeIndexInParent : Nat
  totalTypeSiblings : Nat
  isHovered : Bool
  isFocused : Bool
  isActive : Bool
  isChecked : Bool
  isDisabled : Bool
  isEmpty : Bool
  isTarget : Bool
  isVisited : Bool
  previousSiblings : List ElementAncestry

namespace ElementMatchingContext

def withSiblings (element : ElementAncestry) (isRoot : Bool) (ancestors : List ElementAncestry)
    (siblings : SiblingContext) : ElementMatchingContext :=
  { tag := element.tag, classes := element.classes, id := element.id, attrs := element.attrs
    isRoot, ancestors
    indexInParent := max siblings.indexInParent 1
    siblingsAfter := siblings.siblingsAfter
    totalSiblings := siblings.totalSiblings
    typeIndexInParent := max siblings.typeIndexInParent 1
    totalTypeSiblings := siblings.totalTypeSiblings
    isHovered := false, isFocused := false, isActive := false
    isChecked := element.attrs.contains "checked".toList
    isDisabled := element.attrs.contains "disabled".toList
    isEmpty := false, isTarget := false, isVisited := false
    previousSiblings := siblings.previousSiblings }

/-- An element of which only the ancestors are known. -/
def simple (element : ElementAncestry) (isRoot : Bool) (ancestors : List ElementAncestry) :
    ElementMatchingContext :=
  withSiblings element isRoot ancestors
    { indexInParent := 1, siblingsAfter := 0, totalSiblings := 1, typeIndexInParent := 1
      totalTypeSiblings := 1, previousSiblings := [] }

end ElementMatchingContext

/-! ## Compounds -/

def attributeMatches (attr : AttributeSelector) (actual : Text) : Bool :=
  let insensitive := attr.caseSensitivity == .caseInsensitive
  match attr.operator with
  | .presence => true
  | .exact => if insensitive then Str.eqIgnoreCase actual attr.value else actual == attr.value
  | .includes =>
    (Str.asciiWords actual).any fun word =>
      if insensitive then Str.eqIgnoreCase word attr.value else word == attr.value
  | .dashMatch =>
    let (actual, value) :=
      if insensitive then (Str.lowercase actual, Str.lowercase attr.value) else (actual, attr.value)
    actual == value || (Str.stripStart value actual).any (Str.startsWith ['-'])
  | .startsWith =>
    !attr.value.isEmpty &&
      if insensitive then (Str.getTo actual (byteLen attr.value)).any (Str.eqIgnoreCase · attr.value)
      else Str.startsWith attr.value actual
  | .endsWith =>
    !attr.value.isEmpty &&
      if insensitive then
        byteLen attr.value ≤ byteLen actual &&
          (Str.getFrom actual (byteLen actual - byteLen attr.value)).any (Str.eqIgnoreCase · attr.value)
      else Str.endsWith attr.value actual
  | .substring =>
    !attr.value.isEmpty &&
      if insensitive then Str.contains (Str.lowercase attr.value) (Str.lowercase actual)
      else Str.contains attr.value actual

def evalNth (a b : Int) (index : Nat) : Bool :=
  let index := Int.bmod index (2 ^ 32)
  if a = 0 then index == b
  else
    let diff := index - b
    (if a > 0 then diff ≥ 0 else diff ≤ 0) && diff % a == 0

/-- The tests of a compound other than its pseudo-classes. -/
def plainMatches (tag : Option Text) (classes : List Text) (id : Option Text)
    (attributes : List AttributeSelector) (isRoot : Bool) (ctx : ElementMatchingContext) : Bool :=
  !(isRoot && !ctx.isRoot) &&
    tag.all (fun tag => tag == ['*'] || Str.eqIgnoreCase tag ctx.tag) &&
    classes.all (fun name => ctx.classes.contains name) &&
    id.all (fun id => ctx.id == some id) &&
    attributes.all fun attr =>
      match (ctx.attrs[Str.lowercase attr.name]?).or ctx.attrs[attr.name]? with
      | some actual => attributeMatches attr actual
      | none => false

def langMatches (language actual : Text) : Bool :=
  let folded := Str.lowercase actual
  let target := Str.lowercase language
  folded == target || (Str.stripStart target folded).any (Str.startsWith ['-'])

/-- A pseudo-class, with the test of a list of selectors for those that hold one. -/
def pseudoClassMatches {S : Type} (anyMatches : List S → ElementMatchingContext → Bool)
    (pseudo : PseudoClass S) (ctx : ElementMatchingContext) : Bool :=
  let isLink := Str.eqIgnoreCase ctx.tag ['a'] && ctx.attrs.contains "href".toList
  match pseudo with
  | .root => ctx.isRoot
  | .empty => ctx.isEmpty
  | .firstChild => ctx.indexInParent == 1
  | .lastChild => ctx.siblingsAfter == 0 && ctx.totalSiblings > 0
  | .onlyChild => ctx.totalSiblings == 1
  | .firstOfType => ctx.typeIndexInParent == 1
  | .lastOfType => ctx.totalTypeSiblings > 0 && ctx.typeIndexInParent == ctx.totalTypeSiblings
  | .onlyOfType => ctx.totalTypeSiblings == 1
  | .nthChild a b => evalNth a b ctx.indexInParent
  | .nthLastChild a b => evalNth a b (ctx.siblingsAfter + 1)
  | .nthOfType a b => evalNth a b ctx.typeIndexInParent
  | .nthLastOfType a b => evalNth a b (ctx.totalTypeSiblings - ctx.typeIndexInParent + 1)
  | .hover => ctx.isHovered
  | .active => ctx.isActive
  | .focus => ctx.isFocused
  | .focusVisible => ctx.isFocused
  | .focusWithin => ctx.isFocused
  | .enabled => !ctx.isDisabled
  | .disabled => ctx.isDisabled
  | .checked => ctx.isChecked
  | .indeterminate => false
  | .link => isLink && !ctx.isVisited
  | .visited => isLink && ctx.isVisited
  | .target => ctx.isTarget
  | .valid => !ctx.isDisabled
  | .invalid => false
  | .required => ctx.attrs.contains "required".toList
  | .optional => !ctx.attrs.contains "required".toList
  | .readOnly => ctx.attrs.contains "readonly".toList || ctx.isDisabled
  | .readWrite => !ctx.attrs.contains "readonly".toList && !ctx.isDisabled
  | .not list => !anyMatches list ctx
  | .is list => anyMatches list ctx
  | .whereAny list => anyMatches list ctx
  | .has _ => false
  | .lang language => (ctx.attrs["lang".toList]?).any (langMatches language)
  | .custom _ => false

/-! ## Chains -/

/-- The compounds to the left of the target, from right to left, each with the combinator
between it and what is to the right of it. -/
def steps {α : Type} (components : List α) (combinators : List Combinator) :
    List (Combinator × α) :=
  (components.dropLast.mapIdx fun i compound =>
    (combinators[i]?.getD .descendant, compound)).reverse

/-- The ancestor at a place, as an element of its own. -/
def ancestorContext (ctx : ElementMatchingContext) (idx : Nat) (ancestor : ElementAncestry) :
    ElementMatchingContext :=
  .simple ancestor (idx + 1 == ctx.ancestors.length) (ctx.ancestors.drop (idx + 1))

def siblingContext (ctx : ElementMatchingContext) (sibling : ElementAncestry) :
    ElementMatchingContext :=
  .simple sibling false ctx.ancestors

/-- The first ancestor from the cursor on that matches. -/
def findAncestor (ctx : ElementMatchingContext) (compound : ElementMatchingContext → Bool)
    (cursor : Nat) : Option Nat :=
  (List.range' cursor (ctx.ancestors.length - cursor)).find? fun idx =>
    (ctx.ancestors[idx]?).any fun ancestor => compound (ancestorContext ctx idx ancestor)

/-- The loop of `matches_context` over the compounds to the left of the target. -/
def walk (ctx : ElementMatchingContext) :
    List (Combinator × (ElementMatchingContext → Bool)) → Nat → Bool
  | [], _ => true
  | (.child, compound) :: rest, cursor =>
    (ctx.ancestors[cursor]?).any (fun parent => compound (ancestorContext ctx cursor parent)) &&
      walk ctx rest (cursor + 1)
  | (.descendant, compound) :: rest, cursor =>
    match findAncestor ctx compound cursor with
    | none => false
    | some idx => walk ctx rest (idx + 1)
  | (.adjacentSibling, compound) :: rest, cursor =>
    ctx.previousSiblings.getLast?.any (fun previous => compound (siblingContext ctx previous)) &&
      walk ctx rest cursor
  | (.generalSibling, compound) :: rest, cursor =>
    ctx.previousSiblings.any (fun previous => compound (siblingContext ctx previous)) &&
      walk ctx rest cursor

/-- A chain is matched from its last compound on. -/
def chainMatches (compounds : List (ElementMatchingContext → Bool)) (combinators : List Combinator)
    (ctx : ElementMatchingContext) : Bool :=
  compounds.getLast?.any (· ctx) && walk ctx (steps compounds combinators) 0

/-! ## Selectors without components -/

def SelectorAncestor.matches (leg : SelectorAncestor) (element : ElementAncestry) : Bool :=
  leg.tag.all (fun tag => tag == ['*'] || Str.eqIgnoreCase tag element.tag) &&
    leg.className.all (element.classes.contains ·) && leg.id.all (element.id == some ·)

def walkLegacy (ancestry : List ElementAncestry) : List SelectorAncestor → Nat → Bool
  | [], _ => true
  | leg :: legs, cursor =>
    if leg.direct then
      (ancestry[cursor]?).any leg.matches && walkLegacy ancestry legs (cursor + 1)
    else
      match (ancestry.drop cursor).findIdx? leg.matches with
      | none => false
      | some offset => walkLegacy ancestry legs (cursor + offset + 1)

def legacyMatches (tag className id : Option Text) (attributes : List (Text × Text))
    (ancestors : List SelectorAncestor) (ctx : ElementMatchingContext) : Bool :=
  tag.all (fun tag => tag == ['*'] || Str.eqIgnoreCase tag ctx.tag) &&
    className.all (ctx.classes.contains ·) && id.all (ctx.id == some ·) &&
    attributes.all (fun (name, value) =>
      match (ctx.attrs[name]?).or ctx.attrs[Str.lowercase name]? with
      | some actual => value.isEmpty || actual == value
      | none => false) &&
    (ancestors.isEmpty || (!ctx.ancestors.isEmpty && walkLegacy ctx.ancestors ancestors 0))

/-! ## The recursion through the lists of pseudo-classes -/

mutual

def Selector.matchesContext : Selector → ElementMatchingContext → Bool
  | ⟨tag, className, id, attributes, ancestors, isRoot, components, combinators⟩, ctx =>
    !(isRoot && !ctx.isRoot) &&
      if components.isEmpty then legacyMatches tag className id attributes ancestors ctx
      else chainMatches (matchComponents components) combinators ctx

def matchComponents : List (CompoundSelector Selector) → List (ElementMatchingContext → Bool)
  | [] => []
  | compound :: components => matchesElementContext compound :: matchComponents components

def matchesElementContext : CompoundSelector Selector → ElementMatchingContext → Bool
  | ⟨tag, classes, id, attributes, pseudoClasses, _, isRoot⟩, ctx =>
    plainMatches tag classes id attributes isRoot ctx && matchPseudoClasses pseudoClasses ctx

def matchPseudoClasses : List (PseudoClass Selector) → ElementMatchingContext → Bool
  | [], _ => true
  | pseudo :: pseudos, ctx => matchPseudoClass pseudo ctx && matchPseudoClasses pseudos ctx

def matchPseudoClass : PseudoClass Selector → ElementMatchingContext → Bool
  | .not list, ctx => !anySelectorMatches list ctx
  | .is list, ctx => anySelectorMatches list ctx
  | .whereAny list, ctx => anySelectorMatches list ctx
  | pseudo, ctx => pseudoClassMatches (fun _ _ => false) pseudo ctx

def anySelectorMatches : List Selector → ElementMatchingContext → Bool
  | [], _ => false
  | selector :: list, ctx => selector.matchesContext ctx || anySelectorMatches list ctx

end

end GhitaBrowser.Css
