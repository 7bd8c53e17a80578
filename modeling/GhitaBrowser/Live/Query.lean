import GhitaBrowser.Lib.Descent
import GhitaBrowser.Lib.Str
import GhitaBrowser.Live.Retarget

/-!
# Selectors on the live document

`query_selector` takes selectors of its own: simple ones, divided by blanks. A node matches when
the last one matches it and the others match ancestors in their order. The code looks for the
ancestors from the node upwards, and takes the nearest that matches each time.

`query_complete`: that finds a chain of ancestors whenever there is one.
-/

namespace GhitaBrowser.Live

open Dom Page

/-! ## One part -/

def isQuote (c : Char) : Bool := c == '\'' || c == '"'

/-- `trim_matches` with the two quotes. -/
def trimQuotes (text : Text) : Text :=
  ((text.dropWhile isQuote).reverse.dropWhile isQuote).reverse

/-- The text before a character and, if it is there, the text after it. -/
def cutAt (c : Char) (text : Text) : Text × Option Text :=
  match Str.splitOnce [c] text with
  | some (before, after) => (before, some after)
  | none => (text, none)

/-- `[name]` and `[name=value]`, without the brackets. -/
def matchesAttribute (attrs : Attributes) (inside : Text) : Bool :=
  let (name, value) := cutAt '=' inside
  let name := String.ofList (Str.lowercase (Str.trim name))
  if name.isEmpty then false
  else
    match value with
    | some value => attrs[name]? == some (String.ofList (trimQuotes (Str.trim value)))
    | none => attrs.contains name

/-- `tag.class#id`, where each may be missing; the id goes up to the end. -/
def matchesBase (tag : String) (attrs : Attributes) (base : Text) : Bool :=
  let (rest, id) := cutAt '#' base
  if id.any fun id => attrs["id"]? != some (String.ofList id) then false
  else
    let (rest, class') := cutAt '.' rest
    if class'.any fun item =>
        !attrs["class"]?.any fun classes => (Str.asciiWords classes.toList).contains item then false
    else rest.isEmpty || Str.eqIgnoreCase tag.toList rest

def matchesSimpleSelector (document : LiveDocument) (node : NodeId) (selector : Text) : Bool :=
  match document.nodes[node]?.map LiveNode.kind with
  | some (.element tag attrs _) =>
    let selector := Str.trim selector
    if selector.isEmpty then false
    else
      match Str.splitOnce ['['] selector with
      | none => matchesBase tag attrs selector
      | some (base, inside) =>
        if !Str.endsWith [']'] selector then false
        else matchesAttribute attrs inside.dropLast && matchesBase tag attrs base
  | _ => false

/-! ## The path -/

/-- The loops of `matches_selector_path`, with `turns` of the inner one left in all. -/
def climbPath (document : LiveDocument) (turns : Nat) (parts : List Text)
    (current : Option NodeId) : Option Bool :=
  greedy document.parentOf turns
    (parts.map fun selector candidate => matchesSimpleSelector document candidate selector) current

def matchesSelectorPath (document : LiveDocument) (turns : Nat) (node : NodeId)
    (parts : List Text) : Option Bool :=
  if !matchesSimpleSelector document node (parts.getLast?.getD []) then some false
  else climbPath document turns parts.dropLast.reverse (document.parentOf node)

def querySelectorAll (document : LiveDocument) (turns : Nat) (selector : Text) : List NodeId :=
  let parts := Str.asciiWords selector
  if parts.isEmpty || parts.length > 8 then []
  else
    (documentOrder document).filter fun node =>
      (matchesSelectorPath document turns node parts).getD false

def querySelector (document : LiveDocument) (turns : Nat) (selector : Text) : Option NodeId :=
  (querySelectorAll document turns selector).head?

/-! ## What it finds -/

/-- The last part matches the node, and the others match the nodes of a strictly ascending chain of
its ancestors, the part before the last one matching the first of them. -/
def MatchesPath (document : LiveDocument) (node : NodeId) (parts : List Text) : Prop :=
  matchesSimpleSelector document node (parts.getLast?.getD []) = true ∧
    ∃ chain : List NodeId, (node :: chain).IsChain document.links.Below ∧
      List.Forall₂ (fun selector ancestor => matchesSimpleSelector document ancestor selector = true)
        parts.dropLast.reverse chain

theorem above_parentOf (document : LiveDocument) :
    Above document.parentOf = document.links.Below := by
  have same : (fun x y => document.parentOf x = some y) = document.links.IsParent := by
    funext x y
    exact propext (LiveDocument.isParent_iff document x y).symm
  rw [Above, same]
  rfl

theorem matchesSelectorPath_ends {document : LiveDocument} (linked : document.Linked)
    (node : NodeId) (parts : List Text) :
    ∃ answer enough, (∀ turns, enough ≤ turns →
      matchesSelectorPath document turns node parts = some answer) ∧
        (answer = true ↔ MatchesPath document node parts) := by
  have grounded : Grounded fun x y => document.parentOf x = some y :=
    (grounded_parents linked).mono fun x y => (LiveDocument.isParent_iff document x y).mpr
  obtain ⟨answer, enough, ends, finds⟩ := greedy_ends grounded
    (parts.dropLast.reverse.map fun selector candidate =>
      matchesSimpleSelector document candidate selector) node
  unfold matchesSelectorPath MatchesPath
  cases matchesSimpleSelector document node (parts.getLast?.getD []) with
  | false => exact ⟨false, 0, fun _ _ => rfl, iff_of_false Bool.false_ne_true fun h => nomatch h.1⟩
  | true =>
    refine ⟨answer, enough, ends, ?_⟩
    rw [finds, Climbable, above_parentOf, and_iff_right rfl]
    simp only [List.forall₂_map_left_iff]

section

variable [HtmlParser]

/-- In every live document the search for the ancestors of a node is complete. -/
theorem query_complete (root : Element) (operations : List Dom.Operation) (node : NodeId)
    (parts : List Text) :
    let document := LiveDocument.run root operations
    ∃ answer enough, (∀ turns, enough ≤ turns →
      matchesSelectorPath document turns node parts = some answer) ∧
        (answer = true ↔ MatchesPath document node parts) :=
  matchesSelectorPath_ends (LiveDocument.run_linked root operations) node parts

end

end GhitaBrowser.Live
