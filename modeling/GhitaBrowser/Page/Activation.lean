import GhitaBrowser.Page.Listeners

/-!
# Focus, default actions and forms

What a click does to a form control when nothing prevents it, and what a form submits.
Native listeners are the embedder's and a page has none, so a native dispatch only checks
that the event has a path. Walks over the tree have a turn for each node.
-/

namespace GhitaBrowser.Page

open Dom

def maxFormEntries : Nat := 256

structure FocusedDocument extends LiveDocument where
  focused : Option NodeId

abbrev Activation := EStateM Failure FocusedDocument

/-- Edit the document and leave the focus alone. -/
def edit {α : Type} (change : Edit α) : Activation α := fun s =>
  match change s.toLiveDocument with
  | .ok value document => .ok value { s with toLiveDocument := document }
  | .error failure document => .error failure { s with toLiveDocument := document }

inductive DefaultAction where
  | toggleChecked (node : NodeId) (checked : Bool)
  | submitForm (form : NodeId)
  | navigate (href : String)
  | focus (node : NodeId)
  | selectOption (node : NodeId)
deriving DecidableEq

def DefaultAction.isToggle : DefaultAction → Bool
  | .toggleChecked .. => true
  | _ => false

/-- A submission is left to the caller, and nobody navigates. -/
def DefaultAction.isCarriedOut : DefaultAction → Bool
  | .toggleChecked .. | .focus _ | .selectOption _ => true
  | .submitForm _ | .navigate _ => false

def DefaultAction.isChange : DefaultAction → Bool
  | .toggleChecked .. | .selectOption _ => true
  | _ => false

def submittedForm (actions : List DefaultAction) : Option NodeId :=
  actions.findSome? fun
    | .submitForm form => some form
    | _ => none

/-! ## Reading -/

def elementTag (document : LiveDocument) (node : NodeId) : Option String :=
  match document.nodes[node]?.map LiveNode.kind with
  | some (.element tag ..) => some tag
  | _ => none

def getAttribute (document : LiveDocument) (node : NodeId) (name : String) : Option String :=
  match document.nodes[node]?.map LiveNode.kind with
  | some (.element _ attrs _) => attrs[toAsciiLowercase name]?
  | _ => none

def isFocusable (document : LiveDocument) (node : NodeId) : Bool :=
  if (getAttribute document node "disabled").isSome then false
  else if document.shadows.contains node then true
  else
    match elementTag document node with
    | some "input" | some "textarea" | some "select" | some "button" => true
    | some "a" => (getAttribute document node "href").isSome
    | _ => (getAttribute document node "tabindex").isSome

/-- The walk of `closest_tag`. -/
def closestWalk (document : LiveDocument) (tag : String) : Nat → Option NodeId → Option NodeId
  | 0, _ | _, none => none
  | turns + 1, some node =>
    if elementTag document node = some tag then some node
    else closestWalk document tag turns (document.parentOf node)

def closestTag (document : LiveDocument) (node : NodeId) (tag : String) : Option NodeId :=
  closestWalk document tag (document.nodes.size + 1) (some node)

/-- The walk of `is_descendant_of`. -/
def descendantWalk (document : LiveDocument) (ancestor : NodeId) : Nat → Option NodeId → Bool
  | 0, _ | _, none => false
  | turns + 1, some node =>
    if node = ancestor then true
    else descendantWalk document ancestor turns (document.parentOf node)

def isDescendantOf (document : LiveDocument) (candidate ancestor : NodeId) : Bool :=
  descendantWalk document ancestor (document.nodes.size + 1) (document.parentOf candidate)

/-- The loop of `document_order`, with its stack from the top down. -/
def orderLoop (document : LiveDocument) : Nat → List NodeId → List NodeId
  | 0, _ | _, [] => []
  | turns + 1, node :: stack =>
    node :: orderLoop document turns
      (((document.nodes[node]?.map LiveNode.children).getD []) ++ stack)

def documentOrder (document : LiveDocument) : List NodeId :=
  orderLoop document (document.nodes.size + 1) [document.root]

/-- The text of the subtrees `collect_text` has still to visit. -/
def collectText (document : LiveDocument) : Nat → List NodeId → String
  | 0, _ | _, [] => ""
  | turns + 1, node :: stack =>
    match document.nodes[node]? with
    | none => collectText document turns stack
    | some entry =>
      (match entry.kind with
        | .text text => text
        | .element .. => "") ++ collectText document turns (entry.children ++ stack)

def textContent (document : LiveDocument) (node : NodeId) : Option String :=
  if document.nodes.contains node then some (collectText document (document.nodes.size + 1) [node])
  else none

/-! ## Focus -/

/-- `dispatch_event` with no native listeners. A node of the path is never missing. -/
def dispatchEvent (target : NodeId) : Activation Unit := do
  let _ ← edit (requireNode target)
  match eventPath (← get).toLiveDocument maxEventPath target with
  | some _ => return ()
  | none => edit (fail "QuotaExceededError: event path depth exceeded")

/-- `blur` and `focusout` of the node that loses the focus. -/
def blur : Option NodeId → Activation Unit
  | some previous => dispatchEvent previous
  | none => return ()

def focus (node : NodeId) : Activation Unit := do
  let _ ← edit (requireNode node)
  let s ← get
  if !isFocusable s.toLiveDocument node then
    edit (fail "InvalidStateError: node is not focusable")
  else if s.focused = some node then return ()
  else do
    blur s.focused
    modify fun s => { s with focused := some node }
    dispatchEvent node

/-! ## Default actions of a click -/

def toggleCheckbox (target : NodeId) : Activation (List DefaultAction) := do
  let checked := (getAttribute (← get).toLiveDocument target "checked").isNone
  if checked then edit (setAttribute target "checked" "")
  else edit (removeAttribute target "checked")
  return [.toggleChecked target checked]

/-- Whether the radio button is in the group of `target`. -/
def inRadioGroup (document : LiveDocument) (target : NodeId) (name : String)
    (form : Option NodeId) (node : NodeId) : Bool :=
  node != target && elementTag document node == some "input" &&
    getAttribute document node "type" == some "radio" &&
    (getAttribute document node "name").getD "" == name &&
    closestTag document node "form" == form

/-- The loop of `activate_radio`. -/
def uncheckGroup (target : NodeId) (name : String) (form : Option NodeId) :
    List NodeId → Activation Unit
  | [] => return ()
  | node :: rest => do
    if inRadioGroup (← get).toLiveDocument target name form node then
      edit (removeAttribute node "checked")
    uncheckGroup target name form rest

def activateRadio (target : NodeId) : Activation Unit := do
  let document := (← get).toLiveDocument
  let name := (getAttribute document target "name").getD ""
  uncheckGroup target name (closestTag document target "form") (documentOrder document)
  edit (setAttribute target "checked" "")

/-- A submit control marks its form. -/
def markSubmitted (target : NodeId) : Activation (List DefaultAction) := do
  match closestTag (← get).toLiveDocument target "form" with
  | none => return []
  | some form => do
    edit (setAttribute form "data-ghita-submitted" "true")
    return [.submitForm form]

def takeFocus (target : NodeId) : Activation (List DefaultAction) := do
  focus target
  return [.focus target]

/-- The options of a select control. -/
def optionsOf (document : LiveDocument) (target : NodeId) : List NodeId :=
  (documentOrder document).filter fun node =>
    document.isAncestor target node && elementTag document node == some "option"

def deselect : List NodeId → Activation Unit
  | [] => return ()
  | option :: rest => do
    edit (removeAttribute option "selected")
    deselect rest

/-- Select the option after the selected one. Without one, the first counts as selected. -/
def advanceSelection (target : NodeId) : Activation (List DefaultAction) := do
  let document := (← get).toLiveDocument
  match optionsOf document target with
  | [] => return []
  | first :: rest => do
    let options := first :: rest
    let current := options.findIdx fun option => (getAttribute document option "selected").isSome
    let current := if current < options.length then current else 0
    let next := (options[(current + 1) % options.length]?).getD first
    deselect options
    edit (setAttribute next "selected" "")
    return [.selectOption next]

def applyClickDefault (target : NodeId) : Activation (List DefaultAction) := do
  let document := (← get).toLiveDocument
  match elementTag document target with
  | some "input" =>
    match (getAttribute document target "type").getD "text" with
    | "checkbox" => toggleCheckbox target
    | "radio" => do
      activateRadio target
      return [.toggleChecked target true]
    | "submit" => markSubmitted target
    | _ => takeFocus target
  | some "button" =>
    if (getAttribute document target "type").getD "submit" = "submit" then markSubmitted target
    else takeFocus target
  | some "select" => advanceSelection target
  | some "a" =>
    match getAttribute document target "href" with
    | some href => return [.navigate href]
    | none => return []
  | _ => return []

/-- `LiveDocument::click`. -/
def nativeClick (target : NodeId) : Activation (List DefaultAction) := do
  dispatchEvent target
  applyClickDefault target

/-! ## Forms -/

/-- The option values of a select control, each with whether it is selected. -/
def optionValues (document : LiveDocument) (node : NodeId) : List (Option String × Bool) :=
  ((documentOrder document).filter fun child =>
    isDescendantOf document child node && elementTag document child == some "option").map
      fun child =>
        (getAttribute document child "value" <|> textContent document child,
          (getAttribute document child "selected").isSome)

/-- The value of the last selected option. -/
def lastSelected (values : List (Option String × Bool)) : Option String :=
  ((values.filter Prod.snd).getLast?).bind Prod.fst

/-- `selected_option_value_public`: without a selected option, the first that has a value. -/
def selectedOptionValue (document : LiveDocument) (node : NodeId) : Option String :=
  match getAttribute document node "value" with
  | some value => some value
  | none =>
    let values := optionValues document node
    lastSelected values <|> values.findSome? Prod.fst

/-- Whether a required control is empty. -/
def isEmptyControl (document : LiveDocument) (node : NodeId) (tag : String) : Bool :=
  match tag with
  | "textarea" => ((textContent document node).getD "").isEmpty
  | "select" => ((selectedOptionValue document node).getD "").isEmpty
  | "input" =>
    match (getAttribute document node "type").getD "text" with
    | "checkbox" | "radio" => (getAttribute document node "checked").isNone
    | _ => ((getAttribute document node "value").getD "").isEmpty
  | _ => false

/-- The names of the required controls of a form that are empty. -/
def emptyRequired (document : LiveDocument) (form : NodeId) : List String :=
  (documentOrder document).filterMap fun node =>
    if node = form || !isDescendantOf document node form then none
    else if (getAttribute document node "required").isNone then none
    else
      match getAttribute document node "name", elementTag document node with
      | some name, some tag => if isEmptyControl document node tag then some name else none
      | _, _ => none

def submittedValue (document : LiveDocument) (node : NodeId) (tag : String) : Option String :=
  match tag with
  | "textarea" => some ((textContent document node).getD "")
  | "select" =>
    some ((getAttribute document node "value" <|> lastSelected (optionValues document node)).getD "")
  | "input" =>
    match (getAttribute document node "type").getD "text" with
    | "checkbox" | "radio" =>
      if (getAttribute document node "checked").isNone then none
      else some ((getAttribute document node "value").getD "on")
    | "submit" | "button" | "reset" | "file" => none
    | _ => some ((getAttribute document node "value").getD "")
  | _ => none

structure Submission where
  method : String
  action : String
  pairs : List (String × String)

/-- The controls of a form with their values. -/
def formPairs (document : LiveDocument) (form : NodeId) : List (String × String) :=
  ((documentOrder document).filterMap fun node =>
    if node = form || isDescendantOf document node form then
      match getAttribute document node "name", elementTag document node with
      | some name, some tag => (submittedValue document node tag).map (name, ·)
      | _, _ => none
    else none).take maxFormEntries

/-- What `collect_submission` reports. -/
def submission (document : LiveDocument) (form : NodeId) : Submission where
  method := toAsciiLowercase ((getAttribute document form "method").getD "get")
  action := (getAttribute document form "action").getD ""
  pairs := formPairs document form

end GhitaBrowser.Page
