import GhitaBrowser.Lib.Scan
import GhitaBrowser.Lib.Str
import Std.Data.ExtTreeMap

/-!
# Parsed elements

The tree that the HTML parser builds and its serialisation. The attribute table is a
hash map: `toHtml` lists it in an order that the table decides.
-/

namespace GhitaBrowser.Html

/-- An entry for each attribute name. -/
abbrev Attrs := Std.ExtTreeMap Text Text

structure Element where
  nodeId : Option Nat
  tag : Text
  attrs : Attrs
  children : List Element
  text : Text
  isVoid : Bool

namespace Element

def new (tag : Text) : Element :=
  { nodeId := none, tag, attrs := ∅, children := [], text := [], isVoid := false }

def getAttr (element : Element) (key : Text) : Option Text := element.attrs[key]?

def addChild (element child : Element) : Element :=
  { element with children := element.children ++ [child] }

mutual

/-- The elements of the tree in document order. -/
def preorder : Element → List Element
  | ⟨nodeId, tag, attrs, children, text, isVoid⟩ =>
    ⟨nodeId, tag, attrs, children, text, isVoid⟩ :: preorderAll children

def preorderAll : List Element → List Element
  | [] => []
  | child :: children => preorder child ++ preorderAll children

end

/-- Pushing the children in reverse makes the stack of `find_tag` yield document order. -/
def findTag (element : Element) (tag : Text) : Option Element :=
  element.preorder.find? (·.tag == tag)

end Element

/-- `str::replace` of a character. -/
def replaceChar (s : Text) (pattern : Char) (replacement : Text) : Text :=
  s.flatMap fun c => if c == pattern then replacement else [c]

def escapeHtml (s : Text) : Text :=
  replaceChar (replaceChar (replaceChar (replaceChar s '&' "&amp;".toList) '<' "&lt;".toList)
    '>' "&gt;".toList) '"' "&quot;".toList

/-- Only script and style are raw text. -/
def isRawTextTag (tag : Text) : Bool := tag == "script".toList || tag == "style".toList

section Serialise

-- The order in which a hash map hands out its entries.
variable (listed : Attrs → List (Text × Text))

def attrsHtml (attrs : Attrs) : Text :=
  (listed attrs).flatMap fun (key, value) => ' ' :: key ++ "=\"".toList ++ value ++ ['"']

mutual

def Element.toHtml : Element → Text
  | ⟨_, tag, attrs, children, text, isVoid⟩ =>
    if tag == "root".toList then allToHtml children
    else if isVoid then '<' :: tag ++ attrsHtml listed attrs ++ " />".toList
    else
      '<' :: tag ++ attrsHtml listed attrs ++ ['>'] ++
        (if isRawTextTag tag then text else escapeHtml text) ++
        allToHtml children ++ "</".toList ++ tag ++ ['>']

def allToHtml : List Element → Text
  | [] => []
  | child :: children => Element.toHtml child ++ allToHtml children

end

end Serialise

end GhitaBrowser.Html
