import GhitaBrowser.Html.Element

/-!
# The HTML parser

`parse_html` reads one token after another from a vector of characters and applies it to
the stack of open elements, kept here with the innermost one first. What a token is does
not depend on the stack.
-/

namespace GhitaBrowser.Html

/-- `str::to_lowercase`, which goes through the Unicode tables. -/
class CaseTables where
  toLowercase : Text → Text

def maxDomDepth : Nat := 64
def maxHtmlBytes : Nat := 10 * 1024 * 1024
def maxAttrsPerElement : Nat := 128
def maxAttrNameLen : Nat := 128
def maxAttrValueLen : Nat := 64 * 1024
def maxRawTextLen : Nat := 2 * 1024 * 1024

/-! ## Characters and references -/

def trimText (text : Text) : Text :=
  ((text.dropWhile isWhitespace).reverse.dropWhile isWhitespace).reverse

def eqIgnoreAsciiCase (a b : Char) : Bool := a.toLower == b.toLower

/-- `s` stands at the head of `chars`, up to ASCII case. -/
def matchesCi (s chars : Text) : Bool :=
  s.length ≤ chars.length && (s.zip chars).all fun (a, b) => eqIgnoreAsciiCase a b

def charsMatchCiAt (chars : Text) (pos : Nat) (s : String) : Bool :=
  matchesCi s.toList (chars.drop pos)

def digitValue (radix : Nat) (c : Char) : Option Nat :=
  let value :=
    if c.isDigit then some (c.toNat - 48)
    else if 'a' ≤ c ∧ c ≤ 'z' then some (c.toNat - 87)
    else if 'A' ≤ c ∧ c ≤ 'Z' then some (c.toNat - 55)
    else none
  value.filter (· < radix)

/-- `u32::from_str_radix`: a leading plus is fine, an empty number and an overflow are not. -/
def parseU32 (radix : Nat) (text : Text) : Option Nat := do
  let digits := if text.head? = some '+' then text.tail else text
  if digits.isEmpty then none
  else
    let value ← digits.foldlM (fun acc c => do return acc * radix + (← digitValue radix c)) 0
    if value < 2 ^ 32 then some value else none

/-- `char::from_u32`. -/
def charFromU32 (codepoint : Nat) : Option Char :=
  if codepoint.isValidChar then some (Char.ofNat codepoint) else none

/-- What stands for the reference `&entity;`. -/
def decodeEntity (entity : Text) : Text :=
  let unchanged := '&' :: entity ++ [';']
  if entity == "amp".toList then ['&']
  else if entity == "lt".toList then ['<']
  else if entity == "gt".toList then ['>']
  else if entity == "quot".toList then ['"']
  else if entity == "apos".toList then ['\'']
  else if entity == "nbsp".toList then [' ']
  else if entity == "copy".toList then ['©']
  else if entity == "reg".toList then ['®']
  else if entity == "trade".toList then ['™']
  else match entity with
    | '#' :: 'x' :: hex =>
      match parseU32 16 hex with
      | some codepoint =>
        ((charFromU32 (if codepoint = 0 then 0xFFFD else codepoint)).map ([·])).getD unchanged
      | none => unchanged
    | '#' :: dec => ((parseU32 10 dec >>= charFromU32).map ([·])).getD unchanged
    | _ => unchanged

/-- `decode_html_entities` with `skipped` characters of a reference still to pass over. -/
def decodeFrom : Nat → Text → Text
  | _, [] => []
  | skipped + 1, _ :: rest => decodeFrom skipped rest
  | 0, c :: rest =>
    if c == '&' then
      -- The closing `;` is looked for among the next 32 characters.
      match (rest.take 32).findIdx? (· == ';') with
      | some length =>
        if 1 < length then decodeEntity (rest.take length) ++ decodeFrom (length + 1) rest
        else '&' :: decodeFrom 0 rest
      | none => '&' :: decodeFrom 0 rest
    else c :: decodeFrom 0 rest

def decodeHtmlEntities (text : Text) : Text := decodeFrom 0 text

/-! ## Tags -/

def isVoidTag (tag : Text) : Bool :=
  ["area", "base", "br", "col", "embed", "hr", "img", "input", "link", "meta", "param", "source",
    "track", "wbr"].any (·.toList == tag)

/-- An open `parentTag` ends where `childTag` begins. -/
def shouldAutoCloseParent (parentTag childTag : Text) : Bool :=
  let among (tags : List String) (tag : Text) : Bool := tags.any (·.toList == tag)
  (among ["p"] parentTag && among ["p", "h1", "h2", "h3", "h4", "h5", "h6", "div", "ul", "ol", "dl",
      "table", "form", "section", "article", "header", "footer", "nav", "main", "aside"] childTag) ||
    (among ["a", "span", "em", "strong", "b", "i", "u", "code"] parentTag &&
      among ["p"] childTag) ||
    (among ["li"] parentTag && among ["li"] childTag) ||
    (among ["dt", "dd"] parentTag && among ["dt", "dd"] childTag) ||
    (among ["option"] parentTag && among ["option"] childTag) ||
    (among ["tr"] parentTag && among ["tr"] childTag) ||
    (among ["th", "td"] parentTag && among ["th", "td", "tr"] childTag) ||
    (among ["thead", "tbody", "tfoot"] parentTag && among ["thead", "tbody", "tfoot"] childTag)

/-! ## Tokens -/

inductive Token where
  /-- A comment, a doctype or a processing instruction. -/
  | skipped
  /-- A `<` that opens nothing. -/
  | lessThan
  | text (content : Text)
  | close (tag : Text)
  /-- A start tag, with the mark of a void or self-closing one in `isVoid`. -/
  | start (element : Element)
  /-- A script or style with its content; `terminated` when its end tag was found. -/
  | raw (element : Element) (content : Text) (terminated : Bool)

/-- `pos < len && chars[pos] == c`. -/
def charIs (chars : Text) (pos : Nat) (c : Char) : Bool := chars[pos]? == some c

/-- Past the next `>`, or at the end. -/
def skipPast (chars : Text) (pos : Nat) : Nat :=
  let stop := skipWhile (· != '>') chars pos
  if stop < chars.length then stop + 1 else stop

section Reading

variable [CaseTables]

open CaseTables

/-- The rest of `</…>`; stray attributes of an end tag are ignored. -/
def readCloseTag (chars : Text) (start : Nat) : Outcome (Token × Nat) := do
  let stop := skipWhile (· != '>') chars start
  let closeTag ← slice chars start stop
  let name := (closeTag.dropWhile isWhitespace).takeWhile fun c => !isWhitespace c
  return (.close (toLowercase (trimText name)), stop + 1)

/-- The body of a comment ends at `-->`, or where there is no room for it. -/
def endsComment (rest : Text) : Bool := rest.length ≤ 2 || rest.take 3 == "-->".toList

/-- The end of a comment, a doctype or other markup that begins at `pos`. -/
def skipMarkup (chars : Text) (pos : Nat) : Nat :=
  if charsMatchCiAt chars pos "<!--" then
    let body := pos + 4
    if charIs chars body '>' then body + 1
    else
      let stop := seek endsComment chars body
      if stop + 2 < chars.length then stop + 3 else chars.length
  else skipPast chars pos

/-- Past the value of an attribute whose name is too long; `quote` is the open quote. -/
def oversizedLength : Option Char → Text → Nat
  | _, [] => 0
  | some quote, c :: rest => oversizedLength (if c == quote then none else some quote) rest + 1
  | none, c :: rest =>
    if c == '>' || c == '/' || isWhitespace c then 0
    else oversizedLength (if c == '"' || c == '\'' then some c else none) rest + 1

/-- At most `maxAttrValueLen` characters. -/
def skipValue (p : Char → Bool) (chars : Text) (pos : Nat) : Nat :=
  pos + (((chars.drop pos).take maxAttrValueLen).takeWhile p).length

/-- The value after a `=`, and where it ends. -/
def readAttrValue (chars : Text) (pos : Nat) : Outcome (Text × Nat) := do
  let pos := skipWhile isWhitespace chars pos
  match chars[pos]? with
  | none => return ([], pos)
  | some c =>
    if c == '"' || c == '\'' then
      let start := pos + 1
      let stop := skipValue (· != c) chars start
      let val ← slice chars start stop
      -- A value that stopped at the cap is cut there, and the scan goes on to its quote.
      let quote := skipWhile (fun d => d != c && d != '>') chars stop
      return (decodeHtmlEntities val, if charIs chars quote c then quote + 1 else quote)
    else if c != '>' then
      let stop := skipValue (fun d => !isWhitespace d && d != '>') chars pos
      let val ← slice chars pos stop
      return (decodeHtmlEntities val, stop)
    else return ([], pos)

/-- The value of the attribute whose name ends before `pos`; without a `=` it is empty. -/
def readAssigned (chars : Text) (pos : Nat) : Outcome (Text × Nat) :=
  if charIs chars pos '=' then readAttrValue chars (pos + 1) else return ([], pos)

/-- What an attribute name is made of; a `<` ends it, so that `<div<p>` opens a `p`. -/
def attrNameChar (c : Char) : Bool :=
  c != '=' && c != '>' && c != '/' && c != '<' && !isWhitespace c

def endsAttrs (chars : Text) (pos : Nat) : Bool :=
  match chars[pos]? with
  | none => true
  | some c => c == '>' || c == '/'

/-- One turn of the attribute loop. -/
def readAttr (chars : Text) : Nat × Attrs → Outcome ((Nat × Attrs) ⊕ (Nat × Attrs))
  | (pos, attrs) => do
    if endsAttrs chars pos then return .inr (pos, attrs)
    let start := skipWhile isWhitespace chars pos
    if endsAttrs chars start then return .inr (start, attrs)
    let stop := skipWhile attrNameChar chars start
    if charIs chars stop '<' then return .inr (stop, attrs)
    let key := toLowercase (← slice chars start stop)
    if maxAttrNameLen < byteLen key then
      return .inl (stop + oversizedLength none (chars.drop stop), attrs)
    let (val, pos) ← readAssigned chars (skipWhile isWhitespace chars stop)
    if key.isEmpty || maxAttrsPerElement ≤ attrs.size then return .inl (pos, attrs)
    return .inl (pos, attrs.insert key val)

/-- The end of a start tag whose attributes end at `pos`, and whether it closes itself. -/
def endStartTag (chars : Text) (pos : Nat) : Nat × Bool :=
  let slash := skipWhile isWhitespace chars (pos + 1)
  let isSelfClosing := charIs chars pos '/' && charIs chars slash '>'
  let pos := if isSelfClosing then slash else pos
  (if charIs chars pos '<' then pos else skipPast chars pos, isSelfClosing)

/-- The content of a script or style that starts at `pos`. -/
def readRawText (chars : Text) (pos : Nat) (element : Element) : Outcome (Token × Nat) := do
  let closeTag := "</".toList ++ element.tag ++ ['>']
  let stop := seek (matchesCi closeTag) chars pos
  if stop < chars.length then
    return (.raw element (← slice chars pos stop) true, stop + closeTag.length)
  else
    return (.raw element (← slice chars pos (min (pos + maxRawTextLen) chars.length)) false,
      chars.length)

def tagNameChar (c : Char) : Bool := c != '>' && c != '/' && !isWhitespace c && c != '<'

/-- A tag that opens at the `<` before `start`. -/
def readStartTag (chars : Text) (start : Nat) : Outcome (Token × Nat) := do
  let start := skipWhile isWhitespace chars start
  let stop := skipWhile tagNameChar chars start
  let tagName := toLowercase (trimText (← slice chars start stop))
  if tagName.isEmpty then return (.skipped, skipPast chars stop)
  let (pos, attrs) ← loop (readAttr chars) (chars.length + 1) (stop, ∅)
  let (pos, isSelfClosing) := endStartTag chars pos
  let isVoid := isVoidTag tagName || isSelfClosing
  let element := { Element.new tagName with attrs, isVoid }
  if !isVoid && isRawTextTag tagName then readRawText chars pos element
  else return (.start element, pos)

/-- The token that begins with the character `c` at `pos`, and the position after it. -/
def readToken (chars : Text) (pos : Nat) (c : Char) : Outcome (Token × Nat) :=
  if c == '<' then
    match chars[pos + 1]? with
    | some '/' => readCloseTag chars (pos + 2)
    | some '!' => return (.skipped, skipMarkup chars pos)
    | some '?' => return (.skipped, skipMarkup chars pos)
    | some d => if d.isAlpha then readStartTag chars (pos + 1) else return (.lessThan, pos + 1)
    | none => return (.lessThan, pos + 1)
  else do
    let stop := skipWhile (· != '<') chars pos
    let content ← slice chars pos stop
    return (.text (trimText (decodeHtmlEntities content)), stop)

end Reading

/-! ## The stack of open elements -/

/-- Close the innermost element. -/
def closeTop : List Element → List Element
  | completed :: parent :: rest => parent.addChild completed :: rest
  | _ => []

/-- Close the element `index` places out, and what is open in it. -/
def closeThrough : Nat → List Element → List Element
  | 0, stack => closeTop stack
  | index + 1, stack => closeThrough index (closeTop stack)

/-- An end tag closes the nearest element of its name; the root is never closed. -/
def applyCloseTag (stack : List Element) (tag : Text) : List Element :=
  match stack.dropLast.findIdx? (·.tag == tag) with
  | some index => closeThrough index stack
  | none => stack

/-- Close the chain of elements that end where `tag` begins. -/
def autoClose (tag : Text) (top : Element) : List Element → List Element
  | [] => [top]
  | parent :: rest =>
    if shouldAutoCloseParent top.tag tag then autoClose tag (parent.addChild top) rest
    else top :: parent :: rest

def modifyTop (f : Element → Element) : List Element → List Element
  | [] => []
  | top :: rest => f top :: rest

def autoCloseStack (tag : Text) : List Element → List Element
  | [] => []
  | top :: rest => autoClose tag top rest

/-- Text joins the text of its element after a space. -/
def appendText (content : Text) (element : Element) : Element :=
  if element.text.isEmpty then { element with text := content }
  else { element with text := element.text ++ ' ' :: content }

def applyStart (element : Element) (stack : List Element) : List Element :=
  if element.isVoid then modifyTop (·.addChild element) stack
  else
    let stack := autoCloseStack element.tag stack
    -- Below the depth cap an element becomes a sibling of its content.
    if maxDomDepth < stack.length + 1 then modifyTop (·.addChild element) stack
    else element :: stack

def applyToken (stack : List Element) : Token → Outcome (List Element)
  | .skipped => return stack
  | .lessThan => return modifyTop (appendText ['<']) stack
  | .text content =>
    return if content.isEmpty then stack else modifyTop (appendText content) stack
  | .close tag => return applyCloseTag stack tag
  | .start element => return applyStart element stack
  | .raw element content terminated => do
    let text ←
      if terminated && maxRawTextLen < byteLen content then truncate content maxRawTextLen
      else pure content
    return modifyTop (·.addChild { element with text }) (autoCloseStack element.tag stack)

/-- Close what is still open. -/
def closeAll (top : Element) : List Element → Element
  | [] => top
  | parent :: rest => closeAll (parent.addChild top) rest

/-- A root with one child and no text of its own is only a wrapper. -/
def unwrapRoot (root : Element) : Element :=
  match root.children, root.text with
  | [child], [] => child
  | _, _ => { root with tag := "html".toList }

section Parse

variable [CaseTables]

/-- One turn of the parser's loop. -/
def parseStep (chars : Text) : Nat × List Element → Outcome ((Nat × List Element) ⊕ List Element)
  | (pos, stack) =>
    match chars[pos]? with
    | none => return .inr stack
    | some c => do
      let (token, next) ← readToken chars pos c
      return .inl (next, ← applyToken stack token)

/-- The input cut off at the size limit. -/
def boundInput (html : Text) : Outcome Text :=
  if maxHtmlBytes < byteLen html then takeBytes html maxHtmlBytes else return html

def parseHtml (html : Text) : Outcome Element := do
  let chars := trimText (← boundInput html)
  if chars.isEmpty then return Element.new "body".toList
  let stack ← loop (parseStep chars) (chars.length + 1) (0, [Element.new "root".toList])
  match stack with
  | [] => return unwrapRoot (Element.new "html".toList)
  | top :: rest => return unwrapRoot (closeAll top rest)

end Parse

end GhitaBrowser.Html
