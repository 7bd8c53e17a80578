import GhitaBrowser.Lib.Scan

/-!
# URLs

Parsing and joining are the work of a library; the browser looks at the parts of the result.
-/

namespace GhitaBrowser.Net

class UrlLibrary (U : Type) where
  parse : Text → Except Text U
  join : U → Text → Except Text U
  scheme : U → Text
  hostStr : U → Option Text
  portOrKnownDefault : U → Option Nat
  path : U → Text
  asStr : U → Text

open UrlLibrary

section

variable {U : Type} [UrlLibrary U]

def isHttp (url : U) : Bool := scheme url == "http".toList || scheme url == "https".toList

def sameOrigin (left right : U) : Bool :=
  scheme left == scheme right && hostStr left == hostStr right &&
    portOrKnownDefault left == portOrKnownDefault right

/-- What two URLs of one origin share. -/
def originParts (url : U) : Text × Option Text × Option Nat :=
  (scheme url, hostStr url, portOrKnownDefault url)

theorem sameOrigin_iff {left right : U} :
    sameOrigin left right = true ↔ originParts left = originParts right := by
  simp [sameOrigin, originParts, and_assoc]

theorem sameOrigin_refl (url : U) : sameOrigin url url = true := sameOrigin_iff.mpr rfl

theorem sameOrigin_trans {first second third : U} (h : sameOrigin first second = true)
    (h' : sameOrigin second third = true) : sameOrigin first third = true :=
  sameOrigin_iff.mpr ((sameOrigin_iff.mp h).trans (sameOrigin_iff.mp h'))

theorem sameOrigin_symm {left right : U} (h : sameOrigin left right = true) :
    sameOrigin right left = true := sameOrigin_iff.mpr (sameOrigin_iff.mp h).symm

end

/-! ## Plain URLs

What a library does with URLs that have no user, port, query or fragment. -/

/-- A URL of scheme, host and path. -/
structure PlainUrl where
  scheme : Text
  host : Text
  path : Text
deriving DecidableEq

/-- `scheme://host/path`, with a host and no port. -/
def PlainUrl.parse (text : Text) : Except Text PlainUrl :=
  match ["https", "http"].find? fun scheme => (scheme.toList ++ "://".toList).isPrefixOf text with
  | none => .error "relative URL without a base".toList
  | some scheme =>
    let rest := text.drop (scheme.length + 3)
    .ok { scheme := scheme.toList, host := rest.takeWhile (· != '/'),
          path := rest.dropWhile (· != '/') }

def PlainUrl.asStr (url : PlainUrl) : Text := url.scheme ++ "://".toList ++ url.host ++ url.path

/-- An absolute reference, or a path on the host. -/
def PlainUrl.join (base : PlainUrl) (reference : Text) : Except Text PlainUrl :=
  match PlainUrl.parse reference with
  | .ok url => .ok url
  | .error _ => .ok { base with path := reference }

instance : UrlLibrary PlainUrl where
  parse := PlainUrl.parse
  join := PlainUrl.join
  scheme := PlainUrl.scheme
  hostStr url := some url.host
  portOrKnownDefault url := some (if url.scheme == "https".toList then 443 else 80)
  path := PlainUrl.path
  asStr := PlainUrl.asStr

end GhitaBrowser.Net
