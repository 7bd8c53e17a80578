import GhitaBrowser.Html.ParserSafety
import GhitaBrowser.Storage.Cookies
import Mathlib.Data.List.Infix

/-!
# Where a cookie goes back to

The scope of a cookie is decided twice: when it is stored, by its Domain attribute or by the
host that sent it, and when it is sent, by the form of the stored domain. The two readings
disagree about a Domain attribute from an address, and about a host with a leading dot.
-/

namespace GhitaBrowser.Storage

open Html Net UrlLibrary List

/-! ## Addresses -/

/-- A decimal number up to 255 without a leading zero. -/
def isOctet (part : Text) : Bool :=
  (List.range 256).any fun value => (toString value).toList == part

/-- Four octets, or an address in brackets. -/
def isIpLiteral (host : Text) : Bool :=
  ((host.splitOn '.').length == 4 && (host.splitOn '.').all isOctet) ||
    (host.head? == some '[' && host.getLast? == some ']')

section

variable [PublicSuffixList]

/-- The labels of the name are a public suffix. -/
def PublicSuffix (domain : Text) : Prop :=
  ∃ labels, normalizedLabels domain = some labels ∧ CoversAll rules (labels.map lowercase)

/-- A header names `domain` in a Domain attribute. -/
def DomainAttribute (header domain : Text) : Prop :=
  ∃ part ∈ header.splitOn ';', ∃ key value, splitAttribute (trimText part) = some (key, value) ∧
    lowercase key = "domain".toList ∧ domain = attributeDomain value

/-- A header from `host` may name `domain`: the host is within it, and it is no public suffix. -/
structure Accepted (header host domain : Text) : Prop where
  named : DomainAttribute header domain
  nonempty : domain ≠ []
  within : hostWithin (lowercase host) domain = true
  notSuffix : ¬PublicSuffix domain

/-- The domain of a cookie that `host` has set with `header` covers `target`. -/
def Covers (header host : Text) (cookie : Cookie) (target : Text) : Prop :=
  cookie.domain = host ∧ target = host ∨
    ∃ domain, cookie.domain = '.' :: domain ∧ Accepted header host domain ∧
      hostWithin target domain = true

end

section

variable [PublicSuffixList] [DateLibrary] [CaseTables]

end

/-! ## What the jar hands out -/

section

variable (visited : CookieStore → List (Text × Cookie))

/-- Every stored cookie lies under its own domain and comes from `source`. -/
def Sourced (source : Cookie → Prop) (store : CookieStore) : Prop :=
  ∀ (domain : Text) (cookies : List Cookie), store[domain]? = some cookies →
    ∀ cookie ∈ cookies, cookie.domain = domain ∧ cookie.name ≠ [] ∧ source cookie

variable {source : Cookie → Prop} {store : CookieStore}

theorem Sourced.mono {source' : Cookie → Prop} (h : Sourced source store)
    (himp : ∀ cookie, source cookie → source' cookie) : Sourced source' store :=
  fun domain cookies hfound cookie hcookie =>
    (h domain cookies hfound cookie hcookie).imp id fun ⟨hname, hsource⟩ =>
      ⟨hname, himp cookie hsource⟩

theorem Sourced.insert (h : Sourced source store) {domain : Text} {cookies : List Cookie}
    (hcookies : ∀ cookie ∈ cookies, cookie.domain = domain ∧ cookie.name ≠ [] ∧ source cookie) :
    Sourced source (store.insert domain cookies) := by
  intro other found hfound
  rw [Std.ExtTreeMap.getElem?_insert] at hfound
  split at hfound
  · next heq =>
    obtain rfl : domain = other := Std.LawfulEqCmp.eq_of_compare heq
    cases hfound
    exact hcookies
  · exact h other found hfound

theorem Sourced.evictOldest (h : Sourced source store) :
    Sourced source (evictOldest visited store) := by
  unfold Storage.evictOldest
  split
  · split
    · exact h
    · next domain oldest holdest =>
      split
      · exact h
      · next cookies hcookies =>
        exact h.insert fun cookie hmem => h domain cookies hcookies cookie (mem_filter.mp hmem).1
  · exact h

theorem Sourced.addCookie (h : Sourced source store) {cookie : Cookie} (hcookie : source cookie) :
    Sourced source (addCookie visited store cookie) := by
  unfold Storage.addCookie
  split
  · exact h
  · next hname =>
    dsimp only
    have hroom : Sourced source (if (store[cookie.domain]?).any (·.any cookie.sameKey) then store
        else Storage.evictOldest visited store) := by
      split
      · exact h
      · exact h.evictOldest visited
    generalize (if (store[cookie.domain]?).any (·.any cookie.sameKey) then store
        else Storage.evictOldest visited store) = roomy at hroom ⊢
    have hentry : ∀ other ∈ (roomy[cookie.domain]?).getD [],
        other.domain = cookie.domain ∧ other.name ≠ [] ∧ source other := by
      cases hfound : roomy[cookie.domain]? with
      | none => exact nofun
      | some cookies => exact hroom _ _ hfound
    split
    · exact hroom.insert hentry
    · refine hroom.insert fun other hother => ?_
      obtain rfl | hother := mem_cons.mp hother
      · exact ⟨rfl, by simpa using hname, hcookie⟩
      · exact hentry other (mem_filter.mp hother).1

end

inductive CookieOperation where
  | addCookie (cookie : Cookie)
  | setCookie (header host : Text)

section

variable [PublicSuffixList] [DateLibrary] [CaseTables]

/-- The cookie that an operation puts into the jar at a time. -/
def CookieOperation.cookie (now : Int) : CookieOperation → Cookie
  | .addCookie cookie => cookie
  | .setCookie header host => fromSetCookieHeader header host now

/-- The stored domain says where the cookie may go: an address has no accepted domain but itself,
and a host that stands for itself does not begin with a dot that covers other hosts. -/
def Contained (now : Int) : CookieOperation → Prop
  | .addCookie _ => True
  | .setCookie header host =>
    let cookie := fromSetCookieHeader header host now
    cookie.name = [] ∨
      (isIpLiteral host = true → cookie.domain = host ∨ cookie.domain = '.' :: host) ∧
      (∀ base, host = '.' :: base → '.' ∈ base → cookie.domain = host → Accepted header host base)

end

/-! ## Samples -/

section

/-- A host of which no part after a dot is an address. -/
def plainHost (host : Text) : Bool :=
  host.tails.all fun
    | '.' :: address => !isIpLiteral address
    | _ => true

/-- The plain URLs that a library accepts. -/
abbrev CheckedUrl := { url : PlainUrl // plainHost (lowercase url.host) = true }

def CheckedUrl.check (url : PlainUrl) : Except Text CheckedUrl :=
  if h : plainHost (lowercase url.host) = true then .ok ⟨url, h⟩
  else .error "invalid international domain name".toList

instance : UrlLibrary CheckedUrl where
  parse text := PlainUrl.parse text >>= CheckedUrl.check
  join base reference := PlainUrl.join base.1 reference >>= CheckedUrl.check
  scheme url := scheme url.1
  hostStr url := hostStr url.1
  portOrKnownDefault url := portOrKnownDefault url.1
  path url := UrlLibrary.path url.1
  asStr url := asStr url.1

abbrev shortList : PublicSuffixList := ⟨"com\ntest\nco.uk\n*.ck\n!www.ck\n".toList⟩

abbrev noDates : DateLibrary := ⟨fun _ => none⟩

end

end GhitaBrowser.Storage
