import Mathlib.Data.List.Nodup
import GhitaBrowser.Lib.History
import GhitaBrowser.Lib.OrdMap
import GhitaBrowser.Storage.Profile

/-!
# The caps of the cookie jar

A jar holds at most 3000 cookies and at most 180 of a domain. A new cookie that finds the
jar full has the oldest cookie evicted before its own domain is looked at, so where that
domain is full too, the cookie is dropped and the oldest one is lost for nothing
(`addCookie_iff`).
-/

namespace GhitaBrowser.Storage

open Html Net List

/-! ## The cookies of a jar -/

def Cookie.key (cookie : Cookie) : Text × Text × Text := (cookie.name, cookie.domain, cookie.path)

theorem sameKey_iff {cookie other : Cookie} : cookie.sameKey other = true ↔ cookie.key = other.key := by
  simp [Cookie.sameKey, Cookie.key, and_assoc]

def allCookies (store : CookieStore) : List Cookie := store.toList.flatMap (·.2)

def cookiesOf (store : CookieStore) (domain : Text) : List Cookie := (store[domain]?).getD []

/-- The cookies with other keys. -/
def others (store : CookieStore) (cookie : Cookie) : List Cookie :=
  (allCookies store).filter fun other => !cookie.sameKey other

def Bounded (store : CookieStore) : Prop :=
  storedCookies store ≤ maxTotalCookies ∧
    ∀ domain, (cookiesOf store domain).length ≤ maxCookiesPerDomain

/-- The new cookie is the only one with its key, and of the others at most one is gone. -/
structure Adds (store after : CookieStore) (cookie : Cookie) : Prop where
  only : (allCookies after).filter cookie.sameKey = [cookie]
  evicted : ∃ evicted : List Cookie, (others store cookie).Perm (evicted ++ others after cookie) ∧
    evicted.length ≤ 1 ∧
    (evicted ≠ [] → maxTotalCookies ≤ storedCookies store ∨
      maxCookiesPerDomain ≤ (cookiesOf store cookie.domain).length)

def AddsOrKeeps (store after : CookieStore) (cookie : Cookie) : Prop :=
  (Adds store after cookie ∨ after = store) ∧ Bounded after

/-- An order in which hash maps hand out the cookies; it leaves none out. -/
structure HashOrder where
  visited : CookieStore → List (Text × Cookie)
  complete : ∀ store,
    (visited store).Perm (store.toList.flatMap fun entry => entry.2.map (entry.1, ·))

/-- The first of the cookies that are as old as any. -/
def IsOldest (cookies : List (Text × Cookie)) (oldest : Text × Cookie) : Prop :=
  ∃ newer later, cookies = newer ++ oldest :: later ∧
    (∀ other ∈ newer, oldest.2.createdAt < other.2.createdAt) ∧
    ∀ other ∈ later, oldest.2.createdAt ≤ other.2.createdAt

/-- The cookie is new to a full jar whose oldest cookie is not of its domain, and that domain is
full. -/
def EvictsInVain (order : HashOrder) (store : CookieStore) (cookie : Cookie) : Prop :=
  cookie.name ≠ [] ∧ (∀ other ∈ cookiesOf store cookie.domain, cookie.key ≠ other.key) ∧
    maxTotalCookies ≤ storedCookies store ∧
    maxCookiesPerDomain ≤ (cookiesOf store cookie.domain).length ∧
    ∀ oldest, IsOldest (order.visited store) oldest → oldest.1 ≠ cookie.domain

/-- What is done to a jar, each addition with the order that the hash maps then have. -/
inductive StoreOperation where
  | add (order : HashOrder) (cookie : Cookie)
  | removeDomain (domain : Text)
  | clearAll
  | cleanExpired (now : Int)

def StoreOperation.apply (store : CookieStore) : StoreOperation → CookieStore
  | .add order cookie => addCookie order.visited store cookie
  | .removeDomain domain => removeDomainCookies store domain
  | .clearAll => ∅
  | .cleanExpired now => Storage.cleanExpired store now

/-- A jar after operations on a new one. -/
def storeAfter (operations : List StoreOperation) : CookieStore :=
  History.run StoreOperation.apply ∅ operations

theorem storedCookies_eq (store : CookieStore) : storedCookies store = (allCookies store).length := by
  rw [storedCookies, allCookies, length_flatMap]

theorem allCookies_perm (store : CookieStore) (domain : Text) :
    (allCookies store).Perm (cookiesOf store domain ++ allCookies (store.erase domain)) := by
  cases found : store[domain]? with
  | none =>
    rw [cookiesOf, found, OrdMap.erase_of_absent found]
    exact List.Perm.refl _
  | some cookies =>
    rw [cookiesOf, found]
    exact (OrdMap.toList_perm found).flatMap_right _

theorem cookiesOf_insert_self (store : CookieStore) (domain : Text) (cookies : List Cookie) :
    cookiesOf (store.insert domain cookies) domain = cookies := by
  rw [cookiesOf, Std.ExtTreeMap.getElem?_insert_self]
  rfl

theorem cookiesOf_insert_of_ne (store : CookieStore) {domain other : Text} (h : other ≠ domain)
    (cookies : List Cookie) : cookiesOf (store.insert domain cookies) other = cookiesOf store other := by
  rw [cookiesOf, Std.ExtTreeMap.getElem?_insert, if_neg, cookiesOf]
  rw [Std.LawfulEqCmp.compare_eq_iff_eq]
  exact Ne.symm h

theorem allCookies_insert (store : CookieStore) (domain : Text) (cookies : List Cookie) :
    (allCookies (store.insert domain cookies)).Perm (cookies ++ allCookies (store.erase domain)) := by
  have split := allCookies_perm (store.insert domain cookies) domain
  rwa [cookiesOf_insert_self, OrdMap.erase_insert] at split

variable {store : CookieStore}

theorem mem_allCookies {cookie : Cookie} :
    cookie ∈ allCookies store ↔ ∃ domain, cookie ∈ cookiesOf store domain := by
  constructor
  · intro stored
    obtain ⟨⟨domain, cookies⟩, entry, member⟩ := mem_flatMap.mp stored
    rw [Std.ExtTreeMap.mem_toList_iff_getElem?_eq_some] at entry
    exact ⟨domain, by rw [cookiesOf, entry]; exact member⟩
  · rintro ⟨domain, member⟩
    exact (allCookies_perm store domain).mem_iff.mpr (mem_append_left _ member)

/-! ## What a jar keeps -/

/-- Cookies lie under their own domains, no two with the same key, within the caps. -/
structure Jar (store : CookieStore) : Prop where
  own : ∀ domain, ∀ cookie ∈ cookiesOf store domain, cookie.domain = domain
  distinct : ∀ domain, ((cookiesOf store domain).map Cookie.key).Nodup
  bounded : Bounded store

theorem jar_empty : Jar ∅ where
  own domain cookie member := by simp [cookiesOf] at member
  distinct domain := by simp [cookiesOf]
  bounded := ⟨(OrdMap.total_empty fun (_ : Text) (cookies : List Cookie) => cookies.length).trans_le (Nat.zero_le _),
    fun domain => by simp [cookiesOf]⟩

section Jar

variable {store : CookieStore}

theorem Jar.elsewhere (jar : Jar store) (cookie : Cookie) :
    ∀ other ∈ allCookies (store.erase cookie.domain), cookie.sameKey other = false := by
  intro other stored
  obtain ⟨domain, member⟩ := mem_allCookies.mp stored
  by_contra same
  have sameDomain : cookie.domain = other.domain :=
    congrArg (·.2.1) (sameKey_iff.mp (Bool.not_eq_false _ ▸ same))
  rw [cookiesOf, Std.ExtTreeMap.getElem?_erase] at member
  split at member
  · cases member
  · next differs =>
    have own := jar.own domain other member
    rw [← own, ← sameDomain] at differs
    exact differs Std.ReflCmp.compare_self

theorem Jar.shrink (jar : Jar store) {after : CookieStore}
    (sub : ∀ domain, (cookiesOf after domain).Sublist (cookiesOf store domain))
    (fewer : storedCookies after ≤ storedCookies store) : Jar after where
  own domain cookie member := jar.own domain cookie ((sub domain).subset member)
  distinct domain := (jar.distinct domain).sublist ((sub domain).map _)
  bounded := ⟨fewer.trans jar.bounded.1, fun domain =>
    (sub domain).length_le.trans (jar.bounded.2 domain)⟩

theorem Jar.insert (jar : Jar store) {domain : Text} {cookies : List Cookie}
    (own : ∀ cookie ∈ cookies, cookie.domain = domain) (distinct : (cookies.map Cookie.key).Nodup)
    (few : cookies.length ≤ maxCookiesPerDomain)
    (total : storedCookies (store.insert domain cookies) ≤ maxTotalCookies) :
    Jar (store.insert domain cookies) where
  own other cookie member := by
    by_cases same : other = domain
    · subst same
      rw [cookiesOf_insert_self] at member
      exact own cookie member
    · rw [cookiesOf_insert_of_ne store same] at member
      exact jar.own other cookie member
  distinct other := by
    by_cases same : other = domain
    · subst same
      rwa [cookiesOf_insert_self]
    · rw [cookiesOf_insert_of_ne store same]
      exact jar.distinct other
  bounded := by
    refine ⟨total, fun other => ?_⟩
    by_cases same : other = domain
    · subst same
      rwa [cookiesOf_insert_self]
    · rw [cookiesOf_insert_of_ne store same]
      exact jar.bounded.2 other

end Jar

theorem perm_cons_filter_key {α κ : Type} [DecidableEq κ] (f : α → κ) {l : List α}
    (distinct : (l.map f).Nodup) {x : α} (member : x ∈ l) :
    l.Perm (x :: l.filter fun y => f y ≠ f x) := by
  induction l with
  | nil => cases member
  | cons a l ih =>
    rw [map_cons, nodup_cons] at distinct
    rcases mem_cons.mp member with rfl | inTail
    · have all : l.filter (fun y => f y ≠ f x) = l := by
        refine filter_eq_self.mpr fun y hy => decide_eq_true ?_
        exact fun same => distinct.1 (same ▸ mem_map_of_mem hy)
      rw [filter_cons_of_neg (by simp), all]
    · have differs : f a ≠ f x := fun same => distinct.1 (same ▸ mem_map_of_mem inTail)
      rw [filter_cons_of_pos (by simpa using differs)]
      exact ((ih distinct.2 inTail).cons a).trans (List.Perm.swap ..)

theorem not_sameKey_eq (cookie : Cookie) :
    (fun other => !cookie.sameKey other) = fun other => decide (other.key ≠ cookie.key) := by
  funext other
  rw [Bool.eq_iff_iff, Bool.not_eq_true', decide_eq_true_iff, ← Bool.not_eq_true, sameKey_iff,
    ne_comm]

theorem storedCookies_insert (store : CookieStore) (domain : Text) (cookies : List Cookie) :
    storedCookies (store.insert domain cookies) + (cookiesOf store domain).length =
      storedCookies store + cookies.length := by
  have before := (allCookies_perm store domain).length_eq
  have after := (allCookies_insert store domain cookies).length_eq
  rw [length_append] at before after
  rw [storedCookies_eq, storedCookies_eq, before, after]
  omega

/-! ## Eviction -/

/-- One more cookie in the search for the oldest. -/
def olderOf (oldest : Option (Text × Cookie)) (candidate : Text × Cookie) : Option (Text × Cookie) :=
  match oldest with
  | none => some candidate
  | some found => if candidate.2.createdAt < found.2.createdAt then some candidate else oldest

theorem oldestCookie_concat (cookies : List (Text × Cookie)) (last : Text × Cookie) :
    oldestCookie (cookies ++ [last]) = olderOf (oldestCookie cookies) last := by
  unfold oldestCookie
  rw [foldl_append]
  rfl

theorem oldestCookie_cases (cookies : List (Text × Cookie)) :
    cookies = [] ∧ oldestCookie cookies = none ∨
      ∃ oldest, oldestCookie cookies = some oldest ∧ IsOldest cookies oldest := by
  induction cookies using reverseRecOn with
  | nil => exact .inl ⟨rfl, rfl⟩
  | append_singleton cookies last ih =>
    right
    rw [oldestCookie_concat]
    rcases ih with ⟨rfl, none'⟩ | ⟨oldest, found, newer, later, rfl, younger, least⟩
    · exact ⟨last, by rw [none', olderOf], [], [], rfl, nofun, nofun⟩
    · rw [found, olderOf]
      by_cases older : last.2.createdAt < oldest.2.createdAt
      · refine ⟨last, if_pos older, newer ++ oldest :: later, [], rfl, ?_, nofun⟩
        intro other before
        rcases mem_append.mp before with isNewer | notNewer
        · exact older.trans (younger other isNewer)
        · rcases mem_cons.mp notNewer with rfl | isLater
          · exact older
          · exact older.trans_le (least other isLater)
      · refine ⟨oldest, if_neg older, newer, later ++ [last], by simp, younger, ?_⟩
        intro other after
        rcases mem_append.mp after with isLater | isLast
        · exact least other isLater
        · rw [mem_singleton.mp isLast]
          exact Int.not_lt.mp older

variable {cookies : List (Text × Cookie)}

theorem IsOldest.mem {oldest : Text × Cookie}
    (isOldest : IsOldest cookies oldest) : oldest ∈ cookies := by
  obtain ⟨newer, later, rfl, -⟩ := isOldest
  exact mem_append_right _ (mem_cons_self ..)

theorem IsOldest.unique {first second : Text × Cookie}
    (isFirst : IsOldest cookies first) (isSecond : IsOldest cookies second) : first = second := by
  obtain ⟨newer, later, rfl, younger, least⟩ := isFirst
  obtain ⟨newer', later', split, younger', least'⟩ := isSecond
  rcases append_eq_append_iff.mp split with ⟨between, rfl, rest⟩ | ⟨between, rfl, rest⟩
  · cases between with
    | nil => exact (List.cons.inj rest).1
    | cons head between =>
      obtain ⟨rfl, rfl⟩ := List.cons.inj rest
      have strict := younger' first (mem_append_right _ (mem_cons_self ..))
      have weak := least second (mem_append_right _ (mem_cons_self ..))
      exact absurd strict (Int.not_lt.mpr weak)
  · cases between with
    | nil => exact (List.cons.inj rest).1.symm
    | cons head between =>
      obtain ⟨rfl, rfl⟩ := List.cons.inj rest
      have strict := younger second (mem_append_right _ (mem_cons_self ..))
      have weak := least' first (mem_append_right _ (mem_cons_self ..))
      exact absurd strict (Int.not_lt.mpr weak)

/-- A jar after at most one of its cookies has been taken out. -/
structure Room (store roomy : CookieStore) (evicted : List Cookie) : Prop where
  perm : (allCookies store).Perm (evicted ++ allCookies roomy)
  few : evicted.length ≤ 1
  sub : ∀ domain, (cookiesOf roomy domain).Sublist (cookiesOf store domain)
  elsewhere : ∀ domain, (∀ cookie ∈ evicted, cookie.domain ≠ domain) →
    cookiesOf roomy domain = cookiesOf store domain
  shorter : ∀ cookie ∈ evicted,
    (cookiesOf roomy cookie.domain).length + 1 = (cookiesOf store cookie.domain).length

theorem Room.refl (store : CookieStore) : Room store store [] where
  perm := List.Perm.refl _
  few := Nat.zero_le 1
  sub _ := List.Sublist.refl _
  elsewhere _ _ := rfl
  shorter := nofun

theorem Room.jar {store roomy : CookieStore} {evicted : List Cookie}
    (room : Room store roomy evicted) (jar : Jar store) : Jar roomy := by
  refine jar.shrink room.sub ?_
  rw [storedCookies_eq, storedCookies_eq, room.perm.length_eq, length_append]
  exact Nat.le_add_left _ _

section Evict

variable {order : HashOrder} {store : CookieStore}

theorem mem_visited {entry : Text × Cookie} :
    entry ∈ order.visited store ↔ entry.2 ∈ cookiesOf store entry.1 := by
  rw [(order.complete store).mem_iff, mem_flatMap]
  constructor
  · rintro ⟨⟨domain, cookies⟩, stored, member⟩
    obtain ⟨cookie, inCookies, rfl⟩ := mem_map.mp member
    rw [Std.ExtTreeMap.mem_toList_iff_getElem?_eq_some] at stored
    rw [cookiesOf, stored]
    exact inCookies
  · intro member
    rw [cookiesOf] at member
    cases found : store[entry.1]? with
    | none => simp [found] at member
    | some cookies =>
      rw [found] at member
      exact ⟨(entry.1, cookies), (Std.ExtTreeMap.mem_toList_iff_getElem?_eq_some).mpr found,
        mem_map_of_mem member⟩

theorem evictOldest_of_room (notFull : storedCookies store < maxTotalCookies) :
    evictOldest order.visited store = store := if_neg (Nat.not_le.mpr notFull)

theorem evictOldest_of_full (order : HashOrder) (jar : Jar store) (full : maxTotalCookies ≤ storedCookies store) :
    ∃ oldest, IsOldest (order.visited store) (oldest.domain, oldest) ∧
      Room store (evictOldest order.visited store) [oldest] := by
  have notEmpty : order.visited store ≠ [] := by
    intro empty
    have none' : allCookies store = [] := by
      refine eq_nil_iff_forall_not_mem.mpr fun cookie stored => ?_
      obtain ⟨domain, member⟩ := mem_allCookies.mp stored
      have seen : (domain, cookie) ∈ order.visited store := mem_visited.mpr member
      rw [empty] at seen
      cases seen
    rw [storedCookies_eq, none'] at full
    exact absurd full (by decide)
  rcases oldestCookie_cases (order.visited store) with ⟨empty, -⟩ | ⟨⟨domain, oldest⟩, found, first⟩
  · exact absurd empty notEmpty
  · have member : oldest ∈ cookiesOf store domain := mem_visited.mp first.mem
    obtain rfl := jar.own domain oldest member
    refine ⟨oldest, first, ?_⟩
    -- the cookies of its domain that stay
    have kept : (cookiesOf store oldest.domain).Perm
        (oldest :: (cookiesOf store oldest.domain).filter fun cookie => !cookie.sameKey oldest) := by
      have same : (fun cookie : Cookie => !cookie.sameKey oldest) =
          fun cookie => decide (cookie.key ≠ oldest.key) := by
        funext cookie
        rw [Bool.eq_iff_iff, Bool.not_eq_true', decide_eq_true_iff, ← Bool.not_eq_true, sameKey_iff]
      rw [same]
      exact perm_cons_filter_key Cookie.key (jar.distinct _) member
    have evicts : evictOldest order.visited store = store.insert oldest.domain
        ((cookiesOf store oldest.domain).filter fun cookie => !cookie.sameKey oldest) := by
      unfold evictOldest
      rw [if_pos full, found]
      dsimp only
      rw [cookiesOf] at member ⊢
      cases stored : store[oldest.domain]? with
      | none => simp [stored] at member
      | some cookies => rfl
    rw [evicts]
    constructor
    · refine (allCookies_perm store oldest.domain).trans ?_
      refine (kept.append_right _).trans ?_
      exact ((allCookies_insert store _ _).symm.cons oldest)
    · exact Nat.le_refl 1
    · intro domain
      by_cases same : domain = oldest.domain
      · subst same
        rw [cookiesOf_insert_self]
        exact filter_sublist
      · rw [cookiesOf_insert_of_ne store same]
    · intro domain differs
      exact cookiesOf_insert_of_ne store (differs oldest (mem_singleton_self _)).symm _
    · intro cookie isOldest
      rw [mem_singleton.mp isOldest, cookiesOf_insert_self]
      exact kept.length_eq.symm

theorem evictOldest_room (order : HashOrder) (jar : Jar store) :
    ∃ evicted, Room store (evictOldest order.visited store) evicted ∧
      storedCookies (evictOldest order.visited store) < maxTotalCookies ∧
      (evicted = [] ∧ evictOldest order.visited store = store ∨
        maxTotalCookies ≤ storedCookies store ∧
          ∃ oldest, evicted = [oldest] ∧
            IsOldest (order.visited store) (oldest.domain, oldest)) := by
  by_cases full : maxTotalCookies ≤ storedCookies store
  · obtain ⟨oldest, isOldest, room⟩ := evictOldest_of_full order jar full
    refine ⟨[oldest], room, ?_, .inr ⟨full, oldest, rfl, isOldest⟩⟩
    have fewer := room.perm.length_eq
    rw [singleton_append, length_cons, ← storedCookies_eq, ← storedCookies_eq] at fewer
    exact Nat.lt_of_succ_le (fewer.symm.le.trans jar.bounded.1)
  · have roomy := Nat.not_le.mp full
    rw [evictOldest_of_room roomy]
    exact ⟨[], Room.refl store, roomy, .inl ⟨rfl, rfl⟩⟩

end Evict

/-! ## Adding a cookie -/

section Add

variable {order : HashOrder} {store : CookieStore} {cookie : Cookie}

theorem addCookie_unnamed (unnamed : cookie.name = []) :
    addCookie order.visited store cookie = store := by
  rw [addCookie, unnamed]
  rfl

/-- The source's steps, over the cookies of the domain. -/
theorem addCookie_eq (named : cookie.name ≠ []) :
    addCookie order.visited store cookie =
      let roomy := if (cookiesOf store cookie.domain).any cookie.sameKey then store
        else evictOldest order.visited store
      let entry := cookiesOf roomy cookie.domain
      if !entry.any cookie.sameKey && maxCookiesPerDomain ≤ entry.length then
        roomy.insert cookie.domain entry
      else roomy.insert cookie.domain (cookie :: entry.filter fun other => !cookie.sameKey other) := by
  have replacing : (store[cookie.domain]?).any (·.any cookie.sameKey) =
      (cookiesOf store cookie.domain).any cookie.sameKey := by
    rw [cookiesOf]
    cases store[cookie.domain]? <;> rfl
  have isNamed : cookie.name.isEmpty = false := by
    rwa [← Bool.not_eq_true, List.isEmpty_iff]
  rw [addCookie, isNamed, if_neg Bool.false_ne_true, replacing]
  rfl

theorem addCookie_replacing (named : cookie.name ≠ [])
    (replacing : ∃ other ∈ cookiesOf store cookie.domain, cookie.key = other.key) :
    addCookie order.visited store cookie = store.insert cookie.domain
      (cookie :: (cookiesOf store cookie.domain).filter fun other => !cookie.sameKey other) := by
  have has : (cookiesOf store cookie.domain).any cookie.sameKey = true := by
    obtain ⟨other, member, same⟩ := replacing
    exact any_eq_true.mpr ⟨other, member, sameKey_iff.mpr same⟩
  rw [addCookie_eq named]
  simp only [has, if_true, Bool.not_true, Bool.false_and, Bool.false_eq_true, if_false]

theorem insert_cookiesOf {domain : Text} (present : cookiesOf store domain ≠ []) :
    store.insert domain (cookiesOf store domain) = store := by
  rw [cookiesOf] at present ⊢
  cases found : store[domain]? with
  | none => exact absurd (by rw [found]; rfl) present
  | some cookies =>
    refine Std.ExtTreeMap.ext_getElem? fun other => ?_
    rw [Std.ExtTreeMap.getElem?_insert]
    split
    · next same => rw [← Std.LawfulEqCmp.eq_of_compare same, found]; rfl
    · rfl

/-- A cookie with a new key is put to the others of its domain, or is dropped where these are
too many. -/
theorem addCookie_new (named : cookie.name ≠ [])
    (new : ∀ other ∈ cookiesOf store cookie.domain, cookie.key ≠ other.key)
    (sub : (cookiesOf (evictOldest order.visited store) cookie.domain).Sublist
      (cookiesOf store cookie.domain)) :
    addCookie order.visited store cookie =
      let roomy := evictOldest order.visited store
      if maxCookiesPerDomain ≤ (cookiesOf roomy cookie.domain).length then roomy
      else roomy.insert cookie.domain (cookie :: cookiesOf roomy cookie.domain) := by
  have differs : ∀ other ∈ cookiesOf store cookie.domain, cookie.sameKey other = false :=
    fun other member => Bool.eq_false_iff.mpr (mt sameKey_iff.mp (new other member))
  have notThere : (cookiesOf store cookie.domain).any cookie.sameKey = false :=
    List.any_eq_false.mpr fun other member => ne_true_of_eq_false (differs other member)
  have notAfter : (cookiesOf (evictOldest order.visited store) cookie.domain).any cookie.sameKey =
      false := List.any_eq_false.mpr fun other member =>
    ne_true_of_eq_false (differs other (sub.subset member))
  have all : (cookiesOf (evictOldest order.visited store) cookie.domain).filter
      (fun other => !cookie.sameKey other) = cookiesOf (evictOldest order.visited store) cookie.domain :=
    filter_eq_self.mpr fun other member => by rw [differs other (sub.subset member)]; rfl
  rw [addCookie_eq named]
  simp only [notThere, notAfter, all, Bool.false_eq_true, if_false, Bool.not_false, Bool.true_and,
    decide_eq_true_eq]
  split
  · next tooMany =>
    refine insert_cookiesOf fun empty => ?_
    rw [empty] at tooMany
    exact absurd tooMany (by decide)
  · rfl

/-! ## What an addition does to a jar -/

theorem filter_sameKey_elsewhere (jar : Jar store) (cookie : Cookie) :
    (allCookies (store.erase cookie.domain)).filter cookie.sameKey = [] :=
  filter_eq_nil_iff.mpr fun other stored =>
    ne_true_of_eq_false (jar.elsewhere cookie other stored)

theorem others_perm (jar : Jar store) (cookie : Cookie) :
    (others store cookie).Perm
      ((cookiesOf store cookie.domain).filter (fun other => !cookie.sameKey other) ++
        allCookies (store.erase cookie.domain)) := by
  have split := (allCookies_perm store cookie.domain).filter fun other => !cookie.sameKey other
  rw [filter_append] at split
  have all : (allCookies (store.erase cookie.domain)).filter (fun other => !cookie.sameKey other) =
      allCookies (store.erase cookie.domain) :=
    filter_eq_self.mpr fun other stored => by rw [jar.elsewhere cookie other stored]; rfl
  rwa [all] at split

theorem adds_insert {roomy : CookieStore} {kept evicted : List Cookie} (jar : Jar roomy)
    (distinct : ∀ other ∈ kept, cookie.key ≠ other.key)
    (leaves : (others store cookie).Perm
      (evicted ++ (kept ++ allCookies (roomy.erase cookie.domain)))) (few : evicted.length ≤ 1)
    (capped : evicted ≠ [] → maxTotalCookies ≤ storedCookies store) :
    Adds store (roomy.insert cookie.domain (cookie :: kept)) cookie := by
  have keptOut : kept.filter cookie.sameKey = [] := filter_eq_nil_iff.mpr
    fun other member => mt sameKey_iff.mp (distinct other member)
  have keptAll : kept.filter (fun other => !cookie.sameKey other) = kept :=
    filter_eq_self.mpr fun other member => by
      rw [Bool.eq_false_iff.mpr (mt sameKey_iff.mp (distinct other member))]
      rfl
  have itself : cookie.sameKey cookie = true := sameKey_iff.mpr rfl
  have elsewhere := jar.elsewhere cookie
  have inserted := allCookies_insert roomy cookie.domain (cookie :: kept)
  constructor
  · have only := inserted.filter cookie.sameKey
    rw [filter_append, filter_cons_of_pos itself, keptOut,
      filter_sameKey_elsewhere jar cookie] at only
    exact only.eq_singleton
  · refine ⟨evicted, leaves.trans (List.Perm.append_left _ ?_), few, fun gone => .inl (capped gone)⟩
    have rest := inserted.filter fun other => !cookie.sameKey other
    have restAll : (allCookies (roomy.erase cookie.domain)).filter
        (fun other => !cookie.sameKey other) = allCookies (roomy.erase cookie.domain) :=
      filter_eq_self.mpr fun other stored => by rw [elsewhere other stored]; rfl
    rw [filter_append, filter_cons_of_neg (by simp [itself]), keptAll, restAll] at rest
    exact rest.symm

theorem addCookie_replaces (jar : Jar store) (named : cookie.name ≠ [])
    (replacing : ∃ other ∈ cookiesOf store cookie.domain, cookie.key = other.key) :
    Jar (addCookie order.visited store cookie) ∧
      Adds store (addCookie order.visited store cookie) cookie := by
  rw [addCookie_replacing named replacing]
  obtain ⟨other, member, same⟩ := replacing
  have kept : (cookiesOf store cookie.domain).Perm
      (other :: (cookiesOf store cookie.domain).filter fun old => !cookie.sameKey old) := by
    rw [not_sameKey_eq, same]
    exact perm_cons_filter_key Cookie.key (jar.distinct _) member
  have keptDiffers : ∀ old ∈ (cookiesOf store cookie.domain).filter (fun old => !cookie.sameKey old),
      cookie.key ≠ old.key := by
    intro old inKept equal
    have notSame := (mem_filter.mp inKept).2
    rw [sameKey_iff.mpr equal] at notSame
    cases notSame
  have length := kept.length_eq
  rw [length_cons] at length
  constructor
  · refine jar.insert ?_ ?_ ?_ ?_
    · intro old inNew
      rcases mem_cons.mp inNew with rfl | inKept
      · rfl
      · exact jar.own _ old (mem_filter.mp inKept).1
    · refine nodup_cons.mpr ⟨?_, (jar.distinct _).sublist (filter_sublist.map _)⟩
      intro inKeys
      obtain ⟨old, inKept, equal⟩ := mem_map.mp inKeys
      exact keptDiffers old inKept equal.symm
    · rw [length_cons, ← length]
      exact jar.bounded.2 _
    · have total := storedCookies_insert store cookie.domain
        (cookie :: (cookiesOf store cookie.domain).filter fun old => !cookie.sameKey old)
      rw [length_cons, ← length, Nat.add_right_cancel_iff] at total
      rw [total]
      exact jar.bounded.1
  · exact adds_insert jar keptDiffers (others_perm jar cookie) (length_nil.le.trans zero_le_one)
      fun gone => absurd rfl gone

/-- A cookie with a new key is added to the jar once there is room, or the jar stays with the
room. -/
theorem addCookie_adds (order : HashOrder) (jar : Jar store) (named : cookie.name ≠ [])
    (new : ∀ other ∈ cookiesOf store cookie.domain, cookie.key ≠ other.key) :
    Jar (addCookie order.visited store cookie) ∧
      (addCookie order.visited store cookie = evictOldest order.visited store ∧
          maxCookiesPerDomain ≤
            (cookiesOf (evictOldest order.visited store) cookie.domain).length ∨
        Adds store (addCookie order.visited store cookie) cookie ∧
          (cookiesOf (evictOldest order.visited store) cookie.domain).length <
            maxCookiesPerDomain) := by
  obtain ⟨evicted, room, fits, cases'⟩ := evictOldest_room order jar
  have roomyJar := room.jar jar
  rw [addCookie_new named new (room.sub _)]
  generalize evictOldest order.visited store = roomy at *
  dsimp only
  split
  · next tooMany => exact ⟨roomyJar, .inl ⟨rfl, tooMany⟩⟩
  · next few =>
    have few := Nat.not_le.mp few
    have newHere : ∀ other ∈ cookiesOf roomy cookie.domain, cookie.key ≠ other.key :=
      fun other member => new other ((room.sub _).subset member)
    refine ⟨roomyJar.insert ?_ ?_ few ?_, .inr ⟨?_, few⟩⟩
    · intro other inNew
      rcases mem_cons.mp inNew with rfl | inOld
      · rfl
      · exact roomyJar.own _ other inOld
    · refine nodup_cons.mpr ⟨?_, roomyJar.distinct _⟩
      intro inKeys
      obtain ⟨other, inOld, equal⟩ := mem_map.mp inKeys
      exact newHere other inOld equal.symm
    · have total := storedCookies_insert roomy cookie.domain
        (cookie :: cookiesOf roomy cookie.domain)
      rw [length_cons, ← Nat.add_assoc, Nat.add_right_comm, Nat.add_right_cancel_iff] at total
      rw [total]
      exact fits
    · refine adds_insert roomyJar newHere ?_ room.few ?_
      · -- none of the old cookies has the key
        have all : others store cookie = allCookies store := by
          refine filter_eq_self.mpr fun other stored => ?_
          have differs : cookie.sameKey other = false := by
            rcases mem_append.mp ((allCookies_perm store cookie.domain).mem_iff.mp stored)
              with own | elsewhere
            · exact Bool.eq_false_iff.mpr (mt sameKey_iff.mp (new other own))
            · exact jar.elsewhere cookie other elsewhere
          rw [differs]
          rfl
        rw [all]
        exact room.perm.trans ((allCookies_perm roomy cookie.domain).append_left _)
      · intro gone
        rcases cases' with ⟨none', -⟩ | ⟨full, -⟩
        · exact absurd none' gone
        · exact full

theorem Jar.addCookie (jar : Jar store) (order : HashOrder) (cookie : Cookie) :
    Jar (addCookie order.visited store cookie) := by
  by_cases named : cookie.name = []
  · rw [addCookie_unnamed named]
    exact jar
  · by_cases new : ∀ other ∈ cookiesOf store cookie.domain, cookie.key ≠ other.key
    · exact (addCookie_adds order jar named new).1
    · push Not at new
      exact (addCookie_replaces jar named new).1

end Add

/-! ## Runs -/

theorem Jar.filter (jar : Jar store) (stays : Text → List Cookie → Bool) :
    Jar (store.filter stays) := by
  refine jar.shrink (fun domain => ?_) ?_
  · rw [cookiesOf, cookiesOf, Std.ExtTreeMap.getElem?_filter']
    cases store[domain]? with
    | none => exact List.Sublist.refl _
    | some cookies =>
      rw [Option.filter_some]
      split
      · exact List.Sublist.refl _
      · exact nil_sublist _
  · rw [storedCookies, Std.ExtTreeMap.toList_filter]
    exact (filter_sublist.map _).sum_le_sum fun _ _ => Nat.zero_le _

theorem Jar.keepCookies (jar : Jar store) (keep : Cookie → Bool) :
    Jar (keepCookies keep store) := by
  unfold Storage.keepCookies
  refine jar.shrink (fun domain => ?_) ?_
  · rw [cookiesOf, cookiesOf, Std.ExtTreeMap.getElem?_filterMap']
    cases store[domain]? with
    | none => exact List.Sublist.refl _
    | some cookies =>
      rw [Option.bind_some]
      dsimp only
      split
      · exact nil_sublist _
      · exact filter_sublist
  · rw [storedCookies, storedCookies, Std.ExtTreeMap.toList_filterMap]
    induction store.toList with
    | nil => exact Nat.le_refl _
    | cons entry entries ih =>
      have fewer := length_filter_le keep entry.2
      rw [filterMap_cons]
      dsimp only
      split
      · exact ih.trans (Nat.le_add_left _ _)
      · next kept =>
        split at kept
        · cases kept
        · obtain rfl := Option.some.inj kept
          exact Nat.add_le_add fewer ih

theorem Jar.apply (jar : Jar store) (operation : StoreOperation) :
    Jar (operation.apply store) := by
  cases operation with
  | add order cookie => exact jar.addCookie order cookie
  | removeDomain domain => exact jar.filter _
  | clearAll => exact jar_empty
  | cleanExpired now => exact jar.keepCookies _

theorem jar_storeAfter (operations : List StoreOperation) : Jar (storeAfter operations) :=
  History.run_invariant _ jar_empty (fun _ operation jar => jar.apply operation) operations

section Vain

variable {order : HashOrder} {store : CookieStore} {cookie : Cookie}

theorem not_addsOrKeeps_of_vain (jar : Jar store) (vain : EvictsInVain order store cookie) :
    ¬AddsOrKeeps store (addCookie order.visited store cookie) cookie := by
  obtain ⟨named, new, full, crowded, notOwn⟩ := vain
  obtain ⟨oldest, isOldest, room⟩ := evictOldest_of_full order jar full
  have apart : cookiesOf (evictOldest order.visited store) cookie.domain =
      cookiesOf store cookie.domain := by
    refine room.elsewhere _ fun evicted isIt => ?_
    rw [mem_singleton.mp isIt]
    exact notOwn _ isOldest
  rcases (addCookie_adds order jar named new).2 with ⟨dropped, -⟩ | ⟨-, few⟩
  · rw [dropped]
    rintro ⟨adds | keeps, -⟩
    · -- no cookie of the domain has the new one's key
      have stored : cookie ∈ allCookies (evictOldest order.visited store) := by
        have isOnly : cookie ∈ [cookie] := mem_singleton_self _
        rw [← adds.only] at isOnly
        exact (mem_filter.mp isOnly).1
      obtain ⟨domain, member⟩ := mem_allCookies.mp stored
      have here : cookie ∈ cookiesOf store cookie.domain := by
        have before := (room.sub domain).subset member
        rwa [← jar.own domain cookie before] at before
      exact new cookie here rfl
    · have length := room.perm.length_eq
      rw [keeps, singleton_append, length_cons] at length
      exact absurd length (Nat.ne_of_lt (Nat.lt_succ_self _))
  · rw [apart] at few
    exact absurd few (Nat.not_lt.mpr crowded)

theorem addsOrKeeps_of_not_vain (jar : Jar store) (notVain : ¬EvictsInVain order store cookie) :
    AddsOrKeeps store (addCookie order.visited store cookie) cookie := by
  refine ⟨?_, (jar.addCookie order cookie).bounded⟩
  by_cases named : cookie.name = []
  · exact .inr (addCookie_unnamed named)
  by_cases new : ∀ other ∈ cookiesOf store cookie.domain, cookie.key ≠ other.key
  · rcases (addCookie_adds order jar named new).2 with ⟨dropped, crowded⟩ | ⟨adds, -⟩
    · obtain ⟨evicted, room, -, ⟨-, same⟩ | ⟨full, oldest, rfl, isOldest⟩⟩ :=
        evictOldest_room order jar
      · exact .inr (dropped.trans same)
      · refine absurd ⟨named, new, full, crowded.trans (room.sub _).length_le, ?_⟩ notVain
        -- an eviction from the cookie's own domain would have left room for it
        intro other isOther own
        obtain rfl := isOther.unique isOldest
        have shorter := room.shorter oldest (mem_singleton_self _)
        dsimp only at own
        rw [own] at shorter
        have bounded := jar.bounded.2 cookie.domain
        rw [← shorter] at bounded
        exact absurd crowded (Nat.not_le.mpr bounded)
    · exact .inl adds
  · push Not at new
    exact .inl (addCookie_replaces jar named new).2

end Vain

/-- An addition to a jar puts the cookie there and evicts at most one other, at a cap, or leaves
the jar as it is, unless it evicts a cookie in vain. -/
theorem addCookie_iff (operations : List StoreOperation) (order : HashOrder) (cookie : Cookie) :
    AddsOrKeeps (storeAfter operations)
        (addCookie order.visited (storeAfter operations) cookie) cookie ↔
      ¬EvictsInVain order (storeAfter operations) cookie := by
  constructor
  · intro meets vain
    exact not_addsOrKeeps_of_vain (jar_storeAfter operations) vain meets
  · exact addsOrKeeps_of_not_vain (jar_storeAfter operations)

/-! ## A flooded jar -/

theorem IsOldest.le {oldest other : Text × Cookie}
    (isOldest : IsOldest cookies oldest) (member : other ∈ cookies) :
    oldest.2.createdAt ≤ other.2.createdAt := by
  obtain ⟨newer, later, rfl, younger, least⟩ := isOldest
  rcases mem_append.mp member with isNewer | notNewer
  · exact (younger other isNewer).le
  · rcases mem_cons.mp notNewer with rfl | isLater
    · exact Int.le_refl _
    · exact least other isLater

theorem cookiesOf_perm (jar : Jar store) (domain : Text) :
    (cookiesOf store domain).Perm ((allCookies store).filter (·.domain == domain)) := by
  have split := (allCookies_perm store domain).filter (·.domain == domain)
  have own : (cookiesOf store domain).filter (·.domain == domain) = cookiesOf store domain :=
    filter_eq_self.mpr fun cookie member => beq_iff_eq.mpr (jar.own domain cookie member)
  have elsewhere : (allCookies (store.erase domain)).filter (·.domain == domain) = [] := by
    refine filter_eq_nil_iff.mpr fun cookie stored same => ?_
    obtain rfl := beq_iff_eq.mp same
    have differs := jar.elsewhere cookie cookie stored
    rw [sameKey_iff.mpr rfl] at differs
    cases differs
  rw [filter_append, own, elsewhere, append_nil] at split
  exact split.symm

theorem storeAfter_adds (order : HashOrder) {cookies : List Cookie}
    (named : ∀ cookie ∈ cookies, cookie.name ≠ []) (distinct : (cookies.map Cookie.key).Nodup)
    (few : cookies.length ≤ maxTotalCookies)
    (fewEach : ∀ domain, (cookies.filter (·.domain == domain)).length ≤ maxCookiesPerDomain) :
    (allCookies (storeAfter (cookies.map (.add order)))).Perm cookies := by
  induction cookies using reverseRecOn with
  | nil => exact List.Perm.refl _
  | append_singleton cookies cookie ih =>
    have isLast : cookie ∈ cookies ++ [cookie] := mem_append_right _ (mem_singleton_self _)
    rw [map_append, nodup_append] at distinct
    rw [length_append] at few
    have before := ih (fun old member => named old (mem_append_left _ member)) distinct.1
      (Nat.le_of_succ_le few) fun domain => by
        refine le_trans ?_ (fewEach domain)
        rw [filter_append, length_append]
        exact Nat.le_add_right _ _
    rw [map_append, storeAfter, map_singleton, History.run_concat, ← storeAfter]
    have jar := jar_storeAfter (cookies.map (.add order))
    generalize storeAfter (cookies.map (.add order)) = store at before jar ⊢
    have own := cookiesOf_perm jar cookie.domain
    have roomy : storedCookies store < maxTotalCookies := by
      rw [storedCookies_eq, before.length_eq]
      exact few
    have few := fewEach cookie.domain
    rw [filter_append, length_append, filter_cons_of_pos (by simp)] at few
    have new : ∀ old ∈ cookiesOf store cookie.domain, cookie.key ≠ old.key := by
      intro old member same
      have stored := before.mem_iff.mp (mem_allCookies.mpr ⟨_, member⟩)
      exact distinct.2.2 _ (mem_map_of_mem stored) _ (mem_singleton_self _) same.symm
    have fits : (cookiesOf store cookie.domain).length < maxCookiesPerDomain := by
      rw [own.length_eq, (before.filter _).length_eq]
      exact few
    rw [StoreOperation.apply, addCookie_new (named cookie isLast) new
      (by rw [evictOldest_of_room roomy]), evictOldest_of_room roomy]
    dsimp only
    rw [if_neg (Nat.not_le.mpr fits)]
    refine (allCookies_insert store cookie.domain _).trans ?_
    rw [cons_append]
    refine ((allCookies_perm store cookie.domain).symm.cons cookie).trans ?_
    exact (before.cons cookie).trans (perm_append_singleton cookie cookies).symm

/-- The order of the domains, and of each domain's own list. -/
def storedOrder : HashOrder where
  visited store := store.toList.flatMap fun entry => entry.2.map (entry.1, ·)
  complete _ := List.Perm.refl _

/-- The cookies of a site with many subdomains; those of the first one are newer. -/
def floodCookie (index : Nat) : Cookie where
  name := List.replicate (index % 180 + 1) 'n'
  value := []
  domain := List.replicate (index / 180 + 1) 'd'
  path := ['/']
  expires := none
  secure := false
  httpOnly := false
  sameSite := "lax".toList
  createdAt := if index < 180 then 1 else 0

def flood : List Cookie := (List.range 3000).map floodCookie

theorem floodCookie_key {i j : Nat} (same : (floodCookie i).key = (floodCookie j).key) : i = j := by
  have names := congrArg (List.length ∘ (·.1)) same
  have domains := congrArg (List.length ∘ (·.2.1)) same
  simp only [Cookie.key, floodCookie, Function.comp_apply, length_replicate] at names domains
  omega

theorem flood_nodup : (flood.map Cookie.key).Nodup := by
  rw [flood, map_map]
  exact List.Nodup.map (fun _ _ same => floodCookie_key same) nodup_range

theorem mem_flood {cookie : Cookie} : cookie ∈ flood ↔ ∃ i < 3000, floodCookie i = cookie := by
  simp [flood]

theorem flood_fewEach (domain : Text) :
    (flood.filter (·.domain == domain)).length ≤ maxCookiesPerDomain := by
  have sub : flood.filter (·.domain == domain) ⊆
      (range' (180 * (domain.length - 1)) 180).map floodCookie := by
    intro cookie member
    obtain ⟨inFlood, same⟩ := mem_filter.mp member
    obtain ⟨i, -, rfl⟩ := mem_flood.mp inFlood
    have length := congrArg List.length (beq_iff_eq.mp same)
    simp only [floodCookie, length_replicate] at length
    refine mem_map_of_mem (mem_range'_1.mpr ?_)
    omega
  have nodup : (flood.filter (·.domain == domain)).Nodup :=
    (List.Nodup.of_map _ flood_nodup).filter _
  have few := (subperm_of_subset nodup sub).length_le
  rwa [length_map, length_range'] at few

/-- The jar is full, and so is the first subdomain. -/
def floodedStore : CookieStore := storeAfter (flood.map (.add storedOrder))

theorem floodedStore_perm : (allCookies floodedStore).Perm flood := by
  refine storeAfter_adds storedOrder ?_ flood_nodup ?_ flood_fewEach
  · intro cookie member
    obtain ⟨i, -, rfl⟩ := mem_flood.mp member
    exact cons_ne_nil _ _
  · rw [flood, length_map, length_range]
    exact Nat.le_refl _

def lateCookie : Cookie := { floodCookie 0 with name := "late".toList, createdAt := 2 }

theorem floodedStore_vain : EvictsInVain storedOrder floodedStore lateCookie := by
  have jar : Jar floodedStore := jar_storeAfter _
  have own := cookiesOf_perm jar lateCookie.domain
  refine ⟨cons_ne_nil _ _, ?_, ?_, ?_, ?_⟩
  · intro other member same
    obtain ⟨i, -, rfl⟩ := mem_flood.mp
      (floodedStore_perm.mem_iff.mp (mem_allCookies.mpr ⟨_, member⟩))
    have head := congrArg (·.1.head?) same
    rw [Cookie.key, Cookie.key, floodCookie, replicate_succ] at head
    cases head
  · rw [storedCookies_eq, floodedStore_perm.length_eq, flood, length_map, length_range]
    exact Nat.le_refl _
  · have sub : (List.range 180).map floodCookie ⊆ cookiesOf floodedStore lateCookie.domain := by
      intro cookie member
      obtain ⟨i, small, rfl⟩ := mem_map.mp member
      rw [mem_range] at small
      refine own.mem_iff.mpr (mem_filter.mpr ⟨?_, ?_⟩)
      · exact floodedStore_perm.mem_iff.mpr (mem_flood.mpr ⟨i, small.trans (by decide), rfl⟩)
      · rw [floodCookie, Nat.div_eq_of_lt small]
        rfl
    have nodup : ((List.range 180).map floodCookie).Nodup :=
      List.Nodup.map (fun _ _ same => floodCookie_key (congrArg Cookie.key same)) nodup_range
    have many := (subperm_of_subset nodup sub).length_le
    rwa [length_map, length_range] at many
  · intro oldest isOldest here
    have stored : oldest.2 ∈ cookiesOf floodedStore oldest.1 := mem_visited.mp isOldest.mem
    obtain ⟨i, -, isFlood⟩ := mem_flood.mp
      (floodedStore_perm.mem_iff.mp (mem_allCookies.mpr ⟨_, stored⟩))
    have domain := jar.own _ _ stored
    rw [here, ← isFlood] at domain
    have first : i < 180 := by
      have length := congrArg List.length domain
      simp only [floodCookie, lateCookie, length_replicate] at length
      omega
    -- the first cookie of the second subdomain is older
    have second : ((floodCookie 180).domain, floodCookie 180) ∈ storedOrder.visited floodedStore := by
      refine mem_visited.mpr ((cookiesOf_perm jar _).mem_iff.mpr (mem_filter.mpr ⟨?_, ?_⟩))
      · exact floodedStore_perm.mem_iff.mpr (mem_flood.mpr ⟨180, by decide, rfl⟩)
      · exact beq_self_eq_true _
    have older := isOldest.le second
    rw [← isFlood, floodCookie, if_pos first] at older
    exact absurd older (show ¬(1 : Int) ≤ 0 by decide)

/-- A late cookie of the full subdomain is dropped, and an older cookie of another one is lost. -/
theorem flood_evicts_in_vain :
    ¬AddsOrKeeps (storeAfter (flood.map (.add storedOrder)))
      (addCookie storedOrder.visited (storeAfter (flood.map (.add storedOrder))) lateCookie)
      lateCookie :=
  not_addsOrKeeps_of_vain (jar_storeAfter _) floodedStore_vain

end GhitaBrowser.Storage
