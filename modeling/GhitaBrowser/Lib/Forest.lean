import Mathlib.Data.List.Nodup
import Mathlib.Logic.Relation

/-!
# Forests stored as parent and child links

A store maps some keys to their links: the parent and the list of children. It is a
forest when the two directions agree, no list has a duplicate and no key is its own
ancestor. Four edits keep that: a new key, a link below a key that is no descendant,
the removal of a link, and the removal of everything below a key. The last one happens
key by key; `Pruning` says what holds in between.
-/

namespace GhitaBrowser

open List

structure Links (α : Type) where
  parent : Option α
  children : List α

abbrev LinkStore (α : Type) := α → Option (Links α)

namespace LinkStore

variable {α : Type}

/-- `s` says that `p` is the parent of `c`. -/
def IsParent (s : LinkStore α) (c p : α) : Prop := ∃ links, s c = some links ∧ links.parent = some p

/-- `s` lists `c` among the children of `p`. -/
def Lists (s : LinkStore α) (p c : α) : Prop := ∃ links, s p = some links ∧ c ∈ links.children

/-- One or more parent links lead from `x` to `y`. -/
def Below (s : LinkStore α) : α → α → Prop := Relation.TransGen s.IsParent

structure IsForest (s : LinkStore α) : Prop where
  agree : ∀ p c, s.Lists p c ↔ s.IsParent c p
  nodup : ∀ p links, s p = some links → links.children.Nodup
  acyclic : ∀ x, ¬ s.Below x x

theorem isParent_unique {s : LinkStore α} {c p q : α} (hp : s.IsParent c p)
    (hq : s.IsParent c q) : p = q := by
  obtain ⟨links, hc, hp⟩ := hp
  obtain ⟨others, hc', hq⟩ := hq
  rw [hc] at hc'
  obtain rfl := Option.some.inj hc'
  exact Option.some.inj (hp.symm.trans hq)

theorem Below.mono {s t : LinkStore α} (h : ∀ c p, t.IsParent c p → s.IsParent c p) {x y : α}
    (below : t.Below x y) : s.Below x y :=
  Relation.TransGen.mono h x y below

namespace IsForest

variable {s : LinkStore α}

theorem child_exists (forest : s.IsForest) {p c : α} (h : s.Lists p c) : (s c).isSome := by
  obtain ⟨links, hc, -⟩ := (forest.agree p c).mp h
  rw [hc]
  rfl

theorem parent_exists (forest : s.IsForest) {p c : α} (h : s.IsParent c p) : (s p).isSome := by
  obtain ⟨links, hp, -⟩ := (forest.agree p c).mpr h
  rw [hp]
  rfl

theorem ne_of_isParent (forest : s.IsForest) {p c : α} (h : s.IsParent c p) : c ≠ p := by
  rintro rfl
  exact forest.acyclic c (.single h)

theorem empty : IsForest (fun _ => none : LinkStore α) where
  agree p c := ⟨fun ⟨_, h, _⟩ => (nomatch h), fun ⟨_, h, _⟩ => (nomatch h)⟩
  nodup _ _ h := nomatch h
  acyclic x below := by
    cases below with
    | single h => exact nomatch h.choose_spec.1
    | tail _ h => exact nomatch h.choose_spec.1

end IsForest

variable [DecidableEq α]

/-! ## A new key -/

/-- `x` without a parent and without children. -/
def create (s : LinkStore α) (x : α) : LinkStore α := Function.update s x (some ⟨none, []⟩)

theorem isParent_create {s : LinkStore α} {x : α} (hx : s x = none) (c p : α) :
    (s.create x).IsParent c p ↔ s.IsParent c p := by
  by_cases h : c = x
  · subst h
    simp [IsParent, create, hx]
  · simp [IsParent, create, Function.update_of_ne h]

theorem lists_create {s : LinkStore α} {x : α} (hx : s x = none) (p c : α) :
    (s.create x).Lists p c ↔ s.Lists p c := by
  by_cases h : p = x
  · subst h
    simp [Lists, create, hx]
  · simp [Lists, create, Function.update_of_ne h]

theorem IsForest.create {s : LinkStore α} (forest : s.IsForest) {x : α} (hx : s x = none) :
    (s.create x).IsForest where
  agree p c := by rw [lists_create hx, isParent_create hx, forest.agree]
  nodup p links h := by
    by_cases hp : p = x
    · subst hp
      rw [LinkStore.create, Function.update_self] at h
      obtain rfl := Option.some.inj h
      exact nodup_nil
    · rw [LinkStore.create, Function.update_of_ne hp] at h
      exact forest.nodup p links h
  acyclic y below := forest.acyclic y (below.mono fun c p => (isParent_create hx c p).mp)

/-! ## A new link -/

/-- `c` becomes the last child of `p`. -/
def link (s : LinkStore α) (p c : α) : LinkStore α :=
  let s := Function.update s p ((s p).map fun links => { links with children := links.children ++ [c] })
  Function.update s c ((s c).map fun links => { links with parent := some p })

section Link

variable {s : LinkStore α} {p c : α}

theorem isSome_link (x : α) : (s.link p c x).isSome = (s x).isSome := by
  by_cases hc : x = c
  · subst hc
    by_cases hp : x = p
    · subst hp
      simp [link]
    · simp [link, Function.update_of_ne hp]
  · by_cases hp : x = p
    · subst hp
      simp [link, hc]
    · simp [link, hc, hp]

theorem isParent_link (hc : (s c).isSome) (hne : c ≠ p) (x y : α) :
    (s.link p c).IsParent x y ↔ if x = c then y = p else s.IsParent x y := by
  obtain ⟨links, hlinks⟩ := Option.isSome_iff_exists.mp hc
  by_cases hx : x = c
  · subst hx
    simp [IsParent, link, Function.update_of_ne hne, hlinks, eq_comm]
  · by_cases hxp : x = p
    · subst hxp
      cases hs : s x <;> simp [IsParent, link, hx, hs]
    · simp [IsParent, link, Function.update_of_ne hxp, hx]

theorem lists_link (hp : (s p).isSome) (hne : c ≠ p) (x y : α) :
    (s.link p c).Lists x y ↔ s.Lists x y ∨ (x = p ∧ y = c) := by
  obtain ⟨links, hlinks⟩ := Option.isSome_iff_exists.mp hp
  by_cases hx : x = p
  · subst hx
    simp [Lists, link, Function.update_of_ne hne.symm, hlinks]
  · by_cases hxc : x = c
    · subst hxc
      cases hs : s x <;> simp [Lists, link, hne, hs]
    · simp [Lists, link, Function.update_of_ne hxc, hx]

/-- A path of the new store uses the new link only from the part below `c`. -/
theorem below_link (hc : (s c).isSome) (hne : c ≠ p) {x y : α} (below : (s.link p c).Below x y) :
    s.Below x y ∨ (Relation.ReflTransGen s.IsParent x c ∧ Relation.ReflTransGen s.IsParent p y) := by
  induction below with
  | single h =>
    rw [isParent_link hc hne] at h
    split at h
    · next hx =>
      subst hx h
      exact .inr ⟨.refl, .refl⟩
    · exact .inl (.single h)
  | @tail y z _ h ih =>
    rw [isParent_link hc hne] at h
    split at h
    · next hy =>
      subst hy h
      cases ih with
      | inl below => exact .inr ⟨below.to_reflTransGen, .refl⟩
      | inr path => exact .inr ⟨path.1, .refl⟩
    · cases ih with
      | inl below => exact .inl (below.tail h)
      | inr path => exact .inr ⟨path.1, path.2.tail h⟩

theorem IsForest.link (forest : s.IsForest) (hp : (s p).isSome) {links : Links α}
    (hc : s c = some links) (hroot : links.parent = none)
    (hcycle : ¬ Relation.ReflTransGen s.IsParent p c) : (s.link p c).IsForest := by
  have hne : c ≠ p := by
    rintro rfl
    exact hcycle .refl
  have hsome : (s c).isSome := by rw [hc]; rfl
  have hnone (y : α) : ¬ s.IsParent c y := by
    rintro ⟨others, hc', hparent⟩
    rw [hc] at hc'
    obtain rfl := Option.some.inj hc'
    rw [hroot] at hparent
    cases hparent
  refine ⟨fun x y => ?_, fun x others h => ?_, fun x below => ?_⟩
  · rw [lists_link hp hne, isParent_link hsome hne, forest.agree]
    split
    · next hy =>
      subst hy
      simp [hnone]
    · next hy => simp [hy]
  · by_cases hxc : x = c
    · subst hxc
      rw [LinkStore.link, Function.update_self, Function.update_of_ne hne, hc] at h
      obtain rfl := Option.some.inj h
      exact forest.nodup x links hc
    · rw [LinkStore.link, Function.update_of_ne hxc] at h
      by_cases hxp : x = p
      · subst hxp
        obtain ⟨before, hbefore⟩ := Option.isSome_iff_exists.mp hp
        rw [Function.update_self, hbefore] at h
        obtain rfl := Option.some.inj h
        refine nodup_append.mpr ⟨forest.nodup x before hbefore, nodup_singleton c, ?_⟩
        rintro y hy z hz rfl
        obtain rfl := mem_singleton.mp hz
        exact hnone x ((forest.agree x y).mp ⟨before, hbefore, hy⟩)
      · rw [Function.update_of_ne hxp] at h
        exact forest.nodup x others h
  · cases below_link hsome hne below with
    | inl below => exact forest.acyclic x below
    | inr path => exact hcycle (path.2.trans path.1)

end Link

/-! ## A link removed -/

/-- `c` is no child of `p` any more and has no parent. -/
def unlink (s : LinkStore α) (p c : α) : LinkStore α :=
  let s := Function.update s p
    ((s p).map fun links => { links with children := links.children.filter (· ≠ c) })
  Function.update s c ((s c).map fun links => { links with parent := none })

section Unlink

variable {s : LinkStore α} {p c : α}

theorem isSome_unlink (x : α) : (s.unlink p c x).isSome = (s x).isSome := by
  by_cases hc : x = c
  · subst hc
    by_cases hp : x = p
    · subst hp
      simp [unlink]
    · simp [unlink, Function.update_of_ne hp]
  · by_cases hp : x = p
    · subst hp
      simp [unlink, hc]
    · simp [unlink, hc, hp]

theorem isParent_unlink (hne : c ≠ p) (x y : α) :
    (s.unlink p c).IsParent x y ↔ x ≠ c ∧ s.IsParent x y := by
  by_cases hx : x = c
  · subst hx
    cases hs : s x <;> simp [IsParent, unlink, Function.update_of_ne hne, hs]
  · by_cases hxp : x = p
    · subst hxp
      cases hs : s x <;> simp [IsParent, unlink, hx, hs]
    · simp [IsParent, unlink, Function.update_of_ne hxp, hx]

theorem lists_unlink (hne : c ≠ p) (x y : α) :
    (s.unlink p c).Lists x y ↔ s.Lists x y ∧ ¬ (x = p ∧ y = c) := by
  by_cases hx : x = p
  · subst hx
    cases hs : s x <;> simp [Lists, unlink, Function.update_of_ne hne.symm, hs]
  · by_cases hxc : x = c
    · subst hxc
      cases hs : s x <;> simp [Lists, unlink, hne, hs]
    · simp [Lists, unlink, Function.update_of_ne hxc, hx]

theorem IsForest.unlink (forest : s.IsForest) (h : s.IsParent c p) : (s.unlink p c).IsForest := by
  have hne : c ≠ p := forest.ne_of_isParent h
  refine ⟨fun x y => ?_, fun x links hx => ?_, fun x below => ?_⟩
  · rw [lists_unlink hne, isParent_unlink hne, forest.agree]
    constructor
    · rintro ⟨hparent, hnot⟩
      refine ⟨?_, hparent⟩
      rintro rfl
      exact hnot ⟨isParent_unique hparent h, rfl⟩
    · rintro ⟨hy, hparent⟩
      exact ⟨hparent, fun heq => hy heq.2⟩
  · by_cases hxc : x = c
    · subst hxc
      rw [LinkStore.unlink, Function.update_self, Function.update_of_ne hne] at hx
      obtain ⟨before, hbefore, rfl⟩ := Option.map_eq_some_iff.mp hx
      exact forest.nodup x before hbefore
    · rw [LinkStore.unlink, Function.update_of_ne hxc] at hx
      by_cases hxp : x = p
      · subst hxp
        rw [Function.update_self] at hx
        obtain ⟨before, hbefore, rfl⟩ := Option.map_eq_some_iff.mp hx
        exact (forest.nodup x before hbefore).filter _
      · rw [Function.update_of_ne hxp] at hx
        exact forest.nodup x links hx
  · exact forest.acyclic x (below.mono fun a b hab => ((isParent_unlink hne a b).mp hab).2)

end Unlink

/-! ## Everything below a key removed -/

def erase (s : LinkStore α) (x : α) : LinkStore α := Function.update s x none

def clearChildren (s : LinkStore α) (x : α) : LinkStore α :=
  Function.update s x ((s x).map fun links => { links with children := [] })

/-- The state `s` of the removal of everything below `n` in `origin`: the keys of `work`
and what is below them are still to be removed. -/
structure Pruning (origin : LinkStore α) (n : α) (work : List α) (s : LinkStore α) : Prop where
  origin_of : ∀ x links, s x = some links → origin x = some links
  kept : s n = origin n
  listed : ∀ p c, p ≠ n → s.Lists p c → s.IsParent c p
  linked : ∀ c p, s.IsParent c p → (p ≠ n ∧ s.Lists p c) ∨ c ∈ work
  below : ∀ c ∈ work, origin.Below c n
  unlisted : ∀ c ∈ work, ∀ p, p ≠ n → ¬ s.Lists p c

namespace Pruning

variable {origin s : LinkStore α} {n : α} {work : List α}

theorem start (forest : s.IsForest) {links : Links α} (hn : s n = some links) :
    Pruning s n links.children s where
  origin_of _ _ h := h
  kept := rfl
  listed p c _ := (forest.agree p c).mp
  linked c p h := by
    have hlists := (forest.agree p c).mpr h
    by_cases hp : p = n
    · subst hp
      obtain ⟨others, hp, hc⟩ := hlists
      rw [hn] at hp
      obtain rfl := Option.some.inj hp
      exact .inr hc
    · exact .inl ⟨hp, hlists⟩
  below c hc := .single ((forest.agree n c).mp ⟨links, hn, hc⟩)
  unlisted c hc p hp h := by
    have hcn : s.IsParent c n := (forest.agree n c).mp ⟨links, hn, hc⟩
    exact hp (isParent_unique ((forest.agree p c).mp h) hcn)

omit [DecidableEq α] in
theorem isParent_origin (pruning : Pruning origin n work s) {c p : α} (h : s.IsParent c p) :
    origin.IsParent c p := by
  obtain ⟨links, hc, hp⟩ := h
  exact ⟨links, pruning.origin_of c links hc, hp⟩

omit [DecidableEq α] in
theorem skip {x : α} (pruning : Pruning origin n (x :: work) s) (hx : s x = none) :
    Pruning origin n work s where
  origin_of := pruning.origin_of
  kept := pruning.kept
  listed := pruning.listed
  linked c p h := by
    rcases pruning.linked c p h with hlisted | hwork
    · exact .inl hlisted
    · rcases mem_cons.mp hwork with rfl | hwork
      · obtain ⟨_, hc, -⟩ := h
        rw [hx] at hc
        cases hc
      · exact .inr hwork
  below c hc := pruning.below c (mem_cons_of_mem x hc)
  unlisted c hc := pruning.unlisted c (mem_cons_of_mem x hc)

theorem remove (forest : origin.IsForest) {x : α} {links : Links α}
    (pruning : Pruning origin n (x :: work) s) (hx : s x = some links) :
    Pruning origin n (links.children ++ work) (s.erase x) := by
  have hxn : x ≠ n := by
    rintro rfl
    exact forest.acyclic x (pruning.below x mem_cons_self)
  have hchild {c : α} (hc : c ∈ links.children) : s.IsParent c x :=
    pruning.listed x c hxn ⟨links, hx, hc⟩
  have hkeep {y : α} {others : Links α} : s.erase x y = some others ↔ y ≠ x ∧ s y = some others := by
    by_cases hy : y = x
    · subst hy
      simp [erase]
    · simp [erase, hy]
  have hlists (p c : α) : (s.erase x).Lists p c ↔ p ≠ x ∧ s.Lists p c := by
    simp only [Lists, hkeep, and_assoc, exists_and_left]
  have hparent (c p : α) : (s.erase x).IsParent c p ↔ c ≠ x ∧ s.IsParent c p := by
    simp only [IsParent, hkeep, and_assoc, exists_and_left]
  refine ⟨fun y others hy => pruning.origin_of y others (hkeep.mp hy).2, ?_, fun p c hp h => ?_,
    fun c p h => ?_, fun c hc => ?_, fun c hc p hp h => ?_⟩
  · rw [erase, Function.update_of_ne hxn.symm, pruning.kept]
  · rw [hlists] at h
    rw [hparent]
    refine ⟨?_, pruning.listed p c hp h.2⟩
    rintro rfl
    exact pruning.unlisted c mem_cons_self p hp h.2
  · rw [hparent] at h
    rcases pruning.linked c p h.2 with ⟨hp, hlisted⟩ | hwork
    · by_cases hpx : p = x
      · -- The parent is the key that was removed.
        subst hpx
        obtain ⟨others, hp', hc⟩ := hlisted
        rw [hx] at hp'
        obtain rfl := Option.some.inj hp'
        exact .inr (mem_append_left work hc)
      · exact .inl ⟨hp, (hlists p c).mpr ⟨hpx, hlisted⟩⟩
    · rcases mem_cons.mp hwork with rfl | hwork
      · exact absurd rfl h.1
      · exact .inr (mem_append_right links.children hwork)
  · rcases mem_append.mp hc with hc | hc
    · exact .head (pruning.isParent_origin (hchild hc)) (pruning.below x mem_cons_self)
    · exact pruning.below c (mem_cons_of_mem x hc)
  · rw [hlists] at h
    rcases mem_append.mp hc with hc | hc
    · exact h.1 (isParent_unique (pruning.listed p c hp h.2) (hchild hc))
    · exact pruning.unlisted c (mem_cons_of_mem x hc) p hp h.2

/-- Nothing is left below `n`. -/
theorem finish (forest : origin.IsForest) (pruning : Pruning origin n [] s) :
    (s.clearChildren n).IsForest := by
  have hparent (c p : α) : (s.clearChildren n).IsParent c p ↔ s.IsParent c p := by
    by_cases hc : c = n
    · subst hc
      cases hs : s c <;> simp [IsParent, clearChildren, hs]
    · simp [IsParent, clearChildren, Function.update_of_ne hc]
  have hlists (p c : α) : (s.clearChildren n).Lists p c ↔ p ≠ n ∧ s.Lists p c := by
    by_cases hp : p = n
    · subst hp
      cases hs : s p <;> simp [Lists, clearChildren, hs]
    · simp [Lists, clearChildren, hp]
  refine ⟨fun p c => ?_, fun p links h => ?_, fun x below => ?_⟩
  · rw [hlists, hparent]
    constructor
    · rintro ⟨hp, h⟩
      exact pruning.listed p c hp h
    · intro h
      rcases pruning.linked c p h with hlisted | hwork
      · exact hlisted
      · cases hwork
  · by_cases hp : p = n
    · subst hp
      rw [clearChildren, Function.update_self] at h
      obtain ⟨before, -, rfl⟩ := Option.map_eq_some_iff.mp h
      exact nodup_nil
    · rw [clearChildren, Function.update_of_ne hp] at h
      exact forest.nodup p links (pruning.origin_of p links h)
  · exact forest.acyclic x (below.mono fun c p h => pruning.isParent_origin ((hparent c p).mp h))

end Pruning

end LinkStore

end GhitaBrowser

/-!
## Counted climbs

How many links lead from a key of a store up to another one.
-/

namespace GhitaBrowser.LinkStore

variable {α : Type}

/-- `top` is `count` parents above `x`. -/
def Climbs (s : LinkStore α) : Nat → α → α → Prop
  | 0, x, top => x = top
  | count + 1, x, top => ∃ parent, s.IsParent x parent ∧ s.Climbs count parent top

/-- No key is more than `most` parents above `x`. -/
def Rises (s : LinkStore α) (x : α) (most : Nat) : Prop :=
  ∀ count top, s.Climbs count x top → count ≤ most

section

variable {s t : LinkStore α} {x y z : α} {m n : Nat}

theorem Climbs.mono (h : ∀ c p, s.IsParent c p → t.IsParent c p) (climbs : s.Climbs n x y) :
    t.Climbs n x y := by
  induction n generalizing x with
  | zero => exact climbs
  | succ n ih =>
    obtain ⟨parent, first, rest⟩ := climbs
    exact ⟨parent, h x parent first, ih rest⟩

theorem Climbs.reaches (climbs : s.Climbs n x y) : Relation.ReflTransGen s.IsParent x y := by
  induction n generalizing x with
  | zero =>
    obtain rfl := climbs
    exact .refl
  | succ n ih =>
    obtain ⟨parent, first, rest⟩ := climbs
    exact .head first (ih rest)

theorem rises_of_orphan (h : ∀ p, ¬s.IsParent x p) : s.Rises x 0 := by
  intro count top climbs
  cases count with
  | zero => exact Nat.le_refl 0
  | succ count =>
    obtain ⟨parent, first, -⟩ := climbs
    exact absurd first (h parent)

theorem Rises.le {m n : Nat} (rises : s.Rises x m) (h : m ≤ n) : s.Rises x n :=
  fun count top climbs => Nat.le_trans (rises count top climbs) h

theorem Rises.child {p : α} (rises : s.Rises p n) (only : ∀ q, s.IsParent x q → q = p) :
    s.Rises x (n + 1) := by
  intro count top climbs
  cases count with
  | zero => exact Nat.zero_le _
  | succ count =>
    obtain ⟨parent, first, rest⟩ := climbs
    obtain rfl := only parent first
    exact Nat.succ_le_succ (rises count top rest)

end

variable [DecidableEq α] {s : LinkStore α} {p c : α}

theorem climbs_link (hc : (s c).isSome) (hne : c ≠ p)
    (hcycle : ¬ Relation.ReflTransGen s.IsParent p c) {n : Nat} {x y : α}
    (climbs : (s.link p c).Climbs n x y) :
    s.Climbs n x y ∨ ∃ low high, n = low + 1 + high ∧ s.Climbs low x c ∧ s.Climbs high p y := by
  induction n generalizing x with
  | zero => exact .inl climbs
  | succ n ih =>
    obtain ⟨parent, first, rest⟩ := climbs
    rw [isParent_link hc hne] at first
    split at first
    · next here =>
      subst here first
      -- above the new parent there is no way back to the new link
      rcases ih rest with rest | ⟨low, high, -, back, -⟩
      · exact .inr ⟨0, n, by rw [Nat.zero_add, Nat.add_comm], rfl, rest⟩
      · exact absurd back.reaches hcycle
    · rcases ih rest with rest | ⟨low, high, rfl, below, above⟩
      · exact .inl ⟨parent, first, rest⟩
      · exact .inr ⟨low + 1, high, by rw [Nat.add_right_comm (low + 1)], ⟨parent, first, below⟩, above⟩

end GhitaBrowser.LinkStore
