import GhitaBrowser.Css.Matching
import GhitaBrowser.Lib.Lineage
import Mathlib.Data.List.Induction

/-!
# What a selector asks of a document

A selector asks for an element of the document for each of its compounds. The search climbs
from the target, takes the first ancestor that fits and never comes back, and it reads the
siblings of the target only. It decides the question for the sequences of combinators that
never need more: at most one step to a sibling, from the target, then parents, then ancestors.
-/

namespace GhitaBrowser.Css

open Html List

def ElementMatchingContext.ancestry (ctx : ElementMatchingContext) : ElementAncestry :=
  { tag := ctx.tag, classes := ctx.classes, id := ctx.id, attrs := ctx.attrs }

/-- A document, with what is known of each of its elements when it is the target. -/
structure Document (E : Type) extends Lineage E where
  context : E → ElementMatchingContext
  context_isRoot : ∀ e, (context e).isRoot = (ancestors e).isEmpty
  context_ancestors : ∀ e, (context e).ancestors = (ancestors e).map fun a => (context a).ancestry
  context_previous : ∀ e,
    (context e).previousSiblings = (previous e).map fun sibling => (context sibling).ancestry

namespace Document

variable {E : Type} (doc : Document E)

def Holds (compound : CompoundSelector Selector) (e : E) : Prop :=
  matchesElementContext compound (doc.context e) = true

def Related : Combinator → E → E → Prop
  | .descendant, left, right => left ∈ doc.ancestors right
  | .child, left, right => (doc.ancestors right).head? = some left
  | .adjacentSibling, left, right => (doc.previous right).getLast? = some left
  | .generalSibling, left, right => left ∈ doc.previous right

/-- Elements for the compounds of the selector, with `e` for its target. -/
def Satisfies (selector : Selector) (e : E) : Prop :=
  ∃ element : Nat → E,
    element (selector.components.length - 1) = e ∧
      (∀ i compound, selector.components[i]? = some compound → doc.Holds compound (element i)) ∧
      ∀ i, i + 1 < selector.components.length →
        doc.Related (selector.combinators[i]?.getD .descendant) (element i) (element (i + 1))

/-- The context of an element that is not the target. -/
def simpleContext (e : E) : ElementMatchingContext :=
  .simple (doc.context e).ancestry (doc.ancestors e).isEmpty
    ((doc.ancestors e).map fun a => (doc.context a).ancestry)

/-- The compound asks nothing of an element that is lost when the element is not the target. -/
def Uniform (compound : CompoundSelector Selector) : Prop :=
  ∀ e, matchesElementContext compound (doc.simpleContext e) =
    matchesElementContext compound (doc.context e)

/-- A compound to the left of the target as a link of a path. -/
def link (step : Combinator × CompoundSelector Selector) : (E → E → Prop) × (E → Prop) :=
  (doc.Related step.1, doc.Holds step.2)

end Document

/-- The combinators from the target to the left. -/
def Selector.links (selector : Selector) : List Combinator :=
  (steps selector.components selector.combinators).map Prod.fst

/-- Parents first, then ancestors. -/
def climbs : List Combinator → Bool
  | [] => true
  | .child :: rest => climbs rest
  | .descendant :: rest => rest.all (· == .descendant)
  | _ => false

/-- The combinators, from the target to the left, that the search decides. -/
def searchable : List Combinator → Bool
  | .adjacentSibling :: rest => climbs rest
  | .generalSibling :: rest => climbs rest
  | combinators => climbs combinators

/-! ## Steps -/

theorem matchComponents_eq (components : List (CompoundSelector Selector)) :
    matchComponents components = components.map matchesElementContext := by
  induction components with
  | nil => rfl
  | cons compound components ih => rw [matchComponents, ih, map_cons]

theorem steps_map {α β : Type} (f : α → β) (components : List α) (combinators : List Combinator) :
    steps (components.map f) combinators =
      (steps components combinators).map fun step => (step.1, f step.2) := by
  simp [steps, map_reverse, mapIdx_eq_zipIdx_map, zipIdx_map, Function.comp_def,
    ← map_dropLast]

variable {combinators : List Combinator}

theorem mem_steps {α : Type} {components : List α}
    {step : Combinator × α} (h : step ∈ steps components combinators) :
    step.2 ∈ components.dropLast := by
  rw [steps, mem_reverse, mem_mapIdx] at h
  obtain ⟨i, hi, hstep⟩ := h
  rw [← hstep]
  exact getElem_mem hi

section

variable {E : Type} (doc : Document E)

theorem path_steps (combinators : List Combinator) (components : List (CompoundSelector Selector))
    (e : E) :
    Lineage.Path e ((components.mapIdx fun i compound =>
        (combinators[i]?.getD .descendant, compound)).reverse.map doc.link) ↔
      ∃ element : Nat → E, element components.length = e ∧
        (∀ i compound, components[i]? = some compound → doc.Holds compound (element i)) ∧
        ∀ i < components.length,
          doc.Related (combinators[i]?.getD .descendant) (element i) (element (i + 1)) := by
  induction components using reverseRecOn generalizing e with
  | nil =>
    simp only [mapIdx_nil, reverse_nil, map_nil, Lineage.Path, length_nil,
      true_iff]
    exact ⟨fun _ => e, rfl, by simp, by simp⟩
  | append_singleton init compound ih =>
    simp only [mapIdx_append, mapIdx_cons, mapIdx_nil, reverse_append,
      reverse_cons, reverse_nil, nil_append, map_cons, cons_append,
      Nat.zero_add, Lineage.Path, Document.link]
    constructor
    · rintro ⟨left, hrelated, hholds, hpath⟩
      obtain ⟨element, hleft, hall, hlinks⟩ := (ih left).1 hpath
      have hbelow : ∀ i ≤ init.length,
          Function.update element (init.length + 1) e i = element i := fun i hi =>
        Function.update_of_ne (by omega) ..
      refine ⟨Function.update element (init.length + 1) e, by simp, fun i other hother => ?_,
        fun i hi => ?_⟩
      · rw [List.getElem?_append] at hother
        split at hother
        · next hi => rw [hbelow i (by omega)]; exact hall i other hother
        · next hi =>
          have hlast : i = init.length := by
            have := List.getElem?_eq_some_iff.1 hother
            simp at this
            omega
          subst hlast
          obtain rfl : compound = other := by simpa using hother
          rw [hbelow _ (by omega), hleft]
          exact hholds
      · simp only [length_append, length_cons, length_nil] at hi
        rw [hbelow i (by omega)]
        by_cases hlast : i = init.length
        · subst hlast
          rw [Function.update_self, hleft]
          exact hrelated
        · rw [hbelow (i + 1) (by omega)]
          exact hlinks i (by omega)
    · rintro ⟨element, hright, hall, hlinks⟩
      simp only [length_append, length_cons, length_nil] at hright hlinks
      refine ⟨element init.length, ?_, hall init.length compound (by simp), ?_⟩
      · rw [← hright]
        exact hlinks init.length (by omega)
      · refine (ih _).2 ⟨element, rfl, fun i other hother => ?_, fun i hi => hlinks i (by omega)⟩
        have hi := (List.getElem?_eq_some_iff.1 hother).1
        exact hall i other (by rw [List.getElem?_append_left hi]; exact hother)

theorem satisfies_iff {selector : Selector} {init : List (CompoundSelector Selector)}
    {target : CompoundSelector Selector} (h : selector.components = init ++ [target]) (e : E) :
    doc.Satisfies selector e ↔ doc.Holds target e ∧
      Lineage.Path e ((steps selector.components selector.combinators).map doc.link) := by
  rw [steps, h, dropLast_concat, path_steps]
  simp only [Document.Satisfies, h, length_append, length_cons, length_nil,
    Nat.add_sub_cancel]
  constructor
  · rintro ⟨element, he, hall, hlinks⟩
    refine ⟨he ▸ hall init.length target (by simp), element, he, fun i compound hi => ?_,
      fun i hi => hlinks i (by omega)⟩
    have hlt := (List.getElem?_eq_some_iff.1 hi).1
    exact hall i compound (by rw [List.getElem?_append_left hlt]; exact hi)
  · rintro ⟨htarget, element, he, hall, hlinks⟩
    refine ⟨element, he, fun i compound hi => ?_, fun i hi => hlinks i (by omega)⟩
    rw [List.getElem?_append] at hi
    split at hi
    · exact hall i compound hi
    · next hlast =>
      obtain rfl : i = init.length := by
        have := List.getElem?_eq_some_iff.1 hi
        simp at this
        omega
      obtain rfl : target = compound := by simpa using hi
      exact he ▸ htarget

/-! ## The search -/

/-- The search tests an ancestor as the element it is. -/
theorem ancestorContext_eq {e a : E} {i : Nat} (h : (doc.ancestors e)[i]? = some a) :
    ancestorContext (doc.context e) i (doc.context a).ancestry = doc.simpleContext a := by
  have hup := doc.ancestors_at h
  have hlt := (List.getElem?_eq_some_iff.1 h).1
  have hroot : (i + 1 == (doc.ancestors e).length) = (doc.ancestors a).isEmpty := by
    rw [hup, Bool.eq_iff_iff, beq_iff_eq, List.isEmpty_iff, drop_eq_nil_iff]
    omega
  simp only [ancestorContext, Document.simpleContext, doc.context_ancestors, length_map,
    hroot, hup, map_drop]

theorem siblingContext_eq {e sibling : E} (h : sibling ∈ doc.previous e) :
    siblingContext (doc.context e) (doc.context sibling).ancestry = doc.simpleContext sibling := by
  have hup := doc.ancestors_previous h
  have hroot : (doc.ancestors e).isEmpty = false :=
    isEmpty_eq_false_iff.2 (doc.ancestors_ne_nil h)
  simp only [siblingContext, Document.simpleContext, doc.context_ancestors, hup, hroot]

variable {compound : CompoundSelector Selector}

/-- What the search tests of an ancestor is what holds of it. -/
theorem ancestor_holds (huniform : doc.Uniform compound)
    (e : E) (i : Nat) :
    ((doc.context e).ancestors[i]?).any
        (fun ancestor => matchesElementContext compound (ancestorContext (doc.context e) i ancestor)) =
          true ↔
      ∃ a, (doc.ancestors e)[i]? = some a ∧ doc.Holds compound a := by
  rw [doc.context_ancestors, List.getElem?_map]
  cases hat : (doc.ancestors e)[i]? with
  | none => simp
  | some a =>
    simp [ancestorContext_eq doc hat, huniform a, Document.Holds]

theorem findAncestor_spec (huniform : doc.Uniform compound)
    (e : E) (cursor : Nat) :
    match findAncestor (doc.context e) (matchesElementContext compound) cursor with
    | none => ∀ i ≥ cursor, ∀ a, (doc.ancestors e)[i]? = some a → ¬doc.Holds compound a
    | some found =>
      cursor ≤ found ∧ (∃ a, (doc.ancestors e)[found]? = some a ∧ doc.Holds compound a) ∧
        ∀ i ≥ cursor, ∀ a, (doc.ancestors e)[i]? = some a → doc.Holds compound a → found ≤ i := by
  have hlength : (doc.context e).ancestors.length = (doc.ancestors e).length := by
    rw [doc.context_ancestors, length_map]
  have hrange : ∀ i ≥ cursor, ∀ a, (doc.ancestors e)[i]? = some a →
      i < cursor + ((doc.ancestors e).length - cursor) := by
    intro i hi a hat
    have := (List.getElem?_eq_some_iff.1 hat).1
    omega
  cases hfind : findAncestor (doc.context e) (matchesElementContext compound) cursor with
  | none =>
    intro i hi a hat hholds
    rw [findAncestor, hlength, List.find?_range'_eq_none] at hfind
    have hmisses := hfind i hi (hrange i hi a hat)
    simp [(ancestor_holds doc huniform e i).2 ⟨a, hat, hholds⟩] at hmisses
  | some found =>
    rw [findAncestor, hlength, List.find?_range'_eq_some] at hfind
    obtain ⟨hfits, hmem, hfirst⟩ := hfind
    refine ⟨(mem_range'_1.1 hmem).1, (ancestor_holds doc huniform e found).1 hfits, ?_⟩
    intro i hi a hat hholds
    by_contra hlt
    have hmisses := hfirst i hi (by omega)
    simp [(ancestor_holds doc huniform e i).2 ⟨a, hat, hholds⟩] at hmisses

/-- The compounds to the left of the target, as the search takes them. -/
def testSteps (links : List (Combinator × CompoundSelector Selector)) :
    List (Combinator × (ElementMatchingContext → Bool)) :=
  links.map fun link => (link.1, matchesElementContext link.2)

theorem mem_drop_iff {E : Type} {list : List E} {n : Nat} {a : E} :
    a ∈ list.drop n ↔ ∃ i ≥ n, list[i]? = some a := by
  rw [mem_iff_getElem?]
  simp only [List.getElem?_drop]
  exact ⟨fun ⟨i, h⟩ => ⟨n + i, Nat.le_add_right .., h⟩,
    fun ⟨i, hi, h⟩ => ⟨i - n, by rwa [Nat.add_sub_cancel' hi]⟩⟩

variable {links : List (Combinator × CompoundSelector Selector)}

/-- From ancestors only the search finds a path if there is one: the first ancestor that
fits leaves the most ancestors to the rest. -/
theorem walk_ancestors (hlinks : ∀ link ∈ links, link.1 = .descendant)
    (huniform : ∀ link ∈ links, doc.Uniform link.2) (e : E) {right : E} {cursor : Nat}
    (hright : doc.ancestors right = (doc.ancestors e).drop cursor) :
    walk (doc.context e) (testSteps links) cursor = true ↔ Lineage.Path right (links.map doc.link) := by
  induction links generalizing right cursor with
  | nil => exact iff_of_true rfl trivial
  | cons link links ih =>
    obtain ⟨combinator, compound⟩ := link
    obtain rfl : combinator = .descendant := hlinks _ mem_cons_self
    have hspec := findAncestor_spec doc (huniform _ mem_cons_self) e cursor
    have hrest := @ih (fun link hmem => hlinks link (mem_cons_of_mem _ hmem))
      fun link hmem => huniform link (mem_cons_of_mem _ hmem)
    simp only [testSteps, map_cons, walk, Lineage.Path, Document.link, Document.Related, hright,
      mem_drop_iff]
    split
    · next hnone =>
      rw [hnone] at hspec
      simp only [Bool.false_eq_true, false_iff]
      rintro ⟨left, ⟨i, hi, hat⟩, hholds, -⟩
      exact hspec i hi left hat hholds
    · next found hsome =>
      rw [hsome] at hspec
      obtain ⟨hle, ⟨first, hfirst, hfits⟩, hleast⟩ := hspec
      have hup := doc.ancestors_at hfirst
      refine Iff.trans (hrest hup) ⟨fun hpath => ⟨first, ⟨found, hle, hfirst⟩, hfits, hpath⟩, ?_⟩
      rintro ⟨left, ⟨i, hi, hat⟩, hholds, hpath⟩
      refine Lineage.Path.mono doc.toLineage (fun link hmem => ?_) ?_ hpath
      · obtain ⟨step, hstep, rfl⟩ := mem_map.1 hmem
        simp only [Document.link, hlinks step (mem_cons_of_mem _ hstep)]
        rfl
      · have hfurther := hleast i hi left hat hholds
        rw [doc.ancestors_at hat, hup]
        exact drop_subset_drop_left _ (Nat.add_le_add_right hfurther 1)

theorem walk_climbs (hlinks : climbs (links.map Prod.fst) = true)
    (huniform : ∀ link ∈ links, doc.Uniform link.2) (e : E) {right : E} {cursor : Nat}
    (hright : doc.ancestors right = (doc.ancestors e).drop cursor) :
    walk (doc.context e) (testSteps links) cursor = true ↔ Lineage.Path right (links.map doc.link) := by
  induction links generalizing right cursor with
  | nil => exact iff_of_true rfl trivial
  | cons link links ih =>
    obtain ⟨combinator, compound⟩ := link
    cases combinator with
    | descendant =>
      refine walk_ancestors doc (fun link hmem => ?_) huniform e hright
      obtain rfl | hmem := mem_cons.1 hmem
      · rfl
      · simp only [map_cons, climbs, all_map, all_eq_true, Function.comp_apply,
          beq_iff_eq] at hlinks
        exact hlinks link hmem
    | child =>
      have hhead : (doc.ancestors right).head? = (doc.ancestors e)[cursor]? := by
        rw [hright, List.head?_drop]
      simp only [testSteps, map_cons, walk, Lineage.Path, Document.link, Document.Related,
        Bool.and_eq_true, ancestor_holds doc (huniform _ mem_cons_self), hhead]
      constructor
      · rintro ⟨⟨left, hat, hholds⟩, hwalk⟩
        exact ⟨left, hat, hholds, (ih hlinks (fun link hmem => huniform link
          (mem_cons_of_mem _ hmem)) (doc.ancestors_at hat)).1 hwalk⟩
      · rintro ⟨left, hat, hholds, hpath⟩
        exact ⟨⟨left, hat, hholds⟩, (ih hlinks (fun link hmem => huniform link
          (mem_cons_of_mem _ hmem)) (doc.ancestors_at hat)).2 hpath⟩
    | adjacentSibling => simp [climbs] at hlinks
    | generalSibling => simp [climbs] at hlinks

theorem sibling_holds (huniform : doc.Uniform compound)
    {e sibling : E} (h : sibling ∈ doc.previous e) :
    matchesElementContext compound
        (siblingContext (doc.context e) (doc.context sibling).ancestry) = true ↔
      doc.Holds compound sibling := by
  rw [siblingContext_eq doc h, huniform sibling]
  exact Iff.rfl

theorem walk_searchable (hlinks : searchable (links.map Prod.fst) = true)
    (huniform : ∀ link ∈ links, doc.Uniform link.2) (e : E) :
    walk (doc.context e) (testSteps links) 0 = true ↔ Lineage.Path e (links.map doc.link) := by
  have hhere : doc.ancestors e = (doc.ancestors e).drop 0 := rfl
  cases links with
  | nil => exact iff_of_true rfl trivial
  | cons link links =>
    obtain ⟨combinator, compound⟩ := link
    have hfits := huniform _ mem_cons_self
    have hrest : ∀ link ∈ links, doc.Uniform link.2 := fun link hmem =>
      huniform link (mem_cons_of_mem _ hmem)
    cases combinator with
    | descendant =>
      have hclimbs : climbs (((.descendant, compound) :: links).map Prod.fst) = true := hlinks
      exact walk_climbs doc hclimbs huniform e hhere
    | child =>
      have hclimbs : climbs (((.child, compound) :: links).map Prod.fst) = true := hlinks
      exact walk_climbs doc hclimbs huniform e hhere
    | adjacentSibling =>
      simp only [testSteps, map_cons, walk, Lineage.Path, Document.link, Document.Related,
        doc.context_previous, getLast?_map, Bool.and_eq_true, Option.any_map,
        Option.any_eq_true]
      constructor
      · rintro ⟨⟨sibling, hlast, hholds⟩, hwalk⟩
        have hmem := mem_of_getLast? hlast
        exact ⟨sibling, hlast, (sibling_holds doc hfits hmem).1 hholds,
          (walk_climbs doc hlinks hrest e (doc.ancestors_previous hmem)).1 hwalk⟩
      · rintro ⟨sibling, hlast, hholds, hpath⟩
        have hmem := mem_of_getLast? hlast
        exact ⟨⟨sibling, hlast, (sibling_holds doc hfits hmem).2 hholds⟩,
          (walk_climbs doc hlinks hrest e (doc.ancestors_previous hmem)).2 hpath⟩
    | generalSibling =>
      simp only [testSteps, map_cons, walk, Lineage.Path, Document.link, Document.Related,
        doc.context_previous, Bool.and_eq_true, any_map, Function.comp_def, any_eq_true]
      constructor
      · rintro ⟨⟨sibling, hmem, hholds⟩, hwalk⟩
        exact ⟨sibling, hmem, (sibling_holds doc hfits hmem).1 hholds,
          (walk_climbs doc hlinks hrest e (doc.ancestors_previous hmem)).1 hwalk⟩
      · rintro ⟨sibling, hmem, hholds, hpath⟩
        exact ⟨⟨sibling, hmem, (sibling_holds doc hfits hmem).2 hholds⟩,
          (walk_climbs doc hlinks hrest e (doc.ancestors_previous hmem)).2 hpath⟩

end

/-! ## Parsed selectors -/

def Selector.Targeted (selector : Selector) : Prop :=
  ∃ init target, selector.components = init ++ [target] ∧ selector.isRoot = target.isRoot

theorem parse_targeted {input : Text} {selector : Selector}
    (h : Selector.parse input = .ok selector) : selector.Targeted := by
  rw [Selector.parse, parseWith] at h
  split at h
  · cases h
    exact ⟨[], { isRoot := true }, rfl, rfl⟩
  · obtain ⟨chain, hchain, h⟩ := Outcome.bind_eq_ok.1 h
    cases chain with
    | none =>
      obtain ⟨⟨compound, attrs⟩, -, h⟩ := Outcome.bind_eq_ok.1 h
      cases h
      exact ⟨[], compound, rfl, rfl⟩
    | some found =>
      cases h
      obtain ⟨scan, -, hchain⟩ := Outcome.bind_eq_ok.1 hchain
      obtain ⟨scan, -, hchain⟩ := Outcome.bind_eq_ok.1 hchain
      cases hlast : scan.components.getLast? with
      | none => simp [hlast] at hchain
      | some target =>
        simp only [hlast, Outcome.pure_eq, Outcome.ok.injEq, Option.some.injEq] at hchain
        subst hchain
        exact ⟨scan.components.dropLast, target,
          (dropLast_append_getLast? target hlast).symm, rfl⟩

theorem matchesElementContext_isRoot {compound : CompoundSelector Selector}
    {ctx : ElementMatchingContext} (h : matchesElementContext compound ctx = true) :
    (compound.isRoot && !ctx.isRoot) = false := by
  obtain ⟨tag, classes, id, attributes, pseudoClasses, pseudoElement, isRoot⟩ := compound
  simp only [matchesElementContext, plainMatches, Bool.and_eq_true, Bool.not_eq_true'] at h
  exact h.1.1.1.1.1

theorem matchesContext_eq {selector : Selector} {init : List (CompoundSelector Selector)}
    {target : CompoundSelector Selector} (h : selector.components = init ++ [target])
    (hroot : selector.isRoot = target.isRoot) (ctx : ElementMatchingContext) :
    selector.matchesContext ctx = (matchesElementContext target ctx &&
      walk ctx (testSteps (steps selector.components selector.combinators)) 0) := by
  obtain ⟨tag, className, id, attributes, ancestors, isRoot, components, combinators⟩ := selector
  obtain rfl : components = init ++ [target] := h
  obtain rfl : isRoot = target.isRoot := hroot
  have hsome : (init ++ [target]).isEmpty = false := by simp
  simp only [Selector.matchesContext, hsome, Bool.false_eq_true, if_false, chainMatches,
    matchComponents_eq, steps_map, getLast?_map, getLast?_concat, Option.map_some,
    Option.any_some]
  cases htarget : matchesElementContext target ctx with
  | false => simp
  | true => simp [matchesElementContext_isRoot htarget, testSteps]

/-! ## Written selectors -/

/-- A compound that asks for the class `x`, or for nothing. -/
def plainCompound (marked : Bool) : CompoundSelector Selector :=
  if marked then { classes := [['x']] } else { tag := some ['*'] }

def writeCompound (marked : Bool) : Text := if marked then ['.', 'x'] else ['*']

def writeCombinator : Combinator → Char
  | .descendant => ' '
  | .child => '>'
  | .adjacentSibling => '+'
  | .generalSibling => '~'

/-- A chain with these links from its target `*` to the left. -/
def writeChain (links : List (Combinator × Bool)) : Text :=
  (links.reverse.flatMap fun (combinator, marked) =>
    writeCompound marked ++ [writeCombinator combinator]) ++ ['*']

section

variable (parseList : Text → Outcome (List Selector))

theorem scanChain_link (marked : Bool) (combinator : Combinator)
    (components : List (CompoundSelector Selector)) (combinators : List Combinator)
    (run : Option Combinator) :
    (writeCompound marked ++ [writeCombinator combinator]).foldlM (scanChain parseList)
        { components, combinators, run } =
      .ok { components := components ++ [plainCompound marked], run := some combinator
            combinators :=
              (ChainScan.endRun { components, combinators, run }).combinators } := by
  cases marked <;> cases combinator <;> cases run <;> cases components <;> rfl

theorem scanChain_links (links : List (Combinator × Bool))
    (components : List (CompoundSelector Selector)) (combinators : List Combinator)
    (run : Option Combinator) :
    ∃ read after,
      (links.flatMap fun (combinator, marked) =>
          writeCompound marked ++ [writeCombinator combinator]).foldlM (scanChain parseList)
          { components, combinators, run } =
        .ok { components := components ++ links.map (plainCompound ·.2), combinators := read
              run := after } ∧
      (ChainScan.endRun { components := components ++ links.map (plainCompound ·.2)
                          combinators := read, run := after }).combinators =
        (ChainScan.endRun { components, combinators, run }).combinators ++ links.map (·.1) := by
  induction links generalizing components combinators run with
  | nil => exact ⟨combinators, run, by simp, by simp⟩
  | cons link links ih =>
    obtain ⟨combinator, marked⟩ := link
    obtain ⟨read, after, hread, hafter⟩ := ih (components ++ [plainCompound marked])
      (ChainScan.endRun { components, combinators, run }).combinators (some combinator)
    refine ⟨read, after, ?_, ?_⟩
    · rw [flatMap_cons, foldlM_append, scanChain_link, Outcome.ok_bind, hread]
      simp
    · simp only [map_cons]
      rw [show components ++ plainCompound marked :: links.map (plainCompound ·.2) =
        components ++ [plainCompound marked] ++ links.map (plainCompound ·.2) by simp, hafter]
      simp [ChainScan.endRun]

theorem scanChain_target (components : List (CompoundSelector Selector))
    (combinators : List Combinator) (run : Option Combinator) :
    (do let scan ← ['*'].foldlM (scanChain parseList) { components, combinators, run }
        scan.endRun.flush parseList) =
      .ok { components := components ++ [plainCompound false]
            combinators := (ChainScan.endRun { components, combinators, run }).combinators } := by
  cases run <;> cases components <;> rfl

end

theorem parse_writeChain (links : List (Combinator × Bool)) :
    ∃ selector, Selector.parse (writeChain links) = .ok selector ∧
      selector.components = links.reverse.map (plainCompound ·.2) ++ [plainCompound false] ∧
      selector.combinators = links.reverse.map (·.1) := by
  have hlast : (writeChain links).getLast? = some '*' := by simp [writeChain]
  have hfirst : ∃ c, (writeChain links).head? = some c ∧ isWhitespace c = false := by
    rw [writeChain]
    cases links.reverse with
    | nil => exact ⟨'*', rfl, by decide⟩
    | cons link rest =>
      obtain ⟨combinator, marked⟩ := link
      cases marked with
      | false => exact ⟨'*', rfl, by decide⟩
      | true => exact ⟨'.', rfl, by decide⟩
  obtain ⟨first, hhead, hblank⟩ := hfirst
  have htrim : Str.trim (writeChain links) = writeChain links :=
    Str.trim_eq_self hhead hlast hblank (by decide)
  have hnotRoot : (writeChain links == ":root".toList) = false := by
    rw [beq_eq_false_iff_ne]
    intro heq
    simp [heq] at hlast
  obtain ⟨read, after, hread, hafter⟩ :=
    scanChain_links (parseSelectorListAt maxSelectorNestingDepth) links.reverse [] [] none
  have hchain : (do
      let scan ← (writeChain links).foldlM
        (scanChain (parseSelectorListAt maxSelectorNestingDepth)) {}
      scan.endRun.flush (parseSelectorListAt maxSelectorNestingDepth)) =
        .ok { components := links.reverse.map (plainCompound ·.2) ++ [plainCompound false]
              combinators := links.reverse.map (·.1) } := by
    simp only [nil_append] at hread hafter
    rw [writeChain, foldlM_append, hread, Outcome.ok_bind, scanChain_target, hafter]
    rfl
  obtain ⟨scan, hscan, hflush⟩ := Outcome.bind_eq_ok.1 hchain
  simp only [Selector.parse, parseWith, htrim, hnotRoot, parseSelectorChain, hscan,
    Outcome.ok_bind, hflush, getLast?_concat]
  exact ⟨_, rfl, rfl, rfl⟩

theorem matchesElementContext_plain (marked : Bool) (ctx : ElementMatchingContext) :
    matchesElementContext (plainCompound marked) ctx = (!marked || ctx.classes.contains ['x']) := by
  cases marked <;> simp [plainCompound, matchesElementContext, plainMatches, matchPseudoClasses]

theorem uniform_plain {E : Type} (doc : Document E) (marked : Bool) :
    doc.Uniform (plainCompound marked) := by
  intro e
  rw [matchesElementContext_plain, matchesElementContext_plain]
  rfl

/-! ## Where the search goes wrong -/

def Combinator.besides : Combinator → Bool
  | .adjacentSibling => true
  | .generalSibling => true
  | _ => false

theorem descendant_child {rest : List Combinator} (hclimb : ∀ k ∈ rest, k.besides = false)
    (h : rest.all (· == .descendant) = false) :
    ∃ before after, .descendant :: rest = before ++ .descendant :: .child :: after := by
  induction rest with
  | nil => simp at h
  | cons k rest ih =>
    cases k with
    | child => exact ⟨[], rest, rfl⟩
    | descendant =>
      obtain ⟨before, after, hsplit⟩ :=
        ih (fun k hmem => hclimb k (mem_cons_of_mem _ hmem)) (by simpa using h)
      exact ⟨.descendant :: before, after, by rw [hsplit]; rfl⟩
    | adjacentSibling => exact absurd (hclimb _ mem_cons_self) (by decide)
    | generalSibling => exact absurd (hclimb _ mem_cons_self) (by decide)

theorem not_climbs (hclimb : ∀ k ∈ combinators, k.besides = false)
    (h : climbs combinators = false) :
    ∃ before after, combinators = before ++ .descendant :: .child :: after := by
  induction combinators with
  | nil => simp [climbs] at h
  | cons k rest ih =>
    have hrest : ∀ k ∈ rest, k.besides = false := fun k hmem =>
      hclimb k (mem_cons_of_mem _ hmem)
    cases k with
    | child =>
      obtain ⟨before, after, hsplit⟩ := ih hrest h
      exact ⟨.child :: before, after, by rw [hsplit]; rfl⟩
    | descendant => exact descendant_child hrest h
    | adjacentSibling => exact absurd (hclimb _ mem_cons_self) (by decide)
    | generalSibling => exact absurd (hclimb _ mem_cons_self) (by decide)

/-- A second step to a sibling, or a parent of an ancestor. -/
theorem not_searchable (h : searchable combinators = false) :
    (∃ first rest, combinators = first :: rest ∧ ∃ k ∈ rest, k.besides = true) ∨
      ∃ before after, combinators = before ++ .descendant :: .child :: after ∧
        (∀ k ∈ before.tail, k.besides = false) ∧ ∀ k ∈ after, k.besides = false := by
  cases combinators with
  | nil => simp [searchable, climbs] at h
  | cons first rest =>
    by_cases hrest : ∃ k ∈ rest, k.besides = true
    · exact .inl ⟨first, rest, rfl, hrest⟩
    · simp only [not_exists, not_and, Bool.not_eq_true] at hrest
      have hsplits : ∀ {before after}, first :: rest = before ++ .descendant :: .child :: after →
          (∀ k ∈ before.tail, k.besides = false) ∧ ∀ k ∈ after, k.besides = false := by
        intro before after hsplit
        cases before with
        | nil =>
          obtain ⟨-, rfl⟩ := List.cons.inj hsplit
          exact ⟨by simp, fun k hmem => hrest k (mem_cons_of_mem _ hmem)⟩
        | cons k before =>
          obtain ⟨-, rfl⟩ := List.cons.inj hsplit
          exact ⟨fun k hmem => hrest k (mem_append_left _ hmem),
            fun k hmem => hrest k (by simp [hmem])⟩
      obtain ⟨before, after, hsplit⟩ :
          ∃ before after, first :: rest = before ++ .descendant :: .child :: after := by
        cases hfirst : first.besides with
        | true =>
          have hclimbs : climbs rest = false := by
            cases first <;> first | exact h | simp [Combinator.besides] at hfirst
          obtain ⟨before, after, rfl⟩ := not_climbs hrest hclimbs
          exact ⟨first :: before, after, rfl⟩
        | false =>
          have hclimbs : climbs (first :: rest) = false := by
            cases first <;> first | exact h | simp [Combinator.besides] at hfirst
          refine not_climbs (fun k hmem => ?_) hclimbs
          obtain rfl | hmem := mem_cons.1 hmem
          · exact hfirst
          · exact hrest k hmem
      exact .inr ⟨before, after, hsplit, hsplits hsplit⟩

/-! ## A ladder -/

/-- A target `some 0` below `height` ancestors, with one sibling `none` before it. -/
def ladderAncestors (height : Nat) (e : Option Nat) : List (Option Nat) :=
  (List.range' (e.getD 0 + 1) (height - e.getD 0)).map some

def ladder (height : Nat) (hheight : 0 < height) : Lineage (Option Nat) where
  ancestors := ladderAncestors height
  previous e := if e = some 0 then [none] else []
  ancestors_parent := by
    intro e parent up h
    rw [ladderAncestors] at h ⊢
    cases hleft : height - e.getD 0 with
    | zero => simp [hleft] at h
    | succ left =>
      rw [hleft, List.range'_succ, List.map_cons] at h
      obtain ⟨rfl, rfl⟩ := List.cons.inj h
      have hheight : height - (e.getD 0 + 1) = left := by omega
      simp [hheight]
  previous_sibling := by
    intro e sibling before after h
    split at h
    · next htarget =>
      subst htarget
      cases before with
      | nil =>
        obtain ⟨rfl, -⟩ := List.cons.inj h
        exact ⟨rfl, rfl⟩
      | cons other before => simp at h
    · simp at h
  root_alone := by
    intro e h
    split
    · next htarget =>
      subst htarget
      simp [ladderAncestors] at h
      omega
    · rfl

/-- The element at `marked` alone has the class `x`. -/
def ladderContext (height marked : Nat) (e : Option Nat) : ElementMatchingContext :=
  let ancestry (e : Option Nat) : ElementAncestry :=
    { tag := ['b'], classes := if e = some marked then [['x']] else [], id := none, attrs := ∅ }
  .withSiblings (ancestry e) (ladderAncestors height e).isEmpty
    ((ladderAncestors height e).map ancestry)
    { indexInParent := 1, siblingsAfter := 0, totalSiblings := 1, typeIndexInParent := 1
      totalTypeSiblings := 1
      previousSiblings := if e = some 0 then [ancestry none] else [] }

def ladderDocument (height marked : Nat) (hheight : 0 < height) : Document (Option Nat) where
  toLineage := ladder height hheight
  context := ladderContext height marked
  context_isRoot _ := rfl
  context_ancestors _ := rfl
  context_previous e := by
    by_cases htarget : e = some 0 <;> simp [htarget, ladder, ladderContext,
      ElementMatchingContext.withSiblings, ElementMatchingContext.ancestry]

def plainLinks (combinators : List Combinator) : List (Combinator × CompoundSelector Selector) :=
  combinators.map fun combinator => (combinator, plainCompound false)

theorem walk_plain {ctx : ElementMatchingContext} (hsibling : ctx.previousSiblings ≠ [])
    (combinators : List Combinator) (rest : List (Combinator × CompoundSelector Selector))
    {cursor : Nat} (h : cursor + combinators.length ≤ ctx.ancestors.length) :
    walk ctx (testSteps (plainLinks combinators ++ rest)) cursor =
      walk ctx (testSteps rest) (cursor + combinators.countP (!·.besides)) := by
  induction combinators generalizing cursor with
  | nil => rfl
  | cons k combinators ih =>
    have hanything : ∀ ctx, matchesElementContext (plainCompound false) ctx = true := fun ctx => by
      rw [matchesElementContext_plain]
      rfl
    rw [length_cons] at h
    have hat : ctx.ancestors[cursor]? = some ctx.ancestors[cursor] :=
      List.getElem?_eq_getElem (by omega)
    cases k with
    | child =>
      simp only [plainLinks, map_cons, cons_append, testSteps, walk, hat, Option.any_some,
        hanything, Bool.true_and]
      refine (ih (by omega)).trans ?_
      rw [countP_cons_of_pos (by rfl)]
      congr 1
      omega
    | descendant =>
      have hfirst : findAncestor ctx (matchesElementContext (plainCompound false)) cursor =
          some cursor := by
        rw [findAncestor, List.find?_range'_eq_some]
        refine ⟨by simp [hat, hanything], mem_range'_1.2 (by omega), fun i _ _ => by omega⟩
      simp only [plainLinks, map_cons, cons_append, testSteps, walk, hfirst]
      refine (ih (by omega)).trans ?_
      rw [countP_cons_of_pos (by rfl)]
      congr 1
      omega
    | adjacentSibling =>
      have hlast := getLast?_eq_some_getLast hsibling
      simp only [plainLinks, map_cons, cons_append, testSteps, walk, hlast,
        Option.any_some, hanything, Bool.true_and]
      exact ih (by omega)
    | generalSibling =>
      obtain ⟨sibling, hmem⟩ := exists_mem_of_ne_nil _ hsibling
      have hany : ctx.previousSiblings.any (fun previous =>
          matchesElementContext (plainCompound false) (siblingContext ctx previous)) = true :=
        any_eq_true.2 ⟨sibling, hmem, hanything _⟩
      simp only [plainLinks, map_cons, cons_append, testSteps, walk, hany,
        Bool.true_and]
      exact ih (by omega)

section

variable {height marked : Nat} (hheight : 0 < height)

theorem mem_ladder {e : Option Nat} {i : Nat} (hlow : e.getD 0 < i) (hhigh : i ≤ height) :
    some i ∈ (ladderDocument height marked hheight).ancestors e := by
  refine mem_map.2 ⟨i, mem_range'_1.2 ?_, rfl⟩
  omega

theorem head_ladder (marked : Nat) {e : Option Nat} (h : e.getD 0 < height) :
    ((ladderDocument height marked hheight).ancestors e).head? = some (some (e.getD 0 + 1)) := by
  obtain ⟨left, hleft⟩ : ∃ left, height - e.getD 0 = left + 1 :=
    ⟨height - e.getD 0 - 1, by omega⟩
  change ((range' _ _).map some).head? = _
  rw [hleft, range'_succ]
  rfl

theorem holds_plain (marked : Nat) (marked' : Bool) (e : Option Nat) :
    (ladderDocument height marked hheight).Holds (plainCompound marked') e ↔
      (marked' = true → e = some marked) := by
  rw [Document.Holds, matchesElementContext_plain]
  cases marked' with
  | false => simp
  | true =>
    by_cases he : e = some marked <;>
      simp [ladderDocument, ladderContext, ElementMatchingContext.withSiblings, he]

theorem path_plain (hclimb : ∀ k ∈ combinators, k.besides = false)
    {rest : List (Combinator × CompoundSelector Selector)} {e : Option Nat}
    (h : e.getD 0 + combinators.length ≤ height)
    (hrest : ∀ other : Option Nat, other.getD 0 = e.getD 0 + combinators.length →
      Lineage.Path other (rest.map (ladderDocument height marked hheight).link)) :
    Lineage.Path e
      ((plainLinks combinators ++ rest).map (ladderDocument height marked hheight).link) := by
  induction combinators generalizing e with
  | nil => exact hrest e rfl
  | cons k combinators ih =>
    rw [length_cons] at h hrest
    have hnext := @ih (fun k hmem => hclimb k (mem_cons_of_mem _ hmem)) (some (e.getD 0 + 1))
      (by simp only [Option.getD_some]; omega)
      (fun other hother => hrest other (by simp only [Option.getD_some] at hother; omega))
    have hholds := (holds_plain hheight marked false (some (e.getD 0 + 1))).2 (by simp)
    cases k with
    | child => exact ⟨_, head_ladder hheight _ (by omega), hholds, hnext⟩
    | descendant => exact ⟨_, mem_ladder hheight (by omega) (by omega), hholds, hnext⟩
    | adjacentSibling => exact absurd (hclimb _ mem_cons_self) (by decide)
    | generalSibling => exact absurd (hclimb _ mem_cons_self) (by decide)

theorem related_ne_target {k : Combinator} {left right : Option Nat}
    (h : (ladderDocument height marked hheight).Related k left right) : left ≠ some 0 := by
  have hup : ∀ left ∈ (ladderDocument height marked hheight).ancestors right, left ≠ some 0 := by
    rintro left hmem rfl
    obtain ⟨i, hi, hzero⟩ := mem_map.1 hmem
    obtain rfl := Option.some.inj hzero
    simp [mem_range'_1] at hi
  have hbeside : ∀ left ∈ (ladderDocument height marked hheight).previous right, left ≠ some 0 := by
    rintro left hmem rfl
    by_cases hright : right = some 0 <;> simp [ladderDocument, ladder, hright] at hmem
  cases k with
  | child => exact hup left (mem_of_head? h)
  | descendant => exact hup left h
  | adjacentSibling => exact hbeside left (mem_of_getLast? h)
  | generalSibling => exact hbeside left h

/-- Only the target has a sibling before it, so no path takes a second step to one. -/
theorem no_path_besides {links : List (Combinator × CompoundSelector Selector)}
    (h : ∃ k ∈ links.map Prod.fst, k.besides = true) {e : Option Nat} (he : e ≠ some 0) :
    ¬Lineage.Path e (links.map (ladderDocument height marked hheight).link) := by
  induction links generalizing e with
  | nil => simp at h
  | cons link links ih =>
    obtain ⟨k, compound⟩ := link
    rintro ⟨left, hrelated, -, hpath⟩
    have halone : (ladderDocument height marked hheight).previous e = [] := if_neg he
    have hfurther : k.besides = false → ∃ k ∈ links.map Prod.fst, k.besides = true := by
      intro hk
      obtain ⟨other, hmem, hother⟩ := h
      obtain rfl | hmem := mem_cons.1 hmem
      · simp [hk] at hother
      · exact ⟨other, hmem, hother⟩
    have hleft := related_ne_target hheight hrelated
    cases k with
    | child => exact ih (hfurther rfl) hleft hpath
    | descendant => exact ih (hfurther rfl) hleft hpath
    | adjacentSibling => simp [Document.Related, halone] at hrelated
    | generalSibling => simp [Document.Related, halone] at hrelated

theorem ladder_ancestors_length :
    (ladderContext height marked (some 0)).ancestors.length = height := by
  simp [ladderContext, ladderAncestors, ElementMatchingContext.withSiblings]

theorem ladder_previous_ne_nil : (ladderContext height marked (some 0)).previousSiblings ≠ [] := by
  simp [ladderContext, ElementMatchingContext.withSiblings]

theorem ladder_second_besides (marked : Nat) {first : Combinator} {rest : List Combinator}
    (hbesides : ∃ k ∈ rest, k.besides = true) (hlength : (first :: rest).length ≤ height) :
    walk (ladderContext height marked (some 0)) (testSteps (plainLinks (first :: rest))) 0 = true ∧
      ¬Lineage.Path (some 0)
        ((plainLinks (first :: rest)).map (ladderDocument height marked hheight).link) := by
  constructor
  · have hbetween : 0 + (first :: rest).length ≤
        (ladderContext height marked (some 0)).ancestors.length := by
      rw [ladder_ancestors_length, Nat.zero_add]
      exact hlength
    have hwalk := walk_plain ladder_previous_ne_nil (first :: rest) [] hbetween
    rw [append_nil] at hwalk
    exact hwalk
  · rintro ⟨left, hrelated, -, hpath⟩
    refine no_path_besides hheight ?_ (related_ne_target hheight hrelated) hpath
    simpa [plainLinks, Function.comp_def] using hbesides

/-- A parent of an ancestor, with the class `x` asked of the parent. -/
def lateChild (after : List Combinator) : List (Combinator × CompoundSelector Selector) :=
  (.descendant, plainCompound false) :: (.child, plainCompound true) :: plainLinks after

theorem walk_late {before after : List Combinator} (hlength : before.length + 2 ≤ height)
    (hmarked : marked = before.countP (!·.besides) + 3) :
    walk (ladderContext height marked (some 0))
      (testSteps (plainLinks before ++ lateChild after)) 0 = false := by
  have hheight : 0 < height := by omega
  have hlinks : plainLinks before ++ lateChild after =
      plainLinks (before ++ [Combinator.descendant]) ++
        (.child, plainCompound true) :: plainLinks after := by
    simp [lateChild, plainLinks]
  have hcount : (before ++ [Combinator.descendant]).countP (!·.besides) =
      before.countP (!·.besides) + 1 := by
    rw [countP_append]
    rfl
  have hbetween : 0 + (before ++ [Combinator.descendant]).length ≤
      (ladderContext height marked (some 0)).ancestors.length := by
    simp only [ladder_ancestors_length, length_append, length_singleton]
    omega
  rw [hlinks, walk_plain ladder_previous_ne_nil _ _ hbetween, hcount, Nat.zero_add]
  have hmisses := ancestor_holds (ladderDocument height marked hheight)
    (uniform_plain _ true) (some 0) (before.countP (!·.besides) + 1)
  have hnone : ¬∃ a, ((ladderDocument height marked hheight).ancestors (some 0))[
      before.countP (!·.besides) + 1]? = some a ∧
        (ladderDocument height marked hheight).Holds (plainCompound true) a := by
    rintro ⟨a, hat, hholds⟩
    obtain rfl := (holds_plain hheight _ true a).1 hholds rfl
    obtain ⟨hlt, hat⟩ := List.getElem?_eq_some_iff.1 hat
    simp only [ladderDocument, ladder, ladderAncestors, Option.getD_some, getElem_map,
      getElem_range', Option.some.injEq] at hat
    omega
  rw [testSteps, map_cons, walk, Bool.and_eq_false_iff]
  exact .inl (Bool.eq_false_iff.2 (mt hmisses.1 hnone))

theorem path_late {after : List Combinator} (hafter : ∀ k ∈ after, k.besides = false)
    {e : Option Nat} (he : e.getD 0 + 3 = marked) (hlength : marked + after.length ≤ height) :
    Lineage.Path e ((lateChild after).map (ladderDocument height marked hheight).link) := by
  have hafterPath : Lineage.Path (some marked)
      ((plainLinks after ++ []).map (ladderDocument height marked hheight).link) :=
    path_plain hheight hafter (by simpa using hlength) fun _ _ => trivial
  rw [append_nil] at hafterPath
  refine ⟨some (e.getD 0 + 2), mem_ladder hheight (by omega) (by omega),
    (holds_plain hheight _ false _).2 (by simp), some marked, ?_,
    (holds_plain hheight _ true _).2 (by simp), hafterPath⟩
  have hnext : (some (e.getD 0 + 2)).getD 0 < height := by
    rw [Option.getD_some]
    omega
  have hparent := head_ladder hheight marked hnext
  rw [Option.getD_some, he] at hparent
  exact hparent

/-- The first step may go to the sibling of the target. -/
theorem path_late_after {before after : List Combinator}
    (hbefore : ∀ k ∈ before.tail, k.besides = false) (hafter : ∀ k ∈ after, k.besides = false)
    (hmarked : marked = before.countP (!·.besides) + 3) (hlength : marked + after.length ≤ height) :
    Lineage.Path (some 0) ((plainLinks before ++ lateChild after).map
      (ladderDocument height marked hheight).link) := by
  cases before with
  | nil => exact path_late hheight hafter hmarked.symm hlength
  | cons k before =>
    rw [tail_cons] at hbefore
    have hcount : before.countP (!·.besides) = before.length :=
      countP_eq_length.2 fun k hmem => by simpa using hbefore k hmem
    have hstep : ∀ e : Option Nat, e.getD 0 + before.length + 3 = marked →
        Lineage.Path e ((plainLinks before ++ lateChild after).map
          (ladderDocument height marked hheight).link) := by
      intro e he
      refine path_plain hheight hbefore (by omega) fun other hother => ?_
      exact path_late hheight hafter (by omega) hlength
    have hholds (e : Option Nat) := (holds_plain hheight marked false e).2 (by simp)
    cases k with
    | child =>
      rw [countP_cons_of_pos (by rfl), hcount] at hmarked
      exact ⟨some 1, head_ladder hheight _ (by simp; omega), hholds _,
        hstep _ (by simp only [Option.getD_some]; omega)⟩
    | descendant =>
      rw [countP_cons_of_pos (by rfl), hcount] at hmarked
      exact ⟨some 1, mem_ladder hheight (by simp) (by omega), hholds _,
        hstep _ (by simp only [Option.getD_some]; omega)⟩
    | adjacentSibling =>
      rw [countP_cons_of_neg (by decide), hcount] at hmarked
      exact ⟨none, rfl, hholds _, hstep _ (by simp only [Option.getD_none]; omega)⟩
    | generalSibling =>
      rw [countP_cons_of_neg (by decide), hcount] at hmarked
      exact ⟨none, mem_singleton_self _, hholds _,
        hstep _ (by simp only [Option.getD_none]; omega)⟩

end

/-! ## The law -/

/-- The links of a written chain with their compounds. -/
def plainSteps (links : List (Combinator × Bool)) : List (Combinator × CompoundSelector Selector) :=
  links.map fun link => (link.1, plainCompound link.2)

theorem steps_written (links : List (Combinator × Bool)) :
    steps (links.reverse.map (plainCompound ·.2) ++ [plainCompound false])
        (links.reverse.map (·.1)) = plainSteps links := by
  have hforward : (links.reverse.map (plainCompound ·.2)).mapIdx (fun i compound =>
      ((links.reverse.map (·.1))[i]?.getD .descendant, compound)) = plainSteps links.reverse := by
    refine ext_getElem (by simp [plainSteps]) fun i hi _ => ?_
    have hlt : i < links.reverse.length := by simpa using hi
    simp only [getElem_mapIdx, getElem_map, plainSteps, List.getElem?_map,
      List.getElem?_eq_getElem hlt, Option.map_some, Option.getD_some]
  rw [steps, dropLast_concat, hforward, plainSteps, plainSteps, map_reverse,
    reverse_reverse]

theorem writeChain_ladder (links : List (Combinator × Bool)) :
    ∃ selector, Selector.parse (writeChain links) = .ok selector ∧
      selector.links = links.map (·.1) ∧
      selector.components.dropLast = links.reverse.map (plainCompound ·.2) ∧
      ∀ (height marked : Nat) (hheight : 0 < height),
        selector.matchesContext (ladderContext height marked (some 0)) =
            walk (ladderContext height marked (some 0)) (testSteps (plainSteps links)) 0 ∧
          ((ladderDocument height marked hheight).Satisfies selector (some 0) ↔
            Lineage.Path (some 0)
              ((plainSteps links).map (ladderDocument height marked hheight).link)) := by
  obtain ⟨selector, hparse, hcomponents, hcombinators⟩ := parse_writeChain links
  have hsteps : steps selector.components selector.combinators = plainSteps links := by
    rw [hcomponents, hcombinators, steps_written]
  obtain ⟨init, target, hsplit, hroot⟩ := parse_targeted hparse
  have htarget : target = plainCompound false := by
    rw [hsplit] at hcomponents
    exact (append_singleton_inj.1 hcomponents).2
  refine ⟨selector, hparse, ?_, ?_, fun height marked hheight => ⟨?_, ?_⟩⟩
  · rw [Selector.links, hsteps, plainSteps, map_map]
    rfl
  · rw [hcomponents, dropLast_concat]
  · rw [matchesContext_eq hsplit hroot, hsteps, htarget, matchesElementContext_plain]
    rfl
  · rw [satisfies_iff _ hsplit, hsteps, htarget]
    exact and_iff_right ((holds_plain hheight _ false (some 0)).2 (by simp))

theorem walk_of_decides
    (hdecides : ∀ (input : Text) (selector : Selector), Selector.parse input = .ok selector →
      selector.links = combinators → ∀ (E : Type) (doc : Document E) (e : E),
        (∀ compound ∈ selector.components.dropLast, doc.Uniform compound) →
          (selector.matchesContext (doc.context e) = true ↔ doc.Satisfies selector e))
    {links : List (Combinator × Bool)} (hlinks : links.map (·.1) = combinators)
    {height : Nat} (marked : Nat) (hheight : 0 < height) :
    walk (ladderContext height marked (some 0)) (testSteps (plainSteps links)) 0 = true ↔
      Lineage.Path (some 0)
        ((plainSteps links).map (ladderDocument height marked hheight).link) := by
  obtain ⟨selector, hparse, hcombinators, hcompounds, hladder⟩ := writeChain_ladder links
  obtain ⟨hmatches, hsatisfies⟩ := hladder height marked hheight
  rw [← hmatches, ← hsatisfies]
  refine hdecides _ selector hparse (hcombinators.trans hlinks) _
    (ladderDocument height marked hheight) (some 0) fun compound hmem => ?_
  rw [hcompounds] at hmem
  obtain ⟨link, -, rfl⟩ := mem_map.1 hmem
  exact uniform_plain _ _

/-- The search decides exactly the searchable sequences of combinators: there it finds the
selector's elements if there are any, for compounds that ask nothing of an ancestor or a
sibling that is known of the target only. -/
theorem matchesContext_searchable (combinators : List Combinator) :
    searchable combinators = true ↔
      ∀ (input : Text) (selector : Selector), Selector.parse input = .ok selector →
        selector.links = combinators → ∀ (E : Type) (doc : Document E) (e : E),
          (∀ compound ∈ selector.components.dropLast, doc.Uniform compound) →
            (selector.matchesContext (doc.context e) = true ↔ doc.Satisfies selector e) := by
  constructor
  · intro hsearchable input selector hparse hlinks E doc e huniform
    obtain ⟨init, target, hsplit, hroot⟩ := parse_targeted hparse
    rw [matchesContext_eq hsplit hroot, satisfies_iff doc hsplit, Bool.and_eq_true]
    refine and_congr Iff.rfl (walk_searchable doc ?_ (fun link hmem => ?_) e)
    · rw [← hlinks] at hsearchable
      exact hsearchable
    · exact huniform _ (mem_steps hmem)
  · intro hdecides
    by_contra hnot
    obtain ⟨first, rest, rfl, hbesides⟩ | ⟨before, after, rfl, hbefore, hafter⟩ :=
      not_searchable (Bool.not_eq_true _ ▸ hnot)
    · -- Nothing is asked of the elements, but only the target has a sibling.
      obtain ⟨links, hcombinators, hlinks⟩ : ∃ links : List (Combinator × Bool),
          links.map (·.1) = first :: rest ∧ plainSteps links = plainLinks (first :: rest) :=
        ⟨(first :: rest).map (·, false), by simp [Function.comp_def],
          by simp [plainSteps, plainLinks]⟩
      have hheight : 0 < (first :: rest).length := Nat.succ_pos _
      have hpath := walk_of_decides hdecides hcombinators 0 hheight
      obtain ⟨hwalk, hnone⟩ := ladder_second_besides hheight 0 hbesides le_rfl
      rw [hlinks] at hpath
      exact hnone (hpath.1 hwalk)
    · -- The class `x` is one step too far up for the first ancestor.
      obtain ⟨links, hcombinators, hlinks⟩ : ∃ links : List (Combinator × Bool),
          links.map (·.1) = before ++ .descendant :: .child :: after ∧
            plainSteps links = plainLinks before ++ lateChild after :=
        ⟨before.map (·, false) ++ (.descendant, false) :: (.child, true) :: after.map (·, false),
          by simp [Function.comp_def],
          by simp [plainSteps, lateChild, plainLinks, Function.comp_def]⟩
      have hcount := countP_le_length (p := (!·.besides)) (l := before)
      have hheight : 0 < before.length + after.length + 3 := Nat.succ_pos _
      have hpath := walk_of_decides hdecides hcombinators (before.countP (!·.besides) + 3) hheight
      rw [hlinks, walk_late (by omega) rfl] at hpath
      exact absurd (hpath.2 (path_late_after hheight hbefore hafter rfl (by omega))) (by decide)

/-- Three ancestors, the class `x` on the last: the search takes the first ancestor for the
descendant combinator, and its parent does not have the class. -/
theorem matchesContext_tooNear :
    ∃ selector, Selector.parse ".x>* *".toList = .ok selector ∧
      selector.matchesContext ((ladderDocument 3 3 (by decide)).context (some 0)) = false ∧
      (ladderDocument 3 3 (by decide)).Satisfies selector (some 0) := by
  obtain ⟨selector, hparse, -, -, hladder⟩ :=
    writeChain_ladder [(.descendant, false), (.child, true)]
  obtain ⟨hmatches, hsatisfies⟩ := hladder 3 3 (by decide)
  refine ⟨selector, hparse, ?_, ?_⟩
  · exact hmatches.trans (@walk_late 3 3 [] [] (by decide) rfl)
  · exact hsatisfies.2 (@path_late_after 3 3 (by decide) [] [] (by simp) (by simp) rfl (by decide))

end GhitaBrowser.Css
