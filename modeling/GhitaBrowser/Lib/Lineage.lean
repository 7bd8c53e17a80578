import Mathlib.Data.List.Basic

/-!
# Lineages

The elements of a tree by their ancestors and by their siblings before them, and the paths
that lead from an element to the left and up.
-/

namespace GhitaBrowser

/-- Ancestors stand with the nearest first, siblings in document order. -/
structure Lineage (E : Type) where
  ancestors : E → List E
  previous : E → List E
  ancestors_parent : ∀ {e parent : E} {up : List E},
    ancestors e = parent :: up → ancestors parent = up
  previous_sibling : ∀ {e sibling : E} {before after : List E},
    previous e = before ++ sibling :: after →
      previous sibling = before ∧ ancestors sibling = ancestors e
  root_alone : ∀ {e : E}, ancestors e = [] → previous e = []

namespace Lineage

variable {E : Type} (family : Lineage E)

theorem ancestors_at {e a : E} {i : Nat} (h : (family.ancestors e)[i]? = some a) :
    family.ancestors a = (family.ancestors e).drop (i + 1) := by
  induction i generalizing e with
  | zero =>
    obtain ⟨up, hup⟩ : ∃ up, family.ancestors e = a :: up := by
      cases hcase : family.ancestors e with
      | nil => simp [hcase] at h
      | cons parent up => exact ⟨up, by simpa [hcase] using h⟩
    simp [family.ancestors_parent hup, hup]
  | succ i ih =>
    cases hcase : family.ancestors e with
    | nil => simp [hcase] at h
    | cons parent up =>
      have hparent := family.ancestors_parent hcase
      have hat : (family.ancestors parent)[i]? = some a := by simpa [hcase, hparent] using h
      simpa [hparent] using ih hat

theorem ancestors_previous {e sibling : E} (h : sibling ∈ family.previous e) :
    family.ancestors sibling = family.ancestors e := by
  obtain ⟨before, after, hsplit⟩ := List.append_of_mem h
  exact (family.previous_sibling hsplit).2

theorem ancestors_ne_nil {e sibling : E} (h : sibling ∈ family.previous e) :
    family.ancestors e ≠ [] := by
  intro hroot
  simp [family.root_alone hroot] at h

/-! ## Paths -/

/-- A path from an element: each link relates what it leads to with what it leaves, and
has a test for what it leads to. -/
def Path : E → List ((E → E → Prop) × (E → Prop)) → Prop
  | _, [] => True
  | e, (related, test) :: links =>
    ∃ left, related left e ∧ test left ∧ Path left links

theorem Path.mono {e other : E} {links : List ((E → E → Prop) × (E → Prop))}
    (hlinks : ∀ link ∈ links, link.1 = fun left right => left ∈ family.ancestors right)
    (hsub : family.ancestors e ⊆ family.ancestors other) (h : Path e links) : Path other links := by
  cases links with
  | nil => trivial
  | cons link links =>
    obtain ⟨left, hrelated, htest, hrest⟩ := h
    have hancestor := hlinks link List.mem_cons_self
    exact ⟨left, by simp only [hancestor] at hrelated ⊢; exact hsub hrelated, htest, hrest⟩

end Lineage

end GhitaBrowser
