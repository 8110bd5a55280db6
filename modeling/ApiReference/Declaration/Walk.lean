import ApiReference.Declaration.Basic

/-! # Walking declarations

The declarations of a tree in pre-order, each with its ancestors.  The walk keeps the declarations
that are still to be visited in a list and puts the children of the one it visits in front. -/

namespace ApiReference

/-- An ancestor of a declaration, as far as its descendants need it. -/
structure Ancestor where
  name : Text
  kind : Kind
deriving DecidableEq, Inhabited

/-- A declaration with its ancestors, the parent first. -/
structure Placed where
  declaration : Declaration
  lineage : List Ancestor

namespace Declaration

/-- The declaration as an ancestor of others. -/
def asAncestor (decl : Declaration) : Ancestor := ⟨decl.name, decl.kind⟩

mutual

/-- The number of declarations in a tree. -/
def count : Declaration → Nat
  | ⟨_, _, _, _, children, _, _, _⟩ => countAll children + 1

/-- The number of declarations in a list of trees. -/
def countAll : List Declaration → Nat
  | [] => 0
  | decl :: more => count decl + countAll more

end

end Declaration

namespace Placed

/-- The children of a declaration, with their ancestors. -/
def children (placed : Placed) : List Placed :=
  placed.declaration.children.map fun child =>
    ⟨child, placed.declaration.asAncestor :: placed.lineage⟩

/-- The number of declarations that a walk from these visits. -/
def pending (waiting : List Placed) : Nat :=
  Declaration.countAll (waiting.map (·.declaration))

theorem countAll_append (a b : List Declaration) :
    Declaration.countAll (a ++ b) = Declaration.countAll a + Declaration.countAll b := by
  induction a with
  | nil => simp [Declaration.countAll]
  | cons d more ih => simp [Declaration.countAll, ih, Nat.add_assoc]

theorem pending_visit (placed : Placed) (waiting : List Placed) :
    pending (placed.children ++ waiting) < pending (placed :: waiting) := by
  obtain ⟨⟨_, _, _, _, _, _, _, _⟩, _⟩ := placed
  simp [pending, children, countAll_append, Declaration.countAll, Declaration.count,
    Function.comp_def]

/-- Visits the waiting declarations and all below them, each before its children. -/
def visit : List Placed → List Placed
  | [] => []
  | placed :: waiting => placed :: visit (placed.children ++ waiting)
termination_by waiting => pending waiting
decreasing_by exact pending_visit placed waiting

end Placed

namespace Declaration

/-- The declaration and all its descendants in pre-order. -/
def walk (root : Declaration) : List Placed := Placed.visit [⟨root, []⟩]

end Declaration

end ApiReference
