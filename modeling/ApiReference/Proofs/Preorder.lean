import ApiReference.Declaration.Walk

/-! # Walks in recursive order

A walk keeps the declarations that are still to be visited in a list.  It visits them in the order of
the recursion over the tree: each declaration before its children, and a child with all below it
before the next one (`Declaration.walk_eq_preorder`). -/

namespace ApiReference

namespace Declaration

mutual

/-- The declaration with these ancestors, and then all below it. -/
def preorder (lineage : List Ancestor) : Declaration → List Placed
  | ⟨name, kind, comment, signatures, children, type, flags, defaultValue⟩ =>
    ⟨⟨name, kind, comment, signatures, children, type, flags, defaultValue⟩, lineage⟩ ::
      preorderAll (⟨name, kind⟩ :: lineage) children

/-- Declarations with these ancestors, each followed by all below it. -/
def preorderAll (lineage : List Ancestor) : List Declaration → List Placed
  | [] => []
  | decl :: more => preorder lineage decl ++ preorderAll lineage more

end

theorem preorderAll_eq (lineage : List Ancestor) (decls : List Declaration) :
    preorderAll lineage decls = decls.flatMap (preorder lineage) := by
  induction decls with
  | nil => rfl
  | cons decl decls ih => rw [preorderAll, ih, List.flatMap_cons]

end Declaration

namespace Placed

/-- The declaration with its ancestors, and then all below it. -/
def preorder (placed : Placed) : List Placed := placed.declaration.preorder placed.lineage

theorem preorder_eq (placed : Placed) :
    placed.preorder = placed :: placed.children.flatMap preorder := by
  obtain ⟨⟨_, _, _, _, children, _, _, _⟩, lineage⟩ := placed
  rw [preorder, Declaration.preorder, Declaration.preorderAll_eq, Placed.children, List.flatMap_map]
  rfl

/-- A walk goes through everything below the first waiting declaration before the next one. -/
theorem visit_eq_flatMap (waiting : List Placed) : visit waiting = waiting.flatMap preorder := by
  induction waiting using visit.induct with
  | case1 => rw [visit, List.flatMap_nil]
  | case2 placed waiting ih =>
      rw [visit, ih, List.flatMap_append, List.flatMap_cons, preorder_eq, List.cons_append]

end Placed

/-- The walk over a tree is the recursive one. -/
theorem Declaration.walk_eq_preorder (root : Declaration) : root.walk = root.preorder [] := by
  rw [walk, Placed.visit_eq_flatMap, List.flatMap_cons, List.flatMap_nil, List.append_nil]
  rfl

end ApiReference
