import PluralRule.Formula

/-!
The measures of a formula that limits bound: its number of nodes and its
depth. Each is defined on the structure and again over a list of nodes that
are still to be visited. Main statements: the two definitions agree.
-/

namespace PluralRule.Formula

def size : Formula → Nat
  | .literal .. => 1
  | .quantity _ => 1
  | .unary _ _ operand => 1 + operand.size
  | .binary _ _ left right => 1 + (left.size + right.size)
  | .choice _ condition consequent alternate =>
      1 + (condition.size + (consequent.size + alternate.size))
  | .foreign _ => 1

def depth : Formula → Nat
  | .literal .. => 1
  | .quantity _ => 1
  | .unary _ _ operand => 1 + operand.depth
  | .binary _ _ left right => 1 + max left.depth right.depth
  | .choice _ condition consequent alternate =>
      1 + max condition.depth (max consequent.depth alternate.depth)
  | .foreign _ => 1

theorem depth_pos (formula : Formula) : 1 ≤ formula.depth := by
  cases formula <;> simp [depth]

def totalSize : List Formula → Nat
  | [] => 0
  | first :: rest => first.size + totalSize rest

theorem totalSize_append (left right : List Formula) :
    totalSize (left ++ right) = totalSize left + totalSize right := by
  induction left with
  | nil => simp [totalSize]
  | cons first rest ih => simp [totalSize, ih, Nat.add_assoc]

theorem totalSize_reverse (pending : List Formula) :
    totalSize pending.reverse = totalSize pending := by
  induction pending with
  | nil => rfl
  | cons first rest ih => simp [totalSize_append, totalSize, ih, Nat.add_comm]

theorem size_eq_children (formula : Formula) :
    formula.size = 1 + totalSize formula.children := by
  cases formula <;> simp [size, children, totalSize]

/-- Counts the pending nodes and everything below them. The last child is visited first. -/
def countFrom (visited : Nat) : List Formula → Nat
  | [] => visited
  | node :: rest => countFrom (visited + 1) (node.children.reverse ++ rest)
termination_by pending => totalSize pending
decreasing_by
  have whole := size_eq_children node
  rw [totalSize_append, totalSize_reverse, totalSize]
  omega

def deepestFrom (deepest : Nat) : List (Formula × Nat) → Nat
  | [] => deepest
  | (node, level) :: rest =>
      deepestFrom (max deepest level)
        ((node.children.map fun child => (child, level + 1)).reverse ++ rest)
termination_by pending => totalSize (pending.map Prod.fst)
decreasing_by
  have whole := size_eq_children node
  simp only [List.map_append, List.map_reverse, List.map_map, totalSize_append,
    totalSize_reverse, List.map_cons, totalSize]
  have same : (node.children.map (Prod.fst ∘ fun child => (child, level + 1))) =
      node.children := by simp [Function.comp_def]
  rw [same]
  omega

def nodeCount (formula : Formula) : Nat := countFrom 0 [formula]

def treeDepth (formula : Formula) : Nat := deepestFrom 0 [(formula, 1)]

theorem countFrom_eq (visited : Nat) (pending : List Formula) :
    countFrom visited pending = visited + totalSize pending := by
  fun_induction countFrom visited pending with
  | case1 visited => simp [totalSize]
  | case2 visited node rest ih =>
      have whole := size_eq_children node
      rw [ih, totalSize_append, totalSize_reverse, totalSize]
      omega

theorem nodeCount_eq_size (formula : Formula) : formula.nodeCount = formula.size := by
  simp [nodeCount, countFrom_eq, totalSize]

def reach : List (Formula × Nat) → Nat
  | [] => 0
  | (node, level) :: rest => max (level + (node.depth - 1)) (reach rest)

theorem reach_append (left right : List (Formula × Nat)) :
    reach (left ++ right) = max (reach left) (reach right) := by
  induction left with
  | nil => simp [reach]
  | cons first rest ih => simp [reach, ih, Nat.max_assoc]

theorem reach_reverse (pending : List (Formula × Nat)) :
    reach pending.reverse = reach pending := by
  induction pending with
  | nil => rfl
  | cons first rest ih => simp [reach_append, reach, ih, Nat.max_comm]

theorem reach_children (node : Formula) (level : Nat) :
    max level (reach (node.children.map fun child => (child, level + 1))) =
      level + (node.depth - 1) := by
  cases node with
  | literal position value => simp [children, reach, depth]
  | quantity position => simp [children, reach, depth]
  | unary position operator operand =>
      have := operand.depth_pos
      simp only [children, List.map_cons, List.map_nil, reach, depth]
      omega
  | binary position operator left right =>
      have := left.depth_pos
      have := right.depth_pos
      simp only [children, List.map_cons, List.map_nil, reach, depth]
      omega
  | choice position condition consequent alternate =>
      have := condition.depth_pos
      have := consequent.depth_pos
      have := alternate.depth_pos
      simp only [children, List.map_cons, List.map_nil, reach, depth]
      omega
  | foreign text => simp [children, reach, depth]

theorem deepestFrom_eq (deepest : Nat) (pending : List (Formula × Nat)) :
    deepestFrom deepest pending = max deepest (reach pending) := by
  fun_induction deepestFrom deepest pending with
  | case1 deepest => simp [reach]
  | case2 deepest node level rest ih =>
      rw [ih, reach_append, reach_reverse, ← Nat.max_assoc, Nat.max_assoc deepest,
        reach_children, reach, Nat.max_assoc]

theorem treeDepth_eq_depth (formula : Formula) : formula.treeDepth = formula.depth := by
  have := formula.depth_pos
  simp only [treeDepth, deepestFrom_eq, reach]
  omega

theorem size_essence (formula : Formula) : formula.essence.size = formula.size := by
  induction formula with
  | literal position number => rfl
  | quantity position => rfl
  | unary position operator operand ih => simp [essence, size, ih]
  | binary position operator left right leftIh rightIh => simp [essence, size, leftIh, rightIh]
  | choice position condition consequent alternate firstIh secondIh thirdIh =>
      simp [essence, size, firstIh, secondIh, thirdIh]
  | foreign leaf => rfl

theorem depth_essence (formula : Formula) : formula.essence.depth = formula.depth := by
  induction formula with
  | literal position number => rfl
  | quantity position => rfl
  | unary position operator operand ih => simp [essence, depth, ih]
  | binary position operator left right leftIh rightIh => simp [essence, depth, leftIh, rightIh]
  | choice position condition consequent alternate firstIh secondIh thirdIh =>
      simp [essence, depth, firstIh, secondIh, thirdIh]
  | foreign leaf => rfl

theorem Same.size_eq {left right : Formula} (same : Same left right) : left.size = right.size := by
  rw [← left.size_essence, ← right.size_essence]
  exact congrArg size same

theorem Same.depth_eq {left right : Formula} (same : Same left right) :
    left.depth = right.depth := by
  rw [← left.depth_essence, ← right.depth_essence]
  exact congrArg depth same

theorem Same.nodeCount_eq {left right : Formula} (same : Same left right) :
    left.nodeCount = right.nodeCount := by
  rw [nodeCount_eq_size, nodeCount_eq_size, same.size_eq]

theorem Same.treeDepth_eq {left right : Formula} (same : Same left right) :
    left.treeDepth = right.treeDepth := by
  rw [treeDepth_eq_depth, treeDepth_eq_depth, same.depth_eq]

end PluralRule.Formula
