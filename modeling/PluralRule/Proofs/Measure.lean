import Mathlib.Algebra.Ring.Nat
import PluralRule.Formula.Measure
import PluralRule.Proofs.Grammar

/-!
Measuring with a stack of pending nodes. A round takes the node in front off the stack
and puts its children there, the last one in front; a loop goes on until nothing is
pending. Main statement: both loops come to an end on every formula, after one round for
each node, and what they find is given by what they find for the children. A formula has
at least as many nodes as levels, and at most as many as choices all the way down.
-/

namespace PluralRule

inductive Rounds {State : Type} (Round : State → State → Prop) : Nat → State → State → Prop
  | done (state : State) : Rounds Round 0 state state
  | next {count : Nat} {first second last : State} (round : Round first second)
      (rest : Rounds Round count second last) : Rounds Round (count + 1) first last

/-- The loop ends: however far it has come from the start, it goes on to the finish and
stops there, after the given number of rounds in all. -/
structure Ends {State : Type} (Round : State → State → Prop) (rounds : Nat)
    (start finish : State) : Prop where
  onward : ∀ count state, Rounds Round count start state →
    ∃ left, count + left = rounds ∧ Rounds Round left state finish
  stops : ∀ state, ¬ Round finish state

/-- What makes a loop end: a round takes one from the number of rounds that are left and
does not move the finish, and there is a next round unless none is left. -/
structure Advances {State : Type} (Round : State → State → Prop) (left : State → Nat)
    (finish : State → State) : Prop where
  round : ∀ {first second}, Round first second →
    left first = left second + 1 ∧ finish first = finish second
  progress : ∀ state, (left state = 0 ∧ finish state = state) ∨ ∃ second, Round state second

section Advances

variable {State : Type} {Round : State → State → Prop} {left : State → Nat}
  {finish : State → State}

theorem Advances.run (advances : Advances Round left finish) {count : Nat} {first last : State}
    (rounds : Rounds Round count first last) :
    left first = count + left last ∧ finish first = finish last := by
  induction rounds with
  | done state => exact ⟨(Nat.zero_add _).symm, rfl⟩
  | next round rest ih =>
      have taken := advances.round round
      exact ⟨by omega, taken.2.trans ih.2⟩

theorem Advances.finishes (advances : Advances Round left finish) (state : State) :
    Rounds Round (left state) state (finish state) := by
  induction remaining : left state generalizing state with
  | zero =>
      rcases advances.progress state with ⟨-, same⟩ | ⟨second, round⟩
      · rw [same]
        exact .done state
      · have taken := advances.round round
        omega
  | succ count ih =>
      rcases advances.progress state with ⟨none, -⟩ | ⟨second, round⟩
      · omega
      · have taken := advances.round round
        rw [taken.2]
        exact .next round (ih second (by omega))

theorem Advances.ends (advances : Advances Round left finish) (start : State) :
    Ends Round (left start) start (finish start) := by
  constructor
  · intro count state rounds
    have kept := advances.run rounds
    rw [kept.2]
    exact ⟨left state, kept.1.symm, advances.finishes state⟩
  · -- All rounds that were left at the start have been made, so none is left here.
    intro state round
    have whole := advances.run (advances.finishes start)
    have taken := advances.round round
    omega

end Advances

namespace Formula

inductive CountRound : Nat × List Formula → Nat × List Formula → Prop
  | visit (visited : Nat) (node : Formula) (rest : List Formula) :
      CountRound (visited, node :: rest) (visited + 1, node.children.reverse ++ rest)

inductive DepthRound : Nat × List (Formula × Nat) → Nat × List (Formula × Nat) → Prop
  | visit (deepest : Nat) (node : Formula) (level : Nat) (rest : List (Formula × Nat)) :
      DepthRound (deepest, (node, level) :: rest)
        (max deepest level, (node.children.map fun child => (child, level + 1)).reverse ++ rest)

theorem totalSize_visit (node : Formula) (rest : List Formula) :
    totalSize (node :: rest) = totalSize (node.children.reverse ++ rest) + 1 := by
  have whole := size_eq_children node
  rw [totalSize_append, totalSize_reverse, totalSize]
  omega

/-- The nodes that are pending or below a pending one are the rounds that are left. -/
theorem countRound_advances :
    Advances CountRound (fun state => totalSize state.2)
      (fun state => (countFrom state.1 state.2, [])) where
  round visit := by
    cases visit with
    | visit visited node rest =>
        constructor
        · exact totalSize_visit node rest
        · rw [countFrom]
  progress state := by
    rcases state with ⟨visited, pending⟩
    cases pending with
    | nil => exact .inl ⟨rfl, by rw [countFrom]⟩
    | cons node rest => exact .inr ⟨_, .visit visited node rest⟩

theorem depthRound_advances :
    Advances DepthRound (fun state => totalSize (state.2.map Prod.fst))
      (fun state => (deepestFrom state.1 state.2, [])) where
  round visit := by
    cases visit with
    | visit deepest node level rest =>
        constructor
        · have nodes := totalSize_visit node (rest.map Prod.fst)
          simpa [Function.comp_def] using nodes
        · rw [deepestFrom]
  progress state := by
    rcases state with ⟨deepest, pending⟩
    cases pending with
    | nil => exact .inl ⟨rfl, by rw [deepestFrom]⟩
    | cons first rest => exact .inr ⟨_, .visit deepest first.1 first.2 rest⟩

theorem nodeCount_ends (formula : Formula) :
    Ends CountRound formula.nodeCount (0, [formula]) (formula.nodeCount, []) := by
  have ends := countRound_advances.ends (0, [formula])
  rwa [totalSize, totalSize, Nat.add_zero, ← nodeCount_eq_size] at ends

theorem treeDepth_ends (formula : Formula) :
    Ends DepthRound formula.nodeCount (0, [(formula, 1)]) (formula.treeDepth, []) := by
  have ends := depthRound_advances.ends (0, [(formula, 1)])
  rwa [List.map_singleton, totalSize, totalSize, Nat.add_zero, ← nodeCount_eq_size] at ends

theorem totalSize_eq_sum (pending : List Formula) :
    totalSize pending = (pending.map size).sum := by
  induction pending with
  | nil => rfl
  | cons first rest ih => rw [totalSize, ih, List.map_cons, List.sum_cons]

theorem nodeCount_eq_children (formula : Formula) :
    formula.nodeCount = 1 + (formula.children.map nodeCount).sum := by
  have counts : nodeCount = size := funext nodeCount_eq_size
  rw [counts, size_eq_children, totalSize_eq_sum]

theorem treeDepth_eq_children (formula : Formula) :
    formula.treeDepth = 1 + (formula.children.map treeDepth).foldr max 0 := by
  have depths : treeDepth = depth := funext treeDepth_eq_depth
  rw [depths]
  cases formula <;> simp [depth, children]

/-- A node has at most three children, so a level of nodes is at most three times as wide as
the level above it. -/
theorem twice_size_lt_pow_depth (formula : Formula) : 2 * formula.size < 3 ^ formula.depth := by
  have rises {inner outer : Nat} (higher : inner ≤ outer) : 3 ^ inner ≤ 3 ^ outer :=
    Nat.pow_le_pow_right (by decide) higher
  induction formula with
  | literal position number => simp [size, depth]
  | quantity position => simp [size, depth]
  | unary position operator operand ih =>
      rw [size, depth, Nat.add_comm 1 operand.depth, Nat.pow_succ]
      omega
  | binary position operator left right leftIh rightIh =>
      have first := rises (Nat.le_max_left left.depth right.depth)
      have second := rises (Nat.le_max_right left.depth right.depth)
      rw [size, depth, Nat.add_comm 1 (max _ _), Nat.pow_succ]
      omega
  | choice position condition consequent alternate firstIh secondIh thirdIh =>
      have branches := Nat.le_max_right condition.depth (max consequent.depth alternate.depth)
      have first := rises (Nat.le_max_left condition.depth (max consequent.depth alternate.depth))
      have second := rises (Nat.le_trans (Nat.le_max_left _ _) branches)
      have third := rises (Nat.le_trans (Nat.le_max_right _ _) branches)
      rw [size, depth, Nat.add_comm 1 (max _ _), Nat.pow_succ]
      omega
  | foreign leaf => simp [size, depth]

/-- The measures are structural. Both loops end on every formula, after one round for each
node, with the number of nodes and with the deepest level. A leaf has one node and one
level; any other node adds one to the sum, and one to the maximum, over its children. -/
theorem measures_structural (formula : Formula) :
    Ends CountRound formula.nodeCount (0, [formula]) (formula.nodeCount, []) ∧
      Ends DepthRound formula.nodeCount (0, [(formula, 1)]) (formula.treeDepth, []) ∧
      formula.nodeCount = 1 + (formula.children.map nodeCount).sum ∧
      formula.treeDepth = 1 + (formula.children.map treeDepth).foldr max 0 ∧
      formula.treeDepth ≤ formula.nodeCount ∧
      formula.nodeCount ≤ (3 ^ formula.treeDepth - 1) / 2 := by
  refine ⟨nodeCount_ends formula, treeDepth_ends formula, nodeCount_eq_children formula,
    treeDepth_eq_children formula, ?_, ?_⟩
  · rw [nodeCount_eq_size, treeDepth_eq_depth]
    exact depth_le_size formula
  · have bounded := twice_size_lt_pow_depth formula
    rw [nodeCount_eq_size, treeDepth_eq_depth]
    omega

end Formula

end PluralRule
