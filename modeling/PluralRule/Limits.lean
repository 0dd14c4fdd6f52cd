/-!
Limits on formulas: on the length of the text, on the nesting and on the
number of nodes of the tree. A limit is any integer; a breach names the bound
that is exceeded, its limit and the measure that exceeds it.
-/

namespace PluralRule

inductive Bound where
  | length
  | depth
  | nodes
  deriving DecidableEq, Repr

structure Limits where
  maxLength : Int := 4096
  maxDepth : Int := 64
  maxNodes : Int := 512
  deriving DecidableEq, Repr

structure Breach where
  bound : Bound
  limit : Int
  actual : Int
  deriving DecidableEq, Repr

def Bound.name : Bound → String
  | .length => "max_expression_length"
  | .depth => "max_ast_depth"
  | .nodes => "max_ast_nodes"

def Bound.camelName : Bound → String
  | .length => "maxExpressionLength"
  | .depth => "maxAstDepth"
  | .nodes => "maxAstNodes"

namespace Limits

def standard : Limits := {}

def limit (limits : Limits) : Bound → Int
  | .length => limits.maxLength
  | .depth => limits.maxDepth
  | .nodes => limits.maxNodes

/-- A measure may reach its limit and not exceed it. -/
def check (limits : Limits) (bound : Bound) (actual : Int) : Except Breach Unit :=
  if limits.limit bound < actual then .error ⟨bound, limits.limit bound, actual⟩ else .ok ()

theorem check_eq_ok_iff (limits : Limits) (bound : Bound) (actual : Int) :
    limits.check bound actual = .ok () ↔ actual ≤ limits.limit bound := by
  simp only [check]
  split <;> simp <;> omega

end Limits

end PluralRule
