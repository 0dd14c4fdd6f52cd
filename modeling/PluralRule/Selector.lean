import PluralRule.Formula.Reader
import PluralRule.Refusal

/-!
Selectors: a formula together with the number of plural forms it chooses from.
A selector only hands out indexes of existing forms; where its formula fails or
leads elsewhere it hands out none and records the reason.
-/

namespace PluralRule

inductive Event where
  | compiled (formula : String) (count : Int)
  | failed (formula : String) (quantity : Int) (message kind : String)
  | outOfRange (formula : String) (quantity index count : Int)
  deriving DecidableEq, Repr

structure Recorded (Result : Type) where
  result : Result
  events : List Event

structure Selector where
  formula : String
  count : Int
  tree : Formula
  count_pos : 1 ≤ count
  deriving DecidableEq, Repr

inductive Objection where
  | fault (source : String) (fault : Fault)
  | refusal (refusal : Refusal)
  deriving Repr

namespace Selector

def standardCount : Int := 2

/-- The formula text is kept as it is; the tree is what selects. -/
def build (formula : String) (count : Value) (tree : Formula) : Except Refusal Selector :=
  match positive : count.positive? with
  | some number =>
      .ok ⟨formula, number, tree, ((Value.positive?_eq_some_iff count number).mp positive).2⟩
  | none => .error (.count count)

/-- The empty formula selects the form whose index is the quantity. -/
def treeOf (limits : Limits) (source : String) : Except Fault Formula :=
  if source.isEmpty then .ok (.quantity 0) else Formula.ofSource limits source

/-- The selector for a formula, whose ends are trimmed. A faulty formula
objects before the number of forms does, and only success is recorded. -/
def compile (limits : Limits) (formula : String) (count : Value) :
    Recorded (Except Objection Selector) :=
  let source := Text.trimmed formula
  match treeOf limits source with
  | .error fault => ⟨.error (.fault source fault), []⟩
  | .ok tree =>
      match build source count tree with
      | .error refusal => ⟨.error (.refusal refusal), []⟩
      | .ok selector => ⟨.ok selector, [.compiled source selector.count]⟩

def evaluate [Writing] (selector : Selector) (quantity : Value) : Except Refusal Answer :=
  selector.tree.answerTo (some selector.formula) quantity

def chosen (selector : Selector) (quantity : Int) : Answer → Recorded (Option Int)
  | .failure message kind => ⟨none, [.failed selector.formula quantity message kind]⟩
  | .value index =>
      if 0 ≤ index ∧ index < selector.count then ⟨some index, []⟩
      else ⟨none, [.outOfRange selector.formula quantity index selector.count]⟩

def select [Writing] (selector : Selector) (quantity : Value) :
    Recorded (Except Refusal (Option Int)) :=
  match quantity.asQuantity with
  | .error refusal => ⟨.error refusal, []⟩
  | .ok number =>
      match selector.evaluate quantity with
      | .error refusal => ⟨.error refusal, []⟩
      | .ok answer =>
          let choice := selector.chosen number answer
          ⟨.ok choice.result, choice.events⟩

def selectAll [Writing] (selector : Selector) (quantities : List Value) :
    Recorded (List (Except Refusal (Option Int))) :=
  let choices := quantities.map selector.select
  ⟨choices.map Recorded.result, choices.flatMap Recorded.events⟩

/-- Selectors are equal when they choose from as many forms by equal formulas,
however these are written. -/
def Same (left right : Selector) : Prop :=
  left.count = right.count ∧ Formula.Same left.tree right.tree

instance (left right : Selector) : Decidable (Same left right) :=
  inferInstanceAs (Decidable (left.count = right.count ∧ Formula.Same left.tree right.tree))

def distinct (selectors : List Selector) : List Selector :=
  selectors.foldl
    (fun kept selector => if kept.any (Same selector ·) then kept else selector :: kept) []

def described [Writing] (selector : Selector) : Option String := do
  let count ← Text.written? selector.count
  some ("PluralForms(nplurals=" ++ count ++ ", plural=" ++ Text.quoted selector.formula ++ ")")

end Selector

end PluralRule
