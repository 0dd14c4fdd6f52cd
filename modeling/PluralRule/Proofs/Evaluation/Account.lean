import PluralRule.Proofs.Evaluation.Relabel

/-!
What is told of a failure. Apart from its place and the source that is shown,
a report on a failure has a message and details, its account. Main statements:
a report is the account with a place and a source, there is none exactly where
something that it quotes is not written, and formulas that differ in places
alone evaluate alike, up to the same account of their failures.
-/

namespace PluralRule

namespace Formula

@[simp]
theorem symbol?_mapPosition (formula : Formula) (move : Int → Int) :
    (formula.mapPosition move).symbol? = formula.symbol? := by
  cases formula <;> rfl

variable [Writing]

theorem renderPart_mapPosition (formula : Formula) (move : Int → Int) (nested : Bool) :
    (formula.mapPosition move).renderPart nested = formula.renderPart nested := by
  induction formula generalizing nested with
  | literal position number => rfl
  | quantity position => rfl
  | unary position operator operand ih => simp only [mapPosition, renderPart, ih]
  | binary position operator left right leftIh rightIh =>
      simp only [mapPosition, renderPart, leftIh, rightIh]
  | choice position condition consequent alternate firstIh secondIh thirdIh =>
      simp only [mapPosition, renderPart, firstIh, secondIh, thirdIh]
  | foreign leaf => rfl

@[simp]
theorem render_mapPosition (formula : Formula) (move : Int → Int) :
    (formula.mapPosition move).render = formula.render :=
  formula.renderPart_mapPosition move false

end Formula

namespace Failure

def mishap : Failure → Mishap
  | .quantity .. => .overflow
  | .divisionByZero _ => .divisionByZero
  | .moduloByZero _ => .moduloByZero
  | .overflow _ => .overflow
  | .unknownOperator _ => .general
  | .foreign _ => .general

def position? : Failure → Option Int
  | .quantity position _ => some position
  | .divisionByZero node => node.position?
  | .moduloByZero node => node.position?
  | .overflow node => node.position?
  | .unknownOperator _ => none
  | .foreign _ => none

def symbol? : Failure → Option String
  | .divisionByZero node => node.symbol?
  | .moduloByZero node => node.symbol?
  | .overflow node => node.symbol?
  | _ => none

variable [Writing]

/-- Everything that the report on a failure quotes is written. -/
def Written : Failure → Prop
  | .quantity _ value => Text.Narrow value
  | .divisionByZero node => node.Rendered
  | .moduloByZero node => node.Rendered
  | .overflow node => node.Rendered
  | .unknownOperator _ => True
  | .foreign leaf => leaf.quoted.isSome

/-- The message and the details of the report on a failure. -/
def account (failure : Failure) : Except Unwritable (String × Details) :=
  (failure.report "").map fun report => (report.message, report.details)

def nodeAccount (mishap : Mishap) (wording : String) (node : Formula) :
    Except Unwritable (String × Details) :=
  (nodeReport "" mishap wording node).map fun report => (report.message, report.details)

section

variable {node : Formula} (mishap : Mishap) (wording : String)

theorem nodeAccount_of_render {text : String} (rendered : node.render = .ok text) :
    nodeAccount mishap wording node =
      .ok (wording ++ " in '" ++ text ++ "'", .evaluation mishap node.symbol? (some text)) := by
  rw [nodeAccount, nodeReport, rendered]
  rfl

theorem nodeAccount_of_stuck {reason : Unwritable} (stuck : node.render = .error reason) :
    nodeAccount mishap wording node = .error reason := by
  rw [nodeAccount, nodeReport, stuck]
  rfl

theorem nodeAccount_ok_iff :
    (∃ told, nodeAccount mishap wording node = .ok told) ↔ node.Rendered := by
  rw [← Formula.render_ok_iff]
  cases rendered : node.render with
  | ok text => simp [nodeAccount_of_render mishap wording rendered]
  | error reason => simp [nodeAccount_of_stuck mishap wording rendered]

theorem nodeReport_eq (source : String) :
    nodeReport source mishap wording node =
      (nodeAccount mishap wording node).map fun told =>
        ⟨told.1, node.position?, some source, told.2⟩ := by
  cases rendered : node.render with
  | ok text =>
      rw [nodeAccount_of_render mishap wording rendered, nodeReport, rendered]
      rfl
  | error reason =>
      rw [nodeAccount_of_stuck mishap wording rendered, nodeReport, rendered]
      rfl

theorem nodeAccount_mapPosition (move : Int → Int) :
    nodeAccount mishap wording (node.mapPosition move) = nodeAccount mishap wording node := by
  simp only [nodeAccount, nodeReport, Formula.render_mapPosition, Formula.symbol?_mapPosition]
  cases node.render <;> rfl

end

theorem account_of_quantity (position : Int) {value : Int} (short : Text.Narrow value) :
    (quantity position value).account =
      .ok ("Quantity " ++ Text.integerText value ++ " is outside the signed 64-bit range",
        .evaluation .overflow none none) := by
  rw [account, report, Text.written?_of_narrow short]
  rfl

theorem account_of_wide (position : Int) {value : Int} (wide : ¬ Text.Narrow value) :
    (quantity position value).account = .error .wide := by
  rw [account, report, Text.written?_of_wide wide]
  rfl

/-- A failure is told exactly when everything is written that is quoted for it. -/
theorem account_ok_iff (failure : Failure) :
    (∃ told, failure.account = .ok told) ↔ failure.Written := by
  cases failure with
  | quantity position value =>
      by_cases short : Text.Narrow value
      · exact iff_of_true ⟨_, account_of_quantity position short⟩ short
      · refine iff_of_false ?_ short
        rintro ⟨told, known⟩
        rw [account_of_wide position short] at known
        cases known
  | divisionByZero node => exact nodeAccount_ok_iff _ _
  | moduloByZero node => exact nodeAccount_ok_iff _ _
  | overflow node => exact nodeAccount_ok_iff _ _
  | unknownOperator symbol => exact iff_of_true ⟨_, rfl⟩ trivial
  -- A leaf is quoted by its own text and not by the text of a formula.
  | foreign leaf =>
      obtain ⟨identity, quoted, shown⟩ := leaf
      cases quoted with
      | none => exact iff_of_false (by rintro ⟨told, known⟩; cases known) Bool.false_ne_true
      | some text => exact iff_of_true ⟨_, rfl⟩ rfl

theorem report_eq (failure : Failure) (source : String) :
    failure.report source =
      failure.account.map fun told => ⟨told.1, failure.position?, some source, told.2⟩ := by
  cases failure with
  | quantity position value =>
      simp only [account, report]
      cases Text.written? value <;> rfl
  | divisionByZero node => exact nodeReport_eq _ _ source
  | moduloByZero node => exact nodeReport_eq _ _ source
  | overflow node => exact nodeReport_eq _ _ source
  | unknownOperator symbol => rfl
  | foreign leaf =>
      simp only [account, report]
      cases leaf.quoted <;> rfl

theorem account_gist {failure : Failure} (written : failure.Written) :
    ∃ message text,
      failure.account = .ok (message, .evaluation failure.mishap failure.symbol? text) := by
  have node {mishap : Mishap} {wording : String} {node : Formula} (rendered : node.Rendered) :
      ∃ message text,
        nodeAccount mishap wording node = .ok (message, .evaluation mishap node.symbol? text) := by
    obtain ⟨text, known⟩ := (Formula.render_ok_iff node).mpr rendered
    exact ⟨_, _, nodeAccount_of_render mishap wording known⟩
  cases failure with
  | quantity position value => exact ⟨_, _, account_of_quantity position written⟩
  | divisionByZero part => exact node written
  | moduloByZero part => exact node written
  | overflow part => exact node written
  | unknownOperator symbol => exact ⟨_, _, rfl⟩
  | foreign leaf =>
      obtain ⟨text, quoted⟩ := Option.isSome_iff_exists.mp written
      exact ⟨_, _, by rw [account, report, quoted]; rfl⟩

theorem details_of_account {failure : Failure} {message : String} {details : Details}
    (told : failure.account = .ok (message, details)) :
    ∃ text, details = .evaluation failure.mishap failure.symbol? text := by
  obtain ⟨wording, text, known⟩ := account_gist (failure.account_ok_iff.mp ⟨_, told⟩)
  rw [told] at known
  exact ⟨text, congrArg Prod.snd (Except.ok.inj known)⟩

theorem kind_of_account {failure : Failure} {message : String} {details : Details}
    (told : failure.account = .ok (message, details)) : details.kind = failure.mishap.kind := by
  obtain ⟨text, rfl⟩ := details_of_account told
  rfl

theorem account_relabel_places (failure : Failure) (move : Int → Int) :
    (failure.relabel (.places move)).account = failure.account := by
  cases failure with
  | quantity position value =>
      simp only [relabel, account, report]
      cases Text.written? value <;> rfl
  | divisionByZero node =>
      rw [relabel, Formula.relabel_places]
      exact nodeAccount_mapPosition _ _ move
  | moduloByZero node =>
      rw [relabel, Formula.relabel_places]
      exact nodeAccount_mapPosition _ _ move
  | overflow node =>
      rw [relabel, Formula.relabel_places]
      exact nodeAccount_mapPosition _ _ move
  | unknownOperator symbol => rfl
  | foreign leaf => rfl

end Failure

namespace Formula

theorem evaluate_mapPosition (formula : Formula) (quantity : Int) (move : Int → Int) :
    (formula.mapPosition move).evaluate quantity =
      (formula.evaluate quantity).mapError (.relabel (.places move)) := by
  rw [← relabel_places]
  exact formula.evaluate_relabel (.places move) quantity

theorem Identical.evaluate_eq_error [Writing] {first second : Formula} {quantity : Int}
    {failure : Failure} (identical : first.Identical second)
    (failed : first.evaluate quantity = .error failure) :
    ∃ other, second.evaluate quantity = .error other ∧ other.account = failure.account := by
  have moved := first.evaluate_mapPosition quantity fun _ => 0
  have alike := second.evaluate_mapPosition quantity fun _ => 0
  have equal : first.mapPosition (fun _ => 0) = second.mapPosition (fun _ => 0) := identical
  rw [equal, alike, failed] at moved
  cases outcome : second.evaluate quantity with
  | ok value =>
      rw [outcome] at moved
      cases moved
  | error other =>
      rw [outcome] at moved
      have unplaced := congrArg Failure.account (Except.error.inj moved)
      rw [Failure.account_relabel_places, Failure.account_relabel_places] at unplaced
      exact ⟨other, rfl, unplaced⟩

end Formula

end PluralRule
