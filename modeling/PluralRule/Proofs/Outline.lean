import PluralRule.Proofs.Equality
import PluralRule.Proofs.Traversal

/-!
Outlines told apart. An outline is written row by row: a row has a level, which is
its margin, and a caption, which says what stands there. Captions are told apart by
their texts and keep to their lines, so that the text of an outline tells its rows;
and rows are decoded from the front, since a caption tells which formulas follow it.
Main statement: a known formula has an outline unless a literal is too long to be
written, two of them with one outline differ in places alone and are at one level, and
outlines of a formula at different levels differ in their margins alone.
-/

namespace PluralRule

namespace Text

theorem naturalText_injective {number other : Nat}
    (same : naturalText number = naturalText other) : number = other := by
  have read := natural?_naturalText number
  rw [same, natural?_naturalText] at read
  exact (Option.some.inj read).symm

theorem naturalText_ne_signed (number : Nat) (text : String) :
    naturalText number ≠ "-" ++ text := by
  intro same
  obtain ⟨first, rest, spelled, digits⟩ := toDigits_eq_cons number
  have heads := congrArg (fun written : String => written.toList.head?) same
  simp only [naturalText, String.toList_ofList, spelled, String.toList_append] at heads
  obtain rfl : first = '-' := Option.some.inj heads
  have digit := digits '-' List.mem_cons_self
  cases digit

theorem integerText_injective {value other : Int} (same : integerText value = integerText other) :
    value = other := by
  cases value with
  | ofNat number =>
      cases other with
      | ofNat second => exact congrArg Int.ofNat (naturalText_injective same)
      | negSucc second => exact absurd same (naturalText_ne_signed _ _)
  | negSucc number =>
      cases other with
      | ofNat second => exact absurd same.symm (naturalText_ne_signed _ _)
      | negSucc second =>
          have numerals : naturalText (number + 1) = naturalText (second + 1) := by
            have characters := congrArg String.toList same
            simp only [integerText, String.toList_append] at characters
            exact String.toList_inj.mp (List.append_cancel_left characters)
          exact congrArg Int.negSucc (Nat.succ.inj (naturalText_injective numerals))

theorem not_mem_integerText (value : Int) : '\n' ∉ (integerText value).toList := by
  have digits (number : Nat) : '\n' ∉ (naturalText number).toList := by
    intro member
    obtain ⟨first, rest, spelled, all⟩ := toDigits_eq_cons number
    rw [naturalText, String.toList_ofList, spelled] at member
    exact absurd (all _ member) (by decide)
  cases value with
  | ofNat number => exact digits number
  | negSucc number =>
      simp only [integerText, String.toList_append, List.mem_append, not_or]
      exact ⟨by decide, digits (number + 1)⟩

end Text

namespace Number

theorem integerText_ne_truthText (value : Int) (holds : Bool) :
    Text.integerText value ≠ Text.truthText holds := by
  have plain (number : Nat) : Text.naturalText number ≠ Text.truthText holds := by
    intro same
    have read := Text.natural?_naturalText number
    rw [same] at read
    have unread : Text.natural? (Text.truthText holds).toList = none := by
      cases holds <;> decide
    rw [unread] at read
    cases read
  cases value with
  | ofNat number => exact plain number
  | negSucc number =>
      intro same
      have heads := congrArg (fun written : String => written.toList.head?) same
      cases holds <;> simp [Text.integerText, Text.truthText] at heads

theorem text_injective {left right : Number} (same : left.text = right.text) : left = right := by
  cases left with
  | int value =>
      cases right with
      | int other => exact congrArg int (Text.integerText_injective same)
      | truth holds => exact absurd same (integerText_ne_truthText value holds)
  | truth holds =>
      cases right with
      | int other => exact absurd same.symm (integerText_ne_truthText other holds)
      | truth other => revert same; cases holds <;> cases other <;> decide

theorem not_mem_text (number : Number) : '\n' ∉ number.text.toList := by
  cases number with
  | int value => exact Text.not_mem_integerText value
  | truth holds => cases holds <;> decide

theorem text_of_written [Writing] {number : Number} {text : String}
    (written : number.written? = some text) : text = number.text := by
  rw [written?_eq] at written
  split at written
  · exact (Option.some.inj written).symm
  · cases written

end Number

theorem Operation.not_mem_symbol (operation : Operation) :
    '\n' ∉ operation.symbol.toList := by
  cases operation with
  | logical connective => cases connective <;> decide
  | relational comparison => cases comparison <;> decide
  | numeric arithmetic => cases arithmetic <;> decide

/-- What a row of an outline says: the node that stands there, or which part of a
choice follows. -/
inductive Caption where
  | number (number : Number)
  | quantity
  | unary (operator : UnaryOperator)
  | binary (operator : BinaryOperator)
  | choice
  | condition
  | consequent
  | alternate
  | foreign (leaf : Foreign)
  deriving DecidableEq, Repr

namespace Caption

def text : Caption → String
  | .number given => "Number: " ++ given.text
  | .quantity => "Variable: n"
  | .unary operator => "UnaryOp: " ++ operator.symbol
  | .binary operator => "BinaryOp: " ++ operator.symbol
  | .choice => "TernaryOp:"
  | .condition => "condition:"
  | .consequent => "consequent:"
  | .alternate => "alternate:"
  | .foreign leaf => "Unknown: " ++ leaf.shown.getD ""

def Known : Caption → Prop
  | .unary operator => operator.Known
  | .binary operator => operator.Known
  | .foreign _ => False
  | _ => True

def initial : Caption → Char
  | .number _ => 'N'
  | .quantity => 'V'
  | .unary _ => 'U'
  | .binary _ => 'B'
  | .choice => 'T'
  | .condition => 'c'
  | .consequent => 'c'
  | .alternate => 'a'
  | .foreign _ => 'U'

theorem head?_append {label : String} {letter : Char} (text : String)
    (begins : label.toList.head? = some letter) :
    (label ++ text).toList.head? = some letter := by
  rw [String.toList_append, List.head?_append, begins, Option.some_or]

theorem head?_text (caption : Caption) : caption.text.toList.head? = some caption.initial := by
  cases caption with
  | number given => exact head?_append _ (show "Number: ".toList.head? = some 'N' by decide)
  | unary operator => exact head?_append _ (show "UnaryOp: ".toList.head? = some 'U' by decide)
  | binary operator => exact head?_append _ (show "BinaryOp: ".toList.head? = some 'B' by decide)
  | foreign leaf => exact head?_append _ (show "Unknown: ".toList.head? = some 'U' by decide)
  | _ => decide

theorem initial_ne_blank (caption : Caption) : caption.initial ≠ ' ' := by
  cases caption <;> simp [initial]

variable {caption left right : Caption}

theorem Known.unbroken (known : caption.Known) : '\n' ∉ caption.text.toList := by
  cases caption with
  | number given =>
      simp only [text, String.toList_append, List.mem_append, not_or]
      exact ⟨by decide, given.not_mem_text⟩
  | unary operator =>
      cases operator with
      | «unknown» symbol strange => exact absurd known id
      | _ => decide
  | binary operator =>
      cases operator with
      | known operation =>
          simp only [text, String.toList_append, List.mem_append, not_or]
          exact ⟨by decide, operation.not_mem_symbol⟩
      | «unknown» symbol strange => exact absurd known id
  | foreign leaf => exact absurd known id
  | _ => decide

theorem label_cancel {label front rear : String} (same : label ++ front = label ++ rear) :
    front = rear := by
  have characters := congrArg String.toList same
  rw [String.toList_append, String.toList_append] at characters
  exact String.toList_inj.mp (List.append_cancel_left characters)

theorem Known.text_injective (known : left.Known) (other : right.Known)
    (same : left.text = right.text) : left = right := by
  have initials : left.initial = right.initial := by
    have heads := left.head?_text
    rw [same, right.head?_text] at heads
    exact (Option.some.inj heads).symm
  -- The first characters leave captions of one kind, and the two labels that share one.
  cases left with
  | number first =>
      cases right with
      | number second => exact congrArg number (Number.text_injective (label_cancel same))
      | _ => simp [initial] at initials
  | unary operator =>
      cases right with
      | unary second =>
          have symbols := label_cancel same
          cases operator <;> cases second <;>
            first
            | rfl
            | exact absurd symbols (by decide)
            | exact absurd known id
            | exact absurd other id
      | foreign leaf => exact absurd other id
      | _ => simp [initial] at initials
  | binary operator =>
      cases right with
      | binary second =>
          cases operator with
          | «unknown» symbol strange => exact absurd known id
          | known operation =>
              cases second with
              | «unknown» symbol strange => exact absurd other id
              | known another =>
                  exact congrArg (binary ∘ .known) (Operation.symbol_injective (label_cancel same))
      | _ => simp [initial] at initials
  | foreign leaf => exact absurd known id
  | _ => cases right <;> first | rfl | exact absurd same (by decide) | simp [initial] at initials

end Caption

/-- A row of an outline. The level is its margin. -/
@[ext]
structure Row where
  level : Nat
  caption : Caption
  deriving DecidableEq, Repr

namespace Row

/-- Two blanks a level, and the text. -/
def line (row : Row) : List Char := List.replicate (2 * row.level) ' ' ++ row.caption.text.toList

def ended (row : Row) : List Char := row.line ++ ['\n']

def shift (levels : Nat) (row : Row) : Row := ⟨row.level + levels, row.caption⟩

theorem line_shift (levels : Nat) (row : Row) :
    (row.shift levels).line = List.replicate (2 * levels) ' ' ++ row.line := by
  rw [line, shift, line, ← List.append_assoc, List.replicate_append_replicate, Nat.mul_add,
    Nat.add_comm]

variable {row left right : Row}

theorem unbroken (known : row.caption.Known) : '\n' ∉ row.line := by
  simp [line, known.unbroken]

theorem line_ne_nil (row : Row) : row.line ≠ [] := by
  intro empty
  have begins := row.caption.head?_text
  rw [(List.append_eq_nil_iff.mp empty).2] at begins
  cases begins

theorem takeWhile_line (row : Row) :
    row.line.takeWhile (· = ' ') = List.replicate (2 * row.level) ' ' := by
  refine Token.takeWhile_append_of_stop (by simp) fun next begins => ?_
  rw [row.caption.head?_text] at begins
  obtain rfl := Option.some.inj begins
  exact decide_eq_false row.caption.initial_ne_blank

/-- A line tells its row: the margin is all that is blank in front. -/
theorem line_injective (known : left.caption.Known) (other : right.caption.Known)
    (same : left.line = right.line) : left = right := by
  have margins := left.takeWhile_line
  rw [same, right.takeWhile_line] at margins
  have levels := congrArg List.length margins
  rw [List.length_replicate, List.length_replicate] at levels
  rw [line, line, margins] at same
  have texts := String.toList_inj.mp (List.append_cancel_left same)
  exact Row.ext (by omega) (known.text_injective other texts)

theorem map_line_injective {rows others : List Row} (known : ∀ row ∈ rows, row.caption.Known)
    (other : ∀ row ∈ others, row.caption.Known) (same : rows.map line = others.map line) :
    rows = others := by
  induction rows generalizing others with
  | nil => exact (List.map_eq_nil_iff.mp same.symm).symm
  | cons first rest ih =>
      cases others with
      | nil => cases same
      | cons second others =>
          rw [List.forall_mem_cons] at known other
          obtain ⟨lines, rests⟩ := List.cons.inj same
          rw [line_injective known.1 other.1 lines, ih known.2 other.2 rests]

theorem splitOn_ended {rows : List Row} (known : ∀ row ∈ rows, row.caption.Known) :
    (rows.flatMap ended).splitOn '\n' = rows.map line ++ [[]] := by
  induction rows with
  | nil => rfl
  | cons first rest ih =>
      rw [List.forall_mem_cons] at known
      rw [List.flatMap_cons, ended, List.append_assoc, List.singleton_append,
        List.splitOn_append_cons_self_of_not_mem (unbroken known.1), ih known.2]
      rfl

end Row

namespace Formula

/-- The rows of an outline. The rows of the children follow the row of the node, and in
a choice a row in front of each part says which one it is. -/
def rows (level : Nat) : Formula → List Row
  | .literal _ number => [⟨level, .number number⟩]
  | .quantity _ => [⟨level, .quantity⟩]
  | .unary _ operator operand => ⟨level, .unary operator⟩ :: operand.rows (level + 1)
  | .binary _ operator left right =>
      ⟨level, .binary operator⟩ :: (left.rows (level + 1) ++ right.rows (level + 1))
  | .choice _ condition consequent alternate =>
      ⟨level, .choice⟩ :: ⟨level + 1, .condition⟩ :: (condition.rows (level + 2) ++
        ⟨level + 1, .consequent⟩ :: (consequent.rows (level + 2) ++
          ⟨level + 1, .alternate⟩ :: alternate.rows (level + 2)))
  | .foreign leaf => [⟨level, .foreign leaf⟩]

variable {formula first second : Formula} {admits : Number → Prop} {level : Nat}

theorem level_head?_rows (formula : Formula) (level : Nat) :
    (formula.rows level).head?.map Row.level = some level := by
  cases formula <;> rfl

theorem rows_shift (formula : Formula) (level levels : Nat) :
    formula.rows (level + levels) = (formula.rows level).map (Row.shift levels) := by
  induction formula generalizing level with
  | literal position number => rfl
  | quantity position => rfl
  | unary position operator operand ih =>
      simp only [rows, List.map_cons, ← ih, Row.shift, Nat.add_right_comm]
  | binary position operator left right leftIh rightIh =>
      simp only [rows, List.map_cons, List.map_append, ← leftIh, ← rightIh, Row.shift,
        Nat.add_right_comm]
  | choice position condition consequent alternate firstIh secondIh thirdIh =>
      simp only [rows, List.map_cons, List.map_append, ← firstIh, ← secondIh, ← thirdIh, Row.shift,
        Nat.add_right_comm]
  | foreign leaf => rfl

/-- Each node has a row, and a choice one more for each of its parts. -/
theorem length_rows (formula : Formula) (level : Nat) :
    (formula.rows level).length = formula.size + 3 * formula.choices := by
  induction formula generalizing level with
  | literal position number => rfl
  | quantity position => rfl
  | unary position operator operand ih =>
      simp only [rows, List.length_cons, ih, size, choices]
      omega
  | binary position operator left right leftIh rightIh =>
      simp only [rows, List.length_cons, List.length_append, leftIh, rightIh, size, choices]
      omega
  | choice position condition consequent alternate firstIh secondIh thirdIh =>
      simp only [rows, List.length_cons, List.length_append, firstIh, secondIh, thirdIh, size,
        choices]
      omega
  | foreign leaf => rfl

theorem Known.rows (known : formula.Known admits) (level : Nat) :
    ∀ row ∈ formula.rows level, row.caption.Known := by
  induction formula generalizing level with
  | literal position number => simp [Formula.rows, Caption.Known]
  | quantity position => simp [Formula.rows, Caption.Known]
  | unary position operator operand ih =>
      exact List.forall_mem_cons.mpr ⟨known.1, ih known.2 _⟩
  | binary position operator left right leftIh rightIh =>
      exact List.forall_mem_cons.mpr ⟨known.1,
        List.forall_mem_append.mpr ⟨leftIh known.2.1 _, rightIh known.2.2 _⟩⟩
  | choice position condition consequent alternate firstIh secondIh thirdIh =>
      simp only [Formula.rows, List.forall_mem_cons, List.forall_mem_append]
      exact ⟨trivial, trivial, firstIh known.1 _, trivial, secondIh known.2.1 _, trivial,
        thirdIh known.2.2 _⟩
  | foreign leaf => exact absurd known id

/-- Rows are decoded in front of any others: the first row tells how many formulas follow
it and between which parts. -/
theorem identical_of_rows_append {behind beyond : List Row}
    (same : first.rows level ++ behind = second.rows level ++ beyond) :
    first.Identical second ∧ behind = beyond := by
  -- What stands behind is generalized: behind a first child these are the rows of the next one.
  induction first generalizing second level behind beyond with
  | literal position number =>
      cases second with
      | literal place other =>
          obtain ⟨rfl, rfl⟩ : number = other ∧ behind = beyond := by simpa [rows] using same
          exact ⟨rfl, rfl⟩
      | _ => simp [rows] at same
  | quantity position =>
      cases second with
      | quantity place => exact ⟨rfl, (List.cons.inj same).2⟩
      | _ => simp [rows] at same
  | unary position operator operand ih =>
      cases second with
      | unary place other inner =>
          simp only [rows, List.cons_append, List.cons.injEq, Row.mk.injEq,
            Caption.unary.injEq, true_and] at same
          obtain ⟨rfl, below⟩ := same
          obtain ⟨alike, equal⟩ := ih below
          exact ⟨alike.unary position place operator, equal⟩
      | _ => simp [rows] at same
  | binary position operator left right leftIh rightIh =>
      cases second with
      | binary place other before after =>
          simp only [rows, List.cons_append, List.append_assoc, List.cons.injEq, Row.mk.injEq,
            Caption.binary.injEq, true_and] at same
          obtain ⟨rfl, below⟩ := same
          obtain ⟨alike, rest⟩ := leftIh below
          obtain ⟨similar, equal⟩ := rightIh rest
          exact ⟨alike.binary similar position place operator, equal⟩
      | _ => simp [rows] at same
  | choice position condition consequent alternate firstIh secondIh thirdIh =>
      cases second with
      | choice place fourth fifth sixth =>
          simp only [rows, List.cons_append, List.append_assoc, List.cons.injEq, true_and] at same
          obtain ⟨alike, rest⟩ := firstIh same
          obtain ⟨similar, last⟩ := secondIh (List.cons.inj rest).2
          obtain ⟨equal, ends⟩ := thirdIh (List.cons.inj last).2
          exact ⟨alike.choice similar equal position place, ends⟩
      | _ => simp [rows] at same
  | foreign leaf =>
      cases second with
      | foreign other =>
          obtain ⟨rfl, rfl⟩ : leaf = other ∧ behind = beyond := by simpa [rows] using same
          exact ⟨rfl, rfl⟩
      | _ => simp [rows] at same

theorem level_eq_of_rows {other : Nat} (same : first.rows level = second.rows other) :
    level = other := by
  have heads := first.level_head?_rows level
  rw [same, level_head?_rows] at heads
  exact (Option.some.inj heads).symm

theorem ended_eq (level : Nat) (caption : Caption) :
    Row.ended ⟨level, caption⟩ = (margin level ++ caption.text ++ "\n").toList := by
  simp [Row.ended, Row.line, margin]

theorem margin_succ (level : Nat) : margin ((level + 1 : Nat) : Int) = margin level ++ "  " := by
  refine String.toList_inj.mp ?_
  simp only [margin, String.toList_append, String.toList_ofList, Int.toNat_natCast, Nat.mul_succ]
  exact List.replicate_add (2 * level) 2 ' '

/-- Of formulas without foreign leaves those have outlines that hold nothing too long. -/
theorem Genuine.outline_iff [Writing] (genuine : formula.Genuine) (level : Int) :
    (∃ text, formula.outline level = some text) ↔ formula.Narrow := by
  induction formula generalizing level with
  | literal position number =>
      simp only [outline, Option.bind_eq_bind, Option.bind_eq_some_iff, Number.written?_eq, Narrow]
      split <;> rename_i short <;> simp [short]
  | quantity position => simp [outline, Narrow]
  | unary position operator operand ih =>
      rw [Narrow, ← ih genuine (level + 1)]
      simp [outline, Option.bind_eq_some_iff]
  | binary position operator left right leftIh rightIh =>
      rw [Narrow, ← leftIh genuine.1 (level + 1), ← rightIh genuine.2 (level + 1)]
      simp [outline, Option.bind_eq_some_iff]
  | choice position condition consequent alternate firstIh secondIh thirdIh =>
      rw [Narrow, ← firstIh genuine.1 (level + 2), ← secondIh genuine.2.1 (level + 2),
        ← thirdIh genuine.2.2 (level + 2)]
      simp [outline, Option.bind_eq_some_iff]
  | foreign leaf => exact absurd genuine id

section

variable [Writing] {text : String}

/-- An outline is its rows, one a line, but for the line feed behind the last one. -/
theorem outline_rows {level : Nat} (outlined : formula.outline level = some text) :
    (text ++ "\n").toList = (formula.rows level).flatMap Row.ended := by
  induction formula generalizing level text with
  | literal position number =>
      obtain ⟨spelled, written, same⟩ := Option.bind_eq_some_iff.mp outlined
      obtain rfl := Number.text_of_written written
      obtain rfl := Option.some.inj same
      simp only [rows, Caption.text, List.flatMap_cons, List.flatMap_nil, List.append_nil,
        ended_eq, String.append_assoc]
  | quantity position =>
      obtain rfl := Option.some.inj outlined
      simp only [rows, Caption.text, List.flatMap_cons, List.flatMap_nil, List.append_nil,
        ended_eq, String.append_assoc]
  | unary position operator operand ih =>
      obtain ⟨below, written, same⟩ := Option.bind_eq_some_iff.mp outlined
      obtain rfl := Option.some.inj same
      have inner := ih written
      simp only [rows, Caption.text, List.flatMap_cons, ended_eq, ← inner,
        String.toList_append, List.append_assoc]
  | binary position operator left right leftIh rightIh =>
      obtain ⟨first, written, others⟩ := Option.bind_eq_some_iff.mp outlined
      obtain ⟨second, spelled, same⟩ := Option.bind_eq_some_iff.mp others
      obtain rfl := Option.some.inj same
      have before := leftIh written
      have behind := rightIh spelled
      simp only [rows, Caption.text, List.flatMap_cons, List.flatMap_append, ended_eq,
        ← before, ← behind, String.toList_append, List.append_assoc]
  | choice position condition consequent alternate firstIh secondIh thirdIh =>
      obtain ⟨asked, written, others⟩ := Option.bind_eq_some_iff.mp outlined
      obtain ⟨taken, spelled, last⟩ := Option.bind_eq_some_iff.mp others
      obtain ⟨otherwise, shown, same⟩ := Option.bind_eq_some_iff.mp last
      obtain rfl := Option.some.inj same
      have first := firstIh written
      have second := secondIh spelled
      have third := thirdIh shown
      -- A label takes its level from two blanks of its own behind the margin of the choice.
      have condition : "  condition:\n" = "  " ++ "condition:" ++ "\n" := by decide
      have consequent : "  consequent:\n" = "  " ++ "consequent:" ++ "\n" := by decide
      have alternate : "  alternate:\n" = "  " ++ "alternate:" ++ "\n" := by decide
      have whole : "TernaryOp:\n" = "TernaryOp:" ++ "\n" := by decide
      simp only [rows, Caption.text, List.flatMap_cons, List.flatMap_append, ended_eq,
        ← first, ← second, ← third, margin_succ, condition, consequent, alternate, whole,
        String.toList_append, List.append_assoc]
  | foreign leaf =>
      obtain ⟨spelled, written, same⟩ := Option.bind_eq_some_iff.mp outlined
      obtain rfl := Option.some.inj same
      simp only [rows, Caption.text, written, Option.getD_some, List.flatMap_cons,
        List.flatMap_nil, List.append_nil, ended_eq, String.append_assoc]

/-- The lines of the outline of a known formula. -/
theorem Known.splitOn_outline {level : Nat} (known : formula.Known admits)
    (outlined : formula.outline level = some text) :
    text.toList.splitOn '\n' = (formula.rows level).map Row.line := by
  have whole := Row.splitOn_ended (known.rows level)
  rw [← outline_rows outlined, String.toList_append] at whole
  have cut := List.splitOn_append_cons_self (a := '\n') text.toList []
  exact List.append_cancel_right (cut.symm.trans whole)

theorem Known.identical_of_outline {level other : Nat} (known : first.Known admits)
    (genuine : second.Known admits) (outlined : first.outline level = some text)
    (same : second.outline other = some text) : level = other ∧ first.Identical second := by
  have lines := known.splitOn_outline outlined
  rw [genuine.splitOn_outline same] at lines
  have equal := Row.map_line_injective (genuine.rows other) (known.rows level) lines
  obtain rfl := level_eq_of_rows equal
  exact ⟨rfl, (identical_of_rows_append (congrArg (· ++ []) equal.symm)).1⟩

theorem Known.lines_shift {level : Nat} {front : String} (known : formula.Known admits)
    (first : formula.outline (0 : Nat) = some front)
    (outlined : formula.outline level = some text) :
    text.toList.splitOn '\n' =
      (front.toList.splitOn '\n').map (List.replicate (2 * level) ' ' ++ ·) := by
  have deeper := formula.rows_shift 0 level
  rw [Nat.zero_add] at deeper
  rw [known.splitOn_outline outlined, known.splitOn_outline first, deeper, List.map_map,
    List.map_map]
  exact List.map_congr_left fun row _ => row.line_shift level

theorem Known.getLast?_outline {level : Nat} (known : formula.Known admits)
    (outlined : formula.outline level = some text) : text.toList.getLast? ≠ some '\n' := by
  intro last
  obtain ⟨front, spelled⟩ := List.getLast?_eq_some_iff.mp last
  have lines := known.splitOn_outline outlined
  rw [spelled, List.splitOn_append_cons_self, List.splitOn_nil] at lines
  have empty : [] ∈ (formula.rows level).map Row.line :=
    lines ▸ List.mem_append_right _ (List.mem_singleton.mpr rfl)
  obtain ⟨row, -, blank⟩ := List.mem_map.mp empty
  exact row.line_ne_nil blank

end

/-- Outlines are faithful. A known formula has an outline at a level unless a literal is
too long. Two outlines at any levels are one only if the levels are one and the formulas
differ in places alone, which is what makes formulas without truth values equal. A deeper
outline is the outline with its lines indented; the lines are as many as the nodes and
three more for each choice, and there is no line feed behind the last one. -/
theorem outline_faithful [Writing] :
    (∀ formula : Formula, formula.Known (fun _ => True) → ∀ level : Nat,
      (∃ text, formula.outline level = some text) ↔ formula.Narrow) ∧
      (∀ first second : Formula, first.Known (fun _ => True) → second.Known (fun _ => True) →
        ∀ (level other : Nat) (text words : String), first.outline level = some text →
          second.outline other = some words →
          (text = words ↔ level = other ∧ first.Identical second)) ∧
      (∀ first second : Formula, first.Known Number.Plain → second.Known Number.Plain →
        (first.Identical second ↔ first.Same second)) ∧
      ∀ formula : Formula, formula.Known (fun _ => True) →
        ∀ (level : Nat) (front text : String), formula.outline (0 : Nat) = some front →
          formula.outline level = some text →
          text.toList = ['\n'].intercalate
              ((front.toList.splitOn '\n').map (List.replicate (2 * level) ' ' ++ ·)) ∧
            (text.toList.splitOn '\n').length = formula.nodeCount + 3 * formula.choices ∧
            text.toList.getLast? ≠ some '\n' := by
  refine ⟨fun formula known level => known.genuine.outline_iff level, ?_,
    fun first second known other => known.identical_iff_same other, ?_⟩
  · intro first second known genuine level other text words outlined written
    constructor
    · rintro rfl
      exact known.identical_of_outline genuine outlined written
    · rintro ⟨rfl, identical⟩
      rw [identical.outline_eq, written] at outlined
      exact (Option.some.inj outlined).symm
  · intro formula known level front text first outlined
    refine ⟨?_, ?_, known.getLast?_outline outlined⟩
    · rw [← known.lines_shift first outlined, List.intercalate_splitOn]
    · rw [known.splitOn_outline outlined, List.length_map, length_rows, nodeCount_eq_size]

/-- A choice on a negated number below zero, with its first character at the place. -/
def guarded (place : Int) (number : Number) : Formula :=
  .choice (place + 3) (.unary place .negation (.literal (place + 1) number))
    (.quantity (place + 5)) (.literal (place + 9) (.int 0))

attribute [local instance] Writing.standard

def guardedLines : List String :=
  ["TernaryOp:", "  condition:", "    UnaryOp: !", "      Number: -1", "  consequent:",
    "    Variable: n", "  alternate:", "    Number: 0"]

theorem outline_faithful_guarded :
    ∃ front text deeper around : String,
      (guarded 0 (.int (-1))).outline (0 : Nat) = some front ∧
      (guarded 0 (.int (-1))).outline (1 : Nat) = some text ∧
      (guarded 7 (.int (-1))).outline (1 : Nat) = some text ∧
      (guarded 0 (.int (-1))).outline (2 : Nat) = some deeper ∧ text ≠ deeper ∧
      (unary 0 .negation (guarded 0 (.int (-1)))).outline (1 : Nat) = some around ∧
      text ≠ around ∧
      text.toList = ['\n'].intercalate
        ((guardedLines.map String.toList).map ([' ', ' '] ++ ·)) ∧
      (text.toList.splitOn '\n').length = 8 := by
  obtain ⟨outlined, told, -, written⟩ := outline_faithful
  have known (place : Int) : (guarded place (.int (-1))).Known fun _ => True :=
    ⟨⟨trivial, trivial⟩, trivial, trivial⟩
  have wrapped : (unary 0 .negation (guarded 0 (.int (-1)))).Known fun _ => True :=
    ⟨trivial, known 0⟩
  have short : (guarded 0 (.int (-1))).Narrow :=
    ⟨(by decide : Text.Narrow (-1)), trivial, (by decide : Text.Narrow 0)⟩
  obtain ⟨text, shown⟩ := (outlined _ (known 0) 1).mpr short
  obtain ⟨deeper, lower⟩ := (outlined _ (known 0) 2).mpr short
  obtain ⟨around, outer⟩ := (outlined _ wrapped 1).mpr short
  have again : (guarded 7 (.int (-1))).outline (1 : Nat) = some text := by
    obtain ⟨words, moved⟩ := (outlined _ (known 7) 1).mpr short
    rw [(told _ _ (known 0) (known 7) 1 1 text words shown moved).mpr ⟨rfl, by decide⟩, moved]
  have first : (guarded 0 (.int (-1))).outline (0 : Nat) =
      some ("\n".intercalate guardedLines) := by decide +kernel
  have lines : ("\n".intercalate guardedLines).toList.splitOn '\n' =
      guardedLines.map String.toList := by decide +kernel
  obtain ⟨indented, count, -⟩ := written _ (known 0) 1 _ _ first shown
  have nodes : (guarded 0 (.int (-1))).nodeCount + 3 * (guarded 0 (.int (-1))).choices = 8 := by
    decide +kernel
  rw [lines] at indented
  rw [nodes] at count
  refine ⟨_, text, deeper, around, first, shown, again, lower, fun same => ?_, outer,
    fun same => ?_, indented, count⟩
  · exact absurd ((told _ _ (known 0) (known 0) 1 2 text deeper shown lower).mp same).1 (by decide)
  · exact absurd ((told _ _ (known 0) wrapped 1 1 text around shown outer).mp same).2 (by decide)

/-- A truth value equals its integer and has another outline, and a literal that is too
long has none at any level. -/
theorem outline_unfaithful :
    (guarded 0 (.int 1)).Same (guarded 0 (.truth true)) ∧
      (guarded 0 (.int 1)).outline 0 ≠ (guarded 0 (.truth true)).outline 0 ∧
      ∀ level, (guarded 0 (.int Text.leastWide)).outline level = none := by
  refine ⟨by decide, by decide, fun level => ?_⟩
  have wide : (literal 1 (.int Text.leastWide)).outline (level + 2 + 1) = none := by
    rw [outline, Number.written?, Text.written?_of_wide Text.not_narrow_leastWide]
    rfl
  rw [guarded, outline, outline]
  show (((literal (0 + 1) (.int Text.leastWide)).outline (level + 2 + 1)).bind _).bind _ = none
  rw [Int.zero_add, wide]
  rfl

end Formula

end PluralRule
