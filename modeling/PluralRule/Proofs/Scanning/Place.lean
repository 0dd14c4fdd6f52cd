import PluralRule.Fault
import PluralRule.Proofs.Scanning.Seam

/-!
The places of a scan. A scan counts from the place where it starts, an obstacle
stands in front of the place where the scan stops, and no token of a scan is the
end. Main statements: a scan that starts further on is the same scan moved, and
blanks in front of a text move its scan, while blanks behind it change neither
the tokens nor the obstacle.
-/

namespace PluralRule

/-- The same fault at another place. A breached limit belongs to no place. -/
def Fault.mapPosition (move : Int → Int) : Fault → Fault
  | .lexical position obstacle => .lexical (move position) obstacle
  | .unexpected expected found => .unexpected expected (found.mapPosition move)
  | .literal token => .literal (token.mapPosition move)
  | .limit breach => .limit breach

namespace Token

open Text (isBlank isDigit)

def Scan.shift (scan : Scan) (distance : Nat) : Scan :=
  ⟨scan.tokens.map (mapPosition (· + (distance : Int))), scan.stop + distance,
    scan.obstacle.map fun stopped => (stopped.1 + distance, stopped.2)⟩

theorem scan_add (distance position : Nat) (characters : List Char) :
    scan (position + distance) characters = (scan position characters).shift distance := by
  fun_induction scan position characters with
  | case1 position =>
      rw [scan]
      rfl
  | case2 position first rest blank ih => rw [scan, if_pos blank, Nat.add_right_comm, ih]
  | case3 position first rest blank found read width tail ih =>
      have behind := ih
      rw [← Nat.add_right_comm] at behind
      rw [scan, if_neg blank, read]
      simp only [width] at behind
      simp only [behind, Scan.shift, List.map_cons, Lexeme.token, mapPosition, Int.natCast_add,
        tail, width]
  | case4 position first rest blank obstacle stuck =>
      rw [scan, if_neg blank, stuck]
      simp only [Scan.shift, List.map_nil, Option.map_some, Nat.add_right_comm]

theorem scan_eq_shift (position : Nat) (characters : List Char) :
    scan position characters = (scan 0 characters).shift position := by
  rw [← scan_add, Nat.zero_add]

theorem scan_stopped {position place : Nat} {obstacle : Obstacle} (characters : List Char)
    (stopped : (scan position characters).obstacle = some (place, obstacle)) :
    position ≤ place ∧ (scan position characters).stop = place + obstacle.width ∧
      1 ≤ obstacle.width := by
  fun_induction scan position characters with
  | case1 position => cases stopped
  | case2 position first rest blank ih =>
      obtain ⟨ahead, stop, wide⟩ := ih stopped
      exact ⟨Nat.le_of_succ_le ahead, stop, wide⟩
  | case3 position first rest blank found read width tail ih =>
      obtain ⟨ahead, stop, wide⟩ := ih stopped
      exact ⟨Nat.le_of_add_right_le ahead, stop, wide⟩
  | case4 position first rest blank obstacle stuck =>
      obtain ⟨rfl, rfl⟩ := Prod.mk.inj (Option.some.inj stopped)
      exact ⟨Nat.le_refl _, rfl, (lexeme_obstacle_width first rest _ stuck).1⟩

theorem scan_unended (position : Nat) (characters : List Char) :
    ∀ token ∈ (scan position characters).tokens, token.kind ≠ .finish := by
  fun_induction scan position characters with
  | case1 position => simp
  | case2 position first rest blank ih => exact ih
  | case3 position first rest blank found read width tail ih =>
      refine List.forall_mem_cons.mpr ⟨fun ends => ?_, ih⟩
      have written := (stands_of_lexeme read).written
      rw [show found.kind = .finish from ends] at written
      rcases written with ⟨impossible, -⟩ | spelled
      · cases impossible
      · cases spelled
  | case4 position first rest blank obstacle stuck => simp

section Blanks

variable {blanks : List Char} (blank : ∀ character ∈ blanks, isBlank character = true)

include blank

theorem scan_blank_append (position : Nat) (characters : List Char) :
    scan position (blanks ++ characters) = scan (position + blanks.length) characters := by
  induction blanks generalizing position with
  | nil => rfl
  | cons first rest ih =>
      obtain ⟨here, behind⟩ := List.forall_mem_cons.mp blank
      rw [List.cons_append, scan, if_pos here, ih behind, List.length_cons]
      congr 1
      omega

theorem takeWhile_append_blank {keep : Char → Bool}
    (visible : ∀ {character}, keep character = true → isBlank character = false)
    (characters : List Char) :
    (characters ++ blanks).takeWhile keep = characters.takeWhile keep := by
  induction characters with
  | nil =>
      cases blanks with
      | nil => rfl
      | cons next rest =>
          have dropped : ¬ keep next = true := by
            intro kept
            have white := blank next List.mem_cons_self
            rw [visible kept] at white
            cases white
          rw [List.nil_append, List.takeWhile_cons_of_neg dropped, List.takeWhile_nil]
  | cons first rest ih =>
      by_cases kept : keep first = true
      · rw [List.cons_append, List.takeWhile_cons_of_pos kept, List.takeWhile_cons_of_pos kept, ih]
      · rw [List.cons_append, List.takeWhile_cons_of_neg kept, List.takeWhile_cons_of_neg kept]

theorem lexeme_append_blank (first : Char) (rest : List Char) :
    lexeme first (rest ++ blanks) = lexeme first rest := by
  have digits := takeWhile_append_blank blank visible_of_digit rest
  have words := takeWhile_append_blank blank visible_of_wordPart rest
  cases rest with
  | cons second behind =>
      rw [lexeme, lexeme, digits, words]
      rfl
  | nil =>
      have unpaired : blanks.head?.bind (pairKind? first) = none := by
        refine Option.bind_eq_none_iff.mpr fun second head => ?_
        cases paired : pairKind? first second with
        | none => rfl
        | some kind =>
            have visible := visible_of_spelled (spelled_of_pair paired) second (by simp)
            rw [blank second (List.mem_of_mem_head? head)] at visible
            cases visible
      rw [lexeme, lexeme, digits, words, List.nil_append, unpaired]
      rfl

theorem scan_append_blank (position : Nat) (characters : List Char) :
    (scan position (characters ++ blanks)).tokens = (scan position characters).tokens ∧
      (scan position (characters ++ blanks)).obstacle = (scan position characters).obstacle := by
  fun_induction scan position characters with
  | case1 position =>
      have whole := scan_blank_append blank position []
      rw [List.append_nil] at whole
      rw [List.nil_append, whole, scan]
      exact ⟨rfl, rfl⟩
  | case2 position first rest here ih =>
      rw [List.cons_append, scan, if_pos here]
      exact ih
  | case3 position first rest here found read width tail ih =>
      have whole := lexeme_length first rest found read
      have inside : found.characters.length - 1 ≤ rest.length := by
        rw [List.length_cons] at whole
        omega
      rw [List.cons_append, scan, if_neg here, lexeme_append_blank blank, read]
      simp only
      rw [List.drop_append_of_le_length inside]
      exact ⟨congrArg (_ :: ·) ih.1, ih.2⟩
  | case4 position first rest here obstacle stuck =>
      rw [List.cons_append, scan, if_neg here, lexeme_append_blank blank, stuck]
      exact ⟨rfl, rfl⟩

end Blanks

end Token

end PluralRule
