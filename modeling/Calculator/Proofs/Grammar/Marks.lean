import Calculator.Proofs.Grammar.Source

/-!
Parentheses between the words of a source. Wherever they are put, the words are cut as they were:
a word is no longer in front of a parenthesis than it is in front of the next word.
-/

namespace Calculator

open Calculator.Lexer

/-- A word of an expression, or a parenthesis that is put between its words. -/
inductive Mark
  | opened
  | closed
  | word (piece : Piece)

namespace Mark

def text : Mark → List Char
  | opened => ['(']
  | closed => [')']
  | word piece => piece.text

def token : Mark → Token
  | opened => ⟨.leftParen, "(", 0⟩
  | closed => ⟨.rightParen, ")", 0⟩
  | word piece => piece.token

def piece? : Mark → Option Piece
  | word piece => some piece
  | opened | closed => none

end Mark

def written (marks : List Mark) : List Char := marks.flatMap Mark.text

def tokensOf (marks : List Mark) : List Token := marks.map Mark.token

def wordsOf (marks : List Mark) : List Piece := marks.filterMap Mark.piece?

section Lists

theorem tokensOf_all {property : Token → Prop} (opens : property (Mark.token .opened))
    (closes : property (Mark.token .closed)) {marks : List Mark}
    (words : ∀ piece ∈ wordsOf marks, property piece.token) :
    ∀ token ∈ tokensOf marks, property token := by
  intro token member
  rcases List.mem_map.mp member with ⟨mark, listed, rfl⟩
  cases mark with
  | opened => exact opens
  | closed => exact closes
  | word piece => exact words piece (List.mem_filterMap.mpr ⟨.word piece, listed, rfl⟩)

theorem tokensOf_append (front back : List Mark) :
    tokensOf (front ++ back) = tokensOf front ++ tokensOf back := List.map_append

theorem tokensOf_word (piece : Piece) (marks : List Mark) :
    tokensOf (.word piece :: marks) = piece.token :: tokensOf marks := rfl

theorem tokensOf_words (pieces : List Piece) :
    tokensOf (pieces.map .word) = pieces.map Piece.token := List.map_map

theorem wordsOf_append (front back : List Mark) :
    wordsOf (front ++ back) = wordsOf front ++ wordsOf back := List.filterMap_append

theorem wordsOf_word (piece : Piece) (marks : List Mark) :
    wordsOf (.word piece :: marks) = piece :: wordsOf marks := rfl

theorem wordsOf_words (pieces : List Piece) : wordsOf (pieces.map .word) = pieces := by
  induction pieces with
  | nil => rfl
  | cons piece pieces ih => rw [List.map_cons, wordsOf_word, ih]

theorem written_word (piece : Piece) (marks : List Mark) :
    written (.word piece :: marks) = piece.gap ++ (piece.token.text.toList ++ written marks) :=
  List.append_assoc piece.gap piece.token.text.toList (written marks)

end Lists

section Cutting

variable {skips : Bool} {scan : Scan} {tokens : List Token} {last : Nat}

theorem Lexer.Lexes.tiles (lexes : Lexes skips scan tokens (.ok last)) :
    ∃ pieces gap, Tiles (standard skips) scan pieces gap [] ∧ pieces.map Piece.token = tokens := by
  generalize result : Except.ok last = ended at lexes
  induction lexes with
  | @ended scan nothing =>
    rcases skip_spec (standard skips) scan with ⟨gap, text, _, blanks⟩
    rw [nothing] at text
    exact ⟨[], gap, .nil text blanks, rfl⟩
  | stuck => cases result
  | @word scan word tail kind tokens _ text longest known later ih =>
    rcases skip_spec (standard skips) scan with ⟨blank, whole, place, blanks⟩
    rw [text] at whole
    rcases ih result with ⟨pieces, gap, tiles, same⟩
    have real := (Lexes.word text longest known later).kinds _ List.mem_cons_self
    exact ⟨_, gap, tiles.cons whole blanks longest.nonempty real place, congrArg _ same⟩

variable {marks : List Mark} {gap word : List Char}

theorem written_begins (marks : List Mark) (gap : List Char) :
    written marks ++ gap = tiling (wordsOf marks) ++ gap ∨ ∃ front c back,
      written marks ++ gap = front ++ c :: back ∧ front <+: tiling (wordsOf marks) ++ gap ∧
        c ∈ loners := by
  induction marks with
  | nil => exact .inl rfl
  | cons mark marks ih =>
    cases mark with
    | opened => exact .inr ⟨[], '(', _, rfl, List.nil_prefix, by decide⟩
    | closed => exact .inr ⟨[], ')', _, rfl, List.nil_prefix, by decide⟩
    | word piece =>
      have here : written (.word piece :: marks) ++ gap = piece.text ++ (written marks ++ gap) :=
        List.append_assoc _ _ _
      have there : tiling (wordsOf (.word piece :: marks)) ++ gap =
          piece.text ++ (tiling (wordsOf marks) ++ gap) := List.append_assoc _ _ _
      rw [here, there]
      rcases ih with same | ⟨front, c, back, same, begins, loner⟩
      · exact .inl (congrArg _ same)
      · refine .inr ⟨piece.text ++ front, c, back, ?_, ?_, loner⟩
        · rw [same, List.append_assoc]
        · exact (List.prefix_append_right_inj _).mpr begins

theorem Lexer.Longest.written (longest : Longest (word ++ (tiling (wordsOf marks) ++ gap)) word) :
    Longest (word ++ (written marks ++ gap)) word := by
  rcases written_begins marks gap with same | ⟨front, c, back, same, begins, loner⟩
  · rwa [same]
  · have shorter : Longest (word ++ front) word :=
      longest.of_prefix (List.prefix_append word front)
        ((List.prefix_append_right_inj word).mpr begins)
    rw [same, ← List.append_assoc]
    exact shorter.append back (.inr loner)

theorem Lexer.Lexes.written {pos : Nat}
    (blanks : ∀ piece ∈ wordsOf marks, (standard skips).Blanks piece.gap)
    (blank : (standard skips).Blanks gap)
    (lexes : Lexes skips ⟨tiling (wordsOf marks) ++ gap, pos⟩ ((wordsOf marks).map Piece.token)
      (.ok last)) (start : Nat) :
    ∃ tokens stop, Lexes skips ⟨written marks ++ gap, start⟩ tokens (.ok stop) ∧
      tokens.map (·.relocate fun _ => 0) = (tokensOf marks).map (·.relocate fun _ => 0) := by
  -- A parenthesis parts what stands around it, so each mark is cut by itself.
  induction marks generalizing pos start with
  | nil => exact ⟨[], _, .ended (skip_blanks blank), rfl⟩
  | cons mark marks ih =>
    cases mark with
    | opened =>
      rcases ih blanks lexes (start + byteCount ['(']) with ⟨tokens, stop, later, same⟩
      exact ⟨_, stop, .loner (by decide) rfl later, congrArg (List.cons _) same⟩
    | closed =>
      rcases ih blanks lexes (start + byteCount [')']) with ⟨tokens, stop, later, same⟩
      exact ⟨_, stop, .loner (by decide) rfl later, congrArg (List.cons _) same⟩
    | word piece =>
      rcases List.forall_mem_cons.mp blanks with ⟨gapBlank, blanks⟩
      rw [wordsOf_word, List.map_cons] at lexes
      rcases lexes.first with ⟨tail, text, longest, known, later⟩
      have whole : tiling (piece :: wordsOf marks) ++ gap =
          piece.gap ++ (piece.token.text.toList ++ (tiling (wordsOf marks) ++ gap)) := by
        rw [tiling_cons, Piece.text, List.append_assoc, List.append_assoc]
      have skipped : (standard skips).skip ⟨tiling (piece :: wordsOf marks) ++ gap, pos⟩ = _ :=
        whole ▸ skip_to_word gapBlank longest.nonempty longest.accepted
      rw [skipped] at text later
      obtain rfl := List.append_cancel_left text
      rcases ih blanks later (start + byteCount piece.gap + byteCount piece.token.text.toList) with
        ⟨tokens, stop, later, same⟩
      have cut := Lexes.cut gapBlank longest.written known later
      rw [String.ofList_toList] at cut
      rw [written_word, List.append_assoc, List.append_assoc]
      exact ⟨_, stop, cut, congrArg (List.cons _) same⟩

end Cutting

end Calculator
