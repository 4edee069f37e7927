import Calculator.Grammar.Statement
import Calculator.Proofs.Syntax.Places

/-!
Parsing does not look at positions. Where all tokens of a stream are moved, and its end with them,
results and errors are the same ones, moved in the same way.
-/

namespace Calculator

def Token.relocate (move : Nat → Nat) (token : Token) : Token := { token with pos := move token.pos }

def LexError.relocate (move : Nat → Nat) : LexError → LexError
  | .noMatch snippet pos => .noMatch snippet (move pos)
  | .unclassified text pos => .unclassified text (move pos)
  | .invalidRule pattern => .invalidRule pattern

def ParseError.relocate (move : Nat → Nat) : ParseError → ParseError
  | .lexical error => .lexical (error.relocate move)
  | .unexpected expected found pos => .unexpected expected found (move pos)
  | .missingThen found pos => .missingThen found (move pos)
  | .notCallable pos => .notCallable (move pos)
  | .invalidLiteral text pos => .invalidLiteral text (move pos)

def Stream.relocate (move : Nat → Nat) (stream : Stream) : Stream where
  current := stream.current.relocate move
  ahead := stream.ahead.map (·.relocate move)
  ending := (stream.ending.map move).mapError (·.relocate move)
  previous := stream.previous

variable {move : Nat → Nat}

@[simp] theorem Token.kind_relocate (token : Token) : (token.relocate move).kind = token.kind := rfl

@[simp] theorem Token.text_relocate (token : Token) : (token.relocate move).text = token.text := rfl

@[simp] theorem Token.pos_relocate (token : Token) : (token.relocate move).pos = move token.pos :=
  rfl

namespace Parser

variable {α β : Type}

/-- What a parser does at a stream, the second does at the moved stream, and its values are images
of those of the first. -/
def Moves (move : Nat → Nat) (image : α → α) (parser moved : Parser α) : Prop :=
  ∀ stream, moved.run (stream.relocate move) =
    match parser.run stream with
    | (.ok value, after) => (.ok (image value), after.relocate move)
    | (.error error, after) => (.error (error.relocate move), after.relocate move)

variable {image : α → α} {image' : β → β} {parser moved : Parser α}

theorem moves_pure {value moved : α} (same : image value = moved) :
    Moves move image (pure value) (pure moved) := by
  subst same
  exact fun _ => rfl

theorem moves_bind {next next' : α → Parser β} (first : Moves move image parser moved)
    (second : ∀ value, Moves move image' (next value) (next' (image value))) :
    Moves move image' (parser >>= next) (moved >>= next') := by
  intro stream
  have begun := first stream
  rw [run_bind, run_bind, begun]
  rcases parser.run stream with ⟨_ | value, after⟩
  · rfl
  · exact second value after

theorem moves_fail (error : ParseError) :
    Moves move image (fail error) (fail (error.relocate move)) := fun _ => rfl

theorem moves_unexpected (expected : Expected) :
    Moves move image (unexpected expected) (unexpected expected) := fun _ => rfl

theorem moves_kind : Moves move id kind kind := fun _ => rfl

theorem moves_previous : Moves move id previous previous := fun _ => rfl

theorem moves_current : Moves move (·.relocate move) current current := fun _ => rfl

theorem moves_advance : Moves move (·.relocate move) advance advance := by
  rintro ⟨current, _ | ⟨token, ahead⟩, _ | pos, previous⟩ <;> rfl

theorem moves_ite {condition : Prop} [Decidable condition] {left left' right right' : Parser α}
    (first : Moves move image left left') (second : Moves move image right right') :
    Moves move image (if condition then left else right)
      (if condition then left' else right') := by
  split
  · exact first
  · exact second

theorem moves_discard (first : Moves move image parser moved) :
    Moves move id (discard parser) (discard moved) :=
  moves_bind first fun _ => moves_pure rfl

theorem moves_expectOneOf (kinds : List Kind) :
    Moves move (·.relocate move) (expectOneOf kinds) (expectOneOf kinds) :=
  moves_bind moves_kind fun _ => moves_ite moves_advance (moves_unexpected _)

theorem moves_expect (wanted : Kind) :
    Moves move (·.relocate move) (expect wanted) (expect wanted) := moves_expectOneOf [wanted]

theorem moves_identifier : Moves move id identifier identifier :=
  moves_bind (moves_expect .identifier) fun _ => moves_pure rfl

theorem moves_within {recursion recursion' : List Token → Parser α}
    (moves : ∀ room, Moves move image (recursion room) (recursion' (room.map (·.relocate move)))) :
    Moves move image (within recursion) (within recursion') :=
  fun stream => moves stream.rest stream

theorem moves_commaItems {item item' : Parser α} (first : Moves move image item item')
    (closing : Kind) (room : List Token) : Moves move (List.map image)
      (commaItems item closing room) (commaItems item' closing (room.map (·.relocate move))) := by
  induction room with
  | nil => exact moves_bind first fun _ => moves_pure rfl
  | cons token room ih =>
    apply moves_bind first
    intro value
    apply moves_bind (moves_expectOneOf _)
    intro separator
    apply moves_ite
    · exact moves_pure rfl
    · exact moves_bind ih fun _ => moves_pure rfl

theorem moves_commaSeparated {item item' : Parser α} (first : Moves move image item item')
    (closing : Kind) :
    Moves move (List.map image) (commaSeparated item closing) (commaSeparated item' closing) := by
  apply moves_bind moves_kind
  intro kind
  apply moves_ite
  · exact moves_bind (moves_discard moves_advance) fun _ => moves_pure rfl
  · exact moves_within (moves_commaItems first closing)

section Expressions

variable {operand operand' : Parser Expr}

theorem moves_operatorOf (operators : List BinaryOp) :
    Moves move id (operatorOf operators) (operatorOf operators) := fun _ => rfl

theorem moves_links (operators : List BinaryOp)
    (first : Moves move (·.relocate move) operand operand') (room : List Token) :
    Moves move (relocateLinks move) (links operators operand room)
      (links operators operand' (room.map (·.relocate move))) := by
  induction room with
  | nil => exact moves_pure (by simp [relocateLinks])
  | cons token room ih =>
    apply moves_bind (moves_operatorOf operators)
    intro found
    cases found with
    | none => exact moves_pure (by simp [relocateLinks])
    | some op =>
      apply moves_bind moves_advance
      intro word
      apply moves_bind first
      intro right
      exact moves_bind ih fun _ => moves_pure (by simp [relocateLinks])

theorem relocate_ofLinks (first : Expr) (links : List Link) :
    (Expr.ofLinks first links).relocate move =
      .ofLinks (first.relocate move) (relocateLinks move links) := by
  cases links with
  | nil => simp [Expr.ofLinks, relocateLinks]
  | cons link links =>
    rcases link with ⟨op, operand, pos⟩
    simp [Expr.ofLinks, Expr.relocate, relocateLinks]

theorem moves_chains (levels : List (List BinaryOp))
    (first : Moves move (·.relocate move) operand operand') :
    Moves move (·.relocate move) (chains operand levels) (chains operand' levels) := by
  induction levels with
  | nil => exact first
  | cons operators levels ih =>
    apply moves_bind ih
    intro value
    exact moves_bind (moves_within (moves_links operators ih)) fun _ =>
      moves_pure (relocate_ofLinks value _)

theorem moves_powers (first : Moves move (·.relocate move) operand operand') (room : List Token) :
    Moves move (·.relocate move) (powers operand room)
      (powers operand' (room.map (·.relocate move))) := by
  induction room with
  | nil => exact first
  | cons token room ih =>
    apply moves_bind first
    intro base
    apply moves_bind moves_kind
    intro kind
    apply moves_ite
    · apply moves_bind moves_advance
      intro word
      exact moves_bind ih fun _ => moves_pure (by simp [Expr.relocate, relocateLinks])
    · exact moves_pure rfl

theorem moves_negations (first : Moves move (·.relocate move) operand operand')
    (room : List Token) : Moves move (·.relocate move) (negations operand room)
      (negations operand' (room.map (·.relocate move))) := by
  induction room with
  | nil => exact first
  | cons token room ih =>
    apply moves_bind moves_kind
    intro kind
    apply moves_ite
    · apply moves_bind moves_advance
      intro word
      exact moves_bind ih fun _ => moves_pure (by simp [Expr.relocate])
    · exact first

theorem moves_literal (read : List Char → Option Scalar) :
    Moves move (·.relocate move) (literal read) (literal read) := by
  apply moves_bind moves_advance
  intro token
  simp only [Token.text_relocate, Token.pos_relocate]
  cases read token.text.toList with
  | none => exact moves_fail (.invalidLiteral token.text token.pos)
  | some value => exact moves_pure (by simp [Expr.relocate])

variable {inner inner' : Parser Expr}

theorem moves_primaryWith (first : Moves move (·.relocate move) inner inner') :
    Moves move (·.relocate move) (primaryWith inner) (primaryWith inner') := by
  apply moves_bind moves_kind
  intro kind
  simp only [id_eq]
  split
  · exact moves_literal _
  · exact moves_literal _
  · exact moves_bind moves_advance fun _ => moves_pure (by simp [Expr.relocate])
  · apply moves_bind (moves_discard moves_advance)
    intro _
    apply moves_bind first
    intro value
    exact moves_bind (moves_discard (moves_expect _)) fun _ => moves_pure rfl
  · exact moves_unexpected _

theorem moves_notCallable : Moves move (·.relocate move) notCallable notCallable :=
  moves_bind moves_current fun token => moves_fail (.notCallable token.pos)

theorem map_relocate (exprs : List Expr) :
    exprs.map (·.relocate move) = relocateExprs move exprs := by
  induction exprs with
  | nil => simp [relocateExprs]
  | cons expr exprs ih => simp [relocateExprs, ih]

theorem moves_callWith (first : Moves move (·.relocate move) inner inner') :
    Moves move (·.relocate move) (callWith inner) (callWith inner') := by
  apply moves_bind (moves_primaryWith first)
  intro target
  apply moves_bind moves_kind
  intro kind
  apply moves_ite
  · cases target with
    | name name pos =>
      simp only [Expr.relocate]
      apply moves_bind (moves_discard moves_advance)
      intro _
      apply moves_bind (moves_commaSeparated first .rightParen)
      intro arguments
      apply moves_bind moves_kind
      intro kind
      apply moves_ite
      · exact moves_notCallable
      · exact moves_pure (by simp [Expr.relocate, map_relocate])
    | _ =>
      simp only [Expr.relocate]
      exact moves_notCallable
  · exact moves_pure rfl

theorem moves_levelWith (first : Moves move (·.relocate move) inner inner')
    (levels : List (List BinaryOp)) :
    Moves move (·.relocate move) (levelWith inner levels) (levelWith inner' levels) :=
  moves_chains levels (moves_within (moves_powers (moves_within
    (moves_negations (moves_callWith first)))))

theorem moves_nested (room : List Token) : Moves move (·.relocate move) (nested room)
    (nested (room.map (·.relocate move))) := by
  induction room with
  | nil => exact moves_unexpected _
  | cons token room ih => exact moves_levelWith ih precedence

theorem moves_expression : Moves move (·.relocate move) expression expression := by
  unfold expression comparison level
  apply moves_within
  intro room
  exact moves_levelWith (moves_nested room) precedence

end Expressions

section Statements

variable {inner inner' : Parser Statement}

theorem moves_skipSeparators (room : List Token) : Moves move id (skipSeparators room)
    (skipSeparators (room.map (·.relocate move))) := by
  induction room with
  | nil => exact moves_pure rfl
  | cons token room ih =>
    apply moves_bind moves_kind
    intro kind
    apply moves_ite
    · exact moves_bind (moves_discard moves_advance) fun _ => ih
    · exact moves_pure rfl

theorem moves_separator : Moves move id separator separator := by
  apply moves_bind moves_previous
  intro kind
  have skips : Moves move id (within skipSeparators) (within skipSeparators) :=
    moves_within moves_skipSeparators
  apply moves_ite
  · exact moves_bind (moves_discard (moves_expectOneOf _)) fun _ => skips
  · exact skips

theorem moves_statementsUntil (terminator : Kind)
    (first : Moves move (·.relocate move) inner inner') (room : List Token) :
    Moves move (relocateStatements move) (statementsUntil terminator inner room)
      (statementsUntil terminator inner' (room.map (·.relocate move))) := by
  induction room with
  | nil =>
    apply moves_bind moves_kind
    intro kind
    exact moves_ite (moves_pure (by simp [relocateStatements])) (moves_unexpected _)
  | cons token room ih =>
    apply moves_bind moves_kind
    intro kind
    apply moves_ite
    · exact moves_pure (by simp [relocateStatements])
    apply moves_bind moves_kind
    intro kind
    apply moves_ite
    · exact moves_unexpected _
    apply moves_bind first
    intro value
    apply moves_bind moves_kind
    intro kind
    apply moves_ite
    · exact moves_pure (by simp [relocateStatements])
    apply moves_bind moves_separator
    intro _
    exact moves_bind ih fun _ => moves_pure (by simp [relocateStatements])

theorem moves_statementList (terminator : Kind)
    (first : Moves move (·.relocate move) inner inner') :
    Moves move (relocateStatements move) (statementList terminator inner)
      (statementList terminator inner') := by
  apply moves_bind (moves_within moves_skipSeparators)
  intro _
  exact moves_within (moves_statementsUntil terminator first)

theorem moves_blockWith (first : Moves move (·.relocate move) inner inner') :
    Moves move (·.relocate move) (blockWith inner) (blockWith inner') := by
  apply moves_bind (moves_expect _)
  intro opening
  apply moves_bind (moves_statementList .rightBrace first)
  intro statements
  exact moves_bind (moves_discard (moves_expect _)) fun _ => moves_pure (by simp [Block.relocate])

theorem moves_declaration (word : Token) :
    Moves move id (declaration word) (declaration (word.relocate move)) := by
  unfold declaration
  apply moves_ite
  · simp only [Token.text_relocate]
    cases NumberType.ofName? word.text with
    | none => exact moves_fail (.unexpected _ word.kind word.pos)
    | some type => exact moves_pure rfl
  · exact moves_pure rfl

theorem moves_assignment : Moves move (·.relocate move) assignment assignment := by
  apply moves_bind moves_advance
  intro word
  apply moves_bind (moves_declaration word)
  intro declared
  apply moves_bind moves_identifier
  intro name
  apply moves_bind (moves_discard (moves_expect _))
  intro _
  exact moves_bind moves_expression fun _ => moves_pure (by simp [Statement.relocate])

theorem moves_conditionWith (first : Moves move (·.relocate move) inner inner') :
    Moves move (·.relocate move) (conditionWith inner) (conditionWith inner') := by
  apply moves_bind moves_advance
  intro word
  apply moves_bind moves_expression
  intro condition
  apply moves_bind moves_current
  intro next
  apply moves_ite
  · apply moves_bind (moves_discard moves_advance)
    intro _
    apply moves_bind first
    intro consequence
    apply moves_bind moves_kind
    intro kind
    apply moves_ite
    · apply moves_bind (moves_discard moves_advance)
      intro _
      exact moves_bind first fun _ => moves_pure (by simp [Statement.relocate])
    · exact moves_pure (by simp [Statement.relocate])
  · exact moves_fail (.missingThen next.kind next.pos)

theorem moves_definitionWith (first : Moves move (·.relocate move) inner inner') :
    Moves move (·.relocate move) (definitionWith inner) (definitionWith inner') := by
  apply moves_bind moves_advance
  intro word
  apply moves_bind moves_identifier
  intro name
  apply moves_bind (moves_discard (moves_expect _))
  intro _
  apply moves_bind (moves_commaSeparated moves_identifier .rightParen)
  intro params
  apply moves_bind (moves_blockWith first)
  intro body
  exact moves_pure (by simp [Statement.relocate, Definition.relocate])

theorem moves_statementWith (first : Moves move (·.relocate move) inner inner') :
    Moves move (·.relocate move) (statementWith inner) (statementWith inner') := by
  apply moves_bind moves_kind
  intro kind
  simp only [id_eq]
  split
  · exact moves_assignment
  · exact moves_assignment
  · exact moves_conditionWith first
  · exact moves_definitionWith first
  · apply moves_bind moves_advance
    intro word
    exact moves_bind moves_expression fun _ => moves_pure (by simp [Statement.relocate])
  · exact moves_bind moves_advance fun _ => moves_pure (by simp [Statement.relocate])
  · exact moves_bind (moves_blockWith first) fun _ => moves_pure (by simp [Statement.relocate])
  · exact moves_bind moves_expression fun _ => moves_pure (by simp [Statement.relocate])

theorem moves_nestedStatement (room : List Token) : Moves move (·.relocate move)
    (nestedStatement room) (nestedStatement (room.map (·.relocate move))) := by
  induction room with
  | nil => exact moves_unexpected _
  | cons token room ih => exact moves_statementWith ih

theorem moves_program : Moves move (relocateStatements move) program program :=
  moves_statementList .endOfInput (moves_within fun room =>
    moves_statementWith (moves_nestedStatement room))

end Statements

end Parser

end Calculator
