import Calculator.Proofs.Grammar.Forms
import Calculator.Proofs.Lexer.Spelling
import Calculator.Proofs.Syntax.Places

/-!
Writing programs. A tree is put into words, with parentheses around each operand that has operators
in it itself, and these into a text with a blank between them. The words of a tree that a source can
have are words of the language.
-/

namespace Calculator

section Writable

/-- A letter or an underscore and then any number of these or of digits, which is no word of the
language. -/
def isName (text : String) : Bool :=
  Pattern.name.accepts text.toList && !Lexer.words.contains text.toList

/-- The links of one chain: at least one, all of one level, and just one if the level groups from
the right. -/
def areLinks : List Link → Bool
  | [] => false
  | [_] => true
  | link :: links =>
      decide link.op.level.Folds && links.all fun other => other.op.level == link.op.level

mutual

/-- The trees that a source without points in its numbers can have. -/
def Expr.isWritable : Expr → Bool
  | .number (.int n) fixed _ => decide (0 ≤ n) && !fixed
  | .number (.float _) _ _ => false
  | .name name _ => isName name
  | .negate operand _ => operand.isWritable
  | .chain first links => first.isWritable && areLinks links && linksWritable links
  | .call name arguments _ => isName name && exprsWritable arguments

def linksWritable : List Link → Bool
  | [] => true
  | ⟨_, operand, _⟩ :: links => operand.isWritable && linksWritable links

def exprsWritable : List Expr → Bool
  | [] => true
  | expr :: exprs => expr.isWritable && exprsWritable exprs

end

mutual

/-- An alternative must not stand where it would be taken for that of an inner condition. -/
def Statement.isWritable : Statement → Bool
  | .assign name _ value _ => isName name && value.isWritable
  | .define definition => definition.isWritable
  | .block body => body.isWritable
  | .ifThen condition consequence _ => condition.isWritable && consequence.isWritable
  | .ifElse condition consequence alternative _ =>
      condition.isWritable && consequence.isWritable && !consequence.endsOpen &&
        alternative.isWritable
  | .print value _ => value.isWritable
  | .reset _ => true
  | .expression value => value.isWritable

def Block.isWritable : Block → Bool
  | ⟨statements, _⟩ => statementsWritable statements

def Definition.isWritable : Definition → Bool
  | ⟨name, params, body, _⟩ => isName name && params.all isName && body.isWritable

def statementsWritable : List Statement → Bool
  | [] => true
  | statement :: statements => statement.isWritable && statementsWritable statements

end

end Writable

section Words

def Kind.word (kind : Kind) : Token := ⟨kind, kind.spelling, 0⟩

def nameWord (name : String) : Token := ⟨.identifier, name, 0⟩

def numberWord (value : Scalar) : Token :=
  ⟨if value.type = .int then .number else .decimal, value.text, 0⟩

def declaringWord : Option NumberType → Token
  | none => Kind.word (.keyword .setWord)
  | some type => ⟨.typeWord, type.name, 0⟩

def separated (separator : Kind) (lists : List (List Token)) : List Token :=
  [separator.word].intercalate lists

/-- Whether an expression has an operator outside of all parentheses. -/
def Expr.isCompound : Expr → Bool
  | .negate .. | .chain .. => true
  | _ => false

def Expr.enclose (expr : Expr) (words : List Token) : List Token :=
  if expr.isCompound then Kind.leftParen.word :: (words ++ [Kind.rightParen.word]) else words

mutual

def Expr.words : Expr → List Token
  | .number value _ _ => [numberWord value]
  | .name name _ => [nameWord name]
  | .negate operand _ => Kind.word (.operator .sub) :: operand.enclose operand.words
  | .chain first links => first.enclose first.words ++ linksWords links
  | .call name arguments _ =>
      [nameWord name] ++
        Kind.leftParen.word :: (separated .comma (exprsWords arguments) ++ [Kind.rightParen.word])

def linksWords : List Link → List Token
  | [] => []
  | ⟨op, operand, _⟩ :: links =>
      Kind.word (.operator op) :: (operand.enclose operand.words ++ linksWords links)

def exprsWords : List Expr → List (List Token)
  | [] => []
  | expr :: exprs => expr.words :: exprsWords exprs

end

mutual

def Statement.words : Statement → List Token
  | .assign name declared value _ =>
      declaringWord declared :: nameWord name :: Kind.assign.word :: value.words
  | .define definition => definition.words
  | .block body => body.words
  | .ifThen condition consequence _ =>
      Kind.word (.keyword .ifWord) ::
        (condition.words ++ Kind.word (.keyword .thenWord) :: consequence.words)
  | .ifElse condition consequence alternative _ =>
      Kind.word (.keyword .ifWord) ::
        (condition.words ++ Kind.word (.keyword .thenWord) ::
          (consequence.words ++ Kind.word (.keyword .elseWord) :: alternative.words))
  | .print value _ => Kind.word (.keyword .printWord) :: value.words
  | .reset _ => [Kind.word (.keyword .resetWord)]
  | .expression value => value.words

def Block.words : Block → List Token
  | ⟨statements, _⟩ =>
      Kind.leftBrace.word ::
        (separated .semicolon (statementsWords statements) ++ [Kind.rightBrace.word])

def Definition.words : Definition → List Token
  | ⟨name, params, body, _⟩ =>
      Kind.word (.keyword .funcWord) :: nameWord name :: Kind.leftParen.word ::
        (separated .comma (params.map ([nameWord ·])) ++ Kind.rightParen.word :: body.words)

def statementsWords : List Statement → List (List Token)
  | [] => []
  | statement :: statements => statement.words :: statementsWords statements

end

namespace Program

def isWritable (program : Program) : Bool := statementsWritable program

def words (program : Program) : List Token := separated .semicolon (statementsWords program)

def written (program : Program) : String := " ".intercalate (program.words.map Token.text)

end Program

theorem separated_cons {separator : Kind} {words : List Token} {lists : List (List Token)}
    (more : lists ≠ []) :
    separated separator (words :: lists) = words ++ separator.word :: separated separator lists := by
  rw [separated, List.intercalate_cons_of_ne_nil more, separated]
  simp

end Words

section Written

/-- A word as the lexer cuts it from a text, where a number can be read, but without its place. -/
structure Token.Written (token : Token) : Prop where
  known : Lexer.Known token
  reads : token.Reads
  pos : token.pos = 0

theorem Kind.written_word {kind : Kind} (fixed : kind.spelling ≠ "") : kind.word.Written where
  known := Lexer.classify_spelling true fixed
  reads := Token.reads_of_kind
    (by rintro rfl; exact fixed rfl) (by rintro rfl; exact fixed rfl)
  pos := rfl

theorem nameWord_written {name : String} (named : isName name) : (nameWord name).Written where
  known := by
    simp only [isName, Bool.and_eq_true, Bool.not_eq_true', List.contains_eq_mem,
      decide_eq_false_iff_not] at named
    exact Lexer.classify_identifier.mpr named
  reads := Token.reads_of_kind (by simp [nameWord]) (by simp [nameWord])
  pos := rfl

theorem numberWord_written {n : Int64} (natural : 0 ≤ n) : (numberWord (.int n)).Written where
  known := by
    rcases intText_nonneg (Int64.le_iff_toInt_le.mp natural) with ⟨nonempty, figures, _⟩
    apply Lexer.classify_number.mpr
    rw [numberWord, Scalar.text, int64Text, String.toList_ofList]
    exact Pattern.accepts_number.mpr
      ⟨nonempty, fun c member => Lexer.digits_contains.mpr (figures c member)⟩
  reads := by
    constructor
    · intro _
      rw [numberWord, Scalar.text, readInt64?_int64Text natural]
      rfl
    · intro kind
      cases kind
  pos := rfl

theorem declaringWord_written (declared : Option NumberType) : (declaringWord declared).Written := by
  cases declared with
  | none => exact Kind.written_word (by decide)
  | some type =>
    have known : (Lexer.standard true).classify type.name.toList = some .typeWord := by
      cases type <;> decide
    exact ⟨known, Token.reads_of_kind (by simp [declaringWord]) (by simp [declaringWord]), rfl⟩

section Lists

variable {words : List Token} {lists : List (List Token)} {separator : Kind}

theorem separated_written (fixed : separator.spelling ≠ "")
    (written : ∀ words ∈ lists, ∀ token ∈ words, token.Written) :
    ∀ token ∈ separated separator lists, token.Written := by
  induction lists with
  | nil => exact fun _ member => absurd member List.not_mem_nil
  | cons words lists ih =>
    rcases List.forall_mem_cons.mp written with ⟨here, later⟩
    by_cases last : lists = []
    · rwa [last, separated, List.intercalate_singleton]
    · rw [separated_cons last]
      simp only [List.forall_mem_append, List.forall_mem_cons]
      exact ⟨here, Kind.written_word fixed, ih later⟩

theorem enclose_written {expr : Expr} (written : ∀ token ∈ words, token.Written) :
    ∀ token ∈ expr.enclose words, token.Written := by
  unfold Expr.enclose
  split
  · simp only [List.forall_mem_append, List.forall_mem_cons]
    exact ⟨Kind.written_word (by decide), written, Kind.written_word (by decide), by simp⟩
  · exact written

end Lists

mutual

theorem Expr.written_words : (expr : Expr) → expr.isWritable → ∀ token ∈ expr.words, token.Written
  | .number (.int n) fixed pos, writable => by
      simp only [Expr.isWritable, Bool.and_eq_true, decide_eq_true_eq] at writable
      simpa [Expr.words] using numberWord_written writable.1
  | .name name pos, writable => by
      simp only [Expr.isWritable] at writable
      simpa [Expr.words] using nameWord_written writable
  | .negate operand pos, writable => by
      simp only [Expr.isWritable] at writable
      simp only [Expr.words, List.forall_mem_cons]
      exact ⟨Kind.written_word (by decide), enclose_written (operand.written_words writable)⟩
  | .chain first links, writable => by
      simp only [Expr.isWritable, Bool.and_eq_true] at writable
      simp only [Expr.words, List.forall_mem_append]
      exact ⟨enclose_written (first.written_words writable.1.1), written_linksWords links writable.2⟩
  | .call name arguments pos, writable => by
      simp only [Expr.isWritable, Bool.and_eq_true] at writable
      have inner : ∀ token ∈ separated .comma (exprsWords arguments), token.Written :=
        separated_written (by decide) (written_exprsWords arguments writable.2)
      simp only [Expr.words, List.forall_mem_append, List.forall_mem_cons]
      exact ⟨⟨nameWord_written writable.1, by simp⟩, Kind.written_word (by decide), inner,
        Kind.written_word (by decide), by simp⟩

theorem written_linksWords : (links : List Link) → linksWritable links →
    ∀ token ∈ linksWords links, token.Written
  | [], _ => by simp [linksWords]
  | ⟨op, operand, pos⟩ :: links, writable => by
      simp only [linksWritable, Bool.and_eq_true] at writable
      simp only [linksWords, List.forall_mem_append, List.forall_mem_cons]
      exact ⟨Kind.written_word (by cases op <;> decide),
        enclose_written (operand.written_words writable.1), written_linksWords links writable.2⟩

theorem written_exprsWords : (exprs : List Expr) → exprsWritable exprs →
    ∀ words ∈ exprsWords exprs, ∀ token ∈ words, token.Written
  | [], _ => by simp [exprsWords]
  | expr :: exprs, writable => by
      simp only [exprsWritable, Bool.and_eq_true] at writable
      simp only [exprsWords, List.forall_mem_cons]
      exact ⟨expr.written_words writable.1, written_exprsWords exprs writable.2⟩

end

mutual

theorem Statement.written_words : (statement : Statement) → statement.isWritable →
    ∀ token ∈ statement.words, token.Written
  | .assign name declared value pos, writable => by
      simp only [Statement.isWritable, Bool.and_eq_true] at writable
      simp only [Statement.words, List.forall_mem_cons]
      exact ⟨declaringWord_written declared, nameWord_written writable.1,
        Kind.written_word (by decide), value.written_words writable.2⟩
  | .define definition, writable => by
      simp only [Statement.isWritable] at writable
      simpa only [Statement.words] using definition.written_words writable
  | .block body, writable => by
      simp only [Statement.isWritable] at writable
      simpa only [Statement.words] using body.written_words writable
  | .ifThen condition consequence pos, writable => by
      simp only [Statement.isWritable, Bool.and_eq_true] at writable
      simp only [Statement.words, List.forall_mem_append, List.forall_mem_cons]
      exact ⟨Kind.written_word (by decide), condition.written_words writable.1,
        Kind.written_word (by decide), consequence.written_words writable.2⟩
  | .ifElse condition consequence alternative pos, writable => by
      simp only [Statement.isWritable, Bool.and_eq_true] at writable
      simp only [Statement.words, List.forall_mem_append, List.forall_mem_cons]
      exact ⟨Kind.written_word (by decide), condition.written_words writable.1.1.1,
        Kind.written_word (by decide), consequence.written_words writable.1.1.2,
        Kind.written_word (by decide), alternative.written_words writable.2⟩
  | .print value pos, writable => by
      simp only [Statement.isWritable] at writable
      simp only [Statement.words, List.forall_mem_cons]
      exact ⟨Kind.written_word (by decide), value.written_words writable⟩
  | .reset pos, _ => by
      simpa [Statement.words] using Kind.written_word (by decide)
  | .expression value, writable => by
      simp only [Statement.isWritable] at writable
      simpa only [Statement.words] using value.written_words writable

theorem Block.written_words : (body : Block) → body.isWritable → ∀ token ∈ body.words, token.Written
  | ⟨statements, pos⟩, writable => by
      simp only [Block.isWritable] at writable
      have inner : ∀ token ∈ separated .semicolon (statementsWords statements), token.Written :=
        separated_written (by decide) (written_statementsWords statements writable)
      simp only [Block.words, List.forall_mem_append, List.forall_mem_cons]
      exact ⟨Kind.written_word (by decide), inner, Kind.written_word (by decide), by simp⟩

theorem Definition.written_words : (definition : Definition) → definition.isWritable →
    ∀ token ∈ definition.words, token.Written
  | ⟨name, params, body, pos⟩, writable => by
      simp only [Definition.isWritable, Bool.and_eq_true, List.all_eq_true] at writable
      have names : ∀ words ∈ params.map ([nameWord ·]), ∀ token ∈ words, token.Written := by
        simpa using fun param member => nameWord_written (writable.1.2 param member)
      have inner : ∀ token ∈ separated .comma (params.map ([nameWord ·])), token.Written :=
        separated_written (by decide) names
      simp only [Definition.words, List.forall_mem_append, List.forall_mem_cons]
      exact ⟨Kind.written_word (by decide), nameWord_written writable.1.1,
        Kind.written_word (by decide), inner, Kind.written_word (by decide),
        body.written_words writable.2⟩

theorem written_statementsWords : (statements : List Statement) → statementsWritable statements →
    ∀ words ∈ statementsWords statements, ∀ token ∈ words, token.Written
  | [], _ => by simp [statementsWords]
  | statement :: statements, writable => by
      simp only [statementsWritable, Bool.and_eq_true] at writable
      simp only [statementsWords, List.forall_mem_cons]
      exact ⟨statement.written_words writable.1, written_statementsWords statements writable.2⟩

end

theorem Program.written_words {program : Program} (writable : program.isWritable) :
    ∀ token ∈ program.words, token.Written :=
  separated_written (by decide) (written_statementsWords program writable)

end Written

end Calculator
