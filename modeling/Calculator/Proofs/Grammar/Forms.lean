import Calculator.Proofs.Grammar.Derivation

/-!
The grammar of statements, as relations between tokens and the statements that they stand for. A
list of statements has separators around it and between its statements; none is needed behind a
brace.
-/

namespace Calculator

/-- A condition without an alternative at the end of a statement, where an alternative could still
follow. -/
def Statement.endsOpen : Statement → Bool
  | .ifThen _ _ _ => true
  | .ifElse _ _ alternative _ => alternative.endsOpen
  | _ => false

def Separators (tokens : List Token) : Prop := ∀ token ∈ tokens, token.kind.isSeparator

def EndsInBrace (tokens : List Token) : Prop := tokens.getLast?.map Token.kind = some .rightBrace

inductive Declares : Token → Option NumberType → Prop
  | set {word : Token} (kind : word.kind = .keyword .setWord) : Declares word none
  | type {word : Token} {type : NumberType} (kind : word.kind = .typeWord)
      (named : NumberType.ofName? word.text = some type) : Declares word (some type)

inductive Names : List Token → String → Prop
  | name {word : Token} (kind : word.kind = .identifier) : Names [word] word.text

mutual

inductive StatementForm : List Token → Statement → Prop
  | assign {word name equals : Token} {tokens : List Token} {declared : Option NumberType}
      {value : Expr} (declares : Declares word declared) (named : name.kind = .identifier)
      (assigns : equals.kind = .assign) (stands : Level.comparison.Stands tokens value) :
      StatementForm (word :: name :: equals :: tokens) (.assign name.text declared value word.pos)
  | define {word name opening closing : Token} {list tokens : List Token} {params : List String}
      {body : Block} (defines : word.kind = .keyword .funcWord) (named : name.kind = .identifier)
      (opens : opening.kind = .leftParen) (names : CommaList Names list params)
      (closes : closing.kind = .rightParen) (block : BlockForm tokens body) :
      StatementForm (word :: name :: opening :: (list ++ closing :: tokens))
        (.define ⟨name.text, params, body, word.pos⟩)
  | block {tokens : List Token} {body : Block} (block : BlockForm tokens body) :
      StatementForm tokens (.block body)
  | ifThen {word next : Token} {tokens rest : List Token} {condition : Expr}
      {consequence : Statement} (kind : word.kind = .keyword .ifWord)
      (stands : Level.comparison.Stands tokens condition) (goesOn : next.kind = .keyword .thenWord)
      (form : StatementForm rest consequence) :
      StatementForm (word :: (tokens ++ next :: rest)) (.ifThen condition consequence word.pos)
  | ifElse {word next other : Token} {tokens rest last : List Token} {condition : Expr}
      {consequence alternative : Statement} (kind : word.kind = .keyword .ifWord)
      (stands : Level.comparison.Stands tokens condition) (goesOn : next.kind = .keyword .thenWord)
      (form : StatementForm rest consequence) (nearest : consequence.endsOpen = false)
      (otherwise : other.kind = .keyword .elseWord) (form' : StatementForm last alternative) :
      StatementForm (word :: (tokens ++ next :: (rest ++ other :: last)))
        (.ifElse condition consequence alternative word.pos)
  | print {word : Token} {tokens : List Token} {value : Expr}
      (kind : word.kind = .keyword .printWord) (stands : Level.comparison.Stands tokens value) :
      StatementForm (word :: tokens) (.print value word.pos)
  | reset {word : Token} (kind : word.kind = .keyword .resetWord) :
      StatementForm [word] (.reset word.pos)
  | expression {tokens : List Token} {value : Expr}
      (stands : Level.comparison.Stands tokens value) : StatementForm tokens (.expression value)

inductive BlockForm : List Token → Block → Prop
  | braces {opening closing : Token} {gap tokens : List Token} {statements : List Statement}
      (opens : opening.kind = .leftBrace) (separators : Separators gap)
      (body : BodyForm tokens statements) (closes : closing.kind = .rightBrace) :
      BlockForm (opening :: (gap ++ (tokens ++ [closing]))) ⟨statements, opening.pos⟩

inductive BodyForm : List Token → List Statement → Prop
  | nil : BodyForm [] []
  | cons {tokens gap rest : List Token} {first : Statement} {others : List Statement}
      (form : StatementForm tokens first) (separators : Separators gap)
      (apart : others = [] ∨ gap ≠ [] ∨ EndsInBrace tokens) (body : BodyForm rest others) :
      BodyForm (tokens ++ (gap ++ rest)) (first :: others)

end

def ProgramForm (tokens : List Token) (statements : List Statement) : Prop :=
  ∃ gap rest, tokens = gap ++ rest ∧ Separators gap ∧ BodyForm rest statements

end Calculator
