import Calculator.Syntax.Basic
import Calculator.Token

/-!
What a tree keeps of its source: at which word each of its nodes stands, in the order of the source,
and which names it binds.
-/

namespace Calculator

/-- What stands at the position of a node: a word, or a literal, of which only the value is kept. -/
inductive Landmark
  | word (token : Token)
  | literal (value : Scalar) (pos : Nat)

namespace Landmark

def pos : Landmark → Nat
  | word token => token.pos
  | literal _ pos => pos

def name (name : String) (pos : Nat) : Landmark := .word ⟨.identifier, name, pos⟩

def operator (op : BinaryOp) (pos : Nat) : Landmark := .word ⟨.operator op, op.symbol, pos⟩

def keyword (word : Keyword) (pos : Nat) : Landmark := .word ⟨.keyword word, word.spelling, pos⟩

def declaring : Option NumberType → Nat → Landmark
  | none, pos => keyword .setWord pos
  | some type, pos => .word ⟨.typeWord, type.name, pos⟩

def brace (pos : Nat) : Landmark := .word ⟨.leftBrace, "\x7b", pos⟩

end Landmark

mutual

/-- Where the nodes of an expression stand. A chain stands at its operators. -/
def Expr.landmarks : Expr → List Landmark
  | .number value _ pos => [.literal value pos]
  | .name name pos => [.name name pos]
  | .negate operand pos => .operator .sub pos :: operand.landmarks
  | .chain first links => first.landmarks ++ linksLandmarks links
  | .call name arguments pos => .name name pos :: exprsLandmarks arguments

def linksLandmarks : List Link → List Landmark
  | [] => []
  | ⟨op, operand, pos⟩ :: links => .operator op pos :: (operand.landmarks ++ linksLandmarks links)

def exprsLandmarks : List Expr → List Landmark
  | [] => []
  | expr :: exprs => expr.landmarks ++ exprsLandmarks exprs

end

mutual

def Statement.landmarks : Statement → List Landmark
  | .assign _ declared value pos => .declaring declared pos :: value.landmarks
  | .define definition => definition.landmarks
  | .block body => body.landmarks
  | .ifThen condition consequence pos =>
      .keyword .ifWord pos :: (condition.landmarks ++ consequence.landmarks)
  | .ifElse condition consequence alternative pos =>
      .keyword .ifWord pos ::
        (condition.landmarks ++ (consequence.landmarks ++ alternative.landmarks))
  | .print value pos => .keyword .printWord pos :: value.landmarks
  | .reset pos => [.keyword .resetWord pos]
  | .expression value => value.landmarks

def Block.landmarks : Block → List Landmark
  | ⟨statements, pos⟩ => .brace pos :: statementsLandmarks statements

def Definition.landmarks : Definition → List Landmark
  | ⟨_, _, body, pos⟩ => .keyword .funcWord pos :: body.landmarks

def statementsLandmarks : List Statement → List Landmark
  | [] => []
  | statement :: statements => statement.landmarks ++ statementsLandmarks statements

end

mutual

/-- The names of assignments, functions and parameters, which have no positions of their own. -/
def Statement.boundNames : Statement → List String
  | .assign name _ _ _ => [name]
  | .define definition => definition.boundNames
  | .block body => body.boundNames
  | .ifThen _ consequence _ => consequence.boundNames
  | .ifElse _ consequence alternative _ => consequence.boundNames ++ alternative.boundNames
  | .print .. | .reset _ | .expression _ => []

def Block.boundNames : Block → List String
  | ⟨statements, _⟩ => statementsBoundNames statements

def Definition.boundNames : Definition → List String
  | ⟨name, params, body, _⟩ => name :: (params ++ body.boundNames)

def statementsBoundNames : List Statement → List String
  | [] => []
  | statement :: statements => statement.boundNames ++ statementsBoundNames statements

end

namespace Program

def landmarks (program : Program) : List Landmark := statementsLandmarks program

def boundNames (program : Program) : List String := statementsBoundNames program

end Program

end Calculator
