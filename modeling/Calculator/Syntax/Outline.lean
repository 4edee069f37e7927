import Calculator.Syntax.Basic

/-!
Programs as outlines: one line for each node, with the nodes below it further in.
-/

namespace Calculator

structure OutlineLine where
  depth : Nat
  label : String
  deriving DecidableEq, Repr

namespace OutlineLine

def text (line : OutlineLine) : String :=
  String.ofList (List.replicate (2 * line.depth) ' ') ++ line.label ++ "\n"

end OutlineLine

def literalLabel (value : Scalar) (fixed : Bool) : String :=
  "Number " ++ value.text ++ if fixed then " (fixed)" else ""

mutual

def Expr.outline (depth : Nat) : Expr → List OutlineLine
  | .number value fixed _ => [⟨depth, literalLabel value fixed⟩]
  | .name name _ => [⟨depth, "Identifier " ++ name⟩]
  | .negate operand _ => ⟨depth, "Unary -"⟩ :: operand.outline (depth + 1)
  | .chain first links =>
      ⟨depth, "Chain"⟩ :: first.outline (depth + 1) ++ outlineLinks (depth + 1) links
  | .call name arguments _ =>
      ⟨depth, "Call " ++ name⟩ :: outlineExprs (depth + 1) arguments

/-- An operator stands as far in as the first operand, its own operand one level further. -/
def outlineLinks (depth : Nat) : List Link → List OutlineLine
  | [] => []
  | ⟨op, operand, _⟩ :: links =>
      ⟨depth, op.symbol⟩ :: operand.outline (depth + 1) ++ outlineLinks depth links

def outlineExprs (depth : Nat) : List Expr → List OutlineLine
  | [] => []
  | expr :: exprs => expr.outline depth ++ outlineExprs depth exprs

end

def declarationLabel (name : String) : Option NumberType → String
  | some type => "Assign " ++ name ++ ": " ++ type.name
  | none => "Assign " ++ name

mutual

/-- The branches of a conditional are not below it but beside it, under their own headings. -/
def Statement.outline (depth : Nat) : Statement → List OutlineLine
  | .assign name declared value _ =>
      ⟨depth, declarationLabel name declared⟩ :: value.outline (depth + 1)
  | .define definition => definition.outline depth
  | .block body => body.outline depth
  | .ifThen condition consequence _ =>
      ⟨depth, "If"⟩ :: condition.outline (depth + 1) ++
        ⟨depth, "Then"⟩ :: consequence.outline (depth + 1)
  | .ifElse condition consequence alternative _ =>
      ⟨depth, "If"⟩ :: condition.outline (depth + 1) ++
        ⟨depth, "Then"⟩ :: consequence.outline (depth + 1) ++
        ⟨depth, "Else"⟩ :: alternative.outline (depth + 1)
  | .print value _ => ⟨depth, "Print"⟩ :: value.outline (depth + 1)
  | .reset _ => [⟨depth, "Reset"⟩]
  | .expression value => value.outline depth

def Block.outline (depth : Nat) : Block → List OutlineLine
  | ⟨statements, _⟩ => ⟨depth, "Block"⟩ :: outlineStatements (depth + 1) statements

def Definition.outline (depth : Nat) : Definition → List OutlineLine
  | ⟨name, params, body, _⟩ =>
      ⟨depth, "Func " ++ name ++ "(" ++ ", ".intercalate params ++ ")"⟩ ::
        body.outline (depth + 1)

def outlineStatements (depth : Nat) : List Statement → List OutlineLine
  | [] => []
  | statement :: statements =>
      statement.outline depth ++ outlineStatements depth statements

end

namespace Program

def outline (program : Program) : List OutlineLine :=
  ⟨0, "Program"⟩ :: outlineStatements 1 program

def outlineText (program : Program) : String :=
  String.join (program.outline.map OutlineLine.text)

end Program

end Calculator
