import Calculator.Syntax.Basic

/-!
Programs at other places. All positions of a tree are changed in the same way, and nothing else is.
Two trees are equal up to positions if they are the same once all of their positions are 0.
-/

namespace Calculator

mutual

/-- The expression with every position changed. -/
def Expr.relocate (move : Nat → Nat) : Expr → Expr
  | .number value fixed pos => .number value fixed (move pos)
  | .name name pos => .name name (move pos)
  | .negate operand pos => .negate (operand.relocate move) (move pos)
  | .chain first links => .chain (first.relocate move) (relocateLinks move links)
  | .call name arguments pos => .call name (relocateExprs move arguments) (move pos)

def relocateLinks (move : Nat → Nat) : List Link → List Link
  | [] => []
  | ⟨op, operand, pos⟩ :: links => ⟨op, operand.relocate move, move pos⟩ :: relocateLinks move links

def relocateExprs (move : Nat → Nat) : List Expr → List Expr
  | [] => []
  | expr :: exprs => expr.relocate move :: relocateExprs move exprs

end

mutual

def Statement.relocate (move : Nat → Nat) : Statement → Statement
  | .assign name declared value pos => .assign name declared (value.relocate move) (move pos)
  | .define definition => .define (definition.relocate move)
  | .block body => .block (body.relocate move)
  | .ifThen condition consequence pos =>
      .ifThen (condition.relocate move) (consequence.relocate move) (move pos)
  | .ifElse condition consequence alternative pos =>
      .ifElse (condition.relocate move) (consequence.relocate move) (alternative.relocate move)
        (move pos)
  | .print value pos => .print (value.relocate move) (move pos)
  | .reset pos => .reset (move pos)
  | .expression value => .expression (value.relocate move)

def Block.relocate (move : Nat → Nat) : Block → Block
  | ⟨statements, pos⟩ => ⟨relocateStatements move statements, move pos⟩

def Definition.relocate (move : Nat → Nat) : Definition → Definition
  | ⟨name, params, body, pos⟩ => ⟨name, params, body.relocate move, move pos⟩

def relocateStatements (move : Nat → Nat) : List Statement → List Statement
  | [] => []
  | statement :: statements => statement.relocate move :: relocateStatements move statements

end

namespace Program

def relocate (move : Nat → Nat) (program : Program) : Program := relocateStatements move program

def shift (bytes : Nat) (program : Program) : Program := program.relocate (· + bytes)

def placeless (program : Program) : Program := program.relocate fun _ => 0

end Program

variable (move : Nat → Nat)

@[simp] theorem Expr.pos_relocate (expr : Expr) : (expr.relocate move).pos = move expr.pos := by
  cases expr with
  | chain first links =>
    simp only [Expr.relocate, Expr.pos]
    exact first.pos_relocate
  | _ => simp only [Expr.relocate, Expr.pos]

@[simp] theorem length_relocateExprs (exprs : List Expr) :
    (relocateExprs move exprs).length = exprs.length := by
  induction exprs with
  | nil => rfl
  | cons expr exprs ih => simp [relocateExprs, ih]

@[simp] theorem relocateLinks_eq_nil {links : List Link} :
    relocateLinks move links = [] ↔ links = [] := by
  rcases links with _ | ⟨⟨op, operand, pos⟩, links⟩ <;> simp [relocateLinks]

@[simp] theorem Definition.params_relocate (definition : Definition) :
    (definition.relocate move).params = definition.params := by
  cases definition
  rfl

section Identity

mutual

@[simp] theorem Expr.relocate_id : (expr : Expr) → expr.relocate id = expr
  | .number .. | .name .. => by simp [Expr.relocate]
  | .negate operand _ => by simp [Expr.relocate, operand.relocate_id]
  | .chain first links => by simp [Expr.relocate, first.relocate_id, relocateLinks_id links]
  | .call _ arguments _ => by simp [Expr.relocate, relocateExprs_id arguments]

@[simp] theorem relocateLinks_id : (links : List Link) → relocateLinks id links = links
  | [] => by simp [relocateLinks]
  | ⟨_, operand, _⟩ :: links => by
      simp [relocateLinks, operand.relocate_id, relocateLinks_id links]

@[simp] theorem relocateExprs_id : (exprs : List Expr) → relocateExprs id exprs = exprs
  | [] => by simp [relocateExprs]
  | expr :: exprs => by simp [relocateExprs, expr.relocate_id, relocateExprs_id exprs]

end

mutual

@[simp] theorem Statement.relocate_id : (statement : Statement) → statement.relocate id = statement
  | .assign .. | .print .. | .reset _ | .expression _ => by simp [Statement.relocate]
  | .define definition => by simp [Statement.relocate, definition.relocate_id]
  | .block body => by simp [Statement.relocate, body.relocate_id]
  | .ifThen _ consequence _ => by simp [Statement.relocate, consequence.relocate_id]
  | .ifElse _ consequence alternative _ => by
      simp [Statement.relocate, consequence.relocate_id, alternative.relocate_id]

@[simp] theorem Block.relocate_id : (body : Block) → body.relocate id = body
  | ⟨statements, _⟩ => by simp [Block.relocate, relocateStatements_id statements]

@[simp] theorem Definition.relocate_id : (definition : Definition) →
    definition.relocate id = definition
  | ⟨_, _, body, _⟩ => by simp [Definition.relocate, body.relocate_id]

@[simp] theorem relocateStatements_id : (statements : List Statement) →
    relocateStatements id statements = statements
  | [] => by simp [relocateStatements]
  | statement :: statements => by
      simp [relocateStatements, statement.relocate_id, relocateStatements_id statements]

end

end Identity

end Calculator
