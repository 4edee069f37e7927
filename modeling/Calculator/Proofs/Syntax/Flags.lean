import Calculator.Syntax.Basic

/-!
Programs on integers alone, and programs that differ in the flags of their literals and in nothing
else.
-/

namespace Calculator

mutual

def Expr.isIntegral : Expr → Bool
  | .number value _ _ => value.type == .int
  | .name _ _ => true
  | .negate operand _ => operand.isIntegral
  | .chain first links => first.isIntegral && linksIntegral links
  | .call _ arguments _ => exprsIntegral arguments

def linksIntegral : List Link → Bool
  | [] => true
  | ⟨_, operand, _⟩ :: links => operand.isIntegral && linksIntegral links

def exprsIntegral : List Expr → Bool
  | [] => true
  | expr :: exprs => expr.isIntegral && exprsIntegral exprs

end

mutual

/-- Every literal is an integer and no assignment is declared a float. -/
def Statement.isIntegral : Statement → Bool
  | .assign _ declared value _ => declared != some .float && value.isIntegral
  | .define definition => definition.isIntegral
  | .block body => body.isIntegral
  | .ifThen condition consequence _ => condition.isIntegral && consequence.isIntegral
  | .ifElse condition consequence alternative _ =>
      condition.isIntegral && consequence.isIntegral && alternative.isIntegral
  | .print value _ => value.isIntegral
  | .reset _ => true
  | .expression value => value.isIntegral

def Block.isIntegral : Block → Bool
  | ⟨statements, _⟩ => statementsIntegral statements

def Definition.isIntegral : Definition → Bool
  | ⟨_, _, body, _⟩ => body.isIntegral

def statementsIntegral : List Statement → Bool
  | [] => true
  | statement :: statements => statement.isIntegral && statementsIntegral statements

end

mutual

def Expr.reflag (change : Bool → Bool) : Expr → Expr
  | .number value fixed pos => .number value (change fixed) pos
  | .name name pos => .name name pos
  | .negate operand pos => .negate (operand.reflag change) pos
  | .chain first links => .chain (first.reflag change) (reflagLinks change links)
  | .call name arguments pos => .call name (reflagExprs change arguments) pos

def reflagLinks (change : Bool → Bool) : List Link → List Link
  | [] => []
  | ⟨op, operand, pos⟩ :: links => ⟨op, operand.reflag change, pos⟩ :: reflagLinks change links

def reflagExprs (change : Bool → Bool) : List Expr → List Expr
  | [] => []
  | expr :: exprs => expr.reflag change :: reflagExprs change exprs

end

mutual

def Statement.reflag (change : Bool → Bool) : Statement → Statement
  | .assign name declared value pos => .assign name declared (value.reflag change) pos
  | .define definition => .define (definition.reflag change)
  | .block body => .block (body.reflag change)
  | .ifThen condition consequence pos =>
      .ifThen (condition.reflag change) (consequence.reflag change) pos
  | .ifElse condition consequence alternative pos =>
      .ifElse (condition.reflag change) (consequence.reflag change) (alternative.reflag change) pos
  | .print value pos => .print (value.reflag change) pos
  | .reset pos => .reset pos
  | .expression value => .expression (value.reflag change)

def Block.reflag (change : Bool → Bool) : Block → Block
  | ⟨statements, pos⟩ => ⟨reflagStatements change statements, pos⟩

def Definition.reflag (change : Bool → Bool) : Definition → Definition
  | ⟨name, params, body, pos⟩ => ⟨name, params, body.reflag change, pos⟩

def reflagStatements (change : Bool → Bool) : List Statement → List Statement
  | [] => []
  | statement :: statements => statement.reflag change :: reflagStatements change statements

end

namespace Program

def isIntegral (program : Program) : Bool := statementsIntegral program

def unflagged (program : Program) : Program := reflagStatements (fun _ => false) program

end Program

def Definition.unflagged (definition : Definition) : Definition :=
  definition.reflag fun _ => false

@[simp] theorem Expr.pos_reflag (change : Bool → Bool) (expr : Expr) :
    (expr.reflag change).pos = expr.pos := by
  cases expr with
  | chain first links =>
    simp only [Expr.reflag, Expr.pos]
    exact first.pos_reflag change
  | _ => simp only [Expr.reflag, Expr.pos]

@[simp] theorem length_reflagExprs (change : Bool → Bool) (exprs : List Expr) :
    (reflagExprs change exprs).length = exprs.length := by
  induction exprs with
  | nil => rfl
  | cons expr exprs ih => simp [reflagExprs, ih]

mutual

@[simp] theorem Expr.reflag_id : (expr : Expr) → expr.reflag id = expr
  | .number .. | .name .. => by simp [Expr.reflag]
  | .negate operand _ => by simp [Expr.reflag, operand.reflag_id]
  | .chain first links => by simp [Expr.reflag, first.reflag_id, reflagLinks_id links]
  | .call _ arguments _ => by simp [Expr.reflag, reflagExprs_id arguments]

@[simp] theorem reflagLinks_id : (links : List Link) → reflagLinks id links = links
  | [] => by simp [reflagLinks]
  | ⟨_, operand, _⟩ :: links => by simp [reflagLinks, operand.reflag_id, reflagLinks_id links]

@[simp] theorem reflagExprs_id : (exprs : List Expr) → reflagExprs id exprs = exprs
  | [] => by simp [reflagExprs]
  | expr :: exprs => by simp [reflagExprs, expr.reflag_id, reflagExprs_id exprs]

end

mutual

@[simp] theorem Statement.reflag_id : (statement : Statement) → statement.reflag id = statement
  | .assign .. | .print .. | .reset _ | .expression _ => by simp [Statement.reflag]
  | .define definition => by simp [Statement.reflag, definition.reflag_id]
  | .block body => by simp [Statement.reflag, body.reflag_id]
  | .ifThen _ consequence _ => by simp [Statement.reflag, consequence.reflag_id]
  | .ifElse _ consequence alternative _ => by
      simp [Statement.reflag, consequence.reflag_id, alternative.reflag_id]

@[simp] theorem Block.reflag_id : (body : Block) → body.reflag id = body
  | ⟨statements, _⟩ => by simp [Block.reflag, reflagStatements_id statements]

@[simp] theorem Definition.reflag_id : (definition : Definition) → definition.reflag id = definition
  | ⟨_, _, body, _⟩ => by simp [Definition.reflag, body.reflag_id]

@[simp] theorem reflagStatements_id : (statements : List Statement) →
    reflagStatements id statements = statements
  | [] => by simp [reflagStatements]
  | statement :: statements => by
      simp [reflagStatements, statement.reflag_id, reflagStatements_id statements]

end

variable (change : Bool → Bool)

mutual

@[simp] theorem Expr.isIntegral_reflag : (expr : Expr) →
    (expr.reflag change).isIntegral = expr.isIntegral
  | .number .. | .name .. => by simp [Expr.reflag, Expr.isIntegral]
  | .negate operand _ => by simp [Expr.reflag, Expr.isIntegral, operand.isIntegral_reflag]
  | .chain first links => by
      simp [Expr.reflag, Expr.isIntegral, first.isIntegral_reflag, linksIntegral_reflag links]
  | .call _ arguments _ => by simp [Expr.reflag, Expr.isIntegral, exprsIntegral_reflag arguments]

@[simp] theorem linksIntegral_reflag : (links : List Link) →
    linksIntegral (reflagLinks change links) = linksIntegral links
  | [] => by simp [reflagLinks]
  | ⟨_, operand, _⟩ :: links => by
      simp [reflagLinks, linksIntegral, operand.isIntegral_reflag, linksIntegral_reflag links]

@[simp] theorem exprsIntegral_reflag : (exprs : List Expr) →
    exprsIntegral (reflagExprs change exprs) = exprsIntegral exprs
  | [] => by simp [reflagExprs]
  | expr :: exprs => by
      simp [reflagExprs, exprsIntegral, expr.isIntegral_reflag, exprsIntegral_reflag exprs]

end

mutual

@[simp] theorem Statement.isIntegral_reflag : (statement : Statement) →
    (statement.reflag change).isIntegral = statement.isIntegral
  | .assign .. | .print .. | .reset _ | .expression _ => by
      simp [Statement.reflag, Statement.isIntegral]
  | .define definition => by
      simp [Statement.reflag, Statement.isIntegral, definition.isIntegral_reflag]
  | .block body => by simp [Statement.reflag, Statement.isIntegral, body.isIntegral_reflag]
  | .ifThen _ consequence _ => by
      simp [Statement.reflag, Statement.isIntegral, consequence.isIntegral_reflag]
  | .ifElse _ consequence alternative _ => by
      simp [Statement.reflag, Statement.isIntegral, consequence.isIntegral_reflag,
        alternative.isIntegral_reflag]

@[simp] theorem Block.isIntegral_reflag : (body : Block) →
    (body.reflag change).isIntegral = body.isIntegral
  | ⟨statements, _⟩ => by
      simp [Block.reflag, Block.isIntegral, statementsIntegral_reflag statements]

@[simp] theorem Definition.isIntegral_reflag : (definition : Definition) →
    (definition.reflag change).isIntegral = definition.isIntegral
  | ⟨_, _, body, _⟩ => by simp [Definition.reflag, Definition.isIntegral, body.isIntegral_reflag]

@[simp] theorem statementsIntegral_reflag : (statements : List Statement) →
    statementsIntegral (reflagStatements change statements) = statementsIntegral statements
  | [] => by simp [reflagStatements]
  | statement :: statements => by
      simp [reflagStatements, statementsIntegral, statement.isIntegral_reflag,
        statementsIntegral_reflag statements]

end

end Calculator
