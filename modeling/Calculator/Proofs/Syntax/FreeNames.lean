import Calculator.Syntax.Basic

/-!
The names that a function leaves free: those that its body may look up where they are neither
parameters nor certain to have been bound before in a frame of the body itself.
-/

namespace Calculator

mutual

def Expr.names : Expr → List String
  | .number .. => []
  | .name name _ => [name]
  | .negate operand _ => operand.names
  | .chain first links => first.names ++ linksNames links
  | .call name arguments _ => name :: exprsNames arguments

def linksNames : List Link → List String
  | [] => []
  | ⟨_, operand, _⟩ :: links => operand.names ++ linksNames links

def exprsNames : List Expr → List String
  | [] => []
  | expr :: exprs => expr.names ++ exprsNames exprs

end

/-- The names that are certain to be bound in the innermost frame behind a statement, given some that
are in front of it. A branch that may be left out binds nothing for certain, and a reset nothing at
all. -/
def Statement.binds (bound : List String) : Statement → List String
  | .assign name _ _ _ => name :: bound
  | .define definition => definition.name :: bound
  | .ifThen _ consequence _ => (consequence.binds bound).filter (· ∈ bound)
  | .ifElse _ consequence alternative _ =>
      (consequence.binds bound).filter (· ∈ alternative.binds bound)
  | .reset _ => []
  | .block _ | .print _ _ | .expression _ => bound

def unbound (names bound : List String) : List String := names.filter (· ∉ bound)

mutual

/-- The names that a statement may look up outside of the innermost frame, where some names are
bound. -/
def Statement.free (bound : List String) : Statement → List String
  | .assign _ _ value _ => unbound value.names bound
  | .define definition => unbound definition.free (definition.name :: bound)
  | .block body => unbound (body.free []) bound
  | .ifThen condition consequence _ => unbound condition.names bound ++ consequence.free bound
  | .ifElse condition consequence alternative _ =>
      unbound condition.names bound ++ (consequence.free bound ++ alternative.free bound)
  | .print value _ => unbound value.names bound
  | .reset _ => []
  | .expression value => unbound value.names bound

/-- The names that a body may look up outside of its own frame, in which some are bound at first. -/
def Block.free (bound : List String) : Block → List String
  | ⟨statements, _⟩ => statementsFree bound statements

/-- A function inside another looks its own free names up from the frame in which it is bound. -/
def Definition.free : Definition → List String
  | ⟨_, params, body, _⟩ => body.free params

def statementsFree (bound : List String) : List Statement → List String
  | [] => []
  | statement :: statements =>
      statement.free bound ++ statementsFree (statement.binds bound) statements

end

theorem mem_unbound {names bound : List String} {name : String} :
    name ∈ unbound names bound ↔ name ∈ names ∧ name ∉ bound := by
  simp [unbound]

theorem mem_bound_or_unbound {names : List String} (bound : List String) {name : String}
    (member : name ∈ names) :
    name ∈ bound ∨ name ∈ unbound names bound := by
  by_cases known : name ∈ bound
  · exact .inl known
  · exact .inr (mem_unbound.mpr ⟨member, known⟩)

end Calculator
