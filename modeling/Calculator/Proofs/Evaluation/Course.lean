import Calculator.Proofs.Evaluation.Frames
import Mathlib.Logic.Relation

/-!
The course of a run: which evaluations go on inside others, and in which sessions they begin. A point
is reached whether or not the evaluations around it ever end.
-/

namespace Calculator

inductive Activity (V : Type)
  | expr (expr : Expr)
  | links (value : V) (links : List Link)
  | arguments (arguments : List Expr)
  | statement (statement : Statement)
  | statements (statements : List Statement)
  | programs (programs : List Program)

abbrev Point (V : Type) := Activity V × Session V

variable {V : Type} [Arithmetic V]

/-- One activity comes to another one in the same frame: to the part that it evaluates first, or, when
a part has ended, to what is left. -/
inductive GoesOn : Point V → Point V → Prop
  | operand (operand : Expr) (pos : Nat) (session : Session V) :
      GoesOn (.expr (.negate operand pos), session) (.expr operand, session)
  | first (first : Expr) (links : List Link) (session : Session V) :
      GoesOn (.expr (.chain first links), session) (.expr first, session)
  | links {first : Expr} {links : List Link} {before after : Session V} {value : V}
      (ends : Eval.Ends (first.value ·) before (.ok value) after) :
      GoesOn (.expr (.chain first links), before) (.links value links, after)
  | right (value : V) (op : BinaryOp) (operand : Expr) (pos : Nat) (links : List Link)
      (session : Session V) :
      GoesOn (.links value (⟨op, operand, pos⟩ :: links), session) (.expr operand, session)
  | nextLinks {value right result : V} {op : BinaryOp} {operand : Expr} {pos : Nat}
      {links : List Link} {before after : Session V}
      (ends : Eval.Ends (operand.value ·) before (.ok right) after)
      (applied : Arithmetic.apply op value right = .ok result) :
      GoesOn (.links value (⟨op, operand, pos⟩ :: links), before) (.links result links, after)
  | arguments {name : String} {arguments : List Expr} {pos : Nat} {session : Session V}
      {definition : Definition}
      (found : session.scopes.find? name = some (.function definition))
      (counted : definition.params.length = arguments.length) :
      GoesOn (.expr (.call name arguments pos), session) (.arguments arguments, session)
  | argument (argument : Expr) (arguments : List Expr) (session : Session V) :
      GoesOn (.arguments (argument :: arguments), session) (.expr argument, session)
  | nextArguments {argument : Expr} {arguments : List Expr} {before after : Session V} {value : V}
      (ends : Eval.Ends (argument.value ·) before (.ok value) after) :
      GoesOn (.arguments (argument :: arguments), before) (.arguments arguments, after)
  | assigned (name : String) (declared : Option NumberType) (value : Expr) (pos : Nat)
      (session : Session V) :
      GoesOn (.statement (.assign name declared value pos), session) (.expr value, session)
  | ifThen (condition : Expr) (consequence : Statement) (pos : Nat) (session : Session V) :
      GoesOn (.statement (.ifThen condition consequence pos), session) (.expr condition, session)
  | thenTrue {condition : Expr} {consequence : Statement} {pos : Nat} {before after : Session V}
      {value : V} (ends : Eval.Ends (condition.value ·) before (.ok value) after)
      (truth : Arithmetic.isTruthy value = true) :
      GoesOn (.statement (.ifThen condition consequence pos), before)
        (.statement consequence, after)
  | ifElse (condition : Expr) (consequence alternative : Statement) (pos : Nat)
      (session : Session V) :
      GoesOn (.statement (.ifElse condition consequence alternative pos), session)
        (.expr condition, session)
  | elseTrue {condition : Expr} {consequence alternative : Statement} {pos : Nat}
      {before after : Session V} {value : V}
      (ends : Eval.Ends (condition.value ·) before (.ok value) after)
      (truth : Arithmetic.isTruthy value = true) :
      GoesOn (.statement (.ifElse condition consequence alternative pos), before)
        (.statement consequence, after)
  | elseFalse {condition : Expr} {consequence alternative : Statement} {pos : Nat}
      {before after : Session V} {value : V}
      (ends : Eval.Ends (condition.value ·) before (.ok value) after)
      (falsehood : Arithmetic.isTruthy value = false) :
      GoesOn (.statement (.ifElse condition consequence alternative pos), before)
        (.statement alternative, after)
  | printed (expr : Expr) (pos : Nat) (session : Session V) :
      GoesOn (.statement (.print expr pos), session) (.expr expr, session)
  | expression (expr : Expr) (session : Session V) :
      GoesOn (.statement (.expression expr), session) (.expr expr, session)
  | statement (statement : Statement) (statements : List Statement) (session : Session V) :
      GoesOn (.statements (statement :: statements), session) (.statement statement, session)
  | nextStatements {statement : Statement} {statements : List Statement}
      {before after : Session V} {value : Option V}
      (ends : Eval.Ends (statement.eval ·) before (.ok value) after) :
      GoesOn (.statements (statement :: statements), before) (.statements statements, after)
  | program (program : Program) (programs : List Program) (session : Session V) :
      GoesOn (.programs (program :: programs), session) (.statements program, session)
  | nextPrograms {program : Program} {programs : List Program} {before after : Session V}
      {result : Except EvalError (Option V)}
      (ends : Eval.Ends (evalStatements · none program) before result after) :
      GoesOn (.programs (program :: programs), before) (.programs programs, after)

inductive Enters : Point V → List (String × V) → Point V → Prop
  | block (statements : List Statement) (pos : Nat) (session : Session V) :
      Enters (.statement (.block ⟨statements, pos⟩), session) []
        (.statements statements, { session with scopes := session.scopes.push })
  | call {name : String} {arguments : List Expr} {pos : Nat} {before after inside : Session V}
      {definition : Definition} {values : List V}
      (found : before.scopes.find? name = some (.function definition))
      (counted : definition.params.length = arguments.length)
      (ends : Eval.Ends (evalArguments · arguments) before (.ok values) after)
      (bound : (bindParams definition.params values).run
        { after with scopes := after.scopes.push } = some (.ok (), inside)) :
      Enters (.expr (.call name arguments pos), before) (definition.params.zip values)
        (.statements definition.body.statements, inside)

/-- What is reached when programs are run one after the other in a new session. Beside each point
stand the arguments with which its frames were opened, the innermost frame first. -/
inductive Reached (programs : List Program) : List (List (String × V)) → Point V → Prop
  | start : Reached programs [[]] (.programs programs, .start)
  | on {opened : List (List (String × V))} {point next : Point V}
      (reached : Reached programs opened point) (goes : GoesOn point next) :
      Reached programs opened next
  | into {opened : List (List (String × V))} {point next : Point V} {arguments : List (String × V)}
      (reached : Reached programs opened point) (enters : Enters point arguments next) :
      Reached programs (arguments :: opened) next

theorem Reached.opened {programs : List Program} {opened : List (List (String × V))}
    {point : Point V} (reached : Reached programs opened point) :
    opened.getLast? = some [] := by
  induction reached with
  | start => rfl
  | on _ _ ih => exact ih
  | @into opened _ _ arguments _ _ ih =>
    cases opened with
    | nil => cases ih
    | cons frame frames => exact ih

def Leaves : Activity V → Session V → Session V → Prop
  | .expr expr, before, after => ∃ result, Eval.Ends (expr.eval ·) before result after
  | .links value links, before, after =>
      ∃ result, Eval.Ends (evalLinks · value links) before result after
  | .arguments arguments, before, after =>
      ∃ result, Eval.Ends (evalArguments · arguments) before result after
  | .statement statement, before, after =>
      ∃ result, Eval.Ends (statement.eval ·) before result after
  | .statements statements, before, after =>
      ∃ last result, Eval.Ends (evalStatements · last statements) before result after
  | .programs programs, before, after =>
      ∃ outcomes, Runs before programs outcomes ∧
        after = (outcomes.map Prod.snd).getLastD before

end Calculator
