import Calculator.Failure
import Calculator.Number.Arithmetic
import Calculator.Scopes

/-!
Running programs. The value of a statement or expression may be missing, as that of a definition is.
Calls are the one way to go on without end, so a run is given the number of calls that may be open
at a time, and has no outcome where it would need more.
-/

namespace Calculator

/-- What a run changes: the bindings, and the numbers printed so far. -/
structure Session (V : Type) where
  scopes : Scopes V
  printed : Array V

def Session.start {V : Type} : Session V := ⟨.start, #[]⟩

/-- Computations in a session. There is no outcome where too many calls are open. -/
def Eval (V α : Type) : Type := Session V → Option (Except EvalError α × Session V)

namespace Eval

variable {V α β : Type}

def run (action : Eval V α) (session : Session V) : Option (Except EvalError α × Session V) :=
  action session

instance : Monad (Eval V) where
  pure value := fun session => some (.ok value, session)
  bind action next := fun session =>
    match action session with
    | some (.ok value, later) => next value later
    | some (.error error, later) => some (.error error, later)
    | none => none

def exhausted : Eval V α := fun _ => none

def fail (fault : Fault) (pos : Nat) : Eval V α :=
  fun session => some (.error ⟨fault, pos⟩, session)

def ofExcept (pos : Nat) : Except Fault α → Eval V α
  | .ok value => pure value
  | .error fault => fail fault pos

def scopes : Eval V (Scopes V) := fun session => some (.ok session.scopes, session)

def modifyScopes (change : Scopes V → Scopes V) : Eval V Unit :=
  fun session => some (.ok (), { session with scopes := change session.scopes })

def emit (value : V) : Eval V Unit :=
  fun session => some (.ok (), { session with printed := session.printed.push value })

/-- Runs an action inside a new frame, which is left again whatever happens. -/
def inFrame (action : Eval V α) : Eval V α := fun session =>
  match action { session with scopes := session.scopes.push } with
  | some (result, later) => some (result, { later with scopes := later.scopes.pop })
  | none => none

def require (pos : Nat) (action : Eval V (Option α)) : Eval V α := do
  match ← action with
  | some value => return value
  | none => fail .noValue pos

theorem run_pure (value : α) (session : Session V) :
    (pure value : Eval V α).run session = some (.ok value, session) := rfl

theorem run_bind (action : Eval V α) (next : α → Eval V β) (session : Session V) :
    (action >>= next).run session =
      match action.run session with
      | some (.ok value, later) => (next value).run later
      | some (.error error, later) => some (.error error, later)
      | none => none := rfl

theorem run_ofExcept (pos : Nat) (result : Except Fault α) (session : Session V) :
    (ofExcept pos result : Eval V α).run session =
      some (result.mapError (⟨·, pos⟩), session) := by
  cases result <;> rfl

theorem run_modifyScopes (change : Scopes V → Scopes V) (session : Session V) :
    (modifyScopes change).run session =
      some (.ok (), { session with scopes := change session.scopes }) := rfl

theorem run_emit (value : V) (session : Session V) :
    (emit value).run session =
      some (.ok (), { session with printed := session.printed.push value }) := rfl

theorem run_bind_ok {action : Eval V α} {value : α} {before later : Session V}
    (ends : action.run before = some (.ok value, later)) (next : α → Eval V β) :
    (action >>= next).run before = (next value).run later := by
  rw [run_bind, ends]

theorem run_bind_error {action : Eval V α} {error : EvalError} {before later : Session V}
    (ends : action.run before = some (.error error, later)) (next : α → Eval V β) :
    (action >>= next).run before = some (.error error, later) := by
  rw [run_bind, ends]

theorem run_bind_cases {action : Eval V α} {next : α → Eval V β} {before : Session V}
    {outcome : Except EvalError β × Session V}
    (ends : (action >>= next).run before = some outcome) :
    (∃ value later, action.run before = some (.ok value, later) ∧
        (next value).run later = some outcome) ∨
      ∃ error later, action.run before = some (.error error, later) ∧
        outcome = (.error error, later) := by
  cases started : action.run before with
  | none =>
    rw [run_bind, started] at ends
    cases ends
  | some reached =>
    obtain ⟨result, later⟩ := reached
    cases result with
    | ok value =>
      rw [run_bind_ok started] at ends
      exact .inl ⟨value, later, rfl, ends⟩
    | error error =>
      rw [run_bind_error started] at ends
      cases ends
      exact .inr ⟨error, later, rfl, rfl⟩

theorem run_inFrame {action : Eval V α} {before later : Session V} {result : Except EvalError α}
    (ends : action.run { before with scopes := before.scopes.push } = some (result, later)) :
    (inFrame action).run before = some (result, { later with scopes := later.scopes.pop }) := by
  unfold run at ends
  simp only [run, inFrame, ends]

theorem run_inFrame_cases {action : Eval V α} {before after : Session V}
    {result : Except EvalError α} (ends : (inFrame action).run before = some (result, after)) :
    ∃ later, action.run { before with scopes := before.scopes.push } = some (result, later) ∧
      after = { later with scopes := later.scopes.pop } := by
  cases started : action.run { before with scopes := before.scopes.push } with
  | none =>
    unfold run at started
    simp only [run, inFrame, started] at ends
    cases ends
  | some reached =>
    obtain ⟨result, later⟩ := reached
    rw [run_inFrame started] at ends
    cases ends
    exact ⟨later, rfl, rfl⟩

end Eval

abbrev Invoke (V : Type) := Definition → List V → Eval V (Option V)

variable {V : Type} [Arithmetic V]

def valueOf (name : String) (pos : Nat) : Eval V V := do
  match ← Eval.ofExcept pos ((← Eval.scopes).lookup name) with
  | .number value => return value
  | .function _ => Eval.fail (.notAValue name) pos

/-- The function that a name stands for at the time of the call. -/
def functionOf (name : String) (pos : Nat) : Eval V Definition := do
  match (← Eval.scopes).find? name with
  | some (.function definition) => return definition
  | some (.number _) => Eval.fail (.notAFunction name) pos
  | none => Eval.fail (.unknownFunction name) pos

omit [Arithmetic V] in
theorem run_valueOf (name : String) (pos : Nat) (session : Session V) :
    (valueOf name pos).run session =
      match session.scopes.find? name with
      | some (.number value) => some (.ok value, session)
      | some (.function _) => some (.error ⟨.notAValue name, pos⟩, session)
      | none => some (.error ⟨.unbound name, pos⟩, session) := by
  unfold valueOf
  rw [Eval.run_bind_ok (show Eval.scopes.run session = some (.ok session.scopes, session) from rfl),
    Eval.run_bind, Eval.run_ofExcept, Scopes.lookup]
  rcases session.scopes.find? name with _ | ⟨value | definition⟩ <;> rfl

omit [Arithmetic V] in
theorem run_functionOf (name : String) (pos : Nat) (session : Session V) :
    (functionOf name pos).run session =
      match session.scopes.find? name with
      | some (.function definition) => some (.ok definition, session)
      | some (.number _) => some (.error ⟨.notAFunction name, pos⟩, session)
      | none => some (.error ⟨.unknownFunction name, pos⟩, session) := by
  unfold functionOf
  rw [Eval.run_bind_ok (show Eval.scopes.run session = some (.ok session.scopes, session) from rfl)]
  rcases session.scopes.find? name with _ | ⟨value | definition⟩ <;> rfl

def checkCount (definition : Definition) (name : String) (found pos : Nat) : Eval V Unit :=
  if definition.params.length = found then return ()
  else Eval.fail (.argumentCount name definition.params.length found) pos

mutual

/-- A call finds its function first, then checks the number of arguments, and then evaluates them in
the frame of the caller. -/
def Expr.eval (invoke : Invoke V) : Expr → Eval V (Option V)
  | .number literal fixed pos => do
      return some (← Eval.ofExcept pos (Arithmetic.ofLiteral literal fixed))
  | .name name pos => do return some (← valueOf name pos)
  | .negate operand pos => do
      let value ← Eval.require operand.pos (operand.eval invoke)
      return some (← Eval.ofExcept pos (Arithmetic.negate value))
  | .chain first links => do
      let value ← Eval.require first.pos (first.eval invoke)
      return some (← evalLinks invoke value links)
  | .call name arguments pos => do
      let definition ← functionOf name pos
      checkCount definition name arguments.length pos
      invoke definition (← evalArguments invoke arguments)

def evalLinks (invoke : Invoke V) (value : V) : List Link → Eval V V
  | [] => return value
  | ⟨op, operand, pos⟩ :: links => do
      let right ← Eval.require operand.pos (operand.eval invoke)
      evalLinks invoke (← Eval.ofExcept pos (Arithmetic.apply op value right)) links

def evalArguments (invoke : Invoke V) : List Expr → Eval V (List V)
  | [] => return []
  | argument :: arguments => do
      let value ← Eval.require argument.pos (argument.eval invoke)
      return value :: (← evalArguments invoke arguments)

end

def Expr.value (invoke : Invoke V) (expr : Expr) : Eval V V :=
  Eval.require expr.pos (expr.eval invoke)

def Binding.number? : Binding V → Option V
  | .number value => some value
  | .function _ => none

/-- What is stored may depend on the number that the name has in the innermost frame already, and is
the value of the assignment. -/
def assign (name : String) (declared : Option NumberType) (value : V) (pos : Nat) :
    Eval V (Option V) := do
  let previous := ((← Eval.scopes).local? name).bind Binding.number?
  let stored ← Eval.ofExcept pos (Arithmetic.store name declared previous value)
  Eval.modifyScopes (·.define name (.number stored))
  return some stored

theorem run_assign (name : String) (declared : Option NumberType) (value : V) (pos : Nat)
    (session : Session V) :
    (assign name declared value pos).run session =
      match Arithmetic.store name declared ((session.scopes.local? name).bind Binding.number?)
        value with
      | .ok stored => some (.ok (some stored),
          { session with scopes := session.scopes.define name (.number stored) })
      | .error fault => some (.error ⟨fault, pos⟩, session) := by
  unfold assign
  rw [Eval.run_bind_ok (show Eval.scopes.run session = some (.ok session.scopes, session) from rfl),
    Eval.run_bind, Eval.run_ofExcept]
  cases Arithmetic.store name declared ((session.scopes.local? name).bind Binding.number?) value with
  | ok stored => rfl
  | error fault => rfl

mutual

def Statement.eval (invoke : Invoke V) : Statement → Eval V (Option V)
  | .assign name declared value pos => do assign name declared (← value.value invoke) pos
  | .define definition => do
      Eval.modifyScopes (·.define definition.name (.function definition))
      return none
  | .block body => body.eval invoke
  | .ifThen condition consequence _ => do
      if Arithmetic.isTruthy (← condition.value invoke) then consequence.eval invoke
      else return none
  | .ifElse condition consequence alternative _ => do
      if Arithmetic.isTruthy (← condition.value invoke) then consequence.eval invoke
      else alternative.eval invoke
  | .print expr _ => do
      let value ← expr.value invoke
      Eval.emit value
      return some value
  | .reset _ => do
      Eval.modifyScopes Scopes.clear
      return none
  | .expression expr => expr.eval invoke

def Block.eval (invoke : Invoke V) : Block → Eval V (Option V)
  | ⟨statements, _⟩ => Eval.inFrame (evalStatements invoke none statements)

/-- The value of a sequence is that of its last statement; `last` is that of the one before. -/
def evalStatements (invoke : Invoke V) (last : Option V) : List Statement → Eval V (Option V)
  | [] => return last
  | statement :: statements => do
      evalStatements invoke (← statement.eval invoke) statements

end

def bindParams (params : List String) (values : List V) : Eval V Unit :=
  Eval.modifyScopes fun scopes =>
    (params.zip values).foldl (fun scopes (param, value) => scopes.define param (.number value)) scopes

/-- Carries out a call when `depth` calls may still be opened: the body runs in a new frame that
holds the arguments. -/
def invoke : (depth : Nat) → Invoke V
  | 0, _, _ => Eval.exhausted
  | depth + 1, definition, values =>
      Eval.inFrame do
        bindParams definition.params values
        evalStatements (invoke depth) none definition.body.statements

def Program.eval (depth : Nat) (program : Program) : Eval V (Option V) :=
  evalStatements (invoke depth) none program

end Calculator
