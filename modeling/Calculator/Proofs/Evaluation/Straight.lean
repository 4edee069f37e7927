import Calculator.Proofs.Evaluation.Parallel

/-!
Programs without tests. Their course does not depend on payloads: from sessions of the same shape
they come to results of the same kind or to the same error, unless a payload leads one of the runs to
an arithmetic fault.
-/

namespace Calculator

open Number (SameKind)

mutual

/-- No test is carried out, except where a function is called. -/
def Statement.isStraight : Statement → Bool
  | .ifThen .. | .ifElse .. => false
  | .block body => body.isStraight
  | .assign .. | .define _ | .print .. | .reset _ | .expression _ => true

def Block.isStraight : Block → Bool
  | ⟨statements, _⟩ => statementsStraight statements

def statementsStraight : List Statement → Bool
  | [] => true
  | statement :: statements => statement.isStraight && statementsStraight statements

end

def Definition.isStraight (definition : Definition) : Bool :=
  statementsStraight definition.body.statements

section Calls

variable {V : Type} [Arithmetic V]

/-- Carries out calls of some functions only. There is no outcome where another would be called. -/
def invokeOnly (allowed : Definition → Bool) : (depth : Nat) → Invoke V
  | 0, _, _ => Eval.exhausted
  | depth + 1, definition, values =>
      if allowed definition then
        Eval.inFrame do
          bindParams definition.params values
          evalStatements (invokeOnly allowed depth) none definition.body.statements
      else Eval.exhausted

theorem invokeOnly_below (allowed : Definition → Bool) (depth : Nat) :
    (invokeOnly allowed depth : Invoke V).Below (invoke depth) := by
  induction depth with
  | zero => exact fun _ _ => Eval.below_refl _
  | succ depth ih =>
    intro definition values
    rw [invokeOnly, invoke]
    split
    · apply Eval.below_inFrame
      exact Eval.below_bind (Eval.below_refl _) fun _ => evalStatements_below ih none _
    · intro before outcome ends
      cases ends

/-- A program ends, and neither it nor any function that is called on the way has a test. -/
structure RunsStraight (program : Program) (before : Session V) : Prop where
  straight : statementsStraight program = true
  calls : ∃ depth, ((evalStatements (invokeOnly Definition.isStraight depth) none program).run
    before).isSome

end Calls

variable {first first' : Array Number} {call : Invoke Number}

def Invoke.Parallel (first first' : Array Number) (call : Invoke Number) : Prop :=
  ∀ definition values values', List.Forall₂ SameKind values values' →
    Eval.Parallel first first' (Option.Rel SameKind) (call definition values)
      (call definition values')

section Walk

open Eval

theorem valueOf_parallel (name : String) (pos : Nat) :
    Eval.Parallel first first' SameKind (valueOf name pos) (valueOf name pos) := by
  intro session session' inStep
  have found := inStep.scopes.find? name
  rw [run_valueOf, run_valueOf]
  generalize session.scopes.find? name = binding at found ⊢
  generalize session'.scopes.find? name = binding' at found ⊢
  cases found with
  | none => exact .error _ inStep
  | some bound =>
    cases bound with
    | number same => exact .ok same inStep
    | function same => exact .error _ inStep

theorem functionOf_parallel (name : String) (pos : Nat) :
    Eval.Parallel first first' Eq (functionOf name pos) (functionOf name pos) := by
  intro session session' inStep
  have found := inStep.scopes.find? name
  rw [run_functionOf, run_functionOf]
  generalize session.scopes.find? name = binding at found ⊢
  generalize session'.scopes.find? name = binding' at found ⊢
  cases found with
  | none => exact .error _ inStep
  | some bound =>
    cases bound with
    | number same => exact .error _ inStep
    | function same => exact .ok same inStep

theorem checkCount_parallel (definition : Definition) (name : String) (found pos : Nat) :
    Eval.Parallel first first' Eq (checkCount definition name found pos)
      (checkCount definition name found pos) := by
  unfold checkCount
  split
  · exact parallel_pure rfl
  · exact parallel_fail _ pos

mutual

theorem Expr.eval_parallel (calls : call.Parallel first first') : (expr : Expr) →
    Eval.Parallel first first' (Option.Rel SameKind) (expr.eval call) (expr.eval call)
  | .number literal fixed pos => by
      simp only [Expr.eval]
      apply parallel_bind (parallel_ofExcept pos (.ok (SameKind.refl ⟨literal, fixed⟩)))
      exact fun _ _ same => parallel_pure (.some same)
  | .name name pos => by
      simp only [Expr.eval]
      apply parallel_bind (valueOf_parallel name pos)
      exact fun _ _ same => parallel_pure (.some same)
  | .negate operand pos => by
      simp only [Expr.eval]
      apply parallel_bind (parallel_require _ (operand.eval_parallel calls))
      intro x x' same
      apply parallel_bind (parallel_ofExcept pos same.negate)
      exact fun _ _ same => parallel_pure (.some same)
  | .chain first links => by
      simp only [Expr.eval]
      apply parallel_bind (parallel_require _ (first.eval_parallel calls))
      intro x x' same
      apply parallel_bind (evalLinks_parallel calls links same)
      exact fun _ _ same => parallel_pure (.some same)
  | .call name arguments pos => by
      simp only [Expr.eval]
      apply parallel_bind (functionOf_parallel name pos)
      rintro definition _ rfl
      apply parallel_bind (checkCount_parallel definition name _ pos)
      intro _ _ _
      apply parallel_bind (evalArguments_parallel calls arguments)
      exact calls definition

theorem evalLinks_parallel (calls : call.Parallel first first') :
    (links : List Link) → {x x' : Number} → x.SameKind x' →
      Eval.Parallel first first' SameKind (evalLinks call x links) (evalLinks call x' links)
  | [], x, x', same => by
      simp only [evalLinks]
      exact parallel_pure same
  | ⟨op, operand, pos⟩ :: links, x, x', same => by
      simp only [evalLinks]
      apply parallel_bind (parallel_require _ (operand.eval_parallel calls))
      intro y y' right
      apply parallel_bind (parallel_ofExcept pos (same.apply op right))
      exact fun _ _ same => evalLinks_parallel calls links same

theorem evalArguments_parallel (calls : call.Parallel first first') : (arguments : List Expr) →
    Eval.Parallel first first' (List.Forall₂ SameKind) (evalArguments call arguments)
      (evalArguments call arguments)
  | [] => by
      simp only [evalArguments]
      exact parallel_pure .nil
  | argument :: arguments => by
      simp only [evalArguments]
      apply parallel_bind (parallel_require _ (argument.eval_parallel calls))
      intro x x' same
      apply parallel_bind (evalArguments_parallel calls arguments)
      exact fun _ _ rest => parallel_pure (.cons same rest)

end

theorem Expr.value_parallel (calls : call.Parallel first first') (expr : Expr) :
    Eval.Parallel first first' SameKind (expr.value call) (expr.value call) :=
  parallel_require _ (expr.eval_parallel calls)

theorem assign_parallel (name : String) (declared : Option NumberType) (pos : Nat) {x x' : Number}
    (same : x.SameKind x') :
    Eval.Parallel first first' (Option.Rel SameKind) (assign name declared x pos)
      (assign name declared x' pos) := by
  intro session session' inStep
  rw [run_assign, run_assign]
  have stored := same.store name declared (inStep.scopes.previous name)
  change Except.Parallel SameKind (Arithmetic.store name declared _ x)
    (Arithmetic.store name declared _ x') at stored
  generalize Arithmetic.store name declared _ x = operation at stored ⊢
  generalize Arithmetic.store name declared _ x' = operation' at stored ⊢
  cases stored with
  | ok kind =>
    exact .ok (.some kind) ⟨inStep.scopes.define name (.number kind), inStep.printed⟩
  | error fault => exact .error _ inStep
  | left arithmetic => exact .left arithmetic
  | right arithmetic => exact .right arithmetic

mutual

theorem Statement.eval_parallel (calls : call.Parallel first first') : (statement : Statement) →
    statement.isStraight = true →
      Eval.Parallel first first' (Option.Rel SameKind) (statement.eval call) (statement.eval call)
  | .assign name declared value pos, _ => by
      simp only [Statement.eval]
      apply parallel_bind (value.value_parallel calls)
      exact fun _ _ same => assign_parallel name declared pos same
  | .define definition, _ => by
      simp only [Statement.eval]
      refine parallel_bind (parallel_modifyScopes ?_) fun _ _ _ => parallel_pure .none
      exact fun _ _ same => same.define definition.name (.function rfl)
  | .block ⟨statements, pos⟩, straight => by
      simp only [Statement.eval, Block.eval]
      exact parallel_inFrame (evalStatements_parallel calls statements straight .none)
  | .ifThen .., straight => by cases straight
  | .ifElse .., straight => by cases straight
  | .print expr pos, _ => by
      simp only [Statement.eval]
      apply parallel_bind (expr.value_parallel calls)
      intro x x' same
      exact parallel_bind (parallel_emit same) fun _ _ _ => parallel_pure (.some same)
  | .reset pos, _ => by
      simp only [Statement.eval]
      refine parallel_bind (parallel_modifyScopes ?_) fun _ _ _ => parallel_pure .none
      exact fun _ _ same => same.clear
  | .expression expr, _ => by
      simp only [Statement.eval]
      exact expr.eval_parallel calls

theorem evalStatements_parallel (calls : call.Parallel first first') :
    (statements : List Statement) → statementsStraight statements = true →
      {last last' : Option Number} → Option.Rel SameKind last last' →
        Eval.Parallel first first' (Option.Rel SameKind) (evalStatements call last statements)
          (evalStatements call last' statements)
  | [], _, _, _, same => by
      simp only [evalStatements]
      exact parallel_pure same
  | statement :: statements, straight, _, _, _ => by
      simp only [evalStatements]
      rcases Bool.and_eq_true_iff.mp straight with ⟨here, later⟩
      apply parallel_bind (statement.eval_parallel calls here)
      exact fun _ _ same => evalStatements_parallel calls statements later same

end

theorem bindParams_parallel (params : List String) {values values' : List Number}
    (same : List.Forall₂ SameKind values values') :
    Eval.Parallel first first' (fun _ _ => True) (bindParams params values)
      (bindParams params values') := by
  apply parallel_modifyScopes
  intro scopes scopes' shape
  induction same generalizing params scopes scopes' with
  | nil => simpa using shape
  | cons kind rest ih =>
    cases params with
    | nil => exact shape
    | cons param params => exact ih params _ _ (shape.define param (.number kind))

theorem invokeOnly_parallel (depth : Nat) :
    (invokeOnly Definition.isStraight depth : Invoke Number).Parallel first first' := by
  induction depth with
  | zero => exact fun _ _ _ _ _ _ _ => .exhausted
  | succ depth ih =>
    intro definition values values' same
    rw [invokeOnly, invokeOnly]
    split
    · rename_i straight
      apply parallel_inFrame
      apply parallel_bind (bindParams_parallel definition.params same)
      exact fun _ _ _ => evalStatements_parallel ih _ straight .none
    · exact fun _ _ _ => .exhausted

end Walk

/-- Two runs of a program without tests from sessions of the same shape. If neither ends with an
arithmetic fault, both succeed with a result of the same kind, or both fail with the same error; the
sessions that they leave are of the same shape, and they have printed numbers of the same kinds. -/
theorem kinds_independent_of_payloads {before before' after after' : Session Number}
    {program : Program} {result result' : Except EvalError (Option Number)}
    (shape : before.scopes.SameShape before'.scopes) (straight : RunsStraight program before)
    (ends : Eval.Ends (evalStatements · none program) before result after)
    (ends' : Eval.Ends (evalStatements · none program) before' result' after')
    (regular : ∀ error, result = .error error → error.fault.kind ≠ .arithmetic)
    (regular' : ∀ error, result' = .error error → error.fault.kind ≠ .arithmetic) :
    Except.Agree (Option.Rel SameKind) result result' ∧
      Session.InStep before.printed before'.printed after after' := by
  rcases straight with ⟨tests, depth, reached⟩
  have calls := invokeOnly_below (V := Number) Definition.isStraight depth
  have inStep : Session.InStep before.printed before'.printed before before' :=
    ⟨shape, #[], #[], Array.append_empty.symm, Array.append_empty.symm, .nil⟩
  have course := evalStatements_parallel (invokeOnly_parallel depth) program tests .none
    before before' inStep
  have outcome : ∀ before outcome,
      (evalStatements (invokeOnly Definition.isStraight depth) none program).run before =
        some outcome →
      Eval.Ends (evalStatements · none program) before outcome.1 outcome.2 :=
    fun before outcome found =>
      ⟨depth, evalStatements_below calls none program before outcome found⟩
  have same := outcome before
  have same' := outcome before'
  generalize Eval.run _ before = left at course reached same
  generalize Eval.run _ before' = right at course same'
  cases course with
  | exhausted => cases reached
  | ok kind still =>
    rcases evalStatements_ends_unique (same _ rfl) ends with ⟨rfl, rfl⟩
    rcases evalStatements_ends_unique (same' _ rfl) ends' with ⟨rfl, rfl⟩
    exact ⟨.ok kind, still⟩
  | error error still =>
    rcases evalStatements_ends_unique (same _ rfl) ends with ⟨rfl, rfl⟩
    rcases evalStatements_ends_unique (same' _ rfl) ends' with ⟨rfl, rfl⟩
    exact ⟨.error error, still⟩
  | left arithmetic =>
    rcases evalStatements_ends_unique (same _ rfl) ends with ⟨rfl, rfl⟩
    exact absurd arithmetic (regular _ rfl)
  | right arithmetic =>
    rcases evalStatements_ends_unique (same' _ rfl) ends' with ⟨rfl, rfl⟩
    exact absurd arithmetic (regular' _ rfl)

def lessOne : Definition :=
  ⟨"lessOne", ["n"], ⟨[.expression (.chain (.name "n" 0) [⟨.sub, .number (.int 1) false 0, 0⟩])], 0⟩,
    0⟩

def mixing : Program :=
  [.print (.call "lessOne" [.name "x" 0] 0) 0,
    .assign "y" none (.chain (.name "x" 0) [⟨.mul, .name "x" 0, 0⟩]) 0,
    .block ⟨[.expression (.chain (.name "y" 0) [⟨.add, .name "z" 0, 9⟩])], 0⟩]

def mixingSession (bound : Frame Number) (z : Float) (printed : Array Number) : Session Number :=
  ⟨⟨bound, [[("z", .number ⟨.float z, true⟩), ("lessOne", .function lessOne)]]⟩, printed⟩

def bindsX (x : Int64) : String × Binding Number := ("x", .number ⟨.int x, true⟩)

def bindsY (y : Int64) : String × Binding Number := ("y", .number ⟨.int y, true⟩)

theorem mixing_sameShape (x x' : Int64) (z z' : Float) (printed printed' : Array Number) :
    (mixingSession [bindsX x] z printed).scopes.SameShape
      (mixingSession [bindsX x'] z' printed').scopes := by
  have number : ∀ scalar scalar' : Scalar, scalar.type = scalar'.type →
      Binding.Alike .kinds (.number ⟨scalar, true⟩) (.number ⟨scalar', true⟩) :=
    fun _ _ same => .number ⟨same, rfl⟩
  have inner : Frame.SameShape [bindsX x] [bindsX x'] :=
    Frame.sameShape_nil.insert "x" (number (.int x) (.int x') rfl)
  have function : Frame.SameShape [("lessOne", .function lessOne)]
      [("lessOne", .function lessOne)] :=
    Frame.sameShape_nil.insert "lessOne" (.function rfl)
  exact ⟨inner, .cons (function.insert "z" (number (.float z) (.float z') rfl)) .nil⟩

theorem mixing_fails_alike :
    let before := mixingSession [bindsX 3] 0.5 #[]
    let before' := mixingSession [bindsX 7] 2.5 #[⟨.int 1, false⟩]
    let error : EvalError := ⟨.typeMismatch .int .add .float, 9⟩
    (before.scopes.SameShape before'.scopes ∧ RunsStraight mixing before ∧
      Eval.Ends (evalStatements · none mixing) before (.error error)
        (mixingSession [bindsY 9, bindsX 3] 0.5 #[⟨.int 2, false⟩]) ∧
      Eval.Ends (evalStatements · none mixing) before' (.error error)
        (mixingSession [bindsY 49, bindsX 7] 2.5 #[⟨.int 1, false⟩, ⟨.int 6, false⟩]) ∧
      error.fault.kind ≠ .arithmetic) ∧
    Session.InStep #[] #[⟨.int 1, false⟩]
      (mixingSession [bindsY 9, bindsX 3] 0.5 #[⟨.int 2, false⟩])
      (mixingSession [bindsY 49, bindsX 7] 2.5 #[⟨.int 1, false⟩, ⟨.int 6, false⟩]) := by
  intro before before' error
  have shape := mixing_sameShape 3 7 0.5 2.5 #[] #[⟨.int 1, false⟩]
  have straight : RunsStraight mixing before := ⟨rfl, 1, rfl⟩
  have ends : Eval.Ends (evalStatements · none mixing) before (.error error) _ := ⟨1, rfl⟩
  have ends' : Eval.Ends (evalStatements · none mixing) before' (.error error) _ := ⟨1, rfl⟩
  have regular : ∀ other, (.error error : Except EvalError (Option Number)) = .error other →
      other.fault.kind ≠ .arithmetic := by
    intro other same
    cases same
    decide
  have same := kinds_independent_of_payloads shape straight ends ends' regular regular
  exact ⟨⟨shape, straight, ends, ends', regular error rfl⟩, same.2⟩

end Calculator
