import Calculator.Proofs.Evaluation.Lockstep

/-!
Typed programs that use integers alone. They do what integer programs do, and the flags of their
numbers have no part in it.
-/

namespace Calculator

namespace Number

def Holds (number : Number) (n : Int64) : Prop := number.scalar = .int n

variable {x y : Number} {m n : Int64}

theorem Holds.scalar (holds : x.Holds n) : x.scalar = .int n := holds

theorem Holds.type (holds : x.Holds n) : x.type = .int := by
  simp only [Number.type, holds.scalar, Scalar.type]

theorem Holds.convert (holds : x.Holds n) : x.convert .int = .ok x := by
  rcases x with ⟨scalar, fixed⟩
  cases holds
  rfl

theorem Holds.coerce (holds : x.Holds n) : x.coerce .int = .ok x := by
  simp only [Number.coerce, holds.type, if_true]

theorem Holds.fixedType? (holds : x.Holds n) :
    x.fixedType? = none ∨ x.fixedType? = some .int := by
  simp only [Number.fixedType?, holds.type]
  cases x.fixed with
  | false => exact .inl rfl
  | true => exact .inr rfl

theorem Holds.operationType (left : x.Holds m) (op : BinaryOp) (right : y.Holds n) :
    x.operationType op y = .ok .int := by
  simp only [Number.operationType, left.type, right.type]
  cases x.fixed <;> cases y.fixed <;> rfl

theorem Holds.negate (holds : x.Holds n) :
    Except.Agree Holds x.negate (negateInteger n) := by
  simp only [Number.negate, holds.scalar]
  cases negateInteger n with
  | ok result => exact .ok rfl
  | error fault => exact .error fault

theorem Holds.apply (left : x.Holds m) (op : BinaryOp) (right : y.Holds n) :
    Except.Agree Holds (Number.apply op x y) (applyInteger op m n) := by
  simp only [Number.apply, left.operationType op right, bind, Except.bind, left.convert,
    right.convert, left.scalar, right.scalar]
  cases applyInteger op m n with
  | ok result => exact .ok rfl
  | error fault => exact .error fault

theorem Holds.store (holds : x.Holds n) (name : String) {declared : Option NumberType}
    (integral : declared ≠ some .float) {previous : Option Number}
    (before : ∀ number ∈ previous, ∃ m, number.Holds m) :
    Number.store name declared previous x = .ok x.fix := by
  have existing : previous.bind Number.fixedType? = none ∨
      previous.bind Number.fixedType? = some .int := by
    cases previous with
    | none => exact .inl rfl
    | some number =>
      rcases before number rfl with ⟨m, held⟩
      exact held.fixedType?
  have wanted : declared = none ∨ declared = some .int := by
    rcases declared with _ | _ | _
    · exact .inl rfl
    · exact .inr rfl
    · exact absurd rfl integral
  rcases wanted with rfl | rfl <;> rcases existing with same | same <;>
    simp [Number.store, same, holds.coerce, bind, Except.bind, pure, Except.pure]

end Number

theorem holds_corresponds : Corresponds Number.Holds where
  ofLiteral _ _ _ := .ok rfl
  isTruthy x n holds := by
    simp only [Arithmetic.isTruthy, holds.scalar]
  negate _ _ holds := holds.negate
  apply op _ _ _ _ left right := left.apply op right
  store name declared previous previous' x n integral related holds := by
    have before : ∀ number ∈ previous, ∃ m, number.Holds m := by
      intro number member
      cases related with
      | none => cases member
      | some same =>
        cases member
        exact ⟨_, same⟩
    have stored : (Arithmetic.store name declared previous' n : Except Fault Int64) = .ok n := by
      rcases declared with _ | _ | _
      · rfl
      · rfl
      · exact absurd rfl integral
    rw [stored]
    simp only [Arithmetic.store, holds.store name integral before]
    exact .ok holds
  text x n holds := by
    simp only [Arithmetic.text, Number.text, holds.scalar, Scalar.text]

/-- Typed numbers stand for the integers they hold, and functions for themselves. -/
def toInteger : Likeness Number Int64 := ⟨Number.Holds, fun f g => f = g⟩

/-- Typed numbers that hold the same integer, and functions that differ in flags alone. -/
def upToFlags : Likeness Number Number :=
  ⟨fun x y => ∃ n, x.Holds n ∧ y.Holds n, fun f g => f.unflagged = g.unflagged⟩

def toUnflagged : Likeness Number Int64 := ⟨Number.Holds, fun f g => g = f.unflagged⟩

theorem toUnflagged_of_reflagging :
    (Likeness.reflagging Number.Holds fun _ => false).Implies toUnflagged where
  number _ _ holds := holds
  function := by
    rintro f g ⟨_, rfl⟩
    rfl

theorem toInteger_of_reflagging : (Likeness.reflagging Number.Holds id).Implies toInteger where
  number _ _ holds := holds
  function := by
    rintro f g ⟨_, rfl⟩
    exact f.reflag_id.symm

theorem upToFlags_of_toUnflagged (left right : Except EvalError (Option Number) × Session Number)
    (middle : Except EvalError (Option Int64) × Session Int64)
    (first : SameOutcome toUnflagged left middle) (second : SameOutcome toUnflagged right middle) :
    SameOutcome upToFlags left right := by
  have numbers : ∀ x y n, toUnflagged.number x n → toUnflagged.number y n →
      upToFlags.number x y := fun x y n holds holds' => ⟨n, holds, holds'⟩
  have values : ∀ x y n, Option.Rel toUnflagged.number x n → Option.Rel toUnflagged.number y n →
      Option.Rel upToFlags.number x y := fun _ _ _ => optionRel_join numbers
  have bindings : ∀ binding binding' middle, Binding.Alike toUnflagged binding middle →
      Binding.Alike toUnflagged binding' middle → Binding.Alike upToFlags binding binding' := by
    intro binding binding' middle alike alike'
    cases alike with
    | number holds =>
      cases alike' with
      | number holds' => exact .number (numbers _ _ _ holds holds')
    | function same =>
      cases alike' with
      | function same' => exact .function (same.symm.trans same')
  refine ⟨?_, first.printed.trans second.printed.symm, ?_⟩
  · exact first.result.join values second.result
  · intro name
    exact optionRel_join bindings (first.bindings name) (second.bindings name)

theorem exists_runs_toUnflagged {programs others : List Program}
    (integral : ∀ program ∈ programs, program.isIntegral = true)
    (integral' : ∀ program ∈ others, program.isIntegral = true)
    (same : programs.map Program.unflagged = others.map Program.unflagged)
    {outcomes : List (Except EvalError (Option Number) × Session Number)}
    (runs : Runs (.start : Session Number) programs outcomes) :
    ∃ outcomes' middles, Runs (.start : Session Number) others outcomes' ∧
      List.Forall₂ (SameOutcome toUnflagged) outcomes middles ∧
      List.Forall₂ (SameOutcome toUnflagged) outcomes' middles := by
  have start := Session.Alike.start (.reflagging Number.Holds fun _ => false)
  rcases runs.forth holds_corresponds toUnflagged_of_reflagging integral start with
    ⟨middles, runs', first⟩
  have equal : programs.map (reflagStatements fun _ => false) =
      others.map (reflagStatements fun _ => false) := same
  rw [equal] at runs'
  rcases runs'.back holds_corresponds toUnflagged_of_reflagging integral' start with
    ⟨outcomes', typed, second⟩
  exact ⟨outcomes', middles, typed, first, second⟩

theorem isIntegral_of_unflagged {programs others : List Program}
    (integral : ∀ program ∈ programs, program.isIntegral = true)
    (same : programs.map Program.unflagged = others.map Program.unflagged) :
    ∀ program ∈ others, program.isIntegral = true := by
  intro program member
  have image : program.unflagged ∈ programs.map Program.unflagged := by
    rw [same]
    exact List.mem_map_of_mem member
  rcases List.mem_map.mp image with ⟨counterpart, present, equal⟩
  have kept := integral counterpart present
  have transfer := congrArg Program.isIntegral equal
  simp only [Program.isIntegral, Program.unflagged, statementsIntegral_reflag] at kept transfer ⊢
  rw [← transfer]
  exact kept

/-- Programs without floats do the same on typed numbers as on integers, and the flags of their
literals make no difference. -/
theorem typed_extends_integer (programs others : List Program)
    (integral : ∀ program ∈ programs, program.isIntegral = true)
    (same : programs.map Program.unflagged = others.map Program.unflagged) :
    Lockstep toInteger programs programs ∧ Lockstep upToFlags programs others := by
  constructor
  · have start := Session.Alike.start (.reflagging Number.Holds id)
    have still : programs.map (reflagStatements id) = programs :=
      List.map_id'' reflagStatements_id programs
    constructor
    · intro outcomes runs
      have run := runs.forth holds_corresponds toInteger_of_reflagging integral start
      rwa [still] at run
    · intro outcomes runs
      rw [← still] at runs
      exact runs.back holds_corresponds toInteger_of_reflagging integral start
  · have integral' := isIntegral_of_unflagged integral same
    constructor
    · intro outcomes runs
      rcases exists_runs_toUnflagged integral integral' same runs with
        ⟨outcomes', middles, runs', first, second⟩
      have related := forall₂_join upToFlags_of_toUnflagged first second
      exact ⟨outcomes', runs', related⟩
    · intro outcomes' runs
      rcases exists_runs_toUnflagged integral' integral same.symm runs with
        ⟨outcomes, middles, runs', first, second⟩
      have related := forall₂_join upToFlags_of_toUnflagged second first
      exact ⟨outcomes, runs', related⟩

def halving (fixed : Bool) : List Program :=
  [[.define ⟨"half", ["n"],
      ⟨[.expression (.chain (.name "n" 0) [⟨.div, .number (.int 2) fixed 0, 0⟩])], 0⟩, 0⟩,
    .assign "x" (some .int) (.call "half" [.number (.int 9) fixed 0] 0) 0],
   [.print (.name "x" 0) 0, .expression (.chain (.name "x" 0) [⟨.div, .number (.int 0) fixed 0, 7⟩])]]

def halvingSession (printed : Array Number) : Session Number :=
  ⟨⟨[("x", .number ⟨.int 4, true⟩),
    ("half", .function ⟨"half", ["n"],
      ⟨[.expression (.chain (.name "n" 0) [⟨.div, .number (.int 2) false 0, 0⟩])], 0⟩, 0⟩)], []⟩,
    printed⟩

def halvingOutcomes : List (Except EvalError (Option Number) × Session Number) :=
  [(.ok (some ⟨.int 4, true⟩), halvingSession #[]),
   (.error ⟨.divisionByZero, 7⟩, halvingSession #[⟨.int 4, true⟩])]

theorem halving_extends_integer :
    (∀ program ∈ halving false, program.isIntegral = true) ∧
    (halving false).map Program.unflagged = (halving true).map Program.unflagged ∧
    Runs (.start : Session Number) (halving false) halvingOutcomes ∧
    (∃ outcomes, Runs (.start : Session Int64) (halving false) outcomes ∧
      List.Forall₂ (SameOutcome toInteger) halvingOutcomes outcomes) ∧
    ∃ outcomes, Runs (.start : Session Number) (halving true) outcomes ∧
      List.Forall₂ (SameOutcome upToFlags) halvingOutcomes outcomes := by
  have integral : ∀ program ∈ halving false, program.isIntegral = true := by decide
  have same : (halving false).map Program.unflagged = (halving true).map Program.unflagged := rfl
  have runs : Runs (.start : Session Number) (halving false) halvingOutcomes :=
    .cons ⟨1, rfl⟩ (.cons ⟨0, rfl⟩ (.nil _))
  have lockstep := typed_extends_integer (halving false) (halving true) integral same
  exact ⟨integral, same, runs, lockstep.1.forth _ runs, lockstep.2.forth _ runs⟩

end Calculator
