import Calculator.Proofs.Decimal.Parts
import Calculator.Proofs.Evaluation.Faults
import Calculator.Proofs.Number.Operators
import Calculator.Proofs.Number.Payloads

/-!
Implicit conversions widen. Operations and bindings ask for no other conversion, so no float narrows
in any run, and an integer becomes a float only where the float is exact.
-/

namespace Calculator

/-- No operands of different types have met, no float was to narrow, and an integer was too large to
widen if any was refused. -/
def Fault.OnlyWidens (fault : Fault) : Prop :=
  (∀ op, fault ≠ .unsupported (.mixedOperands op)) ∧
    ∀ value target, fault = .notRepresentable value target →
      target = .float ∧ ∃ n, value = .int n ∧ maxSafeInteger < n.toInt.natAbs

/-- An integer of at most 53 bits widens to the float of the same value, and no other integer
does. -/
theorem widen_cases (n : Int64) :
    (n.toInt.natAbs ≤ maxSafeInteger ∧
      ∃ x, widen n = .ok x ∧ (Binary.ofFloat x).value? = some (n.toInt : ℚ)) ∨
    maxSafeInteger < n.toInt.natAbs ∧ widen n = .error (.notRepresentable (.int n) .float) := by
  by_cases small : n.toInt.natAbs ≤ maxSafeInteger
  · left
    refine ⟨small, Float.ofInt n.toInt, ?_, ?_⟩
    · apply if_pos
      omega
    · apply Binary.value?_ofInt
      simp only [maxSafeInteger] at small
      omega
  · right
    refine ⟨by omega, ?_⟩
    apply if_neg
    omega

theorem admits_widen (n : Int64) : Admits Fault.OnlyWidens (widen n) := by
  obtain ⟨_, x, widened, _⟩ | ⟨large, refused⟩ := widen_cases n
  · rw [widened]
    exact admits_ok x
  · rw [refused]
    apply admits_error
    refine ⟨fun op same => (by cases same), ?_⟩
    intro value target same
    cases same
    exact ⟨rfl, n, rfl, large⟩

/-! Each operation asks for conversions that widen. -/

namespace NumberType

theorem convertsTo_self (type : NumberType) : type.convertsTo type = true := by
  cases type with
  | int => rfl
  | float => rfl

theorem convertsTo_wider (type other : NumberType) :
    type.convertsTo (type.wider other) = true ∧ other.convertsTo (type.wider other) = true := by
  cases type <;> cases other <;> exact ⟨rfl, rfl⟩

end NumberType

namespace Number

variable {left right number : Number} {op : BinaryOp} {target : NumberType}

theorem requireConvertible_eq_ok {source type : NumberType}
    (done : requireConvertible source target = .ok type) :
    type = target ∧ source.convertsTo target = true := by
  unfold requireConvertible at done
  split at done
  · next widens =>
    cases done
    exact ⟨rfl, widens⟩
  · cases done

theorem convertsTo_operationType (done : left.operationType op right = .ok target) :
    left.type.convertsTo target = true ∧ right.type.convertsTo target = true := by
  unfold operationType at done
  split at done
  · split at done
    · next same =>
      cases done
      exact ⟨left.type.convertsTo_self, same ▸ left.type.convertsTo_self⟩
    · cases done
  · obtain ⟨rfl, widens⟩ := requireConvertible_eq_ok done
    exact ⟨left.type.convertsTo_self, widens⟩
  · obtain ⟨rfl, widens⟩ := requireConvertible_eq_ok done
    exact ⟨widens, right.type.convertsTo_self⟩
  · cases done
    exact left.type.convertsTo_wider right.type

theorem coerce_cases {stored : Number} (done : number.coerce target = .ok stored) :
    stored = number ∨ number.fixed = false ∧ target = .float ∧
      ∃ n x, number.scalar = .int n ∧ widen n = .ok x ∧ stored = ⟨.float x, false⟩ := by
  obtain ⟨scalar, fixed⟩ := number
  unfold coerce at done
  split at done
  · cases done
    exact .inl rfl
  · next other =>
    split at done
    · cases done
    · next widens =>
      rw [Bool.not_eq_true, Bool.or_eq_false_iff, Bool.not_eq_false'] at widens
      obtain ⟨rfl, widens⟩ := widens
      cases scalar with
      | int n =>
        cases target with
        | int => exact absurd rfl other
        | float =>
          obtain ⟨converted, widened, same⟩ := exists_of_bind_eq_ok done
          obtain ⟨x, exact, same'⟩ := exists_of_bind_eq_ok widened
          cases same
          cases same'
          exact .inr ⟨rfl, rfl, n, x, rfl, exact, rfl⟩
      | float x =>
        cases target with
        | int => cases widens
        | float => exact absurd rfl other

end Number

/-! Which faults the operations may have. -/

section Faults

theorem onlyWidens_of_ne {fault : Fault} (types : ∀ op, fault ≠ .unsupported (.mixedOperands op))
    (sizes : ∀ value target, fault ≠ .notRepresentable value target) : fault.OnlyWidens :=
  ⟨types, fun value target same => absurd same (sizes value target)⟩

theorem Scalar.admits_convert {scalar : Scalar} {target : NumberType}
    (widens : scalar.type.convertsTo target = true) :
    Admits Fault.OnlyWidens (scalar.convert target) := by
  cases scalar with
  | int n =>
    cases target with
    | int => exact admits_ok _
    | float => exact (admits_widen n).bind fun x _ => admits_ok _
  | float x =>
    cases target with
    | int => cases widens
    | float => exact admits_ok _

theorem BinaryOp.onlyWidens_of_refusal {op : BinaryOp} {b : Int64} {fault : Fault}
    (refuses : op.refusal? b = some fault) : fault.OnlyWidens := by
  have cases : fault = .divisionByZero ∨ fault = .negativeExponent b ∨ fault = .invalidShift b := by
    unfold refusal? at refuses
    grind
  obtain rfl | rfl | rfl := cases <;> exact onlyWidens_of_ne nofun nofun

theorem admits_applyInteger (op : BinaryOp) (a b : Int64) :
    Admits Fault.OnlyWidens (applyInteger op a b) := by
  intro fault failed
  obtain refuses | ⟨_, rfl, _⟩ := ((applyInteger_obeys op a b).refused fault).mp failed
  · exact BinaryOp.onlyWidens_of_refusal refuses
  · exact onlyWidens_of_ne nofun nofun

theorem onlyWidens_divisionByZero : Fault.OnlyWidens .divisionByZero :=
  onlyWidens_of_ne nofun nofun

theorem onlyWidens_bitsOfFloats (op : BinaryOp) :
    Fault.OnlyWidens (.unsupported (.bitsOfFloats op)) :=
  onlyWidens_of_ne nofun nofun

theorem admits_applyFloat (op : BinaryOp) (a b : Float) :
    Admits Fault.OnlyWidens (applyFloat op a b) := by
  cases op with
  | div =>
    simp only [applyFloat]
    split
    · exact admits_error onlyWidens_divisionByZero
    · exact admits_ok _
  | bitOr | bitXor | bitAnd | shiftLeft | shiftRight =>
    exact admits_error (onlyWidens_bitsOfFloats _)
  | equal | notEqual | less | greater | lessEqual | greaterEqual | add | sub | mul | pow =>
    exact admits_ok _

namespace Number

theorem admits_convert {number : Number} {target : NumberType}
    (widens : number.type.convertsTo target = true) :
    Admits Fault.OnlyWidens (number.convert target) :=
  (Scalar.admits_convert widens).bind fun _ _ => admits_ok _

theorem admits_requireConvertible (source target : NumberType) :
    Admits Fault.OnlyWidens (requireConvertible source target) := by
  unfold requireConvertible
  split
  · exact admits_ok _
  · exact admits_error (onlyWidens_of_ne nofun nofun)

theorem admits_operationType (left : Number) (op : BinaryOp) (right : Number) :
    Admits Fault.OnlyWidens (left.operationType op right) := by
  unfold operationType
  split
  · split
    · exact admits_ok _
    · exact admits_error (onlyWidens_of_ne nofun nofun)
  · exact admits_requireConvertible _ _
  · exact admits_requireConvertible _ _
  · exact admits_ok _

theorem type_convert {number converted : Number} {target : NumberType}
    (done : number.convert target = .ok converted) : converted.type = target := by
  obtain ⟨scalar, made, same⟩ := exists_of_bind_eq_ok done
  cases same
  exact Scalar.type_convert made

theorem admits_apply (op : BinaryOp) (left right : Number) :
    Admits Fault.OnlyWidens (apply op left right) := by
  apply (admits_operationType left op right).bind
  intro target agreed
  obtain ⟨widens, widens'⟩ := convertsTo_operationType agreed
  apply (admits_convert widens).bind
  intro first converted
  apply (admits_convert widens').bind
  intro second converted'
  have type : first.type = target := type_convert converted
  have type' : second.type = target := type_convert converted'
  cases target with
  | int =>
    obtain ⟨m, scalar⟩ := exists_int type
    obtain ⟨n, scalar'⟩ := exists_int type'
    rw [scalar, scalar']
    exact (admits_applyInteger op m n).bind fun _ _ => admits_ok _
  | float =>
    obtain ⟨x, scalar⟩ := exists_float type
    obtain ⟨y, scalar'⟩ := exists_float type'
    rw [scalar, scalar']
    exact (admits_applyFloat op x y).bind fun _ _ => admits_ok _

theorem admits_negate (number : Number) : Admits Fault.OnlyWidens number.negate := by
  unfold negate
  split
  · apply Admits.bind
    · intro fault failed
      obtain ⟨rfl, _⟩ := checked_eq_error.mp failed
      exact onlyWidens_of_ne nofun nofun
    · exact fun _ _ => admits_ok _
  · exact admits_ok _

theorem admits_coerce (number : Number) (target : NumberType) :
    Admits Fault.OnlyWidens (number.coerce target) := by
  unfold coerce
  split
  · exact admits_ok _
  · split
    · exact admits_error (onlyWidens_of_ne nofun nofun)
    · next widens =>
      rw [Bool.not_eq_true, Bool.or_eq_false_iff, Bool.not_eq_false'] at widens
      exact admits_convert widens.2

theorem admits_store (name : String) (declared : Option NumberType) (previous : Option Number)
    (number : Number) : Admits Fault.OnlyWidens (store name declared previous number) := by
  have coerced : ∀ target, Admits Fault.OnlyWidens (do return (← number.coerce target).fix) :=
    fun target => (admits_coerce number target).bind fun _ _ => admits_ok _
  unfold store
  split
  · split
    · exact admits_error (onlyWidens_of_ne nofun nofun)
    · exact coerced _
  · exact coerced _
  · exact coerced _
  · exact admits_ok _

end Number

theorem admitsRuns_onlyWidens : AdmitsRuns Number Fault.OnlyWidens where
  unbound _ := onlyWidens_of_ne nofun nofun
  unknownFunction _ := onlyWidens_of_ne nofun nofun
  notAFunction _ := onlyWidens_of_ne nofun nofun
  notAValue _ := onlyWidens_of_ne nofun nofun
  argumentCount _ _ _ := onlyWidens_of_ne nofun nofun
  noValue := onlyWidens_of_ne nofun nofun
  ofLiteral _ _ := admits_ok _
  negate := Number.admits_negate
  apply := Number.admits_apply
  store := Number.admits_store

end Faults

/-! Arithmetic that converts payloads in another way. -/

/-- A way to convert payloads that may deal with floats that are to narrow as it likes, and converts
all others as the arithmetic does. -/
def AgreesOnWidening (convert : Scalar → NumberType → Except Fault Scalar) : Prop :=
  ∀ scalar target, scalar.type.convertsTo target = true →
    convert scalar target = scalar.convert target

section Conversions

variable (conversion : Scalar → NumberType → Except Fault Scalar)

namespace Number

def convertBy (number : Number) (target : NumberType) : Except Fault Number := do
  return { number with scalar := ← conversion number.scalar target }

def applyBy (op : BinaryOp) (left right : Number) : Except Fault Number := do
  let target ← left.operationType op right
  let a ← left.convertBy conversion target
  let b ← right.convertBy conversion target
  match a.scalar, b.scalar with
  | .int a, .int b => return ⟨.int (← applyInteger op a b), false⟩
  | .float a, .float b => return ⟨← applyFloat op a b, false⟩
  | _, _ => throw (.unsupported (.mixedOperands op))

def coerceBy (number : Number) (target : NumberType) : Except Fault Number :=
  if number.type = target then .ok number
  else if number.fixed || !number.type.convertsTo target then
    .error (.notConvertible number.type target)
  else number.convertBy conversion target

def storeBy (name : String) (declared : Option NumberType) (previous : Option Number)
    (number : Number) : Except Fault Number :=
  match declared, previous.bind fixedType? with
  | some declared, some existing =>
      if declared ≠ existing then .error (.conflictingDeclaration name declared existing)
      else do return (← number.coerceBy conversion declared).fix
  | some target, none | none, some target => do
      return (← number.coerceBy conversion target).fix
  | none, none => .ok number.fix

end Number

abbrev arithmeticBy : Arithmetic Number where
  ofLiteral := Arithmetic.ofLiteral
  isTruthy := Arithmetic.isTruthy
  negate := Arithmetic.negate
  apply := Number.applyBy conversion
  store := Number.storeBy conversion
  text := Arithmetic.text

variable {conversion} (agrees : AgreesOnWidening conversion)
include agrees

namespace Number

theorem convertBy_eq {number : Number} {target : NumberType}
    (widens : number.type.convertsTo target = true) :
    number.convertBy conversion target = number.convert target := by
  rw [convertBy, agrees _ _ widens]
  rfl

theorem applyBy_eq (op : BinaryOp) (left right : Number) :
    applyBy conversion op left right = apply op left right := by
  unfold applyBy apply
  cases agreed : left.operationType op right with
  | error fault => rfl
  | ok target =>
    obtain ⟨widens, widens'⟩ := convertsTo_operationType agreed
    dsimp only [bind, Except.bind]
    rewrite [convertBy_eq agrees widens, convertBy_eq agrees widens']
    rfl

theorem coerceBy_eq (number : Number) (target : NumberType) :
    number.coerceBy conversion target = number.coerce target := by
  unfold coerceBy coerce
  split
  · rfl
  · split
    · rfl
    · next widens =>
      rw [Bool.not_eq_true, Bool.or_eq_false_iff, Bool.not_eq_false'] at widens
      exact convertBy_eq agrees widens.2

theorem storeBy_eq (name : String) (declared : Option NumberType) (previous : Option Number)
    (number : Number) :
    storeBy conversion name declared previous number = store name declared previous number := by
  unfold storeBy store
  cases declared with
  | none =>
    cases previous.bind fixedType? with
    | none => rfl
    | some existing => simp only [coerceBy_eq agrees]
  | some declared =>
    cases previous.bind fixedType? with
    | none => simp only [coerceBy_eq agrees]
    | some existing => simp only [coerceBy_eq agrees]

end Number

theorem arithmeticBy_eq : arithmeticBy conversion = (inferInstance : Arithmetic Number) := by
  have apply : Number.applyBy conversion = Number.apply := by
    funext op left right
    exact Number.applyBy_eq agrees op left right
  have store : Number.storeBy conversion = Number.store := by
    funext name declared previous number
    exact Number.storeBy_eq agrees name declared previous number
  rw [arithmeticBy, apply, store]
  rfl

end Conversions

/-- Implicit conversions only widen. The type of an operation is at least as wide as those of its
operands, a binding converts free integers alone, and an integer becomes a float only if the float
is exact. So a run ends in no fault of mixed operands or of a float that does not narrow, and goes
the same way however floats would narrow. -/
theorem conversions_only_widen :
    (∀ (left right : Number) op target, left.operationType op right = .ok target →
      left.type.convertsTo target = true ∧ right.type.convertsTo target = true) ∧
    (∀ (left right : Number) op op', Number.apply op left right ≠
      .error (.unsupported (.mixedOperands op'))) ∧
    (∀ (number : Number) target stored, number.coerce target = .ok stored →
      stored = number ∨ number.fixed = false ∧ target = .float ∧
        ∃ n x, number.scalar = .int n ∧ widen n = .ok x ∧ stored = ⟨.float x, false⟩) ∧
    (∀ n : Int64,
      (n.toInt.natAbs ≤ maxSafeInteger ∧
        ∃ x, widen n = .ok x ∧ (Binary.ofFloat x).value? = some (n.toInt : ℚ)) ∨
      maxSafeInteger < n.toInt.natAbs ∧ widen n = .error (.notRepresentable (.int n) .float)) ∧
    (∀ depth (program : Program) (before after : Session Number) error,
      (program.eval depth).run before = some (.error error, after) → error.fault.OnlyWidens) ∧
    ∀ conversion, AgreesOnWidening conversion → ∀ depth (program : Program),
      @Program.eval Number (arithmeticBy conversion) depth program = program.eval depth := by
  refine ⟨?_, ?_, ?_, widen_cases, ?_, ?_⟩
  · exact fun _ _ _ _ agreed => Number.convertsTo_operationType agreed
  · exact fun left right op op' failed => (Number.admits_apply op left right _ failed).1 op' rfl
  · exact fun _ _ _ done => Number.coerce_cases done
  · intro depth program before after error ends
    exact program.eval_failsWith admitsRuns_onlyWidens depth before error after ends
  · intro conversion agrees depth program
    rw [arithmeticBy_eq agrees]

def tooLargeToWiden : Program :=
  [.expression (.chain (.number (.int 9007199254740993) false 0)
    [⟨.add, .number (.float 0.5) false 19, 17⟩])]

def refuseToNarrow (scalar : Scalar) (target : NumberType) : Except Fault Scalar :=
  if scalar.type.convertsTo target then scalar.convert target else .error .noValue

theorem refuseToNarrow_agrees : AgreesOnWidening refuseToNarrow :=
  fun _ _ widens => if_pos widens

theorem tooLargeToWiden_fails :
    (Number.operationType ⟨.int 2, false⟩ .add ⟨.float 0.5, true⟩ = .ok .float ∧
      NumberType.int.convertsTo .float = true ∧ NumberType.float.convertsTo .float = true) ∧
    (Number.coerce ⟨.int 2, false⟩ .float = .ok ⟨.float (Float.ofInt 2), false⟩ ∧
      ((⟨.float (Float.ofInt 2), false⟩ : Number) = ⟨.int 2, false⟩ ∨
        (⟨.int 2, false⟩ : Number).fixed = false ∧ NumberType.float = .float ∧
          ∃ n x, (Scalar.int 2) = .int n ∧ widen n = .ok x ∧
            (⟨.float (Float.ofInt 2), false⟩ : Number) = ⟨.float x, false⟩)) ∧
    ((tooLargeToWiden.eval 1).run Session.start = some
        (.error ⟨.notRepresentable (.int 9007199254740993) .float, 17⟩,
          (Session.start : Session Number)) ∧
      (Fault.notRepresentable (.int 9007199254740993) .float).OnlyWidens) ∧
    AgreesOnWidening refuseToNarrow ∧
      @Program.eval Number (arithmeticBy refuseToNarrow) 1 tooLargeToWiden =
        tooLargeToWiden.eval 1 := by
  have ends : (tooLargeToWiden.eval 1).run Session.start = some
      (.error ⟨.notRepresentable (.int 9007199254740993) .float, 17⟩,
        (Session.start : Session Number)) := rfl
  obtain ⟨agreed, _, coerced, _, ran, by_any⟩ := conversions_only_widen
  exact ⟨⟨rfl, agreed ⟨.int 2, false⟩ ⟨.float 0.5, true⟩ .add .float rfl⟩,
    ⟨rfl, coerced ⟨.int 2, false⟩ .float _ rfl⟩, ⟨ends, ran 1 _ _ _ _ ends⟩,
    refuseToNarrow_agrees, by_any _ refuseToNarrow_agrees 1 tooLargeToWiden⟩

end Calculator
