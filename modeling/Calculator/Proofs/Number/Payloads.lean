import Calculator.Failure
import Calculator.Number.Arithmetic
import Calculator.Proofs.Number.Conversion

/-!
What operations on typed numbers see of payloads. The types and flags of the operands decide whether
an operation is allowed and of which type its result is; the payloads decide about arithmetic faults
and nothing else.
-/

namespace Calculator

variable {α β γ δ : Type}

/-- Both succeed with corresponding values, or both fail with the same fault, unless the sizes of
numbers have come to an arithmetic fault on one side. -/
inductive Except.Parallel (value : α → β → Prop) : Except Fault α → Except Fault β → Prop
  | ok {x : α} {y : β} (same : value x y) : Parallel value (.ok x) (.ok y)
  | error (fault : Fault) : Parallel value (.error fault) (.error fault)
  | left {fault : Fault} {other : Except Fault β} (arithmetic : fault.kind = .arithmetic) :
      Parallel value (.error fault) other
  | right {fault : Fault} {other : Except Fault α} (arithmetic : fault.kind = .arithmetic) :
      Parallel value other (.error fault)

def OnlyArithmetic (operation : Except Fault α) : Prop :=
  ∀ fault, operation = .error fault → fault.kind = .arithmetic

section Operations

variable {value : α → β → Prop} {result : γ → δ → Prop} {operation : Except Fault α}
  {operation' : Except Fault β}

theorem Except.Parallel.bind {next : α → Except Fault γ} {next' : β → Except Fault δ}
    (first : Except.Parallel value operation operation')
    (rest : ∀ x y, value x y → Except.Parallel result (next x) (next' y)) :
    Except.Parallel result (operation >>= next) (operation' >>= next') := by
  cases first with
  | ok same => exact rest _ _ same
  | error fault => exact .error fault
  | left arithmetic => exact .left arithmetic
  | right arithmetic => exact .right arithmetic

theorem Except.Parallel.mono {weaker : α → β → Prop}
    (parallel : Except.Parallel value operation operation')
    (implied : ∀ x y, value x y → weaker x y) : Except.Parallel weaker operation operation' := by
  cases parallel with
  | ok same => exact .ok (implied _ _ same)
  | error fault => exact .error fault
  | left arithmetic => exact .left arithmetic
  | right arithmetic => exact .right arithmetic

theorem OnlyArithmetic.parallel (faults : OnlyArithmetic operation)
    (faults' : OnlyArithmetic operation')
    (values : ∀ x y, operation = .ok x → operation' = .ok y → value x y) :
    Except.Parallel value operation operation' := by
  cases operation with
  | error fault => exact .left (faults fault rfl)
  | ok x =>
    cases operation' with
    | error fault => exact .right (faults' fault rfl)
    | ok y => exact .ok (values x y rfl rfl)

theorem onlyArithmetic_ok (x : α) : OnlyArithmetic (.ok x : Except Fault α) := by
  intro fault failed
  cases failed

theorem onlyArithmetic_error {fault : Fault} (arithmetic : fault.kind = .arithmetic) :
    OnlyArithmetic (.error fault : Except Fault α) := by
  intro other failed
  cases failed
  exact arithmetic

theorem OnlyArithmetic.bind {next : α → Except Fault γ} (first : OnlyArithmetic operation)
    (rest : ∀ x, OnlyArithmetic (next x)) : OnlyArithmetic (operation >>= next) := by
  cases operation with
  | ok x => exact rest x
  | error fault => exact onlyArithmetic_error (first fault rfl)

theorem onlyArithmetic_ite {condition : Prop} [Decidable condition] {other : Except Fault α}
    (first : OnlyArithmetic operation) (second : OnlyArithmetic other) :
    OnlyArithmetic (if condition then operation else other) := by
  split
  · exact first
  · exact second

end Operations

section Integers

theorem onlyArithmetic_checked (op : BinaryOp) (result : Int) :
    OnlyArithmetic (checked op result) := by
  unfold checked
  split
  · exact onlyArithmetic_ok _
  · exact onlyArithmetic_error rfl

theorem onlyArithmetic_exponent (n : Int64) : OnlyArithmetic (exponent n) :=
  onlyArithmetic_ite (onlyArithmetic_error rfl)
    (onlyArithmetic_ite (onlyArithmetic_error rfl) (onlyArithmetic_ok _))

theorem onlyArithmetic_power (base n : Int64) : OnlyArithmetic (power base n) := by
  refine onlyArithmetic_ite (onlyArithmetic_ok _) (onlyArithmetic_ite (onlyArithmetic_ok _)
    (onlyArithmetic_ite (onlyArithmetic_ok _) ?_))
  refine (onlyArithmetic_exponent n).bind fun count => ?_
  exact onlyArithmetic_ite (onlyArithmetic_checked _ _) (onlyArithmetic_error rfl)

theorem onlyArithmetic_shiftAmount (n : Int64) : OnlyArithmetic (shiftAmount n) :=
  onlyArithmetic_ite (onlyArithmetic_ok _) (onlyArithmetic_error rfl)

theorem onlyArithmetic_divide (a b : Int64) : OnlyArithmetic (divide a b) :=
  onlyArithmetic_ite (onlyArithmetic_error rfl) (onlyArithmetic_checked _ _)

theorem onlyArithmetic_applyInteger (op : BinaryOp) (a b : Int64) :
    OnlyArithmetic (applyInteger op a b) := by
  cases op with
  | add | sub | mul => exact onlyArithmetic_checked _ _
  | div => exact onlyArithmetic_divide a b
  | pow => exact onlyArithmetic_power a b
  | shiftLeft | shiftRight =>
    exact (onlyArithmetic_shiftAmount b).bind fun _ => onlyArithmetic_ok _
  | equal | notEqual | less | greater | lessEqual | greaterEqual | bitOr | bitXor | bitAnd =>
    exact onlyArithmetic_ok _

end Integers

section Conversions

theorem onlyArithmetic_widen (n : Int64) : OnlyArithmetic (widen n) :=
  onlyArithmetic_ite (onlyArithmetic_ok _) (onlyArithmetic_error rfl)

theorem onlyArithmetic_narrow (x : Float) : OnlyArithmetic (narrow x) := by
  unfold narrow
  split
  · exact onlyArithmetic_ok _
  · exact onlyArithmetic_error rfl

theorem Scalar.onlyArithmetic_convert (scalar : Scalar) (target : NumberType) :
    OnlyArithmetic (scalar.convert target) := by
  cases scalar with
  | int n =>
    cases target with
    | int => exact onlyArithmetic_ok _
    | float => exact (onlyArithmetic_widen n).bind fun _ => onlyArithmetic_ok _
  | float x =>
    cases target with
    | int => exact (onlyArithmetic_narrow x).bind fun _ => onlyArithmetic_ok _
    | float => exact onlyArithmetic_ok _

end Conversions

-- Stated for any payloads: where these are sums or products, `rfl` would compare the payloads first.

theorem ints_sameType (m n : Int64) : (Scalar.int m).type = (Scalar.int n).type := rfl

theorem floats_sameType (x y : Float) : (Scalar.float x).type = (Scalar.float y).type := rfl

theorem applyFloat_parallel (op : BinaryOp) (a b a' b' : Float) :
    Except.Parallel (fun scalar scalar' => scalar.type = scalar'.type) (applyFloat op a b)
      (applyFloat op a' b') := by
  cases op with
  | equal | notEqual | less | greater | lessEqual | greaterEqual => exact .ok (ints_sameType _ _)
  | add | sub | mul | pow => exact .ok (floats_sameType _ _)
  | bitOr | bitXor | bitAnd | shiftLeft | shiftRight => exact .error _
  | div =>
    have faults : ∀ a b, OnlyArithmetic (applyFloat .div a b) := fun a b =>
      onlyArithmetic_ite (onlyArithmetic_error rfl) (onlyArithmetic_ok _)
    apply (faults a b).parallel (faults a' b')
    intro x y done done'
    simp only [applyFloat] at done done'
    split at done
    · cases done
    · split at done'
      · cases done'
      · cases done
        cases done'
        exact floats_sameType _ _

namespace Number

theorem exists_int {number : Number} (type : number.type = .int) : ∃ n, number.scalar = .int n := by
  rcases number with ⟨_ | _, _⟩
  · exact ⟨_, rfl⟩
  · cases type

theorem exists_float {number : Number} (type : number.type = .float) :
    ∃ x, number.scalar = .float x := by
  rcases number with ⟨_ | _, _⟩
  · cases type
  · exact ⟨_, rfl⟩

/-- Numbers that differ at most in their payloads. -/
structure SameKind (number number' : Number) : Prop where
  type : number.type = number'.type
  fixed : number.fixed = number'.fixed

namespace SameKind

variable {x x' y y' : Number}

theorem refl (number : Number) : number.SameKind number := ⟨rfl, rfl⟩

theorem fix (same : x.SameKind x') : x.fix.SameKind x'.fix := ⟨same.type, rfl⟩

theorem operationType (left : x.SameKind x') (op : BinaryOp) (right : y.SameKind y') :
    x.operationType op y = x'.operationType op y' := by
  simp only [Number.operationType, left.type, left.fixed, right.type, right.fixed]

theorem fixedType? (same : x.SameKind x') : x.fixedType? = x'.fixedType? := by
  simp only [Number.fixedType?, same.type, same.fixed]

theorem convert (same : x.SameKind x') (target : NumberType) :
    Except.Parallel (fun y y' => y.type = target ∧ y.SameKind y') (x.convert target)
      (x'.convert target) := by
  have faults : ∀ number : Number, OnlyArithmetic (number.convert target) := fun number =>
    (number.scalar.onlyArithmetic_convert target).bind fun _ => onlyArithmetic_ok _
  apply (faults x).parallel (faults x')
  intro y y' done done'
  rcases exists_of_bind_eq_ok done with ⟨scalar, converted, same_y⟩
  rcases exists_of_bind_eq_ok done' with ⟨scalar', converted', same_y'⟩
  cases same_y
  cases same_y'
  have type := Scalar.type_convert converted
  exact ⟨type, type.trans (Scalar.type_convert converted').symm, same.fixed⟩

theorem negate (same : x.SameKind x') : Except.Parallel SameKind x.negate x'.negate := by
  rcases x with ⟨_ | a, fixed⟩ <;> rcases x' with ⟨_ | a', fixed'⟩
  · have faults : ∀ a fixed, OnlyArithmetic (Number.negate ⟨.int a, fixed⟩) := fun a _ =>
      (onlyArithmetic_checked .sub (-a.toInt)).bind fun _ => onlyArithmetic_ok _
    apply (faults _ _).parallel (faults _ _)
    intro y y' done done'
    rcases exists_of_bind_eq_ok done with ⟨n, _, same_y⟩
    rcases exists_of_bind_eq_ok done' with ⟨n', _, same_y'⟩
    cases same_y
    cases same_y'
    exact ⟨rfl, same.fixed⟩
  · cases same.type
  · cases same.type
  · exact .ok ⟨floats_sameType _ _, same.fixed⟩

theorem apply_integers (op : BinaryOp) (m n m' n' : Int64) :
    Except.Parallel SameKind (do return ⟨.int (← applyInteger op m n), false⟩)
      (do return ⟨.int (← applyInteger op m' n'), false⟩) := by
  have faults : ∀ m n, OnlyArithmetic
      (applyInteger op m n >>= fun k => pure (⟨.int k, false⟩ : Number)) :=
    fun m n => (onlyArithmetic_applyInteger op m n).bind fun _ => onlyArithmetic_ok _
  apply (faults m n).parallel (faults m' n')
  intro x y done done'
  rcases exists_of_bind_eq_ok done with ⟨k, _, same⟩
  rcases exists_of_bind_eq_ok done' with ⟨k', _, same'⟩
  cases same
  cases same'
  exact ⟨rfl, rfl⟩

theorem apply (left : x.SameKind x') (op : BinaryOp) (right : y.SameKind y') :
    Except.Parallel SameKind (Number.apply op x y) (Number.apply op x' y') := by
  unfold Number.apply
  rw [left.operationType op right]
  cases x'.operationType op y' with
  | error fault => exact .error fault
  | ok target =>
    apply (left.convert target).bind
    intro a a' first
    apply (right.convert target).bind
    intro b b' second
    cases target with
    | int =>
      rcases exists_int first.1 with ⟨m, int⟩
      rcases exists_int (first.2.type ▸ first.1) with ⟨m', int'⟩
      rcases exists_int second.1 with ⟨n, other⟩
      rcases exists_int (second.2.type ▸ second.1) with ⟨n', other'⟩
      rw [int, int', other, other']
      exact apply_integers op m n m' n'
    | float =>
      rcases exists_float first.1 with ⟨u, float⟩
      rcases exists_float (first.2.type ▸ first.1) with ⟨u', float'⟩
      rcases exists_float second.1 with ⟨v, other⟩
      rcases exists_float (second.2.type ▸ second.1) with ⟨v', other'⟩
      rw [float, float', other, other']
      apply (applyFloat_parallel op u v u' v').bind
      intro scalar scalar' type
      exact .ok ⟨type, rfl⟩

theorem coerce (same : x.SameKind x') (target : NumberType) :
    Except.Parallel SameKind (x.coerce target) (x'.coerce target) := by
  unfold Number.coerce
  rw [same.type, same.fixed]
  split
  · exact .ok same
  · split
    · exact .error _
    · exact (same.convert target).mono fun _ _ => And.right

theorem store (same : x.SameKind x') (name : String) (declared : Option NumberType)
    {previous previous' : Option Number} (before : Option.Rel SameKind previous previous') :
    Except.Parallel SameKind (Number.store name declared previous x)
      (Number.store name declared previous' x') := by
  have existing : previous.bind Number.fixedType? = previous'.bind Number.fixedType? := by
    cases before with
    | none => rfl
    | some same => exact same.fixedType?
  have coerced : ∀ target, Except.Parallel SameKind (do return (← x.coerce target).fix)
      (do return (← x'.coerce target).fix) :=
    fun target => (same.coerce target).bind fun _ _ same => .ok same.fix
  unfold Number.store
  rw [existing]
  cases declared with
  | none =>
    cases previous'.bind Number.fixedType? with
    | none => exact .ok same.fix
    | some target => exact coerced target
  | some target =>
    cases previous'.bind Number.fixedType? with
    | none => exact coerced target
    | some held =>
      simp only
      split
      · exact .error _
      · exact coerced target

end SameKind

end Number

end Calculator
