import Calculator.Number.Typed

/-!
What converting and storing do to the type of a number.
-/

namespace Calculator

theorem Scalar.type_convert {scalar converted : Scalar} {target : NumberType}
    (done : scalar.convert target = .ok converted) : converted.type = target := by
  cases scalar <;> cases target <;> simp only [Scalar.convert] at done
  case int.float =>
    rcases exists_of_bind_eq_ok done with ⟨x, _, same⟩
    cases same
    rfl
  case float.int =>
    rcases exists_of_bind_eq_ok done with ⟨n, _, same⟩
    cases same
    rfl
  all_goals
    cases done
    rfl

namespace Number

theorem fix_fixed (number : Number) : number.fix.fixed = true := rfl

theorem fix_type (number : Number) : number.fix.type = number.type := rfl

theorem bind_fixedType? {number : Number} (held : number.fixed = true) :
    (some number).bind fixedType? = some number.type := by
  simp only [Option.bind_some, fixedType?, held, if_true]

theorem type_coerce {number coerced : Number} {target : NumberType}
    (done : number.coerce target = .ok coerced) : coerced.type = target := by
  unfold coerce at done
  split at done
  · rename_i same
    cases done
    exact same
  · split at done
    · cases done
    · rcases exists_of_bind_eq_ok done with ⟨scalar, converted, same⟩
      cases same
      exact Scalar.type_convert converted

theorem coerce_fix_cases {number stored : Number} {target : NumberType}
    (done : (do return (← number.coerce target).fix : Except Fault Number) = .ok stored) :
    ∃ coerced, number.coerce target = .ok coerced ∧ stored = coerced.fix := by
  rcases exists_of_bind_eq_ok done with ⟨coerced, taken, same⟩
  cases same
  exact ⟨coerced, taken, rfl⟩

/-- What is stored is the number as it is, or coerced to a type that both the declaration and the
number before it would have. -/
theorem store_cases {name : String} {declared : Option NumberType} {previous : Option Number}
    {number stored : Number} (done : store name declared previous number = .ok stored) :
    (stored = number.fix ∧ declared = none ∧ previous.bind fixedType? = none) ∨
      ∃ target coerced, number.coerce target = .ok coerced ∧ stored = coerced.fix ∧
        (∀ type ∈ declared, type = target) ∧ ∀ type ∈ previous.bind fixedType?, type = target := by
  unfold store at done
  cases declared with
  | none =>
    cases existing : previous.bind fixedType? with
    | none =>
      rw [existing] at done
      cases done
      exact .inl ⟨rfl, rfl, rfl⟩
    | some target =>
      rw [existing] at done
      rcases coerce_fix_cases done with ⟨coerced, taken, rfl⟩
      refine .inr ⟨target, coerced, taken, rfl, ?_, ?_⟩
      · intro type member
        cases member
      · intro type member
        cases member
        rfl
  | some target =>
    cases existing : previous.bind fixedType? with
    | none =>
      rw [existing] at done
      rcases coerce_fix_cases done with ⟨coerced, taken, rfl⟩
      refine .inr ⟨target, coerced, taken, rfl, ?_, ?_⟩
      · intro type member
        cases member
        rfl
      · intro type member
        cases member
    | some held =>
      rw [existing] at done
      simp only [ne_eq, ite_not] at done
      split at done
      · rename_i agreed
        rcases coerce_fix_cases done with ⟨coerced, taken, rfl⟩
        refine .inr ⟨target, coerced, taken, rfl, ?_, ?_⟩
        · intro type member
          cases member
          rfl
        · intro type member
          cases member
          exact agreed.symm
      · cases done

theorem fixed_of_store {name : String} {declared : Option NumberType} {previous : Option Number}
    {number stored : Number} (done : store name declared previous number = .ok stored) :
    stored.fixed = true := by
  rcases store_cases done with ⟨rfl, _, _⟩ | ⟨_, _, _, rfl, _, _⟩
  · exact number.fix_fixed
  · exact fix_fixed _

theorem type_of_store {name : String} {declared : Option NumberType} {previous number stored : Number}
    (held : previous.fixed = true)
    (done : store name declared (some previous) number = .ok stored) :
    stored.type = previous.type := by
  rcases store_cases done with ⟨_, _, free⟩ | ⟨target, coerced, taken, rfl, _, agreed⟩
  · rw [bind_fixedType? held] at free
    cases free
  · rw [fix_type, type_coerce taken]
    exact (agreed previous.type (bind_fixedType? held)).symm

/-- By its declaration, or because the number cannot take the type that its name is held to, an
assignment would change that type. -/
def Conflicts (declared : Option NumberType) (existing : NumberType) (number : Number) : Prop :=
  (∃ target ∈ declared, target ≠ existing) ∨
    number.type ≠ existing ∧ (number.fixed = true ∨ number.type.convertsTo existing = false)

theorem coerce_misfit {number : Number} {target : NumberType} (other : number.type ≠ target)
    (stuck : number.fixed = true ∨ number.type.convertsTo target = false) :
    number.coerce target = .error (.notConvertible number.type target) := by
  unfold coerce
  rw [if_neg other, if_pos]
  rcases stuck with fixed | narrow
  · simp [fixed]
  · simp [narrow]

theorem store_of_conflicts (name : String) {declared : Option NumberType} {previous number : Number}
    (held : previous.fixed = true) (conflicts : Conflicts declared previous.type number) :
    (∃ target, store name declared (some previous) number =
        .error (.conflictingDeclaration name target previous.type)) ∨
      store name declared (some previous) number =
        .error (.notConvertible number.type previous.type) := by
  unfold store
  rw [bind_fixedType? held]
  cases declared with
  | none =>
    rcases conflicts with ⟨_, member, _⟩ | ⟨other, stuck⟩
    · cases member
    · right
      simp only [coerce_misfit other stuck]
      rfl
  | some target =>
    by_cases differs : target = previous.type
    · rcases conflicts with ⟨_, member, apart⟩ | ⟨other, stuck⟩
      · cases member
        exact absurd differs apart
      · right
        simp only [differs, ne_eq, not_true_eq_false, if_false, coerce_misfit other stuck]
        rfl
    · left
      exact ⟨target, by simp only [ne_eq, differs, not_false_eq_true, if_true]⟩

end Number

end Calculator
