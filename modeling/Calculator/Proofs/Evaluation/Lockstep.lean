import Calculator.Proofs.Evaluation.Depth
import Calculator.Proofs.Evaluation.Simulation

/-!
Sequences of programs in lockstep: run one after the other, failures included, they end together and
come to the same after each program.
-/

namespace Calculator

variable {V W : Type}

/-- What programs come to, as far as it can be seen: the result, the printed texts, and what each
name stands for. -/
structure SameOutcome [Arithmetic V] [Arithmetic W] (like : Likeness V W)
    (outcome : Except EvalError (Option V) × Session V)
    (outcome' : Except EvalError (Option W) × Session W) : Prop where
  result : Except.Agree (Option.Rel like.number) outcome.1 outcome'.1
  printed : outcome.2.printed.toList.map Arithmetic.text =
    outcome'.2.printed.toList.map Arithmetic.text
  bindings : ∀ name, Option.Rel (Binding.Alike like) (outcome.2.scopes.find? name)
    (outcome'.2.scopes.find? name)

theorem Session.Alike.start (like : Likeness V W) : Session.Alike like .start .start :=
  ⟨⟨.nil, .nil⟩, .nil⟩

/-- Run in a new session each, one sequence of programs ends if and only if the other does, and
they come to the same after each program. -/
structure Lockstep [Arithmetic V] [Arithmetic W] (like : Likeness V W)
    (programs programs' : List Program) : Prop where
  forth : ∀ outcomes, Runs (.start : Session V) programs outcomes →
    ∃ outcomes', Runs (.start : Session W) programs' outcomes' ∧
      List.Forall₂ (SameOutcome like) outcomes outcomes'
  back : ∀ outcomes', Runs (.start : Session W) programs' outcomes' →
    ∃ outcomes, Runs (.start : Session V) programs outcomes ∧
      List.Forall₂ (SameOutcome like) outcomes outcomes'

section Running

variable [Arithmetic V] [Arithmetic W] {number : V → W → Prop} {change : Bool → Bool}

theorem map_text_eq (arithmetic : Corresponds number) {printed : List V} {printed' : List W}
    (same : List.Forall₂ number printed printed') :
    printed.map Arithmetic.text = printed'.map Arithmetic.text := by
  induction same with
  | nil => rfl
  | cons first rest ih => simp only [List.map_cons, arithmetic.text _ _ first, ih]

variable {like : Likeness V W}

theorem sameOutcome_of_alike (arithmetic : Corresponds number)
    (implied : (Likeness.reflagging number change).Implies like)
    {result : Except EvalError (Option V)} {result' : Except EvalError (Option W)}
    {after : Session V} {after' : Session W}
    (agree : Except.Agree (Option.Rel number) result result')
    (alike : Session.Alike (.reflagging number change) after after') :
    SameOutcome like (result, after) (result', after') where
  result := agree.mono fun _ _ => optionRel_mono implied.number
  printed := map_text_eq arithmetic alike.printed
  bindings name := optionRel_mono (fun _ _ => Binding.Alike.mono implied) (alike.scopes.find? name)

theorem program_agree (arithmetic : Corresponds number) (depth : Nat) {program : Program}
    (integral : program.isIntegral = true) :
    Eval.Agree (.reflagging number change) (Option.Rel number)
      (evalStatements (invoke depth) none program)
      (evalStatements (invoke depth) none (reflagStatements change program)) :=
  evalStatements_agree arithmetic (invoke_agree arithmetic depth) program integral none none .none

theorem Runs.forth (arithmetic : Corresponds number)
    (implied : (Likeness.reflagging number change).Implies like)
    {session : Session V} {session' : Session W} {programs : List Program}
    {outcomes : List (Except EvalError (Option V) × Session V)}
    (runs : Runs session programs outcomes)
    (integral : ∀ program ∈ programs, program.isIntegral = true)
    (alike : Session.Alike (.reflagging number change) session session') :
    ∃ outcomes', Runs session' (programs.map (reflagStatements change)) outcomes' ∧
      List.Forall₂ (SameOutcome like) outcomes outcomes' := by
  -- Induction on the programs still to be run, in sessions that correspond so far.
  induction runs generalizing session' with
  | nil => exact ⟨[], .nil session', .nil⟩
  | @cons before after program result programs outcomes first rest ih =>
    rcases first with ⟨depth, ends⟩
    have first := integral program List.mem_cons_self
    rcases (program_agree arithmetic depth first).forth alike ends with
      ⟨result', after', ends', same, still⟩
    have later : ∀ program ∈ programs, program.isIntegral = true := fun program member =>
      integral program (List.mem_cons_of_mem _ member)
    rcases ih later still with ⟨outcomes', runs', related⟩
    exact ⟨(result', after') :: outcomes', .cons ⟨depth, ends'⟩ runs',
      .cons (sameOutcome_of_alike arithmetic implied same still) related⟩

theorem Runs.back (arithmetic : Corresponds number)
    (implied : (Likeness.reflagging number change).Implies like)
    {session : Session V} {session' : Session W} {programs : List Program}
    {outcomes' : List (Except EvalError (Option W) × Session W)}
    (runs : Runs session' (programs.map (reflagStatements change)) outcomes')
    (integral : ∀ program ∈ programs, program.isIntegral = true)
    (alike : Session.Alike (.reflagging number change) session session') :
    ∃ outcomes, Runs session programs outcomes ∧
      List.Forall₂ (SameOutcome like) outcomes outcomes' := by
  induction programs generalizing session session' outcomes' with
  | nil =>
    cases runs
    exact ⟨[], .nil session, .nil⟩
  | cons program programs ih =>
    cases runs with
    | cons first rest =>
      rcases first with ⟨depth, ends'⟩
      have first := integral program List.mem_cons_self
      rcases (program_agree arithmetic depth first).back alike ends' with
        ⟨result, after, ends, same, still⟩
      have later : ∀ program ∈ programs, program.isIntegral = true := fun program member =>
        integral program (List.mem_cons_of_mem _ member)
      rcases ih rest later still with ⟨outcomes, runs, related⟩
      exact ⟨(result, after) :: outcomes, .cons ⟨depth, ends⟩ runs,
        .cons (sameOutcome_of_alike arithmetic implied same still) related⟩

end Running

end Calculator
