import Calculator.Proofs.Evaluation.Agreement
import Calculator.Proofs.Evaluation.Frames
import Calculator.Proofs.Evaluation.Visibility

/-!
Names are looked up when a function is called, from the frames of the call outwards, so a body can
see the local names of its callers. Which of them matter is known from the function alone: two
sessions in which the names that it leaves free stand for the same cannot be told apart by calling it.
-/

namespace Calculator

variable {V α : Type} {callers : Callers V} {own rest : List (Frame V)} {bound : List String}

abbrev Callers.Repeat (callers : Callers V) (own : List (Frame V)) (action : Eval V α) : Prop :=
  Eval.Repeats (callers.Above own) (callers.Above own) (callers.Above own) action

/-- Calls of a function whose free names are bound in the frames around the call or needed from the
callers come to the same with the callers of either side. -/
def Invoke.Repeats (callers : Callers V) (call : Invoke V) : Prop :=
  ∀ own definition values, Settled callers.needed own → Covers callers.needed own definition.free →
    definition.params.length = values.length → callers.Repeat own (call definition values)

section Frames

open Eval

theorem repeats_inside {action : Eval V α}
    (same : ∀ frame : Frame V, Settled callers.needed (frame :: rest) →
      (∀ name ∈ bound, (frame.lookup name).isSome) → callers.Repeat (frame :: rest) action) :
    Repeats (callers.Inside bound rest) (callers.Inside bound rest) (callers.Inside [] rest)
      action := by
  intro session session' inside
  rcases inside with ⟨frame, above, settled, certain⟩
  have related := same frame settled certain session session' above
  generalize action.run session = outcome at related ⊢
  generalize action.run session' = outcome' at related ⊢
  cases related with
  | none => exact .none
  | some related =>
    cases related with
    | ok value still => exact .some (.ok value ⟨frame, still, settled, certain⟩)
    | error error still => exact .some (.error error ⟨frame, still, settled, by simp⟩)

theorem repeats_inFrame {action : Eval V α} (settled : Settled callers.needed own)
    (same : Repeats (callers.Inside [] own) (callers.Inside [] own) (callers.Inside [] own) action) :
    callers.Repeat own (inFrame action) := by
  intro session session' above
  have stack : own ++ callers.frames ≠ [] := above.frames ▸ List.cons_ne_nil _ _
  have stack' : own ++ callers.frames' ≠ [] := above.frames' ▸ List.cons_ne_nil _ _
  have related := same _ _ (above.push settled)
  unfold run at related
  unfold run inFrame
  generalize action _ = outcome at related ⊢
  generalize action _ = outcome' at related ⊢
  cases related with
  | none => exact .none
  | some related =>
    cases related with
    | ok value inside => exact .some (.ok value (inside.pop stack stack'))
    | error error inside => exact .some (.error error (inside.pop stack stack'))

theorem repeats_emit (value : V) : callers.Repeat own (emit value) :=
  fun _ _ above => .some (.ok () (above.emit value))

theorem valueOf_repeats {name : String} (pos : Nat)
    (covered : callers.needed name ∨ (framesFind? own name).isSome) :
    callers.Repeat own (valueOf name pos) := by
  intro session session' above
  rw [run_valueOf, run_valueOf, above.find? covered]
  rcases session'.scopes.find? name with _ | ⟨value | definition⟩
  · exact .some (.error _ above)
  · exact .some (.ok value above)
  · exact .some (.error _ above)

theorem functionOf_repeats {name : String} (pos : Nat)
    (covered : callers.needed name ∨ (framesFind? own name).isSome) :
    callers.Repeat own (functionOf name pos) := by
  intro session session' above
  rw [run_functionOf, run_functionOf, above.find? covered]
  rcases session'.scopes.find? name with _ | ⟨value | definition⟩
  · exact .some (.error _ above)
  · exact .some (.error _ above)
  · exact .some (.ok definition above)

theorem functionOf_found {name : String} {pos : Nat} {definition : Definition}
    {session later : Session V}
    (found : (functionOf name pos).run session = some (.ok definition, later)) :
    session.scopes.find? name = some (.function definition) := by
  rw [run_functionOf] at found
  rcases same : session.scopes.find? name with _ | ⟨value | other⟩
  · rw [same] at found
    cases found
  · rw [same] at found
    cases found
  · rw [same] at found
    cases found
    rfl

theorem checkCount_repeats (definition : Definition) (name : String) (found pos : Nat) :
    callers.Repeat own (checkCount definition name found pos) := by
  unfold checkCount
  split
  · exact repeats_pure ()
  · exact repeats_fail _ pos fun _ _ => id

theorem checkCount_passed {definition : Definition} {name : String} {found pos : Nat}
    {session later : Session V}
    (passed : (checkCount definition name found pos).run session = some (.ok (), later)) :
    definition.params.length = found := by
  unfold checkCount at passed
  split at passed
  · assumption
  · cases passed

end Frames

variable [Arithmetic V] {call : Invoke V}

theorem evalArguments_length {arguments : List Expr} {values : List V} {session later : Session V}
    (ends : (evalArguments call arguments).run session = some (.ok values, later)) :
    values.length = arguments.length := by
  induction arguments generalizing values session with
  | nil =>
    cases ends
    rfl
  | cons argument arguments ih =>
    simp only [evalArguments] at ends
    rcases Eval.run_bind_cases ends with ⟨value, between, _, ended⟩ | ⟨_, _, _, impossible⟩
    · rcases Eval.run_bind_cases ended with ⟨more, last, evaluated, final⟩ | ⟨_, _, _, impossible⟩
      · cases final
        exact congrArg (· + 1) (ih evaluated)
      · cases impossible
    · cases impossible

section Walk

open Eval

mutual

/-- An expression whose names are covered does not see which callers there are. -/
theorem Expr.eval_repeats (calls : Invoke.Repeats callers call)
    (settled : Settled callers.needed own) : (expr : Expr) →
    Covers callers.needed own expr.names → callers.Repeat own (expr.eval call)
  | .number literal fixed pos, _ => by
      simp only [Expr.eval]
      exact repeats_bind (repeats_ofExcept pos _ fun _ _ => id) fun _ _ => repeats_pure _
  | .name name pos, covers => by
      simp only [Expr.eval]
      have covered := covers name (List.mem_singleton_self name)
      exact repeats_bind (valueOf_repeats pos covered) fun _ _ => repeats_pure _
  | .negate operand pos, covers => by
      simp only [Expr.eval]
      apply repeats_bind
      · exact repeats_require _ (operand.eval_repeats calls settled covers) fun _ _ => id
      · intro value _
        exact repeats_bind (repeats_ofExcept pos _ fun _ _ => id) fun _ _ => repeats_pure _
  | .chain first links, covers => by
      simp only [Expr.eval]
      have ⟨covers, covers'⟩ := covers_append.mp covers
      apply repeats_bind
      · exact repeats_require _ (first.eval_repeats calls settled covers) fun _ _ => id
      · intro value _
        exact repeats_bind (evalLinks_repeats calls settled links value covers') fun _ _ =>
          repeats_pure _
  | .call name arguments pos, covers => by
      simp only [Expr.eval]
      have ⟨covered, covers⟩ := List.forall_mem_cons.mp covers
      apply repeats_bind (functionOf_repeats pos covered)
      rintro definition ⟨session, session', later, above, found⟩
      apply repeats_bind (checkCount_repeats definition name _ pos)
      rintro _ ⟨_, _, _, _, passed⟩
      apply repeats_bind (evalArguments_repeats calls settled arguments covers)
      rintro values ⟨_, _, _, _, evaluated⟩
      apply calls own definition values settled
      · exact above.covers settled covered (functionOf_found found)
      · rw [checkCount_passed passed, evalArguments_length evaluated]

theorem evalLinks_repeats (calls : Invoke.Repeats callers call)
    (settled : Settled callers.needed own) : (links : List Link) → (value : V) →
    Covers callers.needed own (linksNames links) → callers.Repeat own (evalLinks call value links)
  | [], value, _ => by
      simp only [evalLinks]
      exact repeats_pure value
  | ⟨op, operand, pos⟩ :: links, value, covers => by
      simp only [evalLinks]
      have ⟨covers, covers'⟩ := covers_append.mp covers
      apply repeats_bind
      · exact repeats_require _ (operand.eval_repeats calls settled covers) fun _ _ => id
      · intro right _
        apply repeats_bind (repeats_ofExcept pos _ fun _ _ => id)
        intro result _
        exact evalLinks_repeats calls settled links result covers'

theorem evalArguments_repeats (calls : Invoke.Repeats callers call)
    (settled : Settled callers.needed own) : (arguments : List Expr) →
    Covers callers.needed own (exprsNames arguments) →
      callers.Repeat own (evalArguments call arguments)
  | [], _ => by
      simp only [evalArguments]
      exact repeats_pure []
  | argument :: arguments, covers => by
      simp only [evalArguments]
      have ⟨covers, covers'⟩ := covers_append.mp covers
      apply repeats_bind
      · exact repeats_require _ (argument.eval_repeats calls settled covers) fun _ _ => id
      · intro value _
        exact repeats_bind (evalArguments_repeats calls settled arguments covers') fun _ _ =>
          repeats_pure _

end

theorem Expr.value_repeats (calls : Invoke.Repeats callers call) (expr : Expr)
    (covers : Covers callers.needed rest (unbound expr.names bound)) :
    Repeats (callers.Inside bound rest) (callers.Inside bound rest) (callers.Inside [] rest)
      (expr.value call) :=
  repeats_inside fun _ settled certain =>
    repeats_require _ (expr.eval_repeats calls settled (covers_of_unbound certain covers))
      fun _ _ => id

theorem assign_repeats (name : String) (declared : Option NumberType) (value : V) (pos : Nat) :
    Repeats (callers.Inside bound rest) (callers.Inside (name :: bound) rest)
      (callers.Inside [] rest) (assign name declared value pos) := by
  intro session session' inside
  have innermost : session.scopes.innermost = session'.scopes.innermost := by
    rcases inside with ⟨frame, above, _⟩
    rw [(List.cons.inj above.frames).1, (List.cons.inj above.frames').1]
  have same : session.scopes.local? name = session'.scopes.local? name := by
    rw [Scopes.local?, Scopes.local?, innermost]
  rw [run_assign, run_assign, same]
  cases Arithmetic.store name declared ((session'.scopes.local? name).bind Binding.number?)
    value with
  | error fault => exact .some (.error _ (inside.mono (by simp)))
  | ok stored =>
    have defined := inside.define name (.number stored) (by simp)
    exact .some (.ok _ defined)

omit [Arithmetic V] in
theorem define_repeats (definition : Definition)
    (covers : Covers callers.needed rest (unbound definition.free (definition.name :: bound))) :
    Repeats (callers.Inside bound rest) (callers.Inside (definition.name :: bound) rest)
      (callers.Inside [] rest)
      (modifyScopes (·.define definition.name (.function definition))) := by
  apply repeats_modifyScopes
  intro session session' inside
  apply inside.define definition.name (.function definition)
  intro _ same
  cases same
  exact covers

mutual

theorem Statement.eval_repeats (calls : Invoke.Repeats callers call) (rest : List (Frame V))
    (bound : List String) : (statement : Statement) →
    Covers callers.needed rest (statement.free bound) →
      Repeats (callers.Inside bound rest) (callers.Inside (statement.binds bound) rest)
        (callers.Inside [] rest) (statement.eval call)
  | .assign name declared value pos, covers => by
      simp only [Statement.eval]
      exact repeats_bind (value.value_repeats calls covers) fun value _ =>
        assign_repeats name declared value pos
  | .define definition, covers => by
      simp only [Statement.eval]
      refine repeats_bind (define_repeats definition covers) fun _ _ => ?_
      exact repeats_pure none
  | .block ⟨statements, pos⟩, covers => by
      simp only [Statement.eval, Block.eval]
      apply repeats_inside
      intro frame settled certain
      apply repeats_inFrame settled
      exact evalStatements_repeats calls (frame :: rest) [] statements none
        (covers_of_unbound certain covers)
  | .ifThen condition consequence pos, covers => by
      simp only [Statement.eval]
      have ⟨covers, covers'⟩ := covers_append.mp covers
      apply repeats_bind (condition.value_repeats calls covers)
      intro value _
      split
      · exact (consequence.eval_repeats calls rest bound covers').mono fun _ _ inside =>
          inside.mono fun _ member => (List.mem_filter.mp member).1
      · exact (repeats_pure none).mono fun _ _ inside =>
          inside.mono fun _ member => of_decide_eq_true (List.mem_filter.mp member).2
  | .ifElse condition consequence alternative pos, covers => by
      simp only [Statement.eval]
      have ⟨covers, covers'⟩ := covers_append.mp covers
      have ⟨chosen, other⟩ := covers_append.mp covers'
      apply repeats_bind (condition.value_repeats calls covers)
      intro value _
      split
      · exact (consequence.eval_repeats calls rest bound chosen).mono fun _ _ inside =>
          inside.mono fun _ member => (List.mem_filter.mp member).1
      · exact (alternative.eval_repeats calls rest bound other).mono fun _ _ inside =>
          inside.mono fun _ member => of_decide_eq_true (List.mem_filter.mp member).2
  | .print expr pos, covers => by
      simp only [Statement.eval]
      apply repeats_bind (expr.value_repeats calls covers)
      intro value _
      exact repeats_bind (repeats_inside fun _ _ _ => repeats_emit value) fun _ _ => repeats_pure _
  | .reset pos, _ => by
      simp only [Statement.eval]
      refine repeats_bind (repeats_modifyScopes fun _ _ inside => inside.clear) fun _ _ => ?_
      exact repeats_pure none
  | .expression expr, covers => by
      simp only [Statement.eval]
      exact repeats_inside fun _ settled certain =>
        expr.eval_repeats calls settled (covers_of_unbound certain covers)

theorem evalStatements_repeats (calls : Invoke.Repeats callers call) (rest : List (Frame V))
    (bound : List String) : (statements : List Statement) → (last : Option V) →
    Covers callers.needed rest (statementsFree bound statements) →
      Repeats (callers.Inside bound rest) (callers.Inside [] rest) (callers.Inside [] rest)
        (evalStatements call last statements)
  | [], last, _ => by
      simp only [evalStatements]
      exact (repeats_pure last).mono fun _ _ inside => inside.mono (by simp)
  | statement :: statements, last, covers => by
      simp only [evalStatements]
      have ⟨covers, covers'⟩ := covers_append.mp covers
      apply repeats_bind (statement.eval_repeats calls rest bound covers)
      intro value _
      exact evalStatements_repeats calls rest _ statements value covers'

end

omit [Arithmetic V] in
theorem define_arguments_inside (pairs : List (String × V)) {session session' : Session V}
    (inside : callers.Inside bound rest session session') :
    callers.Inside (pairs.map Prod.fst ++ bound) rest
      { session with scopes := pairs.foldl (fun scopes (param, value) =>
          scopes.define param (.number value)) session.scopes }
      { session' with scopes := pairs.foldl (fun scopes (param, value) =>
          scopes.define param (.number value)) session'.scopes } := by
  induction pairs generalizing bound session session' with
  | nil => exact inside
  | cons pair pairs ih =>
    have defined := ih (inside.define pair.1 (.number pair.2) (by simp))
    refine defined.mono fun name member => ?_
    simp only [List.map_cons, List.cons_append, List.mem_cons, List.mem_append] at member ⊢
    tauto

omit [Arithmetic V] in
theorem bindParams_repeats {params : List String} {values : List V}
    (count : params.length = values.length) :
    Repeats (callers.Inside [] rest) (callers.Inside params rest) (callers.Inside [] rest)
      (bindParams params values) := by
  apply repeats_modifyScopes
  intro session session' inside
  have defined := define_arguments_inside (params.zip values) inside
  rw [List.append_nil, List.map_fst_zip (Nat.le_of_eq count)] at defined
  exact defined

theorem invoke_repeats (callers : Callers V) (depth : Nat) :
    Invoke.Repeats callers (invoke depth) := by
  induction depth with
  | zero => exact fun _ _ _ _ _ _ _ _ _ => .none
  | succ depth ih =>
    intro own definition values settled covers count
    rcases definition with ⟨name, params, ⟨statements, _⟩, pos⟩
    apply repeats_inFrame settled
    apply repeats_bind (bindParams_repeats count)
    intro _ _
    exact (evalStatements_repeats ih own params statements none covers)

end Walk

/-- The names that a call of a function may look up among its callers: those that are free in it, and
where such a name stands for a function, those that are free in that one. -/
inductive Needs (scopes : Scopes V) (definition : Definition) : String → Prop
  | here {name : String} (free : name ∈ definition.free) : Needs scopes definition name
  | through {via name : String} {other : Definition} (reached : Needs scopes definition via)
      (function : scopes.find? via = some (.function other)) (free : name ∈ other.free) :
      Needs scopes definition name

/-- What two calls come to from sessions in which the arguments have been evaluated: the same result
and the same numbers printed since, with the bindings left as they were. -/
structure SameCall (between between' : Session V)
    (outcome outcome' : Except EvalError (Option V) × Session V) : Prop where
  result : outcome.1 = outcome'.1
  scopes : outcome.2.scopes = between.scopes
  scopes' : outcome'.2.scopes = between'.scopes
  printed : ∃ more, outcome.2.printed = between.printed ++ more ∧
    outcome'.2.printed = between'.printed ++ more

omit [Arithmetic V] in
theorem Scopes.frames_injective {scopes scopes' : Scopes V}
    (same : scopes.frames = scopes'.frames) : scopes = scopes' := by
  rcases scopes with ⟨innermost, enclosing⟩
  rcases scopes' with ⟨innermost', enclosing'⟩
  rcases List.cons.inj same with ⟨rfl, rfl⟩
  rfl

theorem invoke_same {depth : Nat} {definition : Definition} {values : List V}
    {between between' : Session V} (count : definition.params.length = values.length)
    (same : ∀ name, Needs between.scopes definition name →
      between.scopes.find? name = between'.scopes.find? name) :
    Option.Rel (SameCall between between') ((invoke depth definition values).run between)
      ((invoke depth definition values).run between') := by
  let callers : Callers V :=
    { needed := Needs between.scopes definition
      frames := between.scopes.frames
      frames' := between'.scopes.frames
      printed := between.printed
      printed' := between'.printed
      same := same
      closed := fun _ _ reached function _ free => .through reached function free }
  have above : callers.Above [] between between' :=
    ⟨rfl, rfl, #[], Array.append_empty.symm, Array.append_empty.symm⟩
  have repeated := invoke_repeats callers depth [] definition values trivial
    (fun _ free => .inl (.here free)) count between between' above
  refine optionRel_mono ?_ repeated
  intro outcome outcome' related
  cases related with
  | ok value still => exact ⟨rfl, Scopes.frames_injective still.frames,
      Scopes.frames_injective still.frames', still.printed⟩
  | error error still => exact ⟨rfl, Scopes.frames_injective still.frames,
      Scopes.frames_injective still.frames', still.printed⟩

section Calls

open Eval

theorem run_call {depth : Nat} {name : String} {definition : Definition} {arguments : List Expr}
    {values : List V} {before between : Session V} (pos : Nat)
    (found : before.scopes.find? name = some (.function definition))
    (count : definition.params.length = arguments.length)
    (evaluated : (evalArguments (invoke depth) arguments).run before = some (.ok values, between)) :
    ((Expr.call name arguments pos).eval (invoke depth)).run before =
      (invoke depth definition values).run between := by
  have reached : (functionOf name pos).run before = some (.ok definition, before) := by
    rw [run_functionOf, found]
  have passed : (checkCount definition name arguments.length pos).run before =
      some (.ok (), before) := by
    rw [checkCount, if_pos count]
    rfl
  simp only [Expr.eval]
  rw [run_bind_ok reached, run_bind_ok passed, run_bind_ok evaluated]

theorem run_call_miscounted {call : Invoke V} {name : String} {definition : Definition}
    {arguments : List Expr} {before : Session V} (pos : Nat)
    (found : before.scopes.find? name = some (.function definition))
    (count : definition.params.length ≠ arguments.length) :
    ((Expr.call name arguments pos).eval call).run before =
      some (.error ⟨.argumentCount name definition.params.length arguments.length, pos⟩,
        before) := by
  have reached : (functionOf name pos).run before = some (.ok definition, before) := by
    rw [run_functionOf, found]
  have refused : (checkCount definition name arguments.length pos).run before =
      some (.error ⟨.argumentCount name definition.params.length arguments.length, pos⟩,
        before) := by
    rw [checkCount, if_neg count]
    rfl
  simp only [Expr.eval]
  rw [run_bind_ok reached, run_bind_error refused]

end Calls

/-- Calls of one function from two sessions in which the names that it needs stand for the same. Each
is left with its own bindings; with the same argument values both come to the same result and print
the same numbers, whatever else the callers have bound. -/
theorem calls_depend_on_needed_names (depth : Nat) (name : String) (definition : Definition)
    (before before' : Session V)
    (found : before.scopes.find? name = some (.function definition))
    (found' : before'.scopes.find? name = some (.function definition))
    (same : ∀ other, Needs before.scopes definition other →
      before.scopes.find? other = before'.scopes.find? other)
    (arguments arguments' : List Expr) (pos : Nat)
    (alike : arguments.length = arguments'.length) :
    let call := ((Expr.call name arguments pos).eval (invoke depth)).run before
    let call' := ((Expr.call name arguments' pos).eval (invoke depth)).run before'
    (arguments.length = definition.params.length → ∀ values between between',
      (evalArguments (invoke depth) arguments).run before = some (.ok values, between) →
      (evalArguments (invoke depth) arguments').run before' = some (.ok values, between') →
        Option.Rel (SameCall between between') call call') ∧
    (arguments.length ≠ definition.params.length →
      let error : EvalError :=
        ⟨.argumentCount name definition.params.length arguments.length, pos⟩
      call = some (.error error, before) ∧ call' = some (.error error, before')) := by
  intro call call'
  constructor
  · intro count values between between' evaluated evaluated'
    have counted : definition.params.length = values.length := by
      rw [evalArguments_length evaluated, count]
    have reached : call = (invoke depth definition values).run between :=
      run_call pos found count.symm evaluated
    have reached' : call' = (invoke depth definition values).run between' :=
      run_call pos found' (count.symm.trans alike) evaluated'
    have kept := (evalArguments_onlyPrints depth arguments before _ between evaluated).scopes
    have kept' := (evalArguments_onlyPrints depth arguments' before' _ between' evaluated').scopes
    rw [reached, reached']
    apply invoke_same counted
    rw [kept, kept']
    exact same
  · intro count error
    refine ⟨run_call_miscounted pos found (Ne.symm count), ?_⟩
    have refused : call' = _ := run_call_miscounted pos found' (alike ▸ Ne.symm count)
    rw [refused, ← alike]

def announce : Definition :=
  ⟨"announce", ["n"], ⟨[.assign "step" none (.number (.int 1) false 0) 0, .print (.name "step" 0) 0,
    .expression (.call "total" [.name "n" 0] 0)], 0⟩, 0⟩

def total : Definition :=
  ⟨"total", ["k"], ⟨[.expression (.chain (.name "k" 0) [⟨.add, .name "base" 0, 0⟩])], 0⟩, 0⟩

def announcing (innermost : Frame Int64) (enclosing : List (Frame Int64)) : Session Int64 :=
  ⟨⟨innermost, enclosing ++
    [[("announce", .function announce), ("total", .function total), ("base", .number 10)]]⟩, #[]⟩

theorem announce_needs {innermost : Frame Int64} {enclosing : List (Frame Int64)} {name : String}
    (total_found : (announcing innermost enclosing).scopes.find? "total" = some (.function total))
    (base_found : (announcing innermost enclosing).scopes.find? "base" = some (.number 10))
    (needs : Needs (announcing innermost enclosing).scopes announce name) :
    name = "total" ∨ name = "base" := by
  have free : announce.free = ["total"] := by decide
  have free' : total.free = ["base"] := by decide
  induction needs with
  | here member =>
    rw [free] at member
    exact .inl (List.mem_singleton.mp member)
  | through _ function member ih =>
    rcases ih with rfl | rfl
    · rw [total_found] at function
      cases function
      rw [free'] at member
      exact .inr (List.mem_singleton.mp member)
    · rw [base_found] at function
      cases function

theorem announce_from_two_callers :
    let session := announcing [("step", .number 5), ("n", .number 9)] []
    let session' := announcing [("n", .number 3)] [[("k", .number 7)]]
    (session.scopes.find? "announce" = some (.function announce) ∧
      session'.scopes.find? "announce" = some (.function announce) ∧
      ∀ other, Needs session.scopes announce other →
        session.scopes.find? other = session'.scopes.find? other) ∧
    Option.Rel (SameCall session session')
      (((Expr.call "announce" [.number (.int 3) false 0] 0).eval (invoke 2)).run session)
      (((Expr.call "announce" [.name "n" 0] 0).eval (invoke 2)).run session') ∧
    ((Expr.call "announce" [.name "n" 0] 0).eval (invoke 2)).run session' =
      some (.ok (some 13), ⟨session'.scopes, #[1]⟩) := by
  intro session session'
  have same : ∀ other, Needs session.scopes announce other →
      session.scopes.find? other = session'.scopes.find? other := by
    intro other needs
    rcases announce_needs rfl rfl needs with rfl | rfl
    · rfl
    · rfl
  have repeated := calls_depend_on_needed_names 2 "announce" announce session session' rfl rfl same
    [.number (.int 3) false 0] [.name "n" 0] 0 rfl
  exact ⟨⟨rfl, rfl, same⟩, repeated.1 rfl [3] session session' rfl rfl, rfl⟩

def readsX : Definition := ⟨"f", [], ⟨[.expression (.name "x" 23)], 21⟩, 12⟩

/-- A body that reads a global name reads the local name of a caller instead where there is one: with
the same global frame, and the same function reached, the same call comes to two values. -/
theorem local_name_of_caller_is_read :
    let globals : Frame Int64 := [("f", .function readsX), ("x", .number 1)]
    let outside : Session Int64 := ⟨⟨globals, []⟩, #[]⟩
    let inside : Session Int64 := ⟨⟨[("x", .number 2)], [globals]⟩, #[]⟩
    outside.scopes.frames.getLast? = some globals ∧ inside.scopes.frames.getLast? = some globals ∧
    outside.scopes.find? "f" = some (.function readsX) ∧
    inside.scopes.find? "f" = some (.function readsX) ∧
    ((Expr.call "f" [] 38).eval (invoke 1)).run outside = some (.ok (some 1), outside) ∧
    ((Expr.call "f" [] 38).eval (invoke 1)).run inside = some (.ok (some 2), inside) :=
  ⟨rfl, rfl, rfl, rfl, rfl, rfl⟩

end Calculator
