import Calculator.Evaluation
import Calculator.Proofs.Syntax.CallGraph

/-!
Runs that come to an end. A body that is called is no part of the call, so the depth of the syntax
does not bound a run. Where calls lead nowhere in a circle the names do: whatever has been bound,
shadowed or dropped, a name that is called stands for one of the functions that the program defines
under this name.
-/

namespace Calculator

variable {V α β : Type} {definitions : List Definition}

/-- Every function that is bound in some frame is one of these definitions, and bound under its own
name. -/
def Scopes.DefinedBy (definitions : List Definition) (scopes : Scopes V) : Prop :=
  ∀ frame ∈ scopes.frames, ∀ name definition,
    frame.lookup name = some (.function definition) →
      definition.name = name ∧ definition ∈ definitions

namespace Scopes.DefinedBy

variable {scopes : Scopes V}

theorem start : (Scopes.start : Scopes V).DefinedBy definitions := by
  intro frame member name definition found
  obtain rfl := List.mem_singleton.mp member
  cases found

theorem push (defined : scopes.DefinedBy definitions) : scopes.push.DefinedBy definitions := by
  intro frame member name definition found
  rcases List.mem_cons.mp member with rfl | member
  · cases found
  · exact defined frame member name definition found

theorem pop (defined : scopes.DefinedBy definitions) : scopes.pop.DefinedBy definitions := by
  rcases scopes with ⟨innermost, _ | ⟨outer, enclosing⟩⟩
  · exact defined
  · exact fun frame member => defined frame (List.mem_cons_of_mem innermost member)

theorem clear (defined : scopes.DefinedBy definitions) : scopes.clear.DefinedBy definitions := by
  intro frame member name definition found
  rcases List.mem_cons.mp member with rfl | member
  · cases found
  · exact defined frame (List.mem_cons_of_mem _ member) name definition found

theorem define {name : String} {binding : Binding V} (defined : scopes.DefinedBy definitions)
    (fits : ∀ definition, binding = .function definition →
      definition.name = name ∧ definition ∈ definitions) :
    (scopes.define name binding).DefinedBy definitions := by
  intro frame member other definition found
  rcases List.mem_cons.mp member with rfl | member
  · have here := scopes.innermost.lookup_insert name other binding
    rw [show List.lookup other _ = some (.function definition) from found] at here
    split at here
    · next same =>
      subst same
      exact fits definition (Option.some.inj here.symm)
    · exact defined _ List.mem_cons_self other definition here.symm
  · exact defined frame (List.mem_cons_of_mem _ member) other definition found

theorem defineNumber (defined : scopes.DefinedBy definitions) (name : String) (value : V) :
    (scopes.define name (.number value)).DefinedBy definitions :=
  defined.define fun _ same => nomatch same

theorem find? {name : String} {definition : Definition} (defined : scopes.DefinedBy definitions)
    (found : scopes.find? name = some (.function definition)) :
    definition.name = name ∧ definition ∈ definitions := by
  obtain ⟨frame, member, inside⟩ := List.exists_of_findSome?_eq_some found
  exact defined frame member name definition inside

end Scopes.DefinedBy

def Eval.Finishes (definitions : List Definition) (action : Eval V α) : Prop :=
  ∀ before, before.scopes.DefinedBy definitions →
    ∃ result after, action.run before = some (result, after) ∧ after.scopes.DefinedBy definitions

namespace Eval

theorem finishes_pure (value : α) : (pure value : Eval V α).Finishes definitions :=
  fun before defined => ⟨.ok value, before, rfl, defined⟩

theorem finishes_fail (fault : Fault) (pos : Nat) :
    (fail fault pos : Eval V α).Finishes definitions :=
  fun before defined => ⟨_, before, rfl, defined⟩

theorem finishes_ofExcept (pos : Nat) (result : Except Fault α) :
    (ofExcept pos result : Eval V α).Finishes definitions :=
  fun before defined => ⟨_, before, run_ofExcept pos result before, defined⟩

theorem finishes_emit (value : V) : (emit value).Finishes definitions :=
  fun before defined => ⟨_, _, run_emit value before, defined⟩

theorem finishes_modifyScopes {change : Scopes V → Scopes V}
    (kept : ∀ scopes, scopes.DefinedBy definitions → (change scopes).DefinedBy definitions) :
    (modifyScopes change).Finishes definitions :=
  fun before defined => ⟨_, _, run_modifyScopes change before, kept before.scopes defined⟩

theorem finishes_bind {action : Eval V α} {next : α → Eval V β}
    (first : action.Finishes definitions) (rest : ∀ value, (next value).Finishes definitions) :
    (action >>= next).Finishes definitions := by
  intro before defined
  obtain ⟨result, later, started, still⟩ := first before defined
  cases result with
  | ok value =>
    rw [run_bind_ok started]
    exact rest value later still
  | error error => exact ⟨_, later, run_bind_error started next, still⟩

theorem finishes_require (pos : Nat) {action : Eval V (Option α)}
    (finishes : action.Finishes definitions) : (require pos action).Finishes definitions := by
  apply finishes_bind finishes
  intro value
  cases value with
  | none => exact finishes_fail _ pos
  | some value => exact finishes_pure value

theorem finishes_inFrame {action : Eval V α} (finishes : action.Finishes definitions) :
    (inFrame action).Finishes definitions := by
  intro before defined
  obtain ⟨result, later, ends, still⟩ :=
    finishes { before with scopes := before.scopes.push } defined.push
  exact ⟨result, _, run_inFrame ends, still.pop⟩

end Eval

/-- Every call of a function of this name comes to an end. -/
def Invoke.Serves (call : Invoke V) (definitions : List Definition) (name : String) : Prop :=
  ∀ definition ∈ definitions, definition.name = name →
    ∀ values, (call definition values).Finishes definitions

theorem valueOf_finishes (name : String) (pos : Nat) :
    (valueOf name pos : Eval V V).Finishes definitions := by
  intro before defined
  rw [run_valueOf]
  rcases before.scopes.find? name with _ | ⟨value | definition⟩
  all_goals exact ⟨_, before, rfl, defined⟩

theorem checkCount_finishes (definition : Definition) (name : String) (found pos : Nat) :
    (checkCount definition name found pos : Eval V Unit).Finishes definitions := by
  unfold checkCount
  split
  · exact Eval.finishes_pure ()
  · exact Eval.finishes_fail _ pos

theorem functionOf_bind_finishes {name : String} {pos : Nat} {next : Definition → Eval V α}
    (rest : ∀ definition ∈ definitions, definition.name = name →
      (next definition).Finishes definitions) :
    (functionOf name pos >>= next).Finishes definitions := by
  intro before defined
  have started := run_functionOf name pos before
  cases found : before.scopes.find? name with
  | none =>
    rw [found] at started
    exact ⟨_, before, Eval.run_bind_error started next, defined⟩
  | some binding =>
    rw [found] at started
    cases binding with
    | number value => exact ⟨_, before, Eval.run_bind_error started next, defined⟩
    | function definition =>
      obtain ⟨named, member⟩ := defined.find? found
      rw [Eval.run_bind_ok started]
      exact rest definition member named before defined

theorem bindParams_finishes (params : List String) (values : List V) :
    (bindParams params values).Finishes definitions := by
  apply Eval.finishes_modifyScopes
  intro scopes defined
  induction params.zip values generalizing scopes with
  | nil => exact defined
  | cons entry entries ih => exact ih _ (defined.defineNumber entry.1 entry.2)

variable [Arithmetic V] {call : Invoke V}

mutual

theorem Expr.eval_finishes : (expr : Expr) →
    (∀ name ∈ expr.calls, call.Serves definitions name) → (expr.eval call).Finishes definitions
  | .number literal fixed pos, _ => by
      simp only [Expr.eval]
      exact Eval.finishes_bind (Eval.finishes_ofExcept pos _) fun _ => Eval.finishes_pure _
  | .name name pos, _ => by
      simp only [Expr.eval]
      exact Eval.finishes_bind (valueOf_finishes name pos) fun _ => Eval.finishes_pure _
  | .negate operand pos, serves => by
      simp only [Expr.calls] at serves
      simp only [Expr.eval]
      apply Eval.finishes_bind (Eval.finishes_require _ (operand.eval_finishes serves))
      intro value
      exact Eval.finishes_bind (Eval.finishes_ofExcept pos _) fun _ => Eval.finishes_pure _
  | .chain first links, serves => by
      simp only [Expr.calls] at serves
      simp only [Expr.eval]
      rcases List.forall_mem_append.mp serves with ⟨front, back⟩
      apply Eval.finishes_bind (Eval.finishes_require _ (first.eval_finishes front))
      intro value
      exact Eval.finishes_bind (evalLinks_finishes value links back) fun _ =>
        Eval.finishes_pure _
  | .call name arguments pos, serves => by
      simp only [Expr.calls] at serves
      simp only [Expr.eval]
      rcases List.forall_mem_cons.mp serves with ⟨callee, back⟩
      apply functionOf_bind_finishes
      intro definition member named
      apply Eval.finishes_bind (checkCount_finishes definition name _ pos)
      intro _
      exact Eval.finishes_bind (evalArguments_finishes arguments back)
        (callee definition member named)

theorem evalLinks_finishes (value : V) : (links : List Link) →
    (∀ name ∈ linksCalls links, call.Serves definitions name) →
      (evalLinks call value links).Finishes definitions
  | [], _ => by
      simp only [evalLinks]
      exact Eval.finishes_pure value
  | ⟨op, operand, pos⟩ :: links, serves => by
      simp only [linksCalls] at serves
      simp only [evalLinks]
      rcases List.forall_mem_append.mp serves with ⟨front, back⟩
      apply Eval.finishes_bind (Eval.finishes_require _ (operand.eval_finishes front))
      intro right
      apply Eval.finishes_bind (Eval.finishes_ofExcept pos _)
      intro result
      exact evalLinks_finishes result links back

theorem evalArguments_finishes : (arguments : List Expr) →
    (∀ name ∈ exprsCalls arguments, call.Serves definitions name) →
      (evalArguments call arguments).Finishes definitions
  | [], _ => by
      simp only [evalArguments]
      exact Eval.finishes_pure []
  | argument :: arguments, serves => by
      simp only [exprsCalls] at serves
      simp only [evalArguments]
      rcases List.forall_mem_append.mp serves with ⟨front, back⟩
      apply Eval.finishes_bind (Eval.finishes_require _ (argument.eval_finishes front))
      intro value
      exact Eval.finishes_bind (evalArguments_finishes arguments back) fun _ =>
        Eval.finishes_pure _

end

theorem Expr.value_finishes (expr : Expr)
    (serves : ∀ name ∈ expr.calls, call.Serves definitions name) :
    (expr.value call).Finishes definitions :=
  Eval.finishes_require _ (expr.eval_finishes serves)

theorem assign_finishes (name : String) (declared : Option NumberType) (value : V) (pos : Nat) :
    (assign name declared value pos).Finishes definitions := by
  intro before defined
  rw [run_assign]
  split
  · exact ⟨_, _, rfl, defined.defineNumber name _⟩
  · exact ⟨_, before, rfl, defined⟩

/-! A statement finishes if its functions are among the definitions and everything that it calls
does. -/

mutual

theorem Statement.eval_finishes : (statement : Statement) →
    (∀ definition ∈ statement.definitions, definition ∈ definitions) →
      (∀ name ∈ statement.calls, call.Serves definitions name) →
        (statement.eval call).Finishes definitions
  | .assign name declared value pos, _, serves => by
      simp only [Statement.calls] at serves
      simp only [Statement.eval]
      exact Eval.finishes_bind (value.value_finishes serves) fun value =>
        assign_finishes name declared value pos
  | .define ⟨name, params, body, pos⟩, known, _ => by
      simp only [Statement.definitions, Definition.definitions] at known
      simp only [Statement.eval]
      refine Eval.finishes_bind (Eval.finishes_modifyScopes ?_) fun _ => Eval.finishes_pure none
      intro scopes defined
      apply defined.define
      rintro _ ⟨⟩
      exact ⟨rfl, (List.forall_mem_cons.mp known).1⟩
  | .block body, known, serves => by
      simp only [Statement.definitions] at known
      simp only [Statement.calls] at serves
      simp only [Statement.eval]
      exact body.eval_finishes known serves
  | .ifThen condition consequence pos, known, serves => by
      simp only [Statement.definitions] at known
      simp only [Statement.calls] at serves
      simp only [Statement.eval]
      rcases List.forall_mem_append.mp serves with ⟨front, back⟩
      apply Eval.finishes_bind (condition.value_finishes front)
      intro value
      split
      · exact consequence.eval_finishes known back
      · exact Eval.finishes_pure none
  | .ifElse condition consequence alternative pos, known, serves => by
      simp only [Statement.definitions] at known
      simp only [Statement.calls] at serves
      simp only [Statement.eval]
      rcases List.forall_mem_append.mp known with ⟨known, known'⟩
      rcases List.forall_mem_append.mp serves with ⟨front, serves⟩
      rcases List.forall_mem_append.mp serves with ⟨serves, serves'⟩
      apply Eval.finishes_bind (condition.value_finishes front)
      intro value
      split
      · exact consequence.eval_finishes known serves
      · exact alternative.eval_finishes known' serves'
  | .print expr pos, _, serves => by
      simp only [Statement.calls] at serves
      simp only [Statement.eval]
      apply Eval.finishes_bind (expr.value_finishes serves)
      intro value
      exact Eval.finishes_bind (Eval.finishes_emit value) fun _ => Eval.finishes_pure _
  | .reset pos, _, _ => by
      simp only [Statement.eval]
      exact Eval.finishes_bind (Eval.finishes_modifyScopes fun _ => Scopes.DefinedBy.clear) fun _ =>
        Eval.finishes_pure none
  | .expression expr, _, serves => by
      simp only [Statement.calls] at serves
      simp only [Statement.eval]
      exact expr.eval_finishes serves

theorem Block.eval_finishes : (body : Block) →
    (∀ definition ∈ body.definitions, definition ∈ definitions) →
      (∀ name ∈ body.calls, call.Serves definitions name) → (body.eval call).Finishes definitions
  | ⟨statements, pos⟩, known, serves => by
      simp only [Block.definitions] at known
      simp only [Block.calls] at serves
      simp only [Block.eval]
      exact Eval.finishes_inFrame (evalStatements_finishes none statements known serves)

theorem evalStatements_finishes (last : Option V) : (statements : List Statement) →
    (∀ definition ∈ statementsDefinitions statements, definition ∈ definitions) →
      (∀ name ∈ statementsCalls statements, call.Serves definitions name) →
        (evalStatements call last statements).Finishes definitions
  | [], _, _ => by
      simp only [evalStatements]
      exact Eval.finishes_pure last
  | statement :: statements, known, serves => by
      simp only [statementsDefinitions] at known
      simp only [statementsCalls] at serves
      simp only [evalStatements]
      rcases List.forall_mem_append.mp known with ⟨known, known'⟩
      rcases List.forall_mem_append.mp serves with ⟨serves, serves'⟩
      exact Eval.finishes_bind (statement.eval_finishes known serves) fun value =>
        evalStatements_finishes value statements known' serves'

end

section Acyclic

variable {program : Program} (acyclic : ∀ name, ¬ Relation.TransGen program.Calls name name)
include acyclic

theorem invoke_serves (depth : Nat) (name : String) (deep : (program.reach name).card < depth) :
    (invoke depth : Invoke V).Serves (statementsDefinitions program) name := by
  -- A name that is not defined cannot be called at all, and one that is defined leads on to fewer
  -- functions than its caller.
  induction depth generalizing name with
  | zero => exact absurd deep (Nat.not_lt_zero _)
  | succ depth ih =>
    rintro ⟨name, params, ⟨statements, pos⟩, place⟩ member rfl values
    apply Eval.finishes_inFrame
    apply Eval.finishes_bind (bindParams_finishes params values)
    intro _
    apply evalStatements_finishes none statements
    · intro inner inside
      apply statementsDefinitions_inside program _ member
      simp only [Block.definitions]
      exact inside
    · intro callee called definition defined named
      have calls : program.Calls name callee := by
        refine ⟨_, member, rfl, ?_⟩
        simp only [Definition.calls, Block.calls]
        exact called
      have fewer := Program.card_reach_lt acyclic calls
        (Program.mem_functionNames.mpr ⟨definition, defined, named⟩)
      exact ih callee (Nat.lt_of_lt_of_le fewer (Nat.le_of_lt_succ deep)) definition defined named

end Acyclic

/-- A program in which no function leads back to itself comes to an end, in success or failure, and
never are more calls open than there are names of functions. -/
theorem acyclic_program_ends (V : Type) [Arithmetic V] (program : Program)
    (acyclic : ∀ name, ¬ Relation.TransGen program.Calls name name) :
    ∃ depth ≤ program.functionNames.card, ∃ result after,
      (program.eval depth).run (.start : Session V) = some (result, after) := by
  have serves : ∀ name ∈ statementsCalls program,
      (invoke program.functionNames.card : Invoke V).Serves (statementsDefinitions program) name := by
    intro name _ definition defined named
    have known := Program.mem_functionNames.mpr ⟨definition, defined, named⟩
    exact invoke_serves acyclic _ name (Program.card_reach_lt_functionNames acyclic known)
      definition defined named
  have finishes := evalStatements_finishes none program (fun _ member => member) serves
  obtain ⟨result, after, ends, _⟩ := finishes .start Scopes.DefinedBy.start
  exact ⟨_, Nat.le_refl _, result, after, ends⟩

def redefiningProgram : Program := [
  .define ⟨"g", ["x"], ⟨[.define ⟨"h", [], ⟨[.expression (.name "x" 0)], 0⟩, 0⟩,
    .expression (.call "h" [] 0)], 0⟩, 0⟩,
  .define ⟨"f", ["x"], ⟨[.expression (.call "g" [.name "x" 0] 0)], 0⟩, 0⟩,
  .print (.call "f" [.number (.int 1) false 0] 0) 0,
  .block ⟨[.define ⟨"g", ["y"], ⟨[.expression (.call "h" [] 0)], 0⟩, 0⟩,
    .print (.call "f" [.number (.int 2) false 0] 0) 0], 0⟩]

theorem redefiningProgram_ends :
    (∀ name, ¬ Relation.TransGen redefiningProgram.Calls name name) ∧
      ∃ depth ≤ redefiningProgram.functionNames.card, ∃ result after,
        (redefiningProgram.eval depth).run (.start : Session Number) = some (result, after) := by
  let order (name : String) : Nat := if name = "f" then 2 else if name = "g" then 1 else 0
  have acyclic : ∀ name, ¬ Relation.TransGen redefiningProgram.Calls name name :=
    Program.acyclic_of_order order (by decide)
  exact ⟨acyclic, acyclic_program_ends Number redefiningProgram acyclic⟩

end Calculator
