import Mathlib.Data.Finset.Card
import Mathlib.Data.Finset.Dedup
import Mathlib.Logic.Relation
import Calculator.Syntax.Basic

/-!
Which functions a program defines and which names each of them calls. Where no name leads back to
itself, the calls lead downwards: a name that is called leads to fewer functions than the one that
calls it.
-/

namespace Calculator

open Relation (TransGen)

mutual

def Expr.calls : Expr → List String
  | .number .. | .name .. => []
  | .negate operand _ => operand.calls
  | .chain first links => first.calls ++ linksCalls links
  | .call name arguments _ => name :: exprsCalls arguments

def linksCalls : List Link → List String
  | [] => []
  | ⟨_, operand, _⟩ :: links => operand.calls ++ linksCalls links

def exprsCalls : List Expr → List String
  | [] => []
  | expr :: exprs => expr.calls ++ exprsCalls exprs

end

mutual

def Statement.calls : Statement → List String
  | .assign _ _ value _ => value.calls
  | .define definition => definition.calls
  | .block body => body.calls
  | .ifThen condition consequence _ => condition.calls ++ consequence.calls
  | .ifElse condition consequence alternative _ =>
      condition.calls ++ (consequence.calls ++ alternative.calls)
  | .print value _ => value.calls
  | .reset _ => []
  | .expression value => value.calls

def Block.calls : Block → List String
  | ⟨statements, _⟩ => statementsCalls statements

def Definition.calls : Definition → List String
  | ⟨_, _, body, _⟩ => body.calls

def statementsCalls : List Statement → List String
  | [] => []
  | statement :: statements => statement.calls ++ statementsCalls statements

end

mutual

/-- The functions that a statement defines, and those defined inside of these. -/
def Statement.definitions : Statement → List Definition
  | .define definition => definition.definitions
  | .block body => body.definitions
  | .ifThen _ consequence _ => consequence.definitions
  | .ifElse _ consequence alternative _ => consequence.definitions ++ alternative.definitions
  | .assign .. | .print .. | .reset _ | .expression _ => []

def Block.definitions : Block → List Definition
  | ⟨statements, _⟩ => statementsDefinitions statements

def Definition.definitions : Definition → List Definition
  | ⟨name, params, body, pos⟩ => ⟨name, params, body, pos⟩ :: body.definitions

def statementsDefinitions : List Statement → List Definition
  | [] => []
  | statement :: statements => statement.definitions ++ statementsDefinitions statements

end

/-! What is defined inside a function that a program defines is defined by the program. -/

mutual

theorem Statement.definitions_inside : (statement : Statement) →
    ∀ outer ∈ statement.definitions, ∀ inner ∈ outer.body.definitions,
      inner ∈ statement.definitions
  | .define ⟨name, params, body, pos⟩ => by
      simp only [Statement.definitions, Definition.definitions]
      intro outer member inner inside
      rcases List.mem_cons.mp member with rfl | member
      · exact List.mem_cons_of_mem _ inside
      · exact List.mem_cons_of_mem _ (body.definitions_inside outer member inner inside)
  | .block body => by
      simp only [Statement.definitions]
      exact body.definitions_inside
  | .ifThen _ consequence _ => by
      simp only [Statement.definitions]
      exact consequence.definitions_inside
  | .ifElse _ consequence alternative _ => by
      simp only [Statement.definitions]
      intro outer member inner inside
      rcases List.mem_append.mp member with member | member
      · exact List.mem_append_left _ (consequence.definitions_inside outer member inner inside)
      · exact List.mem_append_right _ (alternative.definitions_inside outer member inner inside)
  | .assign .. | .print .. | .reset _ | .expression _ => by simp [Statement.definitions]

theorem Block.definitions_inside : (body : Block) →
    ∀ outer ∈ body.definitions, ∀ inner ∈ outer.body.definitions, inner ∈ body.definitions
  | ⟨statements, _⟩ => by
      simp only [Block.definitions]
      exact statementsDefinitions_inside statements

theorem statementsDefinitions_inside : (statements : List Statement) →
    ∀ outer ∈ statementsDefinitions statements, ∀ inner ∈ outer.body.definitions,
      inner ∈ statementsDefinitions statements
  | [] => by simp [statementsDefinitions]
  | statement :: statements => by
      simp only [statementsDefinitions]
      intro outer member inner inside
      rcases List.mem_append.mp member with member | member
      · exact List.mem_append_left _ (statement.definitions_inside outer member inner inside)
      · exact List.mem_append_right _
          (statementsDefinitions_inside statements outer member inner inside)

end

namespace Program

/-- A function of this name, defined anywhere in the program, calls the other name in its body. -/
def Calls (program : Program) (caller callee : String) : Prop :=
  ∃ definition ∈ statementsDefinitions program,
    definition.name = caller ∧ callee ∈ definition.calls

def functionNames (program : Program) : Finset String :=
  ((statementsDefinitions program).map Definition.name).toFinset

theorem mem_functionNames {program : Program} {name : String} :
    name ∈ program.functionNames ↔
      ∃ definition ∈ statementsDefinitions program, definition.name = name := by
  simp [functionNames]

/-- No name leads back to itself if the names can be put in an order in which every function calls
lower ones. -/
theorem acyclic_of_order {program : Program} (order : String → Nat)
    (falls : ∀ definition ∈ statementsDefinitions program, ∀ callee ∈ definition.calls,
      order callee < order definition.name) (name : String) :
    ¬ TransGen program.Calls name name := by
  have step : ∀ caller callee, program.Calls caller callee → order callee < order caller := by
    rintro _ callee ⟨definition, member, rfl, called⟩
    exact falls definition member callee called
  have below : ∀ other, TransGen program.Calls name other → order other < order name := by
    intro other leads
    induction leads with
    | single calls => exact step name _ calls
    | tail _ calls ih => exact Nat.lt_trans (step _ _ calls) ih
  intro returns
  exact Nat.lt_irrefl _ (below name returns)

open Classical in
noncomputable def reach (program : Program) (name : String) : Finset String :=
  program.functionNames.filter fun callee => TransGen program.Calls name callee

theorem mem_reach {program : Program} {name callee : String} :
    callee ∈ program.reach name ↔
      callee ∈ program.functionNames ∧ TransGen program.Calls name callee := by
  simp [reach]

section Acyclic

variable {program : Program} (acyclic : ∀ name, ¬ TransGen program.Calls name name)
include acyclic

/-- A function that is called leads to fewer functions than the one that calls it, which leads to the
called one besides. -/
theorem card_reach_lt {caller callee : String} (calls : program.Calls caller callee)
    (defined : callee ∈ program.functionNames) :
    (program.reach callee).card < (program.reach caller).card := by
  apply Finset.card_lt_card
  rw [Finset.ssubset_iff_of_subset]
  · refine ⟨callee, mem_reach.mpr ⟨defined, .single calls⟩, ?_⟩
    intro returns
    exact acyclic callee (mem_reach.mp returns).2
  · intro name reached
    obtain ⟨defined, leads⟩ := mem_reach.mp reached
    exact mem_reach.mpr ⟨defined, .head calls leads⟩

theorem card_reach_lt_functionNames {name : String} (defined : name ∈ program.functionNames) :
    (program.reach name).card < program.functionNames.card := by
  apply Finset.card_lt_card
  rw [Finset.ssubset_iff_of_subset]
  · refine ⟨name, defined, ?_⟩
    intro returns
    exact acyclic name (mem_reach.mp returns).2
  · intro other reached
    exact (mem_reach.mp reached).1

end Acyclic

end Program

end Calculator
