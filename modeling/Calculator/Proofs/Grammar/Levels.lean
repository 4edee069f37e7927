import Calculator.Proofs.Grammar.Derivation
import Calculator.Proofs.Grammar.ExpressionRounds

/-!
The parsers of the levels of expressions, and what may stand behind an expression of a level.
-/

namespace Calculator

open Calculator.Parser

namespace Level

def parser : Level → Parser Expr
  | comparison => Parser.comparison
  | bitOr => Parser.bitOr
  | bitXor => Parser.bitXor
  | bitAnd => Parser.bitAnd
  | shift => Parser.shift
  | additive => Parser.additive
  | multiplicative => Parser.multiplicative
  | power => Parser.power
  | unary => Parser.unary
  | call => Parser.call
  | primary => Parser.primary

/-- What holds of primary expressions and passes from the operands of a level to the level holds of
all levels. -/
theorem climb {motive : Level → Prop} (primary : motive .primary)
    (step : ∀ level, level ≠ .primary → motive level.tighter → motive level) (level : Level) :
    motive level := by
  have call := step .call (by decide) primary
  have unary := step .unary (by decide) call
  have power := step .power (by decide) unary
  have multiplicative := step .multiplicative (by decide) power
  have additive := step .additive (by decide) multiplicative
  have shift := step .shift (by decide) additive
  have bitAnd := step .bitAnd (by decide) shift
  have bitXor := step .bitXor (by decide) bitAnd
  have bitOr := step .bitOr (by decide) bitXor
  have comparison := step .comparison (by decide) bitOr
  cases level <;> assumption

theorem tightness_tighter {level : Level} (proper : level ≠ .primary) :
    level.tighter.tightness = level.tightness + 1 := by
  cases level <;> first | rfl | exact absurd rfl proper

theorem Continues.looser {level : Level} {kind : Kind} (goesOn : level.tighter.Continues kind) :
    level.Continues kind := by
  rcases goesOn with ⟨here, proper⟩ | ⟨op, here, tight⟩
  · refine .inl ⟨here, ?_⟩
    rintro rfl
    exact proper rfl
  · refine .inr ⟨op, here, Nat.le_trans ?_ tight⟩
    by_cases proper : level = .primary
    · subst proper
      exact Nat.le_refl _
    · rw [tightness_tighter proper]
      exact Nat.le_succ _

theorem Continues.split {level : Level} {kind : Kind} (goesOn : level.Continues kind)
    (proper : level ≠ .primary) (simple : level ≠ .call) :
    level.tighter.Continues kind ∨ ∃ op, kind = .operator op ∧ op.level = level := by
  rcases goesOn with ⟨here, _⟩ | ⟨op, here, tight⟩
  · refine .inl (.inl ⟨here, ?_⟩)
    cases level <;> first | exact absurd rfl simple | exact absurd rfl proper | decide
  · by_cases own : op.level = level
    · exact .inr ⟨op, here, own⟩
    · refine .inl (.inr ⟨op, here, ?_⟩)
      revert own tight
      cases op <;> cases level <;> decide

theorem not_continues_primary (kind : Kind) : ¬ primary.Continues kind := by
  rintro (⟨_, proper⟩ | ⟨op, _, tight⟩)
  · exact proper rfl
  · cases op <;> exact absurd tight (by decide)

theorem not_continues_call {kind : Kind} (other : kind ≠ .leftParen) : ¬ call.Continues kind := by
  rintro (⟨here, _⟩ | ⟨op, _, tight⟩)
  · exact other here
  · cases op <;> exact absurd tight (by decide)

theorem not_continues_operator {level : Level} {op : BinaryOp} (own : op.level = level) :
    ¬ level.tighter.Continues (.operator op) := by
  subst own
  rintro (⟨here, _⟩ | ⟨_, ⟨⟩, tight⟩)
  · cases here
  · cases op <;> exact absurd tight (by decide)

theorem not_continues_of_kind {level : Level} {kind : Kind} (other : kind ≠ .leftParen)
    (word : ∀ op, kind ≠ .operator op) : ¬ level.Continues kind := by
  rintro (⟨here, _⟩ | ⟨op, here, _⟩)
  · exact other here
  · exact word op here

theorem Folds.proper {level : Level} (folds : level.Folds) : level ≠ .primary := by
  rintro rfl
  exact absurd folds (by decide)

theorem parser_eq_level {level : Level} (loose : level.tightness ≤ Level.power.tightness) :
    level.parser = Parser.level level.tightness := by
  cases level <;> first | rfl | exact absurd loose (by decide)

theorem parser_eq_chain {level : Level} (folds : level.Folds) :
    ∃ operators, level.parser = chain operators level.tighter.parser ∧
      ∀ op, op ∈ operators ↔ op.level = level := by
  have bound : level.tightness < precedence.length := folds
  have next := tightness_tighter folds.proper
  refine ⟨precedence[level.tightness], ?_, ?_⟩
  · rw [parser_eq_level (Nat.le_of_lt folds), parser_eq_level (by rw [next]; exact folds), next,
      level_eq, level_eq, List.drop_eq_getElem_cons bound]
    rfl
  · intro op
    revert bound
    cases level <;> cases op <;> decide

theorem takes (level : Level) (stream : Stream) : Agree 1 stream level.parser level.parser := by
  cases level with
  | primary =>
    change Agree 1 stream Parser.primary Parser.primary
    rw [primary_eq]
    exact agree_primaryWith fun later _ => agree_expression later
  | call =>
    change Agree 1 stream Parser.call Parser.call
    rw [call_eq]
    exact agree_callWith fun later _ => agree_expression later
  | unary => exact agree_unary stream
  | _ => exact agree_level _ stream

end Level

end Calculator
