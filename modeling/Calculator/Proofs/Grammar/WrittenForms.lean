import Calculator.Proofs.Grammar.Writing

/-!
The words that a program is written with have the form of the program: as many parentheses as are
written are enough to get the same tree back.
-/

namespace Calculator

section Expressions


theorem Derives.loosen {callees : Callees} {level looser : Level} {tokens : List Token}
    {tree : Expr} (derives : Derives callees level tokens tree)
    (less : looser.tightness ≤ level.tightness) : Derives callees looser tokens tree := by
  revert less
  apply looser.climb (motive := fun looser => looser.tightness ≤ level.tightness →
    Derives callees looser tokens tree)
  · intro less
    have same : level = .primary := by
      revert less
      cases level <;> decide
    exact same ▸ derives
  · intro looser proper ih less
    by_cases same : looser = level
    · exact same ▸ derives
    · apply Derives.tighter proper
      apply ih
      rw [Level.tightness_tighter proper]
      have apart : looser.tightness ≠ level.tightness := by
        revert same
        cases looser <;> cases level <;> decide
      omega

variable {level : Level} {tree : Expr} {words : List Token}

def Expr.outermost (expr : Expr) : Level := if expr.isCompound then .comparison else .call

theorem derives_enclose {expr : Expr} (derives : Derives Enclosed expr.outermost words tree)
    (open_ : level.tightness ≤ Level.call.tightness) :
    Derives Enclosed level (expr.enclose words) tree := by
  unfold Expr.outermost at derives
  unfold Expr.enclose
  split at derives
  · next compound =>
    rw [if_pos compound]
    have parens : Derives Enclosed .primary
        (Kind.leftParen.word :: (words ++ [Kind.rightParen.word])) tree :=
      .parens rfl derives rfl
    exact parens.loosen (Nat.le_trans open_ (by decide))
  · next simple =>
    rw [if_neg simple]
    exact derives.loosen open_

theorem commaList_separated {α : Type} {item : List Token → α → Prop} {lists : List (List Token)}
    {values : List α} (all : List.Forall₂ item lists values) :
    CommaList item (separated .comma lists) values := by
  induction all with
  | nil => exact .nil
  | @cons words value lists values first others ih =>
    cases others with
    | nil =>
      rw [separated, List.intercalate_singleton]
      exact .one first
    | cons =>
      rw [separated_cons (List.cons_ne_nil _ _)]
      exact .more first rfl ih (List.cons_ne_nil _ _)

theorem areLinks_cases {links : List Link} (linked : areLinks links) :
    (∃ operand pos, links = [⟨.pow, operand, pos⟩]) ∨
      links ≠ [] ∧ ∃ level, level.Folds ∧ ∀ link ∈ links, link.op.level = level := by
  rcases links with _ | ⟨⟨op, operand, pos⟩, _ | ⟨next, links⟩⟩
  · exact absurd linked (by simp [areLinks])
  · by_cases power : op = .pow
    · subst power
      exact .inl ⟨operand, pos, rfl⟩
    · refine .inr ⟨List.cons_ne_nil _ _, op.level, ?_, by simp⟩
      revert power
      cases op <;> decide
  · simp only [areLinks, Bool.and_eq_true, decide_eq_true_eq, List.all_eq_true, beq_iff_eq]
      at linked
    exact .inr ⟨List.cons_ne_nil _ _, op.level, linked.1, List.forall_mem_cons.mpr ⟨rfl, linked.2⟩⟩

theorem Level.Folds.open_operand (folds : level.Folds) :
    level.tighter.tightness ≤ Level.call.tightness := by
  revert folds
  cases level <;> decide

theorem intValue_numberWord {n : Int64} (natural : 0 ≤ n) :
    (numberWord (.int n)).intValue = n := by
  rw [Token.intValue, numberWord, Scalar.text, readInt64?_int64Text natural]
  rfl

mutual

theorem Expr.derives_words : (expr : Expr) → expr.isWritable →
    Derives Enclosed expr.outermost expr.words (expr.relocate fun _ => 0)
  | .number (.int n) fixed pos, writable => by
      simp only [Expr.isWritable, Bool.and_eq_true, decide_eq_true_eq, Bool.not_eq_true']
        at writable
      rcases writable with ⟨natural, rfl⟩
      have literal : Derives Enclosed .primary [numberWord (.int n)] _ := .number rfl
      rw [intValue_numberWord natural] at literal
      have loose : Derives Enclosed .call _ _ := literal.loosen (by decide)
      exact loose
  | .name name pos, _ => by
      have word : Derives Enclosed .primary [nameWord name] _ := .name rfl
      have loose : Derives Enclosed .call _ _ := word.loosen (by decide)
      exact loose
  | .negate operand pos, writable => by
      simp only [Expr.isWritable] at writable
      have inner : Derives Enclosed .unary _ _ :=
        derives_enclose (operand.derives_words writable) (by decide)
      have negated : Derives Enclosed .unary (Kind.word (.operator .sub) :: _) _ :=
        .negate rfl inner
      exact negated.loosen (Nat.zero_le _)
  | .chain first links, writable => by
      simp only [Expr.isWritable, Bool.and_eq_true] at writable
      rcases writable with ⟨⟨begins, linked⟩, operands⟩
      have derives := first.derives_words begins
      rcases areLinks_cases linked with ⟨operand, pos, rfl⟩ | ⟨nonempty, level, folds, own⟩
      · simp only [linksWritable, Bool.and_true] at operands
        have left : Derives Enclosed .unary _ _ := derives_enclose derives (by decide)
        have right : Derives Enclosed .power _ _ :=
          derives_enclose (operand.derives_words operands) (by decide)
        have power : Derives Enclosed .power (_ ++ Kind.word (.operator .pow) :: _) _ :=
          .power left rfl right
        simp only [Expr.words, linksWords, List.append_nil, Expr.relocate, relocateLinks]
        exact power.loosen (Nat.zero_le _)
      · have left := derives_enclose derives folds.open_operand
        have others := linked_words folds links operands own
        have chain := Derives.fold folds left others (by simp [nonempty])
        exact chain.loosen (Nat.zero_le _)
  | .call name arguments pos, writable => by
      simp only [Expr.isWritable, Bool.and_eq_true] at writable
      have inner := commaList_separated (forall₂_words arguments writable.2)
      have call : Derives Enclosed .call ([nameWord name] ++ Kind.leftParen.word ::
          (_ ++ [Kind.rightParen.word])) _ :=
        .call (.name rfl) rfl inner rfl
      exact call

theorem linked_words {level : Level} (folds : level.Folds) : (links : List Link) →
    linksWritable links → (∀ link ∈ links, link.op.level = level) →
      Linked (Derives Enclosed) level (linksWords links) (relocateLinks (fun _ => 0) links)
  | [], _, _ => .nil
  | ⟨op, operand, pos⟩ :: links, writable, own => by
      simp only [linksWritable, Bool.and_eq_true] at writable
      rcases List.forall_mem_cons.mp own with ⟨rfl, own⟩
      have right := derives_enclose (operand.derives_words writable.1) folds.open_operand
      have others := linked_words folds links writable.2 own
      have linked : Linked (Derives Enclosed) op.level (Kind.word (.operator op) :: _) _ :=
        .cons rfl rfl right others
      exact linked

theorem forall₂_words : (exprs : List Expr) → exprsWritable exprs →
    List.Forall₂ (Derives Enclosed .comparison) (exprsWords exprs)
      (relocateExprs (fun _ => 0) exprs)
  | [], _ => .nil
  | expr :: exprs, writable => by
      simp only [exprsWritable, Bool.and_eq_true] at writable
      exact .cons ((expr.derives_words writable.1).loosen (Nat.zero_le _))
        (forall₂_words exprs writable.2)

end

end Expressions

section Statements

theorem Expr.stands_words {expr : Expr} (writable : expr.isWritable) :
    Level.comparison.Stands expr.words (expr.relocate fun _ => 0) :=
  ⟨(expr.derives_words writable).loosen (Nat.zero_le _),
    fun token member => (expr.written_words writable token member).reads⟩

theorem Statement.endsOpen_relocate (move : Nat → Nat) : (statement : Statement) →
    (statement.relocate move).endsOpen = statement.endsOpen
  | .ifElse _ _ alternative _ => by
      simp only [Statement.relocate, Statement.endsOpen]
      exact alternative.endsOpen_relocate move
  | .assign .. | .define _ | .block _ | .ifThen .. | .print .. | .reset _ | .expression _ => by
      simp only [Statement.relocate, Statement.endsOpen]

theorem declares_word (declared : Option NumberType) : Declares (declaringWord declared) declared := by
  cases declared with
  | none => exact .set rfl
  | some type => cases type <;> exact .type rfl rfl

theorem forall₂_names (params : List String) :
    List.Forall₂ Names (params.map ([nameWord ·])) params := by
  induction params with
  | nil => exact .nil
  | cons param params ih => exact .cons (.name rfl) ih

theorem bodyForm_separated {lists : List (List Token)} {statements : List Statement}
    (all : List.Forall₂ StatementForm lists statements) :
    BodyForm (separated .semicolon lists) statements := by
  induction all with
  | nil => exact .nil
  | @cons words first lists others form all ih =>
    have noGap : Separators [] := fun _ member => absurd member List.not_mem_nil
    have one : Separators [Kind.semicolon.word] := by simp [Separators, Kind.word, Kind.isSeparator]
    cases all with
    | nil =>
      have body := BodyForm.cons form noGap (.inl rfl) .nil
      rw [List.append_nil, List.append_nil] at body
      rwa [separated, List.intercalate_singleton]
    | cons =>
      rw [separated_cons (List.cons_ne_nil _ _)]
      exact .cons form one (.inr (.inl (List.cons_ne_nil _ _))) ih

mutual

theorem Statement.form_words : (statement : Statement) → statement.isWritable →
    StatementForm statement.words (statement.relocate fun _ => 0)
  | .assign name declared value pos, writable => by
      simp only [Statement.isWritable, Bool.and_eq_true] at writable
      have form : StatementForm (_ :: nameWord name :: Kind.assign.word :: _) _ :=
        .assign (declares_word declared) rfl rfl (Expr.stands_words writable.2)
      cases declared <;> exact form
  | .define definition, writable => by
      simp only [Statement.isWritable] at writable
      exact definition.form_words writable
  | .block body, writable => by
      simp only [Statement.isWritable] at writable
      exact .block (body.form_words writable)
  | .ifThen condition consequence pos, writable => by
      simp only [Statement.isWritable, Bool.and_eq_true] at writable
      have form : StatementForm (Kind.word (.keyword .ifWord) ::
          (_ ++ Kind.word (.keyword .thenWord) :: _)) _ :=
        .ifThen rfl (Expr.stands_words writable.1) rfl (consequence.form_words writable.2)
      exact form
  | .ifElse condition consequence alternative pos, writable => by
      simp only [Statement.isWritable, Bool.and_eq_true, Bool.not_eq_true'] at writable
      rcases writable with ⟨⟨⟨holds, first⟩, closed⟩, second⟩
      rw [← consequence.endsOpen_relocate] at closed
      have form : StatementForm (Kind.word (.keyword .ifWord) ::
          (_ ++ Kind.word (.keyword .thenWord) ::
            (_ ++ Kind.word (.keyword .elseWord) :: _))) _ :=
        .ifElse rfl (Expr.stands_words holds) rfl (consequence.form_words first) closed rfl
          (alternative.form_words second)
      exact form
  | .print value pos, writable => by
      simp only [Statement.isWritable] at writable
      have form : StatementForm (Kind.word (.keyword .printWord) :: _) _ :=
        .print rfl (Expr.stands_words writable)
      exact form
  | .reset pos, _ => by
      have form : StatementForm [Kind.word (.keyword .resetWord)] _ := .reset rfl
      exact form
  | .expression value, writable => by
      simp only [Statement.isWritable] at writable
      exact .expression (Expr.stands_words writable)

theorem Block.form_words : (body : Block) → body.isWritable →
    BlockForm body.words (body.relocate fun _ => 0)
  | ⟨statements, pos⟩, writable => by
      simp only [Block.isWritable] at writable
      have body := bodyForm_separated (forall₂_forms statements writable)
      have form : BlockForm (Kind.leftBrace.word :: ([] ++ (_ ++ [Kind.rightBrace.word]))) _ :=
        .braces rfl (fun _ member => absurd member List.not_mem_nil) body rfl
      exact form

theorem Definition.form_words : (definition : Definition) → definition.isWritable →
    StatementForm definition.words (.define (definition.relocate fun _ => 0))
  | ⟨name, params, body, pos⟩, writable => by
      simp only [Definition.isWritable, Bool.and_eq_true] at writable
      have names := commaList_separated (forall₂_names params)
      have form : StatementForm (Kind.word (.keyword .funcWord) :: nameWord name ::
          Kind.leftParen.word :: (_ ++ Kind.rightParen.word :: _)) _ :=
        .define rfl rfl rfl names rfl (body.form_words writable.2)
      exact form

theorem forall₂_forms : (statements : List Statement) → statementsWritable statements →
    List.Forall₂ StatementForm (statementsWords statements)
      (relocateStatements (fun _ => 0) statements)
  | [], _ => .nil
  | statement :: statements, writable => by
      simp only [statementsWritable, Bool.and_eq_true] at writable
      exact .cons (statement.form_words writable.1) (forall₂_forms statements writable.2)

end

theorem Program.form_words {program : Program} (writable : program.isWritable) :
    ProgramForm program.words program.placeless := by
  have body := bodyForm_separated (forall₂_forms program writable)
  exact ⟨[], _, rfl, fun _ member => absurd member List.not_mem_nil, body⟩

end Statements

end Calculator
