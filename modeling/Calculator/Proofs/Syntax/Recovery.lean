import Calculator.Proofs.Syntax.Outlines

/-!
Programs recovered from their outlines. The lines of an expression or of a statement, with others
behind them that stand no further in, decide the tree up to positions, and where its own lines end.
-/

namespace Calculator

def nowhere (_ : Nat) : Nat := 0

/-- The lines that come next stand no further in than this. -/
def Outdents (depth : Nat) (lines : List OutlineLine) : Prop :=
  ∀ line ∈ lines.head?, line.depth ≤ depth

/-- They do not begin with the alternative of a condition at this depth either. -/
structure Resumes (depth : Nat) (lines : List OutlineLine) : Prop where
  outdents : Outdents depth lines
  other : ∀ line ∈ lines.head?, line ≠ Heading.line depth (.plain .alternative)

theorem Outdents.deeper {depth : Nat} {lines : List OutlineLine} (outdents : Outdents depth lines) :
    Outdents (depth + 1) lines :=
  fun line first => Nat.le_succ_of_le (outdents line first)

theorem outdents_line (heading : Heading) (depth : Nat) (lines : List OutlineLine) :
    Outdents depth (heading.line depth :: lines) := by
  rintro line ⟨⟩
  exact Nat.le_refl depth

theorem Outdents.ne_line {depth : Nat} {lines rest : List OutlineLine}
    (outdents : Outdents depth rest) (heading : Heading) :
    rest ≠ heading.line (depth + 1) :: lines := by
  rintro rfl
  exact absurd (outdents _ rfl) (Nat.not_succ_le_self depth)

section Expressions

variable {depth : Nat} {rest rest' : List OutlineLine}

theorem Expr.heading_unique {expr expr' : Expr} (proper : expr.isProper)
    (proper' : expr'.isProper)
    (same : expr.outline depth ++ rest = expr'.outline depth ++ rest') :
    expr.heading = expr'.heading ∧ expr.inner depth ++ rest = expr'.inner depth ++ rest' := by
  rw [outline_eq, outline_eq, List.cons_append, List.cons_append] at same
  obtain ⟨first, others⟩ := List.cons.inj same
  have headings := expr.heading_proper proper
  have headings' := expr'.heading_proper proper'
  exact ⟨(Heading.line_inj headings headings' first).2, others⟩

theorem outdents_exprs (exprs : List Expr) (outdents : Outdents depth rest) :
    Outdents (depth + 1) (outlineExprs (depth + 1) exprs ++ rest) := by
  cases exprs with
  | nil => exact outdents.deeper
  | cons expr exprs =>
    rw [outlineExprs, expr.outline_eq, List.cons_append, List.cons_append]
    exact outdents_line _ _ _

theorem outdents_links (links : List Link) (outdents : Outdents depth rest) :
    Outdents (depth + 1) (outlineLinks (depth + 1) links ++ rest) := by
  obtain _ | ⟨⟨op, operand, pos⟩, links⟩ := links
  · exact outdents.deeper
  · rw [outlineLinks]
    exact outdents_line (.plain (.operator op)) _ _

end Expressions

mutual

theorem Expr.outline_unique {depth : Nat} {rest rest' : List OutlineLine}
    (outdents : Outdents depth rest) (outdents' : Outdents depth rest') :
    (expr expr' : Expr) → expr.isProper → expr'.isProper →
      expr.outline depth ++ rest = expr'.outline depth ++ rest' →
      expr.relocate nowhere = expr'.relocate nowhere ∧ rest = rest'
  -- Recursion on the first of the trees. The other one is of the same kind by its heading.
  | .number value fixed pos, expr', proper, proper', same => by
      obtain ⟨heading, behind⟩ := Expr.heading_unique proper proper' same
      cases expr' with
      | number value' fixed' pos' =>
        obtain ⟨rfl, rfl⟩ := Heading.number.inj heading
        exact ⟨rfl, behind⟩
      | _ => cases heading
  | .name name pos, expr', proper, proper', same => by
      obtain ⟨heading, behind⟩ := Expr.heading_unique proper proper' same
      cases expr' with
      | name name' pos' =>
        obtain rfl := Heading.identifier.inj heading
        exact ⟨rfl, behind⟩
      | _ => cases heading
  | .negate operand pos, expr', proper, proper', same => by
      obtain ⟨heading, behind⟩ := Expr.heading_unique proper proper' same
      cases expr' with
      | negate operand' pos' =>
        rw [Expr.isProper] at proper proper'
        obtain ⟨operands, ended⟩ := Expr.outline_unique outdents.deeper outdents'.deeper operand
          operand' proper proper' behind
        exact ⟨by simp only [Expr.relocate, operands, nowhere], ended⟩
      | _ => cases heading
  | .chain first links, expr', proper, proper', same => by
      obtain ⟨heading, behind⟩ := Expr.heading_unique proper proper' same
      cases expr' with
      | chain first' links' =>
        rw [Expr.isProper, Bool.and_eq_true] at proper proper'
        rw [Expr.inner, Expr.inner, List.append_assoc, List.append_assoc] at behind
        obtain ⟨firsts, behind⟩ := Expr.outline_unique (outdents_links links outdents)
          (outdents_links links' outdents') first first' proper.1 proper'.1 behind
        obtain ⟨others, ended⟩ := outlineLinks_unique outdents outdents' links links' proper.2
          proper'.2 behind
        exact ⟨by simp only [Expr.relocate, firsts, others], ended⟩
      | _ => cases heading
  | .call name arguments pos, expr', proper, proper', same => by
      obtain ⟨heading, behind⟩ := Expr.heading_unique proper proper' same
      cases expr' with
      | call name' arguments' pos' =>
        obtain rfl := Heading.call.inj heading
        rw [Expr.isProper, Bool.and_eq_true] at proper proper'
        obtain ⟨exprs, ended⟩ := outlineExprs_unique outdents outdents' arguments arguments'
          proper.2 proper'.2 behind
        exact ⟨by simp only [Expr.relocate, exprs, nowhere], ended⟩
      | _ => cases heading

theorem outlineLinks_unique {depth : Nat} {rest rest' : List OutlineLine}
    (outdents : Outdents depth rest) (outdents' : Outdents depth rest') :
    (links links' : List Link) → linksProper links → linksProper links' →
      outlineLinks (depth + 1) links ++ rest = outlineLinks (depth + 1) links' ++ rest' →
      relocateLinks nowhere links = relocateLinks nowhere links' ∧ rest = rest'
  | [], [], _, _, same => ⟨rfl, same⟩
  | [], ⟨op, _, _⟩ :: _, _, _, same => by
      rw [outlineLinks, outlineLinks] at same
      exact absurd same (outdents.ne_line (.plain (.operator op)))
  | ⟨op, _, _⟩ :: _, [], _, _, same => by
      rw [outlineLinks, outlineLinks] at same
      exact absurd same.symm (outdents'.ne_line (.plain (.operator op)))
  | ⟨op, operand, pos⟩ :: links, ⟨op', operand', pos'⟩ :: links', proper, proper', same => by
      rw [linksProper, Bool.and_eq_true] at proper proper'
      rw [outlineLinks, outlineLinks, List.append_assoc, List.append_assoc, List.cons_append,
        List.cons_append] at same
      obtain ⟨first, behind⟩ := List.cons.inj same
      obtain ⟨_, heading⟩ := @Heading.line_inj (.plain (.operator op)) (.plain (.operator op')) _ _
        rfl rfl first
      cases heading
      obtain ⟨operands, behind⟩ := Expr.outline_unique (outdents_links links outdents).deeper
        (outdents_links links' outdents').deeper operand operand' proper.1 proper'.1 behind
      obtain ⟨others, ended⟩ := outlineLinks_unique outdents outdents' links links' proper.2
        proper'.2 behind
      exact ⟨by simp only [relocateLinks, operands, others, nowhere], ended⟩

theorem outlineExprs_unique {depth : Nat} {rest rest' : List OutlineLine}
    (outdents : Outdents depth rest) (outdents' : Outdents depth rest') :
    (exprs exprs' : List Expr) → exprsProper exprs → exprsProper exprs' →
      outlineExprs (depth + 1) exprs ++ rest = outlineExprs (depth + 1) exprs' ++ rest' →
      relocateExprs nowhere exprs = relocateExprs nowhere exprs' ∧ rest = rest'
  | [], [], _, _, same => ⟨rfl, same⟩
  | [], expr' :: _, _, _, same => by
      rw [outlineExprs, outlineExprs, expr'.outline_eq] at same
      exact absurd same (outdents.ne_line expr'.heading)
  | expr :: _, [], _, _, same => by
      rw [outlineExprs, outlineExprs, expr.outline_eq] at same
      exact absurd same.symm (outdents'.ne_line expr.heading)
  | expr :: exprs, expr' :: exprs', proper, proper', same => by
      rw [exprsProper, Bool.and_eq_true] at proper proper'
      rw [outlineExprs, outlineExprs, List.append_assoc, List.append_assoc] at same
      obtain ⟨first, behind⟩ := Expr.outline_unique (outdents_exprs exprs outdents)
        (outdents_exprs exprs' outdents') expr expr' proper.1 proper'.1 same
      obtain ⟨others, ended⟩ := outlineExprs_unique outdents outdents' exprs exprs' proper.2
        proper'.2 behind
      exact ⟨by simp only [relocateExprs, first, others], ended⟩

end

section Statements

variable {depth : Nat} {rest rest' : List OutlineLine}

theorem Statement.heading_unique {statement statement' : Statement} (proper : statement.isProper)
    (proper' : statement'.isProper)
    (same : statement.outline depth ++ rest = statement'.outline depth ++ rest') :
    statement.heading = statement'.heading ∧
      statement.inner depth ++ rest = statement'.inner depth ++ rest' := by
  rw [outline_eq, outline_eq, List.cons_append, List.cons_append] at same
  obtain ⟨first, others⟩ := List.cons.inj same
  exact ⟨(Heading.line_inj (heading_proper proper) (heading_proper proper') first).2, others⟩

/-- No statement begins like an alternative. -/
theorem Statement.heading_ne (statement : Statement) :
    statement.heading ≠ .plain .alternative := by
  intro same
  cases statement with
  | expression value => cases value <;> cases same
  | _ => cases same

theorem Outdents.resumes (outdents : Outdents depth rest) : Resumes (depth + 1) rest where
  outdents := outdents.deeper
  other := by
    rintro _ first rfl
    exact absurd (outdents _ first) (Nat.not_succ_le_self depth)

theorem resumes_statements (statements : List Statement) (proper : statementsProper statements)
    (outdents : Outdents depth rest) :
    Resumes (depth + 1) (outlineStatements (depth + 1) statements ++ rest) := by
  cases statements with
  | nil => exact outdents.resumes
  | cons statement statements =>
    rw [statementsProper, Bool.and_eq_true] at proper
    rw [outlineStatements, statement.outline_eq, List.cons_append, List.cons_append]
    refine ⟨outdents_line _ _ _, ?_⟩
    rintro _ ⟨⟩ same
    have headings := Heading.line_inj (statement.heading_proper proper.1) rfl same
    exact statement.heading_ne headings.2

theorem Resumes.ne_alternative {lines : List OutlineLine} (resumes : Resumes depth rest) :
    rest ≠ Heading.line depth (.plain .alternative) :: lines := by
  rintro rfl
  exact resumes.other _ rfl rfl

/-- With other lines behind it that stand no further in, and begin with no alternative that it could
take, the statement is known from its lines, and where they end. -/
def Statement.IsRecovered (depth : Nat) (statement : Statement) : Prop :=
  ∀ {rest rest' : List OutlineLine}, Resumes depth rest → Resumes depth rest' →
    ∀ statement' : Statement, statement.isProper → statement'.isProper →
      statement.outline depth ++ rest = statement'.outline depth ++ rest' →
      statement.relocate nowhere = statement'.relocate nowhere ∧ rest = rest'

end Statements

/-! Conditions with an alternative and those without one have the same heading. -/

section Conditions

variable {depth : Nat} {rest rest' : List OutlineLine}

namespace Statement

def conditional (condition : Expr) (consequence : Statement) (pos : Nat) :
    Option Statement → Statement
  | none => .ifThen condition consequence pos
  | some alternative => .ifElse condition consequence alternative pos

def alternativeLines (depth : Nat) : Option Statement → List OutlineLine
  | none => []
  | some alternative =>
      Heading.line depth (.plain .alternative) :: alternative.outline (depth + 1)

variable {condition condition' : Expr} {consequence consequence' : Statement}
  {pos pos' : Nat} {alternative alternative' : Option Statement}

theorem exists_conditional {statement : Statement}
    (heading : statement.heading = .plain .condition) :
    ∃ condition consequence pos alternative,
      statement = conditional condition consequence pos alternative := by
  cases statement with
  | ifThen condition consequence pos => exact ⟨condition, consequence, pos, none, rfl⟩
  | ifElse condition consequence alternative pos =>
    exact ⟨condition, consequence, pos, some alternative, rfl⟩
  | expression value => cases value <;> cases heading
  | _ => cases heading

theorem isProper_conditional :
    (conditional condition consequence pos alternative).isProper ↔
      condition.isProper ∧ consequence.isProper ∧ ∀ other ∈ alternative, other.isProper := by
  cases alternative with
  | none => simp [conditional, isProper]
  | some alternative => simp [conditional, isProper, and_assoc]

theorem inner_conditional :
    (conditional condition consequence pos alternative).inner depth ++ rest =
      condition.outline (depth + 1) ++ Heading.line depth (.plain .consequence) ::
        (consequence.outline (depth + 1) ++ (alternativeLines depth alternative ++ rest)) := by
  cases alternative <;> simp [conditional, alternativeLines, inner]

theorem relocate_conditional :
    (conditional condition consequence pos alternative).relocate nowhere =
      conditional (condition.relocate nowhere) (consequence.relocate nowhere) 0
        (alternative.map (relocate nowhere)) := by
  cases alternative <;> simp only [conditional, relocate, nowhere, Option.map_none, Option.map_some]

theorem resumes_alternative (resumes : Resumes depth rest) :
    Resumes (depth + 1) (alternativeLines depth alternative ++ rest) := by
  cases alternative with
  | none => exact resumes.outdents.resumes
  | some alternative => exact (outdents_line _ _ _).resumes

/-- An alternative on one side only would have to be part of what comes behind on the other. -/
theorem alternative_unique (resumes : Resumes depth rest) (resumes' : Resumes depth rest')
    (recovered : alternative.elim True (IsRecovered (depth + 1)))
    (proper : ∀ other ∈ alternative, other.isProper)
    (proper' : ∀ other ∈ alternative', other.isProper)
    (same : alternativeLines depth alternative ++ rest =
      alternativeLines depth alternative' ++ rest') :
    alternative.map (relocate nowhere) = alternative'.map (relocate nowhere) ∧ rest = rest' := by
  cases alternative with
  | none =>
    cases alternative' with
    | none => exact ⟨rfl, same⟩
    | some other => exact absurd same resumes.ne_alternative
  | some alternative =>
    cases alternative' with
    | none => exact absurd same.symm resumes'.ne_alternative
    | some other =>
      obtain ⟨alternatives, ended⟩ := recovered resumes.outdents.resumes resumes'.outdents.resumes
        other (proper _ rfl) (proper' _ rfl) (List.cons.inj same).2
      exact ⟨congrArg some alternatives, ended⟩

theorem isRecovered_conditional (alternative : Option Statement)
    (recovered : consequence.IsRecovered (depth + 1))
    (others : alternative.elim True (IsRecovered (depth + 1))) :
    (conditional condition consequence pos alternative).IsRecovered depth := by
  intro rest rest' resumes resumes' statement' proper proper' same
  obtain ⟨heading, behind⟩ := heading_unique proper proper' same
  obtain ⟨condition', consequence', pos', alternative', rfl⟩ :=
    exists_conditional (heading.symm.trans (by cases alternative <;> rfl))
  rw [inner_conditional, inner_conditional] at behind
  rw [isProper_conditional] at proper proper'
  -- The lines fall apart into condition, consequence, alternative and what comes behind.
  obtain ⟨conditions, behind⟩ := Expr.outline_unique (outdents_line _ depth _).deeper
    (outdents_line _ depth _).deeper condition condition' proper.1 proper'.1 behind
  obtain ⟨consequences, behind⟩ := recovered (resumes_alternative resumes)
    (resumes_alternative resumes') consequence' proper.2.1 proper'.2.1 (List.cons.inj behind).2
  obtain ⟨alternatives, ended⟩ := alternative_unique resumes resumes' others proper.2.2 proper'.2.2
    behind
  exact ⟨by simp only [relocate_conditional, conditions, consequences, alternatives], ended⟩

end Statement

end Conditions

mutual

theorem Statement.outline_unique {depth : Nat} {rest rest' : List OutlineLine}
    (resumes : Resumes depth rest) (resumes' : Resumes depth rest') :
    (statement statement' : Statement) → statement.isProper → statement'.isProper →
      statement.outline depth ++ rest = statement'.outline depth ++ rest' →
      statement.relocate nowhere = statement'.relocate nowhere ∧ rest = rest'
  | .assign name declared value pos, statement', proper, proper', same => by
      obtain ⟨heading, behind⟩ := Statement.heading_unique proper proper' same
      cases statement' with
      | assign name' declared' value' pos' =>
        obtain ⟨rfl, rfl⟩ := Heading.assign.inj heading
        rw [Statement.isProper, Bool.and_eq_true] at proper proper'
        obtain ⟨values, ended⟩ := Expr.outline_unique resumes.outdents.deeper
          resumes'.outdents.deeper value value' proper.2 proper'.2 behind
        exact ⟨by simp only [Statement.relocate, values, nowhere], ended⟩
      | expression value' => cases value' <;> cases heading
      | _ => cases heading
  | .define ⟨name, params, body, pos⟩, statement', proper, proper', same => by
      obtain ⟨heading, behind⟩ := Statement.heading_unique proper proper' same
      cases statement' with
      | define definition' =>
        obtain ⟨name', params', body', pos'⟩ := definition'
        obtain ⟨rfl, rfl⟩ := Heading.define.inj heading
        rw [Statement.isProper, Definition.isProper, Bool.and_eq_true] at proper proper'
        obtain ⟨bodies, ended⟩ := Block.outline_unique resumes.outdents.deeper
          resumes'.outdents.deeper body body' proper.2 proper'.2 behind
        exact ⟨by simp only [Statement.relocate, Definition.relocate, bodies, nowhere], ended⟩
      | expression value' => cases value' <;> cases heading
      | _ => cases heading
  | .block body, statement', proper, proper', same => by
      obtain ⟨heading, _⟩ := Statement.heading_unique proper proper' same
      cases statement' with
      | block body' =>
        -- The block has this heading itself, so the lines are taken as they were.
        rw [Statement.isProper] at proper proper'
        rw [Statement.outline, Statement.outline] at same
        obtain ⟨bodies, ended⟩ := Block.outline_unique resumes.outdents resumes'.outdents body body'
          proper proper' same
        exact ⟨by simp only [Statement.relocate, bodies], ended⟩
      | expression value' => cases value' <;> cases heading
      | _ => cases heading
  | .ifThen _ consequence _, statement', proper, proper', same =>
      Statement.isRecovered_conditional none (Statement.outline_unique · · consequence) trivial
        resumes resumes' statement' proper proper' same
  | .ifElse _ consequence alternative _, statement', proper, proper', same =>
      Statement.isRecovered_conditional (some alternative)
        (Statement.outline_unique · · consequence) (Statement.outline_unique · · alternative)
        resumes resumes' statement' proper proper' same
  | .print value pos, statement', proper, proper', same => by
      obtain ⟨heading, behind⟩ := Statement.heading_unique proper proper' same
      cases statement' with
      | print value' pos' =>
        rw [Statement.isProper] at proper proper'
        obtain ⟨values, ended⟩ := Expr.outline_unique resumes.outdents.deeper
          resumes'.outdents.deeper value value' proper proper' behind
        exact ⟨by simp only [Statement.relocate, values, nowhere], ended⟩
      | expression value' => cases value' <;> cases heading
      | _ => cases heading
  | .reset pos, statement', proper, proper', same => by
      obtain ⟨heading, behind⟩ := Statement.heading_unique proper proper' same
      cases statement' with
      | reset pos' => exact ⟨rfl, behind⟩
      | expression value' => cases value' <;> cases heading
      | _ => cases heading
  | .expression value, statement', proper, proper', same => by
      obtain ⟨heading, behind⟩ := Statement.heading_unique proper proper' same
      cases statement' with
      | expression value' =>
        rw [Statement.isProper] at proper proper'
        rw [Statement.outline, Statement.outline] at same
        obtain ⟨values, ended⟩ := Expr.outline_unique resumes.outdents resumes'.outdents value value'
          proper proper' same
        exact ⟨by simp only [Statement.relocate, values], ended⟩
      | _ => cases value <;> cases heading

theorem Block.outline_unique {depth : Nat} {rest rest' : List OutlineLine}
    (outdents : Outdents depth rest) (outdents' : Outdents depth rest') :
    (body body' : Block) → body.isProper → body'.isProper →
      body.outline depth ++ rest = body'.outline depth ++ rest' →
      body.relocate nowhere = body'.relocate nowhere ∧ rest = rest'
  | ⟨statements, pos⟩, ⟨statements', pos'⟩, proper, proper', same => by
      rw [Block.isProper] at proper proper'
      rw [Block.outline, Block.outline, List.cons_append, List.cons_append] at same
      obtain ⟨all, ended⟩ := outlineStatements_unique outdents outdents' statements statements'
        proper proper' (List.cons.inj same).2
      exact ⟨by simp only [Block.relocate, all, nowhere], ended⟩

theorem outlineStatements_unique {depth : Nat} {rest rest' : List OutlineLine}
    (outdents : Outdents depth rest) (outdents' : Outdents depth rest') :
    (statements statements' : List Statement) → statementsProper statements →
      statementsProper statements' →
      outlineStatements (depth + 1) statements ++ rest =
        outlineStatements (depth + 1) statements' ++ rest' →
      relocateStatements nowhere statements = relocateStatements nowhere statements' ∧ rest = rest'
  | [], [], _, _, same => ⟨rfl, same⟩
  | [], statement' :: _, _, _, same => by
      rw [outlineStatements, outlineStatements, statement'.outline_eq] at same
      exact absurd same (outdents.ne_line statement'.heading)
  | statement :: _, [], _, _, same => by
      rw [outlineStatements, outlineStatements, statement.outline_eq] at same
      exact absurd same.symm (outdents'.ne_line statement.heading)
  | statement :: statements, statement' :: statements', proper, proper', same => by
      rw [statementsProper, Bool.and_eq_true] at proper proper'
      rw [outlineStatements, outlineStatements, List.append_assoc, List.append_assoc] at same
      obtain ⟨first, behind⟩ := Statement.outline_unique
        (resumes_statements statements proper.2 outdents)
        (resumes_statements statements' proper'.2 outdents') statement statement' proper.1 proper'.1
        same
      obtain ⟨others, ended⟩ := outlineStatements_unique outdents outdents' statements statements'
        proper.2 proper'.2 behind
      exact ⟨by simp only [relocateStatements, first, others], ended⟩

end

namespace Program

def isProper (program : Program) : Bool := statementsProper program

theorem isPlain_outline {program : Program} (proper : program.isProper) :
    ∀ line ∈ program.outline, line.IsPlain := by
  rw [outline, List.forall_mem_cons]
  exact ⟨Caption.program.isPlain_line 0, isPlain_outlineStatements 1 program proper⟩

end Program

/-- Nothing but positions is lost where a program is written as an outline. -/
theorem outlineText_determines {program program' : Program} (proper : program.isProper)
    (proper' : program'.isProper) (same : program.outlineText = program'.outlineText) :
    program.placeless = program'.placeless := by
  have lines := lines_unique (Program.isPlain_outline proper) (Program.isPlain_outline proper') same
  have statements : outlineStatements 1 program ++ [] = outlineStatements 1 program' ++ [] :=
    congrArg (· ++ []) (List.cons.inj lines).2
  have ended : Outdents 0 [] := fun _ first => nomatch first
  exact (outlineStatements_unique ended ended program program' proper proper' statements).1

def branchingProgram : Program :=
  [.ifElse (.chain (.name "rate" 3) [⟨.less, .number (.float 0.5) true 10, 8⟩])
    (.assign "rate" (some .float) (.negate (.call "next" [.name "rate" 36] 31) 30) 19)
    (.block ⟨[.print (.number (.int 7) false 56) 50, .reset 59], 48⟩) 0]

theorem shifted_branchingProgram_determined :
    branchingProgram.isProper ∧ (branchingProgram.shift 2).isProper ∧
      branchingProgram.outlineText = (branchingProgram.shift 2).outlineText ∧
      branchingProgram.placeless = (branchingProgram.shift 2).placeless := by
  have proper : branchingProgram.isProper := by decide +kernel
  have proper' : (branchingProgram.shift 2).isProper := by decide +kernel
  have same : branchingProgram.outlineText = (branchingProgram.shift 2).outlineText := by
    decide +kernel
  exact ⟨proper, proper', same, outlineText_determines proper proper' same⟩

end Calculator
