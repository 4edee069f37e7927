import Calculator.Proofs.Syntax.Headings

/-!
The lines of outlines. A node has its heading on the first line and what is below it on the others.
If its names and literals are proper, these lines can be told apart in a text.
-/

namespace Calculator

/-- A label that fits on a line and does not begin with a blank. -/
structure OutlineLine.IsPlain (line : OutlineLine) : Prop where
  unbroken : line.label.toList.all (· != '\n')
  begins : line.label.toList.head?.all (· != ' ')

section Texts

namespace OutlineLine

variable {depth : Nat} {label : String}

theorem IsPlain.spans_blanks (plain : IsPlain ⟨depth, label⟩) (rest : String) :
    Spans (· == ' ') (String.ofList (List.replicate (2 * depth) ' ')) (label ++ ("\n" ++ rest)) where
  all := by
    rw [String.toList_ofList, List.all_replicate]
    simp
  stops := by
    have begins := plain.begins
    rw [String.toList_append, String.toList_append]
    cases text : label.toList with
    | nil => rfl
    | cons first tail =>
      rw [text] at begins
      exact begins

theorem IsPlain.spans_label (plain : IsPlain ⟨depth, label⟩) (rest : String) :
    Spans (· != '\n') label ("\n" ++ rest) where
  all := plain.unbroken
  stops := by
    rw [String.toList_append]
    rfl

theorem text_unique {line line' : OutlineLine} {rest rest' : String} (plain : line.IsPlain)
    (plain' : line'.IsPlain) (same : line.text ++ rest = line'.text ++ rest') :
    line = line' ∧ rest = rest' := by
  obtain ⟨depth, label⟩ := line
  obtain ⟨depth', label'⟩ := line'
  simp only [text, String.append_assoc] at same
  obtain ⟨blanks, behind⟩ := (plain.spans_blanks rest).unique (plain'.spans_blanks rest') same
  obtain ⟨rfl, ended⟩ := (plain.spans_label rest).unique (plain'.spans_label rest') behind
  have depths := congrArg List.length (String.ofList_inj.mp blanks)
  rw [List.length_replicate, List.length_replicate] at depths
  obtain rfl : depth = depth' := by omega
  exact ⟨rfl, (String.append_right_inj "\n").mp ended⟩

theorem text_append_ne (line : OutlineLine) (rest : String) : "" ≠ line.text ++ rest := by
  intro empty
  have characters := congrArg String.toList empty
  simp [text] at characters

end OutlineLine

theorem lines_unique {lines lines' : List OutlineLine} (plain : ∀ line ∈ lines, line.IsPlain)
    (plain' : ∀ line ∈ lines', line.IsPlain)
    (same : String.join (lines.map OutlineLine.text) = String.join (lines'.map OutlineLine.text)) :
    lines = lines' := by
  -- Every line has its break, so that none is lost.
  induction lines generalizing lines' with
  | nil =>
    cases lines' with
    | nil => rfl
    | cons line' lines' =>
      rw [List.map_cons, String.join_cons] at same
      exact absurd same (line'.text_append_ne _)
  | cons line lines ih =>
    obtain ⟨first, others⟩ := List.forall_mem_cons.mp plain
    cases lines' with
    | nil =>
      rw [List.map_cons, String.join_cons] at same
      exact absurd same.symm (line.text_append_ne _)
    | cons line' lines' =>
      obtain ⟨first', others'⟩ := List.forall_mem_cons.mp plain'
      rw [List.map_cons, List.map_cons, String.join_cons, String.join_cons] at same
      obtain ⟨rfl, rest⟩ := OutlineLine.text_unique first first' same
      rw [ih others others' rest]

end Texts

section Proper

mutual

def Expr.isProper : Expr → Bool
  | .number value _ _ => !value.isNaN
  | .name name _ => isName name
  | .negate operand _ => operand.isProper
  | .chain first links => first.isProper && linksProper links
  | .call name arguments _ => isName name && exprsProper arguments

def linksProper : List Link → Bool
  | [] => true
  | ⟨_, operand, _⟩ :: links => operand.isProper && linksProper links

def exprsProper : List Expr → Bool
  | [] => true
  | expr :: exprs => expr.isProper && exprsProper exprs

end

mutual

def Statement.isProper : Statement → Bool
  | .assign name _ value _ => isName name && value.isProper
  | .define definition => definition.isProper
  | .block body => body.isProper
  | .ifThen condition consequence _ => condition.isProper && consequence.isProper
  | .ifElse condition consequence alternative _ =>
      condition.isProper && consequence.isProper && alternative.isProper
  | .print value _ => value.isProper
  | .reset _ => true
  | .expression value => value.isProper

def Block.isProper : Block → Bool
  | ⟨statements, _⟩ => statementsProper statements

def Definition.isProper : Definition → Bool
  | ⟨name, params, body, _⟩ => isName name && params.all isName && body.isProper

def statementsProper : List Statement → Bool
  | [] => true
  | statement :: statements => statement.isProper && statementsProper statements

end

end Proper

/-! The first line of a node is its heading, the others stand further in. -/

section Lines

def Heading.line (depth : Nat) (heading : Heading) : OutlineLine := ⟨depth, heading.label⟩

theorem Heading.line_inj {heading heading' : Heading} {depth depth' : Nat}
    (proper : heading.isProper) (proper' : heading'.isProper)
    (same : heading.line depth = heading'.line depth') : depth = depth' ∧ heading = heading' := by
  obtain ⟨depths, labels⟩ := OutlineLine.mk.inj same
  exact ⟨depths, label_inj proper proper' labels⟩

theorem Heading.isPlain_line {heading : Heading} (proper : heading.isProper) (depth : Nat) :
    (heading.line depth).IsPlain :=
  ⟨(label_in_line proper).1, (label_in_line proper).2⟩

variable (depth : Nat)

def Expr.heading : Expr → Heading
  | .number value fixed _ => .number value fixed
  | .name word _ => .identifier word
  | .negate .. => .plain .negate
  | .chain .. => .plain .chain
  | .call word _ _ => .call word

def Expr.inner : Expr → List OutlineLine
  | .number .. | .name .. => []
  | .negate operand _ => operand.outline (depth + 1)
  | .chain first links => first.outline (depth + 1) ++ outlineLinks (depth + 1) links
  | .call _ arguments _ => outlineExprs (depth + 1) arguments

theorem Expr.outline_eq (expr : Expr) :
    expr.outline depth = expr.heading.line depth :: expr.inner depth := by
  cases expr <;> simp only [Expr.outline, Expr.inner] <;> rfl

theorem Expr.heading_proper {expr : Expr} (proper : expr.isProper) : expr.heading.isProper := by
  cases expr with
  | number value fixed pos | name word pos =>
    rw [Expr.isProper] at proper
    exact proper
  | call name arguments pos =>
    rw [Expr.isProper] at proper
    exact (Bool.and_eq_true_iff.mp proper).1
  | _ => rfl

namespace Statement

def heading : Statement → Heading
  | assign name declared _ _ => .assign name declared
  | define definition => .define definition.name definition.params
  | block _ => .plain .block
  | ifThen .. | ifElse .. => .plain .condition
  | print .. => .plain .print
  | reset _ => .plain .reset
  | expression value => value.heading

def inner : Statement → List OutlineLine
  | assign _ _ value _ | print value _ => value.outline (depth + 1)
  | define definition => definition.body.outline (depth + 1)
  | block body => outlineStatements (depth + 1) body.statements
  | ifThen condition consequence _ =>
      condition.outline (depth + 1) ++
        Heading.line depth (.plain .consequence) :: consequence.outline (depth + 1)
  | ifElse condition consequence alternative _ =>
      condition.outline (depth + 1) ++
        (Heading.line depth (.plain .consequence) :: consequence.outline (depth + 1) ++
          Heading.line depth (.plain .alternative) :: alternative.outline (depth + 1))
  | reset _ => []
  | expression value => value.inner depth

theorem outline_eq (statement : Statement) :
    statement.outline depth = statement.heading.line depth :: statement.inner depth := by
  cases statement with
  | define definition =>
    obtain ⟨name, params, body, pos⟩ := definition
    simp only [outline, Definition.outline, inner]
    rfl
  | block body =>
    obtain ⟨statements, pos⟩ := body
    simp only [outline, Block.outline, inner]
    rfl
  | ifElse condition consequence alternative pos =>
    simp only [outline, inner, List.append_assoc]
    rfl
  | expression value =>
    rw [outline, inner]
    exact value.outline_eq depth
  | _ =>
    simp only [outline, inner]
    rfl

theorem heading_proper {statement : Statement} (proper : statement.isProper) :
    statement.heading.isProper := by
  cases statement with
  | assign name declared value pos =>
    rw [isProper] at proper
    exact (Bool.and_eq_true_iff.mp proper).1
  | define definition =>
    obtain ⟨name, params, body, pos⟩ := definition
    rw [isProper, Definition.isProper] at proper
    exact (Bool.and_eq_true_iff.mp proper).1
  | expression value =>
    rw [isProper] at proper
    exact value.heading_proper proper
  | _ => rfl

end Statement

end Lines

section Plain

theorem Expr.isPlain_of_inner {expr : Expr} {depth : Nat} (proper : expr.isProper)
    (inner : ∀ line ∈ expr.inner depth, line.IsPlain) :
    ∀ line ∈ expr.outline depth, line.IsPlain := by
  rw [expr.outline_eq depth, List.forall_mem_cons]
  exact ⟨Heading.isPlain_line (expr.heading_proper proper) depth, inner⟩

theorem Statement.isPlain_of_inner {statement : Statement} {depth : Nat}
    (proper : statement.isProper) (inner : ∀ line ∈ statement.inner depth, line.IsPlain) :
    ∀ line ∈ statement.outline depth, line.IsPlain := by
  rw [statement.outline_eq depth, List.forall_mem_cons]
  exact ⟨Heading.isPlain_line (heading_proper proper) depth, inner⟩

theorem Caption.isPlain_line (caption : Caption) (depth : Nat) :
    (Heading.line depth (.plain caption)).IsPlain :=
  Heading.isPlain_line rfl depth

mutual

theorem Expr.isPlain_outline (depth : Nat) : (expr : Expr) → expr.isProper →
    ∀ line ∈ expr.outline depth, line.IsPlain
  | .number .., proper | .name .., proper =>
      Expr.isPlain_of_inner proper fun _ member => nomatch member
  | .negate operand pos, proper => by
      apply Expr.isPlain_of_inner proper
      rw [Expr.isProper] at proper
      exact operand.isPlain_outline (depth + 1) proper
  | .chain first links, proper => by
      apply Expr.isPlain_of_inner proper
      rw [Expr.isProper, Bool.and_eq_true] at proper
      rw [Expr.inner, List.forall_mem_append]
      exact ⟨first.isPlain_outline (depth + 1) proper.1,
        isPlain_outlineLinks (depth + 1) links proper.2⟩
  | .call name arguments pos, proper => by
      apply Expr.isPlain_of_inner proper
      rw [Expr.isProper, Bool.and_eq_true] at proper
      exact isPlain_outlineExprs (depth + 1) arguments proper.2

theorem isPlain_outlineLinks (depth : Nat) : (links : List Link) → linksProper links →
    ∀ line ∈ outlineLinks depth links, line.IsPlain
  | [], _ => by simp [outlineLinks]
  | ⟨op, operand, _⟩ :: links, proper => by
      rw [linksProper, Bool.and_eq_true] at proper
      rw [outlineLinks, List.cons_append, List.forall_mem_cons, List.forall_mem_append]
      exact ⟨(Caption.operator op).isPlain_line depth, operand.isPlain_outline (depth + 1) proper.1,
        isPlain_outlineLinks depth links proper.2⟩

theorem isPlain_outlineExprs (depth : Nat) : (exprs : List Expr) → exprsProper exprs →
    ∀ line ∈ outlineExprs depth exprs, line.IsPlain
  | [], _ => by simp [outlineExprs]
  | expr :: exprs, proper => by
      rw [exprsProper, Bool.and_eq_true] at proper
      rw [outlineExprs, List.forall_mem_append]
      exact ⟨expr.isPlain_outline depth proper.1, isPlain_outlineExprs depth exprs proper.2⟩

end

mutual

theorem Statement.isPlain_outline (depth : Nat) : (statement : Statement) → statement.isProper →
    ∀ line ∈ statement.outline depth, line.IsPlain
  | .assign name declared value pos, proper => by
      apply Statement.isPlain_of_inner proper
      rw [Statement.isProper, Bool.and_eq_true] at proper
      exact value.isPlain_outline (depth + 1) proper.2
  | .define definition, proper => by
      rw [Statement.isProper] at proper
      rw [Statement.outline]
      exact definition.isPlain_outline depth proper
  | .block body, proper => by
      rw [Statement.isProper] at proper
      rw [Statement.outline]
      exact body.isPlain_outline depth proper
  | .ifThen condition consequence pos, proper => by
      apply Statement.isPlain_of_inner proper
      rw [Statement.isProper, Bool.and_eq_true] at proper
      rw [Statement.inner, List.forall_mem_append, List.forall_mem_cons]
      exact ⟨condition.isPlain_outline (depth + 1) proper.1, Caption.isPlain_line _ depth,
        consequence.isPlain_outline (depth + 1) proper.2⟩
  | .ifElse condition consequence alternative pos, proper => by
      apply Statement.isPlain_of_inner proper
      rw [Statement.isProper, Bool.and_eq_true, Bool.and_eq_true] at proper
      rw [Statement.inner, List.forall_mem_append, List.cons_append, List.forall_mem_cons,
        List.forall_mem_append, List.forall_mem_cons]
      exact ⟨condition.isPlain_outline (depth + 1) proper.1.1, Caption.isPlain_line _ depth,
        consequence.isPlain_outline (depth + 1) proper.1.2, Caption.isPlain_line _ depth,
        alternative.isPlain_outline (depth + 1) proper.2⟩
  | .print value pos, proper => by
      apply Statement.isPlain_of_inner proper
      rw [Statement.isProper] at proper
      exact value.isPlain_outline (depth + 1) proper
  | .reset pos, proper => Statement.isPlain_of_inner proper fun _ member => nomatch member
  | .expression value, proper => by
      rw [Statement.isProper] at proper
      rw [Statement.outline]
      exact value.isPlain_outline depth proper

theorem Block.isPlain_outline (depth : Nat) : (body : Block) → body.isProper →
    ∀ line ∈ body.outline depth, line.IsPlain
  | ⟨statements, _⟩, proper => by
      rw [Block.isProper] at proper
      rw [Block.outline, List.forall_mem_cons]
      exact ⟨Caption.block.isPlain_line depth,
        isPlain_outlineStatements (depth + 1) statements proper⟩

theorem Definition.isPlain_outline (depth : Nat) : (definition : Definition) →
    definition.isProper → ∀ line ∈ definition.outline depth, line.IsPlain
  | ⟨name, params, body, _⟩, proper => by
      rw [Definition.isProper, Bool.and_eq_true] at proper
      rw [Definition.outline, List.forall_mem_cons]
      exact ⟨@Heading.isPlain_line (.define name params) proper.1 depth,
        body.isPlain_outline (depth + 1) proper.2⟩

theorem isPlain_outlineStatements (depth : Nat) : (statements : List Statement) →
    statementsProper statements → ∀ line ∈ outlineStatements depth statements, line.IsPlain
  | [], _ => by simp [outlineStatements]
  | statement :: statements, proper => by
      rw [statementsProper, Bool.and_eq_true] at proper
      rw [outlineStatements, List.forall_mem_append]
      exact ⟨statement.isPlain_outline depth proper.1,
        isPlain_outlineStatements depth statements proper.2⟩

end

end Plain

end Calculator
