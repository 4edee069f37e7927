import Calculator.Proofs.Evaluation.Nesting
import Calculator.Proofs.Grammar.Marks
import Calculator.Proofs.Grammar.WrittenForms

/-!
Expressions with all their parentheses. Around each application of an operator a pair of parentheses
is put; the words of the expression stay as they are. What is written so derives the nested form of
the tree, and nothing in it depends on how tight an operator binds.
-/

namespace Calculator

/-- Marks in parentheses. -/
def group (marks : List Mark) : List Mark := .opened :: (marks ++ [.closed])

mutual

/-- What the words of an expression become when each application is put in parentheses. The cases
are those of the grammar. -/
inductive Grouped : Level → List Piece → List Mark → Prop
  | tighter {level : Level} {pieces : List Piece} {marks : List Mark} (proper : level ≠ .primary)
      (inner : Grouped level.tighter pieces marks) : Grouped level pieces marks
  -- From the left: the first operand is what the next operator finds on its left.
  | fold {level : Level} {pieces rest : List Piece} {first marks : List Mark} (folds : level.Folds)
      (operand : Grouped level.tighter pieces first) (others : GroupedLinks level first rest marks)
      (nonempty : rest ≠ []) : Grouped level (pieces ++ rest) marks
  -- From the right: all further powers belong to the exponent.
  | power {word : Piece} {pieces rest : List Piece} {base exponent : List Mark}
      (left : Grouped .unary pieces base) (operator : word.token.kind = .operator .pow)
      (right : Grouped .power rest exponent) :
      Grouped .power (pieces ++ word :: rest) (group (base ++ .word word :: exponent))
  | negate {word : Piece} {pieces : List Piece} {operand : List Mark}
      (operator : word.token.kind = .operator .sub) (inner : Grouped .unary pieces operand) :
      Grouped .unary (word :: pieces) (group (.word word :: operand))
  | call {front pieces : List Piece} {name : Token} {opening closing : Piece} {count : Nat}
      {marks : List Mark} (callee : Enclosed (front.map Piece.token) name)
      (opens : opening.token.kind = .leftParen) (inner : GroupedArguments count pieces marks)
      (closes : closing.token.kind = .rightParen) :
      Grouped .call (front ++ opening :: (pieces ++ [closing]))
        (front.map .word ++ .word opening :: (marks ++ [.word closing]))
  | word {word : Piece} (kind : word.token.kind ∈ [.number, .decimal, .identifier]) :
      Grouped .primary [word] [.word word]
  | parens {opening closing : Piece} {pieces : List Piece} {marks : List Mark}
      (opens : opening.token.kind = .leftParen) (inner : Grouped .comparison pieces marks)
      (closes : closing.token.kind = .rightParen) :
      Grouped .primary (opening :: (pieces ++ [closing]))
        (.word opening :: (marks ++ [.word closing]))

/-- Operators of a level with their operands. With each one all that stands on its left is put in
parentheses. -/
inductive GroupedLinks : Level → List Mark → List Piece → List Mark → Prop
  | nil {level : Level} {left : List Mark} : GroupedLinks level left [] left
  | cons {level : Level} {left right marks : List Mark} {word : Piece} {op : BinaryOp}
      {pieces rest : List Piece} (operator : word.token.kind = .operator op)
      (own : op.level = level) (first : Grouped level.tighter pieces right)
      (others : GroupedLinks op.level (group (left ++ .word word :: right)) rest marks) :
      GroupedLinks level left (word :: (pieces ++ rest)) marks

inductive GroupedArguments : Nat → List Piece → List Mark → Prop
  | nil : GroupedArguments 0 [] []
  | one {pieces : List Piece} {marks : List Mark} (first : Grouped .comparison pieces marks) :
      GroupedArguments 1 pieces marks
  | more {comma : Piece} {count : Nat} {pieces rest : List Piece} {marks marks' : List Mark}
      (first : Grouped .comparison pieces marks) (separator : comma.token.kind = .comma)
      (others : GroupedArguments (count + 1) rest marks') :
      GroupedArguments (count + 2) (pieces ++ comma :: rest) (marks ++ .word comma :: marks')

end

section Words

theorem wordsOf_group (marks : List Mark) : wordsOf (group marks) = wordsOf marks := by
  have closing : wordsOf [.closed] = [] := rfl
  change wordsOf (marks ++ [.closed]) = _
  rw [wordsOf_append, closing, List.append_nil]

mutual

/-- No word is added, left out or moved. -/
theorem Grouped.words {level : Level} {pieces : List Piece} {marks : List Mark} :
    Grouped level pieces marks → wordsOf marks = pieces
  | .tighter _ inner => inner.words
  | .fold _ operand others _ => by rw [others.words, operand.words]
  | .power left _ right => by
      rw [wordsOf_group, wordsOf_append, wordsOf_word, left.words, right.words]
  | .negate _ inner => by rw [wordsOf_group, wordsOf_word, inner.words]
  | .call _ _ inner _ => by
      rw [wordsOf_append, wordsOf_words, wordsOf_word, wordsOf_append, inner.words]
      rfl
  | .word _ => rfl
  | .parens _ inner _ => by
      rw [wordsOf_word, wordsOf_append, inner.words]
      rfl

theorem GroupedLinks.words {level : Level} {left marks : List Mark} {pieces : List Piece} :
    GroupedLinks level left pieces marks → wordsOf marks = wordsOf left ++ pieces
  | .nil => (List.append_nil _).symm
  | .cons _ _ first others => by
      rw [others.words, wordsOf_group, wordsOf_append, wordsOf_word, first.words, List.append_assoc,
        List.cons_append]

theorem GroupedArguments.words {count : Nat} {pieces : List Piece} {marks : List Mark} :
    GroupedArguments count pieces marks → wordsOf marks = pieces
  | .nil => rfl
  | .one first => first.words
  | .more first _ others => by
      rw [wordsOf_append, wordsOf_word, first.words, others.words]

end

end Words

section Existence

def Groupable (level : Level) (tokens : List Token) : Prop :=
  ∀ pieces : List Piece, pieces.map Piece.token = tokens → ∃ marks, Grouped level pieces marks

variable {level : Level} {tokens : List Token} {pieces : List Piece}

theorem exists_groupedLinks {links : List Link}
    (linked : Linked (fun level tokens _ => Groupable level tokens) level tokens links)
    (same : pieces.map Piece.token = tokens) (left : List Mark) :
    ∃ marks, GroupedLinks level left pieces marks := by
  induction linked generalizing pieces left with
  | nil =>
    obtain rfl := List.map_eq_nil_iff.mp same
    exact ⟨left, .nil⟩
  | cons operator own first _ ih =>
    rcases List.map_eq_cons_iff.mp same with ⟨word, rest, rfl, rfl, behind⟩
    rcases List.map_eq_append_iff.mp behind with ⟨operand, rest, rfl, here, later⟩
    rcases first operand here with ⟨right, grouped⟩
    rcases ih later (group (left ++ .word word :: right)) with ⟨marks, others⟩
    exact ⟨marks, .cons operator own grouped others⟩

theorem exists_groupedArguments {arguments : List Expr}
    (list : CommaList (fun tokens _ => Groupable .comparison tokens) tokens arguments)
    (same : pieces.map Piece.token = tokens) :
    ∃ marks, GroupedArguments arguments.length pieces marks := by
  induction list generalizing pieces with
  | nil =>
    obtain rfl := List.map_eq_nil_iff.mp same
    exact ⟨[], .nil⟩
  | one first =>
    rcases first pieces same with ⟨marks, grouped⟩
    exact ⟨marks, .one grouped⟩
  | more first separator _ nonempty ih =>
    rcases List.map_eq_append_iff.mp same with ⟨argument, rest, rfl, here, behind⟩
    rcases List.map_eq_cons_iff.mp behind with ⟨comma, rest, rfl, rfl, later⟩
    rcases first argument here with ⟨marks, grouped⟩
    rcases ih later with ⟨marks', others⟩
    rcases List.exists_cons_of_ne_nil nonempty with ⟨next, arguments, rfl⟩
    exact ⟨_, .more grouped separator others⟩

theorem Derives.groupable {tree : Expr} (derives : Derives Enclosed level tokens tree) :
    Groupable level tokens := by
  refine derives.induct (fun level tokens _ => Groupable level tokens)
    ?tighter ?fold ?power ?negate ?call ?number ?decimal ?name ?parens
  case tighter =>
    intro level tokens tree proper inner pieces same
    rcases inner pieces same with ⟨marks, grouped⟩
    exact ⟨marks, .tighter proper grouped⟩
  case fold =>
    intro level tokens rest first links folds operand others nonempty pieces same
    rcases List.map_eq_append_iff.mp same with ⟨front, back, rfl, here, later⟩
    rcases operand front here with ⟨first, grouped⟩
    rcases exists_groupedLinks others later first with ⟨marks, linked⟩
    have more : back ≠ [] := by
      intro empty
      subst empty later
      cases others
      exact nonempty rfl
    exact ⟨marks, .fold folds grouped linked more⟩
  case power =>
    intro word tokens rest base exponent left operator right pieces same
    rcases List.map_eq_append_iff.mp same with ⟨front, rest, rfl, here, behind⟩
    rcases List.map_eq_cons_iff.mp behind with ⟨word, back, rfl, rfl, later⟩
    rcases left front here with ⟨base, grouped⟩
    rcases right back later with ⟨exponent, grouped'⟩
    exact ⟨_, .power grouped operator grouped'⟩
  case negate =>
    intro word tokens operand operator inner pieces same
    rcases List.map_eq_cons_iff.mp same with ⟨word, rest, rfl, rfl, behind⟩
    rcases inner rest behind with ⟨marks, grouped⟩
    exact ⟨_, .negate operator grouped⟩
  case call =>
    intro name opening closing front tokens arguments callee opens inner closes pieces same
    rcases List.map_eq_append_iff.mp same with ⟨front, rest, rfl, rfl, behind⟩
    rcases List.map_eq_cons_iff.mp behind with ⟨opening, rest, rfl, rfl, inside⟩
    rcases List.map_eq_append_iff.mp inside with ⟨list, rest, rfl, here, last⟩
    rcases List.map_eq_singleton_iff.mp last with ⟨closing, rfl, rfl⟩
    rcases exists_groupedArguments inner here with ⟨marks, grouped⟩
    exact ⟨_, .call callee opens grouped closes⟩
  case number =>
    intro word kind pieces same
    rcases List.map_eq_singleton_iff.mp same with ⟨word, rfl, rfl⟩
    exact ⟨_, .word (by simp [kind])⟩
  case decimal =>
    intro word kind pieces same
    rcases List.map_eq_singleton_iff.mp same with ⟨word, rfl, rfl⟩
    exact ⟨_, .word (by simp [kind])⟩
  case name =>
    intro word kind pieces same
    rcases List.map_eq_singleton_iff.mp same with ⟨word, rfl, rfl⟩
    exact ⟨_, .word (by simp [kind])⟩
  case parens =>
    intro opening closing tokens tree opens inner closes pieces same
    rcases List.map_eq_cons_iff.mp same with ⟨opening, rest, rfl, rfl, inside⟩
    rcases List.map_eq_append_iff.mp inside with ⟨list, rest, rfl, here, last⟩
    rcases List.map_eq_singleton_iff.mp last with ⟨closing, rfl, rfl⟩
    rcases inner list here with ⟨marks, grouped⟩
    exact ⟨_, .parens opens grouped closes⟩

end Existence

section Trees

theorem tokensOf_group (marks : List Mark) :
    tokensOf (group marks) = Kind.leftParen.word :: (tokensOf marks ++ [Kind.rightParen.word]) := by
  rw [← show tokensOf [.closed] = [Kind.rightParen.word] from rfl, ← tokensOf_append]
  rfl

theorem derives_group {level : Level} {marks : List Mark} {tree : Expr}
    (derives : Derives Enclosed level (tokensOf marks) tree) :
    Derives Enclosed .call (tokensOf (group marks)) tree := by
  have inner : Derives Enclosed .comparison (tokensOf marks) tree :=
    derives.loosen (Nat.zero_le _)
  have parens : Derives Enclosed .primary
      (Kind.leftParen.word :: (tokensOf marks ++ [Kind.rightParen.word])) tree :=
    .parens rfl inner rfl
  rw [tokensOf_group]
  exact parens.loosen (by decide)

theorem derives_word {word : Token} (kind : word.kind ∈ [.number, .decimal, .identifier]) :
    ∃ tree, Derives Enclosed .primary [word] tree ∧ tree.nested = tree := by
  simp only [List.mem_cons, List.not_mem_nil, or_false] at kind
  rcases kind with kind | kind | kind
  · exact ⟨_, .number kind, by rw [Expr.nested]⟩
  · exact ⟨_, .decimal kind, by rw [Expr.nested]⟩
  · exact ⟨_, .name kind, by rw [Expr.nested]⟩

mutual

theorem Grouped.derives {level : Level} {pieces : List Piece} {marks : List Mark} :
    Grouped level pieces marks → ∃ tree, Derives Enclosed level (pieces.map Piece.token) tree ∧
      Derives Enclosed .call (tokensOf marks) tree.nested
  | .tighter proper inner => by
      rcases inner.derives with ⟨tree, derives, derives'⟩
      exact ⟨tree, .tighter proper derives, derives'⟩
  | @Grouped.fold _ pieces rest _ _ folds operand others more => by
      rcases operand.derives with ⟨first, derives, derives'⟩
      rcases others.derives folds derives' with ⟨links, linked, applied⟩
      have nonempty : links ≠ [] := by
        intro empty
        rw [empty] at linked
        cases same : rest.map Piece.token with
        | nil => exact more (List.map_eq_nil_iff.mp same)
        | cons =>
          rw [same] at linked
          cases linked
      refine ⟨.chain first links, ?_, ?_⟩
      · rw [List.map_append]
        exact .fold folds derives linked nonempty
      · rw [Expr.nested_chain first nonempty]
        exact applied
  | @Grouped.power word pieces rest _ _ left operator right => by
      rcases left.derives with ⟨base, derives, derives'⟩
      rcases right.derives with ⟨exponent, further, further'⟩
      refine ⟨.chain base [⟨.pow, exponent, word.token.pos⟩], ?_, ?_⟩
      · rw [List.map_append, List.map_cons]
        exact .power derives operator further
      · have applied := Derives.power (derives'.loosen (by decide)) operator
          (further'.loosen (by decide))
        rw [← tokensOf_word, ← tokensOf_append] at applied
        have grouped := derives_group applied
        simp only [Expr.nested, nestLinks]
        exact grouped
  | @Grouped.negate word pieces _ operator inner => by
      rcases inner.derives with ⟨operand, derives, derives'⟩
      refine ⟨.negate operand word.token.pos, ?_, ?_⟩
      · rw [List.map_cons]
        exact .negate operator derives
      · have applied := Derives.negate operator (derives'.loosen (by decide))
        rw [← tokensOf_word] at applied
        have grouped := derives_group applied
        simp only [Expr.nested]
        exact grouped
  | @Grouped.call front pieces name opening closing _ _ callee opens inner closes => by
      rcases inner.derives with ⟨arguments, _, list, list'⟩
      refine ⟨.call name.text arguments name.pos, ?_, ?_⟩
      · simp only [List.map_append, List.map_cons, List.map_nil]
        exact .call callee opens list closes
      · simp only [tokensOf_append, tokensOf_words, tokensOf_word, Expr.nested]
        exact .call callee opens list' closes
  | .word kind => by
      rcases derives_word kind with ⟨tree, derives, same⟩
      refine ⟨tree, derives, ?_⟩
      rw [same]
      exact derives.loosen (by decide)
  | @Grouped.parens opening closing pieces _ opens inner closes => by
      rcases inner.derives with ⟨tree, derives, derives'⟩
      refine ⟨tree, ?_, ?_⟩
      · simp only [List.map_append, List.map_cons, List.map_nil]
        exact .parens opens derives closes
      · have parens := Derives.parens opens (derives'.loosen (Nat.zero_le _)) closes
        simp only [tokensOf_append, tokensOf_word]
        exact parens.loosen (by decide)

theorem GroupedLinks.derives {level : Level} {left marks : List Mark} {pieces : List Piece}
    {first : Expr} : GroupedLinks level left pieces marks → level.Folds →
      Derives Enclosed .call (tokensOf left) first →
        ∃ links, Linked (Derives Enclosed) level (pieces.map Piece.token) links ∧
          Derives Enclosed .call (tokensOf marks) (nestLinks first links)
  -- What stands on the left of an operator has become an operand by then.
  | .nil, _, derives => ⟨[], .nil, by rw [nestLinks]; exact derives⟩
  | @GroupedLinks.cons _ _ right _ word op pieces rest operator own first' others, folds,
      derives => by
      rcases first'.derives with ⟨operand, further, further'⟩
      subst own
      have link : Linked (Derives Enclosed) op.level (word.token :: (tokensOf right ++ [])) _ :=
        .cons operator rfl (further'.loosen folds.open_operand) .nil
      have applied := Derives.fold folds (derives.loosen folds.open_operand) link
        (List.cons_ne_nil _ _)
      rw [List.append_nil, ← tokensOf_word, ← tokensOf_append] at applied
      rcases others.derives folds (derives_group applied) with ⟨links, linked, whole⟩
      refine ⟨⟨op, operand, word.token.pos⟩ :: links, ?_, ?_⟩
      · rw [List.map_cons, List.map_append]
        exact .cons operator rfl further linked
      · rw [nestLinks]
        exact whole

theorem GroupedArguments.derives {count : Nat} {pieces : List Piece} {marks : List Mark} :
    GroupedArguments count pieces marks → ∃ arguments, arguments.length = count ∧
      CommaList (Derives Enclosed .comparison) (pieces.map Piece.token) arguments ∧
        CommaList (Derives Enclosed .comparison) (tokensOf marks) (nestExprs arguments)
  | .nil => ⟨[], rfl, .nil, by rw [nestExprs]; exact .nil⟩
  | .one first => by
      rcases first.derives with ⟨tree, derives, derives'⟩
      refine ⟨[tree], rfl, .one derives, ?_⟩
      simp only [nestExprs]
      exact .one (derives'.loosen (Nat.zero_le _))
  | .more first separator others => by
      rcases first.derives with ⟨tree, derives, derives'⟩
      rcases others.derives with ⟨arguments, length, list, list'⟩
      have nonempty : arguments ≠ [] := List.ne_nil_of_length_eq_add_one length
      refine ⟨tree :: arguments, by rw [List.length_cons, length], ?_, ?_⟩
      · rw [List.map_append, List.map_cons]
        exact .more derives separator list nonempty
      · have nonempty' : nestExprs arguments ≠ [] := by
          apply List.ne_nil_of_length_eq_add_one
          rw [length_nestExprs, length]
        rw [tokensOf_append, tokensOf_word, nestExprs]
        exact .more (derives'.loosen (Nat.zero_le _)) separator list' nonempty'

end

end Trees

end Calculator
