import Calculator.Proofs.Grammar.Recursion
import Calculator.Proofs.Grammar.Yields

/-!
The equations of the parsers of expressions.
-/

namespace Calculator

theorem Kind.operator?_eq_some {kind : Kind} {op : BinaryOp} :
    kind.operator? = some op ↔ kind = .operator op := by
  cases kind <;> simp [Kind.operator?]

namespace Parser

variable {α : Type} {least : Nat}

theorem run_operatorOf (operators : List BinaryOp) (stream : Stream) :
    (operatorOf operators).run stream =
      (.ok (stream.current.kind.operator?.filter (· ∈ operators)), stream) := rfl

theorem agree_operatorOf {operators : List BinaryOp} {stream : Stream}
    {next next' : Option BinaryOp → Parser α}
    (found : ∀ op, stream.current.kind = .operator op → op ∈ operators →
      Agree least stream (next (some op)) (next' (some op)))
    (absent : Agree least stream (next none) (next' none)) :
    Agree least stream (operatorOf operators >>= next) (operatorOf operators >>= next') := by
  have chosen : Agree least stream
      (next (stream.current.kind.operator?.filter (· ∈ operators)))
      (next' (stream.current.kind.operator?.filter (· ∈ operators))) := by
    cases chosen : stream.current.kind.operator?.filter (· ∈ operators) with
    | none => exact absent
    | some op =>
      obtain ⟨here, member⟩ := Option.filter_eq_some_iff.mp chosen
      exact found op (Kind.operator?_eq_some.mp here) (of_decide_eq_true member)
  exact ⟨chosen.same, chosen.takes⟩

section Expressions

variable {stream : Stream} {operand operand' : Parser Expr}

def linksRound (operators : List BinaryOp) (operand : Parser Expr) (rest : Parser (List Link)) :
    Parser (List Link) := do
  match ← operatorOf operators with
  | some op =>
      let pos := (← advance).pos
      let right ← operand
      return ⟨op, right, pos⟩ :: (← rest)
  | none => return []

theorem unfolds_links (operators : List BinaryOp) (operand : Parser Expr) :
    Unfolds (links operators operand) (linksRound operators operand) := by
  refine ⟨fun _ _ => rfl, ?_⟩
  intro stream rest used
  have found : (operatorOf operators).run stream = (.ok none, stream) := by
    rw [run_operatorOf, Stream.atEnd_of_size used]
    rfl
  rw [linksRound, run_bind, found]
  rfl

theorem agree_linksRound (operators : List BinaryOp)
    (agree : ∀ later, later.size ≤ stream.size → Agree 1 later operand operand')
    {rest rest' : Parser (List Link)}
    (recur : ∀ later, later.size < stream.size → Agree 0 later rest rest') :
    Agree 0 stream (linksRound operators operand rest) (linksRound operators operand' rest') := by
  refine agree_operatorOf ?_ (agree_pure [] stream)
  intro op here _
  have more : stream.current.kind ≠ .endOfInput := by simp [here]
  refine agree_then (agree_advance more) ?_
  intro token after taken
  refine agree_then (agree after (by omega)) ?_
  intro right last taken'
  refine agree_bind (recur last (by omega)) ?_
  intro more final _
  exact agree_pure _ final

theorem agree_chain (operators : List BinaryOp)
    (agree : ∀ later, later.size ≤ stream.size → Agree 1 later operand operand') :
    Agree 1 stream (chain operators operand) (chain operators operand') := by
  refine agree_bind (agree stream (Nat.le_refl _)) ?_
  intro first after taken
  have later : Agree 0 after (within (links operators operand))
      (within (links operators operand')) := by
    refine agree_within (unfolds_links _ _) (unfolds_links _ _) ?_
    intro last rest rest' small recur
    exact agree_linksRound operators (fun final le => agree final (by omega)) recur
  refine agree_bind later ?_
  intro links last _
  exact agree_pure _ last

def powersRound (base rest : Parser Expr) : Parser Expr := do
  let first ← base
  if (← kind) = .operator .pow then
    let pos := (← advance).pos
    return .chain first [⟨.pow, ← rest, pos⟩]
  else return first

theorem unfolds_powers
    (fails : ∀ stream, stream.size = 0 →
      ∃ error after, operand.run stream = (.error error, after)) :
    Unfolds (powers operand) (powersRound operand) := by
  refine ⟨fun _ _ => rfl, ?_⟩
  intro stream rest used
  obtain ⟨error, after, failed⟩ := fails stream used
  rw [powers, powersRound, run_bind, failed]

theorem agree_powersRound (agree : Agree 1 stream operand operand') {rest rest' : Parser Expr}
    (recur : ∀ later, later.size < stream.size → Agree 1 later rest rest') :
    Agree 1 stream (powersRound operand rest) (powersRound operand' rest') := by
  refine agree_bind agree ?_
  intro first after taken
  refine agree_kind ?_
  split
  · next here =>
      refine agree_then (agree_advance (by simp [here])) ?_
      intro token last taken'
      refine agree_then (recur last (by omega)) ?_
      intro exponent final _
      exact agree_pure _ final
  · exact agree_pure first after

def negationsRound (operand rest : Parser Expr) : Parser Expr := do
  if (← kind) = .operator .sub then
    let pos := (← advance).pos
    return .negate (← rest) pos
  else operand

theorem unfolds_negations (operand : Parser Expr) :
    Unfolds (negations operand) (negationsRound operand) := by
  refine ⟨fun _ _ => rfl, ?_⟩
  intro stream rest used
  have other : stream.current.kind ≠ .operator .sub := by simp [Stream.atEnd_of_size used]
  rw [negationsRound, run_kind_bind, if_neg other]
  rfl

theorem agree_negationsRound (agree : Agree 1 stream operand operand') {rest rest' : Parser Expr}
    (recur : ∀ later, later.size < stream.size → Agree 1 later rest rest') :
    Agree 1 stream (negationsRound operand rest) (negationsRound operand' rest') := by
  refine agree_kind ?_
  split
  · next here =>
      refine agree_bind (agree_advance (by simp [here])) ?_
      intro token after taken
      refine agree_then (recur after (by omega)) ?_
      intro inner last _
      exact agree_pure _ last
  · exact agree

theorem agree_literal (read : List Char → Option Scalar)
    (more : stream.current.kind ≠ .endOfInput) : Agree 1 stream (literal read) (literal read) := by
  refine agree_bind (agree_advance more) ?_
  intro token after _
  split
  · exact agree_pure _ after
  · exact agree_fail 0 _ after

theorem agree_primaryWith
    (agree : ∀ later, later.size < stream.size → Agree 1 later operand operand') :
    Agree 1 stream (primaryWith operand) (primaryWith operand') := by
  refine agree_kind ?_
  cases here : stream.current.kind with
  | number => exact agree_literal _ (by simp [here])
  | decimal => exact agree_literal _ (by simp [here])
  | identifier =>
    refine agree_bind (agree_advance (by simp [here])) ?_
    intro token after _
    exact agree_pure _ after
  | leftParen =>
    refine agree_bind (agree_discard (agree_advance (by simp [here]))) ?_
    intro _ after taken
    refine agree_then (agree after (by omega)) ?_
    intro inner last _
    refine agree_then (agree_discard (agree_expectOneOf (by decide) last)) ?_
    intro _ final _
    exact agree_pure inner final
  | _ => exact agree_unexpected 1 _ stream

theorem agree_notCallable (stream : Stream) : Agree 0 stream notCallable notCallable := by
  refine ⟨rfl, ?_⟩
  rintro _ _ ⟨⟩

theorem agree_callWith
    (agree : ∀ later, later.size < stream.size → Agree 1 later operand operand') :
    Agree 1 stream (callWith operand) (callWith operand') := by
  refine agree_bind (agree_primaryWith agree) ?_
  intro target after taken
  refine agree_kind ?_
  split
  · next here =>
      cases target with
      | name name pos =>
        refine agree_then (agree_discard (agree_advance (by simp [here]))) ?_
        intro _ later taken'
        refine agree_then (agree_commaSeparated (by decide) ?_) ?_
        · intro last le
          exact agree last (by omega)
        · intro arguments last _
          refine agree_kind ?_
          split
          · exact agree_notCallable last
          · exact agree_pure _ last
      | _ => exact agree_notCallable after
  · exact agree_pure target after

theorem agree_unaryWith
    (agree : ∀ later, later.size < stream.size → Agree 1 later operand operand') :
    Agree 1 stream (unaryWith operand) (unaryWith operand') := by
  refine agree_within (unfolds_negations _) (unfolds_negations _) ?_
  intro later rest rest' small recur
  refine agree_negationsRound (agree_callWith fun last smaller => agree last (by omega)) recur

theorem agree_powerWith
    (agree : ∀ later, later.size < stream.size → Agree 1 later operand operand') :
    Agree 1 stream (powerWith operand) (powerWith operand') := by
  have base : ∀ later, later.size ≤ stream.size →
      Agree 1 later (unaryWith operand) (unaryWith operand') :=
    fun later small => agree_unaryWith fun last smaller => agree last (by omega)
  have fails : ∀ later, later.size = 0 →
      ∃ error after, (unaryWith operand).run later = (.error error, after) :=
    fun later used => (base later (by omega)).error_of_size used
  have fails' : ∀ later, later.size = 0 →
      ∃ error after, (unaryWith operand').run later = (.error error, after) :=
    fun later used => (base later (by omega)).symm.error_of_size used
  refine agree_within (unfolds_powers fails) (unfolds_powers fails') ?_
  intro later rest rest' small recur
  exact agree_powersRound (base later small) recur

theorem agree_levelWith (levels : List (List BinaryOp))
    (agree : ∀ later, later.size < stream.size → Agree 1 later operand operand') :
    Agree 1 stream (levelWith operand levels) (levelWith operand' levels) := by
  induction levels generalizing stream with
  | nil => exact agree_powerWith agree
  | cons operators tighter ih =>
    refine agree_chain operators ?_
    intro later small
    exact ih fun last smaller => agree last (by omega)

theorem run_primaryWith_atEnd (nested : Parser Expr) (ended : stream.current.kind = .endOfInput) :
    (primaryWith nested).run stream =
      (.error (stream.unexpected (.phrase "expression")), stream) := by
  rw [primaryWith, run_kind_bind, ended]
  rfl

theorem run_levelWith_atEnd (nested : Parser Expr) (levels : List (List BinaryOp))
    (ended : stream.current.kind = .endOfInput) :
    (levelWith nested levels).run stream =
      (.error (stream.unexpected (.phrase "expression")), stream) := by
  have other : stream.current.kind ≠ .operator .sub := by simp [ended]
  have calls : (callWith nested).run stream =
      (.error (stream.unexpected (.phrase "expression")), stream) := by
    rw [callWith, run_bind, run_primaryWith_atEnd nested ended]
  have negates : (unaryWith nested).run stream =
      (.error (stream.unexpected (.phrase "expression")), stream) := by
    change (negations (callWith nested) (stream.current :: stream.ahead)).run stream = _
    rw [negations, run_kind_bind, if_neg other, calls]
  induction levels with
  | nil =>
    change (powers (unaryWith nested) (stream.current :: stream.ahead)).run stream = _
    rw [powers, run_bind, negates]
  | cons operators tighter ih =>
    change (chain operators (levelWith nested tighter)).run stream = _
    rw [chain, run_bind, ih]

theorem unfolds_nested : Unfolds nested (levelWith · precedence) := by
  refine ⟨fun _ _ => rfl, ?_⟩
  intro stream rest used
  rw [run_levelWith_atEnd rest precedence (Stream.atEnd_of_size used)]
  rfl

theorem agree_nested {room room' : List Token} {stream : Stream}
    (enough : stream.size ≤ room.length) (enough' : stream.size ≤ room'.length) :
    Agree 1 stream (nested room) (nested room') := by
  refine agree_rooms unfolds_nested unfolds_nested ?_ room room' stream (Nat.le_refl _) enough
    enough'
  intro later rest rest' _ recur
  exact agree_levelWith precedence recur

theorem within_nested : within nested = expression := by
  funext stream
  have enough : stream.size ≤ stream.ahead.length + 1 := stream.size_le_length_rest
  have agree : Agree 1 stream (levelWith (nested stream.ahead) precedence)
      (levelWith (nested stream.rest) precedence) := by
    refine agree_levelWith precedence ?_
    intro later smaller
    refine agree_nested (by omega) ?_
    rw [Stream.rest, List.length_cons]
    omega
  exact agree.same

theorem agree_nested_expression {room : List Token} {stream : Stream}
    (enough : stream.size ≤ room.length) : Agree 1 stream (nested room) expression := by
  rw [← within_nested]
  exact (agree_nested enough stream.size_le_length_rest).of_run rfl (run_within nested stream)

theorem level_eq (skipped : Nat) :
    level skipped = levelWith expression (precedence.drop skipped) := by
  funext stream
  have enough := stream.size_le_length_rest
  have agree : Agree 1 stream (levelWith (nested stream.rest) (precedence.drop skipped))
      (levelWith expression (precedence.drop skipped)) :=
    agree_levelWith _ fun later smaller => agree_nested_expression (by omega)
  exact agree.same

theorem unary_eq : unary = unaryWith expression := by
  funext stream
  have enough := stream.size_le_length_rest
  have agree : Agree 1 stream (unaryWith (nested stream.rest)) (unaryWith expression) :=
    agree_unaryWith fun later smaller => agree_nested_expression (by omega)
  exact agree.same

theorem call_eq : call = callWith expression := by
  funext stream
  have enough := stream.size_le_length_rest
  have agree : Agree 1 stream (callWith (nested stream.rest)) (callWith expression) :=
    agree_callWith fun later smaller => agree_nested_expression (by omega)
  exact agree.same

theorem primary_eq : primary = primaryWith expression := by
  funext stream
  have enough := stream.size_le_length_rest
  have agree : Agree 1 stream (primaryWith (nested stream.rest)) (primaryWith expression) :=
    agree_primaryWith fun later smaller => agree_nested_expression (by omega)
  exact agree.same

theorem agree_expression (stream : Stream) : Agree 1 stream expression expression := by
  have enough := stream.size_le_length_rest
  rw [← within_nested]
  exact (agree_nested enough enough).of_run (run_within nested stream) (run_within nested stream)

theorem links_round (operators : List BinaryOp) (takes : ∀ stream, Agree 1 stream operand operand) :
    within (links operators operand) =
      linksRound operators operand (within (links operators operand)) := by
  refine within_eq 0 (unfolds_links _ _) ?_
  intro stream rest rest' recur
  exact agree_linksRound operators (fun later _ => takes later) recur

theorem agree_unary (stream : Stream) : Agree 1 stream unary unary := by
  rw [unary_eq]
  exact agree_unaryWith fun later _ => agree_expression later

theorem agree_level (skipped : Nat) (stream : Stream) :
    Agree 1 stream (level skipped) (level skipped) := by
  rw [level_eq]
  exact agree_levelWith _ fun later _ => agree_expression later

theorem power_round : power = powersRound unary power := by
  have recursion : power = within (powers unary) := by
    rw [unary_eq]
    exact level_eq 7
  rw [recursion]
  refine within_eq 1 (unfolds_powers fun stream used => (agree_unary stream).error_of_size used) ?_
  intro stream rest rest' recur
  exact agree_powersRound (agree_unary stream) recur

theorem unary_round : unary = negationsRound call unary := by
  have recursion : unary = within (negations call) := by
    rw [unary_eq, call_eq]
    rfl
  rw [recursion]
  refine within_eq 1 (unfolds_negations call) ?_
  intro stream rest rest' recur
  refine agree_negationsRound ?_ recur
  rw [call_eq]
  exact agree_callWith fun later _ => agree_expression later

end Expressions

section Successes

variable {stream after : Stream} {operators : List BinaryOp} {operand : Parser Expr} {tree : Expr}

theorem yields_linksRound {rest : Parser (List Link)} {result : List Link} :
    (linksRound operators operand rest).Yields stream result after ↔
      (∃ op ∈ operators, stream.current.kind = .operator op ∧
        ∃ next right between more, stream.advance = .ok next ∧ operand.Yields next right between ∧
          rest.Yields between more after ∧ result = ⟨op, right, stream.current.pos⟩ :: more) ∨
      ((∀ op ∈ operators, stream.current.kind ≠ .operator op) ∧ result = [] ∧ after = stream) := by
  simp only [linksRound, operatorOf, yields_bind, yields_kind, yields_pure, and_assoc,
    exists_eq_left, exists_and_left]
  cases found : stream.current.kind.operator?.filter (· ∈ operators) with
  | none =>
    have absent : ∀ op ∈ operators, stream.current.kind ≠ .operator op := by
      intro op member here
      rw [here] at found
      simp [Kind.operator?, member] at found
    simp only [yields_pure]
    grind
  | some op =>
    obtain ⟨here, member⟩ := Option.filter_eq_some_iff.mp found
    rw [Kind.operator?_eq_some] at here
    simp only [yields_bind, yields_advance, yields_pure]
    grind

theorem yields_powersRound {base rest : Parser Expr} :
    (powersRound base rest).Yields stream tree after ↔
      ∃ first between, base.Yields stream first between ∧
        ((between.current.kind = .operator .pow ∧ ∃ next exponent, between.advance = .ok next ∧
            rest.Yields next exponent after ∧
            tree = .chain first [⟨.pow, exponent, between.current.pos⟩]) ∨
          (between.current.kind ≠ .operator .pow ∧ tree = first ∧ after = between)) := by
  simp [powersRound, and_assoc]

theorem yields_negationsRound {rest : Parser Expr} :
    (negationsRound operand rest).Yields stream tree after ↔
      (stream.current.kind = .operator .sub ∧ ∃ next inner, stream.advance = .ok next ∧
          rest.Yields next inner after ∧ tree = .negate inner stream.current.pos) ∨
        (stream.current.kind ≠ .operator .sub ∧ operand.Yields stream tree after) := by
  simp [negationsRound, and_assoc]

theorem yields_literal {read : List Char → Option Scalar} :
    (literal read).Yields stream tree after ↔
      ∃ value, read stream.current.text.toList = some value ∧ stream.advance = .ok after ∧
        tree = .number value false stream.current.pos := by
  simp only [literal, yields_bind, yields_advance, and_assoc, exists_and_left, exists_eq_left]
  cases read stream.current.text.toList <;> simp

theorem yields_primaryWith :
    (primaryWith operand).Yields stream tree after ↔
      match stream.current.kind with
      | .number => ∃ value, readInt64? stream.current.text.toList = some value ∧
          stream.advance = .ok after ∧ tree = .number (.int value) false stream.current.pos
      | .decimal => ∃ value, readFloat? stream.current.text.toList = some value ∧
          stream.advance = .ok after ∧ tree = .number (.float value) false stream.current.pos
      | .identifier =>
          stream.advance = .ok after ∧ tree = .name stream.current.text stream.current.pos
      | .leftParen => ∃ next between, stream.advance = .ok next ∧
          operand.Yields next tree between ∧ between.current.kind = .rightParen ∧
          between.advance = .ok after
      | _ => False := by
  simp only [primaryWith, yields_bind, yields_kind, and_assoc, exists_eq_left, exists_and_left]
  cases stream.current.kind with
  | number =>
    simp only [yields_literal, Option.map_eq_some_iff]
    grind
  | decimal =>
    simp only [yields_literal, Option.map_eq_some_iff]
    grind
  | identifier => simp [and_assoc]
  | leftParen =>
    simp only [yields_bind, yields_discard, yields_advance, yields_expect, yields_pure]
    grind
  | _ => simp

theorem yields_callWith :
    (callWith operand).Yields stream tree after ↔
      ∃ target between, (primaryWith operand).Yields stream target between ∧
        ((between.current.kind = .leftParen ∧ ∃ name pos, target = .name name pos ∧
            ∃ next arguments, between.advance = .ok next ∧
              (commaSeparated operand .rightParen).Yields next arguments after ∧
              after.current.kind ≠ .leftParen ∧ tree = .call name arguments pos) ∨
          (between.current.kind ≠ .leftParen ∧ tree = target ∧ after = between)) := by
  rw [callWith, yields_bind]
  refine exists_congr fun target => exists_congr fun between => and_congr_right fun _ => ?_
  cases target with
  | name name pos =>
    simp only [notCallable, yields_bind, yields_kind, yields_ite, yields_discard, yields_advance,
      yields_current, yields_fail, yields_pure]
    grind
  | _ => simp [notCallable, and_assoc]

end Successes

end Parser

end Calculator
