import Calculator.Proofs.Evaluation.ExplicitForm
import Calculator.Proofs.Grammar.EarlyErrors
import Calculator.Proofs.Lexer.Numerals
import Calculator.Proofs.Number.Reading

/-!
Texts of integers as sources. A literal of digits is the number that it spells, if this fits in 64
bits, and is refused otherwise. Since a sign is an operator in front of its literal, the text of the
least integer is refused as well: its digits alone do not fit.
-/

namespace Calculator

open Calculator.Lexer

namespace Parser

variable {stream after : Stream} {error : ParseError} {inner : Parser Expr}

/-- A stream begins with digits that do not fit in 64 bits. The literal is consumed and refused. -/
structure Misreads (stream : Stream) (error : ParseError) (after : Stream) : Prop where
  kind : stream.current.kind = .number
  unread : readInt64? stream.current.text.toList = none
  moved : stream.advance = .ok after
  refused : error = .invalidLiteral stream.current.text stream.current.pos

section Misread

variable (misreads : Misreads stream error after)
include misreads

theorem fails_primaryWith_misread : (primaryWith inner).Fails stream error after := by
  rcases misreads with ⟨kind, unread, moved, rfl⟩
  rw [primaryWith, fails_kind_bind, kind]
  apply fails_advance_bind.mpr
  refine .inr ⟨after, moved, ?_⟩
  simp only [unread, Option.map_none]
  exact fails_fail.mpr ⟨rfl, rfl⟩

theorem fails_unaryWith_misread : (unaryWith inner).Fails stream error after := by
  have unsigned : stream.current.kind ≠ .operator .sub := by simp [misreads.kind]
  rw [unaryWith, fails_within, Stream.rest, negations, fails_kind_bind, if_neg unsigned]
  exact fails_bind.mpr (.inl (fails_primaryWith_misread misreads))

theorem fails_levelWith_misread (levels : List (List BinaryOp)) :
    (levelWith inner levels).Fails stream error after := by
  rw [levelWith]
  -- Every level begins with an operand, down to the one that is misread.
  induction levels with
  | nil =>
    rw [chains, powerWith, fails_within, Stream.rest, powers]
    exact fails_bind.mpr (.inl (fails_unaryWith_misread misreads))
  | cons operators levels ih =>
    rw [chains, chain]
    exact fails_bind.mpr (.inl ih)

theorem fails_statement_misread : statement.Fails stream error after := by
  rw [statement, fails_within, statementWith, fails_kind_bind, misreads.kind]
  apply fails_bind_pure.mpr
  rw [expression, comparison, level, fails_within]
  exact fails_levelWith_misread misreads _

theorem fails_program_misread : program.Fails stream error after := by
  have begins : ¬ stream.current.kind.isSeparator := by simp [misreads.kind, Kind.isSeparator]
  have skips : (within skipSeparators).Yields stream () stream :=
    skips_complete (fun _ member => absurd member List.not_mem_nil) (.here stream) begins
  have more : stream.current.kind ≠ .endOfInput := by simp [misreads.kind]
  rw [program, statementList]
  refine fails_bind.mpr (.inr ⟨(), stream, skips, ?_⟩)
  rw [fails_within, Stream.rest, statementsUntil, fails_kind_bind, if_neg more, fails_kind_bind,
    if_neg more]
  exact fails_bind.mpr (.inl (fails_statement_misread misreads))

end Misread

end Parser

section Sources

variable {skips : Bool} {digits : List Char}

theorem refused_of_digits (nonempty : digits ≠ []) (figures : ∀ c ∈ digits, c.isDigit)
    (large : 9223372036854775807 < Nat.ofDigitChars 10 digits 0) :
    parse skips (String.ofList digits) =
      .error (.syntactic (.invalidLiteral (String.ofList digits) 0)) := by
  have lexes := lexes_numeral skips false (.plain nonempty figures)
  have unread : readInt64? (String.ofList digits).toList = none := by
    rw [String.toList_ofList, ← Option.not_isSome_iff_eq_none, readInt64?_digits nonempty figures]
    omega
  apply parse_eq_error.mpr
  refine ⟨.invalidLiteral (String.ofList digits) 0, (parse_error_iff lexes).mpr ?_, rfl⟩
  exact .inr ⟨_, _, rfl, Parser.fails_program_misread ⟨rfl, unread, rfl, rfl⟩⟩

def signedLiteral (negative : Bool) (value : Int64) (pos : Nat) : Expr :=
  if negative then .negate (.number (.int value) false pos) 0 else .number (.int value) false pos

theorem stands_digits {value : Int64} (negative : Bool) (pos : Nat)
    (read : readInt64? digits = some value) :
    Level.comparison.Stands (signTokens negative 0 ++ [⟨.number, String.ofList digits, pos⟩])
      (signedLiteral negative value pos) := by
  have word : Derives Enclosed .primary [⟨.number, String.ofList digits, pos⟩] _ := .number rfl
  have same : Token.intValue ⟨.number, String.ofList digits, pos⟩ = value := by
    simp only [Token.intValue, String.toList_ofList, read, Option.getD_some]
  rw [same] at word
  have reads : Token.Reads ⟨.number, String.ofList digits, pos⟩ := by
    refine ⟨fun _ => ?_, by simp⟩
    simp only [String.toList_ofList, read, Option.isSome_some]
  cases negative with
  | false => exact ⟨word.loosen (Nat.zero_le _), List.forall_mem_singleton.mpr reads⟩
  | true =>
    have minus : Token.kind ⟨.operator .sub, "-", 0⟩ = .operator .sub := rfl
    have signed : Derives Enclosed .unary _ _ := .negate minus (word.loosen (by decide))
    refine ⟨signed.loosen (Nat.zero_le _), List.forall_mem_cons.mpr ⟨?_, ?_⟩⟩
    · exact Token.reads_of_kind (by simp) (by simp)
    · exact List.forall_mem_singleton.mpr reads

theorem parse_digits {value : Int64} (negative : Bool) (nonempty : digits ≠ [])
    (figures : ∀ c ∈ digits, c.isDigit) (read : readInt64? digits = some value) :
    parse skips (String.ofList (signText negative ++ digits)) =
      .ok [.expression (signedLiteral negative value (0 + byteCount (signText negative)))] := by
  have lexes := lexes_numeral skips negative (.plain nonempty figures)
  have noGap : Separators [] := fun _ member => absurd member List.not_mem_nil
  have stands := stands_digits negative (0 + byteCount (signText negative)) read
  have form := programForm_expression noGap stands noGap
  rw [List.nil_append, List.append_nil] at form
  exact parse_eq_ok.mpr (parse_ok_iff.mpr ⟨_, _, lexes, form⟩)

end Sources

section Values

variable {V : Type} [Arithmetic V] {session : Session V} {call : Invoke V} {value result : V}
  {pos : Nat}

theorem run_number {literal : Scalar} {fixed : Bool}
    (read : Arithmetic.ofLiteral literal fixed = .ok value) :
    ((Expr.number literal fixed pos).eval call).run session = some (.ok (some value), session) := by
  rw [Expr.eval, read]
  rfl

theorem run_negate {operand : Expr}
    (ends : (operand.eval call).run session = some (.ok (some value), session))
    (negated : Arithmetic.negate value = .ok result) :
    ((Expr.negate operand pos).eval call).run session = some (.ok (some result), session) := by
  have required : (Eval.require operand.pos (operand.eval call)).run session =
      some (.ok value, session) := by
    rw [Eval.require, Eval.run_bind_ok ends]
    rfl
  rw [Expr.eval, Eval.run_bind_ok required, negated]
  rfl

theorem run_signedLiteral {negative : Bool} {magnitude : Int64}
    (read : Arithmetic.ofLiteral (.int magnitude) false = .ok value)
    (signed : if negative then Arithmetic.negate value = .ok result else value = result) :
    ((signedLiteral negative magnitude pos).eval call).run session =
      some (.ok (some result), session) := by
  cases negative with
  | false =>
    rw [← show value = result from signed]
    exact run_number read
  | true => exact run_negate (run_number read) signed

end Values

/-- A source parses, and whatever the session is it comes to an integer and leaves the session as it
was. Among typed numbers the type of the integer is free. -/
def ComesTo (source : String) (n : Int64) : Prop :=
  ∀ skips, ∃ program, parse skips source = .ok program ∧
    (∀ session : Session Int64, session.evaluate program = some (.ok (some n), session)) ∧
    ∀ session : Session Number,
      session.evaluate program = some (.ok (some ⟨.int n, false⟩), session)

section Integers

variable {digits : List Char} {n : Int64}

theorem comesTo_digits {negative : Bool} {magnitude : Int64} (nonempty : digits ≠ [])
    (figures : ∀ c ∈ digits, c.isDigit) (read : readInt64? digits = some magnitude)
    (signed : if negative then negateInteger magnitude = .ok n else magnitude = n) :
    ComesTo (String.ofList (signText negative ++ digits)) n := by
  intro skips
  refine ⟨_, parse_digits negative nonempty figures read, ?_, ?_⟩
  · intro session
    rw [Session.evaluate, eval_expression]
    apply run_signedLiteral rfl
    cases negative <;> exact signed
  · intro session
    rw [Session.evaluate, eval_expression]
    apply run_signedLiteral rfl
    cases negative with
    | false => exact congrArg (fun n => (⟨.int n, false⟩ : Number)) signed
    | true =>
      have negated : negateInteger magnitude = .ok n := signed
      show Number.negate ⟨.int magnitude, false⟩ = .ok ⟨.int n, false⟩
      simp only [Number.negate, negated]
      rfl

theorem exists_magnitude (nonempty : digits ≠ []) (figures : ∀ c ∈ digits, c.isDigit)
    (fits : Nat.ofDigitChars 10 digits 0 ≤ 9223372036854775807) :
    ∃ magnitude, readInt64? digits = some magnitude ∧
      magnitude.toInt = Nat.ofDigitChars 10 digits 0 := by
  have read := (readInt64?_digits nonempty figures).mpr (Nat.lt_succ_of_le fits)
  rcases Option.isSome_iff_exists.mp read with ⟨magnitude, read⟩
  refine ⟨magnitude, read, toInt_of_int64? ?_⟩
  rwa [readInt64?, readInt?_digits nonempty figures, Option.bind_some] at read

theorem natAbs_le (proper : n ≠ Int64.minValue) : n.toInt.natAbs ≤ 9223372036854775807 := by
  have least : Int64.minValue.toInt = -9223372036854775808 := rfl
  have other : n.toInt ≠ -9223372036854775808 := by
    rwa [← least, Ne, Int64.toInt_inj]
  have low := int64?_isSome.mp (Option.isSome_of_mem (int64?_toInt n))
  omega

theorem comesTo_text (proper : n ≠ Int64.minValue) : ComesTo (int64Text n) n := by
  have figures := isDigit_natText n.toInt.natAbs
  have nonempty := natText_ne_nil n.toInt.natAbs
  have fits := natAbs_le proper
  rw [← ofDigitChars_natText n.toInt.natAbs] at fits
  rcases exists_magnitude nonempty figures fits with ⟨magnitude, read, same⟩
  rw [ofDigitChars_natText] at same
  apply comesTo_digits nonempty figures read
  split
  · next negative =>
    have below : n.toInt < 0 := of_decide_eq_true negative
    have back : -magnitude.toInt = n.toInt := by omega
    rw [negateInteger, checked, back, int64?_toInt]
  · next natural =>
    have above : ¬ n.toInt < 0 := of_decide_eq_false (Bool.not_eq_true _ ▸ natural)
    apply Int64.toInt_inj.mp
    omega

theorem parse_least (skips : Bool) : parse skips (int64Text Int64.minValue) =
    .error (.syntactic (.invalidLiteral "9223372036854775808" 1)) := by
  have lexes := lexes_numeral skips true
    (.plain (natText_ne_nil 9223372036854775808) (isDigit_natText 9223372036854775808))
  have text : int64Text Int64.minValue =
      String.ofList (signText true ++ natText 9223372036854775808) := rfl
  rw [text, parse, Program.parse, Stream.ofSource, lexes.tokens_eq]
  rfl

theorem refused_iff : (∃ skips failure, parse skips (int64Text n) = .error failure) ↔
    n = Int64.minValue := by
  constructor
  · rintro ⟨skips, failure, refused⟩
    by_contra proper
    rcases comesTo_text proper skips with ⟨program, parsed, _⟩
    cases parsed.symm.trans refused
  · rintro rfl
    exact ⟨true, _, parse_least true⟩

end Integers

/-- The text that is printed for an integer, plain or typed, reads back as the integer, unless it is
the least one. Any digits are read as the number that they spell if it fits in 64 bits, and are
refused at their start otherwise. -/
theorem printed_integers_read_back :
    (∀ n : Int64,
      (∀ fixed, Arithmetic.text (⟨.int n, fixed⟩ : Number) = Arithmetic.text n) ∧
        (n ≠ Int64.minValue → ComesTo (Arithmetic.text n) n) ∧
        ((∃ skips failure, parse skips (Arithmetic.text n) = .error failure) ↔
          n = Int64.minValue)) ∧
      (∀ skips, parse skips (Arithmetic.text Int64.minValue) =
        .error (.syntactic (.invalidLiteral "9223372036854775808" 1))) ∧
      ∀ digits : String, digits ≠ "" → (∀ c ∈ digits.toList, c.isDigit) →
        let value := Nat.ofDigitChars 10 digits.toList 0
        (value ≤ 9223372036854775807 → ∃ n : Int64, n.toInt = value ∧ ComesTo digits n) ∧
          (9223372036854775807 < value → ∀ skips,
            parse skips digits = .error (.syntactic (.invalidLiteral digits 0))) := by
  refine ⟨fun n => ⟨fun _ => rfl, comesTo_text, refused_iff⟩, parse_least, ?_⟩
  intro digits nonempty figures value
  have nonempty : digits.toList ≠ [] := fun empty => nonempty (String.toList_eq_nil_iff.mp empty)
  constructor
  · intro fits
    rcases exists_magnitude nonempty figures fits with ⟨n, read, same⟩
    have comes : ComesTo (String.ofList digits.toList) n :=
      @comesTo_digits _ n false n nonempty figures read rfl
    rw [String.ofList_toList] at comes
    exact ⟨n, same, comes⟩
  · intro large skips
    have refused := @refused_of_digits skips _ nonempty figures large
    rwa [String.ofList_toList] at refused

theorem largest_digits_read :
    ComesTo (Arithmetic.text (-7 : Int64)) (-7) ∧
      (∃ n : Int64, n.toInt = 9223372036854775807 ∧ ComesTo "09223372036854775807" n) ∧
      ∀ skips, parse skips "9223372036854775808" =
        .error (.syntactic (.invalidLiteral "9223372036854775808" 0)) := by
  refine ⟨(printed_integers_read_back.1 (-7)).2.1 (by decide), ?_, ?_⟩
  · have read := printed_integers_read_back.2.2 "09223372036854775807" (by decide) (by simp)
    exact read.1 (by decide)
  · have read := printed_integers_read_back.2.2 "9223372036854775808" (by decide) (by simp)
    exact read.2 (by decide)

end Calculator
