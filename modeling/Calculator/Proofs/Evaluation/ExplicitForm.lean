import Calculator.Proofs.Evaluation.Frames
import Calculator.Proofs.Evaluation.Joining
import Calculator.Proofs.Grammar.Grouping

/-!
Precedence and grouping mean what parentheses mean. A source of one expression and the same source
with parentheses around every application of an operator do the same in every session.
-/

namespace Calculator

open Calculator.Lexer

section Runs

variable {V α : Type}

def Eval.runPlaceless (action : Eval V α) (session : Session V) :
    Option (Except Fault α × Session V) :=
  (action.run session).map fun (result, after) => (result.mapError EvalError.fault, after)

variable [Arithmetic V]

/-- An expression at other places comes to the same: it leaves all bindings as they are, so that
even the functions that are bound stay at their places. -/
theorem Expr.runPlaceless_relocate (move : Nat → Nat) (expr : Expr) (depth : Nat)
    (session : Session V) :
    ((expr.relocate move).eval (invoke depth)).runPlaceless session =
      (expr.eval (invoke depth)).runPlaceless session := by
  have moves : Eval.Moves (fun _ => True) Eq (expr.eval (invoke depth) : Eval V (Option V))
    ((expr.relocate move).eval (invoke depth)) := expr.eval_moves (invoke_moves depth) trivial
  have moves := moves session session (Session.Alike.refl trivial session)
  have kept := expr.eval_onlyPrints depth session
  have kept' := (expr.relocate move).eval_onlyPrints depth session
  unfold Eval.runPlaceless
  generalize (expr.eval (invoke depth)).run session = ends at moves kept ⊢
  generalize ((expr.relocate move).eval (invoke depth)).run session = ends' at moves kept' ⊢
  cases moves with
  | none => rfl
  | @some outcome outcome' same =>
    rcases outcome with ⟨result, ⟨scopes, printed⟩⟩
    rcases outcome' with ⟨result', ⟨scopes', printed'⟩⟩
    obtain rfl : scopes = session.scopes := (kept _ _ rfl).scopes
    obtain rfl : scopes' = session.scopes := (kept' _ _ rfl).scopes
    have lists : printed.toList = printed'.toList := List.forall₂_eq_eq_eq ▸ same.session.printed
    obtain rfl : printed = printed' := Array.toList_inj.mp lists
    have result : Except.Moved (fun _ => True) Eq result result' := same.result
    cases result with
    | ok value => rw [value]
    | error fault pos allowed => rfl

theorem eval_expression (tree : Expr) (depth : Nat) :
    (Program.eval depth [.expression tree] : Eval V (Option V)) = tree.eval (invoke depth) := by
  simp only [Program.eval, evalStatements, Statement.eval, bind_pure]

end Runs

structure CutInto (skips : Bool) (source : String) (pieces : List Piece) (gap : List Char) :
    Prop where
  tiles : Tiles (standard skips) (.start source) pieces gap []
  tokens : (standard skips).tokens (.start source) =
    (pieces.map Piece.token, .ok source.utf8ByteSize)

/-- The words of a source that is one expression, with all its parentheses. The separators around
the expression stay where they are. -/
inductive Explicit : List Piece → List Mark → Prop
  | grouped {front inner back : List Piece} {marks : List Mark}
      (before : Separators (front.map Piece.token)) (expression : Grouped .comparison inner marks)
      (behind : Separators (back.map Piece.token)) :
      Explicit (front ++ (inner ++ back)) (front.map .word ++ (marks ++ back.map .word))

/-- A text that is the source but for the parentheses around each unary and each binary
application. -/
inductive ExplicitForm (skips : Bool) (source : String) : String → Prop
  | written {pieces : List Piece} {gap : List Char} {marks : List Mark}
      (cut : CutInto skips source pieces gap) (explicit : Explicit pieces marks) :
      ExplicitForm skips source (String.ofList (written marks ++ gap))

section Forms

variable {tokens : List Token} {tree : Expr}

theorem ProgramForm.expression (form : ProgramForm tokens [.expression tree]) :
    ∃ front inner back, tokens = front ++ (inner ++ back) ∧ Separators front ∧
      Level.comparison.Stands inner tree ∧ Separators back := by
  rcases form with ⟨front, _, rfl, before, body⟩
  cases body with
  | cons form behind _ others =>
    cases others
    cases form with
    | expression stands =>
      exact ⟨front, _, _, by rw [List.append_nil], before, stands, behind⟩

theorem programForm_expression {front inner back : List Token} (before : Separators front)
    (stands : Level.comparison.Stands inner tree) (behind : Separators back) :
    ProgramForm (front ++ (inner ++ back)) [.expression tree] := by
  have body := BodyForm.cons (.expression stands) behind (.inl rfl) .nil
  rw [List.append_nil] at body
  exact ⟨front, _, rfl, before, body⟩

theorem Separators.reads (separators : Separators tokens) : ∀ token ∈ tokens, token.Reads := by
  intro token member
  have separates := separators token member
  apply Token.reads_of_kind
  · intro number
    rw [number] at separates
    cases separates
  · intro decimal
    rw [decimal] at separates
    cases separates

theorem ProgramForm.reads_expression (form : ProgramForm tokens [.expression tree]) :
    ∀ token ∈ tokens, token.Reads := by
  rcases form.expression with ⟨front, inner, back, rfl, before, stands, behind⟩
  simp only [List.forall_mem_append]
  exact ⟨before.reads, stands.2, behind.reads⟩

theorem exists_explicit {pieces : List Piece}
    (form : ProgramForm (pieces.map Piece.token) [.expression tree]) :
    ∃ marks, Explicit pieces marks := by
  rcases form.expression with ⟨_, _, _, whole, before, stands, behind⟩
  rcases List.map_eq_append_iff.mp whole with ⟨front, rest, rfl, rfl, later⟩
  rcases List.map_eq_append_iff.mp later with ⟨inner, back, rfl, same, rfl⟩
  rcases stands.1.groupable inner same with ⟨marks, grouped⟩
  exact ⟨_, .grouped before grouped behind⟩

theorem Explicit.words {pieces : List Piece} {marks : List Mark}
    (explicit : Explicit pieces marks) : wordsOf marks = pieces := by
  cases explicit with
  | grouped before expression behind =>
    rw [wordsOf_append, wordsOf_append, wordsOf_words, wordsOf_words, expression.words]

theorem Explicit.nested {pieces : List Piece} {marks : List Mark} (explicit : Explicit pieces marks)
    (form : ProgramForm (pieces.map Piece.token) [.expression tree]) :
    ProgramForm (tokensOf marks) [.expression tree.nested] := by
  have reads := form.reads_expression
  rw [List.forall_mem_map] at reads
  cases explicit with
  | @grouped front inner back marks before expression behind =>
    rcases expression.derives with ⟨tree', derives, derives'⟩
    simp only [List.forall_mem_append] at reads
    have reads' : ∀ token ∈ tokensOf marks, token.Reads := by
      apply tokensOf_all
      · exact Token.reads_of_kind (by decide) (by decide)
      · exact Token.reads_of_kind (by decide) (by decide)
      · rw [expression.words]
        exact reads.2.1
    have form' := programForm_expression before
      ⟨derives, List.forall_mem_map.mpr reads.2.1⟩ behind
    rw [List.map_append, List.map_append] at form
    obtain rfl : tree = tree' := by
      have same := form.unique form'
      simpa using same
    rw [tokensOf_append, tokensOf_append, tokensOf_words, tokensOf_words]
    exact programForm_expression before ⟨derives'.loosen (Nat.zero_le _), reads'⟩ behind

end Forms

section Sources

variable {skips : Bool} {source : String} {tree : Expr}

theorem exists_cutInto {tokens : List Token} {last : Nat}
    (lexes : Lexes skips (.start source) tokens (.ok last)) :
    ∃ pieces gap, CutInto skips source pieces gap ∧ pieces.map Piece.token = tokens := by
  rcases lexes.tiles with ⟨pieces, gap, tiles, same⟩
  have place : last = source.utf8ByteSize := lexes.endPos.trans (Scan.endPos_start source)
  refine ⟨pieces, gap, ⟨tiles, ?_⟩, same⟩
  rw [lexes.tokens_eq, same, place]

theorem Program.relocate_eq_expression {move : Nat → Nat} {program : Program}
    (same : program.relocate move = Program.relocate move [.expression tree]) :
    ∃ tree', program = [.expression tree'] ∧ tree'.relocate move = tree.relocate move := by
  simp only [Program.relocate, relocateStatements, Statement.relocate] at same
  rcases program with _ | ⟨statement, _ | ⟨next, statements⟩⟩
  · simp [relocateStatements] at same
  · simp only [relocateStatements, List.cons.injEq, and_true] at same
    cases statement with
    | expression tree' =>
      rw [Statement.relocate] at same
      exact ⟨tree', rfl, Statement.expression.inj same⟩
    | _ => simp [Statement.relocate] at same
  · simp [relocateStatements] at same

theorem parse_explicit {text : String} (parsed : parse skips source = .ok [.expression tree])
    (explicit : ExplicitForm skips source text) :
    ∃ tree', parse skips text = .ok [.expression tree'] ∧
      (tree'.relocate fun _ => 0) = tree.nested.relocate fun _ => 0 := by
  rcases parse_ok_iff.mp (parse_eq_ok.mp parsed) with ⟨tokens, last, lexes, form⟩
  cases explicit with
  | @written pieces gap marks cut explicit =>
    obtain ⟨rfl, finished⟩ := Prod.mk.inj (lexes.tokens_eq.symm.trans cut.tokens)
    have whole : Scan.start source = ⟨tiling pieces ++ gap, 0⟩ := by
      have text := cut.tiles.whole
      rw [List.append_nil] at text
      rw [← text]
      rfl
    have nested := explicit.nested form
    have blanks := cut.tiles.blanks
    rw [whole] at lexes
    rw [← explicit.words] at lexes blanks
    rcases lexes.written blanks cut.tiles.last 0 with ⟨tokens, stop, lexes', same⟩
    have moved : ProgramForm ((tokensOf marks).map (·.relocate fun _ => 0)) _ :=
      programForm_relocate_iff.mpr ⟨_, nested, rfl⟩
    rw [← same] at moved
    rcases programForm_relocate_iff.mp moved with ⟨program, form', alike⟩
    rcases Program.relocate_eq_expression alike with ⟨tree', rfl, alike'⟩
    refine ⟨tree', parse_eq_ok.mpr (parse_ok_iff.mpr ⟨tokens, stop, ?_, form'⟩), alike'⟩
    rw [Scan.start, String.toList_ofList]
    exact lexes'

/-- Whatever session it is run in, an expression comes to the same with all its parentheses. They
make it the nested expression, and a chain of operators does what its nested form does. -/
theorem explicit_form_runs_alike (parsed : parse skips source = .ok [.expression tree]) :
    (∃ text, ExplicitForm skips source text) ∧
      (∀ text, ExplicitForm skips source text → ∃ tree',
        parse skips text = .ok [.expression tree'] ∧
          (tree'.relocate fun _ => 0) = (tree.nested.relocate fun _ => 0) ∧
          ∀ (V : Type) [Arithmetic V] (depth : Nat) (session : Session V),
            (Program.eval depth [.expression tree']).runPlaceless session =
              (Program.eval depth [.expression tree]).runPlaceless session) ∧
      ∀ (V : Type) [Arithmetic V] (call : Invoke V), tree.nested.eval call = tree.eval call := by
  refine ⟨?form, ?alike, fun V _ call => tree.eval_nested⟩
  case form =>
    rcases parse_ok_iff.mp (parse_eq_ok.mp parsed) with ⟨tokens, last, lexes, form⟩
    rcases exists_cutInto lexes with ⟨pieces, gap, cut, rfl⟩
    rcases exists_explicit form with ⟨marks, explicit⟩
    exact ⟨_, .written cut explicit⟩
  case alike =>
    intro text explicit
    rcases parse_explicit parsed explicit with ⟨tree', parsed', same⟩
    refine ⟨tree', parsed', same, ?_⟩
    intro V _ depth session
    rw [eval_expression, eval_expression]
    calc (tree'.eval (invoke depth)).runPlaceless session
        = ((tree'.relocate fun _ => 0).eval (invoke depth)).runPlaceless session :=
          (tree'.runPlaceless_relocate _ depth session).symm
      _ = (tree.nested.eval (invoke depth)).runPlaceless session := by
          rw [same, tree.nested.runPlaceless_relocate]
      _ = (tree.eval (invoke depth)).runPlaceless session := by rw [tree.eval_nested]

end Sources

def differenceWords : List Token :=
  [⟨.identifier, "a", 0⟩, ⟨.operator .sub, "-", 0⟩, ⟨.identifier, "b", 0⟩,
    ⟨.operator .pow, "**", 0⟩, ⟨.number, "2", 0⟩, ⟨.operator .sub, "-", 0⟩,
    ⟨.operator .sub, "-", 0⟩, ⟨.identifier, "f", 0⟩, ⟨.leftParen, "(", 0⟩,
    ⟨.identifier, "c", 0⟩, ⟨.rightParen, ")", 0⟩]

theorem difference_in_parentheses :
    let tree : Expr := .chain (.name "a" 0)
      [⟨.sub, .chain (.name "b" 4) [⟨.pow, .number (.int 2) false 9, 6⟩], 2⟩,
        ⟨.sub, .negate (.call "f" [.name "c" 19] 15) 13, 11⟩]
    parse true "a - b ** 2 - - f ( c )" = .ok [.expression tree] ∧
      ∃ text, ExplicitForm true "a - b ** 2 - - f ( c )" text ∧ ∃ tree',
        parse true text = .ok [.expression tree'] ∧ ∀ (session : Session Number),
          (Program.eval callDepth [.expression tree']).runPlaceless session =
            (Program.eval callDepth [.expression tree]).runPlaceless session := by
  intro tree
  have known : ∀ token ∈ differenceWords, Known token := by decide
  have lexes : Lexes true (.start "a - b ** 2 - - f ( c )") _ _ := lexes_spaced known 0
  have parsed : parse true "a - b ** 2 - - f ( c )" = .ok [.expression tree] := by
    rw [parse, Program.parse, Stream.ofSource, lexes.tokens_eq]
    rfl
  rcases explicit_form_runs_alike parsed with ⟨⟨text, explicit⟩, alike, _⟩
  rcases alike text explicit with ⟨tree', parsed', _, same⟩
  exact ⟨parsed, text, explicit, tree', parsed', fun session => same Number callDepth session⟩

end Calculator
