import Calculator.Proofs.Grammar.Joining
import Calculator.Proofs.Grammar.WrittenForms

/-!
Writing and parsing undo each other. Every program that can be written parses back from its text,
and sources without points in their numbers have no other programs.
-/

namespace Calculator

open Calculator.Lexer

section Words

variable {token : Token}

theorem isName_of_known (known : Known token) (kind : token.kind = .identifier) :
    isName token.text := by
  rw [Known, kind] at known
  simpa [isName] using classify_identifier.mp known

/-- A word of a source: if it is a number, then one without a point that can be read. -/
structure Token.Whole (token : Token) : Prop where
  known : Known token
  reads : token.Reads
  whole : token.kind ≠ .decimal

theorem Token.Whole.intValue_nonneg (whole : token.Whole) (kind : token.kind = .number) :
    0 ≤ token.intValue := by
  rcases whole.known.spelled.1 kind with ⟨nonempty, digits⟩
  rcases Option.isSome_iff_exists.mp (whole.reads.1 kind) with ⟨value, read⟩
  rw [Token.intValue, read]
  exact readInt64?_nonneg nonempty digits read

end Words

section Expressions

variable {tokens : List Token} {level : Level} {links : List Link} {values : List Expr}

theorem areLinks_of_folds (folds : level.Folds) (nonempty : links ≠ [])
    (own : ∀ link ∈ links, link.op.level = level) : areLinks links := by
  rcases links with _ | ⟨first, _ | ⟨second, links⟩⟩
  · exact absurd rfl nonempty
  · rfl
  · rcases List.forall_mem_cons.mp own with ⟨rfl, own⟩
    simp only [areLinks, Bool.and_eq_true, decide_eq_true_eq, List.all_eq_true, beq_iff_eq]
    exact ⟨folds, own⟩

/-- Words of a source that stand for something that can be written. -/
def ReadsWritable (tokens : List Token) (tree : Expr) : Prop :=
  (∀ token ∈ tokens, token.Whole) → tree.isWritable

theorem Linked.writable (linked : Linked (fun _ => ReadsWritable) level tokens links)
    (whole : ∀ token ∈ tokens, token.Whole) :
    linksWritable links ∧ ∀ link ∈ links, link.op.level = level := by
  induction linked with
  | nil => exact ⟨rfl, by simp⟩
  | cons operator own first others ih =>
    simp only [List.forall_mem_cons, List.forall_mem_append] at whole
    rcases ih whole.2.2 with ⟨writable, same⟩
    subst own
    simp only [linksWritable, Bool.and_eq_true]
    exact ⟨⟨first whole.2.1, writable⟩, List.forall_mem_cons.mpr ⟨rfl, same⟩⟩

theorem CommaList.writable (list : CommaList ReadsWritable tokens values)
    (whole : ∀ token ∈ tokens, token.Whole) : exprsWritable values := by
  induction list with
  | nil => rfl
  | one first => simp [exprsWritable, first whole]
  | more first separator others nonempty ih =>
    simp only [List.forall_mem_cons, List.forall_mem_append] at whole
    simp [exprsWritable, first whole.1, ih whole.2.2]

theorem Enclosed.name_mem {name : Token} (callee : Enclosed tokens name) :
    name ∈ tokens ∧ name.kind = .identifier := by
  induction callee with
  | name kind => exact ⟨List.mem_singleton.mpr rfl, kind⟩
  | parens opens inner closes ih =>
    exact ⟨List.mem_append_left _ (List.mem_cons_of_mem _ ih.1), ih.2⟩

theorem Derives.writable {tree : Expr} (derives : Derives Enclosed level tokens tree) :
    ReadsWritable tokens tree := by
  apply derives.induct (fun _ => ReadsWritable)
  · exact fun _ inner => inner
  · intro level tokens rest first links folds begins linked nonempty whole
    rcases List.forall_mem_append.mp whole with ⟨front, back⟩
    rcases linked.writable back with ⟨operands, own⟩
    simp [Expr.isWritable, begins front, areLinks_of_folds folds nonempty own, operands]
  · intro word tokens rest base exponent left operator right whole
    simp only [List.forall_mem_cons, List.forall_mem_append] at whole
    simp [Expr.isWritable, linksWritable, areLinks, left whole.1, right whole.2.2]
  · intro word tokens operand operator inner whole
    simp only [Expr.isWritable]
    exact inner (List.forall_mem_cons.mp whole).2
  · intro name opening closing front tokens arguments callee opens inner closes whole
    simp only [List.forall_mem_cons, List.forall_mem_append] at whole
    have named := isName_of_known (whole.1 name callee.name_mem.1).known callee.name_mem.2
    simp [Expr.isWritable, named, inner.writable whole.2.2.1]
  · intro word kind whole
    simp [Expr.isWritable, (whole word (by simp)).intValue_nonneg kind]
  · intro word kind whole
    exact absurd kind (whole word (by simp)).whole
  · intro word kind whole
    simp [Expr.isWritable, isName_of_known (whole word (by simp)).known kind]
  · intro opening closing tokens tree opens inner closes whole
    simp only [List.forall_mem_cons, List.forall_mem_append] at whole
    exact inner whole.2.1

end Expressions

section Statements

variable {tokens : List Token}

def Undotted (tokens : List Token) : Prop :=
  ∀ token ∈ tokens, Known token ∧ token.kind ≠ .decimal

theorem Level.Stands.writable {level : Level} {tree : Expr} (stands : level.Stands tokens tree)
    (undotted : Undotted tokens) : tree.isWritable :=
  stands.1.writable fun token member =>
    ⟨(undotted token member).1, stands.2 token member, (undotted token member).2⟩

theorem undotted_cons {token : Token} :
    Undotted (token :: tokens) ↔ (Known token ∧ token.kind ≠ .decimal) ∧ Undotted tokens :=
  List.forall_mem_cons

theorem undotted_append {front back : List Token} :
    Undotted (front ++ back) ↔ Undotted front ∧ Undotted back :=
  List.forall_mem_append

theorem CommaList.isName_all {params : List String} (names : CommaList Names tokens params)
    (undotted : Undotted tokens) : params.all isName := by
  induction names with
  | nil => rfl
  | one first =>
    cases first with
    | name kind => simp [isName_of_known (undotted_cons.mp undotted).1.1 kind]
  | more first separator others nonempty ih =>
    rw [undotted_append, undotted_cons] at undotted
    cases first with
    | name kind =>
      simp [isName_of_known (undotted_cons.mp undotted.1).1.1 kind, ih undotted.2.2,
        -List.all_eq_true]

mutual

theorem StatementForm.writable {tokens : List Token} {statement : Statement} :
    StatementForm tokens statement → Undotted tokens → statement.isWritable
  | .assign declares named assigns stands, undotted => by
      simp only [undotted_cons] at undotted
      simp [Statement.isWritable, isName_of_known undotted.2.1.1 named,
        stands.writable undotted.2.2.2]
  | .define defines named opens names closes block, undotted => by
      simp only [undotted_cons, undotted_append] at undotted
      have params := names.isName_all undotted.2.2.2.1
      simp [Statement.isWritable, Definition.isWritable, isName_of_known undotted.2.1.1 named,
        params, block.writable undotted.2.2.2.2.2, -List.all_eq_true]
  | .block block, undotted => by
      simp only [Statement.isWritable]
      exact block.writable undotted
  | .ifThen kind stands goesOn form, undotted => by
      simp only [undotted_cons, undotted_append] at undotted
      simp [Statement.isWritable, stands.writable undotted.2.1, form.writable undotted.2.2.2]
  | .ifElse kind stands goesOn form nearest otherwise form', undotted => by
      simp only [undotted_cons, undotted_append] at undotted
      rcases undotted with ⟨_, holds, _, first, _, second⟩
      simp [Statement.isWritable, stands.writable holds, form.writable first, nearest,
        form'.writable second]
  | .print kind stands, undotted => by
      simp only [Statement.isWritable]
      exact stands.writable (undotted_cons.mp undotted).2
  | .reset kind, _ => by simp [Statement.isWritable]
  | .expression stands, undotted => by
      simp only [Statement.isWritable]
      exact stands.writable undotted

theorem BlockForm.writable {tokens : List Token} {body : Block} :
    BlockForm tokens body → Undotted tokens → body.isWritable
  | .braces opens separators body closes, undotted => by
      simp only [undotted_cons, undotted_append] at undotted
      simp only [Block.isWritable]
      exact body.writable undotted.2.2.1

theorem BodyForm.writable {tokens : List Token} {statements : List Statement} :
    BodyForm tokens statements → Undotted tokens → statementsWritable statements
  | .nil, _ => by simp [statementsWritable]
  | .cons form separators apart body, undotted => by
      simp only [undotted_append] at undotted
      simp [statementsWritable, form.writable undotted.1, body.writable undotted.2.2]

end

theorem ProgramForm.writable {program : Program} (form : ProgramForm tokens program)
    (undotted : Undotted tokens) : program.isWritable := by
  rcases form with ⟨gap, rest, rfl, separators, body⟩
  exact body.writable (undotted_append.mp undotted).2

end Statements

section Texts

theorem exists_lexes_written {program : Program} (writable : program.isWritable) :
    ∃ tokens last, Lexes true (.start program.written) tokens (.ok last) ∧
      tokens.map (·.relocate fun _ => 0) = program.words := by
  have written := Program.written_words writable
  have text : Scan.start program.written = ⟨spaced program.words, 0⟩ := by
    rw [Scan.start, Program.written, String.toList_intercalate, List.map_map]
    rfl
  have placed : program.words.map (·.relocate fun _ => 0) = program.words := by
    calc program.words.map (·.relocate fun _ => 0)
      _ = program.words.map id := List.map_congr_left fun token member =>
          congrArg (Token.mk token.kind token.text) (written token member).pos.symm
      _ = program.words := List.map_id _
  rcases exists_lexes_spaced (fun token member => (written token member).known) 0 with
    ⟨tokens, last, lexes, same⟩
  rw [text]
  exact ⟨tokens, last, lexes, same.trans placed⟩

/-- Every program that can be written parses back from its text, up to positions, and a source
without points in its numbers parses to nothing but programs that can be written. -/
theorem writing_and_parsing :
    (∀ program : Program, program.isWritable →
      ∃ parsed, parse true program.written = .ok parsed ∧
        parsed.placeless = program.placeless) ∧
    ∀ (skips : Bool) (source : String) (program : Program),
      (∀ token ∈ ((standard skips).tokens (.start source)).1, token.kind ≠ .decimal) →
      parse skips source = .ok program → program.isWritable := by
  constructor
  · intro program writable
    rcases exists_lexes_written writable with ⟨tokens, last, lexes, same⟩
    have form := Program.form_words writable
    rw [← same] at form
    rcases programForm_relocate_iff.mp form with ⟨parsed, form, placeless⟩
    exact ⟨parsed, parse_eq_ok.mpr (parse_ok_iff.mpr ⟨tokens, last, lexes, form⟩), placeless⟩
  · intro skips source program whole parsed
    rcases parse_ok_iff.mp (parse_eq_ok.mp parsed) with ⟨tokens, last, lexes, form⟩
    rw [lexes.tokens_eq] at whole
    exact form.writable fun token member => ⟨lexes.known token member, whole token member⟩

def groupedProgram : Program := [
  .print (.chain (.chain (.number (.int 1) false 0) [⟨.add, .name "x" 0, 0⟩])
    [⟨.mul, .negate (.chain (.name "y" 0) [⟨.pow, .number (.int 2) false 0, 0⟩]) 0, 0⟩]) 0,
  .reset 0]

theorem groupedProgram_round_trip :
    (groupedProgram.isWritable ∧
      groupedProgram.written = "print ( 1 + x ) * ( - ( y ** 2 ) ) ; reset") ∧
    ∃ parsed, parse true groupedProgram.written = .ok parsed ∧
      parsed.placeless = groupedProgram.placeless ∧ parsed.isWritable := by
  have writable : groupedProgram.isWritable := by decide
  have written : groupedProgram.written = "print ( 1 + x ) * ( - ( y ** 2 ) ) ; reset" := by decide
  rcases writing_and_parsing.1 groupedProgram writable with ⟨parsed, parses, placeless⟩
  have whole : ∀ token ∈ ((standard true).tokens (.start groupedProgram.written)).1,
      token.kind ≠ .decimal := by
    rcases exists_lexes_written writable with ⟨tokens, last, lexes, same⟩
    have checked : ∀ token ∈ groupedProgram.words, token.kind ≠ .decimal := by decide
    rw [lexes.tokens_eq]
    intro token member
    exact checked (token.relocate fun _ => 0) (same ▸ List.mem_map_of_mem member)
  exact ⟨⟨writable, written⟩, parsed, parses, placeless,
    writing_and_parsing.2 true _ parsed whole parses⟩

end Texts

end Calculator
