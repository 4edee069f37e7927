import Calculator.Proofs.Grammar.EarlyErrors
import Calculator.Proofs.Syntax.Landmarks

/-!
Trees are faithful to their tokens. Each token of a source is the landmark of one node, or a name
that is bound, or one of the words that only hold the others together, and all are in their order.
-/

namespace Calculator

open Calculator.Lexer

def Kind.isSilent : Kind → Bool
  | leftParen | rightParen | comma | rightBrace | assign | keyword .thenWord | keyword .elseWord
  | newline | semicolon => true
  | _ => false

def Token.value? (token : Token) : Option Scalar :=
  match token.kind with
  | .number => (readInt64? token.text.toList).map .int
  | .decimal => (readFloat? token.text.toList).map .float
  | _ => none

/-- The token that a landmark tells of. -/
inductive Landmark.Fits : Landmark → Token → Prop
  | word (token : Token) : Fits (.word token) token
  | literal {token : Token} {value : Scalar} (stands : token.value? = some value) :
      Fits (.literal value token.pos) token

/-- Landmarks and names account for tokens: they are found among the tokens in their order, and the
other tokens are silent. -/
inductive Accounts : List Token → List Landmark → List String → Prop
  | nil : Accounts [] [] []
  | landmark {token : Token} {mark : Landmark} {tokens : List Token} {marks : List Landmark}
      {names : List String} (fits : mark.Fits token) (later : Accounts tokens marks names) :
      Accounts (token :: tokens) (mark :: marks) names
  | name {token : Token} {tokens : List Token} {marks : List Landmark} {names : List String}
      (kind : token.kind = .identifier) (later : Accounts tokens marks names) :
      Accounts (token :: tokens) marks (token.text :: names)
  | silent {token : Token} {tokens : List Token} {marks : List Landmark} {names : List String}
      (kind : token.kind.isSilent) (later : Accounts tokens marks names) :
      Accounts (token :: tokens) marks names

section Lists

variable {tokens tokens' : List Token} {marks marks' : List Landmark} {names names' : List String}

theorem Accounts.append (front : Accounts tokens marks names)
    (back : Accounts tokens' marks' names') :
    Accounts (tokens ++ tokens') (marks ++ marks') (names ++ names') := by
  induction front with
  | nil => exact back
  | landmark fits _ ih => exact .landmark fits ih
  | name kind _ ih => exact .name kind ih
  | silent kind _ ih => exact .silent kind ih

theorem Accounts.silent_right {token : Token} (front : Accounts tokens marks names)
    (kind : token.kind.isSilent) : Accounts (tokens ++ [token]) marks names := by
  have whole := front.append (.silent kind .nil)
  rwa [List.append_nil, List.append_nil] at whole

theorem accounts_silent (silent : ∀ token ∈ tokens, token.kind.isSilent) :
    Accounts tokens [] [] := by
  induction tokens with
  | nil => exact .nil
  | cons token tokens ih =>
    rcases List.forall_mem_cons.mp silent with ⟨here, later⟩
    exact .silent here (ih later)

theorem Separators.silent (separators : Separators tokens) :
    ∀ token ∈ tokens, token.kind.isSilent := by
  intro token member
  have separates := separators token member
  cases kind : token.kind with
  | newline | semicolon => rfl
  | _ =>
    rw [kind] at separates
    cases separates

theorem Accounts.fits (accounts : Accounts tokens marks names) :
    ∀ mark ∈ marks, ∃ token ∈ tokens, mark.Fits token := by
  induction accounts with
  | nil => exact fun _ member => absurd member List.not_mem_nil
  | landmark fits _ ih =>
    refine List.forall_mem_cons.mpr ⟨⟨_, List.mem_cons_self, fits⟩, ?_⟩
    intro mark member
    rcases ih mark member with ⟨token, listed, fits⟩
    exact ⟨token, List.mem_cons_of_mem _ listed, fits⟩
  | name _ _ ih | silent _ _ ih =>
    intro mark member
    rcases ih mark member with ⟨token, listed, fits⟩
    exact ⟨token, List.mem_cons_of_mem _ listed, fits⟩

theorem Landmark.Fits.pos {mark : Landmark} {token : Token} (fits : mark.Fits token) :
    mark.pos = token.pos := by
  cases fits with
  | word => rfl
  | literal => rfl

theorem Accounts.sublist (accounts : Accounts tokens marks names) :
    (marks.map Landmark.pos).Sublist (tokens.map Token.pos) := by
  induction accounts with
  | nil => exact .slnil
  | landmark fits _ ih =>
    rw [List.map_cons, List.map_cons, fits.pos]
    exact ih.cons_cons _
  | name _ _ ih | silent _ _ ih => exact ih.cons _

end Lists

section Words

variable {token : Token}

theorem Lexer.Known.eq {kind : Kind} (known : Known token) (same : token.kind = kind)
    (fixed : kind.spelling ≠ "") : token = ⟨kind, kind.spelling, token.pos⟩ := by
  subst same
  rcases token with ⟨kind, text, pos⟩
  have text_eq : text = kind.spelling := known.text_eq fixed
  rw [text_eq]

theorem fits_word {kind : Kind} (known : Known token) (same : token.kind = kind)
    (fixed : kind.spelling ≠ "") :
    Landmark.Fits (.word ⟨kind, kind.spelling, token.pos⟩) token := by
  rw [known.eq same fixed]
  exact .word _

theorem fits_name (kind : token.kind = .identifier) :
    Landmark.Fits (.name token.text token.pos) token := by
  rcases token with ⟨_, text, pos⟩
  cases kind
  exact .word _

theorem fits_operator {op : BinaryOp} (known : Known token) (kind : token.kind = .operator op) :
    Landmark.Fits (.operator op token.pos) token :=
  fits_word known kind (by cases op <;> decide)

theorem fits_keyword {word : Keyword} (known : Known token) (kind : token.kind = .keyword word) :
    Landmark.Fits (.keyword word token.pos) token :=
  fits_word known kind (by cases word <;> decide)

theorem fits_brace (known : Known token) (kind : token.kind = .leftBrace) :
    Landmark.Fits (.brace token.pos) token :=
  fits_word known kind (by decide)

theorem name_of_ofName {text : String} {type : NumberType}
    (named : NumberType.ofName? text = some type) : text = type.name := by
  unfold NumberType.ofName? at named
  split at named
  · cases named
    rfl
  · cases named
    rfl
  · cases named

theorem Declares.fits {declared : Option NumberType} (declares : Declares token declared)
    (known : Known token) : Landmark.Fits (.declaring declared token.pos) token := by
  cases declares with
  | set kind => exact fits_keyword known kind
  | type kind named =>
    rcases token with ⟨_, text, pos⟩
    cases kind
    obtain rfl : text = _ := name_of_ofName named
    exact .word _

theorem fits_int (kind : token.kind = .number) (reads : token.Reads) :
    Landmark.Fits (.literal (.int token.intValue) token.pos) token := by
  rcases Option.isSome_iff_exists.mp (reads.1 kind) with ⟨value, read⟩
  apply Landmark.Fits.literal
  rw [Token.value?, kind, Token.intValue, read]
  rfl

theorem fits_float (kind : token.kind = .decimal) (reads : token.Reads) :
    Landmark.Fits (.literal (.float token.floatValue) token.pos) token := by
  rcases Option.isSome_iff_exists.mp (reads.2 kind) with ⟨value, read⟩
  apply Landmark.Fits.literal
  rw [Token.value?, kind, Token.floatValue, read]
  rfl

end Words

section Expressions

variable {level : Level} {tokens : List Token}

/-- A word of a source. If it is a literal, then its text can be read. -/
def Token.Sound (token : Token) : Prop := Known token ∧ token.Reads

def ExprAccounts (tokens : List Token) (tree : Expr) : Prop :=
  (∀ token ∈ tokens, token.Sound) → Accounts tokens tree.landmarks []

theorem Linked.accounts {links : List Link}
    (linked : Linked (fun _ => ExprAccounts) level tokens links)
    (sound : ∀ token ∈ tokens, token.Sound) : Accounts tokens (linksLandmarks links) [] := by
  induction linked with
  | nil => exact .nil
  | cons operator own first others ih =>
    simp only [List.forall_mem_cons, List.forall_mem_append] at sound
    rcases sound with ⟨here, front, back⟩
    exact .landmark (fits_operator here.1 operator) ((first front).append (ih back))

theorem CommaList.accounts {arguments : List Expr}
    (list : CommaList ExprAccounts tokens arguments)
    (sound : ∀ token ∈ tokens, token.Sound) : Accounts tokens (exprsLandmarks arguments) [] := by
  induction list with
  | nil => exact .nil
  | one first =>
    rw [exprsLandmarks, exprsLandmarks, List.append_nil]
    exact first sound
  | more first separator others nonempty ih =>
    simp only [List.forall_mem_cons, List.forall_mem_append] at sound
    rcases sound with ⟨front, _, back⟩
    exact (first front).append (.silent (by rw [separator]; rfl) (ih back))

theorem Enclosed.accounts {name : Token} (callee : Enclosed tokens name) :
    Accounts tokens [.name name.text name.pos] [] := by
  induction callee with
  | name kind => exact .landmark (fits_name kind) .nil
  | parens opens inner closes ih =>
    exact .silent (by rw [opens]; rfl) (ih.silent_right (by rw [closes]; rfl))

theorem Derives.accounts {tree : Expr} (derives : Derives Enclosed level tokens tree) :
    ExprAccounts tokens tree := by
  apply derives.induct (fun _ => ExprAccounts)
  case tighter => exact fun _ inner => inner
  case fold =>
    intro level tokens rest first links folds begins linked nonempty sound
    rcases List.forall_mem_append.mp sound with ⟨front, back⟩
    exact (begins front).append (linked.accounts back)
  case power =>
    intro word tokens rest base exponent left operator right sound
    simp only [List.forall_mem_cons, List.forall_mem_append] at sound
    rcases sound with ⟨front, here, back⟩
    simp only [Expr.landmarks, linksLandmarks, List.append_nil]
    exact (left front).append (.landmark (fits_operator here.1 operator) (right back))
  case negate =>
    intro word tokens operand operator inner sound
    rcases List.forall_mem_cons.mp sound with ⟨here, back⟩
    exact .landmark (fits_operator here.1 operator) (inner back)
  case call =>
    intro name opening closing front tokens arguments callee opens inner closes sound
    simp only [List.forall_mem_cons, List.forall_mem_append] at sound
    have listed := inner.accounts sound.2.2.1
    exact callee.accounts.append
      (.silent (by rw [opens]; rfl) (listed.silent_right (by rw [closes]; rfl)))
  case number =>
    intro word kind sound
    exact .landmark (fits_int kind (sound word (List.mem_singleton.mpr rfl)).2) .nil
  case decimal =>
    intro word kind sound
    exact .landmark (fits_float kind (sound word (List.mem_singleton.mpr rfl)).2) .nil
  case name =>
    intro word kind sound
    exact .landmark (fits_name kind) .nil
  case parens =>
    intro opening closing tokens tree opens inner closes sound
    simp only [List.forall_mem_cons, List.forall_mem_append] at sound
    exact .silent (by rw [opens]; rfl) ((inner sound.2.1).silent_right (by rw [closes]; rfl))

theorem Level.Stands.accounts {tree : Expr} (stands : level.Stands tokens tree)
    (known : ∀ token ∈ tokens, Known token) : Accounts tokens tree.landmarks [] :=
  stands.1.accounts fun token member => ⟨known token member, stands.2 token member⟩

end Expressions

section Statements

theorem Names.accounts {tokens : List Token} {params : List String}
    (list : CommaList Names tokens params) : Accounts tokens [] params := by
  induction list with
  | nil => exact .nil
  | one first =>
    cases first with
    | name kind => exact .name kind .nil
  | more first separator others nonempty ih =>
    cases first with
    | name kind => exact .name kind (.silent (by rw [separator]; rfl) ih)

mutual

theorem StatementForm.accounts {tokens : List Token} {result : Statement} :
    StatementForm tokens result → (∀ token ∈ tokens, Known token) →
      Accounts tokens result.landmarks result.boundNames
  | .assign declares named assigns stands, known => by
      simp only [List.forall_mem_cons] at known
      exact .landmark (declares.fits known.1)
        (.name named (.silent (by rw [assigns]; rfl) (stands.accounts known.2.2.2)))
  | .define defines named opens names closes block, known => by
      simp only [List.forall_mem_cons, List.forall_mem_append] at known
      have body := block.accounts known.2.2.2.2.2
      have rest := (Names.accounts names).append (.silent (by rw [closes]; rfl) body)
      exact .landmark (fits_keyword known.1 defines)
        (.name named (.silent (by rw [opens]; rfl) rest))
  | .block block, known => block.accounts known
  | .ifThen kind stands goesOn form, known => by
      simp only [List.forall_mem_cons, List.forall_mem_append] at known
      have consequence := form.accounts known.2.2.2
      exact .landmark (fits_keyword known.1 kind)
        ((stands.accounts known.2.1).append (.silent (by rw [goesOn]; rfl) consequence))
  | .ifElse kind stands goesOn form _ otherwise form', known => by
      simp only [List.forall_mem_cons, List.forall_mem_append] at known
      have consequence := form.accounts known.2.2.2.1
      have alternative := form'.accounts known.2.2.2.2.2
      have branches := consequence.append (.silent (by rw [otherwise]; rfl) alternative)
      exact .landmark (fits_keyword known.1 kind)
        ((stands.accounts known.2.1).append (.silent (by rw [goesOn]; rfl) branches))
  | .print kind stands, known => by
      rcases List.forall_mem_cons.mp known with ⟨here, back⟩
      exact .landmark (fits_keyword here kind) (stands.accounts back)
  | .reset kind, known => by
      exact .landmark (fits_keyword (known _ (List.mem_singleton.mpr rfl)) kind) .nil
  | .expression stands, known => stands.accounts known

theorem BlockForm.accounts {tokens : List Token} {body : Block} :
    BlockForm tokens body → (∀ token ∈ tokens, Known token) →
      Accounts tokens body.landmarks body.boundNames
  | .braces opens separators body closes, known => by
      simp only [List.forall_mem_cons, List.forall_mem_append] at known
      have inner := (body.accounts known.2.2.1).silent_right (by rw [closes]; rfl)
      exact .landmark (fits_brace known.1 opens)
        ((accounts_silent separators.silent).append inner)

theorem BodyForm.accounts {tokens : List Token} {statements : List Statement} :
    BodyForm tokens statements → (∀ token ∈ tokens, Known token) →
      Accounts tokens (statementsLandmarks statements) (statementsBoundNames statements)
  | .nil, _ => .nil
  | .cons form separators _ body, known => by
      simp only [List.forall_mem_append] at known
      have later := (accounts_silent separators.silent).append (body.accounts known.2.2)
      exact (form.accounts known.1).append later

end

theorem ProgramForm.accounts {tokens : List Token} {program : Program}
    (form : ProgramForm tokens program) (known : ∀ token ∈ tokens, Known token) :
    Accounts tokens program.landmarks program.boundNames := by
  rcases form with ⟨gap, rest, rfl, separators, body⟩
  rcases List.forall_mem_append.mp known with ⟨_, known⟩
  exact (accounts_silent separators.silent).append (body.accounts known)

end Statements

section Sources

variable {skips : Bool} {scan : Scan} {tokens : List Token} {ending : Except LexError Nat}

theorem Lexer.Lexes.pos_le (lexes : Lexes skips scan tokens ending) :
    ∀ token ∈ tokens, scan.pos ≤ token.pos := by
  induction lexes with
  | ended => exact fun _ member => absurd member List.not_mem_nil
  | stuck => exact fun _ member => absurd member List.not_mem_nil
  | @word scan word tail kind tokens ending text longest known later ih =>
    rcases skip_spec (standard skips) scan with ⟨gap, _, place, _⟩
    refine List.forall_mem_cons.mpr ⟨?_, fun token member => ?_⟩
    · simp only
      omega
    · have bound := ih token member
      simp only at bound
      omega

theorem Lexer.Lexes.increasing (lexes : Lexes skips scan tokens ending) :
    (tokens.map Token.pos).Pairwise (· < ·) := by
  induction lexes with
  | ended => exact .nil
  | stuck => exact .nil
  | @word scan word tail kind tokens ending text longest known later ih =>
    refine List.pairwise_cons.mpr ⟨?_, ih⟩
    intro pos member
    rcases List.mem_map.mp member with ⟨token, listed, rfl⟩
    have bound := later.pos_le token listed
    have letters := byteCount_pos longest.nonempty
    simp only at bound ⊢
    omega

end Sources

/-- Where a landmark is found in a source: a token with its text, or with a text that stands for its
value, begins at its position. -/
def Landmark.StandsIn (source : String) (tokens : List Token) (mark : Landmark) : Prop :=
  ∃ token ∈ tokens, mark.Fits token ∧ ∃ before after,
    source = before ++ token.text ++ after ∧ mark.pos = before.utf8ByteSize

/-- No token of a source is lost, doubled or moved in its tree. -/
theorem tree_accounts_for_tokens (skips : Bool) (source : String) (program : Program)
    (parsed : parse skips source = .ok program) :
    ∃ tokens, (standard skips).tokens (.start source) = (tokens, .ok source.utf8ByteSize) ∧
      Accounts tokens program.landmarks program.boundNames ∧
      (program.landmarks.map Landmark.pos).Pairwise (· < ·) ∧
      ∀ mark ∈ program.landmarks, mark.StandsIn source tokens := by
  rcases parse_ok_iff.mp (parse_eq_ok.mp parsed) with ⟨tokens, last, lexes, form⟩
  have accounts := form.accounts lexes.known
  refine ⟨tokens, ?_, accounts, lexes.increasing.sublist accounts.sublist, ?_⟩
  · rw [lexes.tokens_eq, lexes.endPos, Scan.endPos_start]
  · intro mark member
    rcases accounts.fits mark member with ⟨token, listed, fits⟩
    rcases List.append_of_mem listed with ⟨front, back, rfl⟩
    rcases lexes.places with ⟨before, after, whole, place, _, second, stays⟩
    have same : token.pos = before.utf8ByteSize := Option.some.inj place
    rcases second.first with ⟨tail, begins, _⟩
    rw [stays] at begins
    have text : after = token.text ++ String.ofList tail := by
      apply String.toList_inj.mp
      rw [String.toList_append, String.toList_ofList]
      exact begins
    refine ⟨token, listed, fits, before, String.ofList tail, ?_, fits.pos.trans same⟩
    rw [whole, text, String.append_assoc]

def definingSource : String := "func f ( ) \x7b set m = - 2 \x7d"

def definingTokens : List Token :=
  [⟨.keyword .funcWord, "func", 0⟩, ⟨.identifier, "f", 5⟩, ⟨.leftParen, "(", 7⟩,
    ⟨.rightParen, ")", 9⟩, ⟨.leftBrace, "\x7b", 11⟩, ⟨.keyword .setWord, "set", 13⟩,
    ⟨.identifier, "m", 17⟩, ⟨.assign, "=", 19⟩, ⟨.operator .sub, "-", 21⟩, ⟨.number, "2", 23⟩,
    ⟨.rightBrace, "\x7d", 25⟩]

def definingProgram : Program :=
  [.define ⟨"f", [], ⟨[.assign "m" none (.negate (.number (.int 2) false 23) 21) 13], 11⟩, 0⟩]

theorem definingSource_accounted :
    parse true definingSource = .ok definingProgram ∧
    ∃ tokens, (standard true).tokens (.start definingSource) =
        (tokens, .ok definingSource.utf8ByteSize) ∧
      Accounts tokens definingProgram.landmarks definingProgram.boundNames ∧
      (definingProgram.landmarks.map Landmark.pos).Pairwise (· < ·) ∧
      ∀ mark ∈ definingProgram.landmarks, mark.StandsIn definingSource tokens := by
  have known : ∀ token ∈ definingTokens, Known token := by decide
  have lexes : Lexes true (.start definingSource) definingTokens (.ok 26) := lexes_spaced known 0
  have parsed : parse true definingSource = .ok definingProgram := by
    rw [parse, Program.parse, Stream.ofSource, lexes.tokens_eq]
    rfl
  exact ⟨parsed, tree_accounts_for_tokens true definingSource definingProgram parsed⟩

end Calculator
