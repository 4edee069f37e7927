import Calculator.Proofs.Grammar.Joining
import Calculator.Proofs.Lexer.Spelling

/-!
Layout. A source may be written anew with other blanks between its words and with other separators
where separators may stand, and has the same tree.
-/

namespace Calculator

open Calculator.Lexer

def IsSeparator (word : String) : Prop := word = "\n" ∨ word = ";"

/-- Words that are written for tokens. The words of a run of separators are any separators, and at
least one if there is one in the run. The other words stay as they are. Where there are no
separators, some may be added at the end and in front of a closing brace, and, if it is `free`, at
the start; behind an opening brace it is. -/
inductive Relaid : (free : Bool) → List Token → List String → Prop
  | finish {free : Bool} {gap : List Token} {words : List String} (separators : Separators gap)
      (separators' : ∀ word ∈ words, IsSeparator word) (kept : gap ≠ [] → words ≠ []) :
      Relaid free gap words
  | word {free : Bool} {gap rest : List Token} {token : Token} {words later : List String}
      (separators : Separators gap) (separators' : ∀ word ∈ words, IsSeparator word)
      (kept : gap ≠ [] → words ≠ [])
      (added : words ≠ [] → gap ≠ [] ∨ free = true ∨ token.kind = .rightBrace)
      (proper : ¬ token.kind.isSeparator) (more : Relaid (token.kind = .leftBrace) rest later) :
      Relaid free (gap ++ token :: rest) (words ++ token.text :: later)

/-- A text of words with blanks between any two of them. Next to a separator there may be none, and
there may be some at both ends. -/
inductive SpacedOut : List String → List Char → Prop
  | finish {blanks : List Char} (blank : ∀ c ∈ blanks, isBlank c) : SpacedOut [] blanks
  | word {blanks rest : List Char} {word : String} {words : List String}
      (blank : ∀ c ∈ blanks, isBlank c)
      (apart : IsSeparator word ∨ ∀ c ∈ rest.head?, isBlank c ∨ c = '\n' ∨ c = ';')
      (later : SpacedOut words rest) : SpacedOut (word :: words) (blanks ++ (word.toList ++ rest))

def wordToken (word : String) : Token :=
  ⟨((standard true).classify word.toList).getD .endOfInput, word, 0⟩

section Words

/-- Tokens that their words tell. -/
def Bare (tokens : List Token) : Prop := ∀ token ∈ tokens, wordToken token.text = token

variable {tokens : List Token} {words : List String} {word : String}

theorem bare_cons {token : Token} :
    Bare (token :: tokens) ↔ wordToken token.text = token ∧ Bare tokens :=
  List.forall_mem_cons

theorem bare_append {others : List Token} : Bare (tokens ++ others) ↔ Bare tokens ∧ Bare others :=
  List.forall_mem_append

theorem Bare.map (bare : Bare tokens) : (tokens.map Token.text).map wordToken = tokens := by
  rw [List.map_map]
  exact (List.map_congr_left bare).trans (List.map_id tokens)

theorem bare_of_known (known : ∀ token ∈ tokens, Known token) :
    Bare (tokens.map (·.relocate fun _ => 0)) := by
  intro token member
  obtain ⟨source, listed, rfl⟩ := List.mem_map.mp member
  have kind : (standard true).classify source.text.toList = some source.kind := known source listed
  rw [wordToken, Token.text_relocate, kind]
  rfl

theorem known_separator (separator : IsSeparator word) :
    ∃ kind : Kind, (standard true).classify word.toList = some kind ∧ kind.isSeparator := by
  obtain rfl | rfl := separator
  · exact ⟨.newline, @classify_spelling .newline true (by decide), rfl⟩
  · exact ⟨.semicolon, @classify_spelling .semicolon true (by decide), rfl⟩

theorem separators_map (separators : ∀ word ∈ words, IsSeparator word) :
    Separators (words.map wordToken) := by
  intro token member
  obtain ⟨word, listed, rfl⟩ := List.mem_map.mp member
  obtain ⟨kind, known, separates⟩ := known_separator (separators word listed)
  rw [wordToken, known]
  exact separates

end Words

section Lexing

variable {words : List String} {text : List Char}

theorem longest_apart {word : String} {rest : List Char} {kind : Kind}
    (known : (standard true).classify word.toList = some kind)
    (apart : IsSeparator word ∨ ∀ c ∈ rest.head?, isBlank c ∨ c = '\n' ∨ c = ';') :
    Longest (word.toList ++ rest) word.toList := by
  have accepted := accepted_of_known known
  obtain (rfl | rfl) | follows := apart
  · exact longest_loner (by decide) accepted
  · exact longest_loner (by decide) accepted
  · have alone : Longest word.toList word.toList := longest_self (nonempty_of_known known) known
    cases rest with
    | nil =>
      rw [List.append_nil]
      exact alone
    | cons c rest =>
      apply alone.append rest
      obtain blank | rfl | rfl := follows c rfl
      · exact .inl blank
      · exact .inr (by decide)
      · exact .inr (by decide)

theorem SpacedOut.exists_lexes (spaced : SpacedOut words text)
    (known : ∀ word ∈ words, ((standard true).classify word.toList).isSome) (pos : Nat) :
    ∃ tokens last, Lexes true ⟨text, pos⟩ tokens (.ok last) ∧
      tokens.map (·.relocate fun _ => 0) = words.map wordToken := by
  induction spaced generalizing pos with
  | finish blank =>
    exact ⟨[], _, .ended (@skip_blanks true _ _ blank), rfl⟩
  | @word blanks rest word words blank apart later ih =>
    obtain ⟨here, known⟩ := List.forall_mem_cons.mp known
    obtain ⟨kind, known'⟩ := Option.isSome_iff_exists.mp here
    obtain ⟨tokens, last, lexes, same⟩ :=
      ih known (pos + byteCount blanks + byteCount word.toList)
    refine ⟨_, last, .cut blank (longest_apart known' apart) known' lexes, ?_⟩
    rw [List.map_cons, same, List.map_cons, wordToken, known', String.ofList_toList]
    rfl

end Lexing

section Gaps

variable {free : Bool} {gap rest more : List Token} {token : Token} {words : List String}

theorem Separators.split {gap' rest' : List Token} {token' : Token} (separators : Separators gap)
    (separators' : Separators gap') (proper : ¬ token.kind.isSeparator)
    (proper' : ¬ token'.kind.isSeparator) (same : gap ++ token :: rest = gap' ++ token' :: rest') :
    gap = gap' ∧ token = token' ∧ rest = rest' := by
  induction gap generalizing gap' with
  | nil =>
    cases gap' with
    | nil =>
      cases same
      exact ⟨rfl, rfl, rfl⟩
    | cons other gap' =>
      cases same
      exact absurd (separators' _ List.mem_cons_self) proper
  | cons first gap ih =>
    cases gap' with
    | nil =>
      cases same
      exact absurd (separators _ List.mem_cons_self) proper'
    | cons other gap' =>
      obtain ⟨rfl, tails⟩ := List.cons.inj same
      obtain ⟨rfl, parts⟩ := ih (separators_cons.mp separators).2 (separators_cons.mp separators').2
        tails
      exact ⟨rfl, parts⟩

theorem Relaid.keep (proper : ¬ token.kind.isSeparator)
    (relaid : Relaid (token.kind = .leftBrace) rest words) :
    Relaid free (token :: rest) (token.text :: words) :=
  @Relaid.word free [] rest token [] words separators_nil
    (fun _ member => absurd member List.not_mem_nil) (fun nonempty => absurd rfl nonempty)
    (fun nonempty => absurd rfl nonempty) proper relaid

theorem Relaid.word_cases (relaid : Relaid free (gap ++ token :: rest) words)
    (separators : Separators gap) (proper : ¬ token.kind.isSeparator) :
    ∃ front later, words = front ++ token.text :: later ∧ (∀ word ∈ front, IsSeparator word) ∧
      (gap ≠ [] → front ≠ []) ∧ (front ≠ [] → gap ≠ [] ∨ free = true ∨ token.kind = .rightBrace) ∧
      Relaid (token.kind = .leftBrace) rest later := by
  generalize whole : gap ++ token :: rest = tokens at relaid
  cases relaid with
  | finish separators' =>
    subst whole
    exact absurd (separators' token (List.mem_append_right gap List.mem_cons_self)) proper
  | word separators' words kept added proper' more =>
    obtain ⟨rfl, rfl, rfl⟩ := separators.split separators' proper proper' whole
    exact ⟨_, _, rfl, words, kept, added, more⟩

theorem Relaid.word_first (relaid : Relaid false (token :: rest) words)
    (proper : ¬ token.kind.isSeparator) (inside : token.kind ≠ .rightBrace) :
    ∃ later, words = token.text :: later ∧ Relaid (token.kind = .leftBrace) rest later := by
  obtain ⟨front, later, rfl, _, _, added, more⟩ :=
    @Relaid.word_cases _ [] _ _ _ relaid separators_nil proper
  have empty : front = [] := by
    by_contra nonempty
    obtain absent | absent | absent := added nonempty
    · exact absent rfl
    · cases absent
    · exact inside absent
  subst empty
  exact ⟨later, rfl, more⟩

theorem Relaid.skip (relaid : Relaid free (gap ++ token :: rest) words)
    (separators : Separators gap) (proper : ¬ token.kind.isSeparator) :
    ∃ front later, words = front ++ later ∧ (∀ word ∈ front, IsSeparator word) ∧
      (gap ≠ [] → front ≠ []) ∧ Relaid false (token :: rest) later := by
  obtain ⟨front, later, rfl, words, kept, _, more⟩ := relaid.word_cases separators proper
  exact ⟨front, token.text :: later, rfl, words, kept, .keep proper more⟩

end Gaps

def Kind.isInner : Kind → Bool
  | .newline | .semicolon | .leftBrace | .rightBrace => false
  | _ => true

section Forms

variable {tokens rest more : List Token} {words : List String} {statement : Statement}

theorem Kind.isInner_of_inExpressions {kind : Kind} (inside : kind.inExpressions) :
    kind.isInner := by
  unfold inExpressions at inside
  split at inside
  all_goals first | rfl | cases inside

theorem Kind.not_isSeparator_of_isInner {kind : Kind} (inner : kind.isInner) :
    ¬ kind.isSeparator := by
  rw [isSeparator_iff]
  rintro (rfl | rfl)
  all_goals cases inner

theorem Level.Stands.isInner {level : Level} {tree : Expr} (stands : level.Stands tokens tree) :
    ∀ token ∈ tokens, token.kind.isInner :=
  fun token member => Kind.isInner_of_inExpressions (stands.1.inExpressions token member)

theorem Declares.isInner {word : Token} {declared : Option NumberType}
    (declares : Declares word declared) : word.kind.isInner := by
  cases declares with
  | set kind => rw [kind]; rfl
  | type kind _ => rw [kind]; rfl

theorem Names.isInner {name : String} (names : Names tokens name) :
    ∀ token ∈ tokens, token.kind.isInner := by
  cases names with
  | name kind => simp [kind, Kind.isInner]

theorem isInner_condition {word next : Token} {condition : Expr}
    (kind : word.kind = .keyword .ifWord) (stands : Level.comparison.Stands tokens condition)
    (goesOn : next.kind = .keyword .thenWord) :
    ∀ token ∈ word :: (tokens ++ [next]), token.kind.isInner := by
  simp only [List.forall_mem_cons, List.forall_mem_append]
  exact ⟨by simp [kind, Kind.isInner], stands.isInner, by simp [goesOn, Kind.isInner], by simp⟩

theorem Relaid.inner (inner : ∀ token ∈ tokens, token.kind.isInner)
    (relaid : Relaid false (tokens ++ more) words) :
    ∃ later, words = tokens.map Token.text ++ later ∧ Relaid false more later := by
  induction tokens generalizing words with
  | nil => exact ⟨words, rfl, relaid⟩
  | cons token tokens ih =>
    obtain ⟨here, inner⟩ := List.forall_mem_cons.mp inner
    have inside : token.kind ≠ .rightBrace := by
      intro brace
      rw [brace] at here
      cases here
    have after : decide (token.kind = .leftBrace) = false := by
      apply decide_eq_false
      intro brace
      rw [brace] at here
      cases here
    obtain ⟨later, rfl, behind⟩ := relaid.word_first (Kind.not_isSeparator_of_isInner here) inside
    rw [after] at behind
    obtain ⟨last, rfl, further⟩ := ih inner behind
    exact ⟨last, rfl, further⟩

/-- Wherever words are written for tokens and for more behind them, those for the tokens come first
and are of a form, and nothing may be added behind them. -/
def Relays (tokens : List Token) (form : List Token → Prop) : Prop :=
  ∀ more words, Relaid false (tokens ++ more) words →
    ∃ front later, words = front ++ later ∧ form (front.map wordToken) ∧ Relaid false more later

/-- What follows a list of statements: the end, or a closing brace. -/
inductive Stops : List Token → List String → Prop
  | finish : Stops [] []
  | brace {closing : Token} {more : List Token} {later : List String}
      (closes : closing.kind = .rightBrace) (relaid : Relaid false more later) :
      Stops (closing :: more) (closing.text :: later)

def BodyRelaid (tokens : List Token) (statements : List Statement) : Prop :=
  ∀ free gap more words, Separators gap →
    (more = [] ∨ ∃ closing rest, more = closing :: rest ∧ closing.kind = .rightBrace) →
    Relaid free (gap ++ (tokens ++ more)) words →
      ∃ front middle later, words = front ++ (middle ++ later) ∧
        (∀ word ∈ front, IsSeparator word) ∧ (gap ≠ [] → front ≠ []) ∧
        BodyForm (middle.map wordToken) statements ∧ Stops more later

theorem Relays.mono {form form' : List Token → Prop} (relays : Relays tokens form)
    (weaker : ∀ tokens, form tokens → form' tokens) : Relays tokens form' := by
  intro more words relaid
  obtain ⟨front, later, same, written, behind⟩ := relays more words relaid
  exact ⟨front, later, same, weaker _ written, behind⟩

theorem Relays.append {form form' : List Token → Prop} (relays : Relays tokens form)
    (relays' : Relays rest form') :
    Relays (tokens ++ rest) fun both => ∃ front back, both = front ++ back ∧ form front ∧
      form' back := by
  intro more words relaid
  rw [List.append_assoc] at relaid
  obtain ⟨front, later, rfl, written, behind⟩ := relays _ _ relaid
  obtain ⟨front', last, rfl, written', further⟩ := relays' _ _ behind
  exact ⟨front ++ front', last, by simp,
    ⟨_, _, List.map_append, written, written'⟩, further⟩

theorem relays_inner (inner : ∀ token ∈ tokens, token.kind.isInner) (bare : Bare tokens) :
    Relays tokens (· = tokens) := by
  intro more words relaid
  obtain ⟨later, rfl, behind⟩ := relaid.inner inner
  exact ⟨tokens.map Token.text, later, rfl, bare.map, behind⟩

def StatementRelays (tokens : List Token) (statement : Statement) : Prop :=
  Relays tokens fun front => StatementForm front statement ∧
    (EndsInBrace tokens → EndsInBrace front)

theorem Relaid.finish_cases {free : Bool} {gap : List Token} (relaid : Relaid free gap words)
    (separators : Separators gap) : (∀ word ∈ words, IsSeparator word) ∧ (gap ≠ [] → words ≠ []) := by
  cases relaid with
  | finish _ separators' kept => exact ⟨separators', kept⟩
  | word _ _ _ _ proper =>
    exact absurd (separators _ (List.mem_append_right _ List.mem_cons_self)) proper

theorem bodyRelaid_nil : BodyRelaid [] [] := by
  intro free gap more words separators ends relaid
  obtain rfl | ⟨closing, rest, rfl, closes⟩ := ends
  · rw [List.append_nil, List.append_nil] at relaid
    obtain ⟨separators', kept⟩ := relaid.finish_cases separators
    exact ⟨words, [], [], by simp, separators', kept, .nil, .finish⟩
  · have proper : ¬ closing.kind.isSeparator := by
      rw [closes]
      decide
    obtain ⟨front, later, rfl, separators', kept, _, behind⟩ := relaid.word_cases separators proper
    rw [closes] at behind
    exact ⟨front, [], _, rfl, separators', kept, .nil, .brace closes behind⟩

theorem StatementForm.first (form : StatementForm tokens statement) :
    ∃ token rest, tokens = token :: rest ∧ ¬ token.kind.isSeparator := by
  cases form with
  | assign declares => exact ⟨_, _, rfl, Kind.not_isSeparator_of_isInner declares.isInner⟩
  | define kind | ifThen kind | ifElse kind | print kind | reset kind =>
    refine ⟨_, _, rfl, ?_⟩
    rw [kind]
    decide
  | block block =>
    cases block with
    | braces opens =>
      refine ⟨_, _, rfl, ?_⟩
      rw [opens]
      decide
  | expression stands =>
    obtain ⟨token, rest, rfl⟩ := List.exists_cons_of_ne_nil stands.1.ne_nil
    exact ⟨token, rest, rfl,
      Kind.not_isSeparator_of_isInner (stands.isInner token List.mem_cons_self)⟩

theorem bodyRelaid_cons {gap : List Token} {first : Statement} {others : List Statement}
    (form : StatementForm tokens first) (separators : Separators gap)
    (apart : others = [] ∨ gap ≠ [] ∨ EndsInBrace tokens) (relays : StatementRelays tokens first)
    (body : BodyRelaid rest others) : BodyRelaid (tokens ++ (gap ++ rest)) (first :: others) := by
  intro free gap' more words separators' ends relaid
  obtain ⟨token, tail, same, proper⟩ := form.first
  rw [List.append_assoc, List.append_assoc] at relaid
  obtain ⟨front, later, rfl, front', kept, behind⟩ :
      ∃ front later, words = front ++ later ∧ (∀ word ∈ front, IsSeparator word) ∧
        (gap' ≠ [] → front ≠ []) ∧ Relaid false (tokens ++ (gap ++ (rest ++ more))) later := by
    subst same
    exact relaid.skip separators' proper
  obtain ⟨written, later', rfl, ⟨form', brace⟩, further⟩ := relays _ _ behind
  obtain ⟨between, middle, last, rfl, between', kept', body', stops⟩ :=
    body _ _ _ _ separators ends further
  refine ⟨front, written ++ (between ++ middle), last, by simp, front', kept, ?_, stops⟩
  rw [List.map_append, List.map_append]
  apply BodyForm.cons form' (separators_map between') ?_ body'
  obtain alone | nonempty | ends := apart
  · exact .inl alone
  · exact .inr (.inl fun empty => kept' nonempty (List.map_eq_nil_iff.mp empty))
  · exact .inr (.inr (brace ends))

theorem relays_braces {opening closing : Token} {gap : List Token}
    {statements : List Statement} (opens : opening.kind = .leftBrace) (separators : Separators gap)
    (body : BodyRelaid tokens statements) (closes : closing.kind = .rightBrace)
    (bare : Bare (opening :: (gap ++ (tokens ++ [closing])))) :
    Relays (opening :: (gap ++ (tokens ++ [closing])))
      (BlockForm · ⟨statements, opening.pos⟩) := by
  intro more words relaid
  have proper : ¬ opening.kind.isSeparator := by
    rw [opens]
    decide
  have inside : opening.kind ≠ .rightBrace := by
    rw [opens]
    decide
  obtain ⟨later, rfl, behind⟩ := relaid.word_first proper inside
  simp only [List.append_eq, List.append_assoc, List.cons_append, List.nil_append] at behind
  obtain ⟨front, middle, last, rfl, front', _, body', stops⟩ :=
    body _ _ _ _ separators (.inr ⟨closing, more, rfl, closes⟩) behind
  cases stops with
  | @brace _ _ last closes further =>
    simp only [bare_cons, bare_append] at bare
    refine ⟨opening.text :: (front ++ (middle ++ [closing.text])), last, by simp, ?_, further⟩
    have form := BlockForm.braces opens (separators_map front') body' closes
    rw [List.map_cons, List.map_append, List.map_append, List.map_singleton, bare.1,
      bare.2.2.2.1]
    exact form

theorem BlockForm.endsInBrace {body : Block} (form : BlockForm tokens body) :
    tokens ≠ [] ∧ EndsInBrace tokens := by
  cases form with
  | @braces opening closing gap tokens _ _ _ _ closes =>
    have front : opening :: (gap ++ (tokens ++ [closing])) =
        (opening :: (gap ++ tokens)) ++ [closing] := by simp
    refine ⟨List.cons_ne_nil _ _, ?_⟩
    rw [front, endsInBrace_append (List.cons_ne_nil _ _)]
    exact congrArg some closes

theorem endsInBrace_behind {head middle back : List Token} {other : Token} (nonempty : back ≠ []) :
    EndsInBrace (head ++ (middle ++ ([other] ++ back))) ↔ EndsInBrace back := by
  rw [endsInBrace_append (by simp), endsInBrace_append (by simp), endsInBrace_append nonempty]

theorem Relays.prepend {head : List Token} {form : List Token → Prop}
    (inner : ∀ token ∈ head, token.kind.isInner) (bare : Bare head) (relays : Relays tokens form) :
    Relays (head ++ tokens) fun front => ∃ back, front = head ++ back ∧ form back := by
  apply ((relays_inner inner bare).append relays).mono
  rintro _ ⟨_, back, rfl, rfl, written⟩
  exact ⟨back, rfl, written⟩

mutual

theorem StatementForm.relays {tokens : List Token} {statement : Statement} :
    StatementForm tokens statement → Bare tokens → StatementRelays tokens statement
  | .assign declares named assigns stands, bare => by
      have inner := relays_inner (by
        simp only [List.forall_mem_cons]
        exact ⟨declares.isInner, by simp [named, Kind.isInner], by simp [assigns, Kind.isInner],
          stands.isInner⟩) bare
      apply inner.mono
      rintro _ rfl
      exact ⟨.assign declares named assigns stands, id⟩
  | @StatementForm.define word name opening closing list tokens _ _ defines named opens names closes
      block, bare => by
      have split : word :: name :: opening :: (list ++ closing :: tokens) =
          (word :: name :: opening :: (list ++ [closing])) ++ tokens := by simp
      have params := names.all (fun _ kind => by simp [kind, Kind.isInner])
        fun _ _ name => name.isInner
      have inner : ∀ token ∈ word :: name :: opening :: (list ++ [closing]),
          token.kind.isInner := by
        simp only [List.forall_mem_cons, List.forall_mem_append]
        exact ⟨by simp [defines, Kind.isInner], by simp [named, Kind.isInner],
          by simp [opens, Kind.isInner], params, by simp [closes, Kind.isInner], by simp⟩
      rw [split] at bare ⊢
      obtain ⟨bare, bare'⟩ := bare_append.mp bare
      apply ((block.relays bare').prepend inner bare).mono
      rintro _ ⟨tail, rfl, form⟩
      refine ⟨?_, fun _ => (endsInBrace_append form.endsInBrace.1).mpr form.endsInBrace.2⟩
      rw [← show word :: name :: opening :: (list ++ closing :: tail) = _ ++ tail by simp]
      exact .define defines named opens names closes form
  | .block block, bare => by
      apply (block.relays bare).mono
      exact fun _ form => ⟨.block form, fun _ => form.endsInBrace.2⟩
  | @StatementForm.ifThen word next tokens rest _ _ kind stands goesOn form, bare => by
      have split : word :: (tokens ++ next :: rest) = (word :: (tokens ++ [next])) ++ rest := by simp
      rw [split] at bare ⊢
      obtain ⟨bare, bare'⟩ := bare_append.mp bare
      apply ((form.relays bare').prepend (isInner_condition kind stands goesOn) bare).mono
      rintro _ ⟨tail, rfl, form', brace⟩
      rw [endsInBrace_append form.ne_nil, endsInBrace_append form'.ne_nil]
      refine ⟨?_, brace⟩
      rw [← show word :: (tokens ++ next :: tail) = _ ++ tail by simp]
      exact .ifThen kind stands goesOn form'
  | @StatementForm.ifElse word next other tokens rest last _ _ _ kind stands goesOn form nearest
      otherwise form', bare => by
      have split : word :: (tokens ++ next :: (rest ++ other :: last)) =
          (word :: (tokens ++ [next])) ++ (rest ++ ([other] ++ last)) := by simp
      have inner : ∀ token ∈ [other], token.kind.isInner := by simp [otherwise, Kind.isInner]
      rw [split] at bare ⊢
      simp only [bare_append] at bare
      obtain ⟨bareHead, bareRest, bareOther, bareLast⟩ := bare
      have alternative := (form'.relays bareLast).prepend inner bareOther
      apply (((form.relays bareRest).append alternative).prepend
        (isInner_condition kind stands goesOn) bareHead).mono
      rintro _ ⟨_, rfl, front, _, rfl, ⟨written, _⟩, tail, rfl, written', brace⟩
      rw [endsInBrace_behind form'.ne_nil, endsInBrace_behind written'.ne_nil]
      refine ⟨?_, brace⟩
      rw [← show word :: (tokens ++ next :: (front ++ other :: tail)) = _ ++ (front ++ _) by simp]
      exact .ifElse kind stands goesOn written nearest otherwise written'
  | .print kind stands, bare => by
      have inner := relays_inner
        (List.forall_mem_cons.mpr ⟨by simp [kind, Kind.isInner], stands.isInner⟩) bare
      apply inner.mono
      rintro _ rfl
      exact ⟨.print kind stands, id⟩
  | .reset kind, bare => by
      apply (relays_inner (by simp [kind, Kind.isInner]) bare).mono
      rintro _ rfl
      exact ⟨.reset kind, id⟩
  | .expression stands, bare => by
      apply (relays_inner stands.isInner bare).mono
      rintro _ rfl
      exact ⟨.expression stands, id⟩

theorem BlockForm.relays {tokens : List Token} {body : Block} :
    BlockForm tokens body → Bare tokens → Relays tokens (BlockForm · body)
  | .braces opens separators body closes, bare => by
      have inside := bare
      simp only [bare_cons, bare_append] at inside
      exact relays_braces opens separators (body.relaid inside.2.2.1) closes bare

theorem BodyForm.relaid {tokens : List Token} {statements : List Statement} :
    BodyForm tokens statements → Bare tokens → BodyRelaid tokens statements
  | .nil, _ => bodyRelaid_nil
  | .cons form separators apart body, bare => by
      simp only [bare_append] at bare
      exact bodyRelaid_cons form separators apart (form.relays bare.1) (body.relaid bare.2.2)

end

theorem ProgramForm.relaid {program : Program} (form : ProgramForm tokens program)
    (bare : Bare tokens) (relaid : Relaid true tokens words) :
    ProgramForm (words.map wordToken) program := by
  obtain ⟨gap, rest, rfl, separators, body⟩ := form
  rw [← List.append_nil rest] at relaid
  obtain ⟨front, middle, later, rfl, separators', _, body', stops⟩ :=
    body.relaid (bare_append.mp bare).2 _ _ _ _ separators (.inl rfl) relaid
  cases stops
  refine ⟨front.map wordToken, middle.map wordToken, ?_, separators_map separators', body'⟩
  rw [List.append_nil, List.map_append]

end Forms

section Texts

variable {free : Bool} {tokens : List Token} {words : List String}

theorem Relaid.relocate (relaid : Relaid free tokens words) (move : Nat → Nat) :
    Relaid free (tokens.map (·.relocate move)) words := by
  have moved : ∀ {gap : List Token}, Separators gap → Separators (gap.map (·.relocate move)) := by
    intro gap separators
    simpa [Separators] using separators
  have nonempty : ∀ {gap : List Token}, gap.map (·.relocate move) ≠ [] ↔ gap ≠ [] :=
    not_congr List.map_eq_nil_iff
  induction relaid with
  | finish separators separators' kept =>
    exact .finish (moved separators) separators' fun more => kept (nonempty.mp more)
  | @word free gap rest token words later separators separators' kept added proper more ih =>
    rw [List.map_append, List.map_cons]
    have kept' : gap.map (·.relocate move) ≠ [] → words ≠ [] := fun more => kept (nonempty.mp more)
    have added' : words ≠ [] → gap.map (·.relocate move) ≠ [] ∨ free = true ∨
        (token.relocate move).kind = .rightBrace := fun more => (added more).imp_left nonempty.mpr
    exact Relaid.word (moved separators) separators' kept' added' proper ih

theorem Relaid.known (relaid : Relaid free tokens words) (known : ∀ token ∈ tokens, Known token) :
    ∀ word ∈ words, ((standard true).classify word.toList).isSome := by
  have separate : ∀ word, IsSeparator word → ((standard true).classify word.toList).isSome := by
    intro word separator
    obtain ⟨kind, known, _⟩ := known_separator separator
    rw [known]
    rfl
  induction relaid with
  | finish _ separators => exact fun word member => separate word (separators word member)
  | @word _ gap rest token front later _ separators _ _ _ _ ih =>
    simp only [List.forall_mem_cons, List.forall_mem_append] at known ⊢
    have here : (standard true).classify token.text.toList = some token.kind := known.2.1
    refine ⟨fun word member => separate word (separators word member), ?_, ih known.2.2⟩
    rw [here]
    rfl

/-- Layout does not matter. Where a source parses, so does every text that has the same words with
blanks between them, other separators for each run of separators, and further ones where they may be
added; and its tree is the same up to positions. -/
theorem layout_does_not_matter {source other : String} {program : Program}
    (parsed : parse true source = .ok program)
    (relaid : Relaid true ((standard true).tokens (.start source)).1 words)
    (spaced : SpacedOut words other.toList) :
    ∃ again, parse true other = .ok again ∧ again.placeless = program.placeless := by
  obtain ⟨tokens, last, lexes, form⟩ := parse_ok_iff.mp (parse_eq_ok.mp parsed)
  rw [lexes.tokens_eq] at relaid
  obtain ⟨tokens', last', lexes', same⟩ := spaced.exists_lexes (relaid.known lexes.known) 0
  have placeless : ProgramForm (tokens.map (·.relocate fun _ => 0)) program.placeless :=
    programForm_relocate_iff.mpr ⟨program, form, rfl⟩
  have form' := placeless.relaid (bare_of_known lexes.known) (relaid.relocate _)
  rw [← same] at form'
  obtain ⟨again, form', equal⟩ := programForm_relocate_iff.mp form'
  exact ⟨again, parse_eq_ok.mpr (parse_ok_iff.mpr ⟨tokens', last', lexes', form'⟩), equal⟩

def closeSource : String := "x\n\x7by\x7d"

def looseSource : String := "; x \n;\t\x7b\n y ; \x7d\n"

def looseWords : List String := [";", "x", "\n", ";", "\x7b", "\n", "y", ";", "\x7d", "\n"]

theorem closeSource_tokens : (standard true).tokens (.start closeSource) =
    ([⟨.identifier, "x", 0⟩, ⟨.newline, "\n", 1⟩, ⟨.leftBrace, "\x7b", 2⟩, ⟨.identifier, "y", 3⟩,
      ⟨.rightBrace, "\x7d", 4⟩], .ok 5) := by
  decide +kernel

theorem looseWords_relaid :
    Relaid true ((standard true).tokens (.start closeSource)).1 looseWords := by
  have newline : ∀ word ∈ ["\n"], IsSeparator word := by simp [IsSeparator]
  have semicolon : ∀ word ∈ [";"], IsSeparator word := by simp [IsSeparator]
  have both : ∀ word ∈ ["\n", ";"], IsSeparator word := by simp [IsSeparator]
  have between : Separators [⟨.newline, "\n", 1⟩] := by simp [Separators, Kind.isSeparator]
  rw [closeSource_tokens]
  apply @Relaid.word _ [] _ _ [";"] _ separators_nil semicolon (by simp) (by simp) (by decide)
  apply @Relaid.word _ [_] _ _ ["\n", ";"] _ between both (by simp) (by simp) (by decide)
  apply @Relaid.word _ [] _ _ ["\n"] _ separators_nil newline (by simp) (by simp) (by decide)
  apply @Relaid.word _ [] _ _ [";"] _ separators_nil semicolon (by simp) (by simp) (by decide)
  exact .finish separators_nil newline (by simp)

theorem looseSource_spacedOut : SpacedOut looseWords looseSource.toList := by
  have newline : IsSeparator "\n" := .inl rfl
  have semicolon : IsSeparator ";" := .inr rfl
  have nothing : ∀ c ∈ ([] : List Char), isBlank c := by simp
  have space : ∀ c ∈ [' '], isBlank c := by simp [isBlank]
  have tab : ∀ c ∈ ['\t'], isBlank c := by simp [isBlank]
  have last : SpacedOut ["\x7d", "\n"] ([' '] ++ ("\x7d".toList ++ ([] ++ ("\n".toList ++ [])))) :=
    .word space (.inr (by simp)) (.word nothing (.inl newline) (.finish nothing))
  have inside : SpacedOut ["\n", "y", ";", "\x7d", "\n"] ([] ++ ("\n".toList ++ ([' '] ++
      ("y".toList ++ ([' '] ++ (";".toList ++ _)))))) :=
    .word nothing (.inl newline) (.word space (.inr (by simp [isBlank]))
      (.word space (.inl semicolon) last))
  have middle : SpacedOut (["\n", ";", "\x7b"] ++ ["\n", "y", ";", "\x7d", "\n"]) ([' '] ++
      ("\n".toList ++ ([] ++ (";".toList ++ (['\t'] ++ ("\x7b".toList ++ _)))))) :=
    .word space (.inl newline) (.word nothing (.inl semicolon) (.word tab (.inr (by simp)) inside))
  have whole : SpacedOut looseWords ([] ++ (";".toList ++ ([' '] ++ ("x".toList ++ _)))) :=
    .word nothing (.inl semicolon) (.word space (.inr (by simp [isBlank])) middle)
  exact whole

theorem looseSource_parses :
    let program : Program := [.expression (.name "x" 0), .block ⟨[.expression (.name "y" 3)], 2⟩]
    (parse true closeSource = .ok program ∧
      Relaid true ((standard true).tokens (.start closeSource)).1 looseWords ∧
      SpacedOut looseWords looseSource.toList) ∧
    ∃ again, parse true looseSource = .ok again ∧ again.placeless = program.placeless := by
  intro program
  have parsed : parse true closeSource = .ok program := by
    rw [parse, Program.parse, Stream.ofSource, closeSource_tokens]
    rfl
  exact ⟨⟨parsed, looseWords_relaid, looseSource_spacedOut⟩,
    layout_does_not_matter parsed looseWords_relaid looseSource_spacedOut⟩

end Texts

end Calculator
