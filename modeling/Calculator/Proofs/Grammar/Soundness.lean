import Calculator.Proofs.Grammar.Levels
import Calculator.Proofs.Grammar.Lists

/-!
Soundness of the parsers of expressions. Where the parser of a level yields a tree, the tokens that
it has taken derive the tree, and the next token could not carry the expression further.
-/

namespace Calculator

open Calculator.Parser

theorem Linked.stands {level : Level} {tokens : List Token} {links : List Link}
    (linked : Linked Level.Stands level tokens links) :
    Linked (Derives Enclosed) level tokens links ∧ ∀ token ∈ tokens, token.Reads := by
  have operators : ∀ (token : Token) op, token.kind = .operator op → token.Reads :=
    fun _ _ kind => Token.reads_of_kind (by simp [kind]) (by simp [kind])
  exact ⟨linked.mono fun _ _ _ both => both.1, linked.all operators fun _ _ _ both => both.2⟩

/-- Where the parser of a level succeeds it has taken tokens of the grammar, and as many as it
can. -/
def Level.SoundAt (level : Level) (stream : Stream) : Prop :=
  ∀ tree after, level.parser.Yields stream tree after →
    ∃ tokens, stream.Passes tokens after ∧ level.Stands tokens tree ∧
      ¬ level.Continues after.current.kind

section Soundness

theorem Derives.name_enclosed {level : Level} {tokens : List Token} {name : String} {pos : Nat}
    (derives : Derives Enclosed level tokens (.name name pos)) :
    ∃ word, Enclosed tokens word ∧ word.text = name ∧ word.pos = pos := by
  refine derives.induct (fun _ tokens tree => tree = .name name pos →
    ∃ word, Enclosed tokens word ∧ word.text = name ∧ word.pos = pos)
    ?tighter ?fold ?power ?negate ?call ?number ?decimal ?name ?parens rfl
  case tighter => exact fun _ ih => ih
  case name =>
    rintro word kind ⟨⟩
    exact ⟨word, .name kind, rfl, rfl⟩
  case parens =>
    intro opening closing tokens tree opens ih closes same
    obtain ⟨word, enclosed, text, place⟩ := ih same
    exact ⟨word, .parens opens enclosed closes, text, place⟩
  all_goals
    intros
    contradiction

theorem reads_word {word : Token} (integral : word.kind ≠ .number)
    (decimal : word.kind ≠ .decimal) : ∀ token ∈ [word], token.Reads := by
  intro token member
  rw [List.mem_singleton.mp member]
  exact Token.reads_of_kind integral decimal

theorem primary_sound {stream : Stream}
    (nested : ∀ later, later.size < stream.size → Level.comparison.SoundAt later) :
    Level.primary.SoundAt stream := by
  intro tree after yields
  change Parser.primary.Yields stream tree after at yields
  rw [primary_eq, yields_primaryWith] at yields
  split at yields
  · next kind =>
      obtain ⟨value, read, moved, rfl⟩ := yields
      refine ⟨_, Stream.passes_current moved, ⟨?_, ?_⟩, Level.not_continues_primary _⟩
      · have same : stream.current.intValue = value := by rw [Token.intValue, read]; rfl
        exact same ▸ .number kind
      · intro token member
        rw [List.mem_singleton.mp member]
        exact ⟨fun _ => by rw [read]; rfl, by simp [kind]⟩
  · next kind =>
      obtain ⟨value, read, moved, rfl⟩ := yields
      refine ⟨_, Stream.passes_current moved, ⟨?_, ?_⟩, Level.not_continues_primary _⟩
      · have same : stream.current.floatValue = value := by rw [Token.floatValue, read]; rfl
        exact same ▸ .decimal kind
      · intro token member
        rw [List.mem_singleton.mp member]
        exact ⟨by simp [kind], fun _ => by rw [read]; rfl⟩
  · next kind =>
      obtain ⟨moved, rfl⟩ := yields
      exact ⟨_, Stream.passes_current moved,
        ⟨.name kind, reads_word (by simp [kind]) (by simp [kind])⟩, Level.not_continues_primary _⟩
  · next kind =>
      obtain ⟨next, between, moved, inner, closes, moved'⟩ := yields
      have smaller := Stream.size_advance_lt moved (by simp [kind])
      obtain ⟨tokens, passed, ⟨derives, reads⟩, _⟩ := nested next smaller tree between inner
      refine ⟨stream.current :: (tokens ++ [between.current]), ?_,
        ⟨.parens kind derives closes, ?_⟩, Level.not_continues_primary _⟩
      · exact .step moved
          (Stream.passes_append.mpr ⟨between, passed, Stream.passes_current moved'⟩)
      · simp only [List.forall_mem_cons, List.forall_mem_append]
        exact ⟨Token.reads_of_kind (by simp [kind]) (by simp [kind]), reads,
          Token.reads_of_kind (by simp [closes]) (by simp [closes]), by simp⟩
  · exact yields.elim

theorem call_sound {stream : Stream}
    (nested : ∀ later, later.size < stream.size → Level.comparison.SoundAt later) :
    Level.call.SoundAt stream := by
  intro tree after yields
  change Parser.call.Yields stream tree after at yields
  rw [call_eq, yields_callWith, ← primary_eq] at yields
  obtain ⟨target, between, started, ends⟩ := yields
  obtain ⟨front, passed, ⟨derives, reads⟩, _⟩ := primary_sound nested target between started
  rcases ends with ⟨opens, name, pos, rfl, next, arguments, moved, listed, stops, rfl⟩ |
    ⟨other, rfl, rfl⟩
  · obtain ⟨word, enclosed, rfl, rfl⟩ := derives.name_enclosed
    have taken := (Level.takes .primary stream).takes _ _ started
    have le := Stream.size_advance_le moved
    have sound : ∀ later, later.size ≤ next.size → ∀ value after,
        expression.Yields later value after → ∃ tokens, later.Passes tokens after ∧
          Level.comparison.Stands tokens value := by
      intro later small value after yields
      obtain ⟨tokens, passed, stands, _⟩ := nested later (by omega) value after yields
      exact ⟨tokens, passed, stands⟩
    obtain ⟨tokens, last, passed', list, closes⟩ :=
      commaSeparated_sound (by decide) agree_expression sound listed
    obtain ⟨items, reads'⟩ := CommaList.and_reads.mp list
    refine ⟨front ++ between.current :: (tokens ++ [last]), ?_,
      ⟨.call enclosed opens items closes, ?_⟩, Level.not_continues_call stops⟩
    · exact Stream.passes_append.mpr ⟨between, passed, .step moved passed'⟩
    · simp only [List.forall_mem_append, List.forall_mem_cons]
      exact ⟨reads, Token.reads_of_kind (by simp [opens]) (by simp [opens]), reads',
        Token.reads_of_kind (by simp [closes]) (by simp [closes]), by simp⟩
  · exact ⟨front, passed, ⟨.tighter (by decide) derives, reads⟩, Level.not_continues_call other⟩

theorem unary_sound {stream : Stream}
    (nested : ∀ later, later.size < stream.size → Level.comparison.SoundAt later) :
    Level.unary.SoundAt stream := by
  intro tree after yields
  change Parser.unary.Yields stream tree after at yields
  rw [unary_round, yields_negationsRound] at yields
  rcases yields with ⟨minus, next, inner, moved, rest, rfl⟩ | ⟨_, yields⟩
  · have smaller := Stream.size_advance_lt moved (by simp [minus])
    obtain ⟨tokens, passed, ⟨derives, reads⟩, stops⟩ :=
      unary_sound (fun later smaller' => nested later (by omega)) inner after rest
    refine ⟨stream.current :: tokens, .step moved passed, ⟨.negate minus derives, ?_⟩, stops⟩
    exact List.forall_mem_cons.mpr
      ⟨Token.reads_of_kind (by simp [minus]) (by simp [minus]), reads⟩
  · obtain ⟨tokens, passed, ⟨derives, reads⟩, stops⟩ := call_sound nested tree after yields
    refine ⟨tokens, passed, ⟨.tighter (by decide) derives, reads⟩, ?_⟩
    intro goesOn
    rcases goesOn.split (by decide) (by decide) with inner | ⟨op, _, own⟩
    · exact stops inner
    · cases op <;> cases own
termination_by stream.size

theorem power_sound {stream : Stream}
    (nested : ∀ later, later.size < stream.size → Level.comparison.SoundAt later) :
    Level.power.SoundAt stream := by
  intro tree after yields
  change Parser.power.Yields stream tree after at yields
  rw [power_round, yields_powersRound] at yields
  obtain ⟨first, between, started, ends⟩ := yields
  obtain ⟨tokens, passed, ⟨derives, reads⟩, stops⟩ := unary_sound nested first between started
  rcases ends with ⟨operator, next, exponent, moved, rest, rfl⟩ | ⟨other, rfl, rfl⟩
  · have taken := (agree_unary stream).takes first between started
    have le := Stream.size_advance_le moved
    obtain ⟨tokens', passed', ⟨derives', reads'⟩, stops'⟩ :=
      power_sound (fun later smaller => nested later (by omega)) exponent after rest
    refine ⟨tokens ++ between.current :: tokens', ?_, ⟨.power derives operator derives', ?_⟩,
      stops'⟩
    · exact Stream.passes_append.mpr ⟨between, passed, .step moved passed'⟩
    · simp only [List.forall_mem_append, List.forall_mem_cons]
      exact ⟨reads, Token.reads_of_kind (by simp [operator]) (by simp [operator]), reads'⟩
  · refine ⟨tokens, passed, ⟨.tighter (by decide) derives, reads⟩, ?_⟩
    intro goesOn
    rcases goesOn.split (by decide) (by decide) with inner | ⟨op, here, own⟩
    · exact stops inner
    · cases op <;> cases own
      exact other here
termination_by stream.size

variable {operators : List BinaryOp}

theorem links_sound {level : Level} {stream : Stream}
    (members : ∀ op, op ∈ operators ↔ op.level = level) (folds : level.Folds)
    (operand : ∀ later, later.size < stream.size → level.tighter.SoundAt later)
    (stops : ¬ level.tighter.Continues stream.current.kind) {result : List Link} {after : Stream}
    (yields : (within (links operators level.tighter.parser)).Yields stream result after) :
    ∃ tokens, stream.Passes tokens after ∧ Linked Level.Stands level tokens result ∧
      ¬ level.Continues after.current.kind := by
  rw [links_round operators (Level.takes _), yields_linksRound] at yields
  rcases yields with ⟨op, member, here, next, right, between, more, moved, found, rest, rfl⟩ |
    ⟨absent, rfl, rfl⟩
  · obtain rfl := (members op).mp member
    have smaller := Stream.size_advance_lt moved (by simp [here])
    obtain ⟨tokens, passed, stands, stops'⟩ := operand next smaller right between found
    have taken := (Level.takes _ next).takes right between found
    obtain ⟨tokens', passed', linked, ends⟩ :=
      links_sound members folds (fun later smaller => operand later (by omega)) stops' rest
    refine ⟨stream.current :: (tokens ++ tokens'), ?_, .cons here rfl stands linked, ends⟩
    exact .step moved (Stream.passes_append.mpr ⟨between, passed, passed'⟩)
  · refine ⟨[], .here after, .nil, ?_⟩
    intro goesOn
    rcases goesOn.split folds.proper (by rintro rfl; exact absurd folds (by decide)) with
      inner | ⟨op, here, own⟩
    · exact stops inner
    · exact absent op ((members op).mpr own) here
termination_by stream.size

theorem fold_sound {level : Level} {stream : Stream} (folds : level.Folds)
    (operand : ∀ later, later.size ≤ stream.size → level.tighter.SoundAt later) :
    level.SoundAt stream := by
  intro tree after yields
  obtain ⟨operators, parser, members⟩ := Level.parser_eq_chain folds
  rw [parser, chain, yields_bind] at yields
  obtain ⟨first, between, started, ends⟩ := yields
  obtain ⟨result, last, linked, finished⟩ := yields_bind.mp ends
  obtain ⟨rfl, rfl⟩ := yields_pure.mp finished
  obtain ⟨tokens, passed, ⟨derives, reads⟩, stops⟩ :=
    operand stream (Nat.le_refl _) first between started
  have taken := (Level.takes _ stream).takes first between started
  obtain ⟨rest, passed', stands, stops'⟩ :=
    links_sound members folds (fun later smaller => operand later (by omega)) stops linked
  cases result with
  | nil =>
    cases stands
    obtain rfl := Stream.passes_nil.mp passed'
    exact ⟨tokens, passed, ⟨.tighter folds.proper derives, reads⟩, stops'⟩
  | cons link more =>
    obtain ⟨others, reads'⟩ := stands.stands
    refine ⟨tokens ++ rest, Stream.passes_append.mpr ⟨between, passed, passed'⟩,
      ⟨.fold folds derives others (List.cons_ne_nil _ _), ?_⟩, stops'⟩
    exact List.forall_mem_append.mpr ⟨reads, reads'⟩

end Soundness

theorem Level.sound (level : Level) (stream : Stream) : level.SoundAt stream := by
  -- Recursion on the tokens that are left, and for these tokens from the tightest level down.
  have nested : ∀ later : Stream, later.size ≤ stream.size →
      ∀ last : Stream, last.size < later.size → comparison.SoundAt last :=
    fun later _ last _ => Level.sound comparison last
  refine climb (motive := fun level =>
    ∀ later : Stream, later.size ≤ stream.size → level.SoundAt later) ?_ ?_ level stream
      (Nat.le_refl _)
  · intro later small
    exact primary_sound (nested later small)
  · intro level proper inner later small
    by_cases folds : level.Folds
    · exact fold_sound folds fun last le => inner last (by omega)
    · cases level with
      | power => exact power_sound (nested later small)
      | unary => exact unary_sound (nested later small)
      | call => exact call_sound (nested later small)
      | primary => exact absurd rfl proper
      | _ => exact absurd (by decide) folds
termination_by stream.size

end Calculator
