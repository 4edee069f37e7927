import Calculator.Lexer.Standard
import Calculator.Proofs.Lexer.Outcome
import Calculator.Proofs.Lexer.Words
import Calculator.Proofs.Pattern.Choice

/-!
A lexer looks for the best match of all rules together, and then asks again which rule accepts the
word. The rules taken one after the other say the same: the first that matches at all gives the word
and its kind. This holds of rules whose patterns have no borders, as long as there is only one way
to match what all of them begin with.
-/

namespace Calculator

namespace Rule

def isPlain (rule : Rule) : Bool :=
  match rule.branches with
  | [pattern] => pattern.isBorderless
  | _ => false

def found (rule : Rule) (text : List Char) : Option Cursor :=
  rule.branches.findSome? (·.found text)

theorem exists_of_isPlain {rule : Rule} (plain : rule.isPlain) :
    ∃ pattern : Pattern, rule = .of pattern rule.kind ∧ pattern.isBorderless := by
  rcases rule with ⟨branches, kind⟩
  match branches, plain with
  | [pattern], borderless => exact ⟨pattern, rfl, borderless⟩

theorem found_of (pattern : Pattern) (kind : Kind) (text : List Char) :
    (of pattern kind).found text = pattern.found text := by
  simp only [found, of, List.findSome?_cons, List.findSome?_nil]
  cases pattern.found text <;> rfl

variable {rule : Rule} {word tail : List Char}

theorem accepts_of_found (plain : rule.isPlain)
    (finds : rule.found (word ++ tail) = some ⟨word.reverse, tail⟩) : rule.accepts word := by
  rcases exists_of_isPlain plain with ⟨pattern, same, borderless⟩
  rw [same, found_of, Pattern.found] at finds
  rw [same, accepts_of, Pattern.accepts_iff_ends_append borderless word tail]
  exact List.mem_of_head? finds

theorem not_accepts_of_found (plain : rule.isPlain) (nothing : rule.found (word ++ tail) = none) :
    ¬ rule.accepts word := by
  rcases exists_of_isPlain plain with ⟨pattern, same, borderless⟩
  rw [same, found_of, Pattern.found, List.head?_eq_none_iff] at nothing
  rw [same, accepts_of, Pattern.accepts_iff_ends_append borderless word tail, nothing]
  exact List.not_mem_nil

end Rule

namespace Lexer

def patternsOf (lexer : Lexer) : List Pattern := lexer.rules.flatMap Rule.branches

/-- What all rules begin with, which is matched once for all of them. -/
def sharedStart (lexer : Lexer) : Pattern := Pattern.sharedStart lexer.patternsOf

/-- The kind of the first rule that matches at the start of a text, and the match it prefers. -/
def firstRule? (lexer : Lexer) (text : List Char) : Option (Kind × Cursor) :=
  lexer.rules.findSome? fun rule => (rule.found text).map (rule.kind, ·)

/-- The next token as the rules give it one after the other. -/
def nextByRules (lexer : Lexer) (scan : Scan) : Except LexError Token × Scan :=
  let here := lexer.skip scan
  let noMatch := (.error (.noMatch (String.ofList (here.rest.take 10)) here.pos), here)
  if here.rest = [] then (.ok (.atEnd here.pos), here)
  else match lexer.firstRule? here.rest with
    | none => noMatch
    | some (kind, stop) =>
        let word := stop.taken.reverse
        if word = [] then noMatch
        else (.ok ⟨kind, String.ofList word, here.pos⟩, ⟨stop.rest, here.pos + byteCount word⟩)

variable {lexer : Lexer}

theorem firstRule?_map (text : List Char) : (lexer.firstRule? text).map Prod.snd =
    lexer.patternsOf.findSome? fun pattern => (pattern.ends (.start text)).head? := by
  rw [patternsOf, Pattern.findSome?_flatMap, firstRule?, List.map_findSome?]
  apply congrArg (lexer.rules.findSome? ·)
  funext rule
  simp only [Function.comp_apply, Option.map_map, Rule.found]
  exact Option.map_id'

theorem mem_ends_union_nil (empty : lexer.patternsOf = []) {here stop : Cursor}
    (stops : stop ∈ lexer.union.ends here) : stop = here := by
  rw [union, ← patternsOf, empty] at stops
  exact List.mem_singleton.mp (Pattern.ends_empty here ▸ stops)

section Plain

variable (plain : ∀ rule ∈ lexer.rules, rule.isPlain)

include plain

theorem isBorderless_patternsOf : ∀ pattern ∈ lexer.patternsOf, pattern.isBorderless := by
  intro pattern member
  rcases List.mem_flatMap.mp member with ⟨rule, listed, member⟩
  rcases Rule.exists_of_isPlain (plain rule listed) with ⟨only, same, borderless⟩
  rw [same] at member
  rw [List.mem_singleton.mp member]
  exact borderless

theorem exists_accepts {word tail : List Char} (nonempty : word ≠ [])
    (stops : ⟨word.reverse, tail⟩ ∈ lexer.union.ends (.start (word ++ tail))) :
    ∃ rule ∈ lexer.rules, rule.accepts word := by
  by_cases empty : lexer.patternsOf = []
  · have still := congrArg Cursor.taken (mem_ends_union_nil empty stops)
    exact absurd (List.reverse_eq_nil_iff.mp still) nonempty
  · rcases (Pattern.mem_ends_choice (isBorderless_patternsOf plain) empty).mp stops with
      ⟨pattern, member, stops⟩
    have borderless := isBorderless_patternsOf plain pattern member
    rcases List.mem_flatMap.mp member with ⟨rule, listed, member⟩
    rcases Rule.exists_of_isPlain (plain rule listed) with ⟨only, same, _⟩
    rw [same] at member
    obtain rfl := List.mem_singleton.mp member
    refine ⟨rule, listed, ?_⟩
    rw [same, Rule.accepts_of, Pattern.accepts_iff_ends_append borderless word tail]
    exact stops

theorem firstEnd?_union {text : List Char} {stop : Cursor} (nonempty : stop.taken ≠ [])
    (settled : lexer.firstRule? text = none ∨ (lexer.sharedStart.ends (.start text)).length ≤ 1) :
    lexer.union.firstEnd? (.start text) = some stop ↔
      (lexer.firstRule? text).map Prod.snd = some stop := by
  have borderless := isBorderless_patternsOf plain
  rw [Pattern.firstEnd?_eq]
  by_cases empty : lexer.patternsOf = []
  · rw [firstRule?_map, empty]
    refine iff_of_false (fun first => nonempty ?_) (by simp)
    rw [mem_ends_union_nil empty (List.mem_of_head? first)]
    rfl
  · rw [union, ← patternsOf]
    rcases settled with nothing | single
    · have silent : (lexer.firstRule? text).map Prod.snd = _ := firstRule?_map text
      rw [nothing, Option.map_none, eq_comm, List.findSome?_eq_none_iff] at silent
      refine iff_of_false (fun first => ?_) (by simp [nothing])
      rcases (Pattern.mem_ends_choice borderless empty).mp (List.mem_of_head? first) with
        ⟨pattern, listed, stops⟩
      rw [List.head?_eq_none_iff.mp (silent pattern listed)] at stops
      exact List.not_mem_nil stops
    · rw [Pattern.head?_ends_choice borderless empty (.start text) single, firstRule?_map]

theorem classify_of_firstRule? {word tail : List Char} {kind : Kind}
    (first : lexer.firstRule? (word ++ tail) = some (kind, ⟨word.reverse, tail⟩)) :
    lexer.classify word = some kind := by
  rcases List.findSome?_eq_some_iff.mp first with ⟨before, rule, after, same, finds, nothing⟩
  rcases Option.map_eq_some_iff.mp finds with ⟨stop, finds, pair⟩
  obtain ⟨rfl, rfl⟩ := Prod.mk.inj pair
  have listed : rule ∈ lexer.rules := same ▸ List.mem_append_right before List.mem_cons_self
  have chosen : lexer.rules.find? (fun rule => rule.accepts word) = some rule := by
    apply List.find?_eq_some_iff_append.mpr
    refine ⟨Rule.accepts_of_found (plain rule listed) finds, before, after, same, ?_⟩
    intro earlier member
    have listed : earlier ∈ lexer.rules := same ▸ List.mem_append_left _ member
    have unmatched := Option.map_eq_none_iff.mp (nothing earlier member)
    simpa using Rule.not_accepts_of_found (plain earlier listed) unmatched
  rw [classify, chosen, Option.map_some]

end Plain

end Lexer

end Calculator
