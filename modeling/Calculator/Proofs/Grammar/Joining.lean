import Calculator.Proofs.Grammar.Source
import Calculator.Script

/-!
Two sources with a line break between them. Together they are the program of the first and then
that of the second, which stands as many bytes further on as there are in front of it.
-/

namespace Calculator

open Calculator.Lexer

section Forms

variable {front gap back : List Token} {first second : List Statement}

theorem BodyForm.append (form : BodyForm front first) (nonempty : first ≠ [])
    (separators : Separators gap) (apart : gap ≠ []) (form' : BodyForm back second) :
    BodyForm (front ++ (gap ++ back)) (first ++ second) := by
  -- Induction on the statements in front, the last of which ends at the new separators.
  induction first generalizing front with
  | nil => exact absurd rfl nonempty
  | cons statement first ih =>
    cases form with
    | @cons tokens gap' rest _ _ form separators' apart' body =>
      by_cases last : first = []
      · subst last
        cases body
        have joined := BodyForm.cons form (separators_append.mpr ⟨separators', separators⟩)
          (.inr (.inl (List.append_ne_nil_of_right_ne_nil gap' apart))) form'
        simpa only [List.append_nil, List.append_assoc, List.cons_append, List.nil_append]
          using joined
      · have joined := BodyForm.cons form separators'
          (.inr (apart'.resolve_left last)) (ih body last)
        simpa only [List.append_assoc, List.cons_append] using joined

theorem ProgramForm.append {separator : Token} (form : ProgramForm front first)
    (separates : separator.kind.isSeparator) (form' : ProgramForm back second) :
    ProgramForm (front ++ separator :: back) (first ++ second) := by
  rcases form with ⟨gap, rest, rfl, separators, body⟩
  rcases form' with ⟨gap', rest', rfl, separators', body'⟩
  have between : Separators (separator :: gap') :=
    List.forall_mem_cons.mpr ⟨separates, separators'⟩
  by_cases empty : first = []
  · subst empty
    cases body
    refine ⟨gap ++ separator :: gap', rest', ?_, separators_append.mpr ⟨separators, between⟩, body'⟩
    simp only [List.append_nil, List.append_assoc, List.cons_append]
  · refine ⟨gap, rest ++ (separator :: gap' ++ rest'), ?_, separators,
      body.append empty between (List.cons_ne_nil _ _) body'⟩
    simp only [List.append_assoc, List.cons_append]

end Forms

section Texts

variable {skips : Bool}

theorem Lexer.Lexes.newline {back : List Char} {pos : Nat} {tokens : List Token}
    {ending : Except LexError Nat} (later : Lexes skips ⟨back, pos + 1⟩ tokens ending) :
    Lexes skips ⟨'\n' :: back, pos⟩ (⟨.newline, "\n", pos⟩ :: tokens) ending :=
  Lexes.loner (by decide) rfl later

theorem parse_eq_ok {source : String} {program : Program} :
    parse skips source = .ok program ↔ Program.parse (standard skips) source = .ok program := by
  rw [parse]
  cases Program.parse (standard skips) source <;> simp [Except.mapError]

def joinLines (front back : String) : String := front ++ "\n" ++ back

theorem parse_joinLines {front back : String} {first second : Program}
    (parsed : Program.parse (standard skips) front = .ok first)
    (parsed' : Program.parse (standard skips) back = .ok second) :
    Program.parse (standard skips) (joinLines front back) =
      .ok (first ++ second.shift (front.utf8ByteSize + 1)) := by
  rcases parse_ok_iff.mp parsed with ⟨tokens, last, lexes, form⟩
  rcases parse_ok_iff.mp parsed' with ⟨tokens', last', lexes', form'⟩
  have form'' : ProgramForm (tokens'.map (·.relocate (· + (front.utf8ByteSize + 1))))
      (second.shift (front.utf8ByteSize + 1)) :=
    programForm_relocate_iff.mpr ⟨second, form', rfl⟩
  have place : front.utf8ByteSize = (Scan.start front).endPos := (Scan.endPos_start front).symm
  have shifted := lexes'.shift (front.utf8ByteSize + 1)
  rw [Scan.start, Nat.zero_add] at shifted
  have later := shifted.newline
  rw [place] at later form'' ⊢
  have joined := lexes.append (.inr (by decide)) later
  have text : Scan.start (joinLines front back) = ⟨front.toList ++ '\n' :: back.toList, 0⟩ := by
    rw [Scan.start, joinLines, String.toList_append, String.toList_append, List.append_assoc]
    rfl
  rw [Scan.start, ← text] at joined
  exact parse_ok_iff.mpr ⟨_, _, joined, form.append rfl form''⟩

end Texts

end Calculator
