import Mathlib.Data.List.DropRight
import Mathlib.Data.List.TakeWhile
import Calculator.Lexer

/-!
What a lexer does at a place: the four ways in which drawing the next token can go, for any rules.
-/

namespace Calculator

theorem byteCount_append (front back : List Char) :
    byteCount (front ++ back) = byteCount front + byteCount back := by
  induction front with
  | nil => rw [List.nil_append, byteCount, Nat.zero_add]
  | cons c front ih => rw [List.cons_append, byteCount, byteCount, ih, Nat.add_assoc]

namespace Lexer

/-- What can be drawn at a place behind all blanks, and the place after it. -/
inductive Outcome (lexer : Lexer) (here : Scan) : Except LexError Token → Scan → Prop
  | ended (nothing : here.rest = []) : Outcome lexer here (.ok (.atEnd here.pos)) here
  | noMatch (more : here.rest ≠ [])
      (absent : ∀ stop, lexer.union.firstEnd? (.start here.rest) = some stop → stop.taken = []) :
      Outcome lexer here (.error (.noMatch (String.ofList (here.rest.take 10)) here.pos)) here
  | unclassified {word tail : List Char} (text : here.rest = word ++ tail) (nonempty : word ≠ [])
      (found : lexer.union.firstEnd? (.start here.rest) = some ⟨word.reverse, tail⟩)
      (unknown : lexer.classify word = none) :
      Outcome lexer here (.error (.unclassified (String.ofList word) here.pos)) here
  | token {word tail : List Char} {kind : Kind} (text : here.rest = word ++ tail)
      (nonempty : word ≠ [])
      (found : lexer.union.firstEnd? (.start here.rest) = some ⟨word.reverse, tail⟩)
      (known : lexer.classify word = some kind) :
      Outcome lexer here (.ok ⟨kind, String.ofList word, here.pos⟩)
        ⟨tail, here.pos + byteCount word⟩

theorem endPos_skip (lexer : Lexer) (scan : Scan) : (lexer.skip scan).endPos = scan.endPos := by
  unfold skip
  split
  · have same : scan.rest.takeWhile isBlank ++ scan.rest.dropWhile isBlank = scan.rest :=
      List.takeWhile_append_dropWhile
    have counts := congrArg byteCount same
    rw [byteCount_append] at counts
    simp only [Scan.endPos]
    omega
  · rfl

theorem firstMatch?_eq_none {lexer : Lexer} {here : Scan} (nothing : lexer.firstMatch? here = none)
    {stop : Cursor} (found : lexer.union.firstEnd? (.start here.rest) = some stop) :
    stop.taken = [] := by
  unfold firstMatch? at nothing
  split at nothing
  · next absent =>
      rw [absent] at found
      cases found
  · next other same =>
      obtain rfl := Option.some.inj (same.symm.trans found)
      split at nothing
      · cases nothing
      · next empty => exact Decidable.not_not.mp empty

theorem firstMatch?_eq_some {lexer : Lexer} {here : Scan} {stop : Cursor}
    {shorter : stop.rest.length < here.rest.length}
    (matched : lexer.firstMatch? here = some ⟨stop, shorter⟩) :
    lexer.union.firstEnd? (.start here.rest) = some stop ∧ stop.taken ≠ [] := by
  unfold firstMatch? at matched
  split at matched
  · cases matched
  · next other found =>
      split at matched
      · next nonempty =>
          cases matched
          exact ⟨found, nonempty⟩
      · cases matched

theorem cut_outcome (lexer : Lexer) (here : Scan) (more : here.rest ≠ []) :
    match lexer.cut here with
    | .error error => Outcome lexer here (.error error) here
    | .ok found => Outcome lexer here (.ok found.token) found.after := by
  rw [cut]
  cases matched : lexer.firstMatch? here with
  | none => exact .noMatch more fun stop found => firstMatch?_eq_none matched found
  | some result =>
    obtain ⟨⟨taken, rest⟩, shorter⟩ := result
    obtain ⟨found, nonempty⟩ := firstMatch?_eq_some matched
    have text : here.rest = taken.reverse ++ rest := (Pattern.firstEnd?_text found).symm
    have nonempty' : taken.reverse ≠ [] := by simpa using nonempty
    have found' : lexer.union.firstEnd? (.start here.rest) =
        some ⟨taken.reverse.reverse, rest⟩ := by rw [List.reverse_reverse]; exact found
    simp only
    cases known : lexer.classify taken.reverse with
    | none => exact .unclassified text nonempty' found' known
    | some kind => exact .token text nonempty' found' known

def nextHere (lexer : Lexer) (here : Scan) : Except LexError Token × Scan :=
  if here.rest = [] then (.ok (.atEnd here.pos), here)
  else match lexer.cut here with
    | .error error => (.error error, here)
    | .ok found => (.ok found.token, found.after)

theorem next_eq (lexer : Lexer) (scan : Scan) :
    lexer.next scan = lexer.nextHere (lexer.skip scan) := by
  rw [next, cut?, nextHere]
  by_cases nothing : (lexer.skip scan).rest = []
  · have place : scan.endPos = (lexer.skip scan).pos := by
      rw [← endPos_skip lexer scan, Scan.endPos, nothing, byteCount, Nat.add_zero]
    rw [if_pos nothing, if_pos (List.isEmpty_iff.mpr nothing), place]
  · rw [if_neg nothing, if_neg fun empty => nothing (List.isEmpty_iff.mp empty)]
    cases lexer.cut (lexer.skip scan) <;> rfl

theorem next_outcome (lexer : Lexer) (scan : Scan) :
    Outcome lexer (lexer.skip scan) (lexer.next scan).1 (lexer.next scan).2 := by
  rw [next_eq, nextHere]
  by_cases nothing : (lexer.skip scan).rest = []
  · rw [if_pos nothing]
    exact .ended nothing
  · have outcome := lexer.cut_outcome (lexer.skip scan) nothing
    rw [if_neg nothing]
    split at outcome
    · exact outcome
    · exact outcome

theorem skip_skip (lexer : Lexer) (scan : Scan) :
    lexer.skip (lexer.skip scan) = lexer.skip scan := by
  unfold skip
  split
  · have stops : (scan.rest.dropWhile isBlank).takeWhile isBlank = [] := by
      rw [List.takeWhile_eq_nil_iff]
      exact List.dropWhile_get_zero_not isBlank scan.rest
    simp only [stops, List.dropWhile_idempotent, byteCount, Nat.add_zero]
  · rfl

theorem next_skip (lexer : Lexer) (scan : Scan) :
    lexer.next (lexer.skip scan) = lexer.next scan := by
  rw [next_eq, next_eq lexer scan, skip_skip]

end Lexer

end Calculator
