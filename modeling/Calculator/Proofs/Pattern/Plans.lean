import Calculator.Pattern.Search

/-!
Where the matches of simple patterns end. A plan is followed one character at a time; characters
one after the other have at most one end, and a repetition has one at each place up to the first
character that it does not accept.
-/

namespace Calculator

namespace Pattern

/-- The places where a match can stop that goes on with a plan, best first. -/
def endsAfter (here : Cursor) (plan : Plan) : List Cursor :=
  (stepsAfter here plan).flatMap (stepEnds here.taken here.rest)

def planOf : List Pattern → Plan
  | [] => []
  | patterns => [.next (chain patterns)]

section Characters

variable {accepted : CharClass} {patterns : List Pattern} {taken rest : List Char} {c : Char}

theorem opening_chain (sight : Option Cursor) :
    opening sight (chain (.oneOf accepted :: patterns)) [] =
      .barred [.take accepted (planOf patterns)] := by
  cases patterns <;> rfl

theorem endsAfter_nil (here : Cursor) : endsAfter here [] = [here] := by
  obtain ⟨taken, rest⟩ := here
  cases rest <;> rfl

theorem stepsAfter_oneOf (here : Cursor) :
    stepsAfter here (planOf (.oneOf accepted :: patterns)) =
      [.take accepted (planOf patterns)] := by
  have first : resume none (planOf (.oneOf accepted :: patterns)) .free =
      .barred [.take accepted (planOf patterns)] := by
    simp only [planOf, resume, Opening.andThen, Opening.free, opening_chain]
    rfl
  rw [stepsAfter, first]
  rfl

theorem endsAfter_oneOf_nil :
    endsAfter ⟨taken, []⟩ (planOf (.oneOf accepted :: patterns)) = [] := by
  rw [endsAfter, stepsAfter_oneOf]
  rfl

theorem endsAfter_oneOf_cons :
    endsAfter ⟨taken, c :: rest⟩ (planOf (.oneOf accepted :: patterns)) =
      if accepted.contains c then endsAfter ⟨c :: taken, rest⟩ (planOf patterns) else [] := by
  rw [endsAfter, stepsAfter_oneOf, List.flatMap_singleton]
  rfl

theorem endsAfter_border (here : Cursor) (condition : Border) :
    endsAfter here (planOf [.border condition]) = if here.meets condition then [here] else [] := by
  have steps : stepsAfter here (planOf [.border condition]) =
      if here.meets condition then [.stop] else [] := by
    simp [stepsAfter, planOf, resume, Opening.andThen, Opening.free, chain, opening, Opening.all,
      settle]
  rw [endsAfter, steps]
  split
  · exact endsAfter_nil here
  · rfl

theorem ends_chain (here : Cursor) :
    ends (chain (.oneOf accepted :: patterns)) here =
      endsAfter here (planOf (.oneOf accepted :: patterns)) := by
  rw [ends, firstSteps, opening_chain, endsAfter, stepsAfter_oneOf]
  rfl

theorem endsAfter_literal (word tail taken : List Char) (ending : List Pattern) :
    endsAfter ⟨taken, word ++ tail⟩ (planOf (word.map char ++ ending)) =
      endsAfter ⟨word.reverse ++ taken, tail⟩ (planOf ending) := by
  induction word generalizing taken with
  | nil => rfl
  | cons c word ih =>
    rw [List.map_cons, List.cons_append, List.cons_append, char, endsAfter_oneOf_cons,
      CharClass.contains_just, if_pos (beq_self_eq_true c), ih, List.reverse_cons,
      List.append_assoc]
    rfl

theorem endsAfter_literal_absent {word : List Char} {ending : List Pattern}
    (absent : ¬ word <+: rest) :
    endsAfter ⟨taken, rest⟩ (planOf (word.map char ++ ending)) = [] := by
  induction word generalizing taken rest with
  | nil => exact absurd (List.nil_prefix) absent
  | cons c word ih =>
    rw [List.map_cons, List.cons_append, char]
    cases rest with
    | nil => exact endsAfter_oneOf_nil
    | cons d rest =>
      rw [endsAfter_oneOf_cons, CharClass.contains_just]
      split
      · next same =>
          refine ih ?_
          rw [List.cons_prefix_cons, not_and] at absent
          exact absent (beq_iff_eq.mp same).symm
      · rfl

end Characters

section Repetitions

variable {accepted : CharClass} {taken rest : List Char} {c : Char}

def stretch (accepted : CharClass) (taken : List Char) : List Char → List Cursor
  | [] => [⟨taken, []⟩]
  | c :: rest =>
      if accepted.contains c then stretch accepted (c :: taken) rest ++ [⟨taken, c :: rest⟩]
      else [⟨taken, c :: rest⟩]

theorem endsAfter_again (taken rest : List Char) :
    endsAfter ⟨taken, rest⟩ [.again (.oneOf accepted)] = stretch accepted taken rest := by
  have steps : ∀ here, stepsAfter here [.again (.oneOf accepted)] =
      [.take accepted [.again (.oneOf accepted)], .stop] := by
    intro here
    simp [stepsAfter, resume, Opening.andThen, Opening.free, opening, Opening.steps, Opening.all,
      settle]
  induction rest generalizing taken with
  | nil =>
    rw [endsAfter, steps]
    rfl
  | cons c rest ih =>
    rw [endsAfter, steps, List.flatMap_cons, List.flatMap_singleton, stretch, ← ih]
    simp only [stepEnds]
    split <;> rfl

theorem head?_stretch (taken rest : List Char) :
    (stretch accepted taken rest).head? =
      some ⟨(rest.takeWhile accepted.contains).reverse ++ taken,
        rest.dropWhile accepted.contains⟩ := by
  induction rest generalizing taken with
  | nil => rfl
  | cons c rest ih =>
    rw [stretch]
    split
    · next here => simp [ih, here]
    · next other => simp [other]

theorem exists_stretch_iff :
    (∃ stop ∈ stretch accepted taken rest, stop.rest = []) ↔ ∀ c ∈ rest, accepted.contains c := by
  induction rest generalizing taken with
  | nil => simp [stretch]
  | cons c rest ih =>
    rw [stretch]
    split
    · next here =>
        simp only [List.mem_append, List.mem_singleton, or_and_right, exists_or, ih]
        simp [here]
    · next other => simp [other]

theorem endsAfter_star : endsAfter ⟨taken, rest⟩ (planOf [.star (.oneOf accepted)]) =
    stretch accepted taken rest := by
  rw [← endsAfter_again]
  have steps : ∀ here, stepsAfter here (planOf [.star (.oneOf accepted)]) =
      stepsAfter here [.again (.oneOf accepted)] := by
    intro here
    simp [stepsAfter, planOf, chain, star, optional, resume, Opening.andThen, Opening.free, opening,
      Opening.orElse, Opening.steps, Opening.all, settle]
  rw [endsAfter, steps, endsAfter]

theorem endsAfter_plus_nil : endsAfter ⟨taken, []⟩ (planOf [.plus (.oneOf accepted)]) = [] := rfl

theorem endsAfter_plus_cons : endsAfter ⟨taken, c :: rest⟩ (planOf [.plus (.oneOf accepted)]) =
    if accepted.contains c then stretch accepted (c :: taken) rest else [] := by
  have steps : ∀ here, stepsAfter here (planOf [.plus (.oneOf accepted)]) =
      [.take accepted [.again (.oneOf accepted)]] := fun _ => rfl
  rw [endsAfter, steps, List.flatMap_singleton, ← endsAfter_again]
  rfl

theorem ends_plus (here : Cursor) :
    ends (.plus (.oneOf accepted)) here = endsAfter here (planOf [.plus (.oneOf accepted)]) := by
  obtain ⟨taken, rest⟩ := here
  cases rest <;> rfl

variable {other : CharClass} {patterns : List Pattern}

theorem stepsAfter_again_next (here : Cursor) :
    stepsAfter here (.again (.oneOf accepted) :: planOf (.oneOf other :: patterns)) =
      [.take accepted (.again (.oneOf accepted) :: planOf (.oneOf other :: patterns)),
        .take other (planOf patterns)] := by
  simp [stepsAfter, planOf, resume, Opening.andThen, Opening.free, opening, opening_chain,
    Opening.steps, Opening.all, settle]

/-- A repetition with something behind it is left only where this can begin. -/
theorem endsAfter_again_next (apart : ∀ c, accepted.contains c → ¬ other.contains c)
    (taken rest : List Char) :
    endsAfter ⟨taken, rest⟩ (.again (.oneOf accepted) :: planOf (.oneOf other :: patterns)) =
      endsAfter ⟨(rest.takeWhile accepted.contains).reverse ++ taken,
        rest.dropWhile accepted.contains⟩ (planOf (.oneOf other :: patterns)) := by
  induction rest generalizing taken with
  | nil =>
    rw [endsAfter, stepsAfter_again_next, List.takeWhile_nil, List.dropWhile_nil,
      List.reverse_nil, List.nil_append, endsAfter_oneOf_nil]
    rfl
  | cons c rest ih =>
    rw [endsAfter, stepsAfter_again_next, List.flatMap_cons, List.flatMap_singleton]
    simp only [stepEnds]
    by_cases here : accepted.contains c
    · rw [if_pos here, if_neg (apart c here), List.append_nil, List.takeWhile_cons_of_pos here,
        List.dropWhile_cons_of_pos here, List.reverse_cons, List.append_assoc]
      exact ih (c :: taken)
    · rw [if_neg here, List.takeWhile_cons_of_neg here, List.dropWhile_cons_of_neg here,
        List.reverse_nil, List.nil_append, endsAfter_oneOf_cons]
      rfl

theorem opening_star_chain (here : Cursor) :
    opening (some here) (.seq (.star (.oneOf accepted)) (chain (.oneOf other :: patterns))) [] =
      .barred [.take accepted (.again (.oneOf accepted) :: planOf (.oneOf other :: patterns)),
        .take other (planOf patterns)] := by
  simp [star, optional, opening, opening_chain, Opening.orElse, Opening.andThen, Opening.free,
    planOf]

theorem ends_star_chain (apart : ∀ c, accepted.contains c → ¬ other.contains c) :
    ends (.seq (.star (.oneOf accepted)) (chain (.oneOf other :: patterns))) ⟨taken, rest⟩ =
      endsAfter ⟨(rest.takeWhile accepted.contains).reverse ++ taken,
        rest.dropWhile accepted.contains⟩ (planOf (.oneOf other :: patterns)) := by
  rw [← endsAfter_again_next apart, ends, firstSteps, opening_star_chain, endsAfter,
    stepsAfter_again_next]
  rfl

end Repetitions

section Alternatives

/-- A pattern that takes a character before anything else can happen. -/
def Barred (pattern : Pattern) : Prop :=
  ∀ here, ∃ steps, opening (some here) pattern [] = .barred steps

theorem ends_barred {pattern : Pattern} {here : Cursor} {steps : List Step}
    (bars : opening (some here) pattern [] = .barred steps) :
    pattern.ends here = steps.flatMap (stepEnds here.taken here.rest) := by
  rw [ends, firstSteps, bars, Opening.all]

theorem barred_chain (accepted : CharClass) (patterns : List Pattern) :
    (chain (.oneOf accepted :: patterns)).Barred :=
  fun here => ⟨_, opening_chain (some here)⟩

theorem barred_anyOf {patterns : List Pattern} (barred : ∀ pattern ∈ patterns, pattern.Barred)
    (nonempty : patterns ≠ []) : (anyOf patterns).Barred := by
  intro here
  induction patterns with
  | nil => exact absurd rfl nonempty
  | cons pattern patterns ih =>
    obtain ⟨steps, bars⟩ := barred pattern List.mem_cons_self here
    cases patterns with
    | nil => exact ⟨steps, bars⟩
    | cons next patterns =>
      obtain ⟨others, bars'⟩ :=
        ih (fun pattern member => barred pattern (List.mem_cons_of_mem _ member))
          (List.cons_ne_nil _ _)
      refine ⟨steps ++ others, ?_⟩
      rw [anyOf, opening, bars, bars', Opening.orElse]
      simp

theorem ends_anyOf {patterns : List Pattern} (barred : ∀ pattern ∈ patterns, pattern.Barred)
    (nonempty : patterns ≠ []) (here : Cursor) :
      (anyOf patterns).ends here = patterns.flatMap fun pattern => pattern.ends here := by
  induction patterns with
  | nil => exact absurd rfl nonempty
  | cons pattern patterns ih =>
    cases patterns with
    | nil => simp [anyOf]
    | cons next patterns =>
      obtain ⟨steps, bars⟩ := barred pattern List.mem_cons_self here
      have barred' : ∀ pattern ∈ next :: patterns, pattern.Barred :=
        fun pattern member => barred pattern (List.mem_cons_of_mem _ member)
      obtain ⟨others, bars'⟩ := barred_anyOf barred' (List.cons_ne_nil _ _) here
      have both : opening (some here) (anyOf (pattern :: next :: patterns)) [] =
          .barred (steps ++ others) := by
        rw [anyOf, opening, bars, bars', Opening.orElse]
        simp
      rw [ends_barred both, List.flatMap_append, ← ends_barred bars, ← ends_barred bars',
        ih barred' (List.cons_ne_nil _ _)]
      rfl

end Alternatives

end Pattern

end Calculator
