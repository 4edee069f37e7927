import Mathlib.Data.List.Basic
import Calculator.Proofs.Pattern.Plans

/-!
How the matches of a pattern are put together from those of its parts. For alternatives this holds
of all patterns; for patterns in a sequence it takes patterns without borders, whose matches do not
depend on what stands around a place. These accept a word alone exactly if they can stop behind it
in any text.
-/

namespace Calculator

namespace Pattern

def isBorderless : Pattern → Bool
  | .empty | .oneOf _ => true
  | .border _ => false
  | .group _ body | .plus body => body.isBorderless
  | .seq first second | .alt first second => first.isBorderless && second.isBorderless

def Task.isBorderless : Task → Bool
  | .next pattern | .again pattern => pattern.isBorderless
  | .leave _ => true

/-- A step that takes a character and goes on with tasks that have no borders. -/
inductive Step.Takes : Step → Prop
  | take (accepted : CharClass) {plan : Plan} (borderless : ∀ task ∈ plan, task.isBorderless) :
      Takes (.take accepted plan)

namespace Opening

def ends (here : Cursor) (found : Opening) : List Cursor :=
  found.all.flatMap (stepEnds here.taken here.rest)

def Takes (found : Opening) : Prop := ∀ step ∈ found.steps, step.Takes

theorem ends_barred (here : Cursor) (steps : List Step) :
    (barred steps).ends here = steps.flatMap (stepEnds here.taken here.rest) := rfl

theorem ends_passable (here : Cursor) (before after : List Step) :
    (passable before after).ends here = before.flatMap (stepEnds here.taken here.rest) ++
      here :: after.flatMap (stepEnds here.taken here.rest) := by
  rcases here with ⟨taken, _ | ⟨c, rest⟩⟩ <;> simp [ends, all, stepEnds]

theorem takes_free : free.Takes := fun _ member => absurd member List.not_mem_nil

theorem takes_andThen {first : Opening} {second : Unit → Opening} (takes : first.Takes)
    (takes' : (second ()).Takes) : (first.andThen second).Takes := by
  cases first with
  | barred steps => exact takes
  | passable before after =>
    simp only [Takes, steps, List.forall_mem_append] at takes
    simp only [andThen]
    cases again : second () with
    | barred inner =>
      rw [again] at takes'
      simp only [Takes, steps, List.forall_mem_append]
      exact ⟨⟨takes.1, takes'⟩, takes.2⟩
    | passable inner outer =>
      rw [again] at takes'
      simp only [Takes, steps, List.forall_mem_append] at takes' ⊢
      exact ⟨⟨takes.1, takes'.1⟩, takes'.2, takes.2⟩

theorem takes_orElse {first second : Opening} (takes : first.Takes) (takes' : second.Takes) :
    (first.orElse second).Takes := by
  cases first with
  | barred steps =>
    cases second with
    | barred others => exact List.forall_mem_append.mpr ⟨takes, takes'⟩
    | passable before after =>
      simp only [Takes, Opening.steps, List.forall_mem_append, orElse] at takes takes' ⊢
      exact ⟨⟨takes, takes'.1⟩, takes'.2⟩
  | passable before after =>
    simp only [Takes, Opening.steps, List.forall_mem_append, orElse] at takes takes' ⊢
    exact ⟨takes.1, takes.2, takes'⟩

end Opening

section Sight

variable {pattern : Pattern} {plan : Plan}

theorem opening_eq_none (sight : Option Cursor) (borderless : pattern.isBorderless) :
    opening sight pattern plan = opening none pattern plan := by
  induction pattern generalizing plan with
  | empty => rfl
  | oneOf accepted => rfl
  | border condition => cases borderless
  | group number body ih => exact ih borderless
  | seq first second ih ih' =>
    simp only [isBorderless, Bool.and_eq_true] at borderless
    simp only [opening, ih borderless.1, ih' borderless.2]
  | alt first second ih ih' =>
    simp only [isBorderless, Bool.and_eq_true] at borderless
    simp only [opening, ih borderless.1, ih' borderless.2]
  | plus body ih => exact ih borderless

theorem takes_opening (borderless : pattern.isBorderless)
    (rest : ∀ task ∈ plan, task.isBorderless) : (opening none pattern plan).Takes := by
  induction pattern generalizing plan with
  | empty => exact Opening.takes_free
  | oneOf accepted =>
    intro step member
    rw [List.mem_singleton.mp member]
    exact .take accepted rest
  | border condition => cases borderless
  | group number body ih => exact ih borderless (List.forall_mem_cons.mpr ⟨rfl, rest⟩)
  | seq first second ih ih' =>
    simp only [isBorderless, Bool.and_eq_true] at borderless
    have next : ∀ task ∈ .next second :: plan, task.isBorderless :=
      List.forall_mem_cons.mpr ⟨borderless.2, rest⟩
    exact Opening.takes_andThen (ih borderless.1 next) (ih' borderless.2 rest)
  | alt first second ih ih' =>
    simp only [isBorderless, Bool.and_eq_true] at borderless
    exact Opening.takes_orElse (ih borderless.1 rest) (ih' borderless.2 rest)
  | plus body ih => exact ih borderless (List.forall_mem_cons.mpr ⟨borderless, rest⟩)

theorem takes_resume {found : Opening} (borderless : ∀ task ∈ plan, task.isBorderless)
    (takes : found.Takes) : (resume none plan found).Takes := by
  induction plan generalizing found with
  | nil => exact takes
  | cons task plan ih =>
    rcases List.forall_mem_cons.mp borderless with ⟨here, rest⟩
    cases task with
    | next pattern => exact ih rest (Opening.takes_andThen takes (takes_opening here rest))
    | again body =>
      refine ih rest (Opening.takes_andThen takes ?_)
      have opened : (opening none body (.again body :: plan)).Takes :=
        takes_opening here borderless
      intro step member
      rw [Opening.steps, List.append_nil] at member
      exact opened step (List.mem_of_mem_filter member)
    | leave group => exact ih rest takes

theorem stepsAfter_eq (here : Cursor) (borderless : ∀ task ∈ plan, task.isBorderless) :
    stepsAfter here plan = (resume none plan .free).all := by
  have takes := takes_resume borderless Opening.takes_free
  have settled : ∀ step ∈ (resume none plan .free).all, settle here step = [step] := by
    intro step member
    by_cases stops : step = .stop
    · rw [stops]
      rfl
    · have listed : step ∈ (resume none plan .free).steps := by
        generalize resume none plan .free = found at member
        cases found with
        | barred steps => exact member
        | passable before after => simpa [Opening.all, Opening.steps, stops] using member
      cases takes step listed
      rfl
  rw [stepsAfter, List.flatMap_congr settled, List.flatMap_singleton']

theorem ends_eq_opening (here : Cursor) (borderless : pattern.isBorderless) :
    pattern.ends here = (opening none pattern []).ends here := by
  rw [ends, firstSteps, opening_eq_none _ borderless, Opening.ends]

theorem endsAfter_eq_resume (here : Cursor) (borderless : ∀ task ∈ plan, task.isBorderless) :
    endsAfter here plan = (resume none plan .free).ends here := by
  rw [endsAfter, stepsAfter_eq here borderless, Opening.ends]

end Sight

section Sequence

/-! A plan is followed in the same way whatever else is to be done after it. -/

def Step.append (later : Plan) : Step → Step
  | .take accepted plan => .take accepted (plan ++ later)
  | .look condition plan => .look condition (plan ++ later)
  | .stop => .stop

def Opening.append (later : Plan) : Opening → Opening
  | .barred steps => .barred (steps.map (·.append later))
  | .passable before after =>
      .passable (before.map (·.append later)) (after.map (·.append later))

theorem Step.append_injective (later : Plan) : Function.Injective (Step.append later) := by
  intro left right same
  cases left <;> cases right <;> simp_all [Step.append]

theorem Opening.steps_append (later : Plan) (found : Opening) :
    (found.append later).steps = found.steps.map (·.append later) := by
  cases found with
  | barred steps => rfl
  | passable before after => simp [Opening.append, Opening.steps]

theorem Opening.passable_append (later : Plan) (before after : List Step) :
    (passable before after).append later =
      .passable (before.map (·.append later)) (after.map (·.append later)) := rfl

theorem Opening.andThen_append (later : Plan) (first : Opening) (second : Unit → Opening) :
    (first.andThen second).append later =
      (first.append later).andThen fun _ => (second ()).append later := by
  cases first with
  | barred steps => rfl
  | passable before after =>
    cases again : second () <;> simp [Opening.andThen, Opening.append, again]

theorem Opening.orElse_append (later : Plan) (first second : Opening) :
    (first.orElse second).append later = (first.append later).orElse (second.append later) := by
  cases first <;> cases second <;> simp [Opening.orElse, Opening.append, Opening.steps]

theorem opening_append (pattern : Pattern) (plan later : Plan) :
    opening none pattern (plan ++ later) = (opening none pattern plan).append later := by
  induction pattern generalizing plan with
  | empty => rfl
  | oneOf accepted => rfl
  | border condition => rfl
  | group number body ih => exact ih (.leave number :: plan)
  | seq first second ih ih' =>
    have front := ih (.next second :: plan)
    rw [List.cons_append] at front
    simp only [opening, front, ih', Opening.andThen_append]
  | alt first second ih ih' => simp only [opening, ih, ih', Opening.orElse_append]
  | plus body ih => exact ih (.again body :: plan)

theorem resume_append (plan later : Plan) (found : Opening) :
    resume none (plan ++ later) (found.append later) =
      resume none later ((resume none plan found).append later) := by
  induction plan generalizing found with
  | nil => rfl
  | cons task plan ih =>
    cases task with
    | next pattern =>
      rw [List.cons_append, resume, resume, ← ih, Opening.andThen_append, opening_append]
    | again body =>
      rw [List.cons_append, resume, resume, ← ih, Opening.andThen_append]
      -- Which steps are new does not change when all of them are given more to do.
      have round := opening_append body (.again body :: plan) later
      rw [List.cons_append] at round
      have absent : ∀ step : Step, step.append later ∈ found.steps.map (·.append later) ↔
          step ∈ found.steps :=
        fun step => List.mem_map_of_injective (Step.append_injective later)
      simp only [round, Opening.steps_append, List.filter_map, Opening.passable_append,
        List.map_nil, Function.comp_def, absent]
    | leave group =>
      rw [List.cons_append, resume, resume]
      exact ih found

variable {second : Pattern}

theorem Opening.ends_append (borderless : second.isBorderless) (here : Cursor) {found : Opening}
    (takes : found.Takes)
    (onward : ∀ c rest plan, here.rest = c :: rest → (∀ task ∈ plan, task.isBorderless) →
      endsAfter ⟨c :: here.taken, rest⟩ (plan ++ [.next second]) =
        (endsAfter ⟨c :: here.taken, rest⟩ plan).flatMap second.ends) :
    ((found.append [.next second]).andThen fun _ => opening none second []).ends here =
      (found.ends here).flatMap second.ends := by
  have step_ends : ∀ step ∈ found.steps,
      stepEnds here.taken here.rest (step.append [.next second]) =
        (stepEnds here.taken here.rest step).flatMap second.ends := by
    intro step member
    cases takes step member with
    | take accepted rest =>
      rcases here with ⟨taken, _ | ⟨c, tail⟩⟩
      · rfl
      · simp only [Step.append, stepEnds]
        split
        · exact onward c tail _ rfl rest
        · rfl
  have steps_ends : ∀ steps : List Step, (∀ step ∈ steps, step ∈ found.steps) →
      (steps.map (·.append [.next second])).flatMap (stepEnds here.taken here.rest) =
        (steps.flatMap (stepEnds here.taken here.rest)).flatMap second.ends := by
    intro steps listed
    rw [List.flatMap_map, List.flatMap_assoc]
    exact List.flatMap_congr fun step member => step_ends step (listed step member)
  cases found with
  | barred steps => exact steps_ends steps fun _ member => member
  | passable before after =>
    have front := steps_ends before fun _ member => List.mem_append_left after member
    have back := steps_ends after fun _ member => List.mem_append_right before member
    have middle := ends_eq_opening here borderless
    rw [Opening.ends_passable, List.flatMap_append, List.flatMap_cons, ← front, ← back, middle]
    simp only [Opening.append, Opening.andThen]
    cases opening none second [] with
    | barred inner => simp only [Opening.ends_barred, List.flatMap_append, List.append_assoc]
    | passable inner outer =>
      simp only [Opening.ends_passable, List.flatMap_append, List.append_assoc, List.cons_append]

theorem endsAfter_append (borderless : second.isBorderless) (taken rest : List Char) {plan : Plan}
    (plain : ∀ task ∈ plan, task.isBorderless) :
    endsAfter ⟨taken, rest⟩ (plan ++ [.next second]) =
      (endsAfter ⟨taken, rest⟩ plan).flatMap second.ends := by
  have both : ∀ task ∈ plan ++ [.next second], task.isBorderless :=
    List.forall_mem_append.mpr ⟨plain, List.forall_mem_singleton.mpr borderless⟩
  rw [endsAfter_eq_resume _ both, endsAfter_eq_resume _ plain]
  have split := resume_append plan [.next second] .free
  change resume none (plan ++ [.next second]) .free = _ at split
  rw [split, resume, resume]
  apply Opening.ends_append borderless ⟨taken, rest⟩ (takes_resume plain Opening.takes_free)
  -- Each step takes a character, so the recursion is on the text that is left.
  intro c tail plan same plain
  have shorter : tail.length < rest.length := by
    rw [show rest = c :: tail from same, List.length_cons]
    omega
  exact endsAfter_append borderless (c :: taken) tail plain
termination_by rest.length

theorem ends_seq {first : Pattern} (borderless : first.isBorderless)
    (borderless' : second.isBorderless) (here : Cursor) :
    (seq first second).ends here = (first.ends here).flatMap second.ends := by
  have both : (seq first second).isBorderless := by
    rw [isBorderless, borderless, borderless']
    rfl
  rw [ends_eq_opening here both, ends_eq_opening here borderless, opening]
  have front := opening_append first [] [.next second]
  rw [List.nil_append] at front
  rw [front]
  apply Opening.ends_append borderless' here (takes_opening borderless (by simp))
  intro c rest plan _ plain
  exact endsAfter_append borderless' (c :: here.taken) rest plain

end Sequence

section Alone

/-! What stands behind a place where a match stops does not matter to the match. -/

theorem length_taken_le {taken rest : List Char} {step : Step} {stop : Cursor}
    (stops : stop ∈ stepEnds taken rest step) : taken.length ≤ stop.taken.length := by
  induction rest generalizing taken step with
  | nil =>
    by_cases going : step = .stop
    · rw [going, stepEnds] at stops
      exact Nat.le_of_eq (congrArg (·.taken.length) (List.mem_singleton.mp stops).symm)
    · rw [stepEnds_nil taken step going] at stops
      exact absurd stops List.not_mem_nil
  | cons c rest ih =>
    cases step with
    | stop => exact Nat.le_of_eq (congrArg (·.taken.length) (List.mem_singleton.mp stops).symm)
    | look condition plan => exact absurd stops List.not_mem_nil
    | take accepted plan =>
      rw [stepEnds] at stops
      split at stops
      · rcases List.mem_flatMap.mp stops with ⟨step, _, stops⟩
        exact Nat.le_of_succ_le (ih stops)
      · exact absurd stops List.not_mem_nil

def Step.Plain (step : Step) : Prop := step = .stop ∨ step.Takes

theorem Opening.plain_all {found : Opening} (takes : found.Takes) :
    ∀ step ∈ found.all, step.Plain := by
  intro step member
  cases found with
  | barred steps => exact .inr (takes step member)
  | passable before after =>
    simp only [all, List.mem_append, List.mem_cons] at member
    rcases member with before | rfl | after
    · exact .inr (takes step (List.mem_append_left _ before))
    · exact .inl rfl
    · exact .inr (takes step (List.mem_append_right _ after))

theorem mem_stepEnds_append (taken word tail : List Char) {step : Step} (plain : step.Plain) :
    ⟨word.reverse ++ taken, tail⟩ ∈ stepEnds taken (word ++ tail) step ↔
      ⟨word.reverse ++ taken, []⟩ ∈ stepEnds taken word step := by
  induction word generalizing taken step with
  | nil =>
    rcases plain with rfl | @⟨accepted, plan, borderless⟩
    · simp [stepEnds]
    · -- To take a character would leave this place behind.
      have later : (⟨taken, tail⟩ : Cursor) ∉ stepEnds taken tail (.take accepted plan) := by
        intro stops
        cases tail with
        | nil => exact absurd stops List.not_mem_nil
        | cons c tail =>
          rw [stepEnds] at stops
          split at stops
          · rcases List.mem_flatMap.mp stops with ⟨step, _, stops⟩
            have longer := length_taken_le stops
            simp only [List.length_cons] at longer
            omega
          · exact absurd stops List.not_mem_nil
      exact iff_of_false later List.not_mem_nil
  | cons c word ih =>
    rcases plain with rfl | @⟨accepted, plan, borderless⟩
    · have longer : (c :: word).reverse ++ taken ≠ taken := by
        intro same
        have lengths := congrArg List.length same
        simp only [List.length_append, List.length_reverse, List.length_cons] at lengths
        omega
      simp only [stepEnds, List.mem_singleton, Cursor.mk.injEq, longer, false_and]
    · rw [List.cons_append, stepEnds, stepEnds]
      split
      · have plain := Opening.plain_all (takes_resume borderless Opening.takes_free)
        rw [stepsAfter_eq _ borderless, stepsAfter_eq _ borderless, List.mem_flatMap,
          List.mem_flatMap, List.reverse_cons, List.append_assoc, List.singleton_append]
        exact exists_congr fun step => and_congr_right fun member =>
          ih (c :: taken) (plain step member)
      · exact iff_of_false List.not_mem_nil List.not_mem_nil

/-- A pattern without borders accepts a word alone if it can stop behind the word in any text. -/
theorem accepts_iff_ends_append {pattern : Pattern} (borderless : pattern.isBorderless)
    (word tail : List Char) : pattern.accepts word ↔
      ⟨word.reverse, tail⟩ ∈ pattern.ends (.start (word ++ tail)) := by
  have takes : (opening none pattern []).Takes := takes_opening borderless (by simp)
  have cuts : ⟨word.reverse, tail⟩ ∈ pattern.ends (.start (word ++ tail)) ↔
      ⟨word.reverse, []⟩ ∈ pattern.ends (.start word) := by
    rw [ends_eq_opening _ borderless, ends_eq_opening _ borderless, Opening.ends, Opening.ends,
      List.mem_flatMap, List.mem_flatMap]
    apply exists_congr
    intro step
    apply and_congr_right
    intro member
    have plain := Opening.plain_all takes step member
    have cut := mem_stepEnds_append [] word tail plain
    rw [List.append_nil] at cut
    exact cut
  rw [cuts, accepts_iff]
  constructor
  · rintro ⟨⟨taken, rest⟩, stops, nothing⟩
    obtain rfl : rest = [] := nothing
    have text := ends_text pattern _ _ stops
    rw [Cursor.text, Cursor.text, List.append_nil] at text
    rw [← show taken.reverse = word from text, List.reverse_reverse]
    exact text ▸ stops
  · intro stops
    exact ⟨_, stops, rfl⟩

end Alone

end Pattern

end Calculator
