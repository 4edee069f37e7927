import Calculator.Pattern.Basic

/-!
The matches of a pattern, best first. A match goes through a text one character at a time. At each
place `Pattern.opening` and `Pattern.resume` list the steps that may come next, best first, and each
step carries the plan of what is left to match after it. `Pattern.ends` follows every step and lists
all places where a match can stop. `Pattern.firstEnd?` keeps a list of distinct plans instead and so
needs time in proportion to the text; `Pattern.firstEnd?_eq` says that it finds the head of `ends`.

Between two characters no part of a pattern is begun twice. A further round of a repetition therefore
offers only steps that are not listed yet, even if they are listed with a lower rank, and a round
that takes no character leads nowhere. Borders are seen to last: a step that depends on a border takes
its place in the list before the border is looked at, and then makes room for what lies behind it.
-/

namespace Calculator

namespace Pattern

inductive Task
  | next (pattern : Pattern)
  | again (body : Pattern)
  | leave (group : Nat)
  deriving DecidableEq, Repr

abbrev Plan := List Task

/-- A way to go on from a place: take a character, see to a border, or stop. -/
inductive Step
  | take (accepted : CharClass) (plan : Plan)
  | look (condition : Border) (plan : Plan)
  | stop
  deriving DecidableEq, Repr

/-- The steps with which a pattern can begin at a place, best first. It is `passable` if the pattern
can also be matched without any step, which then ranks between the two lists. -/
inductive Opening
  | barred (steps : List Step)
  | passable (before after : List Step)

namespace Opening

def free : Opening := .passable [] []

def steps : Opening → List Step
  | .barred steps => steps
  | .passable before after => before ++ after

def all : Opening → List Step
  | .barred steps => steps
  | .passable before after => before ++ .stop :: after

def andThen (first : Opening) (second : Unit → Opening) : Opening :=
  match first with
  | .barred steps => .barred steps
  | .passable before after =>
      match second () with
      | .barred steps => .barred (before ++ steps ++ after)
      | .passable inner outer => .passable (before ++ inner) (outer ++ after)

/-- Only the better way to pass counts, since both lead to the same place. -/
def orElse (first second : Opening) : Opening :=
  match first, second with
  | .barred steps, .barred others => .barred (steps ++ others)
  | .barred steps, .passable before after => .passable (steps ++ before) after
  | .passable before after, second => .passable before (after ++ second.steps)

end Opening

/-- The steps with which a pattern begins when a plan follows it. Without sight of the place a border
is a step of its own. -/
def opening (sight : Option Cursor) : Pattern → Plan → Opening
  | .empty, _ => .free
  | .oneOf accepted, plan => .barred [.take accepted plan]
  | .border condition, plan =>
      match sight with
      | none => .barred [.look condition plan]
      | some here => if here.meets condition then .free else .barred []
  | .group number body, plan => opening sight body (.leave number :: plan)
  | .seq first second, plan =>
      (opening sight first (.next second :: plan)).andThen fun _ => opening sight second plan
  | .alt first second, plan => (opening sight first plan).orElse (opening sight second plan)
  | .plus body, plan => opening sight body (.again body :: plan)

/-- The steps with which a plan goes on, given those found on the way to it. -/
def resume (sight : Option Cursor) : Plan → Opening → Opening
  | [], found => found
  | .next pattern :: plan, found =>
      resume sight plan (found.andThen fun _ => opening sight pattern plan)
  | .again body :: plan, found =>
      resume sight plan (found.andThen fun _ =>
        let steps := (opening sight body (.again body :: plan)).steps
        .passable (steps.filter fun step => step ∉ found.steps) [])
  | .leave _ :: plan, found => resume sight plan found

def settle (here : Cursor) : Step → List Step
  | .look condition plan =>
      if here.meets condition then (resume (some here) plan .free).all else []
  | step => [step]

def firstSteps (pattern : Pattern) (here : Cursor) : List Step :=
  (opening (some here) pattern []).all

/-- The steps with which a plan goes on after a character has been taken. All borders are seen to
once the other steps are known. -/
def stepsAfter (here : Cursor) (plan : Plan) : List Step :=
  (resume none plan .free).all.flatMap (settle here)

def stepEnds (taken : List Char) : List Char → Step → List Cursor
  | rest, .stop => [⟨taken, rest⟩]
  | c :: rest, .take accepted plan =>
      if accepted.contains c then
        (stepsAfter ⟨c :: taken, rest⟩ plan).flatMap (stepEnds (c :: taken) rest)
      else []
  | [], .take _ _ => []
  | _, .look _ _ => []

def ends (pattern : Pattern) (here : Cursor) : List Cursor :=
  (pattern.firstSteps here).flatMap (stepEnds here.taken here.rest)

def distinct : List Plan → List Plan
  | [] => []
  | plan :: plans => plan :: (distinct plans).filter (· ≠ plan)

def Step.taking (c : Char) : Step → Option Plan
  | .take accepted plan => if accepted.contains c then some plan else none
  | .look _ _ => none
  | .stop => none

def plansTaking (c : Char) (steps : List Step) : List Plan :=
  distinct (steps.filterMap (Step.taking c))

/-- The best stop among the given steps. A step to stop makes all steps after it worthless, and is
itself worth less than those before it. -/
def run (taken : List Char) : List Char → List Step → Option Cursor → Option Cursor
  | [], steps, best => if .stop ∈ steps then some ⟨taken, []⟩ else best
  | c :: rest, steps, best =>
      let best := if .stop ∈ steps then some ⟨taken, c :: rest⟩ else best
      match plansTaking c (steps.takeWhile (· ≠ .stop)) with
      | [] => best
      | plans => run (c :: taken) rest (plans.flatMap (stepsAfter ⟨c :: taken, rest⟩)) best

def firstEnd? (pattern : Pattern) (here : Cursor) : Option Cursor :=
  run here.taken here.rest (pattern.firstSteps here) none

def reachesEnd (taken : List Char) : List Char → List Step → Bool
  | [], steps => .stop ∈ steps
  | c :: rest, steps =>
      match plansTaking c steps with
      | [] => false
      | plans => reachesEnd (c :: taken) rest (plans.flatMap (stepsAfter ⟨c :: taken, rest⟩))

def takesRest (pattern : Pattern) (here : Cursor) : Bool :=
  reachesEnd here.taken here.rest (pattern.firstSteps here)

/-- Whether a text matches as a whole when it stands alone. -/
def accepts (pattern : Pattern) (text : List Char) : Bool := pattern.takesRest (.start text)

theorem findSome?_filter_ne {α : Type} (value : Plan → Option α) (plan : Plan) (plans : List Plan)
    (absent : value plan = none) :
    (plans.filter (· ≠ plan)).findSome? value = plans.findSome? value := by
  induction plans with
  | nil => rfl
  | cons other plans ih =>
    by_cases same : other = plan
    · rw [List.filter_cons_of_neg (by simp [same]), ih, List.findSome?_cons, same, absent]
    · rw [List.filter_cons_of_pos (by simp [same]), List.findSome?_cons, List.findSome?_cons, ih]

theorem findSome?_distinct {α : Type} (value : Plan → Option α) (plans : List Plan) :
    (distinct plans).findSome? value = plans.findSome? value := by
  induction plans with
  | nil => rfl
  | cons plan plans ih =>
    rw [distinct, List.findSome?_cons, List.findSome?_cons]
    cases found : value plan with
    | some _ => rfl
    | none => exact (findSome?_filter_ne value plan _ found).trans ih

theorem mem_distinct (plan : Plan) (plans : List Plan) : plan ∈ distinct plans ↔ plan ∈ plans := by
  induction plans with
  | nil => rfl
  | cons other plans ih =>
    by_cases same : plan = other
    · simp [distinct, same]
    · simp [distinct, same, ih]

theorem mem_plansTaking (c : Char) (steps : List Step) (plan : Plan) :
    plan ∈ plansTaking c steps ↔ ∃ step ∈ steps, step.taking c = some plan := by
  rw [plansTaking, mem_distinct, List.mem_filterMap]

theorem findSome?_stop {α : Type} (value before : Step → Option α) (found : α)
    (value_stop : value .stop = some found)
    (value_before : ∀ step, step ≠ .stop → value step = before step) (steps : List Step) :
    steps.findSome? value =
      ((steps.takeWhile (· ≠ .stop)).findSome? before).or
        (if .stop ∈ steps then some found else none) := by
  induction steps with
  | nil => rfl
  | cons step steps ih =>
    by_cases stops : step = .stop
    · simp [stops, value_stop]
    · have later : Step.stop ≠ step := fun same => stops same.symm
      rw [List.takeWhile_cons_of_pos (by simp [stops]), List.findSome?_cons, List.findSome?_cons, ih,
        value_before step stops]
      cases before step <;> simp [later]

theorem findSome?_plansTaking {α : Type} (c : Char) (value : Plan → Option α) (steps : List Step) :
    (plansTaking c steps).findSome? value =
      steps.findSome? fun step => (step.taking c).bind value := by
  rw [plansTaking, findSome?_distinct]
  induction steps with
  | nil => rfl
  | cons step steps ih =>
    rw [List.filterMap_cons, List.findSome?_cons]
    cases step.taking c with
    | none => exact ih
    | some plan => rw [List.findSome?_cons, ih]; rfl

theorem stepEnds_nil (taken : List Char) (step : Step) (going : step ≠ .stop) :
    stepEnds taken [] step = [] := by
  cases step with
  | stop => exact absurd rfl going
  | take _ _ => rfl
  | look _ _ => rfl

theorem stepEnds_cons (taken : List Char) (c : Char) (rest : List Char) (step : Step)
    (going : step ≠ .stop) :
    stepEnds taken (c :: rest) step = (step.taking c).toList.flatMap fun plan =>
      (stepsAfter ⟨c :: taken, rest⟩ plan).flatMap (stepEnds (c :: taken) rest) := by
  cases step with
  | stop => exact absurd rfl going
  | look _ _ => rfl
  | take accepted plan =>
    rw [stepEnds, Step.taking]
    split <;> simp

/-- Looking for the first stop with lists of plans finds the first of all stops. -/
theorem run_eq (taken rest : List Char) (steps : List Step) (best : Option Cursor) :
    run taken rest steps best = (steps.flatMap (stepEnds taken rest)).head?.or best := by
  induction rest generalizing taken steps best with
  | nil =>
    rw [run, List.head?_flatMap,
      findSome?_stop (fun step => (stepEnds taken [] step).head?) (fun _ => none) ⟨taken, []⟩ rfl
        fun step going => by rw [stepEnds_nil taken step going]; rfl]
    have nothing : (steps.takeWhile (· ≠ .stop)).findSome? (fun _ => (none : Option Cursor)) =
        none := by simp
    rw [nothing]
    split <;> rfl
  | cons c rest ih =>
    rw [run, List.head?_flatMap,
      findSome?_stop (fun step => (stepEnds taken (c :: rest) step).head?)
        (fun step => (step.taking c).bind fun plan =>
          ((stepsAfter ⟨c :: taken, rest⟩ plan).flatMap (stepEnds (c :: taken) rest)).head?)
        ⟨taken, c :: rest⟩ rfl
        fun step going => by
          rw [stepEnds_cons taken c rest step going]
          cases step.taking c <;> simp,
      ← findSome?_plansTaking]
    split
    · next none_left =>
        rw [none_left]
        split <;> rfl
    · next plans _ =>
        rw [ih, List.flatMap_assoc, List.head?_flatMap]
        split <;> simp

theorem firstEnd?_eq (pattern : Pattern) (here : Cursor) :
    pattern.firstEnd? here = (pattern.ends here).head? := by
  rw [firstEnd?, run_eq, Option.or_none, ends]

theorem reachesEnd_iff (taken rest : List Char) (steps : List Step) :
    reachesEnd taken rest steps = true ↔
      ∃ stop ∈ steps.flatMap (stepEnds taken rest), stop.rest = [] := by
  induction rest generalizing taken steps with
  | nil =>
    rw [reachesEnd, decide_eq_true_iff]
    constructor
    · intro member
      exact ⟨_, List.mem_flatMap.mpr ⟨_, member, List.mem_singleton.mpr rfl⟩, rfl⟩
    · rintro ⟨stop, member, _⟩
      obtain ⟨step, member, reached⟩ := List.mem_flatMap.mp member
      by_cases going : step = .stop
      · exact going ▸ member
      · simp [stepEnds_nil taken step going] at reached
  | cons c rest ih =>
    have onward : (∃ stop ∈ steps.flatMap (stepEnds taken (c :: rest)), stop.rest = []) ↔
        ∃ stop ∈ ((plansTaking c steps).flatMap (stepsAfter ⟨c :: taken, rest⟩)).flatMap
          (stepEnds (c :: taken) rest), stop.rest = [] := by
      constructor
      · rintro ⟨stop, member, finished⟩
        obtain ⟨step, member, reached⟩ := List.mem_flatMap.mp member
        by_cases going : step = .stop
        · subst going
          rw [stepEnds, List.mem_singleton] at reached
          rw [reached] at finished
          cases finished
        · rw [stepEnds_cons taken c rest step going] at reached
          obtain ⟨plan, taking, reached⟩ := List.mem_flatMap.mp reached
          rw [Option.mem_toList] at taking
          refine ⟨stop, ?_, finished⟩
          rw [List.flatMap_assoc]
          exact List.mem_flatMap.mpr
            ⟨plan, (mem_plansTaking c steps plan).mpr ⟨step, member, taking⟩, reached⟩
      · rintro ⟨stop, member, finished⟩
        rw [List.flatMap_assoc] at member
        obtain ⟨plan, member, reached⟩ := List.mem_flatMap.mp member
        obtain ⟨step, member, taking⟩ := (mem_plansTaking c steps plan).mp member
        refine ⟨stop, List.mem_flatMap.mpr ⟨step, member, ?_⟩, finished⟩
        have going : step ≠ .stop := by
          rintro rfl
          cases taking
        rw [stepEnds_cons taken c rest step going, taking]
        simpa using reached
    rw [onward, reachesEnd]
    split
    · next none_left => simp [none_left]
    · exact ih _ _

theorem accepts_iff (pattern : Pattern) (text : List Char) :
    pattern.accepts text = true ↔ ∃ stop ∈ pattern.ends (.start text), stop.rest = [] :=
  reachesEnd_iff [] text _

theorem stepEnds_text (taken rest : List Char) (step : Step) (stop : Cursor)
    (member : stop ∈ stepEnds taken rest step) : stop.text = taken.reverse ++ rest := by
  induction rest generalizing taken step with
  | nil =>
    by_cases going : step = .stop
    · subst going
      rw [stepEnds, List.mem_singleton] at member
      rw [member, Cursor.text]
    · simp [stepEnds_nil taken step going] at member
  | cons c rest ih =>
    by_cases going : step = .stop
    · subst going
      rw [stepEnds, List.mem_singleton] at member
      rw [member, Cursor.text]
    · rw [stepEnds_cons taken c rest step going] at member
      obtain ⟨plan, _, member⟩ := List.mem_flatMap.mp member
      obtain ⟨next, _, member⟩ := List.mem_flatMap.mp member
      simpa using ih (c :: taken) next member

/-- A match moves the place and leaves the text as it is. -/
theorem ends_text (pattern : Pattern) (here stop : Cursor) (member : stop ∈ pattern.ends here) :
    stop.text = here.text := by
  obtain ⟨step, _, member⟩ := List.mem_flatMap.mp member
  exact stepEnds_text here.taken here.rest step stop member

theorem firstEnd?_text {pattern : Pattern} {here stop : Cursor}
    (found : pattern.firstEnd? here = some stop) : stop.text = here.text := by
  rw [firstEnd?_eq] at found
  exact pattern.ends_text here stop (List.mem_of_head? found)

end Pattern

end Calculator
