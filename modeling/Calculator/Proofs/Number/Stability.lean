import Calculator.Failure
import Calculator.Proofs.Evaluation.Course
import Calculator.Proofs.Number.Conversion
import Mathlib.Data.List.Forall2

/-!
The types of bindings over whole runs of typed programs. A number that is bound has a fixed type,
unless it is an argument still in its place, and a name keeps the fixed type it has in a frame until
it is dropped there or made a function.
-/

namespace Calculator

open Relation (ReflTransGen)

/-! ## Free numbers -/

structure Settles (before after : Session Number) : Prop where
  enclosing : after.scopes.enclosing = before.scopes.enclosing
  number : ∀ name number, after.scopes.local? name = some (.number number) →
    number.fixed = true ∨ before.scopes.local? name = some (.number number)

instance : IsPreorder (Session Number) Settles where
  refl _ := ⟨rfl, fun _ _ bound => .inr bound⟩
  trans _ _ _ low high := by
    refine ⟨high.enclosing.trans low.enclosing, ?_⟩
    intro name number bound
    rcases high.number name number bound with fixed | earlier
    · exact .inl fixed
    · exact low.number name number earlier

theorem settles_of_scopes {before after : Session Number} (same : after.scopes = before.scopes) :
    Settles before after := by
  refine ⟨by rw [same], ?_⟩
  intro name number bound
  rw [same] at bound
  exact .inr bound

theorem OnlyPrints.settles {before after : Session Number} (prints : OnlyPrints before after) :
    Settles before after :=
  settles_of_scopes prints.scopes

theorem assign_settles (name : String) (declared : Option NumberType) (value : Number) (pos : Nat) :
    (assign name declared value pos).Keeps Settles := by
  intro before result after ends
  rw [run_assign] at ends
  split at ends
  · rename_i stored done
    cases ends
    refine ⟨rfl, ?_⟩
    intro other number bound
    rw [Scopes.local?_define] at bound
    split at bound
    · cases bound
      exact .inl (Number.fixed_of_store done)
    · exact .inr bound
  · cases ends
    exact refl_of Settles before

theorem allows_settles {call : Invoke Number}
    (calls : call.Keeps OnlyPrints) :
    Allows call Settles where
  exprs expr := Eval.keeps_mono (fun _ _ => OnlyPrints.settles) (expr.eval_keeps calls)
  assigns := assign_settles
  defines definition := by
    intro before result after ends
    rw [Eval.run_modifyScopes] at ends
    cases ends
    refine ⟨rfl, ?_⟩
    intro name number bound
    rw [Scopes.local?_define] at bound
    split at bound
    · cases bound
    · exact .inr bound
  clears := by
    intro before result after ends
    rw [Eval.run_modifyScopes] at ends
    cases ends
    refine ⟨rfl, ?_⟩
    intro name number bound
    cases bound
  emits value := Eval.keeps_mono (fun _ _ => OnlyPrints.settles) (emit_onlyPrints value)
  frames action kept := by
    intro before result after ends
    rcases Eval.run_inFrame_cases ends with ⟨later, inside, rfl⟩
    exact settles_of_scopes (Scopes.pop_of_enclosing (kept _ _ _ inside).enclosing)

theorem Statement.eval_settles (depth : Nat) (statement : Statement) :
    (statement.eval (invoke depth) : Eval Number _).Keeps Settles :=
  statement.eval_keeps (allows_settles (invoke_onlyPrints depth))

theorem evalStatements_settles (depth : Nat) (last : Option Number) (statements : List Statement) :
    (evalStatements (invoke depth) last statements).Keeps Settles :=
  evalStatements_keeps (allows_settles (invoke_onlyPrints depth)) last statements

theorem GoesOn.settles {point next : Point Number} (goes : GoesOn point next) :
    Settles point.2 next.2 := by
  cases goes with
  | links ends | thenTrue ends | elseTrue ends | elseFalse ends | nextLinks ends
    | nextArguments ends =>
    rcases ends with ⟨depth, ends⟩
    exact (Expr.value_onlyPrints depth _ _ _ _ ends).settles
  | nextStatements ends =>
    rcases ends with ⟨depth, ends⟩
    exact Statement.eval_settles depth _ _ _ _ ends
  | nextPrograms ends =>
    rcases ends with ⟨depth, ends⟩
    exact evalStatements_settles depth none _ _ _ _ ends
  | _ => exact refl_of Settles _

/-- Every free number of a frame is one of the arguments it was opened with, under the name of its
parameter. -/
def Frame.Settled (arguments : List (String × Number)) (frame : Frame Number) : Prop :=
  ∀ name number, frame.lookup name = some (.number number) →
    number.fixed = true ∨ (name, number) ∈ arguments

theorem local?_define_arguments (arguments : List (String × Number)) (scopes : Scopes Number)
    {name : String} {number : Number}
    (bound : (arguments.foldl (fun scopes (param, value) => scopes.define param (.number value))
      scopes).local? name = some (.number number)) :
    (name, number) ∈ arguments ∨ scopes.local? name = some (.number number) := by
  induction arguments generalizing scopes with
  | nil => exact .inr bound
  | cons argument arguments ih =>
    rcases ih _ bound with member | earlier
    · exact .inl (List.mem_cons_of_mem argument member)
    · rw [Scopes.local?_define] at earlier
      split at earlier
      · rename_i same
        cases earlier
        exact .inl (by simp [same])
      · exact .inr earlier

theorem Enters.settled {point next : Point Number} {arguments : List (String × Number)}
    (enters : Enters point arguments next) :
    next.2.scopes.enclosing = point.2.scopes.frames ∧
      Frame.Settled arguments next.2.scopes.innermost := by
  cases enters with
  | block statements pos session =>
    refine ⟨rfl, ?_⟩
    intro name number bound
    cases bound
  | call found counted ends bound =>
    rcases ends with ⟨depth, ends⟩
    have prints := evalArguments_onlyPrints depth _ _ _ _ ends
    have stays := bindParams_staysInFrame _ _ _ _ _ bound
    constructor
    · rw [stays.enclosing]
      show Scopes.frames _ = Scopes.frames _
      rw [prints.scopes]
    · rw [bindParams, Eval.run_modifyScopes] at bound
      cases bound
      intro name number bound
      rcases local?_define_arguments _ _ bound with member | earlier
      · exact .inr member
      · cases earlier

theorem Reached.settled {programs : List Program} {opened : List (List (String × Number))}
    {point : Point Number} (reached : Reached programs opened point) :
    List.Forall₂ Frame.Settled opened point.2.scopes.frames := by
  -- Going on, the innermost frame keeps its promise and the others stay. Entering, a frame is added
  -- whose free numbers are all arguments.
  induction reached with
  | start =>
    refine .cons ?_ .nil
    intro name number bound
    cases bound
  | @on opened point next _ goes ih =>
    have settles := goes.settles
    simp only [Scopes.frames, settles.enclosing] at ih ⊢
    cases ih with
    | cons innermost enclosing =>
      refine .cons ?_ enclosing
      intro name number bound
      rcases settles.number name number bound with fixed | earlier
      · exact .inl fixed
      · exact innermost name number earlier
  | @into opened point next arguments _ enters ih =>
    rcases enters.settled with ⟨around, inside⟩
    simp only [Scopes.frames] at around ih ⊢
    rw [around]
    exact .cons inside ih

/-- No number of the global frame is free, since that frame was opened without arguments. -/
theorem Reached.fixed_global {programs : List Program} {opened : List (List (String × Number))}
    {point : Point Number} (reached : Reached programs opened point) {frame : Frame Number}
    (outermost : point.2.scopes.frames.getLast? = some frame) {name : String} {number : Number}
    (bound : frame.lookup name = some (.number number)) : number.fixed = true := by
  have settled := reached.settled
  have bare := reached.opened
  clear reached
  generalize point.2.scopes.frames = frames at settled outermost
  induction settled with
  | nil => cases outermost
  | @cons arguments _ rest frames first others ih =>
    cases others with
    | nil =>
      cases bare
      cases outermost
      rcases first name number bound with fixed | member
      · exact fixed
      · cases member
    | cons second others => exact ih bare outermost

/-! ## Fixed types -/

/-- The name stands for a number of a fixed type in the innermost frame. -/
def Session.Fixes (session : Session Number) (name : String) (type : NumberType) : Prop :=
  ∃ number, session.scopes.local? name = some (.number number) ∧ number.fixed = true ∧
    number.type = type

def Statement.unbinds (name : String) : Statement → Bool
  | .define definition => definition.name == name
  | .reset _ => true
  | _ => false

/-- Such a statement is executed in the frame in the course of an activity. -/
def Unbinds (name : String) (point : Point Number) : Prop :=
  ∃ statement session, ReflTransGen GoesOn point (.statement statement, session) ∧
    statement.unbinds name = true

theorem Unbinds.of_goesOn {name : String} {point next : Point Number} (goes : GoesOn point next)
    (unbinds : Unbinds name next) : Unbinds name point := by
  rcases unbinds with ⟨statement, session, path, drops⟩
  exact ⟨statement, session, path.head goes, drops⟩

theorem Unbinds.of_statement {name : String} {statement : Statement}
    (drops : statement.unbinds name = true) (session : Session Number) :
    Unbinds name (.statement statement, session) :=
  ⟨statement, session, .refl, drops⟩

section Fixing

variable {name : String} {type : NumberType} {before after : Session Number}

theorem OnlyPrints.fixes (prints : OnlyPrints before after) (fixes : before.Fixes name type) :
    after.Fixes name type := by
  unfold Session.Fixes
  rw [prints.scopes]
  exact fixes

theorem assign_fixes {other : String} {declared : Option NumberType} {value : Number} {pos : Nat}
    {result : Except EvalError (Option Number)} (fixes : before.Fixes name type)
    (ends : (assign other declared value pos).run before = some (result, after)) :
    after.Fixes name type := by
  rw [run_assign] at ends
  split at ends
  · rename_i stored done
    cases ends
    rcases fixes with ⟨number, bound, fixed, rfl⟩
    by_cases same : name = other
    · subst same
      refine ⟨stored, ?_, Number.fixed_of_store done, ?_⟩
      · rw [Scopes.local?_define, if_pos rfl]
      · rw [bound] at done
        exact Number.type_of_store fixed done
    · refine ⟨number, ?_, fixed, rfl⟩
      rw [Scopes.local?_define, if_neg same]
      exact bound
  · cases ends
    exact fixes

theorem value_bind_fixes {α : Type} {depth : Nat} {expr : Expr} {next : Number → Eval Number α}
    {result : Except EvalError α} (fixes : before.Fixes name type)
    (ends : (expr.value (invoke depth) >>= next).run before = some (result, after)) :
    after.Fixes name type ∨ ∃ value later,
      (expr.value (invoke depth)).run before = some (.ok value, later) ∧
        later.Fixes name type ∧ (next value).run later = some (result, after) := by
  rcases Eval.run_bind_cases ends with ⟨value, later, started, ended⟩ | ⟨error, later, started, same⟩
  · have still := (expr.value_onlyPrints depth _ _ _ started).fixes fixes
    exact .inr ⟨value, later, started, still, ended⟩
  · cases same
    have prints := expr.value_onlyPrints depth _ _ _ started
    exact .inl (prints.fixes fixes)

theorem Statement.eval_fixes (depth : Nat) (statement : Statement) {before after : Session Number}
    {result : Except EvalError (Option Number)} (fixes : before.Fixes name type)
    (ends : (statement.eval (invoke depth)).run before = some (result, after)) :
    after.Fixes name type ∨ Unbinds name (.statement statement, before) := by
  cases statement with
  | assign other declared value pos =>
    simp only [Statement.eval] at ends
    rcases value_bind_fixes fixes ends with kept | ⟨number, later, _, still, ended⟩
    · exact .inl kept
    · exact .inl (assign_fixes still ended)
  | define definition =>
    by_cases same : definition.name = name
    · exact .inr (.of_statement (by simp [Statement.unbinds, same]) before)
    · simp only [Statement.eval] at ends
      cases ends
      rcases fixes with ⟨number, bound, fixed, typed⟩
      refine .inl ⟨number, ?_, fixed, typed⟩
      simp only
      rw [Scopes.local?_define, if_neg (Ne.symm same)]
      exact bound
  | block body =>
    simp only [Statement.eval] at ends
    have prints := body.eval_onlyPrints depth _ _ _ ends
    exact .inl (prints.fixes fixes)
  | ifThen condition consequence pos =>
    simp only [Statement.eval] at ends
    rcases value_bind_fixes fixes ends with kept | ⟨value, later, started, still, ended⟩
    · exact .inl kept
    · split at ended
      · rename_i truth
        rcases consequence.eval_fixes depth still ended with kept | unbinds
        · exact .inl kept
        · exact .inr (unbinds.of_goesOn (.thenTrue ⟨depth, started⟩ truth))
      · cases ended
        exact .inl still
  | ifElse condition consequence alternative pos =>
    simp only [Statement.eval] at ends
    rcases value_bind_fixes fixes ends with kept | ⟨value, later, started, still, ended⟩
    · exact .inl kept
    · split at ended
      · rename_i truth
        rcases consequence.eval_fixes depth still ended with kept | unbinds
        · exact .inl kept
        · exact .inr (unbinds.of_goesOn (.elseTrue ⟨depth, started⟩ truth))
      · rename_i otherwise
        have falsehood := Bool.eq_false_iff.mpr otherwise
        rcases alternative.eval_fixes depth still ended with kept | unbinds
        · exact .inl kept
        · exact .inr (unbinds.of_goesOn (.elseFalse ⟨depth, started⟩ falsehood))
  | print expr pos =>
    simp only [Statement.eval] at ends
    rcases value_bind_fixes fixes ends with kept | ⟨value, later, _, still, ended⟩
    · exact .inl kept
    · cases ended
      exact .inl still
  | reset pos => exact .inr (.of_statement rfl before)
  | expression expr =>
    simp only [Statement.eval] at ends
    have prints := expr.eval_onlyPrints depth _ _ _ ends
    exact .inl (prints.fixes fixes)

theorem evalStatements_fixes (depth : Nat) (last : Option Number) (statements : List Statement)
    {result : Except EvalError (Option Number)} (fixes : before.Fixes name type)
    (ends : (evalStatements (invoke depth) last statements).run before = some (result, after)) :
    after.Fixes name type ∨ Unbinds name (.statements statements, before) := by
  induction statements generalizing last before with
  | nil =>
    simp only [evalStatements] at ends
    cases ends
    exact .inl fixes
  | cons statement statements ih =>
    simp only [evalStatements] at ends
    rcases Eval.run_bind_cases ends with ⟨value, later, started, ended⟩ | ⟨_, _, started, same⟩
    · rcases statement.eval_fixes depth fixes started with still | unbinds
      · rcases ih value still ended with kept | unbinds
        · exact .inl kept
        · exact .inr (unbinds.of_goesOn (.nextStatements ⟨depth, started⟩))
      · exact .inr (unbinds.of_goesOn (.statement statement statements before))
    · cases same
      rcases statement.eval_fixes depth fixes started with kept | unbinds
      · exact .inl kept
      · exact .inr (unbinds.of_goesOn (.statement statement statements before))

theorem Runs.fixes {programs : List Program}
    {outcomes : List (Except EvalError (Option Number) × Session Number)}
    (runs : Runs before programs outcomes) (fixes : before.Fixes name type) :
    ((outcomes.map Prod.snd).getLastD before).Fixes name type ∨
      Unbinds name (.programs programs, before) := by
  induction runs with
  | nil session => exact .inl fixes
  | @cons before after program result programs outcomes first rest ih =>
    rcases first with ⟨depth, ends⟩
    rcases evalStatements_fixes depth none program fixes ends with still | unbinds
    · rcases ih still with kept | unbinds
      · simp only [List.map_cons, List.getLastD_cons]
        exact .inl kept
      · exact .inr (unbinds.of_goesOn (.nextPrograms ⟨depth, ends⟩))
    · exact .inr (unbinds.of_goesOn (.program program programs before))

/-- Whatever goes on in a frame leaves a fixed type as it is or executes a statement there that
unbinds the name. -/
theorem Leaves.fixes {activity : Activity Number} (leaves : Leaves activity before after)
    (fixes : before.Fixes name type) :
    after.Fixes name type ∨ Unbinds name (activity, before) := by
  cases activity with
  | expr expr =>
    rcases leaves with ⟨result, depth, ends⟩
    have prints := expr.eval_onlyPrints depth _ _ _ ends
    exact .inl (prints.fixes fixes)
  | links value links =>
    rcases leaves with ⟨result, depth, ends⟩
    have prints := evalLinks_onlyPrints depth value links _ _ _ ends
    exact .inl (prints.fixes fixes)
  | arguments arguments =>
    rcases leaves with ⟨result, depth, ends⟩
    have prints := evalArguments_onlyPrints depth arguments _ _ _ ends
    exact .inl (prints.fixes fixes)
  | statement statement =>
    rcases leaves with ⟨result, depth, ends⟩
    exact statement.eval_fixes depth fixes ends
  | statements statements =>
    rcases leaves with ⟨last, result, depth, ends⟩
    exact evalStatements_fixes depth last statements fixes ends
  | programs programs =>
    rcases leaves with ⟨outcomes, runs, rfl⟩
    exact runs.fixes fixes

end Fixing

/-! ## Assignments -/

theorem assignment_fixed {name : String} {declared : Option NumberType} {value : Expr} {pos : Nat}
    {before after : Session Number} {result : Option Number}
    (ends : Eval.Ends ((Statement.assign name declared value pos).eval ·) before (.ok result) after) :
    ∃ number, result = some number ∧ number.fixed = true ∧
      after.scopes.local? name = some (.number number) := by
  rcases ends with ⟨depth, ends⟩
  simp only [Statement.eval] at ends
  rcases Eval.run_bind_cases ends with ⟨number, later, _, ended⟩ | ⟨_, _, _, same⟩
  · rw [run_assign] at ended
    split at ended
    · rename_i stored done
      cases ended
      refine ⟨stored, rfl, Number.fixed_of_store done, ?_⟩
      rw [Scopes.local?_define, if_pos rfl]
    · cases ended
  · cases same

theorem assignment_refused {name : String} {declared : Option NumberType} {value : Expr} {pos : Nat}
    {before later : Session Number} {previous number : Number}
    (bound : before.scopes.local? name = some (.number previous)) (held : previous.fixed = true)
    (ends : Eval.Ends (value.value ·) before (.ok number) later)
    (conflicts : number.Conflicts declared previous.type) :
    later.scopes = before.scopes ∧ ∃ fault, fault.kind = .type ∧
      Eval.Ends ((Statement.assign name declared value pos).eval ·) before (.error ⟨fault, pos⟩)
        later := by
  rcases ends with ⟨depth, ends⟩
  have still := (value.value_onlyPrints depth _ _ _ ends).scopes
  have same : (later.scopes.local? name).bind Binding.number? = some previous := by
    rw [still, bound]
    rfl
  have refused : ∀ fault, Number.store name declared (some previous) number = .error fault →
      Eval.Ends ((Statement.assign name declared value pos).eval ·) before (.error ⟨fault, pos⟩)
        later := by
    intro fault done
    refine ⟨depth, ?_⟩
    simp only [Statement.eval]
    rw [Eval.run_bind_ok ends, run_assign, same]
    simp only [Arithmetic.store, done]
  refine ⟨still, ?_⟩
  rcases Number.store_of_conflicts name held conflicts with ⟨target, done⟩ | done
  · exact ⟨_, rfl, refused _ done⟩
  · exact ⟨_, rfl, refused _ done⟩

/-- In every session that a run reaches, the numbers of the global frame are fixed, and the free
numbers of the other frames are arguments in their places. An assignment stores a fixed number. The
type that a name is fixed to stays as long as no statement in the same frame unbinds the name, and an
assignment that would change it fails. -/
theorem types_stable :
    (∀ programs opened (point : Point Number), Reached programs opened point →
      List.Forall₂ Frame.Settled opened point.2.scopes.frames ∧
        ∀ frame, point.2.scopes.frames.getLast? = some frame → ∀ name number,
          frame.lookup name = some (.number number) → number.fixed = true) ∧
    (∀ name declared (value : Expr) pos (before after : Session Number) result,
      Eval.Ends ((Statement.assign name declared value pos).eval ·) before (.ok result) after →
        ∃ number, result = some number ∧ number.fixed = true ∧
          after.scopes.local? name = some (.number number)) ∧
    (∀ name type activity (before after : Session Number), before.Fixes name type →
      Leaves activity before after → after.Fixes name type ∨ Unbinds name (activity, before)) ∧
    ∀ name declared (value : Expr) pos (before later : Session Number) previous number,
      before.scopes.local? name = some (.number previous) → previous.fixed = true →
        Eval.Ends (value.value ·) before (.ok number) later →
          number.Conflicts declared previous.type →
            later.scopes = before.scopes ∧ ∃ fault, fault.kind = .type ∧
              Eval.Ends ((Statement.assign name declared value pos).eval ·) before
                (.error ⟨fault, pos⟩) later := by
  refine ⟨?_, ?_, ?_, ?_⟩
  · intro programs opened point reached
    refine ⟨reached.settled, ?_⟩
    intro frame outermost name number bound
    exact reached.fixed_global outermost bound
  · intro name declared value pos before after result ends
    exact assignment_fixed ends
  · intro name type activity before after fixes leaves
    exact leaves.fixes fixes
  · intro name declared value pos before later previous number bound held ends conflicts
    exact assignment_refused bound held ends conflicts

def echo : Definition := ⟨"echo", ["a"], ⟨[.expression (.name "a" 0)], 0⟩, 0⟩

def literalOne : Expr := .number (.int 1) false 0

def bindX (value : Expr) : Statement := .assign "x" none value 0

def shadowing (x : Float) : Statement :=
  .block ⟨[bindX (.number (.float x) false 0), .expression (.call "echo" [literalOne] 0)], 0⟩

def shadowingProgram (x : Float) : Program := [.define echo, bindX literalOne, shadowing x]

def echoSession (innermost : Frame Number) : Session Number :=
  ⟨⟨innermost ++ [("echo", .function echo)], []⟩, #[]⟩

def shadowed : Session Number := echoSession [("x", .number ⟨.int 1, true⟩)]

def calling (x : Float) : Session Number :=
  ⟨⟨[("x", .number ⟨.float x, true⟩)], shadowed.scopes.frames⟩, #[]⟩

def echoing (x : Float) : Session Number :=
  ⟨⟨[("a", .number ⟨.int 1, false⟩)], (calling x).scopes.frames⟩, #[]⟩

theorem bindX_ends :
    Eval.Ends ((bindX literalOne).eval ·) (echoSession []) (.ok (some ⟨.int 1, true⟩)) shadowed :=
  ⟨0, rfl⟩

theorem shadowing_ends (x : Float) :
    Eval.Ends ((shadowing x).eval ·) shadowed (.ok (some ⟨.int 1, false⟩)) shadowed :=
  ⟨1, rfl⟩

theorem echo_reached (x : Float) :
    Reached [shadowingProgram x] [[("a", ⟨.int 1, false⟩)], [], []]
      (.statements echo.body.statements, echoing x) := by
  have defined : Eval.Ends ((Statement.define echo).eval ·) .start (.ok none) (echoSession []) :=
    ⟨0, rfl⟩
  have inside : Eval.Ends ((bindX (.number (.float x) false 0)).eval ·)
      { shadowed with scopes := shadowed.scopes.push } (.ok (some ⟨.float x, true⟩)) (calling x) :=
    ⟨0, rfl⟩
  have argument : Eval.Ends (evalArguments · [literalOne]) (calling x) (.ok [⟨.int 1, false⟩])
      (calling x) := ⟨0, rfl⟩
  have found : (calling x).scopes.find? "echo" = some (.function echo) := rfl
  have block : Reached [shadowingProgram x] [[]] (.statement (shadowing x), shadowed) :=
    (((Reached.start.on (.program _ _ _)).on (.nextStatements defined)).on
      (.nextStatements bindX_ends)).on (.statement _ _ _)
  have call : Reached [shadowingProgram x] [[], []]
      (.expr (.call "echo" [literalOne] 0), calling x) :=
    (((block.into (.block _ _ _)).on (.nextStatements inside)).on (.statement _ _ _)).on
      (.expression _ _)
  exact call.into (.call found rfl argument rfl)

theorem shadowing_types_stable :
    (Reached [shadowingProgram 0.5] [[("a", ⟨.int 1, false⟩)], [], []]
        (.statements echo.body.statements, echoing 0.5) ∧
      List.Forall₂ Frame.Settled [[("a", ⟨.int 1, false⟩)], [], []] (echoing 0.5).scopes.frames ∧
      ∀ name number, shadowed.scopes.innermost.lookup name = some (.number number) →
        number.fixed = true) ∧
    (Eval.Ends ((bindX literalOne).eval ·) (echoSession []) (.ok (some ⟨.int 1, true⟩)) shadowed ∧
      ∃ number, some ⟨.int 1, true⟩ = some number ∧ number.fixed = true ∧
        shadowed.scopes.local? "x" = some (.number number)) ∧
    (Eval.Ends ((shadowing 0.5).eval ·) shadowed (.ok (some ⟨.int 1, false⟩)) shadowed ∧
      (shadowed.Fixes "x" .int ∨ Unbinds "x" (.statement (shadowing 0.5), shadowed))) ∧
    ∃ fault, fault.kind = .type ∧
      Eval.Ends ((bindX (.number (.float 0.5) false 0)).eval ·) shadowed (.error ⟨fault, 0⟩)
        shadowed := by
  have fixes : shadowed.Fixes "x" .int := ⟨⟨.int 1, true⟩, rfl, rfl, rfl⟩
  have half : Eval.Ends ((Expr.number (.float 0.5) false 0).value ·) shadowed
      (.ok ⟨.float 0.5, false⟩) shadowed := ⟨0, rfl⟩
  have conflicts : Number.Conflicts none .int ⟨.float 0.5, false⟩ :=
    .inr ⟨by decide, .inr rfl⟩
  rcases types_stable with ⟨settled, stored, stays, refused⟩
  refine ⟨⟨echo_reached 0.5, ?_, ?_⟩, ⟨bindX_ends, ?_⟩, ⟨shadowing_ends 0.5, ?_⟩, ?_⟩
  · exact (settled _ _ _ (echo_reached 0.5)).1
  · exact (settled _ _ _ (echo_reached 0.5)).2 _ rfl
  · exact stored _ _ _ _ _ _ _ bindX_ends
  · exact stays _ _ _ _ _ fixes ⟨_, shadowing_ends 0.5⟩
  · exact (refused _ _ _ _ _ _ ⟨.int 1, true⟩ _ rfl rfl half conflicts).2

end Calculator
