import Calculator.Evaluation
import Calculator.Proofs.Syntax.FreeNames
import Mathlib.Data.List.Forall2

/-!
What a function sees of its callers. While a body runs, the frames of all callers stay below its own,
and a name that its own frames do not bind is looked up there. Two runs of a body with different
callers go the same way if the names that it leaves free stand for the same with both.
-/

namespace Calculator

variable {V α β : Type}

def framesFind? (frames : List (Frame V)) (name : String) : Option (Binding V) :=
  frames.findSome? fun frame => frame.lookup name

section Frames

variable {frame : Frame V} {frames rest front back : List (Frame V)} {name other : String}
  {needed : String → Prop}

theorem Scopes.find?_frames (scopes : Scopes V) (name : String) :
    scopes.find? name = framesFind? scopes.frames name := rfl

theorem framesFind?_append :
    framesFind? (front ++ back) name = (framesFind? front name).or (framesFind? back name) :=
  List.findSome?_append

theorem framesFind?_cons :
    framesFind? (frame :: frames) name = (frame.lookup name).or (framesFind? frames name) := by
  rw [framesFind?, List.findSome?_cons]
  cases frame.lookup name <;> rfl

theorem isSome_framesFind?_insert {binding : Binding V}
    (bound : (framesFind? (frame :: rest) other).isSome) :
    (framesFind? (frame.insert name binding :: rest) other).isSome := by
  rw [framesFind?_cons] at bound ⊢
  rw [Frame.lookup_insert]
  split
  · rfl
  · exact bound

/-- Each of some names is bound by the frames of a function itself, or is one of those that are
needed from its callers. -/
def Covers (needed : String → Prop) (own : List (Frame V)) (names : List String) : Prop :=
  ∀ name ∈ names, needed name ∨ (framesFind? own name).isSome

theorem Covers.mono {own own' : List (Frame V)} {names : List String}
    (covers : Covers needed own names)
    (kept : ∀ name, (framesFind? own name).isSome → (framesFind? own' name).isSome) :
    Covers needed own' names := fun name member => (covers name member).imp_right (kept name)

theorem covers_append {own : List (Frame V)} {names more : List String} :
    Covers needed own (names ++ more) ↔ Covers needed own names ∧ Covers needed own more :=
  List.forall_mem_append

theorem covers_of_unbound {names bound : List String}
    (certain : ∀ name ∈ bound, (frame.lookup name).isSome)
    (covers : Covers needed rest (unbound names bound)) : Covers needed (frame :: rest) names := by
  intro name member
  rcases mem_bound_or_unbound bound member with known | remains
  · right
    rw [framesFind?_cons, Option.isSome_or, certain name known, Bool.true_or]
  · refine (covers name remains).imp_right fun found => ?_
    rw [framesFind?_cons, Option.isSome_or, found, Bool.or_true]

/-- Every function that is bound in some frames finds its free names from there outwards, or needs
them from the callers. -/
def Settled (needed : String → Prop) : List (Frame V) → Prop
  | [] => True
  | frame :: frames =>
      (∀ name definition, frame.lookup name = some (.function definition) →
        Covers needed (frame :: frames) definition.free) ∧ Settled needed frames

theorem settled_nil_cons (settled : Settled needed rest) : Settled needed ([] :: rest) :=
  ⟨fun _ _ found => absurd found (by simp), settled⟩

theorem Settled.covers {definition : Definition} (settled : Settled needed frames)
    (found : framesFind? frames name = some (.function definition)) :
    Covers needed frames definition.free := by
  induction frames with
  | nil => cases found
  | cons frame frames ih =>
    rw [framesFind?_cons] at found
    rcases Option.or_eq_some_iff.mp found with here | ⟨_, further⟩
    · exact settled.1 name definition here
    · refine (ih settled.2 further).mono fun other bound => ?_
      rw [framesFind?_cons, Option.isSome_or, bound, Bool.or_true]

theorem Settled.insert {binding : Binding V} (settled : Settled needed (frame :: rest))
    (covers : ∀ definition, binding = .function definition →
      Covers needed (frame.insert name binding :: rest) definition.free) :
    Settled needed (frame.insert name binding :: rest) := by
  refine ⟨?_, settled.2⟩
  intro other definition found
  rw [Frame.lookup_insert] at found
  split at found
  · exact covers definition (Option.some.inj found)
  · exact (settled.1 other definition found).mono fun _ => isSome_framesFind?_insert

end Frames

/-- Two stacks of frames that callers may leave behind, and what may have been printed until then.
The names that are needed stand for the same on both, and where one stands for a function, the names
that are free in it are needed too. -/
structure Callers (V : Type) where
  needed : String → Prop
  frames : List (Frame V)
  frames' : List (Frame V)
  printed : Array V
  printed' : Array V
  same : ∀ name, needed name → framesFind? frames name = framesFind? frames' name
  closed : ∀ name definition, needed name → framesFind? frames name = some (.function definition) →
    ∀ free ∈ definition.free, needed free

structure Callers.Above (callers : Callers V) (own : List (Frame V)) (session session' : Session V) :
    Prop where
  frames : session.scopes.frames = own ++ callers.frames
  frames' : session'.scopes.frames = own ++ callers.frames'
  printed : ∃ more, session.printed = callers.printed ++ more ∧
    session'.printed = callers.printed' ++ more

/-- Between statements only the frames around the innermost one are known, and of that frame some
names that are certain to be bound in it. -/
def Callers.Inside (callers : Callers V) (bound : List String) (rest : List (Frame V))
    (session session' : Session V) : Prop :=
  ∃ frame, callers.Above (frame :: rest) session session' ∧
    Settled callers.needed (frame :: rest) ∧ ∀ name ∈ bound, (frame.lookup name).isSome

section Callers

variable {callers : Callers V} {own rest : List (Frame V)} {session session' : Session V}
  {name : String} {bound bound' : List String}

theorem Callers.Above.find? (above : callers.Above own session session')
    (covered : callers.needed name ∨ (framesFind? own name).isSome) :
    session.scopes.find? name = session'.scopes.find? name := by
  rw [Scopes.find?_frames, Scopes.find?_frames, above.frames, above.frames', framesFind?_append,
    framesFind?_append]
  rcases covered with needs | found
  · rw [callers.same name needs]
  · rw [Option.or_of_isSome found, Option.or_of_isSome found]

theorem Callers.Above.covers {definition : Definition} (above : callers.Above own session session')
    (settled : Settled callers.needed own)
    (covered : callers.needed name ∨ (framesFind? own name).isSome)
    (found : session.scopes.find? name = some (.function definition)) :
    Covers callers.needed own definition.free := by
  rw [Scopes.find?_frames, above.frames, framesFind?_append] at found
  rcases Option.or_eq_some_iff.mp found with inner | ⟨absent, outer⟩
  · exact settled.covers inner
  · have needs := covered.resolve_right (by simp [absent])
    exact fun free member => .inl (callers.closed name definition needs outer free member)

theorem Callers.Inside.mono (inside : callers.Inside bound rest session session')
    (fewer : ∀ name ∈ bound', name ∈ bound) : callers.Inside bound' rest session session' := by
  rcases inside with ⟨frame, above, settled, certain⟩
  exact ⟨frame, above, settled, fun name member => certain name (fewer name member)⟩

theorem Callers.Inside.define (inside : callers.Inside bound rest session session')
    (name : String) (binding : Binding V)
    (covers : ∀ definition, binding = .function definition →
      Covers callers.needed rest (unbound definition.free (name :: bound))) :
    callers.Inside (name :: bound) rest
      { session with scopes := session.scopes.define name binding }
      { session' with scopes := session'.scopes.define name binding } := by
  rcases inside with ⟨frame, above, settled, certain⟩
  have certain' : ∀ other ∈ name :: bound, ((frame.insert name binding).lookup other).isSome := by
    intro other member
    rw [Frame.lookup_insert]
    split
    · rfl
    · rename_i different
      exact certain other ((List.mem_cons.mp member).resolve_left different)
  rcases List.cons.inj above.frames with ⟨innermost, enclosing⟩
  rcases List.cons.inj above.frames' with ⟨innermost', enclosing'⟩
  refine ⟨frame.insert name binding, ⟨?_, ?_, above.printed⟩, ?_, certain'⟩
  · rw [Scopes.frames, Scopes.define, innermost, enclosing]
    rfl
  · rw [Scopes.frames, Scopes.define, innermost', enclosing']
    rfl
  · exact settled.insert fun definition same => covers_of_unbound certain' (covers definition same)

theorem Callers.Inside.clear (inside : callers.Inside bound rest session session') :
    callers.Inside [] rest { session with scopes := session.scopes.clear }
      { session' with scopes := session'.scopes.clear } := by
  rcases inside with ⟨frame, above, settled, _⟩
  rcases List.cons.inj above.frames with ⟨_, enclosing⟩
  rcases List.cons.inj above.frames' with ⟨_, enclosing'⟩
  refine ⟨[], ⟨?_, ?_, above.printed⟩, settled_nil_cons settled.2, by simp⟩
  · rw [Scopes.frames, Scopes.clear, enclosing]
    rfl
  · rw [Scopes.frames, Scopes.clear, enclosing']
    rfl

theorem Callers.Above.push (above : callers.Above own session session')
    (settled : Settled callers.needed own) :
    callers.Inside [] own { session with scopes := session.scopes.push }
      { session' with scopes := session'.scopes.push } :=
  ⟨[], ⟨congrArg (List.cons []) above.frames, congrArg (List.cons []) above.frames', above.printed⟩,
    settled_nil_cons settled, by simp⟩

/-- The callers have at least their global frame, so a frame on top can be left. -/
theorem Scopes.frames_pop {scopes : Scopes V} {frame : Frame V} {frames : List (Frame V)}
    (stack : scopes.frames = frame :: frames) (nonempty : frames ≠ []) :
    scopes.pop.frames = frames := by
  rcases scopes with ⟨innermost, enclosing⟩
  rcases List.cons.inj stack with ⟨rfl, rfl⟩
  cases enclosing with
  | nil => exact absurd rfl nonempty
  | cons frame frames => rfl

theorem Callers.Inside.pop (inside : callers.Inside bound own session session')
    (nonempty : own ++ callers.frames ≠ []) (nonempty' : own ++ callers.frames' ≠ []) :
    callers.Above own { session with scopes := session.scopes.pop }
      { session' with scopes := session'.scopes.pop } := by
  rcases inside with ⟨frame, above, _, _⟩
  exact ⟨Scopes.frames_pop above.frames nonempty, Scopes.frames_pop above.frames' nonempty',
    above.printed⟩

theorem Callers.Above.emit (above : callers.Above own session session') (value : V) :
    callers.Above own { session with printed := session.printed.push value }
      { session' with printed := session'.printed.push value } := by
  rcases above with ⟨frames, frames', more, printed, printed'⟩
  refine ⟨frames, frames', more.push value, ?_, ?_⟩
  · rw [printed, Array.push_append]
  · rw [printed', Array.push_append]

end Callers

inductive SameResult (after failed : Session V → Session V → Prop) :
    Except EvalError α × Session V → Except EvalError α × Session V → Prop
  | ok (value : α) {session session' : Session V} (reached : after session session') :
      SameResult after failed (.ok value, session) (.ok value, session')
  | error (error : EvalError) {session session' : Session V} (reached : failed session session') :
      SameResult after failed (.error error, session) (.error error, session')

namespace Eval

def Repeats (before after failed : Session V → Session V → Prop) (action : Eval V α) : Prop :=
  ∀ session session', before session session' →
    Option.Rel (SameResult after failed) (action.run session) (action.run session')

variable {before between after failed : Session V → Session V → Prop} {action : Eval V α}

theorem repeats_pure (value : α) : Repeats before before failed (pure value : Eval V α) :=
  fun _ _ related => .some (.ok value related)

theorem Repeats.mono {later : Session V → Session V → Prop}
    (same : Repeats before after failed action)
    (weaker : ∀ session session', after session session' → later session session') :
    Repeats before later failed action := by
  intro session session' related
  have reached := same session session' related
  generalize action.run session = outcome at reached ⊢
  generalize action.run session' = outcome' at reached ⊢
  cases reached with
  | none => exact .none
  | some reached =>
    cases reached with
    | ok value still => exact .some (.ok value (weaker _ _ still))
    | error error still => exact .some (.error error still)

theorem repeats_fail (fault : Fault) (pos : Nat)
    (weaker : ∀ session session', before session session' → failed session session') :
    Repeats before after failed (fail fault pos : Eval V α) :=
  fun _ _ related => .some (.error _ (weaker _ _ related))

theorem repeats_ofExcept (pos : Nat) (operation : Except Fault α)
    (weaker : ∀ session session', before session session' → failed session session') :
    Repeats before before failed (ofExcept pos operation : Eval V α) := by
  cases operation with
  | ok value => exact repeats_pure value
  | error fault => exact repeats_fail fault pos weaker

theorem repeats_bind {next : α → Eval V β} (first : Repeats before between failed action)
    (rest : ∀ value, (∃ session session' later, before session session' ∧
        action.run session = some (.ok value, later)) →
      Repeats between after failed (next value)) :
    Repeats before after failed (action >>= next) := by
  intro session session' related
  rw [run_bind, run_bind]
  have begun := first session session' related
  cases started : action.run session with
  | none =>
    rw [started] at begun
    generalize action.run session' = reached' at begun ⊢
    cases begun
    exact .none
  | some reached =>
    rw [started] at begun
    generalize action.run session' = reached' at begun ⊢
    cases begun with
    | some same =>
      cases same with
      | ok value still => exact rest value ⟨_, _, _, related, started⟩ _ _ still
      | error error still => exact .some (.error error still)

theorem repeats_require {action : Eval V (Option α)} (pos : Nat)
    (first : Repeats before after failed action)
    (weaker : ∀ session session', after session session' → failed session session') :
    Repeats before after failed (require pos action) := by
  refine repeats_bind first fun value _ => ?_
  cases value with
  | none => exact repeats_fail _ pos weaker
  | some value => exact repeats_pure value

theorem repeats_modifyScopes {change : Scopes V → Scopes V}
    (changes : ∀ session session', before session session' →
      after { session with scopes := change session.scopes }
        { session' with scopes := change session'.scopes }) :
    Repeats before after failed (modifyScopes change) :=
  fun _ _ related => .some (.ok () (changes _ _ related))

end Eval

end Calculator
