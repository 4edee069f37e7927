import Calculator.Proofs.Evaluation.Agreement
import Calculator.Proofs.Evaluation.Depth
import Calculator.Proofs.Number.Payloads

/-!
Two runs side by side, on numbers that may differ in their payloads. As long as no test looks at a
payload they take the same course: they succeed or fail together, unless a payload leads one of them
to an arithmetic fault.
-/

namespace Calculator

open Number (SameKind)

variable {α β γ δ : Type}

def Likeness.kinds : Likeness Number Number := ⟨SameKind, Eq⟩

/-- Frames that bind the same names, to numbers of the same kind or to the same functions. -/
def Frame.SameShape (frame frame' : Frame Number) : Prop :=
  ∀ name, Option.Rel (Binding.Alike .kinds) (frame.lookup name) (frame'.lookup name)

structure Scopes.SameShape (scopes scopes' : Scopes Number) : Prop where
  innermost : scopes.innermost.SameShape scopes'.innermost
  enclosing : List.Forall₂ Frame.SameShape scopes.enclosing scopes'.enclosing

/-- Sessions of the same shape. Behind what had been printed at first, both have printed numbers of
the same kinds. -/
structure Session.InStep (first first' : Array Number) (session session' : Session Number) :
    Prop where
  scopes : session.scopes.SameShape session'.scopes
  printed : ∃ more more', session.printed = first ++ more ∧ session'.printed = first' ++ more' ∧
    List.Forall₂ SameKind more.toList more'.toList

section Scopes

variable {frame frame' : Frame Number} {scopes scopes' : Scopes Number}

theorem Frame.sameShape_nil : Frame.SameShape [] [] := fun _ => .none

theorem Frame.SameShape.insert (same : frame.SameShape frame') (name : String)
    {binding binding' : Binding Number} (bound : Binding.Alike .kinds binding binding') :
    (frame.insert name binding).SameShape (frame'.insert name binding') := by
  intro other
  rw [Frame.lookup_insert, Frame.lookup_insert]
  split
  · exact .some bound
  · exact same other

namespace Scopes.SameShape

theorem push (same : scopes.SameShape scopes') : scopes.push.SameShape scopes'.push :=
  ⟨Frame.sameShape_nil, .cons same.innermost same.enclosing⟩

theorem pop (same : scopes.SameShape scopes') : scopes.pop.SameShape scopes'.pop := by
  rcases scopes with ⟨innermost, enclosing⟩
  rcases scopes' with ⟨innermost', enclosing'⟩
  rcases same with ⟨inner, outer⟩
  cases outer with
  | nil => exact ⟨inner, .nil⟩
  | cons frame frames => exact ⟨frame, frames⟩

theorem define (same : scopes.SameShape scopes') (name : String) {binding binding' : Binding Number}
    (bound : Binding.Alike .kinds binding binding') :
    (scopes.define name binding).SameShape (scopes'.define name binding') :=
  ⟨same.innermost.insert name bound, same.enclosing⟩

theorem clear (same : scopes.SameShape scopes') : scopes.clear.SameShape scopes'.clear :=
  ⟨Frame.sameShape_nil, same.enclosing⟩

theorem find? (same : scopes.SameShape scopes') (name : String) :
    Option.Rel (Binding.Alike .kinds) (scopes.find? name) (scopes'.find? name) :=
  findSome?_lookup_rel (.cons (same.innermost name) (same.enclosing.imp fun _ _ frame => frame name))

theorem previous (same : scopes.SameShape scopes') (name : String) :
    Option.Rel SameKind ((scopes.local? name).bind Binding.number?)
      ((scopes'.local? name).bind Binding.number?) := by
  have found := same.innermost name
  rw [Scopes.local?, Scopes.local?]
  generalize List.lookup name scopes.innermost = binding at found ⊢
  generalize List.lookup name scopes'.innermost = binding' at found ⊢
  cases found with
  | none => exact .none
  | some bound =>
    cases bound with
    | number kind => exact .some kind
    | function same => exact .none

end Scopes.SameShape

end Scopes

/-- Two runs that both go on without end, that end with corresponding results in sessions in step,
or of which one ends with an arithmetic fault. -/
inductive SameCourse (first first' : Array Number) (value : α → β → Prop) :
    Option (Except EvalError α × Session Number) → Option (Except EvalError β × Session Number) →
      Prop
  | exhausted : SameCourse first first' value none none
  | ok {x : α} {y : β} {session session' : Session Number} (same : value x y)
      (still : Session.InStep first first' session session') :
      SameCourse first first' value (some (.ok x, session)) (some (.ok y, session'))
  | error (error : EvalError) {session session' : Session Number}
      (still : Session.InStep first first' session session') :
      SameCourse first first' value (some (.error error, session)) (some (.error error, session'))
  | left {error : EvalError} {session : Session Number}
      {other : Option (Except EvalError β × Session Number)}
      (arithmetic : error.fault.kind = .arithmetic) :
      SameCourse first first' value (some (.error error, session)) other
  | right {error : EvalError} {session : Session Number}
      {other : Option (Except EvalError α × Session Number)}
      (arithmetic : error.fault.kind = .arithmetic) :
      SameCourse first first' value other (some (.error error, session))

namespace Eval

variable {first first' : Array Number} {value : α → β → Prop} {result : γ → δ → Prop}
  {action : Eval Number α} {action' : Eval Number β}

def Parallel (first first' : Array Number) (value : α → β → Prop) (action : Eval Number α)
    (action' : Eval Number β) : Prop :=
  ∀ session session', Session.InStep first first' session session' →
    SameCourse first first' value (action.run session) (action'.run session')

theorem parallel_pure {x : α} {y : β} (same : value x y) :
    Parallel first first' value (pure x) (pure y) :=
  fun _ _ inStep => .ok same inStep

theorem parallel_fail (fault : Fault) (pos : Nat) :
    Parallel first first' value (fail fault pos) (fail fault pos) :=
  fun _ _ inStep => .error _ inStep

theorem parallel_ofExcept (pos : Nat) {operation : Except Fault α} {operation' : Except Fault β}
    (same : Except.Parallel value operation operation') :
    Parallel first first' value (ofExcept pos operation) (ofExcept pos operation') := by
  cases same with
  | ok same => exact parallel_pure same
  | error fault => exact parallel_fail fault pos
  | left arithmetic => exact fun _ _ _ => .left arithmetic
  | right arithmetic => exact fun _ _ _ => .right arithmetic

theorem parallel_bind {next : α → Eval Number γ} {next' : β → Eval Number δ}
    (begun : Parallel first first' value action action')
    (rest : ∀ x y, value x y → Parallel first first' result (next x) (next' y)) :
    Parallel first first' result (action >>= next) (action' >>= next') := by
  intro session session' inStep
  rw [run_bind, run_bind]
  have course := begun session session' inStep
  generalize action.run session = reached at course ⊢
  generalize action'.run session' = reached' at course ⊢
  cases course with
  | exhausted => exact .exhausted
  | ok same still => exact rest _ _ same _ _ still
  | error error still => exact .error error still
  | left arithmetic => exact .left arithmetic
  | right arithmetic => exact .right arithmetic

theorem parallel_require (pos : Nat) {action : Eval Number (Option α)}
    {action' : Eval Number (Option β)}
    (same : Parallel first first' (Option.Rel value) action action') :
    Parallel first first' value (require pos action) (require pos action') := by
  apply parallel_bind same
  intro x y related
  cases related with
  | none => exact parallel_fail _ pos
  | some same => exact parallel_pure same

theorem parallel_modifyScopes {change change' : Scopes Number → Scopes Number}
    (changes : ∀ scopes scopes', scopes.SameShape scopes' →
      (change scopes).SameShape (change' scopes')) :
    Parallel first first' (fun _ _ => True) (modifyScopes change) (modifyScopes change') :=
  fun _ _ inStep => .ok trivial ⟨changes _ _ inStep.scopes, inStep.printed⟩

theorem parallel_emit {x y : Number} (same : x.SameKind y) :
    Parallel first first' (fun _ _ => True) (emit x) (emit y) := by
  intro session session' inStep
  rcases inStep with ⟨scopes, more, more', printed, printed', kinds⟩
  refine .ok trivial ⟨scopes, more.push x, more'.push y, ?_, ?_, ?_⟩
  · rw [printed, Array.push_append]
  · rw [printed', Array.push_append]
  · simpa using List.rel_append kinds (.cons same .nil)

theorem parallel_inFrame (same : Parallel first first' value action action') :
    Parallel first first' value (inFrame action) (inFrame action') := by
  intro session session' inStep
  have inside := same { session with scopes := session.scopes.push }
    { session' with scopes := session'.scopes.push } ⟨inStep.scopes.push, inStep.printed⟩
  unfold run at inside
  unfold run inFrame
  generalize action _ = reached at inside ⊢
  generalize action' _ = reached' at inside ⊢
  cases inside with
  | exhausted => exact .exhausted
  | ok same still => exact .ok same ⟨still.scopes.pop, still.printed⟩
  | error error still => exact .error error ⟨still.scopes.pop, still.printed⟩
  | left arithmetic => exact .left arithmetic
  | right arithmetic => exact .right arithmetic

end Eval

end Calculator
