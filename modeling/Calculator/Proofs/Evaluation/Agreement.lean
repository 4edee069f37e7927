import Calculator.Evaluation
import Mathlib.Data.List.Forall2

/-!
Sessions of two kinds of numbers side by side: when their bindings and their output correspond, and
when two actions agree on all corresponding sessions.
-/

namespace Calculator

variable {V W α β γ δ : Type}

/-- Both succeed with corresponding values, or both fail in the same way. -/
inductive Except.Agree {ε : Type} (like : α → β → Prop) : Except ε α → Except ε β → Prop
  | ok {x : α} {y : β} (same : like x y) : Agree like (.ok x) (.ok y)
  | error (fault : ε) : Agree like (.error fault) (.error fault)

/-- Which numbers and which functions of one kind of session stand for those of another. -/
structure Likeness (V W : Type) where
  number : V → W → Prop
  function : Definition → Definition → Prop

structure Likeness.Implies (like weaker : Likeness V W) : Prop where
  number : ∀ x y, like.number x y → weaker.number x y
  function : ∀ f g, like.function f g → weaker.function f g

inductive Binding.Alike (like : Likeness V W) : Binding V → Binding W → Prop
  | number {x : V} {y : W} (same : like.number x y) : Alike like (.number x) (.number y)
  | function {f g : Definition} (same : like.function f g) : Alike like (.function f) (.function g)

def Frame.Alike (like : Likeness V W) : Frame V → Frame W → Prop :=
  List.Forall₂ fun entry entry' => entry.1 = entry'.1 ∧ Binding.Alike like entry.2 entry'.2

structure Scopes.Alike (like : Likeness V W) (scopes : Scopes V) (scopes' : Scopes W) : Prop where
  innermost : Frame.Alike like scopes.innermost scopes'.innermost
  enclosing : List.Forall₂ (Frame.Alike like) scopes.enclosing scopes'.enclosing

structure Session.Alike (like : Likeness V W) (session : Session V) (session' : Session W) :
    Prop where
  scopes : Scopes.Alike like session.scopes session'.scopes
  printed : List.Forall₂ like.number session.printed.toList session'.printed.toList

section Results

theorem Except.Agree.mono {ε : Type} {like weaker : α → β → Prop}
    (implied : ∀ x y, like x y → weaker x y) {left : Except ε α} {right : Except ε β}
    (agree : Except.Agree like left right) : Except.Agree weaker left right := by
  cases agree with
  | ok same => exact .ok (implied _ _ same)
  | error fault => exact .error fault

theorem optionRel_mono {like weaker : α → β → Prop} (implied : ∀ x y, like x y → weaker x y)
    {left : Option α} {right : Option β} (related : Option.Rel like left right) :
    Option.Rel weaker left right := by
  cases related with
  | none => exact .none
  | some same => exact .some (implied _ _ same)

/-! Two things that stand for the same third one stand for each other. -/

variable {first : α → γ → Prop} {second : β → γ → Prop} {joined : α → β → Prop}

theorem Except.Agree.join {ε : Type} (join : ∀ x y z, first x z → second y z → joined x y)
    {left : Except ε α} {right : Except ε β} {middle : Except ε γ}
    (agree : Except.Agree first left middle) (agree' : Except.Agree second right middle) :
    Except.Agree joined left right := by
  cases agree with
  | ok same =>
    cases agree' with
    | ok same' => exact .ok (join _ _ _ same same')
  | error fault =>
    cases agree'
    exact .error fault

theorem optionRel_join (join : ∀ x y z, first x z → second y z → joined x y)
    {left : Option α} {right : Option β} {middle : Option γ}
    (related : Option.Rel first left middle) (related' : Option.Rel second right middle) :
    Option.Rel joined left right := by
  cases related with
  | none =>
    cases related'
    exact .none
  | some same =>
    cases related' with
    | some same' => exact .some (join _ _ _ same same')

theorem forall₂_join (join : ∀ x y z, first x z → second y z → joined x y) {lefts : List α}
    {rights : List β} {middles : List γ} (related : List.Forall₂ first lefts middles)
    (related' : List.Forall₂ second rights middles) : List.Forall₂ joined lefts rights := by
  induction related generalizing rights with
  | nil =>
    cases related'
    exact .nil
  | cons head tail ih =>
    cases related' with
    | cons head' tail' => exact .cons (join _ _ _ head head') (ih tail')

end Results

section Bindings

variable {like : Likeness V W}

theorem Binding.Alike.mono {weaker : Likeness V W} (implied : like.Implies weaker)
    {binding : Binding V} {binding' : Binding W} (alike : Binding.Alike like binding binding') :
    Binding.Alike weaker binding binding' := by
  cases alike with
  | number same => exact .number (implied.number _ _ same)
  | function same => exact .function (implied.function _ _ same)

theorem Frame.Alike.lookup {frame : Frame V} {frame' : Frame W} (alike : Frame.Alike like frame frame')
    (name : String) : Option.Rel (Binding.Alike like) (frame.lookup name) (frame'.lookup name) := by
  induction alike with
  | nil => exact .none
  | @cons entry entry' frame frame' same rest ih =>
    rcases entry with ⟨key, binding⟩
    rcases entry' with ⟨key', binding'⟩
    rcases same with ⟨rfl, bound⟩
    simp only [List.lookup_cons]
    cases name == key with
    | true => exact .some bound
    | false => exact ih

theorem Frame.Alike.insert {frame : Frame V} {frame' : Frame W} (alike : Frame.Alike like frame frame')
    (name : String) {binding : Binding V} {binding' : Binding W}
    (bound : Binding.Alike like binding binding') :
    Frame.Alike like (frame.insert name binding) (frame'.insert name binding') := by
  refine .cons ⟨rfl, bound⟩ ?_
  induction alike with
  | nil => exact .nil
  | @cons entry entry' frame frame' same rest ih =>
    simp only [List.filter_cons, same.1]
    split
    · exact .cons same ih
    · exact ih

theorem findSome?_lookup_rel {bound : Binding V → Binding W → Prop} {frames : List (Frame V)}
    {frames' : List (Frame W)} {name : String}
    (lookups : List.Forall₂ (fun frame frame' =>
      Option.Rel bound (frame.lookup name) (frame'.lookup name)) frames frames') :
    Option.Rel bound (frames.findSome? fun frame => frame.lookup name)
      (frames'.findSome? fun frame => frame.lookup name) := by
  induction lookups with
  | nil => exact .none
  | @cons frame frame' frames frames' here rest ih =>
    simp only [List.findSome?_cons]
    generalize List.lookup name frame = found at here ⊢
    generalize List.lookup name frame' = found' at here ⊢
    cases here with
    | some bound => exact .some bound
    | none => exact ih

theorem findSome?_lookup_alike {frames : List (Frame V)} {frames' : List (Frame W)}
    (alike : List.Forall₂ (Frame.Alike like) frames frames') (name : String) :
    Option.Rel (Binding.Alike like) (frames.findSome? fun frame => frame.lookup name)
      (frames'.findSome? fun frame => frame.lookup name) :=
  findSome?_lookup_rel (alike.imp fun _ _ frame => frame.lookup name)

namespace Scopes.Alike

variable {scopes : Scopes V} {scopes' : Scopes W}

theorem push (alike : Alike like scopes scopes') : Alike like scopes.push scopes'.push :=
  ⟨.nil, .cons alike.innermost alike.enclosing⟩

theorem pop (alike : Alike like scopes scopes') : Alike like scopes.pop scopes'.pop := by
  rcases scopes with ⟨innermost, enclosing⟩
  rcases scopes' with ⟨innermost', enclosing'⟩
  rcases alike with ⟨inner, outer⟩
  cases outer with
  | nil => exact ⟨inner, .nil⟩
  | cons frame frames => exact ⟨frame, frames⟩

theorem define (alike : Alike like scopes scopes') (name : String) {binding : Binding V}
    {binding' : Binding W} (bound : Binding.Alike like binding binding') :
    Alike like (scopes.define name binding) (scopes'.define name binding') :=
  ⟨alike.innermost.insert name bound, alike.enclosing⟩

theorem clear (alike : Alike like scopes scopes') : Alike like scopes.clear scopes'.clear :=
  ⟨.nil, alike.enclosing⟩

theorem local? (alike : Alike like scopes scopes') (name : String) :
    Option.Rel (Binding.Alike like) (scopes.local? name) (scopes'.local? name) :=
  alike.innermost.lookup name

theorem find? (alike : Alike like scopes scopes') (name : String) :
    Option.Rel (Binding.Alike like) (scopes.find? name) (scopes'.find? name) :=
  findSome?_lookup_alike (.cons alike.innermost alike.enclosing) name

end Scopes.Alike

end Bindings

/-- From corresponding sessions both actions end or neither does, with corresponding results in
corresponding sessions. -/
def Eval.Agree (like : Likeness V W) (value : α → β → Prop) (action : Eval V α)
    (action' : Eval W β) : Prop :=
  ∀ session session', Session.Alike like session session' →
    Option.Rel (fun outcome outcome' => Except.Agree value outcome.1 outcome'.1 ∧
      Session.Alike like outcome.2 outcome'.2) (action.run session) (action'.run session')

namespace Eval

variable {like : Likeness V W} {value : α → β → Prop} {result : γ → δ → Prop}

theorem Agree.forth {action : Eval V α} {action' : Eval W β}
    (agree : Agree like value action action') {before after : Session V} {before' : Session W}
    {reached : Except EvalError α} (alike : Session.Alike like before before')
    (ends : action.run before = some (reached, after)) :
    ∃ reached' after', action'.run before' = some (reached', after') ∧
      Except.Agree value reached reached' ∧ Session.Alike like after after' := by
  have related := agree before before' alike
  rw [ends] at related
  generalize ends' : action'.run before' = outcome' at related
  cases related with
  | some same => exact ⟨_, _, rfl, same⟩

theorem Agree.back {action : Eval V α} {action' : Eval W β}
    (agree : Agree like value action action') {before : Session V} {before' after' : Session W}
    {reached' : Except EvalError β} (alike : Session.Alike like before before')
    (ends' : action'.run before' = some (reached', after')) :
    ∃ reached after, action.run before = some (reached, after) ∧
      Except.Agree value reached reached' ∧ Session.Alike like after after' := by
  have related := agree before before' alike
  rw [ends'] at related
  generalize ends : action.run before = outcome at related
  cases related with
  | some same => exact ⟨_, _, rfl, same⟩

theorem agree_pure {x : α} {y : β} (same : value x y) :
    Agree like value (pure x : Eval V α) (pure y : Eval W β) := by
  intro session session' alike
  exact .some ⟨.ok same, alike⟩

theorem agree_fail (fault : Fault) (pos : Nat) :
    Agree like value (fail fault pos : Eval V α) (fail fault pos : Eval W β) := by
  intro session session' alike
  exact .some ⟨.error _, alike⟩

theorem agree_ofExcept (pos : Nat) {operation : Except Fault α} {operation' : Except Fault β}
    (agree : Except.Agree value operation operation') :
    Agree like value (ofExcept pos operation : Eval V α) (ofExcept pos operation' : Eval W β) := by
  cases agree with
  | ok same => exact agree_pure same
  | error fault => exact agree_fail fault pos

theorem agree_bind {action : Eval V α} {action' : Eval W β} {next : α → Eval V γ}
    {next' : β → Eval W δ} (first : Agree like value action action')
    (rest : ∀ x y, value x y → Agree like result (next x) (next' y)) :
    Agree like result (action >>= next) (action' >>= next') := by
  intro session session' alike
  rw [run_bind, run_bind]
  have begun := first session session' alike
  generalize action.run session = reached at begun ⊢
  generalize action'.run session' = reached' at begun ⊢
  cases begun with
  | none => exact .none
  | @some outcome outcome' related =>
    rcases outcome with ⟨reached, later⟩
    rcases outcome' with ⟨reached', later'⟩
    rcases related with ⟨agree, still⟩
    cases agree with
    | ok same => exact rest _ _ same later later' still
    | error error => exact .some ⟨.error error, still⟩

theorem agree_require (pos : Nat) {action : Eval V (Option α)} {action' : Eval W (Option β)}
    (agree : Agree like (Option.Rel value) action action') :
    Agree like value (require pos action) (require pos action') := by
  apply agree_bind agree
  intro x y related
  cases related with
  | none => exact agree_fail _ pos
  | some same => exact agree_pure same

theorem agree_scopes :
    Agree like (Scopes.Alike like) (scopes : Eval V (Scopes V)) (scopes : Eval W (Scopes W)) := by
  intro session session' alike
  exact .some ⟨.ok alike.scopes, alike⟩

theorem agree_modifyScopes {change : Scopes V → Scopes V} {change' : Scopes W → Scopes W}
    (agree : ∀ scopes scopes', Scopes.Alike like scopes scopes' →
      Scopes.Alike like (change scopes) (change' scopes')) :
    Agree like (fun _ _ => True) (modifyScopes change) (modifyScopes change') := by
  intro session session' alike
  exact .some ⟨.ok trivial, agree _ _ alike.scopes, alike.printed⟩

theorem agree_emit {x : V} {y : W} (same : like.number x y) :
    Agree like (fun _ _ => True) (emit x) (emit y) := by
  intro session session' alike
  refine .some ⟨.ok trivial, alike.scopes, ?_⟩
  simpa using List.rel_append alike.printed (.cons same .nil)

theorem agree_inFrame {action : Eval V α} {action' : Eval W β}
    (agree : Agree like value action action') :
    Agree like value (inFrame action) (inFrame action') := by
  intro session session' alike
  have inside := agree { session with scopes := session.scopes.push }
    { session' with scopes := session'.scopes.push } ⟨alike.scopes.push, alike.printed⟩
  unfold run at inside
  unfold run inFrame
  generalize action _ = reached at inside ⊢
  generalize action' _ = reached' at inside ⊢
  cases inside with
  | none => exact .none
  | some related => exact .some ⟨related.1, related.2.scopes.pop, related.2.printed⟩

end Eval

end Calculator
