import Mathlib.Data.List.Induction
import Mathlib.Data.List.Infix
import Calculator.Scopes

/-!
Frames and their history. What a name stands for is decided by the steps that led to a stack of
frames: it is the last definition in the innermost frame that still has one, where the frames are
told apart by their levels. Whatever happens in a frame, leaving it brings back the frames around it.
-/

namespace Calculator

namespace Scopes

variable {V : Type}

inductive Step (V : Type)
  | push
  | pop
  | define (name : String) (binding : Binding V)
  | clear

namespace Step

def isPush : Step V → Bool
  | push => true
  | _ => false

def isPop : Step V → Bool
  | pop => true
  | _ => false

def depthAfter (depth : Nat) : Step V → Nat
  | push => depth + 1
  | pop => max 1 (depth - 1)
  | define _ _ => depth
  | clear => depth

def Touches (name : String) : Step V → Prop
  | define other _ => other = name
  | clear => True
  | push => False
  | pop => False

end Step

def step (scopes : Scopes V) : Step V → Scopes V
  | .push => scopes.push
  | .pop => scopes.pop
  | .define name binding => scopes.define name binding
  | .clear => scopes.clear

def run (scopes : Scopes V) (steps : List (Step V)) : Scopes V := steps.foldl step scopes

def depthAfter (depth : Nat) (steps : List (Step V)) : Nat := steps.foldl Step.depthAfter depth

/-- The frame at a level stays through these steps, and none of them touches a name in it. There are
`depth` frames before the steps; the global one is at level one. -/
def Lasts (depth level : Nat) (name : String) (steps : List (Step V)) : Prop :=
  ∀ front step back, steps = front ++ step :: back →
    level ≤ step.depthAfter (depthAfter depth front) ∧
      (depthAfter depth front = level → ¬ step.Touches name)

def LastDefined (depth : Nat) (steps : List (Step V)) (level : Nat) (name : String)
    (binding : Binding V) : Prop :=
  ∃ before later, steps = before ++ .define name binding :: later ∧
    depthAfter depth before = level ∧ Lasts level level name later

/-- At no time have more frames been left than opened. -/
def Balanced (steps : List (Step V)) : Prop :=
  ∀ front ∈ steps.inits, front.countP Step.isPop ≤ front.countP Step.isPush

instance (steps : List (Step V)) : Decidable (Balanced steps) :=
  inferInstanceAs (Decidable (∀ front ∈ steps.inits, _))

section Histories

variable {depth level : Nat} {steps : List (Step V)} {last : Step V} {name : String}
  {binding : Binding V}

theorem run_append (scopes : Scopes V) (front back : List (Step V)) :
    scopes.run (front ++ back) = (scopes.run front).run back :=
  List.foldl_append

theorem run_concat (scopes : Scopes V) (steps : List (Step V)) (last : Step V) :
    scopes.run (steps ++ [last]) = (scopes.run steps).step last :=
  run_append scopes steps [last]

theorem depthAfter_append (depth : Nat) (front back : List (Step V)) :
    depthAfter depth (front ++ back) = depthAfter (depthAfter depth front) back :=
  List.foldl_append

theorem depthAfter_concat (depth : Nat) (steps : List (Step V)) (last : Step V) :
    depthAfter depth (steps ++ [last]) = last.depthAfter (depthAfter depth steps) :=
  depthAfter_append depth steps [last]

theorem concat_eq_append_cons {α : Type} {list front back : List α} {a b : α} :
    list ++ [a] = front ++ b :: back ↔
      (list = front ∧ a = b ∧ back = []) ∨ ∃ rest, back = rest ++ [a] ∧ list = front ++ b :: rest := by
  constructor
  · intro whole
    obtain rfl | ⟨rest, c, rfl⟩ := back.eq_nil_or_concat'
    · obtain ⟨same, single⟩ := List.append_inj' whole rfl
      exact .inl ⟨same, List.singleton_inj.mp single, rfl⟩
    · rw [← List.cons_append, ← List.append_assoc] at whole
      obtain ⟨same, single⟩ := List.append_inj' whole rfl
      exact .inr ⟨rest, by rw [List.singleton_inj.mp single], same⟩
  · rintro (⟨rfl, rfl, rfl⟩ | ⟨rest, rfl, rfl⟩)
    · rfl
    · simp

theorem lasts_nil : Lasts depth level name ([] : List (Step V)) := by
  intro front step back whole
  simp at whole

theorem lasts_concat : Lasts depth level name (steps ++ [last]) ↔
    Lasts depth level name steps ∧ level ≤ last.depthAfter (depthAfter depth steps) ∧
      (depthAfter depth steps = level → ¬ last.Touches name) := by
  constructor
  · intro lasts
    constructor
    · rintro front step back rfl
      exact lasts front step (back ++ [last]) (by simp)
    · exact lasts steps last [] rfl
  · rintro ⟨lasts, here⟩ front step back whole
    obtain ⟨rfl, rfl, rfl⟩ | ⟨rest, rfl, same⟩ := concat_eq_append_cons.mp whole
    · exact here
    · exact lasts front step rest same

theorem not_lastDefined_nil : ¬ LastDefined depth ([] : List (Step V)) level name binding := by
  rintro ⟨before, later, whole, _⟩
  simp at whole

theorem lastDefined_concat : LastDefined depth (steps ++ [last]) level name binding ↔
    (level = depthAfter depth steps ∧ last = .define name binding) ∨
      (LastDefined depth steps level name binding ∧
        level ≤ last.depthAfter (depthAfter depth steps) ∧
        (depthAfter depth steps = level → ¬ last.Touches name)) := by
  have onward : ∀ {before later : List (Step V)}, depthAfter depth before = level →
      depthAfter depth (before ++ .define name binding :: later) = depthAfter level later := by
    rintro before later rfl
    exact depthAfter_append depth before _
  constructor
  · rintro ⟨before, later, whole, place, lasts⟩
    obtain ⟨rfl, rfl, rfl⟩ | ⟨rest, rfl, rfl⟩ := concat_eq_append_cons.mp whole
    · exact .inl ⟨place.symm, rfl⟩
    · rw [onward place]
      obtain ⟨lasts, here⟩ := lasts_concat.mp lasts
      exact .inr ⟨⟨before, rest, rfl, place, lasts⟩, here⟩
  · rintro (⟨rfl, rfl⟩ | ⟨⟨before, later, rfl, place, lasts⟩, here⟩)
    · exact ⟨steps, [], rfl, rfl, lasts_nil⟩
    · rw [onward place] at here
      exact ⟨before, later ++ [last], by simp, place, lasts_concat.mpr ⟨lasts, here⟩⟩

end Histories

section Levels

/-- The frame at a level of a stack with the innermost frame in front. Where there is no frame there
are no bindings. -/
def frameAt (level : Nat) : List (Frame V) → Frame V
  | [] => []
  | frame :: outer => if level = outer.length + 1 then frame else frameAt level outer

def at? (scopes : Scopes V) (level : Nat) (name : String) : Option (Binding V) :=
  (frameAt level scopes.frames).lookup name

variable {frames : List (Frame V)} {scopes : Scopes V} {level : Nat} {name : String}
  {binding : Binding V}

theorem frameAt_above (above : frames.length < level) : frameAt level frames = [] := by
  induction frames with
  | nil => rfl
  | cons frame outer ih =>
    rw [List.length_cons] at above
    rw [frameAt, if_neg (by omega)]
    exact ih (by omega)

theorem length_frames (scopes : Scopes V) : scopes.frames.length = scopes.depth := rfl

theorem depth_pos (scopes : Scopes V) : 1 ≤ scopes.depth := Nat.le_add_left 1 _

theorem le_depth_of_at? (found : scopes.at? level name = some binding) : level ≤ scopes.depth := by
  by_contra above
  rw [at?, frameAt_above (by rw [length_frames]; omega)] at found
  cases found

theorem frameAt_depth (scopes : Scopes V) :
    frameAt scopes.depth scopes.frames = scopes.innermost :=
  if_pos rfl

theorem at?_depth (scopes : Scopes V) (name : String) :
    scopes.at? scopes.depth name = scopes.local? name := by
  rw [at?, frameAt_depth, local?]

theorem frameAt_push : frameAt level scopes.push.frames = frameAt level scopes.frames := by
  show (if level = scopes.depth + 1 then [] else frameAt level scopes.frames) = _
  split
  · next new =>
    rw [frameAt_above]
    rw [length_frames, new]
    exact Nat.lt_succ_self _
  · rfl

theorem frameAt_pop : frameAt level scopes.pop.frames =
    if level ≤ scopes.pop.depth then frameAt level scopes.frames else [] := by
  split
  · next stays =>
    obtain ⟨innermost, _ | ⟨frame, enclosing⟩⟩ := scopes
    · rfl
    · have inner : level ≠ (frame :: enclosing).length + 1 := by
        have depth : (⟨innermost, frame :: enclosing⟩ : Scopes V).pop.depth =
          enclosing.length + 1 := rfl
        rw [List.length_cons]
        omega
      exact (if_neg inner).symm
  · next gone => exact frameAt_above (Nat.lt_of_not_le gone)

theorem frameAt_innermost (innermost : Frame V) :
    frameAt level ({ scopes with innermost := innermost } : Scopes V).frames =
      if level = scopes.depth then innermost else frameAt level scopes.frames := by
  show (if level = scopes.depth then innermost else frameAt level scopes.enclosing) = _
  split
  · rfl
  · next other => exact (if_neg other).symm

theorem depth_step (scopes : Scopes V) (step : Step V) :
    (scopes.step step).depth = step.depthAfter scopes.depth := by
  cases step with
  | pop =>
    obtain ⟨innermost, _ | ⟨frame, enclosing⟩⟩ := scopes
    · rfl
    · simp [Scopes.step, pop, pop?, depth, Step.depthAfter]
  | _ => rfl

/-- After a step, a name is bound at a level to what the step has defined, or to what it was bound to
before if the frame is still there and the step has not touched the name in it. -/
theorem at?_step (step : Step V) : (scopes.step step).at? level name = some binding ↔
    (level = scopes.depth ∧ step = .define name binding) ∨
      (scopes.at? level name = some binding ∧ level ≤ step.depthAfter scopes.depth ∧
        (scopes.depth = level → ¬ step.Touches name)) := by
  cases step with
  | push =>
    simp only [Scopes.step, at?, frameAt_push, Step.Touches, Step.depthAfter, reduceCtorEq, and_false,
      not_false_eq_true, implies_true, and_true, false_or]
    constructor
    · exact fun found => ⟨found, (le_depth_of_at? found).trans (Nat.le_succ _)⟩
    · exact And.left
  | pop =>
    have depth := depth_step scopes .pop
    simp only [Scopes.step] at depth
    simp only [Scopes.step, at?, frameAt_pop, depth, Step.Touches, reduceCtorEq, and_false,
      not_false_eq_true, implies_true, and_true, false_or]
    split
    · next stays => simp [stays]
    · next gone => simp [gone]
  | define other value =>
    simp only [Scopes.step, define, at?, frameAt_innermost, Step.Touches, Step.depthAfter,
      Step.define.injEq]
    split
    · next here =>
      subst here
      rw [Frame.lookup_insert, frameAt_depth]
      by_cases same : name = other
      · simp [same]
      · simp [same, Ne.symm same]
    · next elsewhere =>
      have elsewhere' : scopes.depth ≠ level := Ne.symm elsewhere
      constructor
      · exact fun found => .inr ⟨found, le_depth_of_at? found, fun here => absurd here elsewhere'⟩
      · rintro (⟨here, _⟩ | ⟨found, _⟩)
        · exact absurd here elsewhere
        · exact found
  | clear =>
    simp only [Scopes.step, clear, at?, frameAt_innermost, Step.Touches, Step.depthAfter,
      reduceCtorEq, and_false, false_or, not_true_eq_false, imp_false]
    split
    · next here => simp [here]
    · next elsewhere =>
      have elsewhere' : scopes.depth ≠ level := Ne.symm elsewhere
      constructor
      · exact fun found => ⟨found, le_depth_of_at? found, elsewhere'⟩
      · exact And.left

end Levels

section Runs

variable {scopes : Scopes V} {level : Nat} {name : String} {binding : Binding V}

theorem depth_run (scopes : Scopes V) (steps : List (Step V)) :
    (scopes.run steps).depth = depthAfter scopes.depth steps := by
  induction steps using List.reverseRecOn with
  | nil => rfl
  | append_singleton steps last ih => rw [run_concat, depth_step, ih, depthAfter_concat]

theorem at?_run (steps : List (Step V)) : (scopes.run steps).at? level name = some binding ↔
    LastDefined scopes.depth steps level name binding ∨
      (scopes.at? level name = some binding ∧ Lasts scopes.depth level name steps) := by
  -- From the last step back, since what it does decides whether an earlier binding counts.
  induction steps using List.reverseRecOn with
  | nil => simp [run, not_lastDefined_nil, lasts_nil]
  | append_singleton steps last ih =>
    rw [run_concat, at?_step, ih, depth_run, lastDefined_concat, lasts_concat]
    tauto

theorem at?_run_of_none (steps : List (Step V)) (unbound : scopes.at? level name = none) :
    (scopes.run steps).at? level name = some binding ↔
      LastDefined scopes.depth steps level name binding := by
  rw [at?_run, unbound]
  simp

theorem at?_start (level : Nat) (name : String) : (start : Scopes V).at? level name = none := by
  have empty : frameAt level (start : Scopes V).frames = [] := by
    simp [start, frames, frameAt]
  rw [at?, empty, List.lookup_nil]

theorem findSome?_lookup (frames : List (Frame V)) :
    (frames.findSome? fun frame => frame.lookup name) = some binding ↔
      ∃ level, (frameAt level frames).lookup name = some binding ∧
        ∀ inner, level < inner → (frameAt inner frames).lookup name = none := by
  induction frames with
  | nil => simp [frameAt]
  | cons frame outer ih =>
    have above : ∀ inner, outer.length + 1 < inner → frameAt inner (frame :: outer) = [] :=
      fun inner above => frameAt_above above
    have here : frameAt (outer.length + 1) (frame :: outer) = frame := if_pos rfl
    rw [List.findSome?_cons]
    cases found : frame.lookup name with
    | some value =>
      constructor
      · rintro ⟨⟩
        refine ⟨outer.length + 1, here.symm ▸ found, fun inner further => ?_⟩
        rw [above inner further, List.lookup_nil]
      · rintro ⟨level, bound, inside⟩
        obtain less | rfl | more := Nat.lt_trichotomy level (outer.length + 1)
        · have unbound := inside _ less
          rw [here, found] at unbound
          cases unbound
        · rwa [here, found] at bound
        · rw [above level more] at bound
          cases bound
    | none =>
      have same : ∀ inner, (frameAt inner (frame :: outer)).lookup name =
          (frameAt inner outer).lookup name := by
        intro inner
        rw [frameAt]
        split
        · next top =>
          rw [found, frameAt_above (Nat.lt_of_lt_of_eq (Nat.lt_succ_self _) top.symm),
            List.lookup_nil]
        · rfl
      simp only [ih, same]

theorem find?_eq_some : scopes.find? name = some binding ↔
    ∃ level, scopes.at? level name = some binding ∧
      ∀ inner, level < inner → scopes.at? inner name = none :=
  findSome?_lookup scopes.frames

theorem lookup_eq_ok : scopes.lookup name = .ok binding ↔ scopes.find? name = some binding := by
  rw [lookup]
  cases scopes.find? name <;> simp

theorem lookup_eq_error {fault : Fault} : scopes.lookup name = .error fault ↔
    scopes.find? name = none ∧ fault = .unbound name := by
  rw [lookup]
  cases scopes.find? name <;> simp [eq_comm]

end Runs

section Leaving

variable {scopes : Scopes V} {frame : Frame V} {inner rest : List (Frame V)} {level : Nat}

theorem eq_of_frames (frames : scopes.frames = frame :: rest) : scopes = ⟨frame, rest⟩ := by
  obtain ⟨rfl, rfl⟩ := List.cons.inj frames
  rfl

theorem frames_run_push (outer : Scopes V) {steps : List (Step V)} (balanced : Balanced steps) :
    ∃ inner frame, (outer.push.run steps).frames = inner ++ frame :: outer.frames ∧
      inner.length + steps.countP Step.isPop = steps.countP Step.isPush := by
  -- From the last step back. While the history is balanced, it touches nothing around the frame.
  induction steps using List.reverseRecOn with
  | nil => exact ⟨[], [], rfl, rfl⟩
  | append_singleton steps last ih =>
    have earlier : Balanced steps := fun front member =>
      balanced front ((List.mem_inits front _).mpr
        (((List.mem_inits front steps).mp member).trans (List.prefix_append steps [last])))
    have whole := balanced _ ((List.mem_inits _ _).mpr List.prefix_rfl)
    obtain ⟨inner, frame, frames, counts⟩ := ih earlier
    simp only [List.countP_append, List.countP_singleton, run_concat] at whole ⊢
    have change : ∀ innermost : Frame V, ∃ inner' frame',
        ({ outer.push.run steps with innermost := innermost } : Scopes V).frames =
          inner' ++ frame' :: outer.frames ∧ inner'.length = inner.length := by
      intro innermost
      cases inner with
      | nil =>
        rw [eq_of_frames frames]
        exact ⟨[], innermost, rfl, rfl⟩
      | cons top inner =>
        rw [eq_of_frames frames]
        exact ⟨innermost :: inner, frame, rfl, rfl⟩
    cases last with
    | push =>
      refine ⟨[] :: inner, frame, congrArg (List.cons []) frames, ?_⟩
      simp only [Step.isPop, Step.isPush, Bool.false_eq_true, if_true, if_false, List.length_cons]
      omega
    | pop =>
      simp only [Step.isPop, Step.isPush, Bool.false_eq_true, if_true, if_false] at whole ⊢
      cases inner with
      | nil =>
        simp only [List.length_nil] at counts
        omega
      | cons top inner =>
        refine ⟨inner, frame, ?_, ?_⟩
        · rw [eq_of_frames frames]
          cases inner <;> rfl
        · simp only [List.length_cons] at counts
          omega
    | define name binding =>
      obtain ⟨inner', frame', frames', same⟩ :=
        change ((outer.push.run steps).innermost.insert name binding)
      exact ⟨inner', frame', frames', by rw [same]; exact counts⟩
    | clear =>
      obtain ⟨inner', frame', frames', same⟩ := change []
      exact ⟨inner', frame', frames', by rw [same]; exact counts⟩

theorem run_pops (frames : scopes.frames = inner ++ frame :: rest) :
    scopes.run (List.replicate inner.length .pop) = ⟨frame, rest⟩ := by
  induction inner generalizing scopes with
  | nil => exact eq_of_frames frames
  | cons top inner ih =>
    apply ih
    rw [eq_of_frames frames]
    cases inner <;> rfl

theorem frameAt_append (inner : List (Frame V)) (frame : Frame V) (rest : List (Frame V)) :
    frameAt (rest.length + 1) (inner ++ frame :: rest) = frame := by
  induction inner with
  | nil => exact if_pos rfl
  | cons top inner ih =>
    have top : rest.length + 1 ≠ (inner ++ frame :: rest).length + 1 := by
      rw [List.length_append, List.length_cons]
      omega
    rw [List.cons_append, frameAt, if_neg top, ih]

theorem nodup_insert (unique : (frame.map Prod.fst).Nodup) (name : String) (binding : Binding V) :
    ((frame.insert name binding).map Prod.fst).Nodup := by
  rw [Frame.insert, List.map_cons, List.nodup_cons]
  constructor
  · simp
  · exact unique.sublist (List.filter_sublist.map Prod.fst)

theorem nodup_frameAt_step (step : Step V)
    (unique : ((frameAt level scopes.frames).map Prod.fst).Nodup) :
    ((frameAt level (scopes.step step).frames).map Prod.fst).Nodup := by
  cases step with
  | push => rwa [Scopes.step, frameAt_push]
  | pop =>
    rw [Scopes.step, frameAt_pop]
    split
    · exact unique
    · exact List.nodup_nil
  | define name binding =>
    rw [Scopes.step, define, frameAt_innermost]
    split
    · next here =>
      rw [here, frameAt_depth] at unique
      exact nodup_insert unique name binding
    · exact unique
  | clear =>
    rw [Scopes.step, clear, frameAt_innermost]
    split
    · exact List.nodup_nil
    · exact unique

theorem nodup_frameAt_run (steps : List (Step V))
    (unique : ((frameAt level scopes.frames).map Prod.fst).Nodup) :
    ((frameAt level (scopes.run steps).frames).map Prod.fst).Nodup := by
  induction steps generalizing scopes with
  | nil => exact unique
  | cons first steps ih => exact ih (nodup_frameAt_step first unique)

theorem leave_frame (outer : Scopes V) {steps : List (Step V)} (balanced : Balanced steps) :
    let inside := outer.push.run steps
    ∃ frame : Frame V,
      (inside.run (List.replicate (inside.depth - outer.push.depth) .pop)).pop? =
        some (frame, outer) ∧
      (frame.map Prod.fst).Nodup ∧
      ∀ name binding, frame.lookup name = some binding ↔
        LastDefined outer.push.depth steps outer.push.depth name binding := by
  intro inside
  obtain ⟨inner, frame, frames, _⟩ := frames_run_push outer balanced
  have depth : inside.depth - outer.push.depth = inner.length := by
    have lengths : inside.depth = _ := congrArg List.length frames
    rw [List.length_append, List.length_cons, length_frames] at lengths
    have one : outer.push.depth = outer.depth + 1 := rfl
    omega
  have place : frameAt outer.push.depth inside.frames = frame := by
    rw [frames]
    exact frameAt_append inner frame outer.frames
  have empty : frameAt outer.push.depth outer.push.frames = [] := frameAt_depth outer.push
  refine ⟨frame, ?_, ?_, ?_⟩
  · rw [depth, run_pops frames]
    rfl
  · rw [← place]
    apply nodup_frameAt_run
    rw [empty]
    exact List.nodup_nil
  · intro name binding
    have unbound : outer.push.at? outer.push.depth name = none := by
      rw [at?, empty, List.lookup_nil]
    rw [← at?_run_of_none steps unbound, at?, place]

end Leaving

/-- What names stand for after any history of a new stack of frames. At no time is there no frame,
and the global one is never left. A name stands for its last definition in the innermost frame that
still has one, and in the innermost frame alone for the last definition there; it is unbound where
there is none. Whatever is done inside a new frame, the frames around it come back when it is left,
and it holds just the names defined in it since it was last cleared. -/
theorem bindings_follow_history (history : List (Step V)) :
    let scopes := start.run history
    (1 ≤ scopes.depth ∧ scopes.depth = depthAfter 1 history) ∧
    (scopes.depth = 1 → scopes.pop? = none ∧ scopes.pop = scopes) ∧
    (∀ name binding, scopes.find? name = some binding ↔
      ∃ level, LastDefined 1 history level name binding ∧
        ∀ inner other, level < inner → ¬ LastDefined 1 history inner name other) ∧
    (∀ name binding, scopes.local? name = some binding ↔
      LastDefined 1 history scopes.depth name binding) ∧
    (∀ name binding, scopes.lookup name = .ok binding ↔ scopes.find? name = some binding) ∧
    (∀ name fault, scopes.lookup name = .error fault ↔
      scopes.find? name = none ∧ fault = .unbound name) ∧
    ∀ (outer : Scopes V) (steps : List (Step V)), Balanced steps →
      let inside := outer.push.run steps
      ∃ frame : Frame V,
        (inside.run (List.replicate (inside.depth - outer.push.depth) .pop)).pop? =
          some (frame, outer) ∧
        (frame.map Prod.fst).Nodup ∧
        ∀ name binding, frame.lookup name = some binding ↔
          LastDefined outer.push.depth steps outer.push.depth name binding := by
  intro scopes
  have bound : ∀ {level name binding}, scopes.at? level name = some binding ↔
      LastDefined 1 history level name binding :=
    fun {level name _} => at?_run_of_none history (at?_start level name)
  refine ⟨⟨scopes.depth_pos, depth_run start history⟩, ?global, ?find, ?inner,
    fun _ _ => lookup_eq_ok, fun _ _ => lookup_eq_error, fun outer _ => leave_frame outer⟩
  case global =>
    intro single
    have alone : scopes.enclosing = [] := List.length_eq_zero_iff.mp (Nat.succ.inj single)
    have kept : scopes.pop? = none := by rw [pop?, alone]
    exact ⟨kept, by rw [pop, kept]⟩
  case find =>
    intro name binding
    simp only [find?_eq_some, bound, Option.eq_none_iff_forall_ne_some, ne_eq]
    constructor
    · rintro ⟨level, found, undefined⟩
      exact ⟨level, found, fun inner other inside => undefined inner inside other⟩
    · rintro ⟨level, found, undefined⟩
      exact ⟨level, found, fun inner inside other => undefined inner other inside⟩
  case inner =>
    intro name binding
    rw [← at?_depth, bound]

def shadowing : List (Step Int64) := [
  .define "x" (.number 1), .push, .define "x" (.number 2), .push, .clear, .pop, .clear,
  .define "y" (.number 3)]

theorem shadowing_follows_history :
    Balanced shadowing ∧ (start.run shadowing).find? "x" = some (.number 1) ∧
      (∃ level, LastDefined 1 shadowing level "x" (.number 1)) ∧
      ∃ frame, ((start.push.run shadowing).run [.pop]).pop? = some (frame, start) ∧
        frame.lookup "x" = some (.number 1) ∧ LastDefined 2 shadowing 2 "x" (.number 1) ∧
        ¬ LastDefined 2 shadowing 2 "y" (.number 3) := by
  have balanced : Balanced shadowing := by decide
  have found : (start.run shadowing).find? "x" = some (.number 1) := rfl
  have follows := bindings_follow_history shadowing
  obtain ⟨level, last, _⟩ := (follows.2.2.1 "x" (.number 1)).mp found
  obtain ⟨frame, left, _, holds⟩ := follows.2.2.2.2.2.2 start shadowing balanced
  have same : frame = [("x", .number 1)] := (congrArg Prod.fst (Option.some.inj left)).symm
  subst same
  refine ⟨balanced, found, ⟨level, last⟩, _, left, rfl, (holds _ _).mp rfl, ?_⟩
  intro other
  have bound := (holds "y" (.number 3)).mpr other
  cases bound

end Scopes

end Calculator
