import Calculator.Proofs.Pattern.Composition

/-!
The best match among alternatives. Alternatives that begin with the same parts are matched through
these parts once; where they match in one way only, the first alternative that matches at all still
decides.
-/

namespace Calculator

namespace Pattern

section Alternatives

variable {patterns : List Pattern}

theorem ends_alt_barred {first second : Pattern} {here : Cursor} {steps : List Step}
    (bars : opening (some here) first [] = .barred steps) :
    (alt first second).ends here = first.ends here ++ second.ends here := by
  simp only [ends, firstSteps, opening, bars, Opening.orElse]
  cases opening (some here) second [] <;> simp [Opening.all]

theorem ends_alt_passable {first second : Pattern} {here : Cursor} {before after : List Step}
    (passes : opening (some here) first [] = .passable before after) :
    (alt first second).ends here = first.ends here ++
      (opening (some here) second []).steps.flatMap (stepEnds here.taken here.rest) := by
  simp only [ends, firstSteps, opening, passes, Opening.orElse, Opening.all, List.flatMap_append,
    List.flatMap_cons, List.append_assoc]

theorem here_mem_ends {pattern : Pattern} {here : Cursor} {before after : List Step}
    (passes : opening (some here) pattern [] = .passable before after) :
    here ∈ pattern.ends here := by
  have same : pattern.ends here = (Opening.passable before after).ends here := by
    rw [ends, firstSteps, passes, Opening.ends]
  rw [same, Opening.ends_passable]
  exact List.mem_append_right _ List.mem_cons_self

theorem head?_ends_alt (first second : Pattern) (here : Cursor) :
    ((alt first second).ends here).head? =
      (first.ends here).head?.or (second.ends here).head? := by
  cases opens : opening (some here) first [] with
  | barred steps => rw [ends_alt_barred opens, List.head?_append]
  | passable before after =>
    have found := List.ne_nil_of_mem (here_mem_ends opens)
    rw [ends_alt_passable opens, List.head?_append]
    cases ends : first.ends here with
    | nil => exact absurd ends found
    | cons stop others => rfl

theorem mem_ends_alt {first second : Pattern} {here stop : Cursor} :
    stop ∈ (alt first second).ends here ↔ stop ∈ first.ends here ∨ stop ∈ second.ends here := by
  cases opens : opening (some here) first [] with
  | barred steps => rw [ends_alt_barred opens, List.mem_append]
  | passable before after =>
    have passed := here_mem_ends opens
    rw [ends_alt_passable opens, List.mem_append]
    cases opens' : opening (some here) second [] with
    | barred steps =>
      rw [ends_barred opens']
      rfl
    | passable before' after' =>
      have same : second.ends here = (Opening.passable before' after').ends here := by
        rw [ends, firstSteps, opens', Opening.ends]
      rw [same, Opening.ends_passable]
      simp only [Opening.steps, List.flatMap_append, List.mem_append, List.mem_cons]
      -- To stop at once is among the ends of the first alternative already.
      constructor
      · tauto
      · rintro (found | found | rfl | found)
        · exact .inl found
        · exact .inr (.inl found)
        · exact .inl passed
        · exact .inr (.inr found)

theorem head?_ends_alternatives (pattern : Pattern) (here : Cursor) :
    (pattern.ends here).head? =
      pattern.alternatives.findSome? fun branch => (branch.ends here).head? := by
  induction pattern with
  | alt first second ih ih' =>
    rw [head?_ends_alt, alternatives, List.findSome?_append, ih, ih']
  | _ => simp [alternatives]

theorem mem_ends_alternatives {pattern : Pattern} {here stop : Cursor} :
    stop ∈ pattern.ends here ↔ ∃ branch ∈ pattern.alternatives, stop ∈ branch.ends here := by
  induction pattern with
  | alt first second ih ih' =>
    simp only [mem_ends_alt, alternatives, List.mem_append, or_and_right, exists_or, ih, ih']
  | _ => simp [alternatives]

theorem head?_ends_anyOf (nonempty : patterns ≠ []) (here : Cursor) :
    ((anyOf patterns).ends here).head? =
      patterns.findSome? fun pattern => (pattern.ends here).head? := by
  induction patterns with
  | nil => exact absurd rfl nonempty
  | cons pattern patterns ih =>
    cases patterns with
    | nil => simp [anyOf]
    | cons next patterns =>
      have later := ih (List.cons_ne_nil _ _)
      rw [anyOf, head?_ends_alt, later]
      · cases found : (pattern.ends here).head? <;> simp [found]
      · simp

theorem mem_ends_anyOf (nonempty : patterns ≠ []) {here stop : Cursor} :
    stop ∈ (anyOf patterns).ends here ↔ ∃ pattern ∈ patterns, stop ∈ pattern.ends here := by
  induction patterns with
  | nil => exact absurd rfl nonempty
  | cons pattern patterns ih =>
    cases patterns with
    | nil => simp [anyOf]
    | cons next patterns =>
      rw [anyOf, mem_ends_alt, ih (List.cons_ne_nil _ _)]
      · simp
      · simp

theorem mem_ends_flatMap_alternatives {here stop : Cursor} :
    (∃ branch ∈ patterns.flatMap alternatives, stop ∈ branch.ends here) ↔
      ∃ pattern ∈ patterns, stop ∈ pattern.ends here := by
  constructor
  · rintro ⟨branch, member, stops⟩
    rcases List.mem_flatMap.mp member with ⟨pattern, listed, member⟩
    exact ⟨pattern, listed, mem_ends_alternatives.mpr ⟨branch, member, stops⟩⟩
  · rintro ⟨pattern, listed, stops⟩
    rcases mem_ends_alternatives.mp stops with ⟨branch, member, stops⟩
    exact ⟨branch, List.mem_flatMap.mpr ⟨pattern, listed, member⟩, stops⟩

theorem alternatives_ne_nil (pattern : Pattern) : pattern.alternatives ≠ [] := by
  induction pattern with
  | alt first second ih _ => exact List.append_ne_nil_of_left_ne_nil ih _
  | _ => exact List.cons_ne_nil _ _

theorem flatMap_alternatives_ne_nil (nonempty : patterns ≠ []) :
    patterns.flatMap alternatives ≠ [] := by
  intro nothing
  rcases List.exists_mem_of_ne_nil patterns nonempty with ⟨pattern, listed⟩
  exact alternatives_ne_nil pattern (List.flatMap_eq_nil_iff.mp nothing pattern listed)

theorem findSome?_congr {left right : Pattern → Option Cursor} {patterns : List Pattern}
    (same : ∀ pattern ∈ patterns, left pattern = right pattern) :
    patterns.findSome? left = patterns.findSome? right := by
  induction patterns with
  | nil => rfl
  | cons pattern patterns ih =>
    rcases List.forall_mem_cons.mp same with ⟨here, rest⟩
    rw [List.findSome?_cons, List.findSome?_cons, here, ih rest]

theorem findSome?_flatMap {α β : Type} (branches : α → List β) (find : β → Option Cursor)
    (items : List α) : (items.flatMap branches).findSome? find =
      items.findSome? fun item => (branches item).findSome? find := by
  induction items with
  | nil => rfl
  | cons item items ih =>
    rw [List.flatMap_cons, List.findSome?_append, ih, List.findSome?_cons]
    cases (branches item).findSome? find <;> rfl

theorem findSome?_alternatives (patterns : List Pattern) (here : Cursor) :
    ((patterns.flatMap alternatives).findSome? fun branch => (branch.ends here).head?) =
      patterns.findSome? fun pattern => (pattern.ends here).head? := by
  rw [findSome?_flatMap]
  exact findSome?_congr fun pattern _ => (head?_ends_alternatives pattern here).symm

end Alternatives

section Parts

theorem ends_empty (here : Cursor) : empty.ends here = [here] := by
  rcases here with ⟨taken, _ | ⟨c, rest⟩⟩ <;> rfl

variable {patterns front back : List Pattern}

theorem isBorderless_chain (borderless : ∀ pattern ∈ patterns, pattern.isBorderless) :
    (chain patterns).isBorderless := by
  induction patterns with
  | nil => rfl
  | cons pattern patterns ih =>
    rcases List.forall_mem_cons.mp borderless with ⟨here, rest⟩
    cases patterns with
    | nil => exact here
    | cons next patterns =>
      rw [chain, isBorderless, here, ih rest]
      · rfl
      · simp

theorem isBorderless_parts {pattern : Pattern} (borderless : pattern.isBorderless) :
    ∀ part ∈ pattern.parts, part.isBorderless := by
  induction pattern with
  | empty => exact fun _ member => absurd member List.not_mem_nil
  | seq first second ih ih' =>
    simp only [isBorderless, Bool.and_eq_true] at borderless
    exact List.forall_mem_append.mpr ⟨ih borderless.1, ih' borderless.2⟩
  | _ => exact List.forall_mem_singleton.mpr borderless

theorem isBorderless_alternatives {pattern : Pattern} (borderless : pattern.isBorderless) :
    ∀ branch ∈ pattern.alternatives, branch.isBorderless := by
  induction pattern with
  | alt first second ih ih' =>
    simp only [isBorderless, Bool.and_eq_true] at borderless
    exact List.forall_mem_append.mpr ⟨ih borderless.1, ih' borderless.2⟩
  | _ => exact List.forall_mem_singleton.mpr borderless

theorem isBorderless_anyOf (borderless : ∀ pattern ∈ patterns, pattern.isBorderless) :
    (anyOf patterns).isBorderless := by
  induction patterns with
  | nil => rfl
  | cons pattern patterns ih =>
    rcases List.forall_mem_cons.mp borderless with ⟨here, rest⟩
    cases patterns with
    | nil => exact here
    | cons next patterns =>
      rw [anyOf, isBorderless, here, ih rest]
      · rfl
      · simp

theorem ends_chain_cons {pattern : Pattern} (here : Cursor) (borderless : pattern.isBorderless)
    (rest : ∀ pattern ∈ patterns, pattern.isBorderless) :
    (chain (pattern :: patterns)).ends here =
      (pattern.ends here).flatMap (chain patterns).ends := by
  cases patterns with
  | nil =>
    have stays : (chain []).ends = fun stop => [stop] := funext ends_empty
    rw [stays, chain, List.flatMap_singleton']
  | cons next patterns =>
    rw [chain, ends_seq borderless (isBorderless_chain rest)]
    simp

theorem ends_chain_append (here : Cursor) (borderless : ∀ pattern ∈ front, pattern.isBorderless)
    (borderless' : ∀ pattern ∈ back, pattern.isBorderless) :
    (chain (front ++ back)).ends here =
      ((chain front).ends here).flatMap (chain back).ends := by
  induction front generalizing here with
  | nil => rw [List.nil_append, chain, ends_empty, List.flatMap_singleton]
  | cons pattern front ih =>
    rcases List.forall_mem_cons.mp borderless with ⟨first, rest⟩
    rw [List.cons_append,
      ends_chain_cons here first (List.forall_mem_append.mpr ⟨rest, borderless'⟩),
      ends_chain_cons here first rest, List.flatMap_assoc]
    exact List.flatMap_congr fun stop _ => ih stop rest

theorem ends_parts {pattern : Pattern} (here : Cursor) (borderless : pattern.isBorderless) :
    (chain pattern.parts).ends here = pattern.ends here := by
  induction pattern generalizing here with
  | empty => rfl
  | seq first second ih ih' =>
    simp only [isBorderless, Bool.and_eq_true] at borderless
    rw [parts, ends_chain_append here (isBorderless_parts borderless.1)
      (isBorderless_parts borderless.2), ends_seq borderless.1 borderless.2, ih here borderless.1]
    exact List.flatMap_congr fun stop _ => ih' stop borderless.2
  | _ => rfl

theorem ends_sequence {patterns : List Pattern} (here : Cursor)
    (borderless : ∀ pattern ∈ patterns, pattern.isBorderless) :
    (sequence patterns).ends here = (chain patterns).ends here := by
  rw [sequence]
  induction patterns generalizing here with
  | nil => rfl
  | cons pattern patterns ih =>
    rcases List.forall_mem_cons.mp borderless with ⟨first, rest⟩
    have parts : ∀ part ∈ patterns.flatMap parts, part.isBorderless := by
      intro part member
      rcases List.mem_flatMap.mp member with ⟨pattern, listed, member⟩
      exact isBorderless_parts (rest pattern listed) part member
    rw [List.flatMap_cons, ends_chain_append here (isBorderless_parts first) parts,
      ends_parts here first, ends_chain_cons here first rest]
    exact List.flatMap_congr fun stop _ => ih stop rest

end Parts

section Shared

theorem commonStart_prefix_left (left right : List Pattern) : commonStart left right <+: left := by
  induction left generalizing right with
  | nil => simp [commonStart]
  | cons pattern left ih =>
    cases right with
    | nil => simp [commonStart]
    | cons other right =>
      rw [commonStart]
      split
      · exact List.cons_prefix_cons.mpr ⟨rfl, ih right⟩
      · exact List.nil_prefix

theorem commonStart_prefix_right (left right : List Pattern) :
    commonStart left right <+: right := by
  induction left generalizing right with
  | nil => simp [commonStart]
  | cons pattern left ih =>
    cases right with
    | nil => simp [commonStart]
    | cons other right =>
      rw [commonStart]
      split
      · next same => exact List.cons_prefix_cons.mpr ⟨same, ih right⟩
      · exact List.nil_prefix

theorem foldl_commonStart_prefix (others : List (List Pattern)) (start : List Pattern) :
    others.foldl commonStart start <+: start ∧
      ∀ other ∈ others, others.foldl commonStart start <+: other := by
  induction others generalizing start with
  | nil => exact ⟨List.prefix_rfl, fun _ member => absurd member List.not_mem_nil⟩
  | cons other others ih =>
    rcases ih (commonStart start other) with ⟨begins, each⟩
    rw [List.foldl_cons]
    exact ⟨begins.trans (commonStart_prefix_left start other),
      List.forall_mem_cons.mpr ⟨begins.trans (commonStart_prefix_right start other), each⟩⟩

theorem sharedParts_prefix (branches : List (List Pattern)) :
    ∀ parts ∈ branches, sharedParts branches <+: parts := by
  match branches with
  | [] => exact fun _ member => absurd member List.not_mem_nil
  | [only] => exact fun _ _ => List.nil_prefix
  | first :: second :: others =>
    rw [sharedParts]
    split
    · rcases foldl_commonStart_prefix others (commonStart first second) with ⟨begins, each⟩
      exact List.forall_mem_cons.mpr ⟨begins.trans (commonStart_prefix_left first second),
        List.forall_mem_cons.mpr ⟨begins.trans (commonStart_prefix_right first second), each⟩⟩
    · exact fun _ _ => List.nil_prefix

end Shared

section Choice

variable {patterns : List Pattern}

/-- What all alternatives of a choice begin with. In most cases this is nothing at all. -/
def sharedStart (patterns : List Pattern) : Pattern :=
  chain (sharedParts ((patterns.flatMap alternatives).map parts))

/-- What is left of the alternatives behind the shared start. -/
def endings (patterns : List Pattern) : List Pattern :=
  let branches := patterns.flatMap alternatives
  branches.map fun branch => chain (branch.parts.drop (sharedParts (branches.map parts)).length)

theorem isBorderless_branches (borderless : ∀ pattern ∈ patterns, pattern.isBorderless) :
    ∀ branch ∈ patterns.flatMap alternatives, branch.isBorderless := by
  intro branch member
  rcases List.mem_flatMap.mp member with ⟨pattern, listed, member⟩
  exact isBorderless_alternatives (borderless pattern listed) branch member

variable (borderless : ∀ pattern ∈ patterns, pattern.isBorderless)

include borderless

theorem isBorderless_endings : ∀ ending ∈ endings patterns, ending.isBorderless := by
  intro ending member
  rcases List.mem_map.mp member with ⟨branch, listed, rfl⟩
  apply isBorderless_chain
  intro part member
  exact isBorderless_parts (isBorderless_branches borderless branch listed) part
    (List.mem_of_mem_drop member)

theorem ends_branch (here : Cursor) {branch : Pattern}
    (listed : branch ∈ patterns.flatMap alternatives) :
    branch.ends here = ((sharedStart patterns).ends here).flatMap (chain (branch.parts.drop
      (sharedParts ((patterns.flatMap alternatives).map parts)).length)).ends := by
  have plain := isBorderless_branches borderless branch listed
  have parts_plain := isBorderless_parts plain
  rcases sharedParts_prefix _ branch.parts (List.mem_map_of_mem listed) with ⟨ending, same⟩
  rw [sharedStart]
  generalize sharedParts ((patterns.flatMap alternatives).map parts) = shared at same ⊢
  rw [← same] at parts_plain
  rw [← ends_parts here plain, ← same, List.drop_left]
  rcases List.forall_mem_append.mp parts_plain with ⟨front, back⟩
  exact ends_chain_append here front back

theorem ends_choice (here : Cursor)
    (shares : sharedParts ((patterns.flatMap alternatives).map parts) ≠ []) :
    (choice patterns).ends here = ((sharedStart patterns).ends here).flatMap
      (anyOf ((endings patterns).flatMap alternatives)).ends := by
  have front : ∀ part ∈ sharedParts ((patterns.flatMap alternatives).map parts),
      part.isBorderless := by
    intro part member
    cases branches : patterns.flatMap alternatives with
    | nil =>
      rw [branches] at shares
      exact absurd rfl shares
    | cons branch others =>
      have listed : branch ∈ patterns.flatMap alternatives := branches ▸ List.mem_cons_self
      have begins := sharedParts_prefix _ branch.parts (List.mem_map_of_mem listed)
      exact isBorderless_parts (isBorderless_branches borderless branch listed) part
        (begins.subset member)
  have back : (anyOf ((endings patterns).flatMap alternatives)).isBorderless :=
    isBorderless_anyOf (isBorderless_branches (isBorderless_endings borderless))
  have back_alone : ∀ pattern ∈ [anyOf ((endings patterns).flatMap alternatives)],
      pattern.isBorderless := List.forall_mem_singleton.mpr back
  have same : choice patterns = sequence (sharedParts ((patterns.flatMap alternatives).map parts) ++
      [anyOf ((endings patterns).flatMap alternatives)]) := by
    simp only [choice]
    rfl
  rw [same, ends_sequence here (List.forall_mem_append.mpr ⟨front, back_alone⟩),
    ends_chain_append here front back_alone]
  rfl

theorem findSome?_endings {stop here : Cursor}
    (begins : (sharedStart patterns).ends here = [stop]) :
    ((endings patterns).findSome? fun ending => (ending.ends stop).head?) =
      patterns.findSome? fun pattern => (pattern.ends here).head? := by
  rw [← findSome?_alternatives patterns, endings, List.findSome?_map]
  have same : ∀ branch ∈ patterns.flatMap alternatives, ((chain (branch.parts.drop
      (sharedParts ((patterns.flatMap alternatives).map parts)).length)).ends stop).head? =
        (branch.ends here).head? := by
    intro branch listed
    rw [ends_branch borderless here listed, begins, List.flatMap_singleton]
  exact findSome?_congr same

/-- The first alternative that matches decides, if the shared start matches in one way only. -/
theorem head?_ends_choice (nonempty : patterns ≠ []) (here : Cursor)
    (single : ((sharedStart patterns).ends here).length ≤ 1) :
    ((choice patterns).ends here).head? =
      patterns.findSome? fun pattern => (pattern.ends here).head? := by
  by_cases shares : sharedParts ((patterns.flatMap alternatives).map parts) = []
  · rw [choice, shares, head?_ends_anyOf (flatMap_alternatives_ne_nil nonempty),
      findSome?_alternatives]
  · rw [ends_choice borderless here shares]
    have endings_nonempty : endings patterns ≠ [] := fun nothing =>
      flatMap_alternatives_ne_nil nonempty (List.map_eq_nil_iff.mp nothing)
    match begins : (sharedStart patterns).ends here, single with
    | [], _ =>
      rw [← findSome?_alternatives]
      symm
      apply List.findSome?_eq_none_iff.mpr
      intro branch listed
      rw [ends_branch borderless here listed, begins]
      rfl
    | [stop], _ =>
      rw [List.flatMap_singleton, head?_ends_anyOf (flatMap_alternatives_ne_nil endings_nonempty),
        findSome?_alternatives, findSome?_endings borderless begins]

theorem mem_ends_choice (nonempty : patterns ≠ []) {here stop : Cursor} :
    stop ∈ (choice patterns).ends here ↔ ∃ pattern ∈ patterns, stop ∈ pattern.ends here := by
  by_cases shares : sharedParts ((patterns.flatMap alternatives).map parts) = []
  · rw [choice, shares, ← mem_ends_flatMap_alternatives]
    exact mem_ends_anyOf (flatMap_alternatives_ne_nil nonempty)
  · have endings_nonempty : endings patterns ≠ [] := fun nothing =>
      flatMap_alternatives_ne_nil nonempty (List.map_eq_nil_iff.mp nothing)
    rw [ends_choice borderless here shares, List.mem_flatMap]
    simp only [mem_ends_anyOf (flatMap_alternatives_ne_nil endings_nonempty),
      mem_ends_flatMap_alternatives]
    rw [← mem_ends_flatMap_alternatives]
    constructor
    · rintro ⟨middle, begun, ending, member, stops⟩
      rcases List.mem_map.mp member with ⟨branch, listed, rfl⟩
      refine ⟨branch, listed, ?_⟩
      rw [ends_branch borderless here listed]
      exact List.mem_flatMap.mpr ⟨middle, begun, stops⟩
    · rintro ⟨branch, listed, stops⟩
      rw [ends_branch borderless here listed] at stops
      rcases List.mem_flatMap.mp stops with ⟨middle, begun, stops⟩
      exact ⟨middle, begun, _, List.mem_map_of_mem listed, stops⟩

end Choice

end Pattern

end Calculator
