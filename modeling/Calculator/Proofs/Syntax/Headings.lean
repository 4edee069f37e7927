import Calculator.Proofs.Decimal.ReadBack
import Calculator.Proofs.Grammar.Writing
import Calculator.Syntax.Outline

/-!
The headings of an outline. A line decides which kind of node it is for and, if names are names of
the language and literals are numbers, what the node itself says.
-/

namespace Calculator

/-- The first text has only characters of a kind, and the second does not begin with one. -/
structure Spans (inside : Char → Bool) (front back : String) : Prop where
  all : front.toList.all inside
  stops : back.toList.head?.all (!inside ·)

namespace Spans

variable {inside : Char → Bool} {front front' back back' : String}

theorem takeWhile_eq (spans : Spans inside front back) :
    (front ++ back).toList.takeWhile inside = front.toList := by
  have stops := spans.stops
  rw [String.toList_append, List.takeWhile_append_of_pos (List.all_eq_true.mp spans.all)]
  cases text : back.toList with
  | nil => exact List.append_nil _
  | cons c rest =>
    rw [text] at stops
    have stop : ¬ inside c = true := by simpa using stops
    rw [List.takeWhile_cons_of_neg stop, List.append_nil]

theorem unique (spans : Spans inside front back) (spans' : Spans inside front' back')
    (same : front ++ back = front' ++ back') : front = front' ∧ back = back' := by
  have fronts : front = front' := by
    rw [← String.toList_inj, ← spans.takeWhile_eq, same, spans'.takeWhile_eq]
  subst fronts
  exact ⟨rfl, (String.append_right_inj front).mp same⟩

end Spans

/-- What a line says that is the same for all nodes of a kind. -/
inductive Caption
  | operator (op : BinaryOp)
  | negate | chain
  | block | condition | consequence | alternative | print | reset | program
  deriving DecidableEq

namespace Caption

def text : Caption → String
  | operator op => op.symbol
  | negate => "Unary -"
  | chain => "Chain"
  | block => "Block"
  | condition => "If"
  | consequence => "Then"
  | alternative => "Else"
  | print => "Print"
  | reset => "Reset"
  | program => "Program"

def all : List Caption :=
  [negate, chain, block, condition, consequence, alternative, print, reset, program] ++
    BinaryOp.all.map operator

theorem mem_all (caption : Caption) : caption ∈ all := by
  cases caption with
  | operator op => cases op <;> decide
  | _ => decide

theorem text_inj {caption caption' : Caption} (same : caption.text = caption'.text) :
    caption = caption' :=
  List.inj_on_of_nodup_map (f := text) (l := all) (by decide) caption.mem_all caption'.mem_all same

end Caption

inductive Heading
  | number (value : Scalar) (fixed : Bool)
  | identifier (name : String)
  | call (name : String)
  | assign (name : String) (declared : Option NumberType)
  | define (name : String) (params : List String)
  | plain (caption : Caption)

namespace Heading

def label : Heading → String
  | number value fixed => literalLabel value fixed
  | identifier name => "Identifier " ++ name
  | call name => "Call " ++ name
  | assign name declared => declarationLabel name declared
  | define name params => "Func " ++ name ++ "(" ++ ", ".intercalate params ++ ")"
  | plain caption => caption.text

def isProper : Heading → Bool
  | number value _ => !value.isNaN
  | identifier name | call name | assign name _ => isName name
  | define name params => isName name && params.all isName
  | plain _ => true

def details : Heading → String
  | number value fixed => value.text ++ if fixed then " (fixed)" else ""
  | identifier name | call name => name
  | assign name declared => name ++ declared.elim "" fun type => ": " ++ type.name
  | define name params => name ++ ("(" ++ ", ".intercalate params ++ ")")
  | plain _ => ""

def opening : Heading → String
  | number .. => "Number "
  | identifier .. => "Identifier "
  | call .. => "Call "
  | assign .. => "Assign "
  | define .. => "Func "
  | plain caption => caption.text

theorem label_eq (heading : Heading) : heading.label = heading.opening ++ heading.details := by
  cases heading with
  | assign name declared =>
    cases declared <;> simp [label, declarationLabel, opening, details, String.append_assoc]
  | plain caption => exact (String.append_empty).symm
  | _ => simp [label, literalLabel, opening, details, String.append_assoc]

/-- Two letters tell the beginnings apart. -/
def initials : List (List Char) := [['N', 'u'], ['I', 'd'], ['C', 'a'], ['A', 's'], ['F', 'u']]

def kind : Heading → Nat
  | number .. => 0
  | identifier .. => 1
  | call .. => 2
  | assign .. => 3
  | define .. => 4
  | plain _ => 5

theorem idxOf_opening (heading : Heading) :
    initials.idxOf (heading.opening.toList.take 2) = heading.kind := by
  cases heading with
  | plain caption =>
    have checked : ∀ caption ∈ Caption.all, initials.idxOf (caption.text.toList.take 2) = 5 := by
      decide
    exact checked caption caption.mem_all
  | _ => simp [opening, initials, kind]

theorem take_label (heading : Heading) :
    heading.label.toList.take 2 = heading.opening.toList.take 2 := by
  rw [label_eq, String.toList_append]
  cases heading with
  | plain caption => rw [details, String.toList_empty, List.append_nil]
  | _ => simp [opening]

section Names

variable {name name' suffix suffix' : String}

theorem part_of_name (named : isName name) : name.toList.all Pattern.nameParts.contains := by
  have accepts := (Bool.and_eq_true_iff.mp named).1
  obtain ⟨c, rest, text, starts, parts⟩ := Pattern.accepts_name.mp accepts
  rw [text, List.all_cons, Bool.and_eq_true, List.all_eq_true]
  exact ⟨Lexer.part_of_start starts, parts⟩

theorem ne_empty_of_name (named : isName name) : name ≠ "" := by
  rintro rfl
  revert named
  decide

theorem name_unique (named : isName name) (named' : isName name')
    (stops : suffix.toList.head?.all (!Pattern.nameParts.contains ·))
    (stops' : suffix'.toList.head?.all (!Pattern.nameParts.contains ·))
    (same : name ++ suffix = name' ++ suffix') : name = name' ∧ suffix = suffix' :=
  Spans.unique ⟨part_of_name named, stops⟩ ⟨part_of_name named', stops'⟩ same

def further : List String → String
  | [] => ")"
  | name :: params => ", " ++ (name ++ further params)

theorem intercalate_cons (name : String) (params : List String) :
    ", ".intercalate (name :: params) ++ ")" = name ++ further params := by
  induction params generalizing name with
  | nil => rw [String.intercalate_singleton, further]
  | cons other params ih =>
    rw [String.intercalate_cons_cons, String.append_assoc, ih, String.append_assoc, further]

theorem further_stops (params : List String) :
    (further params).toList.head?.all (!Pattern.nameParts.contains ·) := by
  cases params with
  | nil => decide
  | cons name params =>
    rw [further, String.toList_append]
    rfl

theorem further_ne (name : String) (params : List String) :
    further [] ≠ further (name :: params) := by
  intro same
  have texts := congrArg String.toList same
  rw [further, further, String.toList_append] at texts
  cases texts

theorem further_inj {params params' : List String} (named : params.all isName)
    (named' : params'.all isName) (same : further params = further params') :
    params = params' := by
  induction params generalizing params' with
  | nil =>
    cases params' with
    | nil => rfl
    | cons name' params' => exact absurd same (further_ne name' params')
  | cons name params ih =>
    cases params' with
    | nil => exact absurd same.symm (further_ne name params)
    | cons name' params' =>
      obtain ⟨first, rest⟩ := Bool.and_eq_true_iff.mp named
      obtain ⟨first', rest'⟩ := Bool.and_eq_true_iff.mp named'
      rw [further, further, String.append_right_inj] at same
      obtain ⟨rfl, behind⟩ :=
        name_unique first first' (further_stops params) (further_stops params') same
      rw [ih rest rest' behind]

theorem ne_intercalate (named : isName name) (params : List String) :
    ", ".intercalate [] ++ ")" ≠ ", ".intercalate (name :: params) ++ ")" := by
  intro same
  rw [intercalate_cons] at same
  have empty : Spans Pattern.nameParts.contains "" ")" := ⟨by decide, by decide⟩
  have spans : Spans Pattern.nameParts.contains name (further params) :=
    ⟨part_of_name named, further_stops params⟩
  exact ne_empty_of_name named (empty.unique spans same).1.symm

theorem params_inj {params params' : List String} (named : params.all isName)
    (named' : params'.all isName)
    (same : ", ".intercalate params ++ ")" = ", ".intercalate params' ++ ")") :
    params = params' := by
  cases params with
  | nil =>
    cases params' with
    | nil => rfl
    | cons name' params' =>
      exact absurd same (ne_intercalate (Bool.and_eq_true_iff.mp named').1 params')
  | cons name params =>
    obtain ⟨first, rest⟩ := Bool.and_eq_true_iff.mp named
    cases params' with
    | nil => exact absurd same.symm (ne_intercalate first params)
    | cons name' params' =>
      obtain ⟨first', rest'⟩ := Bool.and_eq_true_iff.mp named'
      rw [intercalate_cons, intercalate_cons] at same
      obtain ⟨rfl, behind⟩ :=
        name_unique first first' (further_stops params) (further_stops params') same
      rw [further_inj rest rest' behind]

end Names

section Details

variable {name name' : String}

theorem number_inj {value value' : Scalar} {fixed fixed' : Bool} (defined : value.isNaN = false)
    (same : (number value fixed).details = (number value' fixed').details) :
    value = value' ∧ fixed = fixed' := by
  have stops : ∀ fixed : Bool,
      (if fixed then " (fixed)" else "").toList.head?.all fun c => !!c.isWhitespace := by
    decide
  have spans : ∀ (value : Scalar) (fixed : Bool),
      Spans (!·.isWhitespace) value.text (if fixed then " (fixed)" else "") :=
    fun value fixed => ⟨by simpa using value.isWhitespace_text, stops fixed⟩
  obtain ⟨text, suffix⟩ := (spans value fixed).unique (spans value' fixed') same
  have apart : ∀ fixed fixed' : Bool, (if fixed then " (fixed)" else "") =
      (if fixed' then " (fixed)" else "") → fixed = fixed' := by
    decide
  exact ⟨Scalar.text_inj defined text, apart fixed fixed' suffix⟩

theorem assign_inj {declared declared' : Option NumberType} (named : isName name)
    (named' : isName name')
    (same : (assign name declared).details = (assign name' declared').details) :
    name = name' ∧ declared = declared' := by
  have stops : ∀ declared : Option NumberType,
      (declared.elim "" fun type => ": " ++ type.name).toList.head?.all
        (!Pattern.nameParts.contains ·) := by
    rintro (_ | _ | _) <;> decide
  obtain ⟨rfl, suffix⟩ := name_unique named named' (stops declared) (stops declared') same
  refine ⟨rfl, ?_⟩
  revert suffix
  obtain _ | _ | _ := declared <;> obtain _ | _ | _ := declared' <;> decide

theorem define_inj {params params' : List String} (named : isName name) (named' : isName name')
    (all : params.all isName) (all' : params'.all isName)
    (same : (define name params).details = (define name' params').details) :
    name = name' ∧ params = params' := by
  have stops : ∀ params : List String,
      ("(" ++ ", ".intercalate params ++ ")").toList.head?.all
        (!Pattern.nameParts.contains ·) := by
    intro params
    rw [String.toList_append, String.toList_append]
    rfl
  obtain ⟨rfl, suffix⟩ := name_unique named named' (stops params) (stops params') same
  rw [String.append_assoc, String.append_assoc, String.append_right_inj] at suffix
  exact ⟨rfl, params_inj all all' suffix⟩

end Details

/-- What a line says decides the heading. -/
theorem label_inj {heading heading' : Heading} (proper : heading.isProper)
    (proper' : heading'.isProper) (same : heading.label = heading'.label) : heading = heading' := by
  have kind : heading.kind = heading'.kind := by
    rw [← idxOf_opening, ← idxOf_opening, ← take_label, ← take_label, same]
  rw [label_eq, label_eq] at same
  cases heading with
  | number value fixed =>
    cases heading' with
    | number value' fixed' =>
      obtain ⟨rfl, rfl⟩ := number_inj (by simpa [isProper] using proper)
        ((String.append_right_inj _).mp same)
      rfl
    | _ => cases kind
  | identifier name =>
    cases heading' with
    | identifier name' => exact congrArg identifier ((String.append_right_inj _).mp same)
    | _ => cases kind
  | call name =>
    cases heading' with
    | call name' => exact congrArg call ((String.append_right_inj _).mp same)
    | _ => cases kind
  | assign name declared =>
    cases heading' with
    | assign name' declared' =>
      obtain ⟨rfl, rfl⟩ := assign_inj proper proper' ((String.append_right_inj _).mp same)
      rfl
    | _ => cases kind
  | define name params =>
    cases heading' with
    | define name' params' =>
      obtain ⟨named, all⟩ := Bool.and_eq_true_iff.mp proper
      obtain ⟨named', all'⟩ := Bool.and_eq_true_iff.mp proper'
      obtain ⟨rfl, rfl⟩ := define_inj named named' all all' ((String.append_right_inj _).mp same)
      rfl
    | _ => cases kind
  | plain caption =>
    cases heading' with
    | plain caption' =>
      rw [details, details, String.append_empty, String.append_empty] at same
      exact congrArg plain (Caption.text_inj same)
    | _ => cases kind

section Lines

theorem name_in_line {name : String} (named : isName name) : name.toList.all (· != '\n') := by
  apply List.all_eq_true.mpr
  intro c member
  have part := List.all_eq_true.mp (part_of_name named) c member
  apply bne_iff_ne.mpr
  rintro rfl
  exact absurd part (by decide)

theorem further_in_line {params : List String} (named : params.all isName) :
    (further params).toList.all (· != '\n') := by
  induction params with
  | nil => decide
  | cons name params ih =>
    obtain ⟨first, rest⟩ := Bool.and_eq_true_iff.mp named
    rw [further, String.toList_append, String.toList_append, List.all_append, List.all_append,
      name_in_line first, ih rest]
    decide

theorem details_in_line {heading : Heading} (proper : heading.isProper) :
    heading.details.toList.all (· != '\n') := by
  cases heading with
  | number value fixed =>
    have suffix : ∀ fixed : Bool,
        (if fixed then " (fixed)" else "").toList.all (· != '\n') := by
      decide
    have text : value.text.toList.all (· != '\n') := by
      apply List.all_eq_true.mpr
      intro c member
      apply bne_iff_ne.mpr
      rintro rfl
      exact absurd (value.isWhitespace_text _ member) (by decide)
    rw [details, String.toList_append, List.all_append, text, suffix]
    rfl
  | identifier name => exact name_in_line proper
  | call name => exact name_in_line proper
  | assign name declared =>
    rw [details, String.toList_append, List.all_append, name_in_line proper]
    obtain _ | _ | _ := declared <;> decide
  | define name params =>
    obtain ⟨named, all⟩ := Bool.and_eq_true_iff.mp proper
    rw [details, String.toList_append, List.all_append, name_in_line named, String.append_assoc,
      String.toList_append, List.all_append]
    cases params with
    | nil => decide
    | cons first rest =>
      obtain ⟨named, all⟩ := Bool.and_eq_true_iff.mp all
      rw [intercalate_cons, String.toList_append, List.all_append, name_in_line named,
        further_in_line all]
      decide
  | plain caption =>
    rw [details]
    decide

theorem opening_in_line (heading : Heading) : heading.opening.toList ≠ [] ∧
    heading.opening.toList.all (· != '\n') ∧ heading.opening.toList.head?.all (· != ' ') := by
  cases heading with
  | plain caption =>
    have checked : ∀ caption ∈ Caption.all, caption.text.toList ≠ [] ∧
        caption.text.toList.all (· != '\n') ∧ caption.text.toList.head?.all (· != ' ') := by
      decide
    exact checked caption caption.mem_all
  | _ => simp [opening]

theorem label_in_line {heading : Heading} (proper : heading.isProper) :
    heading.label.toList.all (· != '\n') ∧ heading.label.toList.head?.all (· != ' ') := by
  obtain ⟨nonempty, unbroken, begins⟩ := heading.opening_in_line
  rw [label_eq, String.toList_append, List.all_append, List.head?_append_of_ne_nil _ nonempty,
    unbroken, details_in_line proper]
  exact ⟨rfl, begins⟩

end Lines

end Heading

end Calculator
