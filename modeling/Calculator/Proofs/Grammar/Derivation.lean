import Calculator.Decimal.Reader
import Calculator.Proofs.Grammar.Yields
import Calculator.Syntax.Basic

/-!
The grammar of expressions, as a relation between tokens and the trees that they stand for. It is
given by levels, and says nothing of how a parser finds a derivation.
-/

namespace Calculator

inductive Level
  | comparison | bitOr | bitXor | bitAnd | shift | additive | multiplicative | power | unary | call
  | primary
  deriving DecidableEq, Repr

namespace Level

def tightness : Level → Nat
  | comparison => 0
  | bitOr => 1
  | bitXor => 2
  | bitAnd => 3
  | shift => 4
  | additive => 5
  | multiplicative => 6
  | power => 7
  | unary => 8
  | call => 9
  | primary => 10

def tighter : Level → Level
  | comparison => bitOr
  | bitOr => bitXor
  | bitXor => bitAnd
  | bitAnd => shift
  | shift => additive
  | additive => multiplicative
  | multiplicative => power
  | power => unary
  | unary => call
  | call => primary
  | primary => primary

def Folds (level : Level) : Prop := level.tightness < power.tightness

instance (level : Level) : Decidable level.Folds := Nat.decLt _ _

end Level

def BinaryOp.level : BinaryOp → Level
  | .equal | .notEqual | .less | .greater | .lessEqual | .greaterEqual => .comparison
  | .bitOr => .bitOr
  | .bitXor => .bitXor
  | .bitAnd => .bitAnd
  | .shiftLeft | .shiftRight => .shift
  | .add | .sub => .additive
  | .mul | .div => .multiplicative
  | .pow => .power

/-- A token with which an expression of a level would go on: an operator between operands of this
level or of a tighter one, or the parenthesis of a call. -/
def Level.Continues (level : Level) (kind : Kind) : Prop :=
  (kind = .leftParen ∧ level ≠ .primary) ∨
    ∃ op, kind = .operator op ∧ level.tightness ≤ op.level.tightness

namespace Token

/-- The value of a literal. Where the text cannot be read, any value will do: no tree is built. -/
def intValue (token : Token) : Int64 := (readInt64? token.text.toList).getD 0

def floatValue (token : Token) : Float := (readFloat? token.text.toList).getD 0

def Reads (token : Token) : Prop :=
  (token.kind = .number → (readInt64? token.text.toList).isSome) ∧
    (token.kind = .decimal → (readFloat? token.text.toList).isSome)

theorem reads_of_kind {token : Token} (integral : token.kind ≠ .number)
    (decimal : token.kind ≠ .decimal) : token.Reads :=
  ⟨fun kind => absurd kind integral, fun kind => absurd kind decimal⟩

end Token

inductive CommaList {α : Type} (item : List Token → α → Prop) : List Token → List α → Prop
  | nil : CommaList item [] []
  | one {tokens : List Token} {value : α} (first : item tokens value) :
      CommaList item tokens [value]
  | more {comma : Token} {tokens rest : List Token} {value : α} {values : List α}
      (first : item tokens value) (separator : comma.kind = .comma)
      (others : CommaList item rest values) (nonempty : values ≠ []) :
      CommaList item (tokens ++ comma :: rest) (value :: values)

inductive Linked (operand : Level → List Token → Expr → Prop) :
    Level → List Token → List Link → Prop
  | nil {level : Level} : Linked operand level [] []
  | cons {level : Level} {word : Token} {op : BinaryOp} {tokens rest : List Token} {right : Expr}
      {links : List Link} (operator : word.kind = .operator op) (own : op.level = level)
      (first : operand level.tighter tokens right) (others : Linked operand op.level rest links) :
      Linked operand level (word :: (tokens ++ rest)) (⟨op, right, word.pos⟩ :: links)

section Parts

variable {α : Type} {item item' : List Token → α → Prop} {tokens : List Token} {values : List α}
  {operand operand' : Level → List Token → Expr → Prop} {level : Level} {links : List Link}
  {property : Token → Prop}

theorem CommaList.mono (list : CommaList item tokens values)
    (weaker : ∀ tokens value, item tokens value → item' tokens value) :
    CommaList item' tokens values := by
  induction list with
  | nil => exact .nil
  | one first => exact .one (weaker _ _ first)
  | more first separator _ nonempty ih => exact .more (weaker _ _ first) separator ih nonempty

theorem CommaList.all (list : CommaList item tokens values)
    (commas : ∀ token, token.kind = .comma → property token)
    (items : ∀ tokens value, item tokens value → ∀ token ∈ tokens, property token) :
    ∀ token ∈ tokens, property token := by
  induction list with
  | nil => exact fun _ member => absurd member List.not_mem_nil
  | one first => exact items _ _ first
  | more first separator _ _ ih =>
    simp only [List.forall_mem_cons, List.forall_mem_append]
    exact ⟨items _ _ first, commas _ separator, ih⟩

theorem Linked.mono (linked : Linked operand level tokens links)
    (weaker : ∀ level tokens tree, operand level tokens tree → operand' level tokens tree) :
    Linked operand' level tokens links := by
  induction linked with
  | nil => exact .nil
  | cons operator own first _ ih => exact .cons operator own (weaker _ _ _ first) ih

theorem Linked.all (linked : Linked operand level tokens links)
    (operators : ∀ token op, token.kind = .operator op → property token)
    (operands : ∀ level tokens tree, operand level tokens tree →
      ∀ token ∈ tokens, property token) :
    ∀ token ∈ tokens, property token := by
  induction linked with
  | nil => exact fun _ member => absurd member List.not_mem_nil
  | cons operator _ first _ ih =>
    simp only [List.forall_mem_cons, List.forall_mem_append]
    exact ⟨operators _ _ operator, operands _ _ _ first, ih⟩

end Parts

/-- What may be called: which tokens, and which of them is the name. -/
abbrev Callees := List Token → Token → Prop

inductive Plain : Callees
  | name {name : Token} (kind : name.kind = .identifier) : Plain [name] name

inductive Enclosed : Callees
  | name {name : Token} (kind : name.kind = .identifier) : Enclosed [name] name
  | parens {opening closing name : Token} {tokens : List Token}
      (opens : opening.kind = .leftParen) (inner : Enclosed tokens name)
      (closes : closing.kind = .rightParen) : Enclosed (opening :: tokens ++ [closing]) name

/-- The expressions of the levels. Parentheses leave no trace in the tree, nor does a level without
an operator. -/
inductive Derives (callees : Callees) : Level → List Token → Expr → Prop
  | tighter {level : Level} {tokens : List Token} {tree : Expr} (proper : level ≠ .primary)
      (inner : Derives callees level.tighter tokens tree) : Derives callees level tokens tree
  | fold {level : Level} {tokens rest : List Token} {first : Expr} {links : List Link}
      (folds : level.Folds) (operand : Derives callees level.tighter tokens first)
      (others : Linked (Derives callees) level rest links) (nonempty : links ≠ []) :
      Derives callees level (tokens ++ rest) (.chain first links)
  | power {word : Token} {tokens rest : List Token} {base exponent : Expr}
      (left : Derives callees .unary tokens base) (operator : word.kind = .operator .pow)
      (right : Derives callees .power rest exponent) :
      Derives callees .power (tokens ++ word :: rest) (.chain base [⟨.pow, exponent, word.pos⟩])
  | negate {word : Token} {tokens : List Token} {operand : Expr}
      (operator : word.kind = .operator .sub) (inner : Derives callees .unary tokens operand) :
      Derives callees .unary (word :: tokens) (.negate operand word.pos)
  | call {name opening closing : Token} {front tokens : List Token} {arguments : List Expr}
      (callee : callees front name) (opens : opening.kind = .leftParen)
      (inner : CommaList (Derives callees .comparison) tokens arguments)
      (closes : closing.kind = .rightParen) :
      Derives callees .call (front ++ opening :: (tokens ++ [closing]))
        (.call name.text arguments name.pos)
  | number {word : Token} (kind : word.kind = .number) :
      Derives callees .primary [word] (.number (.int word.intValue) false word.pos)
  | decimal {word : Token} (kind : word.kind = .decimal) :
      Derives callees .primary [word] (.number (.float word.floatValue) false word.pos)
  | name {word : Token} (kind : word.kind = .identifier) :
      Derives callees .primary [word] (.name word.text word.pos)
  | parens {opening closing : Token} {tokens : List Token} {tree : Expr}
      (opens : opening.kind = .leftParen) (inner : Derives callees .comparison tokens tree)
      (closes : closing.kind = .rightParen) :
      Derives callees .primary (opening :: (tokens ++ [closing])) tree

/-- Tokens that derive a tree, and all of whose literals can be read. -/
def Level.Stands (level : Level) (tokens : List Token) (tree : Expr) : Prop :=
  Derives Enclosed level tokens tree ∧ ∀ token ∈ tokens, token.Reads

theorem Derives.induct {callees : Callees} (motive : Level → List Token → Expr → Prop)
    (tighter : ∀ {level tokens tree}, level ≠ .primary → motive level.tighter tokens tree →
      motive level tokens tree)
    (fold : ∀ {level tokens rest first links}, level.Folds → motive level.tighter tokens first →
      Linked motive level rest links → links ≠ [] →
        motive level (tokens ++ rest) (.chain first links))
    (power : ∀ {word tokens rest base exponent}, motive .unary tokens base →
      word.kind = .operator .pow → motive .power rest exponent →
        motive .power (tokens ++ word :: rest) (.chain base [⟨.pow, exponent, word.pos⟩]))
    (negate : ∀ {word tokens operand}, word.kind = .operator .sub → motive .unary tokens operand →
      motive .unary (word :: tokens) (.negate operand word.pos))
    (call : ∀ {name opening closing front tokens arguments}, callees front name →
      opening.kind = .leftParen → CommaList (motive .comparison) tokens arguments →
        closing.kind = .rightParen → motive .call (front ++ opening :: (tokens ++ [closing]))
          (.call name.text arguments name.pos))
    (number : ∀ {word}, word.kind = .number →
      motive .primary [word] (.number (.int word.intValue) false word.pos))
    (decimal : ∀ {word}, word.kind = .decimal →
      motive .primary [word] (.number (.float word.floatValue) false word.pos))
    (name : ∀ {word}, word.kind = .identifier → motive .primary [word] (.name word.text word.pos))
    (parens : ∀ {opening closing tokens tree}, opening.kind = .leftParen →
      motive .comparison tokens tree → closing.kind = .rightParen →
        motive .primary (opening :: (tokens ++ [closing])) tree)
    {level : Level} {tokens : List Token} {tree : Expr}
    (derives : Derives callees level tokens tree) : motive level tokens tree :=
  @Derives.rec callees (fun level tokens tree _ => motive level tokens tree)
    (fun level tokens links _ => Linked motive level tokens links)
    (fun tokens trees _ => CommaList (motive .comparison) tokens trees)
    (fun proper _ inner => tighter proper inner)
    (fun folds _ _ nonempty operand others => fold folds operand others nonempty)
    (fun _ operator _ left right => power left operator right)
    (fun operator _ inner => negate operator inner)
    (fun callee opens _ closes inner => call callee opens inner closes)
    number decimal name
    (fun opens _ closes inner => parens opens inner closes)
    .nil (fun operator own _ _ first others => .cons operator own first others)
    .nil (fun _ first => .one first)
    (fun _ separator _ nonempty first others => .more first separator others nonempty)
    level tokens tree derives

end Calculator
