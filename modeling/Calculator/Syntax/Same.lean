import Calculator.Syntax.Basic

/-!
Equality of trees, positions included. Literals are compared as numbers, so that both zeros of
floating-point numbers are the same.
-/

namespace Calculator

mutual

def Expr.same : Expr → Expr → Bool
  | .number a fixed p, .number b fixed' q => a.same b && fixed == fixed' && p == q
  | .name a p, .name b q => a == b && p == q
  | .negate a p, .negate b q => a.same b && p == q
  | .chain a links, .chain b links' => a.same b && sameLinks links links'
  | .call a arguments p, .call b arguments' q =>
      a == b && sameExprs arguments arguments' && p == q
  | _, _ => false

def sameLinks : List Link → List Link → Bool
  | [], [] => true
  | ⟨op, a, p⟩ :: links, ⟨op', b, q⟩ :: links' =>
      op == op' && a.same b && p == q && sameLinks links links'
  | _, _ => false

def sameExprs : List Expr → List Expr → Bool
  | [], [] => true
  | a :: exprs, b :: exprs' => a.same b && sameExprs exprs exprs'
  | _, _ => false

end

mutual

def Statement.same : Statement → Statement → Bool
  | .assign a declared e p, .assign b declared' f q =>
      a == b && declared == declared' && e.same f && p == q
  | .define f, .define g => f.same g
  | .block a, .block b => a.same b
  | .ifThen c s p, .ifThen d t q => c.same d && s.same t && p == q
  | .ifElse c s s' p, .ifElse d t t' q => c.same d && s.same t && s'.same t' && p == q
  | .print e p, .print f q => e.same f && p == q
  | .reset p, .reset q => p == q
  | .expression e, .expression f => e.same f
  | _, _ => false

def Block.same : Block → Block → Bool
  | ⟨statements, p⟩, ⟨statements', q⟩ => sameStatements statements statements' && p == q

def Definition.same : Definition → Definition → Bool
  | ⟨a, params, body, p⟩, ⟨b, params', body', q⟩ =>
      a == b && params == params' && body.same body' && p == q

def sameStatements : List Statement → List Statement → Bool
  | [], [] => true
  | s :: statements, t :: statements' => s.same t && sameStatements statements statements'
  | _, _ => false

end

end Calculator
