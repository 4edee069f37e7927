import Calculator.Grammar.Expression

/-!
The grammar of statements and programs.

  program    := list of statements up to the end of input
  block      := "{" list of statements "}"
  assignment := ("set" | TYPE) IDENTIFIER "=" expression
  condition  := "if" expression "then" statement ("else" statement)?
  definition := "func" IDENTIFIER "(" (IDENTIFIER ("," IDENTIFIER)*)? ")" block
  output     := "print" expression
  reset      := "reset"

A list has separators, line breaks or semicolons, between its statements and any number of them
around it; after a statement that ends in a brace none is needed.
-/

namespace Calculator

namespace Parser

def skipSeparators : (room : List Token) → Parser Unit
  | [] => return ()
  | _ :: room => do
      if (← kind).isSeparator then
        discard advance
        skipSeparators room

def separator : Parser Unit := do
  if (← previous) ≠ some .rightBrace then discard (expectOneOf [.newline, .semicolon])
  within skipSeparators

def statementsUntil (terminator : Kind) (statement : Parser Statement) :
    (room : List Token) → Parser (List Statement)
  | [] => do
      if (← kind) = terminator then return []
      else unexpected (.anyOf [terminator])
  | _ :: room => do
      if (← kind) = terminator then return []
      else if (← kind) = .endOfInput then unexpected (.anyOf [terminator])
      else
        let first ← statement
        if (← kind) = terminator then return [first]
        else
          separator
          return first :: (← statementsUntil terminator statement room)

def statementList (terminator : Kind) (statement : Parser Statement) : Parser (List Statement) := do
  within skipSeparators
  within (statementsUntil terminator statement)

def blockWith (nested : Parser Statement) : Parser Block := do
  let pos := (← expect .leftBrace).pos
  let statements ← statementList .rightBrace nested
  discard (expect .rightBrace)
  return ⟨statements, pos⟩

def declaration (word : Token) : Parser (Option NumberType) :=
  if word.kind = .typeWord then
    match NumberType.ofName? word.text with
    | some type => return some type
    | none => fail (.unexpected (.phrase "'int' or 'float'") word.kind word.pos)
  else return none

def assignment : Parser Statement := do
  let word ← advance
  let declared ← declaration word
  let name ← identifier
  discard (expect .assign)
  return .assign name declared (← expression) word.pos

/-- An alternative belongs to the nearest condition that has none yet. -/
def conditionWith (nested : Parser Statement) : Parser Statement := do
  let pos := (← advance).pos
  let condition ← expression
  let next ← current
  if next.kind = .keyword .thenWord then
    discard advance
    let consequence ← nested
    if (← kind) = .keyword .elseWord then
      discard advance
      return .ifElse condition consequence (← nested) pos
    else return .ifThen condition consequence pos
  else fail (.missingThen next.kind next.pos)

def definitionWith (nested : Parser Statement) : Parser Statement := do
  let pos := (← advance).pos
  let name ← identifier
  discard (expect .leftParen)
  let params ← commaSeparated identifier .rightParen
  return .define ⟨name, params, ← blockWith nested, pos⟩

def statementWith (nested : Parser Statement) : Parser Statement := do
  match ← kind with
  | .keyword .setWord | .typeWord => assignment
  | .keyword .ifWord => conditionWith nested
  | .keyword .funcWord => definitionWith nested
  | .keyword .printWord =>
      let pos := (← advance).pos
      return .print (← expression) pos
  | .keyword .resetWord => return .reset (← advance).pos
  | .leftBrace => return .block (← blockWith nested)
  | _ => return .expression (← expression)

/-- A statement inside another. The room is what was left in front of the outer one, so at least one
token less is left. -/
def nestedStatement : (room : List Token) → Parser Statement
  | [], stream => unexpected (.phrase "expression") stream
  | _ :: room, stream => statementWith (nestedStatement room) stream

def statement : Parser Statement := within fun room => statementWith (nestedStatement room)

def block : Parser Block := blockWith statement

def program : Parser Program := statementList .endOfInput statement

end Parser

def Program.parse (lexer : Lexer) (source : String) : Except ParseError Program :=
  match Stream.ofSource lexer source with
  | .ok stream => (Parser.program.run stream).1
  | .error error => .error (.lexical error)

end Calculator
