import Calculator.Lexer.Standard
import Calculator.Proofs.Lexer.Outcome

/-!
Tokens tile a source. However often a lexer is asked for the next token, what it yields are the
words of the source in their order, with nothing but blanks between them, and then one last result
again and again.
-/

namespace Calculator

namespace Lexer

def draws (lexer : Lexer) : Nat → Scan → List (Except LexError Token) × Scan
  | 0, scan => ([], scan)
  | n + 1, scan =>
      let (result, after) := lexer.next scan
      let (later, last) := lexer.draws n after
      (result :: later, last)

def Blanks (lexer : Lexer) (gap : List Char) : Prop :=
  if lexer.skipsBlanks then ∀ c ∈ gap, isBlank c else gap = []

end Lexer

structure Piece where
  gap : List Char
  token : Token

def Piece.text (piece : Piece) : List Char := piece.gap ++ piece.token.text.toList

def tiling (pieces : List Piece) : List Char := pieces.flatMap Piece.text

/-- The text at a place consists of pieces, of further blanks and of a rest. Each token is a word
and stands where its position says. -/
structure Tiles (lexer : Lexer) (scan : Scan) (pieces : List Piece) (gap rest : List Char) :
    Prop where
  whole : scan.rest = tiling pieces ++ (gap ++ rest)
  blanks : ∀ piece ∈ pieces, lexer.Blanks piece.gap
  last : lexer.Blanks gap
  words : ∀ piece ∈ pieces, piece.token.text ≠ "" ∧ piece.token.kind ≠ .endOfInput
  places : ∀ front piece back, pieces = front ++ piece :: back →
    piece.token.pos = scan.pos + byteCount (tiling front ++ piece.gap)

inductive Final (endPos : Nat) (rest : List Char) (pos : Nat) : Except LexError Token → Prop
  | ended (nothing : rest = []) : Final endPos rest pos (.ok (.atEnd endPos))
  | noMatch (more : rest ≠ []) :
      Final endPos rest pos (.error (.noMatch (String.ofList (rest.take 10)) pos))
  | unclassified {word : List Char} (more : rest ≠ []) (begins : word <+: rest) :
      Final endPos rest pos (.error (.unclassified (String.ofList word) pos))

def results (pieces : List Piece) : List (Except LexError Token) :=
  pieces.map fun piece => .ok piece.token

def closing : Except LexError Token → List (Except LexError Token)
  | .ok _ => []
  | .error error => [.error error]

def upTo {α : Type} : Option Nat → List α → List α
  | none, items => items
  | some limit, items => items.take limit

/-- Pieces of the text at a place and a last result are what drawing from there gives: one token
after the other and then the last result for ever. An iteration gives an error once and no end
token. -/
structure Drawing (lexer : Lexer) (scan : Scan) (pieces : List Piece) (gap rest : List Char)
    (last : Except LexError Token) : Prop where
  tiles : Tiles lexer scan pieces gap rest
  final : Final scan.endPos rest (scan.pos + byteCount (tiling pieces ++ gap)) last
  drawn : ∀ n, (lexer.draws n scan).1 =
    (results pieces).take n ++ List.replicate (n - pieces.length) last
  iterated : ∀ limit, (lexer.draw limit scan).items = upTo limit (results pieces ++ closing last)

section Bytes

theorem byteCount_eq (text : List Char) : byteCount text = (String.ofList text).utf8ByteSize := by
  induction text with
  | nil => rfl
  | cons c text ih =>
    have split : String.ofList (c :: text) = String.singleton c ++ String.ofList text := by
      rw [String.singleton_eq_ofList, ← String.ofList_append]
      rfl
    rw [split, String.utf8ByteSize_append, String.utf8ByteSize_singleton, byteCount, ih]

theorem byteCount_pos {text : List Char} (nonempty : text ≠ []) : 0 < byteCount text := by
  rcases List.exists_cons_of_ne_nil nonempty with ⟨c, rest, rfl⟩
  have size := c.utf8Size_pos
  rw [byteCount]
  omega

theorem byteCount_toList (text : String) : byteCount text.toList = text.utf8ByteSize := by
  rw [byteCount_eq, String.ofList_toList]

theorem Scan.endPos_start (source : String) : (Scan.start source).endPos = source.utf8ByteSize := by
  rw [Scan.endPos, Scan.start, byteCount_toList, Nat.zero_add]

theorem isValid_byteCount {source : String} {front : List Char} (back : List Char)
    (whole : source.toList = front ++ back) :
    String.Pos.Raw.IsValid source ⟨byteCount front⟩ := by
  rw [String.Pos.Raw.isValid_iff_exists_append]
  refine ⟨String.ofList front, String.ofList back, ?_, ?_⟩
  · rw [← String.ofList_append, ← whole, String.ofList_toList]
  · rw [byteCount_eq]
    rfl

end Bytes

section Places

variable {lexer : Lexer} {scan : Scan}

theorem tiling_cons (piece : Piece) (pieces : List Piece) :
    tiling (piece :: pieces) = piece.text ++ tiling pieces := List.flatMap_cons

theorem tiling_append (front back : List Piece) :
    tiling (front ++ back) = tiling front ++ tiling back := List.flatMap_append

theorem byteCount_tiling_cons (piece : Piece) (pieces : List Piece) :
    byteCount (tiling (piece :: pieces)) =
      byteCount piece.gap + byteCount piece.token.text.toList + byteCount (tiling pieces) := by
  rw [tiling_cons, Piece.text, byteCount_append, byteCount_append]

theorem skip_spec (lexer : Lexer) (scan : Scan) :
    ∃ gap, scan.rest = gap ++ (lexer.skip scan).rest ∧
      (lexer.skip scan).pos = scan.pos + byteCount gap ∧ lexer.Blanks gap := by
  unfold Lexer.skip Lexer.Blanks
  split
  · refine ⟨scan.rest.takeWhile isBlank, List.takeWhile_append_dropWhile.symm, rfl, ?_⟩
    exact fun c taken => List.mem_takeWhile_imp taken
  · exact ⟨[], rfl, rfl, rfl⟩

theorem draws_again {result : Except LexError Token}
    (stays : lexer.next scan = (result, lexer.skip scan)) (n : Nat) :
    lexer.draws n (lexer.skip scan) = (List.replicate n result, lexer.skip scan) := by
  have again : lexer.next (lexer.skip scan) = (result, lexer.skip scan) := by
    rw [Lexer.next_skip, stays]
  induction n with
  | zero => rfl
  | succ n ih =>
    rw [Lexer.draws, again, List.replicate_succ]
    simp only [ih]

theorem Tiles.nil {gap rest : List Char} (whole : scan.rest = gap ++ rest)
    (blanks : lexer.Blanks gap) : Tiles lexer scan [] gap rest where
  whole := whole
  blanks := fun _ member => absurd member List.not_mem_nil
  last := blanks
  words := fun _ member => absurd member List.not_mem_nil
  places := fun front piece back same => by simp at same

theorem Tiles.cons {blank word tail gap rest : List Char} {kind : Kind} {pieces : List Piece}
    {pos : Nat} (text : scan.rest = blank ++ (word ++ tail)) (blanks : lexer.Blanks blank)
    (nonempty : word ≠ []) (real : kind ≠ .endOfInput) (place : pos = scan.pos + byteCount blank)
    (tiles : Tiles lexer ⟨tail, pos + byteCount word⟩ pieces gap rest) :
    Tiles lexer scan (⟨blank, ⟨kind, String.ofList word, pos⟩⟩ :: pieces) gap rest where
  whole := by
    rw [text, tiling_cons, Piece.text, String.toList_ofList, List.append_assoc, List.append_assoc,
      ← tiles.whole]
  blanks := List.forall_mem_cons.mpr ⟨blanks, tiles.blanks⟩
  last := tiles.last
  words := by
    refine List.forall_mem_cons.mpr ⟨⟨?_, real⟩, tiles.words⟩
    intro empty
    have letters := congrArg String.toList empty
    rw [String.toList_ofList] at letters
    exact nonempty letters
  places := by
    intro front piece back same
    cases front with
    | nil =>
      obtain ⟨rfl, rfl⟩ := List.cons.inj same
      exact place
    | cons first front =>
      obtain ⟨rfl, later⟩ := List.cons.inj same
      rw [tiles.places front piece back later, place]
      simp only [byteCount_append, byteCount_tiling_cons, String.toList_ofList]
      omega

theorem length_le_tiling {pieces : List Piece} (words : ∀ piece ∈ pieces, piece.token.text ≠ "") :
    pieces.length ≤ byteCount (tiling pieces) := by
  induction pieces with
  | nil => exact Nat.zero_le _
  | cons piece pieces ih =>
    obtain ⟨nonempty, later⟩ := List.forall_mem_cons.mp words
    have bytes : 0 < byteCount piece.token.text.toList := by
      rw [byteCount_toList]
      exact Nat.pos_of_ne_zero fun empty => nonempty (String.utf8ByteSize_eq_zero_iff.mp empty)
    have others := ih later
    rw [List.length_cons, byteCount_tiling_cons]
    omega

end Places

section Draws

variable {lexer : Lexer} {scan : Scan}

theorem draw_items {limit : Option Nat} (more : limit ≠ some 0) :
    (lexer.draw limit scan).items = match lexer.next scan with
      | (.error error, _) => [.error error]
      | (.ok token, after) =>
          if token.kind = .endOfInput then []
          else .ok token :: (lexer.draw (limit.map (· - 1)) after).items := by
  rw [Lexer.draw, if_neg more, Lexer.next]
  rcases lexer.cut? scan with error | _ | found
  · rfl
  · rfl
  · simp only
    split
    · rfl
    · rfl

theorem draw_zero : (lexer.draw (some 0) scan).items = [] := by
  rw [Lexer.draw, if_pos rfl]

theorem Drawing.stop {gap rest : List Char} {last : Except LexError Token}
    (stays : lexer.next scan = (last, lexer.skip scan)) (tiles : Tiles lexer scan [] gap rest)
    (final : Final scan.endPos rest (scan.pos + byteCount gap) last) :
    Drawing lexer scan [] gap rest last where
  tiles := tiles
  final := final
  drawn n := by
    cases n with
    | zero => rfl
    | succ n =>
      rw [Lexer.draws, stays]
      simp only [draws_again stays n, ← List.replicate_succ]
      rfl
  iterated limit := by
    have goes_on : ∀ limit, limit ≠ some 0 → (lexer.draw limit scan).items = closing last := by
      intro limit more
      rw [draw_items more, stays]
      cases final with
      | ended => rfl
      | noMatch => rfl
      | unclassified => rfl
    rcases limit with _ | _ | n
    · exact goes_on none (by simp)
    · exact draw_zero
    · rw [goes_on (some (n + 1)) (by simp)]
      cases last with
      | ok token => rfl
      | error error => simp [upTo, closing, results]

theorem Drawing.cons {blank word tail gap rest : List Char} {kind : Kind} {pieces : List Piece}
    {last : Except LexError Token} {pos : Nat}
    (next : lexer.next scan = (.ok ⟨kind, String.ofList word, pos⟩, ⟨tail, pos + byteCount word⟩))
    (text : scan.rest = blank ++ (word ++ tail)) (blanks : lexer.Blanks blank)
    (nonempty : word ≠ []) (real : kind ≠ .endOfInput) (place : pos = scan.pos + byteCount blank)
    (later : Drawing lexer ⟨tail, pos + byteCount word⟩ pieces gap rest last) :
    Drawing lexer scan (⟨blank, ⟨kind, String.ofList word, pos⟩⟩ :: pieces) gap rest last where
  tiles := later.tiles.cons text blanks nonempty real place
  final := by
    have stop : (⟨tail, pos + byteCount word⟩ : Scan).endPos = scan.endPos := by
      simp only [Scan.endPos, text, place, byteCount_append]
      omega
    have offset : pos + byteCount word + byteCount (tiling pieces ++ gap) = scan.pos +
        byteCount (tiling (⟨blank, ⟨kind, String.ofList word, pos⟩⟩ :: pieces) ++ gap) := by
      rw [place]
      simp only [byteCount_append, byteCount_tiling_cons, String.toList_ofList]
      omega
    have final := later.final
    rw [stop] at final
    rw [← offset]
    exact final
  drawn n := by
    cases n with
    | zero => rw [Nat.zero_sub]; rfl
    | succ n =>
      rw [Lexer.draws, next]
      simp only [later.drawn n, results, List.map_cons, List.take_succ_cons, List.cons_append,
        List.length_cons, Nat.add_sub_add_right]
  iterated limit := by
    have goes_on : ∀ limit, limit ≠ some 0 → (lexer.draw limit scan).items =
        .ok ⟨kind, String.ofList word, pos⟩ ::
          upTo (limit.map (· - 1)) (results pieces ++ closing last) := by
      intro limit more
      rw [draw_items more, next]
      simp only [if_neg real, later.iterated]
    rcases limit with _ | _ | n
    · exact goes_on none (by simp)
    · exact draw_zero
    · exact goes_on (some (n + 1)) (by simp)

end Draws

theorem classify_mem {lexer : Lexer} {word : List Char} {kind : Kind}
    (known : lexer.classify word = some kind) : ∃ rule ∈ lexer.rules, rule.kind = kind := by
  obtain ⟨rule, first, same⟩ := Option.map_eq_some_iff.mp known
  exact ⟨rule, List.mem_of_find?_eq_some first, same⟩

theorem exists_drawing {lexer : Lexer} (regular : ∀ rule ∈ lexer.rules, rule.kind ≠ .endOfInput)
    (scan : Scan) : ∃ pieces gap rest last, Drawing lexer scan pieces gap rest last := by
  induction length : scan.rest.length using Nat.strong_induction_on generalizing scan with
  | _ size ih =>
  obtain ⟨blank, text, place, blanks⟩ := skip_spec lexer scan
  have outcome := lexer.next_outcome scan
  generalize next : lexer.next scan = drawn at outcome
  obtain ⟨result, after⟩ := drawn
  have nothing_taken := Tiles.nil text blanks
  cases outcome with
  | ended nothing =>
    have stop : (lexer.skip scan).pos = scan.endPos := by
      rw [← Lexer.endPos_skip lexer scan, Scan.endPos, nothing, byteCount, Nat.add_zero]
    rw [stop] at next
    exact ⟨[], blank, _, _, .stop next nothing_taken (.ended nothing)⟩
  | noMatch more =>
    rw [place] at next
    exact ⟨[], blank, _, _, .stop next nothing_taken (.noMatch more)⟩
  | unclassified begins nonempty =>
    rw [place] at next
    have more : (lexer.skip scan).rest ≠ [] := by
      rw [begins]
      exact List.append_ne_nil_of_left_ne_nil nonempty _
    exact ⟨[], blank, _, _, .stop next nothing_taken (.unclassified more ⟨_, begins.symm⟩)⟩
  | @token word tail kind begins nonempty _ known =>
    -- A word is not empty, so that fewer characters are left behind it.
    obtain ⟨rule, member, rfl⟩ := classify_mem known
    rw [begins] at text
    have shorter : tail.length < size := by
      have letters := List.length_pos_iff.mpr nonempty
      rw [← length, text]
      simp only [List.length_append]
      omega
    obtain ⟨pieces, gap, rest, last, later⟩ := ih tail.length shorter ⟨tail, _⟩ rfl
    exact ⟨_, gap, rest, last, later.cons next text blanks nonempty (regular rule member) place⟩

section Cuts

variable {lexer : Lexer} {scan : Scan} {pieces : List Piece} {gap rest : List Char}

theorem Tiles.stands (tiles : Tiles lexer scan pieces gap rest) {piece : Piece}
    (member : piece ∈ pieces) :
    ∃ before behind, scan.rest = before ++ (piece.token.text.toList ++ behind) ∧
      piece.token.pos = scan.pos + byteCount before := by
  obtain ⟨front, back, split⟩ := List.append_of_mem member
  refine ⟨tiling front ++ piece.gap, tiling back ++ (gap ++ rest), ?_, ?_⟩
  · rw [tiles.whole, split, tiling_append, tiling_cons, Piece.text]
    simp only [List.append_assoc]
  · exact tiles.places front piece back split

end Cuts

section Tables

open Lexer

theorem readTable_kinds {firstGroup : Nat} {table : List (String × Kind)}
    {rules : List (List Pattern.Reading × Kind)} (read : readTable firstGroup table = .ok rules) :
    rules.map Prod.snd = table.map Prod.snd := by
  induction table generalizing firstGroup rules with
  | nil => cases read; rfl
  | cons entry table ih =>
    obtain ⟨text, kind⟩ := entry
    rw [readTable] at read
    split at read
    · cases read
    · split at read
      · cases read
      · cases later : readTable (firstGroup + text.length) table with
        | error error =>
          rw [later] at read
          cases read
        | ok others =>
          rw [later] at read
          cases read
          rw [List.map_cons, List.map_cons, ih later]

theorem ofTable_kinds {table : List (String × Kind)} {skipsBlanks : Bool} {lexer : Lexer}
    (built : ofTable table skipsBlanks = .ok lexer) :
    lexer.rules.map Rule.kind = table.map Prod.snd := by
  unfold ofTable at built
  cases read : readTable 0 table with
  | error error =>
    rw [read] at built
    cases built
  | ok rules =>
    rw [read] at built
    simp only [Bind.bind, Except.bind] at built
    split at built
    · cases built
    · cases built
      rw [← readTable_kinds read, List.map_map]
      rfl

theorem ofTable_regular {table : List (String × Kind)} {skipsBlanks : Bool} {lexer : Lexer}
    (built : ofTable table skipsBlanks = .ok lexer)
    (regular : ∀ kind ∈ table.map Prod.snd, kind ≠ .endOfInput) :
    ∀ rule ∈ lexer.rules, rule.kind ≠ .endOfInput := by
  intro rule member
  refine regular rule.kind ?_
  rw [← ofTable_kinds built]
  exact List.mem_map_of_mem member

end Tables

/-- Drawn tokens tile the source. They are its words one after the other, with nothing but blanks
between them; the drawing comes to an end exactly where it cannot go on, and stays there. -/
theorem tokens_tile {lexer : Lexer} (regular : ∀ rule ∈ lexer.rules, rule.kind ≠ .endOfInput)
    (source : String) :
    ∃ pieces gap rest last, Drawing lexer (.start source) pieces gap rest last ∧
      pieces.length ≤ source.utf8ByteSize ∧
      (∀ piece ∈ pieces, String.Pos.Raw.IsValid source ⟨piece.token.pos⟩ ∧
        String.Pos.Raw.IsValid source ⟨piece.token.pos + piece.token.text.utf8ByteSize⟩) ∧
      String.Pos.Raw.IsValid source ⟨byteCount (tiling pieces ++ gap)⟩ := by
  obtain ⟨pieces, gap, rest, last, drawing⟩ := exists_drawing regular (.start source)
  have tiles := drawing.tiles
  refine ⟨pieces, gap, rest, last, drawing, ?count, ?cuts, ?stop⟩
  case count =>
    have bytes := length_le_tiling fun piece member => (tiles.words piece member).1
    have whole : source.toList = tiling pieces ++ (gap ++ rest) := tiles.whole
    rw [← byteCount_toList, whole, byteCount_append]
    omega
  case cuts =>
    intro piece member
    obtain ⟨before, behind, whole, place⟩ := tiles.stands member
    have begin : piece.token.pos = byteCount before := by rw [place, Scan.start, Nat.zero_add]
    constructor
    · rw [begin]
      exact isValid_byteCount _ whole
    · rw [begin, ← byteCount_toList, ← byteCount_append]
      refine isValid_byteCount behind ?_
      rw [List.append_assoc]
      exact whole
  case stop =>
    refine isValid_byteCount rest ?_
    rw [List.append_assoc]
    exact tiles.whole

theorem accents_tile : ∃ lexer, Lexer.ofTable [("é+", .identifier), ("[0-9]+|", .number)] true =
      .ok lexer ∧ (∀ rule ∈ lexer.rules, rule.kind ≠ .endOfInput) ∧
    ∃ pieces gap rest last, Drawing lexer (.start "éé 1!") pieces gap rest last ∧
      pieces.length ≤ "éé 1!".utf8ByteSize ∧
      (∀ piece ∈ pieces, String.Pos.Raw.IsValid "éé 1!" ⟨piece.token.pos⟩ ∧
        String.Pos.Raw.IsValid "éé 1!" ⟨piece.token.pos + piece.token.text.utf8ByteSize⟩) ∧
      String.Pos.Raw.IsValid "éé 1!" ⟨byteCount (tiling pieces ++ gap)⟩ := by
  have compiles : (Lexer.ofTable [("é+", .identifier), ("[0-9]+|", .number)] true).isOk = true := by
    decide
  cases built : Lexer.ofTable [("é+", .identifier), ("[0-9]+|", .number)] true with
  | error error =>
    rw [built] at compiles
    cases compiles
  | ok lexer =>
    have regular := ofTable_regular built (by decide)
    exact ⟨lexer, rfl, regular, tokens_tile regular "éé 1!"⟩

end Calculator
