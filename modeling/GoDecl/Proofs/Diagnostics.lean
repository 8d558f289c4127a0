import GoDecl.Proofs.Faults.Expressions

/-! What a failed reading shows. Places are counted in the normal form and shown in the source; both
have the same lines, so an error points at a line that the source has. -/
namespace GoDecl

open Grammar Source Text Token

/-- The error points at a line and a column of a source and shows the line, with a mark below. -/
structure ParseError.PointsAt (source : List Char) (line column : Nat) (e : ParseError) : Prop where
  location : e.location = some ⟨"input.go", line, column⟩
  fromFirst : 1 ≤ line ∧ 1 ≤ column
  toLast : line ≤ (lines source).length
  shown : ∃ text, (lines source)[line - 1]? = some text ∧
    e.snippet = some (.ofList (text ++ '\n' :: List.replicate (column - 1) ' ' ++ ['^']))

/-- A place in the normal form of a source, inside the normal form of a piece. Its line is counted
by the newlines that the source has in front of the piece and by those in the piece. -/
def Source.PlacedIn (source : List Char) (p : Position) : Prop :=
  ∃ front piece back part, pieces source = front ++ piece :: back ∧ part <+: piece.normal ∧
    part.length < piece.normal.length ∧
    p = ({} : Position).after (front.flatMap Piece.normal ++ part) ∧
    p.line = 1 + newlines (front.flatMap Piece.text) + newlines part

/-- A character of things written one after the other is one of some thing among them. -/
theorem exists_of_flatMap_eq {α : Type} {write : α → List Char} {things : List α}
    {before after : List Char} {c : Char} (whole : things.flatMap write = before ++ c :: after) :
    ∃ front thing back part, things = front ++ thing :: back ∧
      before = front.flatMap write ++ part ∧ part <+: write thing ∧
      part.length < (write thing).length := by
  induction things generalizing before with
  | nil => simp at whole
  | cons thing things ih =>
    rw [List.flatMap_cons, List.append_eq_append_iff] at whole
    rcases whole with ⟨more, split, later⟩ | ⟨rest, split, here⟩
    · obtain ⟨front, found, back, part, rfl, rfl, begins, shorter⟩ := ih later
      exact ⟨thing :: front, found, back, part, rfl, by simp [split], begins, shorter⟩
    · cases rest with
      | nil =>
        obtain ⟨front, found, back, part, rfl, same, begins, shorter⟩ :=
          ih (show things.flatMap write = [] ++ c :: after from here.symm)
        refine ⟨thing :: front, found, back, part, rfl, ?_, begins, shorter⟩
        rw [List.flatMap_cons, List.append_assoc, ← same, split, List.append_nil, List.append_nil]
      | cons d rest =>
        exact ⟨[], thing, things, before, rfl, rfl, ⟨d :: rest, split.symm⟩, by simp [split]⟩

theorem placedIn_of_hasPlace {source : List Char} {p : Position}
    (place : HasPlace (normal source) p) : PlacedIn source p := by
  obtain ⟨before, c, after, whole, rfl⟩ := place
  rw [normal_eq] at whole
  obtain ⟨front, piece, back, part, cut, rfl, begins, shorter⟩ := exists_of_flatMap_eq whole
  refine ⟨front, piece, back, part, cut, begins, shorter, rfl, ?_⟩
  rw [Position.line_after, newlines_append, newlines_before cut, Nat.add_assoc]

namespace Grammar

variable {α : Type} {real : Position → Prop}

theorem readAll_within {reader : Parser α} (points : Points real reader) {tokens : Tokens}
    (within : ∀ t ∈ tokens, t.Within real) (start : real {}) {fault : Fault}
    (failed : readAll reader tokens = .error fault) : fault.Within real := by
  have ends := points { ahead := tokens } ⟨within, start, by simp⟩
  unfold readAll StateT.run at failed
  cases run : reader { ahead := tokens } with
  | error first =>
    rw [run] at failed ends
    cases failed
    exact ends
  | ok result =>
    obtain ⟨a, c⟩ := result
    rw [run] at failed ends
    obtain ⟨-, left⟩ := ends
    simp only [bind, Except.bind] at failed
    split at failed
    · next s kept =>
      cases failed
      cases before : c.stray with
      | some first => exact left.stray s (by simpa [before] using kept)
      | none => exact left.leftOver (by simpa [before] using kept)
    · cases failed

/-- A text that cannot be read is complained about at the place of one of its characters. -/
theorem readText_error {reader : Parser α} {text shown : List Char} (filled : text ≠ [])
    (points : Points (HasPlace text) reader) {e : ParseError}
    (failed : readText reader text shown = .error e) :
    ∃ message p, HasPlace text p ∧ e = .atPlace message p shown := by
  obtain ⟨c, rest, rfl⟩ := List.exists_cons_of_ne_nil filled
  have start : HasPlace (c :: rest) {} := ⟨[], c, rest, rfl, rfl⟩
  have lexed := lex_within (c :: rest)
  unfold readText at failed
  split at failed
  · next place broken =>
    rw [broken] at lexed
    cases failed
    exact ⟨_, place, lexed, rfl⟩
  · next tokens read =>
    rw [read] at lexed
    split at failed
    · cases failed
    · next message place refused =>
      cases failed
      exact ⟨message, place, readAll_within points lexed start refused, rfl⟩
    · cases failed
      exact ⟨_, {}, start, rfl⟩

end Grammar

theorem ParseError.pointsAt_atPlace (message : String) {source : List Char} {p : Position}
    (place : HasPlace (normal source) p) :
    (ParseError.atPlace message p source).PointsAt source p.line p.column := by
  obtain ⟨first, last, column⟩ := place.line
  rw [length_lines_normal] at last
  obtain ⟨text, line⟩ : ∃ text, (lines source)[p.line - 1]? = some text :=
    ⟨_, List.getElem?_eq_getElem (by omega)⟩
  exact ⟨rfl, ⟨first, column⟩, last, text, line, by simp [atPlace, line]⟩

theorem Declaration.parse_error {source : String} {e : ParseError}
    (failed : Declaration.parse source = .error e) :
    ∃ message p, HasPlace (normal source.toList) p ∧ e = .atPlace message p source.toList := by
  refine readText_error ?_ (points_items points_topDeclaration) failed
  intro empty
  rw [Declaration.parse, empty] at failed
  cases failed

/-- Where a source is cut at a piece, so is its normal form, with as many newlines before the
cut. -/
theorem Source.cut_at_piece {source : List Char} {front back : List Piece} {piece : Piece}
    (cut : pieces source = front ++ piece :: back) :
    source = front.flatMap Piece.text ++ (piece.text ++ back.flatMap Piece.text) ∧
      normal source = front.flatMap Piece.normal ++ (piece.normal ++ back.flatMap Piece.normal) ∧
      newlines (front.flatMap Piece.normal) = newlines (front.flatMap Piece.text) := by
  refine ⟨?_, ?_, newlines_before cut⟩
  · conv => lhs; rw [← pieces_text source, cut]
    rw [List.flatMap_append, List.flatMap_cons]
  · rw [normal_eq, normalPieces, cut, List.flatMap_append, List.flatMap_cons]

/-- Normalising keeps the newlines in front of every piece of a source, and so the line of every
token. Where a source cannot be read, the error points at one of its own lines and shows it. -/
theorem Declaration.parse_error_at_line (source : String) :
    (∀ front piece back, pieces source.toList = front ++ piece :: back →
      source.toList = front.flatMap Piece.text ++ (piece.text ++ back.flatMap Piece.text) ∧
      normal source.toList =
        front.flatMap Piece.normal ++ (piece.normal ++ back.flatMap Piece.normal) ∧
      newlines (front.flatMap Piece.normal) = newlines (front.flatMap Piece.text)) ∧
    (∀ tokens, lex (normal source.toList) = .ok tokens →
      ∀ t ∈ tokens, t.Within (PlacedIn source.toList)) ∧
    ∀ e, Declaration.parse source = .error e →
      ∃ line column, e.PointsAt source.toList line column := by
  refine ⟨fun front piece back => cut_at_piece, fun tokens read t member => ?_,
    fun e failed => ?_⟩
  · have within := lex_within (normal source.toList)
    rw [read] at within
    exact (within t member).imp fun p => placedIn_of_hasPlace
  · obtain ⟨message, p, place, rfl⟩ := parse_error failed
    exact ⟨p.line, p.column, ParseError.pointsAt_atPlace message place⟩

/-- Behind a raw string of two lines that loses its carriage return, on the third line. -/
theorem Declaration.parse_error_at_line_of_rawString :
    ∃ e line column, Declaration.parse "var s, f = `\r\n\"#`, .5\n)" = .error e ∧
      e.PointsAt "var s, f = `\r\n\"#`, .5\n)".toList line column ∧ line = 3 := by
  obtain ⟨line, column, points⟩ :=
    (parse_error_at_line "var s, f = `\r\n\"#`, .5\n)").2.2 _ rfl
  exact ⟨_, line, column, rfl, points, by cases points.location; rfl⟩

end GoDecl
