import GoDecl.Proofs.Pieces
import GoDecl.Text.Position

/-! Lines of a source and of its normal form. Raw strings lose carriage returns and gain fences, and
floats gain a digit, but no piece gains or loses a newline. So as many newlines come before a piece
in the normal form as in the source, and both have the same number of lines. -/
namespace GoDecl

namespace Text

def newlines (text : List Char) : Nat := text.count '\n'

@[simp] theorem newlines_nil : newlines [] = 0 := rfl

@[simp] theorem newlines_append (first second : List Char) :
    newlines (first ++ second) = newlines first + newlines second := List.count_append

@[simp] theorem newlines_cons (c : Char) (rest : List Char) :
    newlines (c :: rest) = newlines rest + if c = '\n' then 1 else 0 := by
  simp [newlines, List.count_cons]

theorem newlines_eq_zero {text : List Char} : newlines text = 0 ↔ '\n' ∉ text := List.count_eq_zero

/-- One line for each newline, and one more for what is left at the end. -/
theorem length_linesFrom (current text : List Char) :
    (linesFrom current text).length =
      newlines text + if text.getLast?.elim (!current.isEmpty) (· ≠ '\n') then 1 else 0 := by
  induction text generalizing current with
  | nil => cases current <;> rfl
  | cons c rest ih =>
    by_cases newline : c = '\n'
    · subst newline
      have step : (linesFrom current ('\n' :: rest)).length = (linesFrom [] rest).length + 1 := rfl
      rw [step, ih]
      cases rest <;> simp [List.getLast?_cons, Nat.add_right_comm]
    · have step : linesFrom current (c :: rest) = linesFrom (c :: current) rest := by
        simp [linesFrom, newline]
      rw [step, ih]
      cases rest <;> simp [List.getLast?_cons, newline]

/-- As many lines as newlines, and one more for a last line without a newline. -/
theorem length_lines (text : List Char) :
    (lines text).length = newlines text + if text.getLast?.any (· ≠ '\n') then 1 else 0 := by
  rw [lines, length_linesFrom]
  cases text.getLast? <;> rfl

/-- In front of any character there are fewer newlines than lines. -/
theorem newlines_lt_length_lines (before : List Char) (c : Char) (after : List Char) :
    newlines before < (lines (before ++ c :: after)).length := by
  rw [length_lines, newlines_append]
  cases final : newlines (c :: after) with
  | succ n => omega
  | zero =>
    have none := newlines_eq_zero.mp final
    have last : (before ++ c :: after).getLast?.any (· ≠ '\n') = true := by
      rw [List.getLast?_append, List.getLast?_eq_some_getLast (List.cons_ne_nil c after)]
      have apart : (c :: after).getLast (List.cons_ne_nil c after) ≠ '\n' :=
        fun same => none (same ▸ List.getLast_mem _)
      simpa using apart
    rw [if_pos last]
    omega

end Text

namespace Source

open Text

theorem firstPiece_kind (c : Char) (rest : List Char) :
    let piece := (firstPiece c rest).1
    (piece.kind = .rawString → c = backQuote ∧ ∃ body, piece.text = c :: (body ++ [backQuote])) ∧
      (piece.kind = .pointFloat → c = '.') := by
  unfold firstPiece
  split
  · have stops := List.head?_dropWhile_not (· ≠ backQuote) rest
    dsimp only [run]
    split
    · simp
    · next q after found =>
      rw [found] at stops
      simp_all
  split
  · dsimp only; split <;> simp
  split
  · dsimp only; split <;> simp
  split
  · simp
  split
  · simp
  split
  · simp
  split
  · simp
  split
  · split <;> simp
  · simp
  · split <;> simp
  · simp

/-- Only what begins with a back quote or with a point has a normal form of its own. -/
theorem firstPiece_normal (c : Char) (rest : List Char) :
    let piece := (firstPiece c rest).1
    piece.normal = piece.text ∨
      (c = backQuote ∧ ∃ body, piece.text = c :: (body ++ [backQuote]) ∧
        piece.normal = fenced body) ∨
      (c = '.' ∧ piece.normal = '0' :: piece.text) := by
  intro piece
  obtain ⟨raw, float⟩ := firstPiece_kind c rest
  cases kind : piece.kind with
  | rawString =>
    obtain ⟨quote, body, text⟩ := raw kind
    refine .inr (.inl ⟨quote, body, text, ?_⟩)
    have written : piece.text = c :: (body ++ [backQuote]) := text
    simp [Piece.normal, kind, written]
  | pointFloat => exact .inr (.inr ⟨float kind, by simp [Piece.normal, kind]⟩)
  | _ => exact .inl (by simp [Piece.normal, kind])

theorem pieces_text (text : List Char) : (pieces text).flatMap Piece.text = text := by
  induction length : text.length using Nat.strongRecOn generalizing text with
  | _ n ih =>
    cases text with
    | nil => rfl
    | cons c rest =>
      have shorter := firstPiece_length c rest
      obtain ⟨part, first, whole⟩ := firstPiece_append c rest
      have others := ih (firstPiece c rest).2.length (by simp at length; omega) _ rfl
      rw [pieces_cons, List.flatMap_cons, first, others, List.cons_append, whole]

/-- Every piece of a text is the first one somewhere in it. -/
theorem exists_of_mem_pieces {text : List Char} {piece : Piece} (member : piece ∈ pieces text) :
    ∃ c ∈ text, ∃ rest, piece = (firstPiece c rest).1 := by
  induction length : text.length using Nat.strongRecOn generalizing text with
  | _ n ih =>
    cases text with
    | nil => contradiction
    | cons c rest =>
      have shorter := firstPiece_length c rest
      obtain ⟨part, -, whole⟩ := firstPiece_append c rest
      rw [pieces_cons, List.mem_cons] at member
      rcases member with first | later
      · exact ⟨c, List.mem_cons_self, rest, first⟩
      · obtain ⟨d, among, more, same⟩ :=
          ih (firstPiece c rest).2.length (by simp at length; omega) later rfl
        refine ⟨d, List.mem_cons_of_mem c ?_, more, same⟩
        rw [← whole]
        exact List.mem_append_right part among

/-- In a text without back quotes and points nothing is rewritten. -/
theorem normal_unmarked {text : List Char} (noQuote : backQuote ∉ text) (noPoint : '.' ∉ text) :
    normal text = text := by
  have plain : text.any (fun c => c = backQuote || c = '.') = false := by
    rw [List.any_eq_false]
    intro c member same
    simp only [Bool.or_eq_true, decide_eq_true_eq] at same
    rcases same with rfl | rfl
    · exact noQuote member
    · exact noPoint member
  rw [normal, plain]
  rfl

/-- A text without back quotes and points is its normal form piece by piece too. -/
theorem normal_eq (text : List Char) : normal text = normalPieces text := by
  unfold normal
  split
  · rfl
  · next plain =>
    simp only [List.any_eq_true, Bool.or_eq_true, decide_eq_true_eq, not_exists, not_and,
      not_or] at plain
    have same : ∀ piece ∈ pieces text, piece.normal = piece.text := by
      intro piece member
      obtain ⟨c, among, rest, rfl⟩ := exists_of_mem_pieces member
      obtain ⟨noQuote, noPoint⟩ := plain c among
      rcases firstPiece_normal c rest with same | ⟨quote, -⟩ | ⟨point, -⟩
      · exact same
      · contradiction
      · contradiction
    rw [normalPieces, List.flatMap_def, List.map_congr_left same, ← List.flatMap_def, pieces_text]

/-- The fence and the dropped carriage returns are no newlines. -/
theorem newlines_fenced (body : List Char) : newlines (fenced body) = newlines body := by
  have fence (n : Nat) : newlines (List.replicate n '#') = 0 :=
    newlines_eq_zero.mpr (by simp [List.mem_replicate])
  have kept : newlines (body.filter (· ≠ '\r')) = newlines body := List.count_filter (by decide)
  rw [fenced, newlines_append, newlines_append]
  simp only [newlines_cons, fence, kept]
  simp [doubleQuote]

/-- No piece gains or loses a newline, none is empty, and one that ends in a newline still does. -/
theorem lines_piece {text : List Char} {piece : Piece} (member : piece ∈ pieces text) :
    newlines piece.normal = newlines piece.text ∧
      ∃ c d, piece.normal.getLast? = some c ∧ piece.text.getLast? = some d ∧
        (c = '\n' ↔ d = '\n') := by
  obtain ⟨c, -, rest, rfl⟩ := exists_of_mem_pieces member
  obtain ⟨part, begins, -⟩ := firstPiece_append c rest
  rcases firstPiece_normal c rest with same | ⟨quote, body, written, fence⟩ | ⟨-, zero⟩
  · rw [same, begins]
    simp [List.getLast?_cons]
  · rw [fence, written, newlines_fenced, quote]
    simp [fenced, backQuote, List.getLast?_cons, List.replicate_succ']
  · rw [zero, begins]
    simp [List.getLast?_cons]

/-- Before each piece there are as many newlines in the normal form as in the source. -/
theorem newlines_before {text : List Char} {front back : List Piece}
    (cut : pieces text = front ++ back) :
    newlines (front.flatMap Piece.normal) = newlines (front.flatMap Piece.text) := by
  have kept : ∀ piece ∈ front, newlines piece.normal = newlines piece.text :=
    fun piece member => (lines_piece (cut ▸ List.mem_append_left back member)).1
  clear cut
  induction front with
  | nil => rfl
  | cons piece front ih =>
    obtain ⟨first, others⟩ := List.forall_mem_cons.mp kept
    rw [List.flatMap_cons, List.flatMap_cons, newlines_append, newlines_append, first, ih others]

/-- Both end in a newline or neither does. -/
theorem getLast?_normal (text : List Char) :
    (normal text).getLast?.any (· ≠ '\n') = text.getLast?.any (· ≠ '\n') := by
  have written := pieces_text text
  rw [normal_eq, normalPieces]
  rcases List.eq_nil_or_concat (pieces text) with none | ⟨front, last, some⟩
  · rw [none] at written ⊢
    rw [← written]
    rfl
  · have member : last ∈ pieces text := by simp [some]
    obtain ⟨-, c, d, ends, endsText, same⟩ := lines_piece member
    rw [some, List.concat_eq_append, List.flatMap_append, List.flatMap_singleton] at written ⊢
    rw [← written, List.getLast?_append, List.getLast?_append, ends, endsText]
    simp [same]

theorem length_lines_normal (text : List Char) :
    (lines (normal text)).length = (lines text).length := by
  have same := newlines_before (List.append_nil (pieces text)).symm
  rw [pieces_text] at same
  rw [length_lines, length_lines, getLast?_normal, normal_eq, normalPieces, same]

end Source

end GoDecl
