import GoDecl.Source.Normal

/-! Cutting a source into pieces loses nothing: each piece and what comes after it are the text that
was there. So the cutting ends by itself, and pieces follow one another by a plain equation. -/
namespace GoDecl.Source

open Text

theorem run_append (p : Char → Bool) (text : List Char) :
    (run p text).1 ++ (run p text).2 = text :=
  List.takeWhile_append_dropWhile

/-- A run goes on to the first character that is not of its kind. -/
theorem run_of_stop (p : Char → Bool) (part rest : List Char) (all : ∀ c ∈ part, p c = true)
    (stop : ∀ c, rest.head? = some c → p c = false) : run p (part ++ rest) = (part, rest) := by
  have behind : rest.takeWhile p = [] ∧ rest.dropWhile p = rest := by
    cases rest with
    | nil => exact ⟨rfl, rfl⟩
    | cons c more => simp [stop c rfl]
  simp [run, List.takeWhile_append_of_pos all, List.dropWhile_append_of_pos all, behind]

/-- What ends a run of digits and underscores. -/
def EndsDigits (rest : List Char) : Prop := ∀ c, rest.head? = some c → isDigitOrUnderscore c = false

theorem EndsDigits.of_cons {c : Char} (rest : List Char) (other : isDigitOrUnderscore c = false) :
    EndsDigits (c :: rest) := by
  rintro _ ⟨⟩
  exact other

theorem quotedRun_append (quote : Char) (text : List Char) :
    (quotedRun quote text).2.1 ++ (quotedRun quote text).2.2 = text := by
  fun_induction quotedRun quote text <;> simp_all

theorem blockRun_append (text part rest : List Char) (closed : blockRun text = some (part, rest)) :
    part ++ rest = text := by
  fun_induction blockRun text generalizing part with
  | case1 => simp at closed
  | case2 after =>
    simp only [Option.some.injEq, Prod.mk.injEq] at closed
    obtain ⟨rfl, rfl⟩ := closed
    rfl
  | case3 c after _ ih =>
    simp only [Option.bind_eq_bind, Option.bind_eq_some_iff] at closed
    grind

theorem signedRun_append (text : List Char) : (signedRun text).1 ++ (signedRun text).2 = text := by
  unfold signedRun
  split
  · split
    · simp [run_append]
    · rfl
  · rfl

theorem numberRun_append (text : List Char) : (numberRun text).1 ++ (numberRun text).2 = text := by
  have front := run_append isAsciiWordPart text
  unfold numberRun
  dsimp only
  generalize run isAsciiWordPart text = first at front
  obtain ⟨written, rest⟩ := first
  dsimp only at front ⊢
  have power := signedRun_append rest
  split
  · next more =>
    have back := run_append isAsciiWordPart more
    have power := signedRun_append (run isAsciiWordPart more).2
    split <;> grind
  · split <;> grind

theorem exponentRun_append (text : List Char) :
    (exponentRun text).1 ++ (exponentRun text).2 = text := by
  unfold exponentRun
  split
  · next rest =>
    have signed := signedRun_append rest
    have plain := run_append isDigitOrUnderscore rest
    grind
  · next rest =>
    have signed := signedRun_append rest
    have plain := run_append isDigitOrUnderscore rest
    grind
  · rfl

/-- A piece begins with the first character, and what follows in it and after it is the rest. -/
theorem firstPiece_append (c : Char) (rest : List Char) :
    ∃ part, (firstPiece c rest).1.text = c :: part ∧ part ++ (firstPiece c rest).2 = rest := by
  unfold firstPiece
  split
  · have body := run_append (· ≠ backQuote) rest
    grind
  split
  · have body := quotedRun_append c rest
    grind
  split
  · have body := quotedRun_append c rest
    grind
  split
  · exact ⟨_, rfl, numberRun_append rest⟩
  split
  · exact ⟨_, rfl, run_append _ rest⟩
  split
  · exact ⟨_, rfl, run_append _ rest⟩
  split
  · exact ⟨_, rfl, rfl⟩
  split
  · next d more _ _ _ _ _ _ _ =>
    split
    · have digits := run_append isDigitOrUnderscore more
      have power := exponentRun_append (run isDigitOrUnderscore more).2
      grind
    · exact ⟨_, rfl, rfl⟩
  · exact ⟨_, rfl, by simp [run_append]⟩
  · next more _ _ _ _ _ _ _ =>
    split
    · next part after closed =>
      have body := blockRun_append more part after closed
      exact ⟨_, rfl, by simp [body]⟩
    · exact ⟨_, rfl, rfl⟩
  · exact ⟨_, rfl, rfl⟩

theorem firstPiece_length (c : Char) (rest : List Char) :
    (firstPiece c rest).2.length ≤ rest.length := by
  obtain ⟨part, _, whole⟩ := firstPiece_append c rest
  have := congrArg List.length whole
  simp only [List.length_append] at this
  omega

/-- Any two bounds that the length does not exceed give the same pieces. -/
theorem cutPieces_fuel (text : List Char) (fuel other : Nat) (enough : text.length ≤ fuel)
    (otherEnough : text.length ≤ other) : cutPieces fuel text = cutPieces other text := by
  induction fuel generalizing text other with
  | zero =>
    obtain rfl : text = [] := List.length_eq_zero_iff.mp (Nat.le_zero.mp enough)
    cases other <;> rfl
  | succ fuel ih =>
    cases text with
    | nil => cases other <;> rfl
    | cons c rest =>
      simp only [List.length_cons] at enough otherEnough
      obtain ⟨other, rfl⟩ : ∃ less, other = less + 1 := ⟨other - 1, by omega⟩
      have shorter := firstPiece_length c rest
      have same := ih (firstPiece c rest).2 other (by omega) (by omega)
      exact congrArg ((firstPiece c rest).1 :: ·) same

theorem pieces_cons (c : Char) (rest : List Char) :
    pieces (c :: rest) = (firstPiece c rest).1 :: pieces (firstPiece c rest).2 := by
  have same := cutPieces_fuel (firstPiece c rest).2 rest.length _ (firstPiece_length c rest)
    (Nat.le_refl _)
  exact congrArg ((firstPiece c rest).1 :: ·) same

/-- The normal form piece by piece. -/
theorem normalPieces_cons (c : Char) (rest : List Char) :
    normalPieces (c :: rest) =
      (firstPiece c rest).1.normal ++ normalPieces (firstPiece c rest).2 := by
  rw [normalPieces, pieces_cons, List.flatMap_cons]
  rfl

end GoDecl.Source
