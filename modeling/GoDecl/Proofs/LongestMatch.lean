import GoDecl.Proofs.Scanners

/-! A source is cut into its longest lexemes. Every piece is the longest lexeme that the rest of the
source begins with, and what is not recognised stands where none begins. -/
namespace GoDecl.Source

open Text Computability

theorem longest_quoted {quote : Char} (noSlash : quote ≠ '\\') {text : List Char}
    (closed : (quotedRun quote text).1 = true) :
    Longest (one (· = quote) * quotedRest quote) (quote :: text)
      (quote :: (quotedRun quote text).2.1) := by
  refine Longest.cons (by simp) ?_
  refine .of_only ⟨_, quotedRun_append quote text⟩ (mem_of_quotedRun closed) ?_
  rintro other ⟨back, rfl⟩ also
  rw [quotedRun_of_mem noSlash also]

theorem noFront_quoted {quote : Char} (noSlash : quote ≠ '\\') {text : List Char}
    (unclosed : ¬ (quotedRun quote text).1 = true) :
    NoFront (one (· = quote) * quotedRest quote) (quote :: text) := by
  refine .cons fun _ => ?_
  rintro word ⟨back, rfl⟩ member
  exact unclosed (by rw [quotedRun_of_mem noSlash member])

theorem longest_block {text part rest : List Char} (closed : blockRun text = some (part, rest)) :
    Longest PieceKind.blockComment.language ('/' :: '*' :: text) ('/' :: '*' :: part) := by
  refine .cons rfl (.cons rfl ?_)
  refine .of_only ⟨rest, blockRun_append _ _ _ closed⟩ (mem_of_blockRun closed) ?_
  rintro other ⟨back, rfl⟩ also
  rw [(blockRun_of_mem other back).1 also] at closed
  cases closed
  rfl

theorem noFront_block {text : List Char} (unclosed : blockRun text = none) :
    NoFront PieceKind.blockComment.language ('/' :: '*' :: text) := by
  refine .cons fun _ => .cons fun _ => ?_
  rintro word ⟨back, rfl⟩ member
  rw [(blockRun_of_mem word back).1 member] at unclosed
  cases unclosed

theorem backQuote_stops (d : Char) (w : List Char) (also : d :: w ∈ one (· = backQuote)) :
    decide (d ≠ backQuote) = false := by
  simpa using (cons_mem_one.mp also).1

theorem longest_raw {text after : List Char} {q : Char}
    (found : text.dropWhile (· ≠ backQuote) = q :: after) :
    Longest PieceKind.rawString.language (backQuote :: text)
      (backQuote :: (text.takeWhile (· ≠ backQuote) ++ [q])) := by
  have stop := List.head?_dropWhile_not (· ≠ backQuote) text
  rw [found] at stop
  refine .cons rfl (.many backQuote_stops ?_)
  rw [found]
  exact .single (by simpa using stop)

theorem noFront_raw {text : List Char} (none : text.dropWhile (· ≠ backQuote) = []) :
    NoFront PieceKind.rawString.language (backQuote :: text) := by
  refine .cons fun _ => .many backQuote_stops ?_
  rw [none]
  intro word begins member
  rw [List.prefix_nil.mp begins] at member
  exact nil_notMem_one member

theorem longest_pointFloat {d : Char} (digit : isDigit d = true) (text : List Char) :
    Longest PieceKind.pointFloat.language ('.' :: d :: text)
      ('.' :: d :: (text.takeWhile isDigitOrUnderscore ++
        (exponentRun (text.dropWhile isDigitOrUnderscore)).1)) := by
  refine .cons rfl (.cons digit (.many ?_ (longest_exponentRun _)))
  intro c w also
  rcases mem_maybe.mp also with same | behind
  · cases same
  · have mark := (cons_mem_one_mul.mp behind).1
    simp only [isFloatMark, Bool.or_eq_true, decide_eq_true_eq] at mark
    rcases mark with rfl | rfl <;> decide

/-- No lexeme of a kind begins with a character that another must follow. -/
theorem noFront_of_second {kind : PieceKind} {c : Char} {rest : List Char}
    (needed : ¬ kind.second none) (other : ¬ kind.second rest.head?) :
    NoFront kind.language (c :: rest) := by
  intro word begins member
  cases word with
  | nil => exact nil_notMem_language kind member
  | cons d word =>
    have second := second_head? member
    cases word with
    | nil => exact needed second
    | cons e word =>
      obtain ⟨back, rfl⟩ := (List.cons_prefix_cons.mp begins).2
      exact other second

/-- What the first piece of a text is to be: the longest lexeme in front, with the one kind that it
is a lexeme of, and nothing recognised only where no lexeme is in front. -/
structure Piece.Heads (piece : Piece) (text : List Char) : Prop where
  recognised : piece.kind ≠ .unknown →
    Longest lexemes text piece.text ∧ ∀ kind, piece.text ∈ kind.language ↔ kind = piece.kind
  unrecognised : piece.kind = .unknown → NoFront lexemes text

/-- A lexeme in front of a text is of a kind that its first character leads. -/
theorem exists_leading {c : Char} {rest word : List Char} (begins : word <+: c :: rest)
    (member : word ∈ lexemes) : ∃ kind ∈ leading c, word ∈ kind.language := by
  obtain ⟨kind, inside⟩ := member
  cases word with
  | nil => exact absurd inside (nil_notMem_language kind)
  | cons d word =>
    obtain ⟨rfl, -⟩ := List.cons_prefix_cons.mp begins
    exact ⟨kind, mem_leading inside, inside⟩

/-- A mark is no longer than any other lexeme, so it never takes the place of one. -/
theorem Piece.heads_of_longest {kind : PieceKind} {c : Char} {rest word : List Char}
    (longest : Longest kind.language (c :: rest) word)
    (others : ∀ other ∈ leading c, other = kind ∨ other = .mark ∨
      NoFront other.language (c :: rest)) :
    (⟨kind, word⟩ : Piece).Heads (c :: rest) := by
  refine ⟨fun _ => ⟨⟨longest.front, ⟨kind, longest.member⟩, ?_⟩, ?_⟩, ?_⟩
  · intro other begins also
    obtain ⟨kind', leads, inside⟩ := exists_leading begins also
    rcases others kind' leads with rfl | rfl | none
    · exact longest.longest other begins inside
    · obtain ⟨d, -, rfl⟩ := inside
      have filled : word ≠ [] := ne_of_mem_of_not_mem longest.member (nil_notMem_language kind)
      exact List.length_pos_iff.mpr filled
    · exact absurd inside (none other begins)
  · intro other
    constructor
    · intro also
      exact kind_unique also longest.member
    · rintro rfl
      exact longest.member
  · rintro rfl
    exact absurd longest.member (Language.notMem_zero _)

theorem Piece.heads_of_leading {kind : PieceKind} {c : Char} {rest word : List Char}
    (leads : leading c = [kind]) (longest : Longest kind.language (c :: rest) word) :
    (⟨kind, word⟩ : Piece).Heads (c :: rest) := by
  refine heads_of_longest longest fun other among => ?_
  rw [leads, List.mem_singleton] at among
  exact .inl among

theorem Piece.heads_of_none {c : Char} {rest word : List Char}
    (none : ∀ kind ∈ leading c, NoFront kind.language (c :: rest)) :
    (⟨.unknown, word⟩ : Piece).Heads (c :: rest) := by
  refine ⟨fun known => absurd rfl known, fun _ word begins member => ?_⟩
  obtain ⟨kind, leads, inside⟩ := exists_leading begins member
  exact none kind leads word begins inside

theorem firstPiece_point (d : Char) (more : List Char) :
    firstPiece '.' (d :: more) =
      if isDigit d then
        (⟨.pointFloat, '.' :: d :: (more.takeWhile isDigitOrUnderscore ++
          (exponentRun (more.dropWhile isDigitOrUnderscore)).1)⟩,
        (exponentRun (more.dropWhile isDigitOrUnderscore)).2)
      else (⟨.mark, ['.']⟩, d :: more) := rfl

theorem firstPiece_block (more : List Char) :
    firstPiece '/' ('*' :: more) =
      match blockRun more with
      | some (part, after) => (⟨.blockComment, '/' :: '*' :: part⟩, after)
      | none => (⟨.mark, ['/']⟩, '*' :: more) := rfl

/-- Without another slash or a star behind it a slash stands alone. -/
theorem firstPiece_slash {rest : List Char} (noLine : rest.head? ≠ some '/')
    (noBlock : rest.head? ≠ some '*') : firstPiece '/' rest = (⟨.mark, ['/']⟩, rest) := by
  unfold firstPiece
  iterate 7 rw [if_neg (by decide)]
  split
  · next same => exact absurd same (by decide)
  · exact absurd rfl noLine
  · exact absurd rfl noBlock
  · rfl

/-- A point is the whole piece unless a digit follows. -/
theorem heads_point (rest : List Char) : (firstPiece '.' rest).1.Heads ('.' :: rest) := by
  have noFloat (none : ¬ PieceKind.pointFloat.second rest.head?) :
      (⟨.mark, ['.']⟩ : Piece).Heads ('.' :: rest) := by
    refine Piece.heads_of_longest (.single rfl) fun other among => ?_
    rcases mem_leading_point.mp among with rfl | rfl
    · exact .inr (.inr (noFront_of_second (by simp [PieceKind.second]) none))
    · exact .inl rfl
  cases rest with
  | nil => exact noFloat (by simp [PieceKind.second])
  | cons d more =>
    rw [firstPiece_point]
    split
    · next digit =>
      refine Piece.heads_of_longest (longest_pointFloat digit more) fun other among => ?_
      exact (mem_leading_point.mp among).imp_right .inl
    · next noDigit => exact noFloat (by simp [PieceKind.second, noDigit])

/-- A slash is the whole piece unless a comment begins with it that is closed or ends with its
line. -/
theorem heads_slash (rest : List Char) : (firstPiece '/' rest).1.Heads ('/' :: rest) := by
  have only {kind : PieceKind} {word : List Char}
      (longest : Longest kind.language ('/' :: rest) word)
      (line : kind = .lineComment ∨ NoFront PieceKind.lineComment.language ('/' :: rest))
      (block : kind = .blockComment ∨ NoFront PieceKind.blockComment.language ('/' :: rest)) :
      (⟨kind, word⟩ : Piece).Heads ('/' :: rest) := by
    refine Piece.heads_of_longest longest fun other among => ?_
    rcases mem_leading_slash.mp among with rfl | rfl | rfl
    · exact line.imp Eq.symm .inr
    · exact block.imp Eq.symm .inr
    · exact .inr (.inl rfl)
  by_cases line : rest.head? = some '/'
  · obtain ⟨more, rfl⟩ := List.head?_eq_some_iff.mp line
    have noBlock : NoFront PieceKind.blockComment.language ('/' :: '/' :: more) :=
      noFront_of_second (by simp [PieceKind.second]) (by simp [PieceKind.second])
    exact only (((Longest.run _ more).cons rfl).cons rfl) (.inl rfl) (.inr noBlock)
  have noLine : NoFront PieceKind.lineComment.language ('/' :: rest) :=
    noFront_of_second (by simp [PieceKind.second]) line
  by_cases block : rest.head? = some '*'
  · obtain ⟨more, rfl⟩ := List.head?_eq_some_iff.mp block
    rw [firstPiece_block]
    split
    · next part after closed => exact only (longest_block closed) (.inr noLine) (.inl rfl)
    · next unclosed => exact only (.single rfl) (.inr noLine) (.inr (noFront_block unclosed))
  · rw [firstPiece_slash line block]
    exact only (.single rfl) (.inr noLine)
      (.inr (noFront_of_second (by simp [PieceKind.second]) block))

/-- A quoted text is the whole piece when it is closed. -/
theorem heads_quoted {kind : PieceKind} {quote : Char} {rest : List Char} (noSlash : quote ≠ '\\')
    (language : kind.language = one (· = quote) * quotedRest quote)
    (leads : leading quote = [kind]) :
    (⟨if (quotedRun quote rest).1 then kind else .unknown,
      quote :: (quotedRun quote rest).2.1⟩ : Piece).Heads (quote :: rest) := by
  split
  · next closed => exact Piece.heads_of_leading leads (language ▸ longest_quoted noSlash closed)
  · next unclosed =>
    refine Piece.heads_of_none fun other among => ?_
    rw [leads, List.mem_singleton] at among
    exact among ▸ language ▸ noFront_quoted noSlash unclosed

theorem heads_firstPiece (c : Char) (rest : List Char) :
    (firstPiece c rest).1.Heads (c :: rest) := by
  by_cases point : c = '.'
  · exact point ▸ heads_point rest
  by_cases slash : c = '/'
  · exact slash ▸ heads_slash rest
  unfold firstPiece
  split
  · next quote =>
    subst quote
    dsimp only [run]
    split
    · next none =>
      refine Piece.heads_of_none fun kind among => ?_
      obtain rfl := List.mem_singleton.mp (show kind ∈ [.rawString] from among)
      exact noFront_raw none
    · next q after found => exact Piece.heads_of_leading rfl (longest_raw found)
  split
  · next quote => exact quote ▸ heads_quoted (by decide) rfl rfl
  split
  · next quote => exact quote ▸ heads_quoted (by decide) rfl rfl
  split
  · next digit =>
    exact Piece.heads_of_leading (leading_of_digit digit) ((longest_numberRun rest).cons digit)
  split
  · next begin =>
    exact Piece.heads_of_leading (leading_of_wordBegin begin) ((Longest.run _ rest).cons begin)
  split
  · next blank =>
    exact Piece.heads_of_leading (leading_of_blank blank) (.repeated blank)
  next noBack noDouble noSingle noDigit noBegin noBlank =>
  have leads : leading c = if isNumber c then [] else [.mark] := by
    simp [leading, isWordBegin, noBack, noDouble, noSingle, noDigit, noBegin, noBlank, point,
      slash]
  split
  · next number =>
    refine Piece.heads_of_none fun kind among => ?_
    rw [leads, if_pos number] at among
    cases among
  · next noNumber =>
    rw [if_neg noNumber] at leads
    have mark : isMark c = true := by
      simp_all [isMark]
    split
    · exact absurd rfl point
    · exact absurd rfl slash
    · exact absurd rfl slash
    · exact Piece.heads_of_leading leads (.single mark)

theorem heads_of_pieces {text : List Char} {front back : List Piece} {piece : Piece}
    (cut : pieces text = front ++ piece :: back) :
    piece.Heads ((piece :: back).flatMap Piece.text) := by
  induction front generalizing text with
  | nil =>
    cases text with
    | nil => cases cut
    | cons c rest =>
      rw [List.nil_append] at cut
      rw [← cut, pieces_text]
      rw [pieces_cons] at cut
      rw [← (List.cons.inj cut).1]
      exact heads_firstPiece c rest
  | cons first front ih =>
    cases text with
    | nil => cases cut
    | cons c rest =>
      rw [pieces_cons, List.cons_append] at cut
      exact ih (List.cons.inj cut).2

theorem ne_nil_of_mem_pieces {text : List Char} {piece : Piece} (member : piece ∈ pieces text) :
    piece.text ≠ [] := by
  obtain ⟨c, -, rest, rfl⟩ := exists_of_mem_pieces member
  obtain ⟨part, begins, -⟩ := firstPiece_append c rest
  rw [begins]
  exact List.cons_ne_nil c part

/-- A source is cut without loss into its longest lexemes, each with the kind it is of, and what is
not recognised stands where no lexeme is in front. The normal form rewrites raw strings and floats
that begin with a point and nothing else, so it need not be computed where there are none. -/
theorem pieces_longest_match (text : List Char) :
    ((pieces text).flatMap Piece.text = text ∧ ∀ piece ∈ pieces text, piece.text ≠ []) ∧
    (∀ front piece back, pieces text = front ++ piece :: back →
      piece.Heads ((piece :: back).flatMap Piece.text)) ∧
    (normal text = (pieces text).flatMap Piece.normal ∧
      ∀ piece ∈ pieces text, piece.kind ∉ [.rawString, .pointFloat] →
        piece.normal = piece.text) ∧
    (backQuote ∉ text → '.' ∉ text → (pieces text).flatMap Piece.normal = text) := by
  refine ⟨⟨pieces_text text, fun piece => ne_nil_of_mem_pieces⟩,
    fun front piece back => heads_of_pieces, ⟨normal_eq text, fun piece member other => ?_⟩,
    fun noQuote noPoint => ?_⟩
  · cases kind : piece.kind <;> simp_all [Piece.normal]
  · have same := normal_eq text
    rw [normal_unmarked noQuote noPoint] at same
    exact same.symm

/-- An exponent without a digit and a comment that is not closed are given back. -/
theorem pieces_longest_match_of_exponent :
    pieces "1e+5.5e+/*".toList = [⟨.number, "1e+5".toList⟩] ++ ⟨.pointFloat, ".5".toList⟩ ::
        [⟨.word, ['e']⟩, ⟨.mark, ['+']⟩, ⟨.mark, ['/']⟩, ⟨.mark, ['*']⟩] ∧
      Longest lexemes ".5e+/*".toList ".5".toList ∧
      (⟨.word, ['e']⟩ : Piece).normal = ['e'] ∧
      normal "1e+5.5e+/*".toList = "1e+50.5e+/*".toList ∧
      (pieces "1e+5/*".toList).flatMap Piece.normal = "1e+5/*".toList := by
  have cut : pieces "1e+5.5e+/*".toList = [⟨.number, "1e+5".toList⟩] ++
      ⟨.pointFloat, ".5".toList⟩ ::
        [⟨.word, ['e']⟩, ⟨.mark, ['+']⟩, ⟨.mark, ['/']⟩, ⟨.mark, ['*']⟩] := by decide +kernel
  obtain ⟨-, heads, ⟨whole, kept⟩, -⟩ := pieces_longest_match "1e+5.5e+/*".toList
  refine ⟨cut, ((heads _ _ _ cut).recognised (by decide)).1, ?_, ?_, ?_⟩
  · exact kept ⟨.word, ['e']⟩ (by rw [cut]; decide) (by decide)
  · rw [whole, cut]
    decide
  · exact (pieces_longest_match "1e+5/*".toList).2.2.2 (by decide) (by decide)

end GoDecl.Source
