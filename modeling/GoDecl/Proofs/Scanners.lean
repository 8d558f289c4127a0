import GoDecl.Proofs.Fronts

/-! The scanners of the pieces. Each finds the longest front part of a text in the language of its
kind, or finds that there is none, also where it has to give back what it has read. -/
namespace GoDecl.Source

open Text Computability

theorem not_isAsciiWordPart_of_isSign {c : Char} (sign : isSign c = true) :
    isAsciiWordPart c = false ∧ c ≠ '.' := by
  simp only [isSign, Bool.or_eq_true, decide_eq_true_eq] at sign
  rcases sign with rfl | rfl <;> decide

theorem signedRun_cases (text : List Char) :
    Longest signed text (signedRun text).1 ∨ (signedRun text).1 = [] ∧ NoFront signed text := by
  unfold signedRun
  split
  · next sign c rest =>
    split
    · next known =>
      obtain ⟨isSign, digit⟩ := Bool.and_eq_true_iff.mp known
      left
      simp only [run, List.takeWhile_cons_of_pos digit]
      exact (Longest.repeated digit).cons isSign
    · next unknown =>
      refine .inr ⟨rfl, .cons fun isSign => .cons fun digit => ?_⟩
      exact absurd (Bool.and_eq_true_iff.mpr ⟨isSign, digit⟩) unknown
  · next short =>
    refine .inr ⟨rfl, ?_⟩
    rcases text with _ | ⟨sign, _ | ⟨c, rest⟩⟩
    · exact .nil
    · exact .cons fun _ => .nil
    · exact absurd rfl (short sign c rest)

/-- The power behind the mark of an exponent, `[+-]?[0-9_]+`. -/
def power : Language Char := maybe (one isSign) * repeated (one isDigitOrUnderscore)

def powerRun (text : List Char) : List Char × List Char :=
  match run isDigitOrUnderscore text with
  | ([], _) => signedRun text
  | found => found

theorem power_eq : power = repeated (one isDigitOrUnderscore) + signed := by
  rw [power, maybe, add_mul, one_mul, signed]

theorem nil_notMem_power : [] ∉ power := by
  rw [power_eq, Language.mem_add]
  simp [repeated, signed]

theorem powerRun_cases (text : List Char) :
    Longest power text (powerRun text).1 ∨ (powerRun text).1 = [] ∧ NoFront power text := by
  rw [power_eq]
  unfold powerRun run
  cases text with
  | nil => exact .inr ⟨rfl, .add .nil .nil⟩
  | cons c rest =>
    by_cases digit : isDigitOrUnderscore c = true
    · rw [List.takeWhile_cons_of_pos digit]
      refine .inl (.add_left (.repeated digit) (.cons fun sign => ?_))
      have noPart := (not_isAsciiWordPart_of_isSign sign).1
      simp [isAsciiWordPart, digit] at noPart
    · rw [List.takeWhile_cons_of_neg digit]
      have none : NoFront (repeated (one isDigitOrUnderscore)) (c :: rest) :=
        .cons fun holds => absurd holds digit
      rcases signedRun_cases (c :: rest) with longest | ⟨empty, noSign⟩
      · exact .inl (.add_right none longest)
      · exact .inr ⟨empty, none.add noSign⟩

theorem exponentRun_mark {c : Char} (mark : isFloatMark c = true) (rest : List Char) :
    exponentRun (c :: rest) =
      if (powerRun rest).1.isEmpty then ([], c :: rest)
      else (c :: (powerRun rest).1, (powerRun rest).2) := by
  simp only [isFloatMark, Bool.or_eq_true, decide_eq_true_eq] at mark
  rcases mark with rfl | rfl <;> rfl

theorem exponentRun_other {c : Char} (noMark : ¬ isFloatMark c = true) (rest : List Char) :
    exponentRun (c :: rest) = ([], c :: rest) := by
  simp only [isFloatMark, Bool.or_eq_true, decide_eq_true_eq, not_or] at noMark
  simp [exponentRun, noMark]

/-- An exponent is there when it has a digit. -/
theorem longest_exponentRun (text : List Char) :
    Longest (maybe (one isFloatMark * power)) text (exponentRun text).1 := by
  cases text with
  | nil => exact NoFront.nil.maybe
  | cons c rest =>
    by_cases mark : isFloatMark c = true
    · rw [exponentRun_mark mark]
      rcases powerRun_cases rest with longest | ⟨empty, none⟩
      · have some : (powerRun rest).1 ≠ [] := ne_of_mem_of_not_mem longest.member nil_notMem_power
        rw [if_neg (by simpa using some)]
        exact (longest.cons mark).maybe
      · rw [empty]
        exact (NoFront.cons fun _ => none).maybe
    · rw [exponentRun_other mark]
      exact (NoFront.cons fun holds => absurd holds mark).maybe

/-- The body of a number is told by its characters and its points. -/
theorem mem_numberBody {w : List Char} :
    w ∈ numberBody ↔ (∀ c ∈ w, isAsciiWordPart c = true ∨ c = '.') ∧ w.count '.' ≤ 1 := by
  induction w with
  | nil => simp [numberBody, nil_mem_many_mul, mem_maybe]
  | cons c rest ih =>
    rw [numberBody, cons_mem_many_mul, ← numberBody, ih, mem_maybe, cons_mem_one_mul, mem_many,
      List.forall_mem_cons]
    by_cases point : c = '.'
    · subst point
      have noPart : isAsciiWordPart '.' = false := by decide
      have all : (∀ d ∈ rest, isAsciiWordPart d = true) ↔
          (∀ d ∈ rest, isAsciiWordPart d = true ∨ d = '.') ∧ '.' ∉ rest := by
        constructor
        · intro word
          exact ⟨fun d among => .inl (word d among), fun among => by simp [word _ among] at noPart⟩
        · rintro ⟨each, none⟩ d among
          exact (each d among).resolve_right fun same => none (same ▸ among)
      rw [List.count_cons_self, all, ← List.count_eq_zero]
      simp [noPart]
    · rw [List.count_cons_of_ne point]
      simp [point, and_assoc]

/-- The point in a number and what follows it. -/
def pointRun (text : List Char) : List Char × List Char :=
  match text with
  | '.' :: more => let (part, more) := run isAsciiWordPart more; ('.' :: part, more)
  | _ => ([], text)

/-- The digits of a number, with the point that may be among them. -/
def bodyRun (text : List Char) : List Char × List Char :=
  let (front, rest) := run isAsciiWordPart text
  let (back, rest) := pointRun rest
  (front ++ back, rest)

theorem numberRun_eq (text : List Char) :
    numberRun text =
      if (bodyRun text).1.getLast?.any isExponentMark then
        ((bodyRun text).1 ++ (signedRun (bodyRun text).2).1, (signedRun (bodyRun text).2).2)
      else bodyRun text := rfl

theorem pointRun_append (text : List Char) : (pointRun text).1 ++ (pointRun text).2 = text := by
  unfold pointRun
  split
  · next more => simp [run_append]
  · rfl

theorem bodyRun_append (text : List Char) : (bodyRun text).1 ++ (bodyRun text).2 = text := by
  have whole := run_append isAsciiWordPart text
  have point := pointRun_append (run isAsciiWordPart text).2
  rw [← point, ← List.append_assoc] at whole
  exact whole

theorem longest_pointRun (text : List Char) :
    Longest (maybe (one (· = '.') * (one isAsciiWordPart)∗)) text (pointRun text).1 := by
  unfold pointRun
  split
  · next more => exact ((Longest.run isAsciiWordPart more).cons rfl).maybe
  · next noPoint =>
    apply NoFront.maybe
    cases text with
    | nil => exact .nil
    | cons d more =>
      refine .cons fun point => ?_
      rw [of_decide_eq_true point] at noPoint
      exact absurd rfl (noPoint more)

theorem longest_bodyRun (text : List Char) : Longest numberBody text (bodyRun text).1 := by
  refine Longest.many ?_ (longest_pointRun _)
  intro d w also
  rcases mem_maybe.mp also with same | behind
  · cases same
  · rw [of_decide_eq_true (cons_mem_one_mul.mp behind).1]
    decide

theorem isAsciiWordPart_of_isExponentMark {c : Char} (mark : isExponentMark c = true) :
    isAsciiWordPart c = true := by
  simp only [isExponentMark, Bool.or_eq_true, decide_eq_true_eq] at mark
  rcases mark with ((rfl | rfl) | rfl) | rfl <;> decide

theorem append_mem_numberBody {w : List Char} {c : Char} (word : isAsciiWordPart c = true) :
    w ++ [c] ∈ numberBody ↔ w ∈ numberBody := by
  have noPoint : c ≠ '.' := by
    rintro rfl
    revert word
    decide
  rw [mem_numberBody, mem_numberBody, List.count_append, List.forall_mem_append]
  simp [word, noPoint]

theorem signed_cases {w : List Char} (member : w ∈ signed) :
    ∃ s rest, w = s :: rest ∧ isSign s = true := by
  obtain ⟨s, rest, rfl, sign, -⟩ := mem_one_mul.mp member
  exact ⟨s, rest, rfl, sign⟩

/-- The mark of an exponent belongs to the body, and the sign behind it ends the body, so a front
part with an exponent has the whole body. -/
theorem body_of_exponent {text front power : List Char} {mark : Char}
    (inFront : front ∈ numberBody) (isMark : isExponentMark mark = true)
    (inPower : power ∈ signed) (begins : front ++ mark :: power <+: text) :
    front ++ [mark] = (bodyRun text).1 ∧ power <+: (bodyRun text).2 := by
  have body := longest_bodyRun text
  have whole := bodyRun_append text
  obtain ⟨s, digits, rfl, sign⟩ := signed_cases inPower
  have marked : front ++ [mark] ∈ numberBody :=
    (append_mem_numberBody (isAsciiWordPart_of_isExponentMark isMark)).mpr inFront
  obtain ⟨after, same⟩ := begins
  have split : front ++ [mark] ++ (s :: digits ++ after) = text := by simpa using same
  have shorter := body.longest _ ⟨_, split⟩ marked
  obtain ⟨more, longer⟩ := List.prefix_of_prefix_length_le ⟨_, split⟩ body.front shorter
  have twice : front ++ [mark] ++ (more ++ (bodyRun text).2) =
      front ++ [mark] ++ (s :: digits ++ after) := by
    rw [← List.append_assoc, longer, whole, split]
  have behind := List.append_cancel_left twice
  cases more with
  | nil => exact ⟨by simpa using longer, after, by simpa using behind.symm⟩
  | cons d more =>
    -- The sign would be a character of the body.
    obtain ⟨rfl, -⟩ := List.cons.inj behind
    have known := (mem_numberBody.mp body.member).1 d (by rw [← longer]; simp)
    obtain ⟨noWord, noPoint⟩ := not_isAsciiWordPart_of_isSign sign
    simp [noWord, noPoint] at known

theorem numberRun_mem (text : List Char) :
    (numberRun text).1 ∈ numberBody * maybe (one isExponentMark * signed) := by
  have body := (longest_bodyRun text).member
  have bare : (bodyRun text).1 ++ [] ∈ numberBody * maybe (one isExponentMark * signed) :=
    Language.append_mem_mul body (mem_maybe.mpr (.inl rfl))
  rw [numberRun_eq]
  split
  · next marked =>
    rcases signedRun_cases (bodyRun text).2 with longest | ⟨empty, -⟩
    · -- The mark moves from the end of the body to the exponent.
      obtain ⟨mark, last, isMark⟩ := (Option.any_eq_true _ _).mp marked
      obtain ⟨first, written⟩ := List.getLast?_eq_some_iff.mp last
      rw [written, append_mem_numberBody (isAsciiWordPart_of_isExponentMark isMark)] at body
      rw [written, List.append_assoc]
      exact Language.append_mem_mul body
        (mem_maybe.mpr (.inr (cons_mem_one_mul.mpr ⟨isMark, longest.member⟩)))
    · rwa [empty]
  · rwa [List.append_nil] at bare

theorem longest_numberRun (text : List Char) :
    Longest (numberBody * maybe (one isExponentMark * signed)) text (numberRun text).1 := by
  refine ⟨⟨_, numberRun_append text⟩, numberRun_mem text, ?_⟩
  rintro _ begins ⟨first, inFirst, second, inSecond, rfl⟩
  dsimp only at begins ⊢
  rcases mem_maybe.mp inSecond with rfl | exponent
  · rw [List.append_nil] at begins ⊢
    have atLeast : (bodyRun text).1.length ≤ (numberRun text).1.length := by
      rw [numberRun_eq]
      split <;> simp
    exact ((longest_bodyRun text).longest first begins inFirst).trans atLeast
  · obtain ⟨mark, power, rfl, isMark, inPower⟩ := mem_one_mul.mp exponent
    obtain ⟨same, behind⟩ := body_of_exponent inFirst isMark inPower begins
    have marked : (bodyRun text).1.getLast?.any isExponentMark = true := by
      simp [← same, isMark]
    rcases signedRun_cases (bodyRun text).2 with longest | ⟨-, none⟩
    · have shorter := longest.longest power behind inPower
      rw [numberRun_eq, if_pos marked, ← same]
      simpa using shorter
    · exact absurd inPower (none power behind)

theorem quotedRun_cons {quote c : Char} (plain : c ≠ '\\') (rest : List Char) :
    quotedRun quote (c :: rest) =
      if c = quote then (true, [c], rest)
      else if c = '\n' then (false, [], c :: rest)
      else ((quotedRun quote rest).1, c :: (quotedRun quote rest).2.1,
        (quotedRun quote rest).2.2) := by
  rw [quotedRun.eq_4]
  · exact fun slash => absurd slash plain
  · exact fun _ _ slash => absurd slash plain

theorem quotedRun_of_mem {quote : Char} (noSlash : quote ≠ '\\') {w : List Char}
    (member : w ∈ quotedRest quote) (back : List Char) :
    quotedRun quote (w ++ back) = (true, w, back) := by
  fun_induction quotedRun quote w with
  | case1 => exact absurd member nil_notMem_quotedRest
  | case2 => simp [cons_mem_quotedRest, noSlash.symm] at member
  | case3 rest => simp [cons_mem_quotedRest, noSlash.symm] at member
  | case4 c rest noNewline closed part after found ih =>
    rcases cons_mem_quotedRest.mp member with
      ⟨same, -⟩ | ⟨⟨-, other, -⟩, -⟩ | ⟨-, d, more, same, -, later⟩
    · exact absurd same noSlash.symm
    · exact absurd rfl other
    · cases same
      simp [quotedRun, noNewline, ih later]
  | case5 rest noEnd noEscape =>
    rcases cons_mem_quotedRest.mp member with ⟨-, rfl⟩ | ⟨⟨other, -⟩, -⟩ | ⟨slash, -⟩
    · rw [List.singleton_append, quotedRun_cons noSlash, if_pos rfl]
    · exact absurd rfl other
    · exact absurd slash noSlash
  | case6 rest noEnd noEscape other =>
    rcases cons_mem_quotedRest.mp member with ⟨same, -⟩ | ⟨⟨-, -, noNewline⟩, -⟩ | ⟨slash, -⟩
    · exact absurd same other
    · exact absurd rfl noNewline
    · simp at slash
  | case7 c rest noEnd noEscape other noNewline closed part after found ih =>
    rcases cons_mem_quotedRest.mp member with
      ⟨same, -⟩ | ⟨⟨-, plain, -⟩, later⟩ | ⟨rfl, d, more, rfl, -⟩
    · exact absurd same other
    · rw [List.cons_append, quotedRun_cons plain, if_neg other, if_neg noNewline, ih later]
    · exact absurd rfl (noEscape d more rfl)

theorem mem_of_quotedRun {quote : Char} {text : List Char}
    (closed : (quotedRun quote text).1 = true) : (quotedRun quote text).2.1 ∈ quotedRest quote := by
  fun_induction quotedRun quote text with
  | case1 => cases closed
  | case2 => cases closed
  | case3 => cases closed
  | case4 c rest noNewline isClosed part after found ih =>
    rw [found] at ih
    exact cons_mem_quotedRest.mpr (.inr (.inr ⟨rfl, c, part, rfl, noNewline, ih closed⟩))
  | case5 rest => exact cons_mem_quotedRest.mpr (.inl ⟨rfl, rfl⟩)
  | case6 => cases closed
  | case7 c rest noEnd noEscape other noNewline isClosed part after found ih =>
    rw [found] at ih
    refine cons_mem_quotedRest.mpr (.inr (.inl ⟨⟨other, ?_, noNewline⟩, ih closed⟩))
    rintro rfl
    cases rest with
    | nil => exact noEnd rfl rfl
    | cons d more => exact noEscape d more rfl rfl

/-- A character stays inside a comment when it does not end it. -/
theorem blockRun_cons {c : Char} {rest : List Char}
    (further : c = '*' → rest.head? ≠ some '/') :
    blockRun (c :: rest) = (blockRun rest).map fun (part, after) => (c :: part, after) := by
  rw [blockRun.eq_3]
  · cases blockRun rest <;> rfl
  · rintro more rfl rfl
    exact further rfl rfl

theorem blockRun_of_mem (w back : List Char) :
    (w ∈ commentRest → blockRun (w ++ back) = some (w, back)) ∧
      (w ∈ starRest → blockRun ('*' :: (w ++ back)) = some ('*' :: w, back)) := by
  induction w with
  | nil =>
    exact ⟨fun member => absurd member nil_notMem_commentRest,
      fun member => absurd member nil_notMem_starRest⟩
  | cons c w ih =>
    obtain ⟨inside, behindStar⟩ := ih
    refine ⟨fun member => ?_, fun member => ?_⟩
    · rcases cons_mem_commentRest.mp member with ⟨noStar, later⟩ | ⟨rfl, later⟩
      · rw [List.cons_append, blockRun_cons (absurd · noStar), inside later]
        rfl
      · exact behindStar later
    · rcases cons_mem_starRest.mp member with
        ⟨rfl, later⟩ | ⟨⟨noStar, noSlash⟩, later⟩ | ⟨rfl, rfl⟩
      · rw [List.cons_append, blockRun_cons (by simp), behindStar later]
        rfl
      · rw [List.cons_append, blockRun_cons (by simp [noSlash]),
          blockRun_cons (absurd · noStar), inside later]
        rfl
      · rfl

theorem mem_of_blockRun {text part rest : List Char}
    (closed : blockRun text = some (part, rest)) : part ∈ commentRest := by
  fun_induction blockRun text generalizing part with
  | case1 => cases closed
  | case2 rest =>
    cases closed
    exact cons_mem_commentRest.mpr
      (.inr ⟨rfl, cons_mem_starRest.mpr (.inr (.inr ⟨rfl, rfl⟩))⟩)
  | case3 c more noClosing ih =>
    simp only [Option.bind_eq_bind, Option.bind_eq_some_iff, Prod.exists] at closed
    obtain ⟨inside, after, found, same⟩ := closed
    cases same
    have later := ih found
    by_cases star : c = '*'
    · subst star
      refine cons_mem_commentRest.mpr (.inr ⟨rfl, ?_⟩)
      -- The text goes on behind the star, so not with the slash that would close it.
      cases inside with
      | nil => exact absurd later nil_notMem_commentRest
      | cons d inside =>
        rw [← blockRun_append _ _ _ found] at noClosing
        have noSlash : d ≠ '/' := fun same => noClosing _ rfl (by rw [same]; rfl)
        rcases cons_mem_commentRest.mp later with ⟨noStar, further⟩ | ⟨rfl, further⟩
        · exact cons_mem_starRest.mpr (.inr (.inl ⟨⟨noStar, noSlash⟩, further⟩))
        · exact cons_mem_starRest.mpr (.inl ⟨rfl, further⟩)
    · exact cons_mem_commentRest.mpr (.inl ⟨star, later⟩)

end GoDecl.Source
