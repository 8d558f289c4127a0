import GoDecl.Proofs.Rows
import GoDecl.Source.Normal

/-! The fence around a raw string. It is one mark longer than every run of marks behind a quote of
the body, so the first quote that such a run follows is the closing one, and reading the fenced text
gives the body back. -/
namespace GoDecl

open Text Source Token

/-- What a raw string stands for: its body without carriage returns. -/
def rawText (body : List Char) : List Char := body.filter (· ≠ '\r')

theorem return_not_mem_rawText (body : List Char) : '\r' ∉ rawText body := by
  simp [rawText]

theorem prefix_replicate_iff (n : Nat) (text : List Char) :
    List.replicate n '#' <+: text ↔ n ≤ (text.takeWhile (· = '#')).length := by
  induction n generalizing text with
  | zero => simp
  | succ n ih =>
    cases text with
    | nil => simp [List.replicate_succ]
    | cons c rest =>
      rw [List.replicate_succ, List.cons_prefix_cons, ih, List.takeWhile_cons]
      by_cases mark : c = '#' <;> simp [mark, eq_comm]

/-- The longest run is as long as the longest row of a quote and marks that the text contains. -/
theorem le_longestFence_iff (n : Nat) (positive : 0 < n) (text : List Char) :
    n ≤ longestFence text ↔ doubleQuote :: List.replicate n '#' <:+: text := by
  induction text with
  | nil => simp [longestFence]; omega
  | cons c rest ih =>
    rw [List.infix_cons_iff, List.cons_prefix_cons, prefix_replicate_iff, ← ih, longestFence]
    by_cases quote : c = doubleQuote
    · simp only [quote, if_true, true_and]
      omega
    · simp [quote, eq_comm]

theorem startsWithFence_replicate (n : Nat) (rest : List Char) :
    startsWithFence n (List.replicate n '#' ++ rest) = true := by
  induction n with
  | zero => rfl
  | succ n ih => exact ih

/-- A run that is too short is too short also where it ends with the body. -/
theorem startsWithFence_of_short (n : Nat) (body rest : List Char)
    (short : (body.takeWhile (· = '#')).length < n) :
    startsWithFence n (body ++ doubleQuote :: rest) = false := by
  induction body generalizing n with
  | nil =>
    obtain ⟨n, rfl⟩ : ∃ less, n = less + 1 := ⟨n - 1, by simp at short; omega⟩
    rfl
  | cons c body ih =>
    obtain ⟨n, rfl⟩ : ∃ less, n = less + 1 := ⟨n - 1, by omega⟩
    by_cases mark : c = '#'
    · subst mark
      simp only [List.takeWhile_cons, decide_true, if_true, List.length_cons] at short
      exact ih n (by omega)
    · simp [startsWithFence, mark]

theorem rawBody?_append (fence : Nat) (body rest : List Char) (noReturn : '\r' ∉ body)
    (short : longestFence body < fence) :
    rawBody? stringRule fence (body ++ doubleQuote :: (List.replicate fence '#' ++ rest)) =
      some (body, rest) := by
  induction body with
  | nil => simp [rawBody?, doubleQuote, startsWithFence_replicate]
  | cons c body ih =>
    simp only [List.mem_cons, not_or] at noReturn
    rw [longestFence] at short
    -- A quote of the body has too few marks behind it, also where the body ends in them.
    have closing : (c = '\x22' && startsWithFence fence
        (body ++ doubleQuote :: (List.replicate fence '#' ++ rest))) = false := by
      by_cases quote : c = doubleQuote
      · rw [if_pos quote] at short
        rw [startsWithFence_of_short fence body _ (by omega), Bool.and_false]
      · have other : c ≠ '\x22' := quote
        simp [other]
    have inner := ih noReturn.2 (by split at short <;> omega)
    have plain : stringRule.plain c = true := rfl
    rw [List.cons_append, rawBody?, closing, plain, inner]
    · rfl
    · rintro _ rfl
      exact absurd rfl noReturn.1
    · rintro rfl
      exact absurd rfl noReturn.1

theorem fence?_replicate (count n : Nat) (rest : List Char) :
    fence? count (List.replicate n '#' ++ doubleQuote :: rest) =
      if 255 < count + n then none else some (count + n, rest) := by
  induction n generalizing count with
  | zero => rfl
  | succ n ih =>
    rw [List.replicate_succ, List.cons_append, fence?, ih]
    simp only [Nat.add_right_comm, Nat.add_assoc]

/-- The text behind the letter of a fenced body, and what follows it. -/
def behindLetter (body rest : List Char) : List Char :=
  let fence := List.replicate (longestFence (rawText body) + 1) '#'
  fence ++ doubleQuote :: (rawText body ++ doubleQuote :: (fence ++ rest))

theorem fenced_append (body rest : List Char) :
    fenced body ++ rest = 'r' :: behindLetter body rest := by
  simp [fenced, behindLetter, rawText]

/-- A fence that is not too long is read together with its body, and nothing of what follows is. -/
theorem rawString?_behindLetter (body rest : List Char)
    (short : longestFence (rawText body) < 255) :
    rawString? stringRule (behindLetter body rest) = some (rawText body, rest) := by
  have whole := rawBody?_append _ (rawText body) rest (return_not_mem_rawText body)
    (Nat.lt_succ_self _)
  rw [rawString?, behindLetter, fence?_replicate, if_neg (by omega), Nat.zero_add]
  exact whole

theorem rawString?_of_long (body rest : List Char) (long : 255 ≤ longestFence (rawText body)) :
    rawString? stringRule (behindLetter body rest) = none := by
  rw [rawString?, behindLetter, fence?_replicate, if_pos (by omega)]
  rfl

/-- The literal that a raw string turns into. -/
def rawLiteral (body : List Char) : Literal :=
  .string (.ofList (fenced body)) (.ofList (rawText body))

theorem literal?_fenced (body rest : List Char) (short : longestFence (rawText body) < 255)
    (apart : afterWord? rest = none) :
    literal? (fenced body ++ rest) = some (rawLiteral body, rest) := by
  have read := rawString?_behindLetter body rest short
  have suffix : afterSuffix rest = rest := by simp [afterSuffix, apart]
  have written : readPart ('r' :: behindLetter body rest) rest = fenced body := by
    rw [← fenced_append, readPart_append]
  rw [fenced_append]
  simp only [literal?, read, Option.bind_eq_bind, Option.bind_some, suffix, written]
  rfl

theorem opens_fenced (body rest : List Char) : Opens (fenced body ++ rest) := by
  rw [fenced_append]
  exact .of_cons _ (by decide) rfl (by decide)

theorem leads_fenced (body rest : List Char) (short : longestFence (rawText body) < 255)
    (apart : afterWord? rest = none) :
    Leads (fenced body ++ rest) (.literal (rawLiteral body)) rest where
  toOpens := opens_fenced body rest
  read p := by simp [leaf?, literal?_fenced body rest short apart]
  shorter := by simp [fenced]; omega

/-- Behind a fence that is too long there is no token at all: two marks in a row do not let the
letter stand for a word. -/
theorem leaf?_of_long (p : Position) (body rest : List Char)
    (long : 255 ≤ longestFence (rawText body)) : leaf? p (fenced body ++ rest) = none := by
  have unread : literal? (fenced body ++ rest) = none := by
    rw [fenced_append]
    simp [literal?, rawString?_of_long body rest long]
  obtain ⟨more, marks⟩ : ∃ more, fenced body ++ rest = 'r' :: '#' :: '#' :: more := by
    obtain ⟨n, count⟩ : ∃ n, longestFence (rawText body) = n + 1 :=
      ⟨longestFence (rawText body) - 1, by omega⟩
    rw [fenced_append, behindLetter, count, List.replicate_succ, List.replicate_succ]
    exact ⟨_, rfl⟩
  have noMark : punct? (fenced body ++ rest) = none := by
    rw [marks]
    simp [punct?, mark?, punctuation]
  have noWord : word? (fenced body ++ rest) = none := by
    rw [marks]
    rfl
  have noError : errorMark.isPrefixOf? (fenced body ++ rest) = none := by
    rw [marks]
    rfl
  simp [leaf?, unread, noMark, noWord, noError]

theorem breaks_fenced (body rest : List Char) (long : 255 ≤ longestFence (rawText body)) :
    Breaks (fenced body ++ rest) :=
  .here (opens_fenced body rest) fun p => leaf?_of_long p body rest long

end GoDecl
