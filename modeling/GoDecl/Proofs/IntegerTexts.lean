import GoDecl.Proofs.Numerals
import GoDecl.Proofs.Precedence
import GoDecl.Proofs.QuotedLiterals

/-! Integers as texts. Digits are one token, and what is printed is read back: a number without a
sign as a literal, one with a sign as the negation of one. Only the least integer has a magnitude
that no literal has. -/
namespace GoDecl

open Text Token Grammar

/-- What a decimal digit is and is not. -/
structure OpensNumber (c : Char) : Prop where
  value : hexValue? c = some (c.toNat - '0'.toNat)
  small : c.toNat - '0'.toNat < 10
  noQuote : c ∉ ['\x22', 'r', 'b', 'c', '\x27']
  noMark : c ∉ ['_', 'x', 'o', '/']
  noGap : isTokenGap c = false
  noBracket : delimiter? c = none
  noPunct : c ∉ punctuation

theorem opensNumber {c : Char} (digit : isDigit c = true) : OpensNumber c := by
  have ascii : isAsciiWordPart c = true := by simp [isAsciiWordPart, isDigitOrUnderscore, digit]
  obtain ⟨value, small⟩ := forall_asciiWordPart (P := fun c => isDigit c = true →
    hexValue? c = some (c.toNat - '0'.toNat) ∧ c.toNat - '0'.toNat < 10) (by decide) c ascii digit
  obtain ⟨noQuote, noMark⟩ := forall_asciiWordPart (P := fun c => isDigit c = true →
    c ∉ ['\x22', 'r', 'b', 'c', '\x27'] ∧ c ∉ ['_', 'x', 'o', '/']) (by decide) c ascii digit
  obtain ⟨noGap, noBracket, noPunct⟩ := forall_asciiWordPart (P := fun c => isDigit c = true →
    isTokenGap c = false ∧ (delimiter? c).isNone = true ∧ c ∉ punctuation) (by decide) c ascii digit
  exact ⟨value, small, noQuote, noMark, noGap, Option.isNone_iff_eq_none.mp noBracket, noPunct⟩

section Digits

variable {digits rest : List Char} (all : ∀ c ∈ digits, isDigit c = true) (parted : Parted rest)

include all parted

theorem dropWhile_digits : (digits ++ rest).dropWhile isDigitOrUnderscore = rest := by
  rw [List.dropWhile_append_of_pos fun c member => by simp [isDigitOrUnderscore, all c member]]
  rcases parted.cases with rfl | ⟨more, rfl⟩ | ⟨more, rfl⟩ <;> rfl

theorem afterFloat?_digits : afterFloat? (digits ++ rest) = none := by
  have noFloat : afterFloatDigits? (digits ++ rest) = none := by
    rw [afterFloatDigits?, dropWhile_digits all parted]
    split
    · rfl
    · rcases parted.cases with rfl | ⟨more, rfl⟩ | ⟨more, rfl⟩ <;> rfl
  rw [afterFloat?, noFloat]
  rfl

/-- Digits are read to their end. What they amount to does not matter: the token is the text. -/
theorem readDigits_digits (n : Nat) (seen : Bool) (first : seen = true ∨ digits ≠ []) :
    ∃ value, readDigits 10 n seen (digits ++ rest) = some (value, rest) := by
  induction digits generalizing n seen with
  | nil =>
    obtain rfl : seen = true := by simpa using first
    refine ⟨n, ?_⟩
    rcases parted.cases with rfl | ⟨more, rfl⟩ | ⟨more, rfl⟩ <;> rfl
  | cons c digits ih =>
    have opens := opensNumber (all c List.mem_cons_self)
    have noLine : c ≠ '_' := by rintro rfl; exact opens.noMark (by decide)
    obtain ⟨value, read⟩ := ih (fun d member => all d (List.mem_cons_of_mem c member))
      (10 * n + (c.toNat - '0'.toNat)) true (.inl rfl)
    refine ⟨value, ?_⟩
    rw [List.cons_append, readDigits, opens.value]
    · simpa only [if_pos opens.small] using read
    · exact noLine

/-- Neither digits nor what comes behind them begin with the mark of another base. -/
theorem noRadix_digits {mark : Char} {more : List Char} (same : digits ++ rest = mark :: more) :
    mark ∉ ['x', 'o', 'b'] := by
  cases digits with
  | nil => rcases parted mark (congrArg List.head? same) with rfl | rfl <;> decide
  | cons c digits =>
    have digit := all c List.mem_cons_self
    rw [List.cons_append, List.cons.injEq] at same
    rw [← same.1]
    simp only [List.mem_cons, List.not_mem_nil, or_false]
    rintro (rfl | rfl | rfl) <;> exact absurd digit (by decide)

theorem afterInt?_digits (nonempty : digits ≠ []) : afterInt? (digits ++ rest) = some rest := by
  obtain ⟨value, read⟩ := readDigits_digits all parted 0 false (.inr nonempty)
  have decimal : radix (digits ++ rest) = (10, digits ++ rest) := by
    obtain ⟨c, digits, rfl⟩ := List.exists_cons_of_ne_nil nonempty
    have later (d : Char) (member : d ∈ digits) := all d (List.mem_cons_of_mem c member)
    rw [List.cons_append]
    unfold radix
    split
    case h_4 => rfl
    all_goals
      next same => exact absurd (noRadix_digits later parted (List.cons.inj same).2) (by decide)
  have atBreak : atWordBreak rest = true := by
    rcases parted.cases with rfl | ⟨more, rfl⟩ | ⟨more, rfl⟩ <;> rfl
  rw [afterInt?, readInt?, decimal]
  dsimp only
  rw [read]
  simp [parted.afterSuffix, atBreak]

theorem literal?_digits (nonempty : digits ≠ []) :
    literal? (digits ++ rest) = some (.int (.ofList digits), rest) := by
  have noFloat := afterFloat?_digits all parted
  have int := afterInt?_digits all parted nonempty
  have written := readPart_append digits rest
  obtain ⟨c, digits, rfl⟩ := List.exists_cons_of_ne_nil nonempty
  have plain := (opensNumber (all c List.mem_cons_self)).noQuote
  simp only [List.mem_cons, List.not_mem_nil, or_false, not_or] at plain
  obtain ⟨notDouble, notR, notB, notC, notSingle⟩ := plain
  rw [List.cons_append] at *
  simp [literal?, *]

theorem leads_digits (nonempty : digits ≠ []) :
    Leads (digits ++ rest) (.literal (.int (.ofList digits))) rest := by
  have read := literal?_digits all parted nonempty
  obtain ⟨c, digits, rfl⟩ := List.exists_cons_of_ne_nil nonempty
  have opens := opensNumber (all c List.mem_cons_self)
  have noSlash : c ≠ '/' := by rintro rfl; exact opens.noMark (by decide)
  refine ⟨.of_cons _ opens.noGap opens.noBracket noSlash, fun p => ?_, ?_⟩
  · rw [leaf?, read]
  · simp only [List.length_append, List.length_cons]
    omega

end Digits

/-- A text that is read as an expression and has an answer in a table. -/
def Evaluates (max : Nat) (env : Environment) (source : String)
    (answer : Except EvalError Value) : Prop :=
  ∃ e, Expr.parse source = .ok e ∧ (e.eval max env).answer = answer

theorem Expr.writtenAs_int (text : String) (p : Position) :
    (literal (.int text)).WrittenAs [.literal (.int text) p] := by
  have noBool (b : Bool) : Literal.int text ≠ .bool b := nofun
  exact writtenAs_literal (.int text) noBool p

theorem Expr.writtenAs_neg {operand : Expr} {tokens : Tokens} (p : Position)
    (tight : 6 ≤ operand.tightness) (written : operand.WrittenAs tokens) :
    (unary .neg operand).WrittenAs (.punct '-' false p :: tokens) :=
  ⟨.unary tight written.1, Token.unplacedAll_eq_punct_cons.mpr ⟨p, tokens, rfl, written.2⟩⟩

/-- A literal of digits has their value, if that fits, and no other literal has one. -/
theorem Literal.eval_digits (env : Environment) (text : String)
    (all : ∀ c ∈ text.toList, isDigit c = true) :
    (numeral text.toList ≤ 2 ^ 63 - 1 →
      Literal.eval env (.int text) = .ok (.int (.ofInt (numeral text.toList)))) ∧
    (2 ^ 63 - 1 < numeral text.toList →
      Literal.eval env (.int text) = .error (.malformedLiteral .int text)) := by
  refine ⟨fun fits => eval_int env all (by omega), fun large => ?_⟩
  have unread : intValue? text = none := by
    have tooLarge : ¬ Decimal.ofDigits text.toList ≤ maxInt := by
      rw [Decimal.ofDigits_eq]
      exact Nat.not_le.mpr large
    simp [intValue?, tooLarge]
  rw [eval, unread]

theorem Literal.eval_noDigits (env : Environment) {text : String}
    (other : ∃ c ∈ text.toList, isDigit c = false) :
    Literal.eval env (.int text) = .error (.malformedLiteral .int text) := by
  have unread : intValue? text = none := by
    simpa [intValue?] using fun all => absurd all (by simpa using other)
  rw [eval, unread]

/-- The digits of a magnitude are a literal of it, but for that of the least integer. -/
theorem Literal.eval_magnitude (env : Environment) {n : Int64} (other : n ≠ Int64.minValue) :
    Literal.eval env (.int (.ofList (Decimal.digits n.toInt.natAbs))) =
      .ok (.int (.ofInt n.toInt.natAbs)) := by
  have bounded : n.toInt.natAbs ≤ 2 ^ 63 - 1 := by
    have := n.le_toInt
    have := n.toInt_lt
    have : n.toInt ≠ -2 ^ 63 := fun least => other (Int64.toInt_inj.mp least)
    omega
  have digits := (eval_digits env (.ofList (Decimal.digits n.toInt.natAbs))
    (by simpa using fun _ => Decimal.isDigit_of_mem_digits)).1
  rw [String.toList_ofList, Decimal.numeral_digits] at digits
  exact digits bounded

section Digits

variable {digits : List Char} (all : ∀ c ∈ digits, isDigit c = true) (nonempty : digits ≠ [])

include all nonempty

theorem unmarked_digits : digits.head? ≠ some '\ufeff' ∧ mark? digits = none := by
  obtain ⟨c, digits, rfl⟩ := List.exists_cons_of_ne_nil nonempty
  have digit := all c List.mem_cons_self
  have opens := opensNumber digit
  have noSlash : c ≠ '/' := by rintro rfl; exact opens.noMark (by decide)
  constructor
  · simp only [List.head?_cons, ne_eq, Option.some.injEq]
    rintro rfl
    exact absurd digit (by decide)
  · simp [mark?, noSlash, opens.noPunct]

theorem lex_digits : ∃ p, lex digits = .ok [.literal (.int (.ofList digits)) p] := by
  have leads := leads_digits all Parted.nil nonempty
  rw [List.append_nil] at leads
  obtain ⟨_, lexed, p, _, rfl, rfl⟩ :=
    lex_of_yields (Yields.nil.leaf leads) (unmarked_digits all nonempty).1
  exact ⟨p, lexed⟩

theorem lex_signed_digits :
    ∃ p q, lex ('-' :: digits) = .ok [.punct '-' false p, .literal (.int (.ofList digits)) q] := by
  have leads := leads_digits all Parted.nil nonempty
  have sign : Leads ('-' :: digits) (.punct '-' (mark? digits).isSome) digits :=
    .mark '-' digits (by decide) (by decide) (by decide)
  rw [List.append_nil] at leads
  obtain ⟨_, lexed, p, _, rfl, q, _, rfl, rfl⟩ :=
    lex_of_yields ((Yields.nil.leaf leads).leaf sign) (by simp)
  rw [(unmarked_digits all nonempty).2] at lexed
  exact ⟨p, q, lexed⟩

end Digits

section Room

variable {max : Nat} {env : Environment} (room : env.depth < max)

include room

/-- A text that is one integer token has the answer of the literal. -/
theorem evaluates_of_lex {source text : String} {p : Position}
    (lexed : lex source.toList = .ok [.literal (.int text) p]) :
    Evaluates max env source (Literal.eval env (.int text)) := by
  refine ⟨_, Expr.parse_of_lex lexed (Expr.writtenAs_int text p), ?_⟩
  rw [Expr.eval_leaf _ _ _ rfl, if_pos room, Expr.value]

theorem evaluates_digits {text : String} (nonempty : text ≠ "")
    (all : ∀ c ∈ text.toList, isDigit c = true) :
    Evaluates max env text (Literal.eval env (.int text)) := by
  obtain ⟨p, lexed⟩ := lex_digits all (by simpa using nonempty)
  rw [String.ofList_toList] at lexed
  exact evaluates_of_lex room lexed

end Room

theorem evaluates_signed_digits {max : Nat} {env : Environment} (room : env.depth + 2 ≤ max)
    {digits : List Char} (all : ∀ c ∈ digits, isDigit c = true) (nonempty : digits ≠ []) :
    Evaluates max env (.ofList ('-' :: digits))
      (Literal.eval env (.int (.ofList digits)) >>= UnaryOp.neg.apply) := by
  obtain ⟨p, q, lexed⟩ := lex_signed_digits all nonempty
  rw [← String.toList_ofList (l := '-' :: digits)] at lexed
  have tight : 6 ≤ (Expr.literal (.int (.ofList digits))).tightness := by
    simp [Expr.tightness]
  have operand := Expr.writtenAs_int (.ofList digits) q
  refine ⟨_, Expr.parse_of_lex lexed (Expr.writtenAs_neg p tight operand), ?_⟩
  rw [Expr.eval_of_fits _ _ _ room]
  rfl

theorem evaluates_negative {max : Nat} {env : Environment} (room : env.depth + 2 ≤ max) {n : Int64}
    (negative : n.toInt < 0) :
    Evaluates max env (Value.int n).text
      (Literal.eval env (.int (.ofList (Decimal.digits n.toInt.natAbs))) >>=
        UnaryOp.neg.apply) := by
  have text : (Value.int n).text = .ofList ('-' :: Decimal.digits n.toInt.natAbs) := by
    rw [Value.text, Value.intText, if_pos negative]
  rw [text]
  exact evaluates_signed_digits room (fun _ => Decimal.isDigit_of_mem_digits)
    (Decimal.digits_ne_nil _)

/-- What is printed for an integer is read back, if its magnitude is one of a literal. -/
theorem evaluates_text {max : Nat} {env : Environment} (room : env.depth + 2 ≤ max) {n : Int64}
    (other : n ≠ Int64.minValue) : Evaluates max env (Value.int n).text (.ok (.int n)) := by
  have value := Literal.eval_magnitude env other
  by_cases negative : n.toInt < 0
  · have answer : -Int64.ofInt n.toInt.natAbs = n := by
      rw [← Int64.ofInt_neg, Int.ofNat_natAbs_of_nonpos negative.le, Int.neg_neg, Int64.ofInt_toInt]
    have negated : (Except.ok (Value.int (.ofInt n.toInt.natAbs)) >>= UnaryOp.neg.apply) =
        .ok (.int n) := congrArg (fun m => Except.ok (Value.int m)) answer
    rw [← negated, ← value]
    exact evaluates_negative room negative
  · have text : (Value.int n).text = .ofList (Decimal.digits n.toInt.natAbs) := by
      rw [Value.text, Value.intText, if_neg negative]
    have answer : Int64.ofInt n.toInt.natAbs = n := by
      rw [Int.natAbs_of_nonneg (not_lt.mp negative), Int64.ofInt_toInt]
    rw [answer] at value
    rw [text, ← value]
    exact evaluates_digits (by omega) (by simpa using Decimal.digits_ne_nil _)
      (by simpa using fun _ => Decimal.isDigit_of_mem_digits)

theorem evaluates_least {max : Nat} {env : Environment} (room : env.depth + 2 ≤ max) :
    Evaluates max env (Value.int Int64.minValue).text
      (.error (.malformedLiteral .int "9223372036854775808")) := by
  have magnitude : String.ofList (Decimal.digits Int64.minValue.toInt.natAbs) =
      "9223372036854775808" := by decide +kernel
  have all := List.all_eq_true.mp (show "9223372036854775808".toList.all isDigit by decide)
  have unread := (Literal.eval_digits env _ all).2 (by decide)
  have evaluates := evaluates_negative room (n := Int64.minValue) (by decide)
  rw [magnitude, unread] at evaluates
  exact evaluates

/-- Integers and their texts. A text of digits, with zeros in front or without, has their value up
to the largest integer and is malformed beyond it, as is every other integer token; and what is
printed for an integer is read back as it, except for the least one. -/
theorem Expr.integer_text_round_trips {max : Nat} {env : Environment} (room : env.depth < max) :
    (∀ text : String, text ≠ "" → (∀ c ∈ text.toList, isDigit c = true) →
      (numeral text.toList ≤ 2 ^ 63 - 1 →
        ∃ n : Int64, n.toInt = numeral text.toList ∧ Evaluates max env text (.ok (.int n))) ∧
      (2 ^ 63 - 1 < numeral text.toList →
        Evaluates max env text (.error (.malformedLiteral .int text)))) ∧
    (∀ (source text : String) (p : Position),
      lex source.toList = .ok [.literal (.int text) p] →
      (∃ c ∈ text.toList, isDigit c = false) →
        Evaluates max env source (.error (.malformedLiteral .int text))) ∧
    (env.depth + 2 ≤ max →
      (∀ n : Int64, n ≠ Int64.minValue → Evaluates max env (Value.int n).text (.ok (.int n))) ∧
      Evaluates max env (Value.int Int64.minValue).text
        (.error (.malformedLiteral .int "9223372036854775808"))) := by
  refine ⟨fun text nonempty all => ⟨fun fits => ?_, fun large => ?_⟩,
    fun source text p lexed other => ?_,
    fun room => ⟨fun n other => evaluates_text room other, ?_⟩⟩
  · refine ⟨.ofInt (numeral text.toList), Int64.toInt_ofInt_of_le (by omega) (by omega), ?_⟩
    rw [← (Literal.eval_digits env text all).1 fits]
    exact evaluates_digits room nonempty all
  · rw [← (Literal.eval_digits env text all).2 large]
    exact evaluates_digits room nonempty all
  · rw [← Literal.eval_noDigits env other]
    exact evaluates_of_lex room lexed
  · exact evaluates_least room

theorem Expr.integer_text_round_trips_of_boundary :
    (numeral "0009223372036854775807".toList ≤ 2 ^ 63 - 1 ∧
      ∃ n : Int64, n.toInt = 9223372036854775807 ∧
        Evaluates 2 {} "0009223372036854775807" (.ok (.int n))) ∧
    (∃ p, lex "0x1f".toList = .ok [.literal (.int "0x1f") p]) ∧
    Evaluates 2 {} "0x1f" (.error (.malformedLiteral .int "0x1f")) ∧
    Evaluates 2 {} "-42" (.ok (.int (-42))) ∧
    Evaluates 2 {} "-9223372036854775808"
      (.error (.malformedLiteral .int "9223372036854775808")) := by
  obtain ⟨digits, others, printed⟩ :=
    @Expr.integer_text_round_trips 2 {} (by decide)
  have fits : numeral "0009223372036854775807".toList ≤ 2 ^ 63 - 1 := by decide
  have all := List.all_eq_true.mp (show "0009223372036854775807".toList.all isDigit by decide)
  obtain ⟨n, value, evaluates⟩ := (digits _ (by decide) all).1 fits
  obtain ⟨back, least⟩ := printed (by decide)
  have marked : ∃ c ∈ "0x1f".toList, isDigit c = false := ⟨'x', by decide, rfl⟩
  refine ⟨⟨fits, n, value, evaluates⟩, ⟨_, rfl⟩, others "0x1f" "0x1f" _ rfl marked, ?_, ?_⟩
  · exact back (-42) (by decide)
  · exact least

end GoDecl
