import GoDecl.Proofs.Lines
import GoDecl.Proofs.Rows

/-! Declarations as they are written: names and values in a row, with commas between them. A row is
normalised item by item, and the body of a raw string is an item like any other. -/
namespace GoDecl

open Text Source Token

/-- A character that ends a name or a value: there is none, or a blank or a comma. -/
def Parted (rest : List Char) : Prop := ∀ c ∈ rest.head?, c = ' ' ∨ c = ','

theorem Parted.nil : Parted [] := by simp [Parted]

theorem Parted.blank (rest : List Char) : Parted (' ' :: rest) := by simp [Parted]

theorem Parted.comma (rest : List Char) : Parted (',' :: rest) := by simp [Parted]

theorem Parted.cases {rest : List Char} (parted : Parted rest) :
    rest = [] ∨ (∃ more, rest = ' ' :: more) ∨ ∃ more, rest = ',' :: more := by
  cases rest with
  | nil => exact .inl rfl
  | cons c more =>
    rcases parted c rfl with rfl | rfl
    · exact .inr (.inl ⟨more, rfl⟩)
    · exact .inr (.inr ⟨more, rfl⟩)

/-- Nothing of a word is left in front of such a character. -/
theorem Parted.noPart {rest : List Char} (parted : Parted rest) (c : Char)
    (first : rest.head? = some c) :
    isWordPart c = false ∧ (isLetter c || isNumber c || c = '_') = false := by
  rcases parted c first with rfl | rfl <;> decide

/-- Texts that each come behind a comma. -/
def behindCommas (texts : List (List Char)) : List Char := texts.flatMap ([',', ' '] ++ ·)

theorem behindCommas_cons (text : List Char) (texts : List (List Char)) :
    behindCommas (text :: texts) = ',' :: ' ' :: (text ++ behindCommas texts) := by
  simp [behindCommas]

/-- Texts with commas between them. -/
def enumeration (texts : List (List Char)) : List Char := [',', ' '].intercalate texts

theorem enumeration_cons (text : List Char) (texts : List (List Char)) :
    enumeration (text :: texts) = text ++ behindCommas texts := by
  induction texts generalizing text with
  | nil => simp [enumeration, behindCommas]
  | cons next texts ih =>
    have apart : enumeration (text :: next :: texts) =
        text ++ [',', ' '] ++ enumeration (next :: texts) := List.intercalate_cons_cons
    rw [apart, ih, behindCommas_cons]
    simp

theorem Parted.behindCommas {rest : List Char} (parted : Parted rest) (texts : List (List Char)) :
    Parted (behindCommas texts ++ rest) := by
  cases texts with
  | nil => exact parted
  | cons text texts =>
    rw [behindCommas_cons]
    exact Parted.comma _

/-- A declaration of names without a type. -/
def varText (names values : List (List Char)) : List Char :=
  ['v', 'a', 'r', ' '] ++ enumeration names ++ [' ', '=', ' '] ++ enumeration values

/-- Plain characters that no literal begins with. -/
def isPlainStart (c : Char) : Bool := isAsciiWordPart c && c ≠ 'r' && hexValue? c = none

/-- A word in plain characters that begins like no literal. -/
def isPlainWord : List Char → Bool
  | [] => false
  | c :: part => isPlainStart c && part.all isAsciiWordPart

theorem isPlainWord_var : isPlainWord ['v', 'a', 'r'] = true := by decide

theorem toNat_of_asciiWordPart {c : Char} (ascii : isAsciiWordPart c = true) : c.toNat < 128 := by
  have low (d : Char) (le : c ≤ d) : c.toNat ≤ d.toNat := le
  simp only [isAsciiWordPart, isDigitOrUnderscore, isDigit, Bool.or_eq_true, Bool.and_eq_true,
    decide_eq_true_eq] at ascii
  rcases ascii with ((⟨-, le⟩ | rfl) | ⟨-, le⟩) | ⟨-, le⟩
  · exact Nat.lt_of_le_of_lt (low _ le) (by decide)
  · decide
  · exact Nat.lt_of_le_of_lt (low _ le) (by decide)
  · exact Nat.lt_of_le_of_lt (low _ le) (by decide)

/-- Facts about plain characters are checked one character at a time. -/
theorem forall_asciiWordPart {P : Char → Prop}
    (each : ∀ n < 128, isAsciiWordPart (.ofNat n) = true → P (.ofNat n)) (c : Char)
    (ascii : isAsciiWordPart c = true) : P c := by
  have same : Char.ofNat c.toNat = c := Char.ofNat_toNat c
  have holds := each c.toNat (toNat_of_asciiWordPart ascii)
  rw [same] at holds
  exact holds ascii

theorem wordPart_of_ascii (c : Char) (ascii : isAsciiWordPart c = true) :
    isWordPart c = true ∧ (isLetter c || isNumber c || c = '_') = true :=
  forall_asciiWordPart (P := fun c => isWordPart c = true ∧
    (isLetter c || isNumber c || c = '_') = true) (by decide) c ascii

/-- What the first character of a plain word is and is not. -/
structure OpensWord (c : Char) : Prop where
  letter : (isLetter c || c = '_') = true
  start : isWordStart c = true
  noDigit : hexValue? c = none
  noQuote : c ∉ [backQuote, doubleQuote, singleQuote]
  noLiteral : c ∉ ['\x22', 'r', 'b', 'c', '\x27']
  noMark : c ∉ punctuation
  noGap : isTokenGap c = false
  noBracket : delimiter? c = none

theorem opensWord_of_plain {c : Char} (plain : isPlainStart c = true) : OpensWord c := by
  have ascii : isAsciiWordPart c = true := by
    simp only [isPlainStart, Bool.and_eq_true] at plain
    exact plain.1.1
  obtain ⟨letter, start, noDigit, noQuote⟩ := forall_asciiWordPart (P := fun c =>
    isPlainStart c = true → (isLetter c || c = '_') = true ∧ isWordStart c = true ∧
      hexValue? c = none ∧ c ∉ [backQuote, doubleQuote, singleQuote]) (by decide) c ascii plain
  obtain ⟨noLiteral, noMark⟩ := forall_asciiWordPart (P := fun c => isPlainStart c = true →
    c ∉ ['\x22', 'r', 'b', 'c', '\x27'] ∧ c ∉ punctuation) (by decide) c ascii plain
  obtain ⟨noGap, noBracket⟩ := forall_asciiWordPart (P := fun c => isPlainStart c = true →
    isTokenGap c = false ∧ (delimiter? c).isNone = true) (by decide) c ascii plain
  exact ⟨letter, start, noDigit, noQuote, noLiteral, noMark, noGap,
    Option.isNone_iff_eq_none.mp noBracket⟩

/-- The characters of a plain word. -/
theorem plainWord_cases {word : List Char} (plain : isPlainWord word = true) :
    ∃ c part, word = c :: part ∧ OpensWord c ∧ ∀ d ∈ part, isAsciiWordPart d = true := by
  cases word with
  | nil => contradiction
  | cons c part =>
    simp only [isPlainWord, Bool.and_eq_true, List.all_eq_true] at plain
    exact ⟨c, part, rfl, opensWord_of_plain plain.1, plain.2⟩

theorem normalPieces_word {word rest : List Char} (plain : isPlainWord word = true)
    (parted : Parted rest) : normalPieces (word ++ rest) = word ++ normalPieces rest := by
  obtain ⟨c, part, rfl, opens, ascii⟩ := plainWord_cases plain
  have noQuote := opens.noQuote
  simp only [List.mem_cons, List.not_mem_nil, or_false, not_or] at noQuote
  obtain ⟨noBack, noDouble, noSingle⟩ := noQuote
  have noDigit : isDigit c = false := isDigit_of_hexValue?_none opens.noDigit
  have read := run_of_stop (fun c => isLetter c || isNumber c || c = '_') part rest
    (fun d member => (wordPart_of_ascii d (ascii d member)).2)
    fun d first => (parted.noPart d first).2
  have piece : firstPiece c (part ++ rest) = (⟨.word, c :: part⟩, rest) := by
    simp only [firstPiece, noBack, noDouble, noSingle, noDigit, opens.letter, read, if_false,
      if_true, Bool.false_eq_true]
  rw [List.cons_append, normalPieces_cons, piece]
  rfl

/-- A blank in front of anything else stays as it is. -/
theorem normalPieces_blank {rest : List Char}
    (last : ∀ c, rest.head? = some c → isBlank c = false) :
    normalPieces (' ' :: rest) = ' ' :: normalPieces rest := by
  have read := run_of_stop isBlank [] rest (by simp) last
  have blank : firstPiece ' ' rest =
      (⟨.blank, ' ' :: (run isBlank rest).1⟩, (run isBlank rest).2) := rfl
  have piece : firstPiece ' ' rest = (⟨.blank, [' ']⟩, rest) := by
    rw [List.nil_append] at read
    rw [blank, read]
  rw [normalPieces_cons, piece]
  rfl

theorem normalPieces_mark (mark : Char) (rest : List Char) (known : mark ∈ [',', '=']) :
    normalPieces (mark :: rest) = mark :: normalPieces rest := by
  have piece : firstPiece mark rest = (⟨.mark, [mark]⟩, rest) := by
    simp only [List.mem_cons, List.not_mem_nil, or_false] at known
    rcases known with rfl | rfl <;> rfl
  rw [normalPieces_cons, piece]
  rfl

/-- A body ends at the first back quote, whatever else is in it. -/
theorem normalPieces_rawString {body : List Char} (unquoted : backQuote ∉ body) (rest : List Char) :
    normalPieces (backQuote :: (body ++ backQuote :: rest)) = fenced body ++ normalPieces rest := by
  have read := run_of_stop (· ≠ backQuote) body (backQuote :: rest)
    (fun d member => by simpa using ne_of_mem_of_not_mem member unquoted) (by simp)
  have piece : firstPiece backQuote (body ++ backQuote :: rest) =
      (⟨.rawString, backQuote :: body ++ [backQuote]⟩, rest) := by
    simp only [firstPiece, if_true, read]
  rw [normalPieces_cons, piece]
  simp [Piece.normal]

/-- An item of a row and its normal form. -/
structure Turns (written normal : List Char) : Prop where
  begins : ∃ c part, written = c :: part ∧ isBlank c = false
  turns : ∀ rest, Parted rest → normalPieces (written ++ rest) = normal ++ normalPieces rest

/-- The blank in front of an item stays, and the item takes its normal form. -/
theorem Turns.afterBlank {written normal rest : List Char} (item : Turns written normal)
    (parted : Parted rest) :
    normalPieces (' ' :: (written ++ rest)) = ' ' :: (normal ++ normalPieces rest) := by
  obtain ⟨c, part, same, noBlank⟩ := item.begins
  have last : ∀ d, (written ++ rest).head? = some d → isBlank d = false := by
    intro d first
    rw [same, List.cons_append, List.head?_cons, Option.some.injEq] at first
    exact first ▸ noBlank
  rw [normalPieces_blank last, item.turns rest parted]

section Rows

variable {α : Type} (written normal : α → List Char) {items : List α}
  (each : ∀ a ∈ items, Turns (written a) (normal a)) {rest : List Char} (parted : Parted rest)

include each parted

theorem normalPieces_behindCommas :
    normalPieces (behindCommas (items.map written) ++ rest) =
      behindCommas (items.map normal) ++ normalPieces rest := by
  induction items with
  | nil => rfl
  | cons a items ih =>
    have later := ih fun b member => each b (List.mem_cons_of_mem a member)
    have first := (each a List.mem_cons_self).afterBlank (parted.behindCommas (items.map written))
    simp only [List.map_cons, behindCommas_cons, List.cons_append, List.append_assoc]
    rw [normalPieces_mark ',' _ (by decide), first, later]

theorem normalPieces_enumeration (nonempty : items ≠ []) :
    normalPieces (' ' :: (enumeration (items.map written) ++ rest)) =
      ' ' :: (enumeration (items.map normal) ++ normalPieces rest) := by
  cases items with
  | nil => contradiction
  | cons a items =>
    have others := normalPieces_behindCommas written normal
      (fun b member => each b (List.mem_cons_of_mem a member)) parted
    have first := (each a List.mem_cons_self).afterBlank (parted.behindCommas (items.map written))
    simp only [List.map_cons, enumeration_cons, List.append_assoc]
    rw [first, others]

end Rows

theorem turns_word {word : List Char} (plain : isPlainWord word = true) : Turns word word where
  begins := by
    obtain ⟨c, part, rfl, opens, _⟩ := plainWord_cases plain
    have noGap := opens.noGap
    simp only [isTokenGap, Bool.or_eq_false_iff] at noGap
    exact ⟨c, part, rfl, noGap.1.1⟩
  turns _ parted := normalPieces_word plain parted

/-- A body between back quotes. -/
def backQuoted (body : List Char) : List Char := backQuote :: (body ++ [backQuote])

theorem turns_backQuoted {body : List Char} (unquoted : backQuote ∉ body) :
    Turns (backQuoted body) (fenced body) where
  begins := ⟨backQuote, body ++ [backQuote], rfl, by decide⟩
  turns rest _ := by
    rw [← normalPieces_rawString unquoted rest]
    simp [backQuoted]

/-- What stands in front of the values of a declaration stays as it is. -/
theorem normalPieces_declared {names : List (List Char)} (named : names ≠ [])
    (plain : ∀ name ∈ names, isPlainWord name = true) (values : List Char) :
    normalPieces (['v', 'a', 'r', ' '] ++ enumeration names ++ [' ', '='] ++ ' ' :: values) =
      ['v', 'a', 'r', ' '] ++ enumeration names ++ [' ', '='] ++ normalPieces (' ' :: values) := by
  have equals : normalPieces (' ' :: '=' :: ' ' :: values) =
      ' ' :: '=' :: normalPieces (' ' :: values) := by
    rw [normalPieces_blank (by rintro c ⟨⟩; decide), normalPieces_mark '=' _ (by decide)]
  have words := normalPieces_enumeration id id (fun name member => turns_word (plain name member))
    (Parted.blank ('=' :: ' ' :: values)) named
  have keyword := normalPieces_word isPlainWord_var
    (Parted.blank (enumeration names ++ ' ' :: '=' :: ' ' :: values))
  rw [List.map_id, equals] at words
  rw [words] at keyword
  simpa using keyword

/-- The normal form of a declaration has its values turned one by one and all else as it was. -/
theorem normal_varText {α : Type} (written turned : α → List Char) {names : List (List Char)}
    {items : List α} (named : names ≠ []) (nonempty : items ≠ [])
    (plain : ∀ name ∈ names, isPlainWord name = true)
    (each : ∀ a ∈ items, Turns (written a) (turned a)) :
    normal (varText names (items.map written)) = varText names (items.map turned) := by
  have values := normalPieces_enumeration written turned each Parted.nil nonempty
  have declared := normalPieces_declared named plain (enumeration (items.map written))
  rw [List.append_nil] at values
  rw [values] at declared
  rw [normal_eq]
  simpa [varText, normalPieces, pieces, cutPieces] using declared

end GoDecl
