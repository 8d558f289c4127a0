import GoDecl.Proofs.Spelling
import Mathlib.Data.List.TakeWhile

/-! Words in any script. What begins a word begins nothing else, so a word is one token wherever it
is parted from what follows, and it holds nothing that is rewritten. -/
namespace GoDecl

namespace Text

/-- All code points of some ranges, one by one. -/
def points : List Nat → List Nat
  | low :: high :: rest => List.range' low (high - low) ++ points rest
  | _ => []

theorem mem_points {bounds : List Nat} {n : Nat} (inside : insideBounds bounds n = true) :
    n ∈ points bounds := by
  fun_induction insideBounds bounds n with
  | case1 | case4 => contradiction
  | case2 low high rest n above below =>
    have among : n ∈ List.range' low (high - low) := List.mem_range'_1.mpr (by omega)
    exact List.mem_append_left _ among
  | case3 low high rest n above past ih => exact List.mem_append_right _ (ih inside)

section Starts

variable {c : Char} (start : isWordStart c = true)

include start

theorem ne_of_isWordStart {d : Char} (other : isWordStart d = false) : c ≠ d := by
  rintro rfl
  rw [start] at other
  cases other

theorem not_mem_of_isWordStart {marks : List Char} (others : marks.any isWordStart = false) :
    c ∉ marks :=
  fun among => List.any_eq_false.mp others c among start

/-- Ranges in which no word begins. -/
theorem not_insideBounds_of_isWordStart {bounds : List Nat}
    (others : ∀ n ∈ points bounds, isWordStart (.ofNat n) = false) :
    insideBounds bounds c.toNat = false := by
  rw [Bool.eq_false_iff]
  intro inside
  have other := others _ (mem_points inside)
  rw [Char.ofNat_toNat] at other
  exact ne_of_isWordStart start other rfl

theorem not_isTokenGap_of_isWordStart : isTokenGap c = false := by
  have noBlank : isBlank c = false := not_insideBounds_of_isWordStart start (by decide +kernel)
  have noLeft := ne_of_isWordStart start (show isWordStart '\u200e' = false by decide +kernel)
  have noRight := ne_of_isWordStart start (show isWordStart '\u200f' = false by decide +kernel)
  simp [isTokenGap, noBlank, noLeft, noRight]

theorem not_isDigit_of_isWordStart : isDigit c = false := by
  rw [Bool.eq_false_iff]
  intro digit
  have ascii : isAsciiWordPart c = true := by simp [isAsciiWordPart, isDigitOrUnderscore, digit]
  have other := forall_asciiWordPart (P := fun c => isDigit c = true → isWordStart c = false)
    (by decide) c ascii digit
  exact ne_of_isWordStart start other rfl

end Starts

end Text

namespace Token

open Text

theorem delimiter?_of_isWordStart {c : Char} (start : isWordStart c = true) :
    delimiter? c = none := by
  have noBracket : c ∉ ['(', '[', '\x7b', ')', ']', '\x7d'] :=
    not_mem_of_isWordStart start (by decide +kernel)
  simp only [List.mem_cons, List.not_mem_nil, or_false, not_or] at noBracket
  simp [delimiter?, noBracket]

theorem fence?_eq_none (count : Nat) {text : List Char}
    (noFence : ∀ c ∈ text.head?, c ≠ '#' ∧ c ≠ '\x22') : fence? count text = none := by
  unfold fence?
  split
  · exact absurd rfl (noFence '#' rfl).1
  · exact absurd rfl (noFence '\x22' rfl).2
  · rfl

theorem rawString?_eq_none (rule : QuoteRule) {text : List Char}
    (noFence : ∀ c ∈ text.head?, c ≠ '#' ∧ c ≠ '\x22') : rawString? rule text = none := by
  rw [rawString?, fence?_eq_none 0 noFence]
  rfl

/-- Behind these openings comes a word where no raw string is opened. -/
theorem noFence_of_opensLiteral {a b : Char} {text : List Char}
    (opened : (a, b) ∈ [('r', '#'), ('b', 'r'), ('c', 'r')])
    (noLiteral : opensLiteral (a :: b :: text) = false) :
    ∀ c ∈ text.head?, c ≠ '#' ∧ c ≠ '\x22' := by
  cases text with
  | nil => nofun
  | cons d more =>
    rintro _ ⟨⟩
    simp only [List.mem_cons, Prod.mk.injEq, List.not_mem_nil, or_false] at opened
    rcases opened with ⟨rfl, rfl⟩ | ⟨rfl, rfl⟩ | ⟨rfl, rfl⟩ <;>
      constructor <;> (rintro rfl; cases noLiteral)

theorem rawString?_eq_none_behindLetter (rule : QuoteRule) {text : List Char}
    (noLiteral : opensLiteral ('r' :: text) = false) : rawString? rule text = none := by
  cases text with
  | nil => rfl
  | cons d more =>
    by_cases fence : d = '#'
    · rw [fence] at noLiteral ⊢
      have noFence : fence? 1 more = none :=
        fence?_eq_none 1 (noFence_of_opensLiteral (by simp) noLiteral)
      change (fence? 1 more).bind _ = none
      rw [noFence]
      rfl
    · refine rawString?_eq_none rule ?_
      rintro _ ⟨⟩
      exact ⟨fence, by rintro rfl; cases noLiteral⟩

/-- What begins like a word is a literal only where a quote or a fence comes up. -/
theorem literal?_of_isWordStart {c : Char} {more : List Char} (start : isWordStart c = true)
    (noLiteral : opensLiteral (c :: more) = false) : literal? (c :: more) = none := by
  obtain ⟨noFloat, noInt⟩ := noNumber_of_noDigit more (not_isDigit_of_isWordStart start)
  have noDouble := ne_of_isWordStart start (show isWordStart '\x22' = false by decide +kernel)
  have noSingle := ne_of_isWordStart start (show isWordStart '\x27' = false by decide +kernel)
  generalize same : c :: more = text at noLiteral noFloat noInt ⊢
  unfold literal?
  dsimp only
  split
  · exact absurd (List.cons.inj same).1 noDouble
  · simp [rawString?_eq_none_behindLetter stringRule noLiteral]
  · cases noLiteral
  · simp [rawString?_eq_none byteRule (noFence_of_opensLiteral (by simp) noLiteral)]
  · cases noLiteral
  · cases noLiteral
  · simp [rawString?_eq_none zeroEndedRule (noFence_of_opensLiteral (by simp) noLiteral)]
  · exact absurd (List.cons.inj same).1 noSingle
  · simp [noFloat, noInt]

/-- The openings of quoted literals. -/
def openings : List (List Char) :=
  [['r', '\x22'], ['r', '#', '\x22'], ['r', '#', '#'], ['b', '\x22'], ['b', '\x27'],
    ['b', 'r', '\x22'], ['b', 'r', '#'], ['c', '\x22'], ['c', 'r', '\x22'], ['c', 'r', '#']]

theorem opensLiteral_iff {text : List Char} :
    opensLiteral text = true ↔ ∃ opening ∈ openings, opening <+: text := by
  constructor
  · intro opens
    unfold opensLiteral at opens
    split at opens
    case h_11 => cases opens
    all_goals simp [openings, List.cons_prefix_cons]
  · rintro ⟨opening, known, more, rfl⟩
    simp only [openings, List.mem_cons, List.not_mem_nil, or_false] at known
    rcases known with rfl | rfl | rfl | rfl | rfl | rfl | rfl | rfl | rfl | rfl <;> rfl

/-- What a word is parted by completes no opening. -/
theorem opensLiteral_append {text rest : List Char} (parted : Parted rest)
    (noLiteral : opensLiteral text = false) :
    opensLiteral (text ++ rest) = false := by
  rw [Bool.eq_false_iff]
  intro opens
  obtain ⟨opening, known, begins⟩ := opensLiteral_iff.mp opens
  have all : openings.all (fun opening => ' ' ∉ opening && ',' ∉ opening) = true := by decide
  obtain ⟨noBlank, noComma⟩ : ' ' ∉ opening ∧ ',' ∉ opening := by
    simpa using List.all_eq_true.mp all opening known
  rcases List.prefix_or_prefix_of_prefix begins (List.prefix_append text rest) with within | longer
  · rw [opensLiteral_iff.mpr ⟨opening, known, within⟩] at noLiteral
    cases noLiteral
  · obtain ⟨more, rfl⟩ := longer
    have behind : more <+: rest := (List.prefix_append_right_inj text).mp begins
    cases more with
    | nil =>
      rw [opensLiteral_iff.mpr ⟨_, known, by simp⟩] at noLiteral
      cases noLiteral
    | cons d more =>
      obtain ⟨tail, rfl⟩ := behind
      rcases parted d rfl with rfl | rfl
      · exact noBlank (by simp)
      · exact noComma (by simp)

/-- Names that `r#` is not put in front of. -/
def unraised : List String := ["_", "super", "self", "Self", "crate"]

/-- How a word is written: like a name, with or without `r#` in front. -/
inductive WordText : List Char → Prop where
  | plain {c : Char} {part : List Char} (start : isWordStart c = true)
      (parts : ∀ d ∈ part, isWordPart d = true) : WordText (c :: part)
  | raised {c : Char} {part : List Char} (start : isWordStart c = true)
      (parts : ∀ d ∈ part, isWordPart d = true) (free : .ofList (c :: part) ∉ unraised) :
      WordText ('r' :: '#' :: c :: part)

theorem afterWord?_eq_nil {text : List Char} (whole : afterWord? text = some []) :
    ∃ c part, text = c :: part ∧ isWordStart c = true ∧ ∀ d ∈ part, isWordPart d = true := by
  cases text with
  | nil => cases whole
  | cons c part =>
    simp only [afterWord?, Option.ite_none_right_eq_some, Option.some.injEq,
      List.dropWhile_eq_nil_iff] at whole
    exact ⟨c, part, rfl, whole⟩

theorem wordText_of_anyWord? {text : List Char} (whole : anyWord? text = some (text, [])) :
    WordText text := by
  unfold anyWord? at whole
  split at whole
  · next more =>
    obtain ⟨rest, word, made⟩ := Option.bind_eq_some_iff.mp whole
    simp only [Option.ite_none_left_eq_some, Option.some.injEq, Prod.mk.injEq, List.cons.injEq,
      true_and] at made
    obtain ⟨free, name, rfl⟩ := made
    rw [name] at free
    obtain ⟨c, part, rfl, start, parts⟩ := afterWord?_eq_nil word
    exact .raised start parts (by simpa [unraised] using free)
  · obtain ⟨rest, word, made⟩ := Option.bind_eq_some_iff.mp whole
    obtain ⟨-, rfl⟩ := Prod.mk.inj (Option.some.inj made)
    obtain ⟨c, part, rfl, start, parts⟩ := afterWord?_eq_nil word
    exact .plain start parts

theorem isWordStart_r : isWordStart 'r' = true := by decide +kernel

theorem not_mem_of_noPart {c : Char} (noPart : isWordPart c = false) {text : List Char}
    (parts : ∀ d ∈ text, isWordPart d = true) : c ∉ text := by
  intro among
  rw [parts c among] at noPart
  cases noPart

namespace WordText

variable {text : List Char} (word : WordText text)

include word

/-- It begins like a name, also with `r#` in front. -/
theorem start : ∃ c part, text = c :: part ∧ isWordStart c = true := by
  cases word with
  | plain start parts => exact ⟨_, _, rfl, start⟩
  | raised start parts free => exact ⟨_, _, rfl, isWordStart_r⟩

theorem not_mem {c : Char} (noPart : isWordPart c = false) (noFence : c ≠ '#') : c ∉ text := by
  have starts {d : Char} (start : isWordStart d = true) : isWordPart d = true := by
    simp [isWordPart, start]
  cases word with
  | plain start parts =>
    exact not_mem_of_noPart noPart (List.forall_mem_cons.mpr ⟨starts start, parts⟩)
  | raised start parts free =>
    have noR := not_mem_of_noPart noPart (List.forall_mem_singleton.mpr (starts isWordStart_r))
    have others := not_mem_of_noPart noPart (List.forall_mem_cons.mpr ⟨starts start, parts⟩)
    simp only [List.mem_cons, List.not_mem_nil, or_false, not_or] at noR others ⊢
    exact ⟨noR, noFence, others⟩

variable {rest : List Char} (parted : Parted rest)

include parted

/-- The whole word is read wherever it is parted from what follows. -/
theorem anyWord?_append : anyWord? (text ++ rest) = some (text, rest) := by
  have apart : ∀ d, rest.head? = some d → isWordPart d = false :=
    fun d first => (parted.noPart d first).1
  cases word with
  | @plain c part start parts =>
    have noFence : ∀ more, c :: (part ++ rest) ≠ 'r' :: '#' :: more := by
      intro more same
      have behind : part ++ rest = '#' :: more := (List.cons.inj same).2
      cases part with
      | nil =>
        have first : rest.head? = some '#' := congrArg List.head? behind
        rcases parted '#' first with mark | mark <;> cases mark
      | cons d part =>
        obtain ⟨rfl, -⟩ := List.cons.inj behind
        have noPart : isWordPart '#' = false := by decide +kernel
        rw [parts '#' List.mem_cons_self] at noPart
        cases noPart
    have read := afterWord?_append c part rest start parts apart
    have name : readPart (c :: (part ++ rest)) rest = c :: part := readPart_append (c :: part) rest
    -- `noFence` is what rules out the reading behind `r#`.
    simp [anyWord?, read, name]
  | @raised c part start parts free =>
    have read := afterWord?_append c part rest start parts apart
    have name : readPart (c :: (part ++ rest)) rest = c :: part := readPart_append (c :: part) rest
    have other : unraised.contains (.ofList (c :: part)) = false := by simpa using free
    simp only [List.cons_append, anyWord?, read, Option.bind_eq_bind, Option.bind_some, name]
    exact if_neg (ne_true_of_eq_false other)

end WordText

end Token

/-- The text is one word, as words are read. -/
def IsWord (n : String) : Prop := Token.word? n.toList = some (n.toList, [])

instance (n : String) : Decidable (IsWord n) := inferInstanceAs (Decidable (_ = _))

namespace IsWord

open Text Token

variable {n : String} (word : IsWord n)

include word

theorem wordText : opensLiteral n.toList = false ∧ WordText n.toList := by
  unfold IsWord word? at word
  split at word
  · cases word
  · next noLiteral => exact ⟨by simpa using noLiteral, wordText_of_anyWord? word⟩

/-- A word is one token wherever it is parted from what follows. -/
theorem cuts : Cuts n.toList (.word n) := by
  intro rest parted
  obtain ⟨noLiteral, text⟩ := word.wordText
  have noLiteral := opensLiteral_append parted noLiteral
  have read := text.anyWord?_append parted
  obtain ⟨c, part, same, start⟩ := text.start
  have noGap := not_isTokenGap_of_isWordStart start
  have noBracket := delimiter?_of_isWordStart start
  have noMark : c ∉ punctuation := not_mem_of_isWordStart start (by decide +kernel)
  have noSlash : c ≠ '/' := by rintro rfl; exact noMark (by decide)
  have named : String.ofList n.toList = n := String.ofList_toList
  rw [same] at noLiteral read named ⊢
  refine ⟨.of_cons _ noGap noBracket noSlash, fun p => ?_, ?_⟩
  · have unread : literal? (c :: (part ++ rest)) = none :=
      literal?_of_isWordStart start noLiteral
    have noPunct : punct? (c :: (part ++ rest)) = none := by
      simp [punct?, mark?, noMark, noSlash]
    rw [List.cons_append] at noLiteral read ⊢
    simp [leaf?, unread, noPunct, word?, noLiteral, read, named]
  · simp only [List.length_append, List.length_cons]
    omega

end IsWord

end GoDecl
