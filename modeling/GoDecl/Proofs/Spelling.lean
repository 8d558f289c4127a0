import GoDecl.Proofs.Fences
import GoDecl.Proofs.Readers
import GoDecl.Proofs.Written

/-! The tokens of a written declaration. Its items are cut off one by one; the first that is no
token spoils the whole text. -/
namespace GoDecl

open Text Source Token Grammar

/-- A text that is one token wherever a row parts it from what follows. -/
def Cuts (text : List Char) (make : Position → Token) : Prop :=
  ∀ rest, Parted rest → Leads (text ++ rest) make rest

theorem cuts_word {word : List Char} (plain : isPlainWord word = true) :
    Cuts word (.word (.ofList word)) := by
  intro rest parted
  obtain ⟨c, part, rfl, opens, ascii⟩ := plainWord_cases plain
  have noSlash : c ≠ '/' := by rintro rfl; exact opens.noMark (by decide)
  have shorter : rest.length < (c :: part ++ rest).length := by
    simp only [List.length_append, List.length_cons]
    omega
  refine ⟨.of_cons _ opens.noGap opens.noBracket noSlash, fun p => ?_, shorter⟩
  exact leaf?_word p c part rest opens.noLiteral opens.noDigit opens.noMark opens.start
    (fun d member => (wordPart_of_ascii d (ascii d member)).1)
    fun d first => (parted.noPart d first).1

theorem cuts_fenced {body : List Char} (short : longestFence (rawText body) < 255) :
    Cuts (fenced body) (.literal (rawLiteral body)) := by
  intro rest parted
  have apart : afterWord? rest = none := by
    cases rest with
    | nil => rfl
    | cons c more =>
      have noPart := (parted.noPart c rfl).1
      simp only [isWordPart, Bool.or_eq_false_iff] at noPart
      simp [afterWord?, noPart.1.1.1.1]
  exact leads_fenced body rest short apart

theorem leads_comma (rest : List Char) :
    Leads (',' :: rest) (.punct ',' (mark? rest).isSome) rest :=
  .mark ',' rest (by decide) (by decide) (by decide)

theorem leads_equals (rest : List Char) :
    Leads ('=' :: rest) (.punct '=' (mark? rest).isSome) rest :=
  .mark '=' rest (by decide) (by decide) (by decide)

theorem isTokenGap_blank : isTokenGap ' ' = true := by decide

/-- A row of tokens in two parts. -/
def Joined (first second : Tokens → Prop) (tokens : Tokens) : Prop :=
  ∃ front back, tokens = front ++ back ∧ first front ∧ second back

section Tokens

variable {α : Type} (text : α → List Char) (make : α → Position → Token) {items : List α}
  (each : ∀ a ∈ items, Cuts (text a) (make a)) {rest : List Char} (parted : Parted rest)
  {row : Tokens → Prop} (yields : Yields rest row)

include each parted yields

theorem yields_behindCommas :
    Yields (behindCommas (items.map text) ++ rest)
      (Joined (Listed (Spells make) items) row) := by
  induction items with
  | nil => exact yields.imp fun tokens holds => ⟨[], tokens, rfl, .nil, holds⟩
  | cons a items ih =>
    have later := ih fun b member => each b (List.mem_cons_of_mem a member)
    have first := each a List.mem_cons_self _ (parted.behindCommas (items.map text))
    simp only [List.map_cons, behindCommas_cons, List.cons_append, List.append_assoc]
    refine (((later.leaf first).gap isTokenGap_blank).leaf (leads_comma _)).imp ?_
    rintro _ ⟨p, _, rfl, q, _, rfl, front, back, rfl, listed, holds⟩
    exact ⟨_, back, rfl, .cons _ p ⟨q, rfl⟩ listed, holds⟩

theorem yields_enumeration (nonempty : items ≠ []) :
    Yields (enumeration (items.map text) ++ rest)
      (Joined (Enumerated (Spells make) items) row) := by
  cases items with
  | nil => contradiction
  | cons a items =>
    have others := yields_behindCommas text make
      (fun b member => each b (List.mem_cons_of_mem a member)) parted yields
    have first := each a List.mem_cons_self _ (parted.behindCommas (items.map text))
    simp only [List.map_cons, enumeration_cons, List.append_assoc]
    refine (others.leaf first).imp ?_
    rintro _ ⟨p, _, rfl, front, back, rfl, listed, holds⟩
    have enumerated : Enumerated (Spells make) (a :: items) (make a p :: front) :=
      ⟨a, items, [make a p], front, rfl, rfl, ⟨p, rfl⟩, listed⟩
    exact ⟨make a p :: front, back, rfl, enumerated, holds⟩

end Tokens

/-- A text that spoils whatever it is the beginning of. -/
def Spoils (text : List Char) : Prop := ∀ rest, Breaks (text ++ rest)

section Faults

variable {α : Type} (text : α → List Char) {rest : List Char} (parted : Parted rest)

/-- One item, where a fault is in it or comes after it. -/
theorem breaks_item {a : α} (each : (∃ make, Cuts (text a) make) ∨ Spoils (text a))
    (bad : Spoils (text a) ∨ Breaks rest) (parted : Parted rest) : Breaks (text a ++ rest) := by
  rcases each with ⟨make, cuts⟩ | spoils
  · rcases bad with spoils | breaks
    · exact spoils rest
    · exact breaks.leaf (cuts rest parted)
  · exact spoils rest

variable {items : List α} (each : ∀ a ∈ items, (∃ make, Cuts (text a) make) ∨ Spoils (text a))
  (bad : (∃ a ∈ items, Spoils (text a)) ∨ Breaks rest)

include parted each bad

theorem breaks_behindCommas : Breaks (behindCommas (items.map text) ++ rest) := by
  induction items with
  | nil =>
    obtain ⟨_, member, _⟩ | breaks := bad
    · contradiction
    · exact breaks
  | cons a items ih =>
    simp only [List.mem_cons, exists_eq_or_imp, or_assoc] at bad
    have later := bad.imp_right (ih fun b member => each b (List.mem_cons_of_mem a member))
    have first := breaks_item text (each a List.mem_cons_self) later (parted.behindCommas _)
    simp only [List.map_cons, behindCommas_cons, List.cons_append, List.append_assoc]
    exact .leaf (leads_comma _) (first.gap isTokenGap_blank)

theorem breaks_enumeration (nonempty : items ≠ []) :
    Breaks (enumeration (items.map text) ++ rest) := by
  cases items with
  | nil => contradiction
  | cons a items =>
    simp only [List.mem_cons, exists_eq_or_imp, or_assoc] at bad
    have later := bad.imp_right
      (breaks_behindCommas text parted fun b member => each b (List.mem_cons_of_mem a member))
    simp only [List.map_cons, enumeration_cons, List.append_assoc]
    exact breaks_item text (each a List.mem_cons_self) later (parted.behindCommas _)

end Faults

/-- The parts of a declaration in front of its values. -/
theorem varText_eq (names values : List (List Char)) :
    varText names values = ['v', 'a', 'r'] ++ ' ' :: (enumeration names ++
      ' ' :: '=' :: ' ' :: enumeration values) := by
  simp [varText]

theorem enumeration_singleton (text : List Char) : enumeration [text] = text :=
  List.intercalate_singleton

/-- The declaration of one name. -/
theorem varText_one (x value : List Char) :
    varText [x] [value] = ['v', 'a', 'r'] ++ ' ' :: (x ++ ' ' :: '=' :: ' ' :: value) := by
  rw [varText_eq, enumeration_singleton, enumeration_singleton]

section Declared

variable {names values : List (List Char)} (named : names ≠ [])
  (plain : ∀ name ∈ names, isPlainWord name = true)

include named plain

/-- What comes in front of the values is read, and the rest is as the values have it. -/
theorem yields_varText {row : Tokens → Prop} (yields : Yields (enumeration values) row) :
    Yields (varText names values) fun tokens => ∃ start joint p front back,
      tokens = .word "var" start :: (front ++ .punct '=' joint p :: back) ∧
        Enumerated (Spells fun name => .word (.ofList name)) names front ∧ row back := by
  have equals := ((yields.gap isTokenGap_blank).leaf (leads_equals _)).gap isTokenGap_blank
  have words := yields_enumeration id (fun name => .word (.ofList name))
    (fun name member => cuts_word (plain name member)) (Parted.blank _) equals named
  have keyword := (words.gap isTokenGap_blank).leaf (cuts_word isPlainWord_var _ (Parted.blank _))
  rw [List.map_id, ← varText_eq] at keyword
  refine keyword.imp ?_
  rintro _ ⟨start, _, rfl, front, _, rfl, enumerated, p, back, rfl, holds⟩
  exact ⟨start, _, p, front, back, rfl, enumerated, holds⟩

theorem breaks_varText (breaks : Breaks (enumeration values)) :
    Breaks (varText names values) := by
  have equals := (Breaks.leaf (leads_equals _) (breaks.gap isTokenGap_blank)).gap isTokenGap_blank
  have words := breaks_enumeration id (Parted.blank _)
    (fun name member => .inl ⟨_, cuts_word (plain name member)⟩) (.inr equals) named
  have keyword := Breaks.leaf (cuts_word isPlainWord_var _ (Parted.blank _))
    (words.gap isTokenGap_blank)
  rwa [List.map_id, ← varText_eq] at keyword

end Declared

/-- Names and values that are one token each are cut off one by one. -/
theorem lex_varText {α : Type} {text : α → List Char} {make : α → Position → Token}
    {names : List (List Char)} {items : List α} (named : names ≠ [])
    (plain : ∀ name ∈ names, isPlainWord name = true) (nonempty : items ≠ [])
    (each : ∀ a ∈ items, Cuts (text a) (make a)) :
    ∃ start joint p front back,
      lex (varText names (items.map text)) =
        .ok (.word "var" start :: (front ++ .punct '=' joint p :: back)) ∧
      Enumerated (Spells fun name => .word (.ofList name)) names front ∧
      Enumerated (Spells make) items back := by
  have values := yields_enumeration text make each Parted.nil .nil nonempty
  rw [List.append_nil] at values
  obtain ⟨tokens, read, start, joint, p, front, back, rfl, words, literals, _, rfl, valued, rfl⟩ :=
    lex_of_yields (yields_varText named plain values) (by simp [varText])
  rw [List.append_nil] at read
  exact ⟨start, joint, p, front, literals, read, words, valued⟩

theorem lex_varText_of_long {names bodies : List (List Char)} (named : names ≠ [])
    (plain : ∀ name ∈ names, isPlainWord name = true)
    (long : ∃ b ∈ bodies, 255 ≤ longestFence (rawText b)) :
    ∃ place, lex (varText names (bodies.map fenced)) = .error place := by
  have nonempty : bodies ≠ [] := by
    obtain ⟨b, member, _⟩ := long
    exact List.ne_nil_of_mem member
  have spoiled : ∃ b ∈ bodies, Spoils (fenced b) := by
    obtain ⟨b, member, long⟩ := long
    exact ⟨b, member, fun rest => breaks_fenced b rest long⟩
  -- Bodies in front of a long one may be short or long: either way the fault comes.
  have either : ∀ b ∈ bodies, (∃ make, Cuts (fenced b) make) ∨ Spoils (fenced b) := by
    intro b _
    by_cases short : longestFence (rawText b) < 255
    · exact .inl ⟨_, cuts_fenced short⟩
    · exact .inr fun rest => breaks_fenced b rest (Nat.le_of_not_lt short)
  have values := breaks_enumeration fenced Parted.nil either (.inl spoiled) nonempty
  rw [List.append_nil] at values
  exact lex_of_breaks (breaks_varText named plain values) (by simp [varText])

end GoDecl
