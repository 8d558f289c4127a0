import GoDecl.Proofs.Escapes
import GoDecl.Proofs.Literals

/-! Inspected strings and runes are literals of themselves. The quotes hold whatever is written
between them together, so the normal form keeps it, one token has it all, and its escapes mean what
they were written for. -/
namespace GoDecl

open Text Source Token

section Quotes

variable (hides : Char → Bool)

theorem quotedRun_quotedBy {quote : Char} (known : isQuote quote) (text rest : List Char) :
    quotedRun quote (text.flatMap (escapedBy hides quote) ++ quote :: rest) =
      (true, text.flatMap (escapedBy hides quote) ++ [quote], rest) :=
  quotedRun_written known (writes_escapedBy hides known) text rest

theorem quotedBy_append (quote : Char) (text rest : List Char) :
    quotedBy hides quote text ++ rest =
      quote :: (text.flatMap (escapedBy hides quote) ++ quote :: rest) := by
  simp [quotedBy]

/-- Quotes keep what is between them away from the normal form. -/
theorem normalPieces_quotedBy {quote : Char} (known : isQuote quote) (text rest : List Char) :
    normalPieces (quotedBy hides quote text ++ rest) =
      quotedBy hides quote text ++ normalPieces rest := by
  have closed := quotedRun_quotedBy hides known text rest
  rw [quotedBy_append, normalPieces_cons]
  generalize text.flatMap (escapedBy hides quote) ++ quote :: rest = after at closed ⊢
  rcases known with rfl | rfl
  · have noBack : doubleQuote ≠ backQuote := by decide
    have piece : firstPiece doubleQuote after =
        (⟨.string, quotedBy hides doubleQuote text⟩, rest) := by
      simp only [firstPiece, noBack, if_false, if_true, closed]
      rfl
    rw [piece]
    rfl
  · have noBack : singleQuote ≠ backQuote := by decide
    have noDouble : singleQuote ≠ doubleQuote := by decide
    have piece : firstPiece singleQuote after =
        (⟨.rune, quotedBy hides singleQuote text⟩, rest) := by
      simp only [firstPiece, noBack, noDouble, if_false, if_true, closed]
      rfl
    rw [piece]
    rfl

theorem turns_quotedBy {quote : Char} (known : isQuote quote) (text : List Char) :
    Turns (quotedBy hides quote text) (quotedBy hides quote text) where
  begins := ⟨quote, _, rfl, by rcases known with rfl | rfl <;> decide⟩
  turns rest _ := normalPieces_quotedBy hides known text rest

/-- The literal of a text between double quotes. -/
def stringLiteral (text : List Char) : Literal :=
  .string (.ofList (quotedBy hides doubleQuote text)) (.ofList text)

/-- The literal of a character between single quotes. -/
def runeLiteral (c : Char) : Literal :=
  .rune (.ofList (quotedBy hides singleQuote [c])) c

variable {rest : List Char}

theorem Parted.afterSuffix (parted : Parted rest) : afterSuffix rest = rest := by
  cases rest with
  | nil => rfl
  | cons c more =>
    rcases parted c rfl with rfl | rfl
    · rfl
    · rfl

theorem literal?_string (text : List Char) (parted : Parted rest) :
    literal? (quotedBy hides doubleQuote text ++ rest) = some (stringLiteral hides text, rest) := by
  have enough : text.length <
      (text.flatMap (escapedBy hides doubleQuote) ++ doubleQuote :: rest).length := by
    have each c := (writes_escapedBy hides (.inl rfl) c : Writes doubleQuote c _).length_pos
    have := length_le_flatMap each text
    simp only [List.length_append, List.length_cons]
    omega
  have read : string? stringRule (text.flatMap (escapedBy hides doubleQuote) ++ doubleQuote :: rest)
      = some (text, rest) :=
    stringBody?_written (writes_escapedBy hides (.inl rfl)) text rest enough
  have written := readPart_append (quotedBy hides doubleQuote text) rest
  rw [quotedBy_append] at written ⊢
  simp only [doubleQuote] at read written ⊢
  simp only [literal?, read, Option.bind_eq_bind, Option.bind_some, parted.afterSuffix, written]
  rfl

theorem literal?_rune (c : Char) (parted : Parted rest) :
    literal? (quotedBy hides singleQuote [c] ++ rest) = some (runeLiteral hides c, rest) := by
  have read : rune? stringRule ([c].flatMap (escapedBy hides singleQuote) ++ singleQuote :: rest) =
      some (c, rest) := by
    rw [List.flatMap_singleton]
    exact (writes_escapedBy hides (.inr rfl) c).rune?_append rest
  have written := readPart_append (quotedBy hides singleQuote [c]) rest
  rw [quotedBy_append] at written ⊢
  simp only [singleQuote] at read written ⊢
  simp only [literal?, read, Option.bind_eq_bind, Option.bind_some, parted.afterSuffix, written]
  rfl

theorem cuts_quotedBy {quote : Char} (known : isQuote quote) {text : List Char} {literal : Literal}
    (read : ∀ rest, Parted rest →
      literal? (quotedBy hides quote text ++ rest) = some (literal, rest)) :
    Cuts (quotedBy hides quote text) (.literal literal) := by
  intro rest parted
  have opens : Opens (quotedBy hides quote text ++ rest) := by
    rcases known with rfl | rfl <;> exact .of_cons _ (by decide) rfl (by decide)
  refine ⟨opens, fun p => ?_, ?_⟩
  · simp [leaf?, read rest parted]
  · simp only [quotedBy, List.length_append, List.length_cons]
    omega

theorem cuts_string (text : List Char) :
    Cuts (quotedBy hides doubleQuote text) (.literal (stringLiteral hides text)) :=
  cuts_quotedBy hides (.inl rfl) fun _ => literal?_string hides text

theorem cuts_rune (c : Char) :
    Cuts (quotedBy hides singleQuote [c]) (.literal (runeLiteral hides c)) :=
  cuts_quotedBy hides (.inr rfl) fun _ => literal?_rune hides c

end Quotes

theorem eval_stringLiteral (hides : Char → Bool) (s : String) (env : Environment) :
    (stringLiteral hides s.toList).eval env = .ok (.string s) := by
  rw [stringLiteral, Literal.eval, String.ofList_toList]

theorem eval_runeLiteral (hides : Char → Bool) (c : Char) (env : Environment) :
    (runeLiteral hides c).eval env = .ok (.rune c) := rfl

/-- A name declared as a quoted text has the value of its literal. -/
theorem evaluate_quotedBy (hides : Char → Bool) {quote : Char} (known : isQuote quote)
    {text : List Char} {literal : Literal} {value : Value}
    (cuts : Cuts (quotedBy hides quote text) (.literal literal)) (noBool : ∀ x, literal ≠ .bool x)
    (valued : ∀ env, literal.eval env = .ok value) (settings : Settings) (env : Environment)
    (room : env.depth < settings.maxDepth) :
    (evaluate settings ("var v = " ++ .ofList (quotedBy hides quote text)) env).answer =
      .ok [some value] := by
  have turns : Turns (String.ofList (quotedBy hides quote text)).toList
      (quotedBy hides quote text) := by
    rw [String.toList_ofList]
    exact turns_quotedBy hides known text
  have named : (["v"] : List String) ≠ [] := by simp
  have nonempty : [()] ≠ [] := by simp
  exact evaluate_literals named (by decide) nonempty (fun _ _ => turns) (fun _ _ => cuts)
    (fun _ => noBool) (fun _ => valued) rfl settings env room

/-- What is shown of a string or a rune between the brackets is a literal of the same value,
whichever characters are written as their code points. -/
theorem evaluate_inspected (settings : Settings) (env : Environment)
    (room : env.depth < settings.maxDepth) :
    (∀ s q, (Value.string s).inspect = "String(" ++ q ++ ")" →
      (evaluate settings ("var v = " ++ q) env).answer = .ok [some (.string s)]) ∧
    (∀ c q, (Value.rune c).inspect = "Char(" ++ q ++ ")" →
      (evaluate settings ("var v = " ++ q) env).answer = .ok [some (.rune c)]) ∧
    ∀ hides : Char → Bool,
      (∀ s, (evaluate settings
          ("var v = " ++ .ofList (quotedBy hides doubleQuote s.toList)) env).answer =
        .ok [some (.string s)]) ∧
      ∀ c, (evaluate settings ("var v = " ++ .ofList (quotedBy hides singleQuote [c])) env).answer =
        .ok [some (.rune c)] := by
  have strings (hides : Char → Bool) (s : String) :=
    evaluate_quotedBy hides (.inl rfl) (cuts_string hides s.toList) nofun
      (fun env => eval_stringLiteral hides s env) settings env room
  have runes (hides : Char → Bool) (c : Char) :=
    evaluate_quotedBy hides (.inr rfl) (cuts_rune hides c) nofun
      (fun env => eval_runeLiteral hides c env) settings env room
  refine ⟨fun s q shown => ?_, fun c q shown => ?_, fun hides => ⟨strings hides, runes hides⟩⟩
  · have same : q = .ofList (quotedBy isHidden doubleQuote s.toList) := by
      rw [Value.inspect, String.append_left_inj, String.append_right_inj] at shown
      rw [← shown, ← toList_quotedString, String.ofList_toList]
    rw [same]
    exact strings isHidden s
  · have same : q = .ofList (quotedBy isHidden singleQuote [c]) := by
      rw [Value.inspect, String.append_left_inj, String.append_right_inj] at shown
      rw [← shown, ← toList_quotedChar, String.ofList_toList]
    rw [same]
    exact runes isHidden c

/-- Quotes, a backslash, a zero in front of a digit, line ends, a back quote, a point, what would
open a comment, a character that shows nothing and one beyond the first plane; a quote between
quotes; and a text whose characters are all written as their code points. -/
theorem evaluate_inspected_hard :
    let s := "\"\\\x0012\r\n`.5//é\u200b😀'"
    let q := "\"\\\"\\\\\\012\\r\\n`.5//é\\u\x7b200b\x7d😀'\""
    0 < ({} : Settings).maxDepth ∧ (Value.string s).inspect = "String(" ++ q ++ ")" ∧
    (evaluate {} ("var v = " ++ q) {}).answer = .ok [some (.string s)] ∧
    (Value.rune '\'').inspect = "Char(" ++ "'\\''" ++ ")" ∧
    (evaluate {} ("var v = " ++ "'\\''") {}).answer = .ok [some (.rune '\'')] ∧
    (evaluate {} ("var v = " ++ "\"\\u\x7b61\x7d\\u\x7b2e\x7d\"") {}).answer =
      .ok [some (.string "a.")] := by
  intro s q
  obtain ⟨strings, runes, all⟩ := evaluate_inspected {} {} (by decide)
  have shown : (Value.string s).inspect = "String(" ++ q ++ ")" := by decide +kernel
  have shownRune : (Value.rune '\'').inspect = "Char(" ++ "'\\''" ++ ")" := by decide +kernel
  exact ⟨by decide, shown, strings s q shown, shownRune, runes _ _ shownRune,
    (all fun _ => true).1 "a."⟩

end GoDecl
