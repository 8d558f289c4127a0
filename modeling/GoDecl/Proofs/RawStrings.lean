import GoDecl.Proofs.Literals

/-! Raw strings stand for their own text: a declaration of them is normalised, cut, read and
evaluated to the bodies without their carriage returns. Only a fence that would be too long stops
it. -/
namespace GoDecl

open Text Source Token Grammar

/-- The names `s1`, `s2` and so on. -/
def numberedNames (count : Nat) : List String :=
  (List.range count).map fun i => "s" ++ toString (i + 1)

theorem plain_numberedNames (count : Nat) :
    ∀ name ∈ (numberedNames count).map String.toList, isPlainWord name = true := by
  simp only [numberedNames, List.map_map, List.mem_map, Function.comp_apply]
  rintro _ ⟨i, -, rfl⟩
  have digits : ∀ c ∈ (toString (i + 1)).toList, isAsciiWordPart c = true := by
    intro c member
    rw [Nat.toString_eq_repr, Nat.toList_repr] at member
    have digit := Nat.isDigit_of_mem_toDigits (by decide) (by decide) member
    have same : isDigit c = c.isDigit := rfl
    simp [isAsciiWordPart, isDigitOrUnderscore, same, digit]
  have first : isPlainStart 's' = true := by decide
  simpa [isPlainWord, first] using digits

theorem toList_ticked (body : String) : (ticked body).toList = backQuoted body.toList := by
  simp [ticked, backQuoted, backQuote]

section Parsing

variable {names bodies : List String} (named : names ≠ [])
  (plain : ∀ name ∈ names.map String.toList, isPlainWord name = true)
  (unquoted : ∀ b ∈ bodies, backQuote ∉ b.toList)

include named plain unquoted

theorem normal_varSource (nonempty : bodies ≠ []) :
    normal (varSource names (bodies.map ticked)).toList =
      varText (names.map String.toList) ((bodies.map String.toList).map fenced) := by
  have quoted : (bodies.map ticked).map String.toList =
      (bodies.map String.toList).map backQuoted := by
    simp [List.map_map, Function.comp_def, toList_ticked]
  rw [toList_varSource, quoted]
  refine normal_varText backQuoted fenced (by simpa using named) (by simpa using nonempty) plain ?_
  simpa using fun b member => turns_backQuoted (unquoted b member)

theorem parse_rawStrings (nonempty : bodies ≠ [])
    (short : ∀ b ∈ bodies, longestFence (rawText b.toList) < 255) :
    Declaration.parse (varSource names (bodies.map ticked)) =
      .ok [.value .var [untypedSpec String.ofList rawLiteral (names.map String.toList)
        (bodies.map String.toList)]] := by
  have items := parse_literals named plain nonempty
    (fun b member => by
      rw [toList_ticked]
      exact turns_backQuoted (unquoted b member))
    (fun b member => cuts_fenced (short b member)) nofun
  rw [items]
  simp [untypedSpec]

theorem parse_rawStrings_of_long (long : ∃ b ∈ bodies, 255 ≤ longestFence (rawText b.toList)) :
    ∃ e, Declaration.parse (varSource names (bodies.map ticked)) = .error e := by
  have nonempty : bodies ≠ [] := by
    obtain ⟨b, member, _⟩ := long
    exact List.ne_nil_of_mem member
  obtain ⟨place, broken⟩ := lex_varText_of_long (by simpa using named) plain
    (show ∃ b ∈ bodies.map String.toList, 255 ≤ longestFence (rawText b) by simpa using long)
  rw [Declaration.parse, readText, normal_varSource named plain unquoted nonempty, broken]
  exact ⟨_, rfl⟩

end Parsing

def rawSlot (body : String) : Slot := some (.string (.ofList (rawText body.toList)))

theorem slots_rawLiterals (max : Nat) (zero : Option Value) (names bodies : List String)
    (paired : names.length = bodies.length) (env : Environment) (room : env.depth < max) :
    Entry.slots (entriesOf max zero names
      (bodies.map fun b => .literal (rawLiteral b.toList))) env = bodies.map rawSlot :=
  slots_literals (fun _ _ => rfl) max zero names bodies paired env room

theorem entries_rawStrings (settings : Settings) (names bodies : List String) :
    [Declaration.value .var [untypedSpec String.ofList rawLiteral (names.map String.toList)
      (bodies.map String.toList)]].flatMap (·.entries settings) =
      entriesOf settings.maxDepth none names
        (bodies.map fun b => .literal (rawLiteral b.toList)) := by
  simp [Declaration.entries, ValueSpec.entries, ValueSpec.zero?, untypedSpec, Function.comp_def]

/-- A declaration of raw strings gives each name the text of its body. Carriage returns are gone,
and everything else is as it stands between the back quotes. The condition on runs of marks is on
the text without the returns, since only there a run has its full length. -/
theorem evaluate_rawStrings (settings : Settings) (env : Environment)
    (room : env.depth < settings.maxDepth) (bodies : List String) (nonempty : bodies ≠ [])
    (unquoted : ∀ b ∈ bodies, backQuote ∉ b.toList)
    (short : ∀ b ∈ bodies, ¬ doubleQuote :: List.replicate 255 '#' <:+: rawText b.toList) :
    (evaluate settings (varSource (numberedNames bodies.length) (bodies.map ticked)) env).answer =
      .ok (bodies.map fun b => some (.string (.ofList (rawText b.toList)))) := by
  have named : numberedNames bodies.length ≠ [] := by
    simpa [numberedNames] using nonempty
  have parsed := parse_rawStrings named (plain_numberedNames _) unquoted nonempty fun b member => by
    have := short b member
    rw [← le_longestFence_iff 255 (by decide)] at this
    omega
  rw [(evaluate_of_parse_ok settings _ env _ parsed).1,
    (evalDeclarations_filledBy settings _).answer, entries_rawStrings]
  exact congrArg Except.ok
    (slots_rawLiterals _ none _ bodies (by simp [numberedNames]) env room)

/-- Bodies full of what would mean something elsewhere: quotes and marks up to the end, an escape, a
comment that opens, a point, a carriage return and letters beyond the plain ones. -/
theorem evaluate_rawStrings_hard :
    let bodies := ["a\r\n\"#\\n/* .5", "é\"##\"", ""]
    0 < ({} : Settings).maxDepth ∧ bodies ≠ [] ∧ (∀ b ∈ bodies, backQuote ∉ b.toList) ∧
    (∀ b ∈ bodies, ¬ doubleQuote :: List.replicate 255 '#' <:+: rawText b.toList) ∧
    (evaluate {} (varSource (numberedNames 3) (bodies.map ticked)) {}).answer =
      .ok [some (.string "a\n\"#\\n/* .5"), some (.string "é\"##\""), some (.string "")] := by
  intro bodies
  have unquoted : ∀ b ∈ bodies, backQuote ∉ b.toList := by decide
  have short : ∀ b ∈ bodies, ¬ doubleQuote :: List.replicate 255 '#' <:+: rawText b.toList := by
    intro b member
    rw [← le_longestFence_iff 255 (by decide)]
    revert b
    decide
  exact ⟨by decide, by decide, unquoted, short,
    evaluate_rawStrings {} {} (by decide) bodies (by decide) unquoted short⟩

/-- A mark behind a carriage return joins the run in front of it: the body has no quote with as many
marks as a fence cannot have, and yet its text has one and the source is refused. -/
theorem evaluate_rawString_joined_by_return :
    let body := String.ofList (doubleQuote :: (List.replicate 254 '#' ++ ['\r', '#']))
    0 < ({} : Settings).maxDepth ∧ backQuote ∉ body.toList ∧
    ¬ doubleQuote :: List.replicate 255 '#' <:+: body.toList ∧
    (evaluate {} (varSource (numberedNames 1) [ticked body]) {}).answer ≠
      .ok [some (.string (.ofList (rawText body.toList)))] := by
  intro body
  have written : body.toList = doubleQuote :: (List.replicate 254 '#' ++ ['\r', '#']) :=
    String.toList_ofList
  have unquoted : backQuote ∉ body.toList := by
    rw [written]
    decide +kernel
  have apart : ¬ doubleQuote :: List.replicate 255 '#' <:+: body.toList := by
    rw [← le_longestFence_iff 255 (by decide), written]
    decide +kernel
  have joined : ∃ b ∈ [body], 255 ≤ longestFence (rawText b.toList) := by
    refine ⟨body, List.mem_singleton_self _, ?_⟩
    rw [written]
    decide +kernel
  obtain ⟨e, refused⟩ := parse_rawStrings_of_long (show numberedNames 1 ≠ [] by decide)
    (plain_numberedNames 1) (List.forall_mem_singleton.mpr unquoted) joined
  have answer := (evaluate_of_parse_error {} _ {} e refused).1
  refine ⟨by decide, unquoted, apart, ?_⟩
  rw [List.map_singleton] at answer
  rw [answer]
  exact nofun

end GoDecl
