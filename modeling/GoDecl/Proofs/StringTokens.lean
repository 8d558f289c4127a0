import GoDecl.Proofs.Leading
import GoDecl.Proofs.Literals
import GoDecl.Proofs.StringBodies
import GoDecl.Proofs.TokenPlaces
import GoDecl.Proofs.Words

/-! Strings that are declared. A declared string token has the value that it has by itself just
where the normal form leaves the token as it is. -/
namespace GoDecl

open Text Source Token Grammar

/-- The text is one token, a string between double quotes and its suffix, which stands for `s`. -/
def IsStringToken (text : List Char) (s : String) : Prop :=
  text.head? = some doubleQuote ∧ literal? text = some (.string (.ofList text) s, [])

instance (text : List Char) (s : String) : Decidable (IsStringToken text s) :=
  inferInstanceAs (Decidable (_ ∧ _))

/-- Behind a double quote there is a string or nothing. -/
theorem literal?_quote (more : List Char) :
    literal? (doubleQuote :: more) = (string? stringRule more).map fun (body, rest) =>
      (.string (.ofList (readPart (doubleQuote :: more) (afterSuffix rest))) (.ofList body),
        afterSuffix rest) := by
  change (string? stringRule more).bind _ = _
  cases string? stringRule more <;> rfl

theorem IsStringToken.cases {text : List Char} {s : String} (token : IsStringToken text s) :
    ∃ more body rest, text = doubleQuote :: more ∧ string? stringRule more = some (body, rest) ∧
      afterSuffix rest = [] ∧ s = .ofList body := by
  obtain ⟨first, read⟩ := token
  cases text with
  | nil => contradiction
  | cons c more =>
    obtain rfl : c = doubleQuote := Option.some.inj first
    rw [literal?_quote] at read
    obtain ⟨⟨body, rest⟩, body', made⟩ := Option.map_eq_some_iff.mp read
    simp only [Prod.mk.injEq, Literal.string.injEq] at made
    exact ⟨more, body, rest, rfl, body', made.2, made.1.2.symm⟩

theorem opens_quote (more : List Char) : Opens (doubleQuote :: more) :=
  .of_cons more (by decide) rfl (by decide)

theorem leads_quote {more body rest : List Char}
    (read : string? stringRule more = some (body, rest)) :
    ∃ text, Leads (doubleQuote :: more) (.literal (.string text (.ofList body)))
      (afterSuffix rest) := by
  have found := literal?_quote more
  rw [read, Option.map_some] at found
  refine ⟨.ofList (readPart (doubleQuote :: more) (afterSuffix rest)), opens_quote more,
    fun p => ?_, ?_⟩
  · simp only [leaf?, found]
  · have left : rest <:+ more := leaves_stringBody? _ _ _ _ read
    have shorter := ((afterSuffix_suffix rest).trans left).length_le
    simp only [List.length_cons]
    omega

theorem breaks_quote {more : List Char} (unread : string? stringRule more = none) :
    Breaks (doubleQuote :: more) := by
  refine .here (opens_quote more) fun p => ?_
  have noLiteral := literal?_quote more
  rw [unread, Option.map_none] at noLiteral
  simp only [leaf?, noLiteral]
  rfl

/-- A suffix is a word, and nothing in it can be rewritten. -/
theorem not_mem_suffix {rest : List Char} (suffix : afterSuffix rest = []) {c : Char}
    (known : c ∈ ['.', backQuote]) : c ∉ rest := by
  obtain ⟨noPart, noFence⟩ : isWordPart c = false ∧ c ≠ '#' := by
    simp only [List.mem_cons, List.not_mem_nil, or_false] at known
    rcases known with rfl | rfl <;> decide +kernel
  cases word : afterWord? rest with
  | none =>
    have empty : rest = [] := by simpa [afterSuffix, word] using suffix
    simp [empty]
  | some left =>
    have whole : left = [] := by simpa [afterSuffix, word] using suffix
    rw [whole] at word
    obtain ⟨d, part, rfl, start, parts⟩ := afterWord?_eq_nil word
    exact (WordText.plain start parts).not_mem noPart noFence

theorem normalPieces_suffix {rest : List Char} (suffix : afterSuffix rest = []) :
    normalPieces rest = rest := by
  rw [← normal_eq]
  exact normal_unmarked (not_mem_suffix suffix (by simp)) (not_mem_suffix suffix (by simp))

/-- A string on one line is its own normal form. -/
theorem normalPieces_stringToken {text : List Char} {s : String} (token : IsStringToken text s)
    (oneLine : '\n' ∉ text) : normalPieces text = text := by
  obtain ⟨more, body, rest, rfl, read, suffix, -⟩ := token.cases
  obtain ⟨part, closed⟩ :=
    (readsBody_of_stringBody? read).quotedRun fun among => oneLine (List.mem_cons_of_mem _ among)
  have whole := quotedRun_append doubleQuote more
  rw [closed] at whole
  have noBack : doubleQuote ≠ backQuote := by decide
  have piece : firstPiece doubleQuote more = (⟨.string, doubleQuote :: part⟩, rest) := by
    simp only [firstPiece, noBack, if_false, if_true, closed]
  rw [normalPieces_cons, piece, normalPieces_suffix suffix]
  rw [← whole]
  rfl

theorem normal_varText_one {x : List Char} (plain : isPlainWord x = true) {c : Char}
    (noBlank : isBlank c = false) (rest : List Char) :
    normal (varText [x] [c :: rest]) = varText [x] [normalPieces (c :: rest)] := by
  have declared := normalPieces_declared (show [x] ≠ [] by simp) (by simpa using plain) (c :: rest)
  rw [normalPieces_blank (by rintro d ⟨⟩; exact noBlank)] at declared
  rw [normal_eq]
  simpa [varText, enumeration] using declared

/-- The first token of the value comes behind the name and the equals sign. -/
theorem begins_varText {x value after : List Char} {make : Position → Token}
    (plain : isPlainWord x = true) (leads : Leads value make after) :
    Begins (varText [x] [value]) fun tokens => ∃ p q joint r u,
      tokens = [.word "var" p, .word (.ofList x) q, .punct '=' joint r, make u] := by
  have first := ((Begins.start after).leaf leads).gap isTokenGap_blank
  have equals := (first.leaf (leads_equals _)).gap isTokenGap_blank
  have name := (equals.leaf (cuts_word plain _ (Parted.blank _))).gap isTokenGap_blank
  have keyword := name.leaf (cuts_word isPlainWord_var _ (Parted.blank _))
  rw [← varText_one] at keyword
  refine keyword.imp ?_
  rintro _ ⟨p, _, rfl, q, _, rfl, r, _, rfl, u, _, rfl, rfl⟩
  exact ⟨p, q, _, r, u, rfl⟩

section Tokens

variable {text : List Char} {s : String} (token : IsStringToken text s)

include token

theorem leads_stringToken : Leads text (.literal (.string (.ofList text) s)) [] := by
  obtain ⟨more, _, _, rfl, -⟩ := token.cases
  exact ⟨opens_quote more, fun p => by simp only [leaf?, token.2], by simp⟩

theorem lex_stringToken :
    ∃ p, lex text = .ok [.literal (.string (.ofList text) s) p] := by
  obtain ⟨tokens, read, p, _, rfl, rfl⟩ :=
    lex_of_yields (Yields.nil.leaf (leads_stringToken token)) (by rw [token.1]; decide)
  exact ⟨p, read⟩

/-- A string is read with its own declaration where the normal form leaves it alone. -/
theorem readAll_stringToken (same : normalPieces text = text) {x : List Char}
    (plain : isPlainWord x = true) :
    ∃ tokens, lex (normal (varText [x] [text])) = .ok tokens ∧
      Declaration.readAll tokens =
        .ok [.untyped (.ofList x) [.literal (.string (.ofList text) s)]] := by
  have kept : normal (varText [x] [text]) = varText [x] [text] := by
    obtain ⟨more, _, _, rfl, -⟩ := token.cases
    rw [normal_varText_one plain (by decide), same]
  have value : Yields (enumeration [text]) fun tokens => ∃ p more,
      tokens = .literal (.string (.ofList text) s) p :: more ∧ more = [] := by
    rw [enumeration_singleton]
    exact Yields.nil.leaf (leads_stringToken token)
  have row := yields_varText (show [x] ≠ [] by simp) (by simpa using plain) value
  obtain ⟨tokens, read, p, joint, q, front, back, rfl, named, r, _, rfl, rfl⟩ :=
    lex_of_yields row (by simp [varText])
  refine ⟨_, by rw [kept, read], ?_⟩
  have valued : Enumerated (Spells fun _ : Unit => .literal (.string (.ofList text) s)) [()]
      [.literal (.string (.ofList text) s) r] := ⟨(), [], _, [], rfl, rfl, ⟨r, rfl⟩, .nil⟩
  exact readAll_literals named valued joint q (fun _ _ => Literal.noConfusion) p

end Tokens

/-- A string in which something is rewritten is not read, or it begins another value. -/
theorem not_evaluate_stringToken {L v : String} (token : IsStringToken L.toList v)
    (rewritten : normalPieces L.toList ≠ L.toList) (settings : Settings) (env : Environment) :
    (evaluate settings (varSource ["s"] [L]) env).answer ≠ .ok [some (.string v)] := by
  intro answer
  obtain ⟨declarations, parsed, filled⟩ := parse_of_evaluate answer
  obtain ⟨tokens, lexed, read⟩ := parse_eq_ok.mp parsed
  obtain ⟨more, body, rest, text, string, suffix, value⟩ := token.cases
  have source : (varSource ["s"] [L]).toList = varText [['s']] [doubleQuote :: more] := by
    rw [toList_varSource, ← text]
    rfl
  rw [text] at rewritten
  obtain ⟨front, c, d, tail, other, turned, cut, parts⟩ :=
    (normalPieces_cases _).resolve_left rewritten
  rw [source, normal_varText_one (by decide) (by decide), parts] at lexed
  cases front with
  | nil =>
    have quote : doubleQuote = c := (List.cons.inj cut).1
    cases turned <;> contradiction
  | cons e front =>
    obtain ⟨rfl, rfl⟩ := List.cons.inj cut
    cases again : string? stringRule (front ++ d :: other) with
    | none =>
      obtain ⟨place, refused⟩ := lex_of_breaks
        (breaks_varText (show [['s']] ≠ [] by simp) (by decide)
          (show Breaks (enumeration [doubleQuote :: (front ++ d :: other)]) by
            simpa [enumeration] using breaks_quote again)) (by simp [varText])
      rw [List.cons_append, refused] at lexed
      cases lexed
    | some found =>
      obtain ⟨body', rest'⟩ := found
      obtain ⟨written, leads⟩ := leads_quote again
      obtain ⟨_, behind, rfl, p, q, joint, r, u, rfl⟩ :=
        lex_of_begins (begins_varText (by decide) leads) (by simp [varText]) lexed
      obtain ⟨e, values, others, led, rfl⟩ := readAll_ledBy p q r u joint "s" behind read
      -- The value begins with the string that was read, and that one is no part of the other.
      have valued : e.value env = .ok (.string v) := value_of_slots filled
      rcases led.value valued with ⟨longer, same⟩ | ⟨b, same⟩
      · have inside : c ∉ rest := not_mem_suffix suffix turned.known
        refine (readsBody_of_stringBody? string).not_beginning turned rfl inside again
          ⟨longer.toList, ?_⟩
        have equal : v = .ofList body' ++ longer := by simpa using same
        have whole : (String.ofList body).toList = body := String.toList_ofList
        rw [← whole, ← value, equal, String.toList_append, String.toList_ofList]
      · cases same

theorem isPlainWord_s : isPlainWord ['s'] = true := by decide

theorem eval_string (text s : String) {max : Nat} {env : Environment} (room : env.depth < max) :
    ((Expr.literal (.string text s)).eval max env).answer = .ok (.string s) := by
  rw [Expr.eval_leaf _ _ _ rfl, if_pos room]
  rfl

section Kept

variable {L v : String} (token : IsStringToken L.toList v)

include token

theorem parse_stringToken : Expr.parse L = .ok (.literal (.string L v)) := by
  obtain ⟨p, lexed⟩ := lex_stringToken token
  rw [String.ofList_toList] at lexed
  exact Expr.parse_of_lex lexed (Expr.writtenAs_literal (.string L v) nofun p)

/-- A string that the normal form leaves alone is declared with its value. -/
theorem evaluate_kept (same : normalPieces L.toList = L.toList) (settings : Settings)
    (env : Environment) (room : env.depth < settings.maxDepth) :
    (evaluate settings (varSource ["s"] [L]) env).answer = .ok [some (.string v)] ∧
      (evaluate settings (varSource ["s"] [L]) env).env =
        env.bindAll [("s", some (.string v))] := by
  obtain ⟨tokens, lexed, read⟩ := readAll_stringToken token same isPlainWord_s
  have source : (varSource ["s"] [L]).toList = varText [['s']] [L.toList] := toList_varSource ..
  rw [String.ofList_toList] at read
  rw [← source] at lexed
  let declared : List Declaration := [.untyped "s" [.literal (.string L v)]]
  have parsed : Declaration.parse (varSource ["s"] [L]) = .ok declared :=
    parse_eq_ok.mpr ⟨tokens, lexed, read⟩
  have value := eval_string L v room
  have answer : (evalDeclarations settings declared env).answer = [some (.string v)] := by
    rw [(evalDeclarations_filledBy settings declared).answer, slots_untyped, value]
    rfl
  obtain ⟨answered, bound⟩ := evaluate_of_parse_ok settings _ env declared parsed
  rw [evalDeclarations_env, answer] at bound
  rw [answer] at answered
  exact ⟨answered, bound⟩

end Kept

/-- A declared string has the value that it has by itself just where the normal form leaves it as it
is, as it does with all that is on one line. -/
theorem evaluate_stringToken {L v : String} (token : IsStringToken L.toList v) (settings : Settings)
    (env : Environment) (room : env.depth < settings.maxDepth) :
    let outcome := evaluate settings ("var s = " ++ L) env
    (∃ e, Expr.parse L = .ok e ∧ (e.eval settings.maxDepth env).answer = .ok (.string v)) ∧
    (outcome.answer = .ok [some (.string v)] ↔ normal L.toList = L.toList) ∧
    (normal L.toList = L.toList → env.prelude.contains "s" = false →
      outcome.env.get? "s" = some (.string v)) ∧
    ('\n' ∉ L.toList → normal L.toList = L.toList) := by
  intro outcome
  have source : "var s = " ++ L = varSource ["s"] [L] := rfl
  rw [normal_eq]
  refine ⟨⟨_, parse_stringToken token, ?_⟩, ⟨?_, ?_⟩, ?_, normalPieces_stringToken token⟩
  · exact eval_string L v room
  · intro answer
    by_cases same : normalPieces L.toList = L.toList
    · exact same
    · exact absurd answer (not_evaluate_stringToken token same settings env)
  · exact fun same => (evaluate_kept token same settings env room).1
  · intro same free
    have bound : outcome.env = _ := (evaluate_kept token same settings env room).2
    rw [bound, Environment.get?_bindAll, free]
    rfl

/-- A string on one line, with escapes, what would be a raw string, a float and a comment, and a
suffix; and one over three lines, where a point and a back quote open nothing that is rewritten. -/
theorem evaluate_stringToken_on_lines :
    let line := "\"\\x2e`.5`//\\\"\"w"
    let lines := "\"a\\\n  b.c\r\n.d`\""
    0 < ({} : Settings).maxDepth ∧
    IsStringToken line.toList ".`.5`//\"" ∧ '\n' ∉ line.toList ∧
      (evaluate {} ("var s = " ++ line) {}).answer = .ok [some (.string ".`.5`//\"")] ∧
    IsStringToken lines.toList "ab.c\n.d`" ∧ normal lines.toList = lines.toList ∧
      ({} : Environment).prelude.contains "s" = false ∧
      (evaluate {} ("var s = " ++ lines) {}).answer = .ok [some (.string "ab.c\n.d`")] ∧
      (evaluate {} ("var s = " ++ lines) {}).env.get? "s" = some (.string "ab.c\n.d`") := by
  intro line lines
  have room : 0 < ({} : Settings).maxDepth := by decide
  have lineToken : IsStringToken line.toList ".`.5`//\"" := by decide +kernel
  have oneLine : '\n' ∉ line.toList := by decide
  have linesToken : IsStringToken lines.toList "ab.c\n.d`" := by decide +kernel
  have same : normal lines.toList = lines.toList := by decide +kernel
  obtain ⟨-, first, -, kept⟩ := evaluate_stringToken lineToken {} {} room
  obtain ⟨-, second, bound, -⟩ := evaluate_stringToken linesToken {} {} room
  exact ⟨room, lineToken, oneLine, first.mpr (kept oneLine), linesToken, same, rfl,
    second.mpr same, bound same rfl⟩

/-- Behind the end of a line, what would begin a float is rewritten, so the string gets a digit that
it does not have by itself. -/
theorem evaluate_stringToken_behind_newline :
    let text := "\"a\n.5\""
    IsStringToken text.toList "a\n.5" ∧
      (∃ e, Expr.parse text = .ok e ∧ (e.eval 256 {}).answer = .ok (.string "a\n.5")) ∧
      (evaluate {} ("var s = " ++ text) {}).answer = .ok [some (.string "a\n0.5")] ∧
      (evaluate {} ("var s = " ++ text) {}).answer ≠ .ok [some (.string "a\n.5")] := by
  intro text
  have token : IsStringToken text.toList "a\n.5" := by decide +kernel
  have other : (evaluate {} ("var s = " ++ text) {}).answer = .ok [some (.string "a\n0.5")] := by
    decide +kernel
  refine ⟨token, ⟨_, parse_stringToken token, eval_string _ _ (by decide)⟩, other, ?_⟩
  rw [other]
  decide

end GoDecl
