import GoDecl.Proofs.Leading
import GoDecl.Proofs.Words

/-! Names that are read back. Any word may be declared, but where an expression is read a reserved
word has its own role: a few of them stand for a name all the same, a few are an expression without
a value, and at all others the whole source is refused. -/
namespace GoDecl

open Text Source Token Grammar Entry

/-- Reserved words that are read as names all the same. -/
def namingWords : List String := ["crate", "false", "self", "Self", "super", "true"]

/-- Reserved words that are an expression by themselves and have no value. -/
def idleWords : List String := ["_", "break", "continue", "return", "yield"]

/-- An expression can use the word as a name. -/
def IsUsable (n : String) : Prop := n ∈ reserved → n ∈ namingWords

instance (n : String) : Decidable (IsUsable n) := inferInstanceAs (Decidable (_ → _))

/-- By itself the word is an expression with this slot. -/
def StandsFor (n : String) (slot : Environment → Slot) : Prop :=
  ∀ (c : Cursor) p, ∃ e : Expr, expression (c.at [.word n p]) = .ok (e, c.at []) ∧
    e.height = 1 ∧ ∀ env, (e.value env).toOption = slot env

/-- By itself the word is no expression. -/
def IsRefused (n : String) : Prop :=
  ∀ (c : Cursor) p, ∃ fault, expression (c.at [.word n p]) = .error fault

theorem lookup_toOption (env : Environment) (n : String) :
    (env.lookup n).toOption = env.get? n := by
  unfold Environment.lookup
  cases env.get? n <;> rfl

theorem standsFor_namingWord : ∀ n ∈ namingWords, StandsFor n (·.get? n) := by
  simp only [namingWords, List.forall_mem_cons]
  repeat refine ⟨fun _ _ => ⟨_, rfl, rfl, fun env => lookup_toOption env _⟩, ?_⟩
  exact List.forall_mem_nil _

theorem standsFor_idleWord : ∀ n ∈ idleWords, StandsFor n fun _ => none := by
  simp only [idleWords, List.forall_mem_cons]
  repeat refine ⟨fun _ _ => ⟨_, rfl, rfl, fun _ => rfl⟩, ?_⟩
  exact List.forall_mem_nil _

/-- A reading of one word comes to its end without a look at what else there is, so that the words
can be tried one by one. -/
theorem isRefused_reserved : ∀ n ∈ reserved, n ∈ namingWords ∨ n ∈ idleWords ∨ IsRefused n := by
  simp only [reserved, List.forall_mem_cons]
  repeat' apply And.intro
  all_goals first
    | exact .inl (by decide)
    | exact .inr (.inl (by decide))
    | exact .inr (.inr fun _ _ => ⟨_, rfl⟩)
    | exact List.forall_mem_nil _

theorem standsFor_usable {n : String} (usable : IsUsable n) : StandsFor n (·.get? n) := by
  by_cases role : n ∈ reserved
  · exact standsFor_namingWord n (usable role)
  · intro c p
    have read := Expr.expression_takes (.name n) [.word n p] ⟨.name n role, rfl⟩ c [] rfl
    exact ⟨.name n, read, rfl, fun env => lookup_toOption env n⟩

theorem isRefused_of_not_usable {n : String} (role : ¬ IsUsable n) (busy : n ∉ idleWords) :
    IsRefused n := by
  simp only [IsUsable, Classical.not_imp] at role
  obtain ⟨known, noName⟩ := role
  exact ((isRefused_reserved n known).resolve_left noName).resolve_left busy

/-- There is nothing around a declared word but blanks and marks. -/
theorem IsWord.not_mem_varText {n : String} (word : IsWord n) {c : Char}
    (noPart : isWordPart c = false) (noMark : c ∉ ['#', ' ', '=']) {value : List Char}
    (noValue : c ∉ value) : c ∉ varText [n.toList] [value] := by
  have noFence : c ≠ '#' := by rintro rfl; exact noMark (by simp)
  have noName := word.wordText.2.not_mem noPart noFence
  have parts : ['v', 'a', 'r'].all isWordPart = true := by decide +kernel
  have noWord := not_mem_of_noPart noPart (List.all_eq_true.mp parts)
  simp only [List.mem_cons, List.not_mem_nil, or_false, not_or] at noMark noWord
  simp [varText_one, noName, noValue, noMark, noWord]

theorem IsWord.normal_varText {n : String} (word : IsWord n) {value : List Char}
    (noQuote : backQuote ∉ value) (noPoint : '.' ∉ value) :
    normal (varText [n.toList] [value]) = varText [n.toList] [value] :=
  normal_unmarked (word.not_mem_varText (by decide +kernel) (by decide) noQuote)
    (word.not_mem_varText (by decide +kernel) (by decide) noPoint)

/-- A declaration of one word is cut off in front of its value. -/
theorem IsWord.yields_varText {n : String} (word : IsWord n) {value : List Char}
    {row : Tokens → Prop} (yields : Yields value row) :
    Yields (varText [n.toList] [value]) fun tokens => ∃ p q joint r more,
      tokens = .word "var" p :: .word n q :: .punct '=' joint r :: more ∧ row more := by
  have equals := ((yields.gap isTokenGap_blank).leaf (leads_equals _)).gap isTokenGap_blank
  have name := (equals.leaf (word.cuts _ (Parted.blank _))).gap isTokenGap_blank
  have keyword := name.leaf (cuts_word isPlainWord_var _ (Parted.blank _))
  rw [varText_one]
  refine keyword.imp ?_
  rintro _ ⟨p, _, rfl, q, _, rfl, r, more, rfl, holds⟩
  exact ⟨p, q, _, r, more, rfl, holds⟩

/-- The digit at the end of a declaration. -/
theorem leads_one {rest : List Char} (ends : rest.head? ∈ [none, some ';']) :
    Leads ('1' :: rest) (.literal (.int "1")) rest := by
  have noPart : isWordPart ';' = false := by decide +kernel
  have noStart : isWordStart ';' = false := by decide +kernel
  have found : afterFloat? ('1' :: rest) = none ∧ afterInt? ('1' :: rest) = some rest := by
    cases rest with
    | nil => exact ⟨rfl, rfl⟩
    | cons c rest =>
      obtain rfl : c = ';' := by simpa using ends
      refine ⟨rfl, ?_⟩
      simp [afterInt?, readInt?, radix, readDigits, hexValue?, isDigit, afterSuffix, afterWord?,
        noStart, atWordBreak, noPart]
  have written : readPart ('1' :: rest) rest = ['1'] := readPart_append ['1'] rest
  refine ⟨.of_cons _ (by decide) rfl (by decide), fun p => ?_, Nat.lt_succ_self _⟩
  simp [leaf?, literal?, found, written]

/-- A name is bound to one, and another one to the name. -/
def readBack (n m : String) : List Char :=
  varText [n.toList] ['1' :: ';' :: ' ' :: varText [m.toList] [n.toList]]

/-- The tokens of the two declarations. -/
def ReadBackTokens (n m : String) (tokens : Tokens) : Prop :=
  ∃ p q joint r s glued t p' q' joint' r' s',
    tokens = [.word "var" p, .word n q, .punct '=' joint r, .literal (.int "1") s,
      .punct ';' glued t, .word "var" p', .word m q', .punct '=' joint' r', .word n s']

section Text

variable {n m : String} (word : IsWord n) (other : IsWord m)

include word

theorem lex_one : ∃ p q joint r s, lex (normal (varText [n.toList] [['1']])) =
    .ok [.word "var" p, .word n q, .punct '=' joint r, .literal (.int "1") s] := by
  have row := word.yields_varText (Yields.nil.leaf (leads_one (by simp)))
  obtain ⟨_, read, p, q, joint, r, _, rfl, s, _, rfl, rfl⟩ :=
    lex_of_yields row (by simp [varText])
  rw [word.normal_varText (by decide) (by decide)]
  exact ⟨p, q, joint, r, s, read⟩

include other

theorem normal_readBack : normal (readBack n m) = readBack n m := by
  have inside {c : Char} (noPart : isWordPart c = false)
      (noMark : c ∉ ['#', ' ', '=', '1', ';']) :
      c ∉ '1' :: ';' :: ' ' :: varText [m.toList] [n.toList] := by
    simp only [List.mem_cons, List.not_mem_nil, or_false, not_or] at noMark
    obtain ⟨noFence, noBlank, noEquals, noDigit, noStop⟩ := noMark
    have noName := word.wordText.2.not_mem noPart noFence
    have noSecond := other.not_mem_varText noPart (by simp [noFence, noBlank, noEquals]) noName
    simp [noDigit, noStop, noBlank, noSecond]
  exact word.normal_varText (inside (by decide +kernel) (by decide))
    (inside (by decide +kernel) (by decide))

theorem lex_readBack :
    ∃ tokens, lex (normal (readBack n m)) = .ok tokens ∧ ReadBackTokens n m tokens := by
  have name := word.cuts [] Parted.nil
  rw [List.append_nil] at name
  have second := (other.yields_varText (Yields.nil.leaf name)).gap isTokenGap_blank
  have mark := second.leaf (.mark ';' _ (by decide) (by decide) (by decide))
  have first := word.yields_varText (mark.leaf (leads_one (by simp)))
  obtain ⟨tokens, read, p, q, joint, r, _, rfl, s, _, rfl, t, _, rfl, p', q', joint', r', _, rfl,
    s', _, rfl, rfl⟩ := lex_of_yields first (by simp [varText])
  rw [normal_readBack word other]
  exact ⟨_, read, p, q, joint, r, s, _, t, p', q', joint', r', s', rfl⟩

end Text

/-- The first declaration is read whatever the name is. -/
theorem itemsFrom_one (c : Cursor) (p q r s : Position) (joint : Bool) (n : String) (fuel : Nat)
    {rest : Tokens} (ends : endsExpr rest) (alone : seesPunct [','] rest = false) :
    itemsFrom topDeclaration (fuel + 1) (c.at (.word "var" p :: .word n q :: .punct '=' joint r ::
        .literal (.int "1") s :: rest)) =
      (itemsFrom topDeclaration fuel >>= fun others =>
        pure (Declaration.untyped n [.literal (.int "1")] :: others)) (c.at rest) := by
  have noBool (b : Bool) : Literal.int "1" ≠ .bool b := nofun
  have one := Expr.expression_takes (.literal (.int "1")) [.literal (.int "1") s]
    ⟨.literal _ noBool, (Expr.SpelledBy.literal noBool).mpr ⟨s, rfl⟩⟩ c rest ends
  have noMore : moreValues (c.at rest) = .ok ([], c.at rest) := by
    simp [moreValues, commaItems, alone]
  rw [itemsFrom_untyped]
  rw [List.singleton_append] at one
  rw [bind_of_ok one, bind_of_ok noMore]
  rfl

theorem readAll_one (p q r s : Position) (joint : Bool) (n : String) :
    Declaration.readAll
        [.word "var" p, .word n q, .punct '=' joint r, .literal (.int "1") s] =
      .ok [.untyped n [.literal (.int "1")]] := by
  let c : Cursor := { ahead := [] }
  exact readAll_eq_ok.mpr ⟨c.at [], itemsFrom_one c p q r s joint n 4 rfl rfl, rfl, rfl⟩

section Reading

variable {n m : String} {tokens : Tokens} (spelled : ReadBackTokens n m tokens)

include spelled

/-- The last word decides what the two declarations are read as. -/
theorem items_readBack (c : Cursor) : ∃ p, items topDeclaration (c.at tokens) =
    (expression >>= fun e => moreValues >>= fun values =>
      itemsFrom topDeclaration 7 >>= fun others =>
        pure (Declaration.untyped n [.literal (.int "1")] ::
          Declaration.untyped m (e :: values) :: others)) (c.at [.word n p]) := by
  obtain ⟨p, q, joint, r, s, glued, t, p', q', joint', r', s', rfl⟩ := spelled
  refine ⟨s', ?_⟩
  let behind : Tokens := [.word "var" p', .word m q', .punct '=' joint' r', .word n s']
  have first := itemsFrom_one c p q r s joint n 9
    (show endsExpr (.punct ';' glued t :: behind) from rfl) (by cases glued <;> rfl)
  have second := (itemsFrom_semicolon topDeclaration 8 c glued t behind).trans
    (itemsFrom_untyped c p' q' r' joint' m 7 [.word n s'])
  have both := bind_of_eq second fun others =>
    pure (Declaration.untyped n [.literal (.int "1")] :: others)
  simp only [bind_assoc, pure_bind] at both
  exact first.trans both

theorem readAll_readBack {slot : Environment → Slot} (stands : StandsFor n slot) :
    ∃ e : Expr, e.height = 1 ∧ (∀ env, (e.value env).toOption = slot env) ∧
      Declaration.readAll tokens = .ok [.untyped n [.literal (.int "1")], .untyped m [e]] := by
  let c : Cursor := { ahead := [] }
  obtain ⟨p, run⟩ := items_readBack spelled c
  obtain ⟨e, read, height, value⟩ := stands c p
  refine ⟨e, height, value, readAll_eq_ok.mpr ⟨c.at [], ?_, rfl, rfl⟩⟩
  rw [bind_of_ok read] at run
  exact run

theorem readAll_readBack_of_refused (refused : IsRefused n) (declarations : List Declaration) :
    Declaration.readAll tokens ≠ .ok declarations := by
  intro read
  let c : Cursor := { ahead := [] }
  obtain ⟨p, run⟩ := items_readBack spelled c
  obtain ⟨fault, failed⟩ := refused c p
  obtain ⟨d, ran, -⟩ := readAll_eq_ok.mp read
  obtain ⟨e, _, found, -⟩ := ok_of_bind (run.symm.trans ran)
  rw [failed] at found
  cases found

end Reading

theorem eval_one {settings : Settings} {env : Environment} (room : env.depth < settings.maxDepth) :
    ((Expr.literal (.int "1")).eval settings.maxDepth env).answer = .ok (.int 1) := by
  rw [Expr.eval_leaf _ _ _ rfl, if_pos room]
  rfl

section Evaluating

variable {n m : String} (word : IsWord n) (other : IsWord m) (settings : Settings)
  (env : Environment)

theorem toList_readBack :
    ("var " ++ n ++ " = 1; var " ++ m ++ " = " ++ n).toList = readBack n m := by
  simp [readBack, varText_one]

include word

/-- Any word can be declared. -/
theorem evaluate_one (room : env.depth < settings.maxDepth) :
    (evaluate settings ("var " ++ n ++ " = 1") env).answer = .ok [some (.int 1)] := by
  have source : ("var " ++ n ++ " = 1").toList = varText [n.toList] [['1']] := by
    simp [varText_one]
  obtain ⟨p, q, joint, r, s, lexed⟩ := lex_one word
  have parsed : Declaration.parse ("var " ++ n ++ " = 1") =
      .ok [.untyped n [.literal (.int "1")]] :=
    parse_eq_ok.mpr ⟨_, by rw [source, lexed], readAll_one p q r s joint n⟩
  rw [(evaluate_of_parse_ok settings _ env _ parsed).1,
    (evalDeclarations_filledBy settings _).answer, slots_untyped, eval_one room]
  rfl

include other

theorem evaluate_readBack_of_refused (refused : IsRefused n) :
    ∃ e, (evaluate settings ("var " ++ n ++ " = 1; var " ++ m ++ " = " ++ n) env).answer =
      .error e := by
  cases parsed : Declaration.parse ("var " ++ n ++ " = 1; var " ++ m ++ " = " ++ n) with
  | error e => exact ⟨e, (evaluate_of_parse_error settings _ env e parsed).1⟩
  | ok declarations =>
    obtain ⟨tokens, lexed, read⟩ := parse_eq_ok.mp parsed
    obtain ⟨_, lexed', spelled⟩ := lex_readBack word other
    rw [toList_readBack, lexed'] at lexed
    cases lexed
    exact absurd read (readAll_readBack_of_refused spelled refused declarations)

/-- The second slot is what the word stands for once it is bound. -/
theorem evaluate_readBack_of_standsFor {slot : Environment → Slot} (stands : StandsFor n slot)
    (room : env.depth < settings.maxDepth) :
    (evaluate settings ("var " ++ n ++ " = 1; var " ++ m ++ " = " ++ n) env).answer =
      .ok [some (.int 1), slot (Environment.bindSlot n (some (.int 1)) env).env] := by
  obtain ⟨tokens, lexed, spelled⟩ := lex_readBack word other
  obtain ⟨e, height, value, read⟩ := readAll_readBack spelled stands
  have parsed : Declaration.parse ("var " ++ n ++ " = 1; var " ++ m ++ " = " ++ n) = .ok _ :=
    parse_eq_ok.mpr ⟨tokens, by rw [toList_readBack, lexed], read⟩
  let bound := (Environment.bindSlot n (some (.int 1)) env).env
  have deep : bound.depth = env.depth := by simp only [bound, Environment.bindSlot_env]
  have second : (e.eval settings.maxDepth bound).answer.toOption = slot bound := by
    rw [Expr.eval_leaf _ _ _ height, deep, if_pos room, value]
  have slots : (evalDeclarations settings [.untyped n [.literal (.int "1")], .untyped m [e]]
      env).answer = [some (.int 1), slot bound] := by
    rw [(evalDeclarations_filledBy settings _).answer, slots_untyped, eval_one room, ← second]
    rfl
  rw [(evaluate_of_parse_ok settings _ env _ parsed).1, slots]

end Evaluating

/-- Any word can be declared, and it has its value behind its declaration if it is usable as a name.
Otherwise it is an expression without a value there, or the source is refused as a whole. -/
theorem evaluate_declared_name {n m : String} (word : IsWord n) (other : IsWord m)
    (settings : Settings) (env : Environment) (room : env.depth < settings.maxDepth)
    (free : env.prelude.contains n = false) :
    let answer := (evaluate settings ("var " ++ n ++ " = 1; var " ++ m ++ " = " ++ n) env).answer
    (evaluate settings ("var " ++ n ++ " = 1") env).answer = .ok [some (.int 1)] ∧
    (answer = .ok [some (.int 1), some (.int 1)] ↔ IsUsable n) ∧
    (n ∈ idleWords → answer = .ok [some (.int 1), none]) ∧
    (¬ IsUsable n → n ∉ idleWords → ∃ e, answer = .error e) := by
  intro answer
  have idle (busy : n ∈ idleWords) : answer = .ok [some (.int 1), none] :=
    evaluate_readBack_of_standsFor word other settings env (standsFor_idleWord n busy) room
  have refused (role : ¬ IsUsable n) (noIdle : n ∉ idleWords) : ∃ e, answer = .error e :=
    evaluate_readBack_of_refused word other settings env (isRefused_of_not_usable role noIdle)
  refine ⟨evaluate_one word settings env room, ⟨fun bound => ?_, fun usable => ?_⟩, idle, refused⟩
  · refine Decidable.byContradiction fun role => ?_
    by_cases busy : n ∈ idleWords
    · rw [idle busy] at bound
      cases bound
    · obtain ⟨e, failed⟩ := refused role busy
      rw [failed] at bound
      cases bound
  · have looked := evaluate_readBack_of_standsFor word other settings env
      (standsFor_usable usable) room
    rw [Environment.get?_bindSlot, free] at looked
    simpa using looked

/-- A Greek word reads the word `fn` behind `r#`, then a blank, and then a word with a role. -/
theorem evaluate_declared_name_by_greek :
    let answer (n : String) := (evaluate {} ("var " ++ n ++ " = 1; var " ++ "λόγος" ++ " = " ++ n)
      {}).answer
    0 < ({} : Settings).maxDepth ∧ IsWord "λόγος" ∧
      (IsWord "r#fn" ∧ ({} : Environment).prelude.contains "r#fn" = false ∧ IsUsable "r#fn" ∧
        answer "r#fn" = .ok [some (.int 1), some (.int 1)]) ∧
      (IsWord "_" ∧ ({} : Environment).prelude.contains "_" = false ∧ "_" ∈ idleWords ∧
        answer "_" = .ok [some (.int 1), none]) ∧
      IsWord "match" ∧ ({} : Environment).prelude.contains "match" = false ∧
        ¬ IsUsable "match" ∧ "match" ∉ idleWords ∧ ∃ e, answer "match" = .error e := by
  intro answer
  have room : 0 < ({} : Settings).maxDepth := by decide
  have greek : IsWord "λόγος" := by decide +kernel
  have raised : IsWord "r#fn" := by decide +kernel
  have blank : IsWord "_" := by decide +kernel
  have role : IsWord "match" := by decide +kernel
  have usable : IsUsable "r#fn" := by decide
  have busy : "_" ∈ idleWords := by decide
  have noName : ¬ IsUsable "match" := by decide
  have noIdle : "match" ∉ idleWords := by decide
  obtain ⟨-, first, -⟩ := evaluate_declared_name raised greek {} {} room rfl
  obtain ⟨-, -, second, -⟩ := evaluate_declared_name blank greek {} {} room rfl
  obtain ⟨-, -, -, third⟩ := evaluate_declared_name role greek {} {} room rfl
  exact ⟨room, greek, ⟨raised, rfl, usable, first.mpr usable⟩, ⟨blank, rfl, busy, second busy⟩,
    role, rfl, noName, noIdle, third noName noIdle⟩

/-- `fn` is declared, but where it is read back nothing is evaluated. -/
theorem evaluate_declared_name_with_role :
    IsWord "fn" ∧ IsWord "m" ∧ ({} : Environment).prelude.contains "fn" = false ∧
      (evaluate {} "var fn = 1" {}).answer = .ok [some (.int 1)] ∧
      (∃ e, (evaluate {} "var fn = 1; var m = fn" {}).answer = .error e) ∧
      (evaluate {} "var fn = 1; var m = fn" {}).answer ≠
        .ok [some (.int 1), some (.int 1)] := by
  have role : IsWord "fn" := by decide +kernel
  have plain : IsWord "m" := by decide +kernel
  have refused : IsRefused "fn" := isRefused_of_not_usable (by decide) (by decide)
  have source : "var fn = 1; var m = fn" =
      "var " ++ "fn" ++ " = 1; var " ++ "m" ++ " = " ++ "fn" := by decide
  obtain ⟨e, failed⟩ := evaluate_readBack_of_refused role plain {} {} refused
  rw [← source] at failed
  refine ⟨role, plain, rfl, evaluate_one role {} {} (by decide), ⟨e, failed⟩, ?_⟩
  rw [failed]
  nofun

end GoDecl
