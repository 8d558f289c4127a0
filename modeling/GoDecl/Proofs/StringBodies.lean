import GoDecl.Proofs.Escapes
import GoDecl.Proofs.TokenPlaces

/-! How strings are read, and where their normal form parts from them. Two scanners tell what is
between quotes: one for the normal form, which gives a string up at the end of its line, and one for
the tokens, which reads on. On one line both find the same closing quote. Behind a line's end a part
of the string may be rewritten, and then it is read as another string. -/
namespace GoDecl

open Text Source Token

/-- The first character of a part that is rewritten, and that of its normal form. -/
inductive Turned : Char → Char → Prop
  | rawString : Turned backQuote 'r'
  | float : Turned '.' '0'

theorem Turned.ne {c d : Char} (turned : Turned c d) : c ≠ d := by
  cases turned <;> decide

theorem Turned.known {c d : Char} (turned : Turned c d) : c ∈ ['.', backQuote] := by
  cases turned <;> decide

/-- Up to the first part that is rewritten, a text and its normal form are alike. -/
theorem normalPieces_cases (text : List Char) :
    normalPieces text = text ∨ ∃ front c d tail other, Turned c d ∧
      text = front ++ c :: tail ∧ normalPieces text = front ++ d :: other := by
  induction length : text.length using Nat.strongRecOn generalizing text with
  | _ n ih =>
    cases text with
    | nil => exact .inl rfl
    | cons c rest =>
      have shorter := firstPiece_length c rest
      obtain ⟨part, first, whole⟩ := firstPiece_append c rest
      rw [normalPieces_cons]
      rcases firstPiece_normal c rest with same | ⟨quote, body, -, fence⟩ | ⟨point, zero⟩
      · rw [same, first]
        rcases ih (firstPiece c rest).2.length (by simp at length; omega) _ rfl with
          kept | ⟨front, c', d, tail, other, turned, cut, parts⟩
        · exact .inl (by rw [kept, List.cons_append, whole])
        · refine .inr ⟨c :: part ++ front, c', d, tail, other, turned, ?_, ?_⟩
          · rw [← whole, cut, List.append_assoc]
            rfl
          · rw [parts, List.append_assoc]
      · rw [fence, quote]
        exact .inr ⟨[], _, _, rest, _, .rawString, rfl, rfl⟩
      · rw [zero, point]
        exact .inr ⟨[], _, _, rest, _, .float, rfl, rfl⟩

/-- The characters that may not stand in the code of an escape: those that end a part of a string
for either scanner, and those at which a rewritten part begins. -/
def foreign : List Char := ['\\', doubleQuote, '\n', '.', backQuote]

theorem hexValue?_of_foreign {c : Char} (among : c ∈ foreign) :
    hexValue? c = none ∧ c ∉ ['_', '\x7d'] := by
  have all : foreign.all (fun c => (hexValue? c).isNone && c ∉ ['_', '\x7d']) = true := by decide
  have holds := List.all_eq_true.mp all c among
  simpa using holds

theorem codePoint?_cases {n count : Nat} {text rest : List Char} {c : Char}
    (read : codePoint? n count text = some (c, rest)) :
    ∃ code, text = code ++ rest ∧ (∀ d ∈ code, d ∉ foreign) ∧
      ∀ other, codePoint? n count (code ++ other) = some (c, other) := by
  have known {d : Char} (code : (hexValue? d).isSome = true ∨ d ∈ ['_', '\x7d']) :
      d ∉ foreign := by
    intro among
    obtain ⟨noDigit, noMark⟩ := hexValue?_of_foreign among
    simp_all
  fun_induction codePoint? n count text with
  | case1 => cases read
  | case2 => cases read
  | case3 n count rest' some =>
    obtain ⟨e, scalar, same⟩ := Option.map_eq_some_iff.mp read
    cases same
    refine ⟨['\x7d'], rfl, ?_, ?_⟩
    · simpa using known (.inr (by simp))
    · intro other
      simp [codePoint?, some, scalar]
  | case4 => cases read
  | case5 n count rest' some noBrace ih =>
    obtain ⟨code, rfl, inside, means⟩ := ih read
    refine ⟨'_' :: code, rfl, ?_, ?_⟩
    · exact List.forall_mem_cons.mpr ⟨known (.inr (by simp)), inside⟩
    · intro other
      simp [codePoint?, some, means]
  | case6 => cases read
  | case7 n count e rest' noBrace noLine d value some ih =>
    obtain ⟨code, rfl, inside, means⟩ := ih read
    refine ⟨e :: code, rfl, ?_, ?_⟩
    · exact List.forall_mem_cons.mpr ⟨known (.inl (by simp [value])), inside⟩
    · intro other
      simp [codePoint?, some, noBrace, noLine, value, means]
  | case8 => cases read

/-- An escape is read apart from what follows it. -/
theorem escape?_cases {text rest : List Char} {c : Char}
    (read : escape? stringRule text = some (c, rest)) :
    ∃ letter code, text = letter :: (code ++ rest) ∧ letter ∉ ['\n', '\r', '.', backQuote] ∧
      (∀ d ∈ code, d ∉ foreign) ∧
      ∀ other, escape? stringRule (letter :: (code ++ other)) = some (c, other) := by
  unfold escape? at read
  split at read
  next => cases read; exact ⟨'n', [], rfl, by decide, by simp, fun _ => rfl⟩
  next => cases read; exact ⟨'r', [], rfl, by decide, by simp, fun _ => rfl⟩
  next => cases read; exact ⟨'t', [], rfl, by decide, by simp, fun _ => rfl⟩
  next => cases read; exact ⟨'\\', [], rfl, by decide, by simp, fun _ => rfl⟩
  next => cases read; exact ⟨'\x27', [], rfl, by decide, by simp, fun _ => rfl⟩
  next => cases read; exact ⟨'\x22', [], rfl, by decide, by simp, fun _ => rfl⟩
  next => cases read; exact ⟨'0', [], rfl, by decide, by simp, fun _ => rfl⟩
  next a b rest' =>
    obtain ⟨x, first, read⟩ := Option.bind_eq_some_iff.mp read
    obtain ⟨y, second, read⟩ := Option.bind_eq_some_iff.mp read
    have digit {d : Char} {n : Nat} (value : hexValue? d = some n) : d ∉ foreign := by
      intro among
      simp [(hexValue?_of_foreign among).1] at value
    dsimp only at read
    split at read
    · next small =>
      cases read
      refine ⟨'x', [a, b], rfl, by decide, by simp [digit first, digit second], fun other => ?_⟩
      simp [escape?, first, second, small]
    · cases read
  next rest' =>
    obtain ⟨⟨e, after⟩, point, made⟩ := Option.bind_eq_some_iff.mp read
    obtain ⟨code, rfl, inside, means⟩ := codePoint?_cases point
    cases made
    refine ⟨'u', '\x7b' :: code, rfl, by decide, ?_, fun other => ?_⟩
    · exact List.forall_mem_cons.mpr ⟨by decide, inside⟩
    · simp [escape?, means, stringRule]
  next => cases read

/-- A character that is not passed over behind a line break. -/
def Solid (text : List Char) : Prop :=
  ∃ c rest, text = c :: rest ∧ c ∉ [' ', '\t', '\n', '\r']

/-- The blanks behind a line break are passed over, whatever solid text follows them. -/
theorem afterGap?_cases {text rest : List Char} (read : afterGap? text = some rest) :
    ∃ blanks, text = blanks ++ rest ∧ (∀ d ∈ blanks, d ∈ [' ', '\t', '\n', '\r']) ∧
      (text.head? = some '\r' → '\n' ∈ blanks) ∧ Solid rest ∧
      ∀ other, Solid other → afterGap? (blanks ++ other) = some other := by
  have solid {other : List Char} (ends : Solid other) : afterGap? other = some other := by
    obtain ⟨c, more, rfl, apart⟩ := ends
    simp only [List.mem_cons, List.not_mem_nil, or_false, not_or] at apart
    simp [afterGap?, apart]
  fun_induction afterGap? text with
  | case1 => contradiction
  | case2 text ih =>
    obtain ⟨blanks, rfl, only, -, ends, means⟩ := ih read
    refine ⟨'\r' :: '\n' :: blanks, rfl, ?_, by simp, ends, means⟩
    simpa using only
  | case3 => contradiction
  | case4 c text noPair noReturn blank ih =>
    obtain ⟨blanks, rfl, only, -, ends, means⟩ := ih read
    simp only [Bool.or_eq_true, decide_eq_true_eq] at blank
    refine ⟨c :: blanks, rfl, ?_, ?_, ends, fun other ends => ?_⟩
    · simp only [List.mem_cons, forall_eq_or_imp]
      exact ⟨by simp only [← or_assoc, blank, true_or], by simpa using only⟩
    · intro first
      exact absurd (Option.some.inj first) noReturn
    · rcases blank with (rfl | rfl) | rfl <;> exact means other ends
  | case5 c text noPair noReturn noBlank =>
    cases read
    simp only [Bool.or_eq_true, decide_eq_true_eq, not_or] at noBlank
    have other : c ≠ '\r' := noReturn
    have ends : Solid (c :: text) := ⟨c, text, rfl, by simp [noBlank, other]⟩
    refine ⟨[], rfl, by simp, ?_, ends, fun other ends => solid ends⟩
    intro first
    exact absurd (Option.some.inj first) noReturn

/-- How a string is read behind its opening quote: the text, what it stands for, and what is left
behind the closing quote. -/
inductive ReadsBody : List Char → List Char → List Char → Prop
  | close (rest : List Char) : ReadsBody (doubleQuote :: rest) [] rest
  | written {c : Char} {part text body rest : List Char} (writes : Writes doubleQuote c part)
      (apart : part.length = 1 ∨ ∀ d ∈ part, d ∉ ['.', backQuote])
      (later : ReadsBody text body rest) :
      ReadsBody (part ++ text) (c :: body) rest
  | newline {text body rest : List Char} (later : ReadsBody text body rest) :
      ReadsBody ('\n' :: text) ('\n' :: body) rest
  | returned {text body rest : List Char} (later : ReadsBody text body rest) :
      ReadsBody ('\r' :: '\n' :: text) ('\n' :: body) rest
  | gap {blanks text body rest : List Char} (lines : '\n' ∈ blanks)
      (only : ∀ d ∈ blanks, d ∈ [' ', '\t', '\n', '\r'])
      (means : ∀ fuel other, Solid other → stringBody? stringRule (fuel + 1)
        ('\\' :: (blanks ++ other)) = stringBody? stringRule fuel other)
      (solid : Solid text) (later : ReadsBody text body rest) :
      ReadsBody ('\\' :: (blanks ++ text)) body rest

theorem readsBody_of_stringBody? {fuel : Nat} {text body rest : List Char}
    (read : stringBody? stringRule fuel text = some (body, rest)) : ReadsBody text body rest := by
  induction fuel generalizing text body with
  | zero => contradiction
  | succ fuel ih =>
    cases text with
    | nil => contradiction
    | cons c tail =>
      have step {made : Char} {after : List Char}
          (more : (stringBody? stringRule fuel after).bind (fun later =>
            some (made :: later.1, later.2)) = some (body, rest)) :
          ∃ others, body = made :: others ∧ ReadsBody after others rest := by
        obtain ⟨⟨others, left⟩, later, made⟩ := Option.bind_eq_some_iff.mp more
        cases made
        exact ⟨others, rfl, ih later⟩
      have gap {first : Char} (opens : first = '\n' ∨ first = '\r') {more : List Char}
          (same : tail = first :: more)
          (read : (afterGap? tail).bind (stringBody? stringRule fuel) = some (body, rest)) :
          ReadsBody ('\\' :: tail) body rest := by
        obtain ⟨after, passed, read⟩ := Option.bind_eq_some_iff.mp read
        obtain ⟨blanks, whole, only, lines, solid, means⟩ := afterGap?_cases passed
        rw [whole]
        have nonempty : ∃ others, blanks = first :: others := by
          cases blanks with
          | nil =>
            obtain ⟨d, others, begins, apart⟩ := solid
            rw [same, begins, List.nil_append, List.cons.injEq] at whole
            rcases opens with rfl | rfl <;> simp [← whole.1] at apart
          | cons d others =>
            rw [same, List.cons_append, List.cons.injEq] at whole
            exact ⟨others, by rw [whole.1]⟩
        obtain ⟨others, rfl⟩ := nonempty
        refine .gap ?_ only (fun fuel other ends => ?_) solid (ih read)
        · rcases opens with rfl | rfl
          · exact List.mem_cons_self
          · exact lines (by rw [same, List.head?_cons])
        · have passed := means other ends
          have step : stringBody? stringRule (fuel + 1) ('\\' :: (first :: others ++ other)) =
              (afterGap? (first :: others ++ other)).bind (stringBody? stringRule fuel) := by
            rcases opens with rfl | rfl <;> rfl
          rw [step, passed, Option.bind_some]
      unfold stringBody? at read
      split at read
      · next quote =>
        cases read
        exact quote ▸ .close _
      split at read
      · next noQuote isReturn =>
        split at read
        · next more =>
          obtain ⟨others, rfl, later⟩ := step read
          exact isReturn ▸ .returned later
        · contradiction
      split at read
      · next noQuote noReturn slash =>
        subst slash
        split at read
        · next more => exact gap (.inl rfl) rfl read
        · next more => exact gap (.inr rfl) rfl read
        · obtain ⟨⟨e, after⟩, escape, read⟩ := Option.bind_eq_some_iff.mp read
          obtain ⟨others, rfl, later⟩ := step read
          obtain ⟨letter, code, rfl, first, inside, means⟩ := escape?_cases escape
          have writes : Writes doubleQuote e ('\\' :: letter :: code) :=
            .escape (by simp_all) (fun d member => by have := inside d member; simp_all [foreign])
              means
          refine .written writes (.inr fun d member => ?_) later
          simp only [List.mem_cons] at member
          rcases member with rfl | rfl | member
          · decide
          · simp_all
          · have := inside d member
            simp_all [foreign]
      · next noQuote noReturn noSlash =>
        obtain ⟨others, rfl, later⟩ := step (by simpa [stringRule] using read)
        by_cases newline : c = '\n'
        · exact newline ▸ .newline later
        · exact .written (.itself (by simp [*, doubleQuote])) (.inl rfl) later

/-- On one line both scanners find the same closing quote. -/
theorem ReadsBody.quotedRun {text body rest : List Char} (reads : ReadsBody text body rest)
    (oneLine : '\n' ∉ text) : ∃ part, quotedRun doubleQuote text = (true, part, rest) := by
  induction reads with
  | close rest => exact ⟨_, rfl⟩
  | @written c part text body rest writes apart later ih =>
    obtain ⟨others, closed⟩ := ih fun among => oneLine (List.mem_append_right part among)
    rw [writes.quotedRun_append, closed]
    exact ⟨_, rfl⟩
  | newline later => exact absurd List.mem_cons_self oneLine
  | returned later => exact absurd (List.mem_cons_of_mem _ List.mem_cons_self) oneLine
  | gap lines =>
    exact absurd (List.mem_cons_of_mem _ (List.mem_append_left _ lines)) oneLine

theorem stringBody?_newline (fuel : Nat) (text : List Char) :
    stringBody? stringRule (fuel + 1) ('\n' :: text) =
      (stringBody? stringRule fuel text).map fun (body, rest) => ('\n' :: body, rest) := by
  change (stringBody? stringRule fuel text).bind _ = _
  cases stringBody? stringRule fuel text <;> rfl

theorem stringBody?_returned (fuel : Nat) (text : List Char) :
    stringBody? stringRule (fuel + 1) ('\r' :: '\n' :: text) =
      (stringBody? stringRule fuel text).map fun (body, rest) => ('\n' :: body, rest) := by
  change (stringBody? stringRule fuel text).bind _ = _
  cases stringBody? stringRule fuel text <;> rfl

/-- A part of a string ends in front of a character that is rewritten, or is that character. -/
theorem append_cases_of_turned {c d : Char} {part text front tail : List Char}
    (turned : Turned c d) (apart : part.length = 1 ∨ ∀ e ∈ part, e ∉ ['.', backQuote])
    (same : part ++ text = front ++ c :: tail) :
    (front = [] ∧ part = [c]) ∨ ∃ more, front = part ++ more ∧ text = more ++ c :: tail := by
  rcases List.append_eq_append_iff.mp same with ⟨more, rfl, rest⟩ | ⟨more, rfl, rest⟩
  · exact .inr ⟨more, rfl, rest⟩
  · cases more with
    | nil => exact .inr ⟨[], by simp, rest.symm⟩
    | cons e more =>
      obtain ⟨rfl, -⟩ := List.cons.inj rest
      rcases apart with single | foreign
      · simp only [List.length_append, List.length_cons] at single
        have noFront : front = [] := List.length_eq_zero_iff.mp (by omega)
        have noMore : more = [] := List.length_eq_zero_iff.mp (by omega)
        exact .inl ⟨noFront, by rw [noFront, noMore, List.nil_append]⟩
      · exact absurd turned.known (foreign c (by simp))

/-- Where a character of a string is another one, the string is another one, whatever comes of the
rest of it. -/
theorem ReadsBody.not_beginning {text body rest front tail other body' rest' : List Char}
    {c d : Char} {fuel : Nat} (reads : ReadsBody text body rest) (turned : Turned c d)
    (here : text = front ++ c :: tail) (inside : c ∉ rest)
    (read : stringBody? stringRule fuel (front ++ d :: other) = some (body', rest')) :
    ¬ body' <+: body := by
  have solid : Solid (d :: other) := ⟨d, other, rfl, by cases turned <;> decide⟩
  -- One more character in front of both strings.
  have cons {x : Char} {body body' after : List Char} {fuel : Nat}
      (read : (stringBody? stringRule fuel after).map (fun (body, rest) => (x :: body, rest)) =
        some (body', rest'))
      (later : ∀ body', stringBody? stringRule fuel after = some (body', rest') →
        ¬ body' <+: body) : ¬ body' <+: x :: body := by
    obtain ⟨⟨others, left⟩, more, made⟩ := Option.map_eq_some_iff.mp read
    cases made
    rw [List.cons_prefix_cons, not_and]
    exact fun _ => later others more
  induction reads generalizing front fuel body' with
  | close rest =>
    cases front with
    | nil =>
      have quote : doubleQuote = c := (List.cons.inj here).1
      cases turned <;> contradiction
    | cons e front =>
      rw [(List.cons.inj here).2] at inside
      exact absurd (by simp) inside
  | @written x part text body rest writes apart later ih =>
    cases fuel with
    | zero => contradiction
    | succ fuel =>
      rcases append_cases_of_turned turned apart here with ⟨rfl, rfl⟩ | ⟨more, rfl, rfl⟩
      · have same : x = c := by
          cases writes
          rfl
        have plain : Writes doubleQuote d [d] := .itself (by cases turned <;> decide)
        have step := plain.stringBody?_append rfl fuel other
        rw [List.singleton_append] at step
        rw [List.nil_append, step] at read
        obtain ⟨⟨others, left⟩, -, made⟩ := Option.map_eq_some_iff.mp read
        cases made
        rw [same, List.cons_prefix_cons, not_and]
        exact fun equal => absurd equal.symm turned.ne
      · rw [List.append_assoc, writes.stringBody?_append rfl] at read
        exact cons read fun body' read => ih rfl inside read
  | @newline text body rest later ih =>
    cases fuel with
    | zero => contradiction
    | succ fuel =>
      cases front with
      | nil => cases turned <;> cases here
      | cons e front =>
        obtain ⟨rfl, rfl⟩ := List.cons.inj here
        rw [List.cons_append, stringBody?_newline] at read
        exact cons read fun body' read => ih rfl inside read
  | @returned text body rest later ih =>
    cases fuel with
    | zero => contradiction
    | succ fuel =>
      match front, here with
      | [], here => cases turned <;> cases here
      | [e], here => cases turned <;> cases here
      | e :: e' :: front, here =>
        simp only [List.cons_append, List.cons.injEq] at here
        obtain ⟨rfl, rfl, rfl⟩ := here
        rw [List.cons_append, List.cons_append, stringBody?_returned] at read
        exact cons read fun body' read => ih rfl inside read
  | @gap blanks text body rest lines only means ends later ih =>
    cases fuel with
    | zero => contradiction
    | succ fuel =>
      have blank : [' ', '\t', '\n', '\r'].all (· ∉ ['.', backQuote]) = true := by decide
      have apart : ∀ e ∈ '\\' :: blanks, e ∉ ['.', backQuote] :=
        List.forall_mem_cons.mpr ⟨by decide, fun e member =>
          of_decide_eq_true (List.all_eq_true.mp blank e (only e member))⟩
      rcases append_cases_of_turned turned (.inr apart) here with ⟨-, same⟩ | ⟨more, rfl, rfl⟩
      · cases turned <;> cases same
      · have next : Solid (more ++ d :: other) := by
          cases more with
          | nil => exact solid
          | cons e more =>
            obtain ⟨f, others, begins, noBlank⟩ := ends
            exact ⟨e, more ++ d :: other, rfl, by rw [(List.cons.inj begins).1]; exact noBlank⟩
        have step := means fuel _ next
        simp only [List.cons_append, List.append_assoc] at read
        rw [step] at read
        exact ih rfl inside read

end GoDecl
