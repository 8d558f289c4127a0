import GoDecl.Proofs.Lines
import GoDecl.Proofs.Rows
import Mathlib.Data.List.Basic

/-! Where tokens stand. A scanner gives back the text behind what it read, so the place that is
counted along with it is always that of a character of the text: of the first one of a token, of a
bracket, or of the one that no token begins with. -/
namespace GoDecl

open Text

namespace Position

theorem after_append (p : Position) (first second : List Char) :
    p.after (first ++ second) = (p.after first).after second := List.foldl_append

theorem line_after (p : Position) (text : List Char) :
    (p.after text).line = p.line + newlines text := by
  induction text generalizing p with
  | nil => rfl
  | cons c rest ih =>
    have next : (p.after (c :: rest)).line = (p.step c).line + newlines rest := ih (p.step c)
    rw [next, newlines_cons, step]
    by_cases newline : c = '\n'
    · simp only [newline, if_true]
      omega
    · simp only [newline, if_false, Nat.add_zero]

theorem column_after (p : Position) (text : List Char) (real : 1 ≤ p.column) :
    1 ≤ (p.after text).column := by
  induction text generalizing p with
  | nil => exact real
  | cons c rest ih =>
    refine ih (p.step c) ?_
    rw [step]
    split <;> simp

end Position

namespace Text

/-- The place is that of some character of the text. -/
def HasPlace (text : List Char) (p : Position) : Prop :=
  ∃ before c after, text = before ++ c :: after ∧ p = ({} : Position).after before

/-- Any place in front of the end. -/
theorem hasPlace_of_prefix (before : List Char) {text part : List Char} (begins : part <+: text)
    (shorter : part.length < text.length) :
    HasPlace (before ++ text) ((({} : Position).after before).after part) := by
  obtain ⟨behind, rfl⟩ := begins
  cases behind with
  | nil => simp at shorter
  | cons c after => exact ⟨before ++ part, c, after, by simp, by rw [Position.after_append]⟩

theorem HasPlace.line {text : List Char} {p : Position} (place : HasPlace text p) :
    1 ≤ p.line ∧ p.line ≤ (lines text).length ∧ 1 ≤ p.column := by
  obtain ⟨before, c, after, rfl, rfl⟩ := place
  have fewer := newlines_lt_length_lines before c after
  have line := Position.line_after {} before
  have column := Position.column_after {} before (Nat.le_refl 1)
  simp only at line
  omega

end Text

namespace Token

/-- Where a scan of the text succeeds, it leaves a tail of the text behind. -/
def Leaves {α : Type} (left : α → List Char) (text : List Char) (scan : Option α) : Prop :=
  ∀ found, scan = some found → left found <:+ text

section

variable {α β : Type} {left : α → List Char} {text : List Char}

theorem Leaves.none : Leaves left text none := by
  intro found impossible
  contradiction

theorem Leaves.some {found : α} (behind : left found <:+ text) : Leaves left text (some found) := by
  rintro _ ⟨⟩
  exact behind

/-- What comes first scans the text, and the second what the first leaves. -/
theorem Leaves.bind {first : β → List Char} {x : Option β} {f : β → Option α}
    (leaves : Leaves first text x) (behind : ∀ b, first b <:+ text → Leaves left text (f b)) :
    Leaves left text (x >>= f) := by
  intro found read
  obtain ⟨b, before, after⟩ := Option.bind_eq_some_iff.mp read
  exact behind b (leaves b before) found after

theorem Leaves.bind_rest {x : Option (β × List Char)} {f : β × List Char → Option α}
    (leaves : Leaves Prod.snd text x)
    (behind : ∀ b rest, rest <:+ text → Leaves left text (f (b, rest))) :
    Leaves left text (x >>= f) :=
  leaves.bind fun found => behind found.1 found.2

/-- What comes first does not scan. -/
theorem Leaves.behind {x : Option β} {f : β → Option α} (leaves : ∀ b, Leaves left text (f b)) :
    Leaves left text (x >>= f) := by
  intro found read
  obtain ⟨b, -, after⟩ := Option.bind_eq_some_iff.mp read
  exact leaves b found after

theorem Leaves.map {x : Option β} {f : β → α} (leaves : ∀ b, left (f b) <:+ text) :
    Leaves left text (x.map f) := by
  intro found read
  obtain ⟨b, -, rfl⟩ := Option.map_eq_some_iff.mp read
  exact leaves b

theorem Leaves.skip {c : Char} {scan : Option α} (leaves : Leaves left text scan) :
    Leaves left (c :: text) scan :=
  fun found read => (leaves found read).trans (List.suffix_cons c text)

theorem Leaves.within {whole : List Char} {scan : Option α} (leaves : Leaves left text scan)
    (behind : text <:+ whole) : Leaves left whole scan :=
  fun found read => (leaves found read).trans behind

end

theorem dropWhile_suffix_of {p : Char → Bool} {rest text : List Char} (behind : rest <:+ text) :
    rest.dropWhile p <:+ text := (List.dropWhile_suffix p).trans behind

theorem suffix_of_cons {c : Char} {rest text : List Char} (behind : c :: rest <:+ text) :
    rest <:+ text := (List.suffix_cons c rest).trans behind

attribute [local grind =] List.suffix_cons_iff
attribute [local grind ←] dropWhile_suffix_of Leaves.none Leaves.some Leaves.bind_rest
  Leaves.behind Leaves.skip
attribute [local grind →] suffix_of_cons

theorem leaves_afterWord? (text : List Char) : Leaves id text (afterWord? text) := by
  cases text with
  | nil => exact .none
  | cons c rest => grind [afterWord?]

theorem afterSuffix_suffix (text : List Char) : afterSuffix text <:+ text := by
  unfold afterSuffix
  cases read : afterWord? text with
  | none => exact List.suffix_rfl
  | some rest => exact leaves_afterWord? text rest read

theorem leaves_afterExponent? (text : List Char) : Leaves id text (afterExponent? text) := by
  have unsigned : text.dropWhile (· = '_') <:+ text := List.dropWhile_suffix _
  unfold afterExponent?
  grind

theorem leaves_afterFloatDigits? (text : List Char) :
    Leaves id text (afterFloatDigits? text) := by
  have whole : text.dropWhile isDigitOrUnderscore <:+ text := List.dropWhile_suffix _
  have exponent {more : List Char} {otherwise : Option (List Char)} (within : more <:+ text)
      (last : Leaves id text otherwise) : Leaves id text ((afterExponent? more).or otherwise) := by
    intro rest found
    rcases Option.or_eq_some_iff.mp found with powers | ⟨-, noPowers⟩
    · exact (leaves_afterExponent? more rest powers).trans within
    · exact last rest noPowers
  unfold afterFloatDigits?
  split
  · exact .none
  dsimp only
  split
  · next more point =>
    have fraction : more.dropWhile isDigitOrUnderscore <:+ text := by grind
    split
    · exact .none
    · split <;> grind
  · split <;> grind

theorem leaves_afterFloat? (text : List Char) : Leaves id text (afterFloat? text) := by
  refine (leaves_afterFloatDigits? text).bind fun rest within => ?_
  have suffix := (afterSuffix_suffix rest).trans within
  grind

theorem radix_suffix (text : List Char) : (radix text).2 <:+ text := by
  unfold radix
  grind

theorem leaves_readDigits (base n : Nat) (seen : Bool) (text : List Char) :
    Leaves Prod.snd text (readDigits base n seen text) := by
  fun_induction readDigits base n seen text <;> grind

theorem leaves_afterInt? (text : List Char) : Leaves id text (afterInt? text) := by
  refine ((leaves_readDigits _ 0 false _).within (radix_suffix text)).bind fun read within => ?_
  have suffix := (afterSuffix_suffix read.2).trans within
  grind

theorem leaves_codePoint? (n count : Nat) (text : List Char) :
    Leaves Prod.snd text (codePoint? n count text) := by
  fun_induction codePoint? n count text <;> grind [Leaves.map]

theorem leaves_escape? (rule : QuoteRule) (text : List Char) :
    Leaves Prod.snd text (escape? rule text) := by
  unfold escape?
  split
  case h_9 rest =>
    exact ((leaves_codePoint? 0 0 rest).bind fun _ _ => by grind).skip.skip
  all_goals grind

theorem leaves_afterGap? (text : List Char) : Leaves id text (afterGap? text) := by
  fun_induction afterGap? text <;> grind

theorem leaves_stringBody? (rule : QuoteRule) (fuel : Nat) (text : List Char) :
    Leaves Prod.snd text (stringBody? rule fuel text) := by
  induction fuel generalizing text with
  | zero => exact .none
  | succ fuel ih =>
    have next {rest behind : List Char} (within : behind <:+ rest) (e : Char) :
        Leaves Prod.snd rest
          ((stringBody? rule fuel behind).bind fun read => some (e :: read.1, read.2)) :=
      ((ih behind).within within).bind_rest fun body last tail => .some tail
    have gap (rest : List Char) : Leaves Prod.snd rest (do
        stringBody? rule fuel (← afterGap? rest)) :=
      (leaves_afterGap? rest).bind fun behind within => (ih behind).within within
    have escape (rest : List Char) : Leaves Prod.snd rest
        ((escape? rule rest).bind fun found =>
          (stringBody? rule fuel found.2).bind fun read => some (found.1 :: read.1, read.2)) :=
      (leaves_escape? rule rest).bind_rest fun e behind within => next within e
    cases text with
    | nil => exact .none
    | cons c rest =>
      unfold stringBody?
      split
      · exact .some (List.suffix_cons c rest)
      split
      · split
        · exact (next List.suffix_rfl '\n').skip.skip
        · exact .none
      split
      · split
        · exact (gap _).skip
        · exact (gap _).skip
        · exact (escape rest).skip
      split
      · exact (next List.suffix_rfl c).skip
      · exact .none

theorem leaves_fence? (count : Nat) (text : List Char) :
    Leaves Prod.snd text (fence? count text) := by
  fun_induction fence? count text <;> grind

theorem leaves_rawBody? (rule : QuoteRule) (fence : Nat) (text : List Char) :
    Leaves Prod.snd text (rawBody? rule fence text) := by
  fun_induction rawBody? rule fence text <;> grind [List.drop_suffix]

theorem leaves_rawString? (rule : QuoteRule) (text : List Char) :
    Leaves Prod.snd text (rawString? rule text) :=
  (leaves_fence? 0 text).bind fun read within => (leaves_rawBody? rule read.1 read.2).within within

theorem leaves_rune? (rule : QuoteRule) (text : List Char) :
    Leaves Prod.snd text (rune? rule text) := by
  unfold rune?
  dsimp only
  split <;> grind [leaves_escape?]

theorem leaves_literal? (text : List Char) : Leaves Prod.snd text (literal? text) := by
  have suffix {α : Type} {rest : List Char} {scan : Option (α × List Char)}
      {finish : α × List Char → Option (Literal × List Char)} (leaves : Leaves Prod.snd rest scan)
      (takes : ∀ found behind, ∃ l, finish (found, behind) = some (l, afterSuffix behind)) :
      Leaves Prod.snd rest (scan >>= finish) := by
    refine leaves.bind_rest fun found behind within => ?_
    obtain ⟨l, taken⟩ := takes found behind
    rw [taken]
    exact .some ((afterSuffix_suffix behind).trans within)
  unfold literal?
  split
  case h_9 =>
    cases number : afterFloat? text with
    | none => exact (leaves_afterInt? text).bind fun rest within => .some within
    | some rest => exact .some (leaves_afterFloat? text rest number)
  · exact (suffix (leaves_stringBody? _ _ _) fun _ _ => ⟨_, rfl⟩).skip
  · exact (suffix (leaves_rawString? _ _) fun _ _ => ⟨_, rfl⟩).skip
  · exact (suffix (leaves_stringBody? _ _ _) fun _ _ => ⟨_, rfl⟩).skip.skip
  · exact (suffix (leaves_rawString? _ _) fun _ _ => ⟨_, rfl⟩).skip.skip
  · exact (suffix (leaves_rune? _ _) fun _ _ => ⟨_, rfl⟩).skip.skip
  · exact (suffix (leaves_stringBody? _ _ _) fun _ _ => ⟨_, rfl⟩).skip.skip
  · exact (suffix (leaves_rawString? _ _) fun _ _ => ⟨_, rfl⟩).skip.skip
  · exact (suffix (leaves_rune? _ _) fun _ _ => ⟨_, rfl⟩).skip

theorem leaves_anyWord? (text : List Char) : Leaves Prod.snd text (anyWord? text) := by
  unfold anyWord?
  split
  · exact ((leaves_afterWord? _).bind fun rest within => by grind).skip.skip
  · exact (leaves_afterWord? _).bind fun rest within => .some within

theorem leaves_mark? (text : List Char) : Leaves Prod.snd text (mark? text) := by
  unfold mark?
  grind

theorem leaves_punct? (text : List Char) : Leaves (·.2.2) text (punct? text) := by
  refine (leaves_mark? text).bind fun read within => ?_
  grind

theorem leaves_afterBlock? (depth : Nat) (text : List Char) :
    Leaves id text (afterBlock? depth text) := by
  fun_induction afterBlock? depth text <;> grind

theorem restOfLine_suffix (text : List Char) : (restOfLine text).2 <:+ text := by
  fun_induction restOfLine text <;> grind

def Comment.rest : Comment → List Char
  | .blank rest | .note _ _ rest => rest

theorem leaves_comment? (text : List Char) : Leaves Comment.rest text (comment? text) := by
  have line (inner : Bool) (more : List Char) : Leaves Comment.rest more
      (if hasBareReturn (restOfLine more).1 then none
        else some (.note (restOfLine more).1 inner (restOfLine more).2)) := by
    have rest := restOfLine_suffix more
    grind [Comment.rest]
  have block (inner : Bool) (body : List Char → List Char) :
      Leaves Comment.rest text (do
        let rest ← afterBlock? 0 (text.drop 2)
        if hasBareReturn (body rest) then none else some (.note (body rest) inner rest)) := by
    refine ((leaves_afterBlock? 0 _).within (List.drop_suffix 2 text)).bind fun rest within => ?_
    grind [Comment.rest]
  have blank {rest more : List Char} (within : rest <:+ more) :
      Leaves Comment.rest more (some (.blank rest)) := .some within
  have closed (more : List Char) : Leaves Comment.rest more ((afterBlock? 0 more).map .blank) := by
    intro comment read
    obtain ⟨rest, found, rfl⟩ := Option.map_eq_some_iff.mp read
    exact leaves_afterBlock? 0 more rest found
  unfold comment?
  split
  · exact (line true _).skip.skip.skip
  · exact (blank (restOfLine_suffix _)).skip.skip.skip.skip
  · exact (line false _).skip.skip.skip
  · exact (blank (restOfLine_suffix _)).skip.skip
  · exact (blank List.suffix_rfl).skip.skip.skip.skip
  · exact block true _
  · exact (closed _).skip.skip
  · exact block false _
  · exact (closed _).skip.skip
  · exact .none

theorem leaves_word? (text : List Char) : Leaves Prod.snd text (word? text) := by
  unfold word?
  split
  · exact .none
  · exact leaves_anyWord? text

theorem leaves_leaf? (p : Position) (text : List Char) :
    Leaves Prod.snd text (leaf? p text) := by
  unfold leaf?
  split
  · next l rest read => exact .some (leaves_literal? text _ read)
  split
  · next c joint rest read => exact .some (leaves_punct? text _ read)
  split
  · next name rest read => exact .some (leaves_word? text _ read)
  · rintro _ read
    obtain ⟨rest, found, made⟩ := Option.bind_eq_some_iff.mp read
    cases made
    rw [List.isPrefixOf?_eq_some_iff_append_eq] at found
    exact ⟨errorMark, found⟩

/-- Every place in the token, those inside it included, is as `real` asks. -/
inductive Within (real : Position → Prop) : Token → Prop
  | word {text : String} {start : Position} (begins : real start) : Within real (.word text start)
  | punct {c : Char} {joint : Bool} {start : Position} (begins : real start) :
    Within real (.punct c joint start)
  | literal {value : Literal} {start : Position} (begins : real start) :
    Within real (.literal value start)
  | group {d : Delimiter} {inner : List Token} {start stop : Position}
    (inside : ∀ t ∈ inner, Within real t) (begins : real start) (ends : real stop) :
    Within real (.group d inner start stop)

theorem Within.imp {real other : Position → Prop} (implies : ∀ p, real p → other p) {t : Token}
    (within : t.Within real) : t.Within other := by
  induction within with
  | word begins => exact .word (implies _ begins)
  | punct begins => exact .punct (implies _ begins)
  | literal begins => exact .literal (implies _ begins)
  | group _ begins ends inside => exact .group inside (implies _ begins) (implies _ ends)

theorem Within.start {real : Position → Prop} {t : Token} (within : t.Within real) :
    real t.start := by
  cases within <;> assumption

def Lexeme.Within (real : Position → Prop) : Lexeme → Prop
  | .leaf t => t.Within real
  | .opening _ start | .closing _ start => real start

/-- The lexemes of a row, and its fault if it has one. -/
def RowWithin (real : Position → Prop) (row : List Lexeme × Option Position) : Prop :=
  (∀ lexeme ∈ row.1, lexeme.Within real) ∧ ∀ p, row.2 = some p → real p

/-- The tokens of a text, or where they break off. -/
def LexWithin (real : Position → Prop) : Except Position (List Token) → Prop
  | .ok tokens => ∀ t ∈ tokens, t.Within real
  | .error p => real p

section

variable {real : Position → Prop}

theorem leaf?_within {p : Position} (here : real p) {text rest : List Char} {t : Token}
    (read : leaf? p text = some (t, rest)) : t.Within real := by
  unfold leaf? at read
  split at read
  · cases read
    exact .literal here
  split at read
  · cases read
    exact .punct here
  split at read
  · cases read
    exact .word here
  · obtain ⟨_, -, made⟩ := Option.bind_eq_some_iff.mp read
    cases made
    exact .literal here

theorem noteLexemes_within (body : List Char) (inner : Bool) {start stop : Position}
    (begins : real start) (ends : real stop) :
    ∀ lexeme ∈ noteLexemes body inner start stop, lexeme.Within real := by
  have mark (c : Char) : (Lexeme.leaf (.punct c false start)).Within real := .punct begins
  have group (text : Literal) : (Lexeme.leaf (.group .bracket
      [.word "doc" start, .punct '=' false start, .literal text start]
      start stop)).Within real := by
    refine .group ?_ begins ends
    simp only [List.forall_mem_cons]
    exact ⟨.word begins, .punct begins, .literal begins, by simp⟩
  cases inner with
  | false => simpa [noteLexemes] using ⟨mark '#', group _⟩
  | true => simpa [noteLexemes] using ⟨mark '#', mark '!', group _⟩

theorem readPart_of_suffix {text rest : List Char} (behind : rest <:+ text) :
    readPart text rest ++ rest = text := by
  obtain ⟨part, rfl⟩ := behind
  simp [readPart]

/-- What is cut from behind `before` on stands in the whole text. -/
theorem cut_within (fuel : Nat) (before text : List Char) :
    RowWithin (HasPlace (before ++ text)) (cut fuel (({} : Position).after before) text) := by
  induction fuel generalizing before text with
  | zero => simp [cut, RowWithin]
  | succ fuel ih =>
    cases text with
    | nil => simp [cut, RowWithin]
    | cons c rest =>
      generalize place : ({} : Position).after before = p
      have here : HasPlace (before ++ c :: rest) p := ⟨before, c, rest, rfl, place.symm⟩
      -- a part is read and gives some lexemes, the row goes on behind it
      have next {part after : List Char} (whole : part ++ after = c :: rest)
          {found : List Lexeme}
          (among : ∀ lexeme ∈ found, lexeme.Within (HasPlace (before ++ c :: rest))) :
          RowWithin (HasPlace (before ++ c :: rest))
            (found ++ (cut fuel (p.after part) after).1, (cut fuel (p.after part) after).2) := by
        obtain ⟨later, fault⟩ := ih (before ++ part) after
        rw [List.append_assoc, whole, Position.after_append, place] at later fault
        exact ⟨List.forall_mem_append.mpr ⟨among, later⟩, fault⟩
      have one {lexeme : Lexeme} (stands : lexeme.Within (HasPlace (before ++ c :: rest))) :
          ∀ l ∈ [lexeme], l.Within (HasPlace (before ++ c :: rest)) := by
        simpa using stands
      unfold cut
      dsimp only
      split
      · exact next (rfl : [c] ++ rest = c :: rest) (by simp)
      split
      · next after comment =>
        exact next (readPart_of_suffix (leaves_comment? _ _ comment)) (by simp)
      · next body inner after comment =>
        have whole : readPart (c :: rest) after ++ after = c :: rest :=
          readPart_of_suffix (leaves_comment? _ _ comment)
        have shorter := congrArg List.length whole
        have begins := (List.dropLast_prefix _).trans ⟨after, whole⟩
        refine next whole (noteLexemes_within body inner here ?_)
        rw [← place]
        exact hasPlace_of_prefix before begins (by simp at shorter ⊢; omega)
      split
      · exact next (rfl : [c] ++ rest = c :: rest) (one here)
      · exact next (rfl : [c] ++ rest = c :: rest) (one here)
      split
      · next t after read =>
        exact next (readPart_of_suffix (leaves_leaf? p _ _ read)) (one (leaf?_within here read))
      · exact ⟨by simp, fun _ same => by cases same; exact here⟩

theorem nest_within {fault : Option Position} (broken : ∀ p, fault = some p → real p)
    (done : List Token) (outer : List Open) (row : List Lexeme)
    (before : ∀ t ∈ done, t.Within real)
    (around : ∀ o ∈ outer, real o.start ∧ ∀ t ∈ o.before, t.Within real)
    (ahead : ∀ lexeme ∈ row, lexeme.Within real) :
    LexWithin real (nest fault done outer row) := by
  induction row generalizing done outer with
  | nil =>
    cases fault with
    | some p => exact broken p rfl
    | none =>
      cases outer with
      | nil => simpa [nest, LexWithin] using before
      | cons o outer => exact (around o List.mem_cons_self).1
  | cons lexeme rest ih =>
    obtain ⟨here, later⟩ := List.forall_mem_cons.mp ahead
    cases lexeme with
    | leaf t =>
      exact ih (t :: done) outer (List.forall_mem_cons.mpr ⟨here, before⟩) around later
    | opening d p =>
      exact ih [] _ (by simp) (List.forall_mem_cons.mpr ⟨⟨here, before⟩, around⟩) later
    | closing d p =>
      cases outer with
      | nil => exact here
      | cons o outer =>
        obtain ⟨⟨opened, first⟩, others⟩ := List.forall_mem_cons.mp around
        have inner : ∀ t ∈ done.reverse, t.Within real := by simpa using before
        unfold nest
        dsimp only
        split
        · exact ih _ outer (List.forall_mem_cons.mpr ⟨.group inner opened here, first⟩) others later
        · exact here

end

/-- Tokens stand in their text, and so does what breaks them off. -/
theorem lex_within (text : List Char) : LexWithin (HasPlace text) (lex text) := by
  have start (before rest : List Char) : LexWithin (HasPlace (before ++ rest))
      (nest (cut (rest.length + 1) (({} : Position).after before) rest).2 [] []
        (cut (rest.length + 1) (({} : Position).after before) rest).1) := by
    obtain ⟨row, broken⟩ := cut_within (rest.length + 1) before rest
    exact nest_within broken [] [] _ (by simp) (by simp) row
  cases text with
  | nil => exact start [] []
  | cons c rest =>
    by_cases marked : c = '\ufeff'
    · subst marked
      exact start ['\ufeff'] rest
    · rw [lex_unmarked (c :: rest) (by simpa using marked)]
      exact start [] (c :: rest)

end Token

end GoDecl
