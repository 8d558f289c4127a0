import GoDecl.Proofs.Rows
import GoDecl.Source.Piece
import GoDecl.Text.Quoted

/-! Texts between quotes are read back. Each character stands as itself or as one escape, so a text
is passed over, and its characters are read, one at a time. Which characters show nothing of their
own does not matter to that. -/
namespace GoDecl

open Text Source Token

namespace Text

theorem toList_quotedString (s : String) :
    (quotedString s).toList = quotedBy isHidden doubleQuote s.toList := String.toList_ofList

theorem toList_quotedChar (c : Char) :
    (quotedChar c).toList = quotedBy isHidden singleQuote [c] := String.toList_ofList

theorem hexDigits_small {n : Nat} (small : n < 16) : hexDigits n = [Nat.digitChar n] :=
  Nat.toDigits_of_lt_base small

theorem hexDigits_large {n : Nat} (large : 16 ≤ n) :
    hexDigits n = hexDigits (n / 16) ++ [Nat.digitChar (n % 16)] :=
  Nat.toDigits_of_base_le (by decide) large

theorem hexValue?_digitChar {d : Nat} (digit : d < 16) :
    hexValue? (Nat.digitChar d) = some d := by
  revert d
  decide

theorem isSome_of_mem_hexDigits {n : Nat} {c : Char} (member : c ∈ hexDigits n) :
    (hexValue? c).isSome = true := by
  induction n using Nat.strongRecOn with
  | _ n ih =>
    by_cases small : n < 16
    · rw [hexDigits_small small, List.mem_singleton] at member
      rw [member, hexValue?_digitChar small]
      rfl
    · rw [hexDigits_large (by omega), List.mem_append, List.mem_singleton] at member
      rcases member with before | last
      · exact ih (n / 16) (by omega) before
      · rw [last, hexValue?_digitChar (Nat.mod_lt n (by decide))]
        rfl

theorem codePoint?_digitChar {d : Nat} (digit : d < 16) (n : Nat) {count : Nat} (room : count ≠ 6)
    (rest : List Char) :
    codePoint? n count (Nat.digitChar d :: rest) = codePoint? (16 * n + d) (count + 1) rest := by
  have value := hexValue?_digitChar digit
  have noBrace : Nat.digitChar d ≠ '\x7d' := by
    intro same
    rw [same] at value
    contradiction
  have noUnderscore : Nat.digitChar d ≠ '_' := by
    intro same
    rw [same] at value
    contradiction
  simp [codePoint?, noBrace, noUnderscore, value, room]

/-- Reading the digits of a number that has at most six of them gives the number. -/
theorem codePoint?_hexDigits {n : Nat} (short : (hexDigits n).length ≤ 6) (rest : List Char) :
    codePoint? 0 0 (hexDigits n ++ rest) = codePoint? n (hexDigits n).length rest := by
  induction n using Nat.strongRecOn generalizing rest with
  | _ n ih =>
    by_cases small : n < 16
    · rw [hexDigits_small small, List.singleton_append,
        codePoint?_digitChar small 0 (by decide), Nat.mul_zero, Nat.zero_add]
      rfl
    · rw [hexDigits_large (by omega)] at short ⊢
      rw [List.length_append, List.length_singleton] at short ⊢
      have whole : 16 * (n / 16) + n % 16 = n := Nat.div_add_mod n 16
      rw [List.append_assoc, ih (n / 16) (by omega) (by omega), List.singleton_append,
        codePoint?_digitChar (Nat.mod_lt n (by decide)) _ (by omega), whole]

theorem scalar?_toNat (c : Char) : scalar? c.toNat = some c := by
  have valid : c.toNat < 0xd800 ∨ 0xdfff < c.toNat ∧ c.toNat < 0x110000 := c.valid
  have holds : (c.toNat < 0xd800 || 0xdfff < c.toNat && c.toNat < 0x110000) = true := by
    simpa using valid
  rw [scalar?, if_pos holds, Char.ofNat_toNat]

/-- The code point of a character in braces stands for the character. -/
theorem codePoint?_toNat (c : Char) (rest : List Char) :
    codePoint? 0 0 (hexDigits c.toNat ++ '\x7d' :: rest) = some (c, rest) := by
  have small : c.toNat < 16 ^ 6 := by
    have valid : c.toNat < 0xd800 ∨ 0xdfff < c.toNat ∧ c.toNat < 0x110000 := c.valid
    omega
  have short : (hexDigits c.toNat).length ≤ 6 :=
    (Nat.length_toDigits_le_iff (by decide) (by decide)).mpr small
  have digits : (hexDigits c.toNat).length ≠ 0 := by
    by_cases one : c.toNat < 16
    · simp [hexDigits_small one]
    · simp [hexDigits_large (Nat.le_of_not_lt one)]
  rw [codePoint?_hexDigits short]
  simp [codePoint?, digits, scalar?_toNat]

end Text

def isQuote (c : Char) : Prop := c = doubleQuote ∨ c = singleQuote

/-- A text that stands for a character between `quote` marks: the character, or an escape. -/
inductive Writes (quote c : Char) : List Char → Prop
  | itself (plain : c ∉ ['\\', quote, '\n', '\r']) : Writes quote c [c]
  | escape {letter : Char} {code : List Char} (first : letter ∉ ['\n', '\r'])
      (inside : ∀ d ∈ code, d ∉ ['\\', quote, '\n'])
      (means : ∀ rest, escape? stringRule (letter :: (code ++ rest)) = some (c, rest)) :
      Writes quote c ('\\' :: letter :: code)

theorem writes_codePoint {quote : Char} (known : isQuote quote) (c : Char) :
    Writes quote c ('\\' :: 'u' :: ('\x7b' :: (hexDigits c.toNat ++ ['\x7d']))) := by
  have apart : ∀ d ∈ ['\\', quote, '\n'], hexValue? d = none ∧ d ≠ '\x7b' ∧ d ≠ '\x7d' := by
    intro d among
    simp only [List.mem_cons, List.not_mem_nil, or_false] at among
    rcases known with rfl | rfl <;> rcases among with rfl | rfl | rfl <;> decide
  refine .escape (by decide) (fun d member among => ?_) fun rest => ?_
  · obtain ⟨noDigit, noOpening, noClosing⟩ := apart d among
    simp only [List.mem_cons, List.mem_append, List.not_mem_nil, or_false] at member
    rcases member with opening | digit | closing
    · exact noOpening opening
    · have some := isSome_of_mem_hexDigits digit
      rw [noDigit] at some
      contradiction
    · exact noClosing closing
  · have read := codePoint?_toNat c rest
    simp [escape?, read, stringRule]

theorem writes_escapedBy (hides : Char → Bool) {quote : Char} (known : isQuote quote) (c : Char) :
    Writes quote c (escapedBy hides quote c) := by
  have short {letter : Char} (first : letter ∉ ['\n', '\r'])
      (means : ∀ rest, escape? stringRule (letter :: rest) = some (c, rest)) :
      Writes quote c ['\\', letter] := .escape first (by simp) means
  unfold escapedBy
  split
  · next same => exact short (by decide) fun rest => by rw [same]; rfl
  split
  · next same => exact short (by decide) fun rest => by rw [same]; rfl
  split
  · next same => exact short (by decide) fun rest => by rw [same]; rfl
  split
  · next same => exact short (by decide) fun rest => by rw [same]; rfl
  split
  · next same => exact short (by decide) fun rest => by rw [same]; rfl
  split
  · next same =>
    subst same
    rcases known with rfl | rfl
    · exact short (by decide) fun rest => rfl
    · exact short (by decide) fun rest => rfl
  split
  · exact writes_codePoint known c
  · refine .itself ?_
    simp [*]

/-- Characters that are neither a quote nor a backslash nor a newline are passed over. -/
theorem quotedRun_plain {quote : Char} {part : List Char}
    (plain : ∀ d ∈ part, d ∉ ['\\', quote, '\n']) (rest : List Char) :
    quotedRun quote (part ++ rest) =
      ((quotedRun quote rest).1, part ++ (quotedRun quote rest).2.1,
        (quotedRun quote rest).2.2) := by
  induction part with
  | nil => rfl
  | cons d part ih =>
    obtain ⟨first, others⟩ := List.forall_mem_cons.mp plain
    simp only [List.mem_cons, List.not_mem_nil, or_false, not_or] at first
    obtain ⟨noSlash, noQuote, noNewline⟩ := first
    have step : quotedRun quote (d :: (part ++ rest)) =
        ((quotedRun quote (part ++ rest)).1, d :: (quotedRun quote (part ++ rest)).2.1,
          (quotedRun quote (part ++ rest)).2.2) := by
      simp [quotedRun, noSlash, noQuote, noNewline]
    rw [List.cons_append, step, ih others]
    rfl

section

variable {quote c : Char} {written : List Char} (writes : Writes quote c written)

include writes

theorem Writes.length_pos : 0 < written.length := by
  cases writes <;> simp

/-- Whatever a character is written as, the closing quote is looked for behind it. -/
theorem Writes.quotedRun_append (rest : List Char) :
    quotedRun quote (written ++ rest) =
      ((quotedRun quote rest).1, written ++ (quotedRun quote rest).2.1,
        (quotedRun quote rest).2.2) := by
  cases writes with
  | itself plain =>
    refine quotedRun_plain ?_ rest
    simp_all
  | @escape letter code first inside means =>
    have noNewline : letter ≠ '\n' := by
      rintro rfl
      simp at first
    have step : quotedRun quote ('\\' :: letter :: (code ++ rest)) =
        ((quotedRun quote (code ++ rest)).1, '\\' :: letter :: (quotedRun quote (code ++ rest)).2.1,
          (quotedRun quote (code ++ rest)).2.2) := by
      simp [quotedRun, noNewline]
    rw [List.cons_append, List.cons_append, step, quotedRun_plain inside]
    rfl

/-- One step reads one character. -/
theorem Writes.stringBody?_append (double : quote = doubleQuote) (fuel : Nat) (rest : List Char) :
    stringBody? stringRule (fuel + 1) (written ++ rest) =
      (stringBody? stringRule fuel rest).map fun (body, rest) => (c :: body, rest) := by
  subst double
  cases writes with
  | itself plain =>
    simp only [List.mem_cons, List.not_mem_nil, or_false, not_or] at plain
    obtain ⟨noSlash, noQuote, -, noReturn⟩ := plain
    have noDouble : c ≠ '\x22' := noQuote
    have plain : stringRule.plain c = true := rfl
    conv => lhs; unfold stringBody?
    simp only [List.singleton_append, noDouble, noReturn, noSlash, plain, if_false, if_true]
    cases stringBody? stringRule fuel rest <;> rfl
  | @escape letter code first inside means =>
    simp only [List.mem_cons, List.not_mem_nil, or_false, not_or] at first
    obtain ⟨noNewline, noReturn⟩ := first
    have found := means rest
    rw [List.cons_append, List.cons_append]
    conv => lhs; unfold stringBody?
    simp only [Char.reduceEq, if_false, if_true, List.cons.injEq, noNewline, noReturn, false_and,
      imp_self, implies_true, found, Option.bind_eq_bind, Option.bind_some]
    cases stringBody? stringRule fuel rest <;> rfl

theorem Writes.rune?_append (rest : List Char) :
    rune? stringRule (written ++ singleQuote :: rest) = some (c, rest) := by
  cases writes with
  | itself plain =>
    simp only [List.mem_cons, List.not_mem_nil, or_false, not_or] at plain
    simp [rune?, plain.1, stringRule, singleQuote]
  | @escape letter code first inside means =>
    simp [rune?, means, singleQuote]

end

section

variable {write : Char → List Char}

theorem length_le_flatMap (filled : ∀ c, 0 < (write c).length) (text : List Char) :
    text.length ≤ (text.flatMap write).length := by
  induction text with
  | nil => exact Nat.le_refl 0
  | cons c text ih =>
    have first := filled c
    simp only [List.flatMap_cons, List.length_append, List.length_cons]
    omega

/-- The first quote that closes a written text is the one behind it. -/
theorem quotedRun_written {quote : Char} (known : isQuote quote)
    (writes : ∀ c, Writes quote c (write c)) (text rest : List Char) :
    quotedRun quote (text.flatMap write ++ quote :: rest) =
      (true, text.flatMap write ++ [quote], rest) := by
  induction text with
  | nil =>
    rcases known with rfl | rfl <;> rfl
  | cons c text ih =>
    rw [List.flatMap_cons, List.append_assoc, (writes c).quotedRun_append, ih]
    simp

theorem stringBody?_written (writes : ∀ c, Writes doubleQuote c (write c)) (text rest : List Char)
    {fuel : Nat} (enough : text.length < fuel) :
    stringBody? stringRule fuel (text.flatMap write ++ doubleQuote :: rest) =
      some (text, rest) := by
  induction text generalizing fuel with
  | nil =>
    obtain ⟨fuel, rfl⟩ : ∃ less, fuel = less + 1 := ⟨fuel - 1, by omega⟩
    rfl
  | cons c text ih =>
    obtain ⟨fuel, rfl⟩ : ∃ less, fuel = less + 1 := ⟨fuel - 1, by simp at enough; omega⟩
    rw [List.flatMap_cons, List.append_assoc, (writes c).stringBody?_append rfl,
      ih (by simpa using enough)]
    rfl

end

end GoDecl
