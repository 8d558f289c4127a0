import GoDecl.Proofs.Lexemes

/-! The longest front part of a text that a language has. Languages are put together from character
classes, and what is longest for each part is the longest for the whole as long as the next part
cannot begin with a character of the part before. -/
namespace GoDecl.Source

open Text Computability

/-- The longest front part of a text that is in a language. -/
structure Longest (l : Language Char) (text word : List Char) : Prop where
  front : word <+: text
  member : word ∈ l
  longest : ∀ other, other <+: text → other ∈ l → other.length ≤ word.length

/-- No front part of a text is in a language. -/
def NoFront (l : Language Char) (text : List Char) : Prop := ∀ word, word <+: text → word ∉ l

section Fronts

variable {p : Char → Bool} {l m : Language Char} {c : Char} {text word : List Char}

/-- Where only one front part is in a language, it is the longest. -/
theorem Longest.of_only (front : word <+: text) (member : word ∈ l)
    (only : ∀ other, other <+: text → other ∈ l → other = word) : Longest l text word where
  front := front
  member := member
  longest other begins also := by rw [only other begins also]

theorem Longest.single (holds : p c = true) : Longest (one p) (c :: text) [c] := by
  refine .of_only (List.cons_prefix_cons.mpr ⟨rfl, List.nil_prefix⟩) (by simp [holds]) ?_
  rintro _ begins ⟨d, -, rfl⟩
  rw [(List.cons_prefix_cons.mp begins).1]

theorem Longest.cons (holds : p c = true) (longest : Longest l text word) :
    Longest (one p * l) (c :: text) (c :: word) where
  front := List.cons_prefix_cons.mpr ⟨rfl, longest.front⟩
  member := cons_mem_one_mul.mpr ⟨holds, longest.member⟩
  longest other begins also := by
    obtain ⟨d, rest, rfl, -, inside⟩ := mem_one_mul.mp also
    have shorter := longest.longest rest (List.cons_prefix_cons.mp begins).2 inside
    simpa using shorter

theorem NoFront.cons (none : p c = true → NoFront l text) : NoFront (one p * l) (c :: text) := by
  intro word begins member
  obtain ⟨d, rest, rfl, holds, inside⟩ := mem_one_mul.mp member
  obtain ⟨rfl, behind⟩ := List.cons_prefix_cons.mp begins
  exact none holds rest behind inside

theorem NoFront.nil : NoFront (one p * l) [] := by
  intro word begins member
  rw [List.prefix_nil.mp begins] at member
  exact nil_notMem_one_mul member

/-- When what follows a run begins with something else, a front part goes through the whole run, or
it ends inside the run. -/
theorem front_many (stops : ∀ d w, d :: w ∈ l → p d = false) (begins : word <+: text)
    (member : word ∈ (one p)∗ * l) :
    (∃ more, word = text.takeWhile p ++ more ∧ more <+: text.dropWhile p ∧ more ∈ l) ∨
      word.length ≤ (text.takeWhile p).length ∧ [] ∈ l := by
  induction text generalizing word with
  | nil =>
    obtain rfl := List.prefix_nil.mp begins
    exact .inl ⟨[], rfl, List.nil_prefix, nil_mem_many_mul.mp member⟩
  | cons c rest ih =>
    cases word with
    | nil => exact .inr ⟨Nat.zero_le _, nil_mem_many_mul.mp member⟩
    | cons d tail =>
      obtain ⟨rfl, begins'⟩ := List.cons_prefix_cons.mp begins
      rcases cons_mem_many_mul.mp member with stop | ⟨holds, further⟩
      · have fails : ¬ p d = true := by simp [stops _ _ stop]
        rw [List.takeWhile_cons_of_neg fails, List.dropWhile_cons_of_neg fails]
        exact .inl ⟨_, rfl, begins, stop⟩
      · rw [List.takeWhile_cons_of_pos holds, List.dropWhile_cons_of_pos holds]
        rcases ih begins' further with ⟨more, rfl, front, inside⟩ | ⟨short, empty⟩
        · exact .inl ⟨more, rfl, front, inside⟩
        · exact .inr ⟨Nat.succ_le_succ short, empty⟩

theorem append_mem_many_mul {front back : List Char} (all : ∀ c ∈ front, p c = true)
    (member : back ∈ l) : front ++ back ∈ (one p)∗ * l :=
  Language.append_mem_mul (mem_many.mpr all) member

theorem takeWhile_append_prefix (longest : word <+: text.dropWhile p) :
    text.takeWhile p ++ word <+: text := by
  conv => rhs; rw [← List.takeWhile_append_dropWhile (p := p) (l := text)]
  exact (List.prefix_append_right_inj _).mpr longest

/-- A run goes on as far as it can. -/
theorem Longest.many (stops : ∀ d w, d :: w ∈ l → p d = false)
    (longest : Longest l (text.dropWhile p) word) :
    Longest ((one p)∗ * l) text (text.takeWhile p ++ word) where
  front := takeWhile_append_prefix longest.front
  member := append_mem_many_mul (fun c => List.mem_takeWhile_imp) longest.member
  longest other begins also := by
    rw [List.length_append]
    rcases front_many stops begins also with ⟨more, rfl, front, inside⟩ | ⟨short, -⟩
    · rw [List.length_append]
      have shorter := longest.longest more front inside
      omega
    · omega

theorem NoFront.many (stops : ∀ d w, d :: w ∈ l → p d = false)
    (none : NoFront l (text.dropWhile p)) : NoFront ((one p)∗ * l) text := by
  intro word begins member
  rcases front_many stops begins member with ⟨more, -, front, inside⟩ | ⟨-, empty⟩
  · exact none more front inside
  · exact none [] List.nil_prefix empty

theorem Longest.run (p : Char → Bool) (text : List Char) :
    Longest (one p)∗ text (text.takeWhile p) := by
  have empty : Longest 1 (text.dropWhile p) [] :=
    .of_only List.nil_prefix (Language.nil_mem_one) fun other _ also => also
  have stops (d : Char) (w : List Char) (also : d :: w ∈ (1 : Language Char)) : p d = false := by
    cases also
  simpa using empty.many stops

theorem Longest.repeated (holds : p c = true) :
    Longest (repeated (one p)) (c :: text) (c :: text.takeWhile p) :=
  (Longest.run p text).cons holds

theorem Longest.add_left (longest : Longest l text word) (none : NoFront m text) :
    Longest (l + m) text word where
  front := longest.front
  member := .inl longest.member
  longest other begins also := by
    rcases also with also | also
    · exact longest.longest other begins also
    · exact absurd also (none other begins)

theorem Longest.add_right (none : NoFront l text) (longest : Longest m text word) :
    Longest (l + m) text word := by
  rw [add_comm]
  exact longest.add_left none

theorem NoFront.add (none : NoFront l text) (none' : NoFront m text) : NoFront (l + m) text := by
  intro word begins member
  rcases member with member | member
  · exact none word begins member
  · exact none' word begins member

/-- A part that may be missing is taken where it is there. -/
theorem Longest.maybe (longest : Longest l text word) : Longest (maybe l) text word where
  front := longest.front
  member := mem_maybe.mpr (.inr longest.member)
  longest other begins also := by
    rcases mem_maybe.mp also with rfl | also
    · exact Nat.zero_le _
    · exact longest.longest other begins also

theorem NoFront.maybe (none : NoFront l text) : Longest (maybe l) text [] := by
  refine .of_only List.nil_prefix (mem_maybe.mpr (.inl rfl)) ?_
  intro other begins also
  rcases mem_maybe.mp also with rfl | also
  · rfl
  · exact absurd also (none other begins)

end Fronts

end GoDecl.Source
