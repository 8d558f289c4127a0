import GoDecl.Proofs.History
import GoDecl.Repl

/-! What a conversation prints, line by line. A session passes from line to line, so what a line
prints is told by the session it finds; lines that only look leave that session as it is, and a
reset leaves the one that the conversation began with. -/
namespace GoDecl

namespace Transcript

def printed (t : Transcript) : String := channelText t.out

@[simp] theorem out_append (a b : Transcript) : (a ++ b).out = a.out ++ b.out := rfl

@[simp] theorem printed_append (a b : Transcript) : (a ++ b).printed = a.printed ++ b.printed := by
  simp [printed, channelText, String.join_append]

end Transcript

namespace Repl

def trimmed (line : List Char) : String := .ofList (Text.trim line)

/-- Whether a line ends the conversation. -/
def isQuit (line : List Char) : Bool := trimmed line = ":quit" || trimmed line = ":q"

/-- The lines in front of the first that ends the conversation. -/
def heard (lines : List (List Char)) : List (List Char) := lines.takeWhile (!isQuit ·)

/-- The session behind a line that does not end the conversation. -/
def next (s : Session) (line : List Char) : Session := (step s line).1.getD s

def after (s : Session) (lines : List (List Char)) : Session := lines.foldl next s

/-- What each line prints in the session that the lines before it leave. -/
def replies (s : Session) : List (List Char) → List Transcript
  | [] => []
  | line :: rest => (step s line).2 :: replies (next s line) rest

def unmarked {α : Type} (items : List (α × Bool)) : List α := (items.filter (!·.2)).map (·.1)

/-- A line that asks for nothing, only looks, or cannot be read. -/
inductive Idle (line : List Char) : Prop where
  | blank (asks : Command.ofLine? line = none)
  | help (asks : Command.ofLine? line = some .help)
  | env (asks : Command.ofLine? line = some .env)
  | unread {text : String} {e : ParseError} (asks : Command.ofLine? line = some (.source text))
      (refused : Declaration.parse text = .error e)

theorem ofLine?_eq_quit (line : List Char) :
    Command.ofLine? line = some .quit ↔ isQuit line = true := by
  simp only [isQuit, trimmed, Command.ofLine?]
  split <;> simp_all

theorem Idle.stays {line : List Char} (idle : Idle line) : isQuit line = false := by
  rw [Bool.eq_false_iff, ne_eq, ← ofLine?_eq_quit]
  cases idle <;> simp_all

theorem ofLine?_of_reset {line : List Char} (reset : trimmed line = ":reset") :
    Command.ofLine? line = some .reset := by
  rw [trimmed] at reset
  simp [Command.ofLine?, reset]

section Step

variable (s : Session) {line : List Char}

theorem step_quit (quits : isQuit line = true) : step s line = (none, { out := [farewell] }) := by
  rw [step, (ofLine?_eq_quit line).mpr quits]
  rfl

theorem step_stays (stays : isQuit line = false) : (step s line).1 = some (next s line) := by
  have noQuit : Command.ofLine? line ≠ some .quit := by simp [ofLine?_eq_quit, stays]
  unfold next step
  split
  · rfl
  · next command asks =>
    cases command with
    | quit => exact absurd asks noQuit
    | help | reset | env | source => rfl

theorem next_idle (idle : Idle line) : next s line = s := by
  unfold next step
  cases idle with
  | blank asks | help asks | env asks =>
    rw [asks]
    rfl
  | @unread text e asks refused =>
    have same := (evaluate_of_parse_error s.settings text s.env e refused).2
    rw [asks]
    simp [Command.perform, Session.evaluateLine, Session.evaluate, Session.run, same]

/-- Settings and the prelude stay as they are, so nothing of a line outlasts a reset. -/
theorem next_reset (line : List Char) : (next s line).reset = s.reset := by
  unfold next step
  split
  · rfl
  · next command asks =>
    cases command with
    | quit | help | reset | env => rfl
    | source text =>
      have kept := (Operation.perform_eq s.env (.source s.settings text)).1
      simp only [Operation.perform] at kept
      simp [Command.perform, Session.evaluateLine, Session.evaluate, Session.run, Session.reset,
        Environment.clear, kept]

theorem step_reset (reset : trimmed line = ":reset") :
    step s line = (some s.reset, { out := ["Environment cleared"] }) := by
  rw [step, ofLine?_of_reset reset]
  rfl

end Step

section Run

variable (s : Session)

theorem after_reset (lines : List (List Char)) : (after s lines).reset = s.reset := by
  induction lines generalizing s with
  | nil => rfl
  | cons line rest ih =>
    rw [after, List.foldl_cons]
    exact (ih (next s line)).trans (next_reset s line)

theorem printed_runLines_cons {line : List Char} (stays : isQuit line = false)
    (rest : List (List Char)) :
    (runLines s (line :: rest)).printed =
      (step s line).2.printed ++ (runLines (next s line) rest).printed := by
  have found := step_stays s stays
  rw [runLines]
  split
  · next t reply took =>
    rw [took, Option.some.injEq] at found
    rw [Transcript.printed_append, took, found]
  · next took => simp [took] at found

theorem printed_runLines_append {xs : List (List Char)} (stay : ∀ x ∈ xs, isQuit x = false)
    (ys : List (List Char)) :
    (runLines s (xs ++ ys)).printed =
      .join ((replies s xs).map Transcript.printed) ++ (runLines (after s xs) ys).printed := by
  induction xs generalizing s with
  | nil => simp [replies, after]
  | cons x xs ih =>
    obtain ⟨first, others⟩ := List.forall_mem_cons.mp stay
    have later := ih (next s x) others
    rw [List.cons_append, printed_runLines_cons s first, later]
    simp [replies, after, String.append_assoc]

/-- A conversation ends with one farewell, said by the line that ends it or at the end of the
lines. -/
theorem printed_runLines (lines : List (List Char)) :
    (runLines s lines).printed =
      .join ((replies s (heard lines)).map Transcript.printed) ++ (farewell ++ "\n") := by
  induction lines generalizing s with
  | nil => rfl
  | cons line rest ih =>
    cases quits : isQuit line with
    | true =>
      have none : heard (line :: rest) = [] := by simp [heard, quits]
      rw [none, runLines, step_quit s quits]
      rfl
    | false =>
      have others : heard (line :: rest) = line :: heard rest := by simp [heard, quits]
      rw [others, printed_runLines_cons s quits, ih]
      simp [replies, String.append_assoc]

/-- What the heard lines print does not depend on idle lines among them, which are marked. -/
theorem replies_among_idle {lines : List (List Char × Bool)}
    (idle : ∀ line, (line, true) ∈ lines → Idle line) :
    unmarked ((replies s (heard (lines.map (·.1)))).zip (lines.map (·.2))) =
      replies s (heard (unmarked lines)) := by
  induction lines generalizing s with
  | nil => rfl
  | cons head rest ih =>
    obtain ⟨line, added⟩ := head
    have others := fun other member => idle other (List.mem_cons_of_mem _ member)
    cases added with
    | true =>
      have known := idle line List.mem_cons_self
      have later := ih s others
      simpa [unmarked, heard, replies, known.stays, next_idle s known] using later
    | false =>
      have later := ih (next s line) others
      cases quits : isQuit line with
      | true => simp [unmarked, heard, replies, quits]
      | false => simpa [unmarked, heard, replies, quits] using later

end Run

/-- What a conversation prints: the banner, then what the lines print that are heard, and one
farewell. Idle lines that are put in anywhere change nothing of what the other lines print. Behind
a reset, lines print what they would print in a new conversation with the same settings. -/
theorem run_line_by_line (settings : Settings) (style : RuneStyle) :
    let new : Session := { settings, style }
    (∀ input, (run new input).printed = banner ++ "\n" ++
      .join ((replies new (heard (Text.lines input))).map Transcript.printed) ++
        (farewell ++ "\n")) ∧
    (∀ lines : List (List Char × Bool), (∀ line, (line, true) ∈ lines → Idle line) →
      unmarked ((replies new (heard (lines.map (·.1)))).zip (lines.map (·.2))) =
        replies new (heard (unmarked lines))) ∧
    ∀ xs reset ys, (∀ x ∈ xs, isQuit x = false) → trimmed reset = ":reset" →
      (runLines new (xs ++ reset :: ys)).printed =
        .join ((replies new xs).map Transcript.printed) ++
          ("Environment cleared\n" ++ (runLines new ys).printed) := by
  intro new
  refine ⟨fun input => ?_, fun lines => replies_among_idle new, ?_⟩
  · rw [run, Transcript.printed_append, printed_runLines, String.append_assoc]
    rfl
  · intro xs reset ys stay resets
    have again : (after new xs).reset = new := after_reset new xs
    rw [printed_runLines_append new stay, runLines, step_reset _ resets, again,
      Transcript.printed_append]
    rfl

/-- A declaration, three idle lines and a declaration that uses the first; and a name that a reset
takes away, in front of a line that leaves and one that is not heard. -/
theorem run_line_by_line_with_idle_lines :
    let new : Session := {}
    let first := "var a = 1".toList
    let second := "var b = a".toList
    let lines := [(first, false), (" :env ".toList, true), ("var".toList, true), ([], true),
      (second, false)]
    (∀ line, (line, true) ∈ lines → Idle line) ∧
    unmarked ((replies new (heard (lines.map (·.1)))).zip (lines.map (·.2))) =
      replies new [first, second] ∧
    (∀ x ∈ [first], isQuit x = false) ∧ trimmed "  :reset".toList = ":reset" ∧
    (runLines new ([first] ++ "  :reset".toList :: [second, ":q".toList, first])).printed =
      "1\nEnvironment cleared\n<no value>\nSee you later\n" := by
  intro new first second lines
  obtain ⟨-, among, behind⟩ := run_line_by_line {} .scalar
  have idle : ∀ line, (line, true) ∈ lines → Idle line := by
    intro line member
    simp only [lines, List.mem_cons, Prod.mk.injEq, Bool.true_eq_false, and_false, and_true,
      List.not_mem_nil, or_false, false_or] at member
    rcases member with rfl | rfl | rfl
    · exact .env (by decide +kernel)
    · exact .unread rfl rfl
    · exact .blank rfl
  have stay : ∀ x ∈ [first], isQuit x = false := by decide +kernel
  have resets : trimmed "  :reset".toList = ":reset" := by decide +kernel
  refine ⟨idle, ?_, stay, resets, ?_⟩
  · have hears : heard (unmarked lines) = [first, second] := by decide +kernel
    exact hears ▸ among lines idle
  · rw [behind [first] _ [second, ":q".toList, first] stay resets]
    decide +kernel

end Repl

end GoDecl
