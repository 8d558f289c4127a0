import GoDecl.Proofs.Grouping
import GoDecl.Proofs.Operands

/-! Initialisers are grouped as in Go. Reading takes a row of operators apart by their ranks, which
order them as they bind, and puts together the tree that was written. -/
namespace GoDecl

open Grammar

/-- The rank of an operator among all that can be read. -/
def Operator.rank (op : Operator) : Nat := (BinaryOp.plain op).precedence.rank

theorem Operator.rank_le_iff (op other : Operator) :
    op.rank ≤ other.rank ↔ op.tightness ≤ other.tightness := by
  cases op <;> cases other <;> decide

theorem Operator.rank_lt_iff (op other : Operator) :
    op.rank < other.rank ↔ op.tightness < other.tightness := by
  cases op <;> cases other <;> decide

theorem Operator.Before.rank_le {op next : Operator} (before : op.Before next) :
    next.rank ≤ op.rank := by
  rw [rank_le_iff]
  rcases before with less | ⟨equal, -⟩ <;> omega

theorem Operator.three_le_tightness (op : Operator) : 3 ≤ op.tightness := by
  cases op <;> decide

theorem isComparison_binary (op : Operator) (left right : Tree) :
    (Tree.binary (.plain op) left right).isComparison = true ↔ op.tightness = 3 := by
  cases op <;> simp [Tree.isComparison, Tree.core, BinaryOp.precedence, Operator.tightness]

namespace Operator.SpelledBy

variable {op : Operator} {marks : List Token} (spelled : op.SpelledBy marks) (more : List Token)

include spelled

theorem cases : (∃ c p, op.symbol = [c] ∧ marks = [.punct c false p]) ∨
    ∃ c p q, op.symbol = [c, '='] ∧ marks = [.punct c true p, .punct '=' false q] := by
  cases op with
  | le | ge =>
    obtain ⟨p, _, rfl, others⟩ := Token.unplacedAll_eq_punct_cons.mp spelled
    obtain ⟨q, _, rfl, none⟩ := Token.unplacedAll_eq_punct_cons.mp others
    cases Token.unplacedAll_eq_nil.mp none
    exact .inr ⟨_, p, q, rfl, rfl⟩
  | add | sub | mul | div | rem | lt | gt =>
    obtain ⟨p, _, rfl, none⟩ := Token.unplacedAll_eq_punct_cons.mp spelled
    cases Token.unplacedAll_eq_nil.mp none
    exact .inl ⟨_, p, rfl, rfl⟩

/-- The longest symbol is found: a mark that stands apart does not begin a longer one. -/
theorem binaryAhead : Grammar.binaryAhead (marks ++ more) = some (.plain op) := by
  rcases spelled.cases with ⟨c, p, symbol, rfl⟩ | ⟨c, p, q, symbol, rfl⟩
  · cases op <;> cases symbol <;> rfl
  · cases op <;> cases symbol <;> rfl

theorem punct (c : Cursor) :
    ∃ read, Grammar.punct op.symbol (c.at (marks ++ more)) = .ok (read, c.at more) := by
  rcases spelled.cases with ⟨d, p, symbol, rfl⟩ | ⟨d, p, q, symbol, rfl⟩
  · cases op <;> cases symbol <;> exact ⟨_, rfl⟩
  · cases op <;> cases symbol <;> exact ⟨_, rfl⟩

theorem endsOperand : Grammar.endsOperand (marks ++ more) := by
  rcases spelled.cases with ⟨c, p, symbol, rfl⟩ | ⟨c, p, q, symbol, rfl⟩
  · cases op <;> cases symbol <;> rfl
  · cases op <;> cases symbol <;> rfl

theorem nonempty : marks ≠ [] := by
  rcases spelled.cases with ⟨c, p, symbol, rfl⟩ | ⟨c, p, q, symbol, rfl⟩ <;> simp

end Operator.SpelledBy

/-- What follows an operand: an operator, or nothing that goes on with the expression. -/
inductive Next : Option Operator → List Token → Prop where
  | done {rest : List Token} (ends : endsExpr rest) : Next none rest
  | operator {op : Operator} {marks : List Token} (spelled : op.SpelledBy marks)
      (more : List Token) : Next (some op) (marks ++ more)

namespace Next

variable {next : Option Operator} {rest : List Token} (follows : Next next rest)

include follows

theorem over_operand : Over rest := by
  cases follows with
  | done ends => exact over_of_endsOperand (endsOperand_of_endsExpr ends)
  | operator spelled more => exact over_of_endsOperand (spelled.endsOperand more)

theorem binaryAhead : Grammar.binaryAhead rest = next.map .plain := by
  cases follows with
  | done ends => exact (ended_of_endsExpr ends).noBinary
  | operator spelled more => exact spelled.binaryAhead more

theorem precedenceAhead :
    Grammar.precedenceAhead rest =
      (next.map fun op => (BinaryOp.plain op).precedence).getD .jump := by
  rw [Grammar.precedenceAhead, follows.binaryAhead]
  cases follows with
  | done ends =>
    have ended := ended_of_endsExpr ends
    simp [ended.noAssign, ended.noRange, ended.noCast]
  | operator spelled more => rfl

/-- Reading stops in front of an operator that binds looser than asked for. -/
theorem operatorsRule_stops (r : Rules) {left : Tree} (structs : Bool) {base : Precedence}
    (c : Cursor) (noRange : left.isRange = false) (loose : ∀ op ∈ next, op.rank < base.rank) :
    operatorsRule r left structs base (c.at rest) = .ok (left, c.at rest) := by
  have noBinary := follows.binaryAhead
  cases follows with
  | done ends =>
    have ended := ended_of_endsExpr ends
    simp [operatorsRule, noRange, ended.noBinary, ended.noAssign, ended.noRange, ended.noCast]
  | @operator op marks spelled more =>
    have looser : (BinaryOp.plain op).precedence.rank < base.rank := loose op rfl
    simp [operatorsRule, noRange, noBinary, looser]

theorem operandTailRule_stops (r : Rules) (right : Tree) (structs : Bool) (c : Cursor)
    {above : Operator} (loose : ∀ op ∈ next, op.rank ≤ above.rank) :
    operandTailRule r right structs (BinaryOp.plain above).precedence (c.at rest) =
      .ok (right, c.at rest) := by
  have noAssign : (BinaryOp.plain above).precedence ≠ .assign := by cases above <;> decide
  have notTight :
      ¬ (BinaryOp.plain above).precedence.rank < (Grammar.precedenceAhead rest).rank := by
    rw [follows.precedenceAhead]
    cases next with
    | none => exact Nat.not_lt_zero _
    | some op => exact Nat.not_lt.mpr (loose op rfl)
  simp [operandTailRule, noAssign, notTight]

end Next

/-- A tighter operator behind a right operand goes to the operand, with all that bind as tight. -/
theorem operandTailRule_operator {r : Rules} {right longer : Tree} {structs : Bool} {c : Cursor}
    {above op : Operator} {a rest : List Token} (follows : Next (some op) a)
    (tight : above.rank < op.rank)
    (taken : r.operators right structs (BinaryOp.plain op).precedence (c.at a) =
      .ok (longer, c.at rest)) (shorter : rest.length < a.length) :
    operandTailRule r right structs (BinaryOp.plain above).precedence (c.at a) =
      r.operandTail longer structs (BinaryOp.plain above).precedence (c.at rest) := by
  have ahead : precedenceAhead a = (BinaryOp.plain op).precedence := follows.precedenceAhead
  have tighter :
      (BinaryOp.plain above).precedence.rank < (BinaryOp.plain op).precedence.rank := tight
  have moved : rest.length ≠ a.length := Nat.ne_of_lt shorter
  simp only [operandTailRule, ahead_at_bind, ahead, tighter, decide_true, Bool.true_or, if_true,
    bind_of_ok taken, moved, if_false]

/-- Reading goes on over an operator that binds tight enough. -/
theorem operatorsRule_operator {r : Rules} {left : Tree} (structs : Bool) {base : Precedence}
    (c : Cursor) {op : Operator} {marks : List Token} (spelled : op.SpelledBy marks)
    (more : List Token) (noRange : left.isRange = false) (tight : base.rank ≤ op.rank)
    (unchained : left.isComparison → op.tightness ≠ 3) :
    operatorsRule r left structs base (c.at (marks ++ more)) =
      (do
        let right ← r.operand structs (BinaryOp.plain op).precedence
        r.operators (.binary (.plain op) left right) structs base) (c.at more) := by
  have notLoose : ¬ (BinaryOp.plain op).precedence.rank < base.rank := Nat.not_lt.mpr tight
  have notChained : ((BinaryOp.plain op).precedence = .compare && left.isComparison) = false := by
    cases comparison : left.isComparison with
    | false => simp
    | true =>
      have := unchained comparison
      cases op <;> first | rfl | contradiction
  obtain ⟨read, taken⟩ := spelled.punct more c
  simp only [operatorsRule, ahead_at_bind, noRange, Bool.false_eq_true, if_false,
    spelled.binaryAhead more, notLoose, notChained]
  exact bind_of_ok (discard_of_ok taken) _

/-- An expression that is read as the right operand of whatever binds looser, up to an operator that
binds no tighter than that. No more than four rules are entered before a token is taken. -/
def Expr.ReadsBehind (e : Expr) : Prop :=
  ∀ (above : Operator), above.tightness < e.tightness → ∀ tokens, e.SpelledBy tokens →
    ∀ n, 4 * Token.sizeOfAll tokens ≤ n + 1 → ∀ structs (c : Cursor) next rest, Next next rest →
      (∀ op ∈ next, op.rank ≤ above.rank) →
      (Rules.atDepth n).operand structs (BinaryOp.plain above).precedence (c.at (tokens ++ rest)) =
        .ok (e.toTree, c.at rest)

namespace Row

/-- What follows where a row begins: its first operator, or what follows the row. -/
theorem SpelledBy.next {row : Row} {tokens : List Token} (spelled : SpelledBy row tokens)
    {next : Option Operator} {rest : List Token} (follows : Next next rest) :
    Next ((row.head?.map (·.1)).or next) (tokens ++ rest) := by
  cases row with
  | nil =>
    cases spelledBy_nil.mp spelled
    exact follows
  | cons x row =>
    obtain ⟨marks, back, more, rfl, marked, -, -⟩ := spelledBy_cons.mp spelled
    rw [List.append_assoc]
    exact .operator marked _

/-- A row whose operators bind ever looser and whose operands bind tighter than those. -/
structure Readable (row : Row) : Prop where
  descends : row.Pairwise fun a b => a.1.Before b.1
  operands : ∀ x ∈ row, x.1.tightness < x.2.tightness ∧ x.2.ReadsBehind

namespace Readable

theorem nil : Readable [] := ⟨.nil, by simp⟩

variable {op : Operator} {right : Expr} {row : Row} (readable : Readable ((op, right) :: row))

include readable

theorem before : ∀ x ∈ row, op.Before x.1 := (List.pairwise_cons.mp readable.descends).1

theorem tail : Readable row where
  descends := (List.pairwise_cons.mp readable.descends).2
  operands x member := readable.operands x (List.mem_cons_of_mem _ member)

end Readable

theorem Readable.of_append {near far : Row} (readable : Readable (near ++ far)) :
    Readable near ∧ Readable far := by
  obtain ⟨descendsNear, descendsFar, -⟩ := List.pairwise_append.mp readable.descends
  obtain ⟨operandsNear, operandsFar⟩ := List.forall_mem_append.mp readable.operands
  exact ⟨⟨descendsNear, operandsNear⟩, ⟨descendsFar, operandsFar⟩⟩

/-- A row is read up to what binds looser than asked for. -/
theorem operators_row {row : Row} (readable : Readable row) {base : Precedence}
    (tight : ∀ x ∈ row, base.rank ≤ x.1.rank) {left : Tree} (noRange : left.isRange = false)
    (unchained : left.isComparison → ∀ x ∈ row, x.1.tightness ≠ 3) {tokens : List Token}
    (spelled : SpelledBy row tokens) {n : Nat} (deep : 4 * Token.sizeOfAll tokens + 1 ≤ n)
    (structs : Bool) (c : Cursor) {next : Option Operator} {rest : List Token}
    (follows : Next next rest) (loose : ∀ op ∈ next, op.rank < base.rank) :
    (Rules.atDepth n).operators left structs base (c.at (tokens ++ rest)) =
      .ok (grow left row, c.at rest) := by
  induction row generalizing left tokens n with
  | nil =>
    cases spelledBy_nil.mp spelled
    obtain ⟨n, rfl⟩ := Nat.exists_eq_succ_of_ne_zero (show n ≠ 0 by omega)
    exact follows.operatorsRule_stops _ structs c noRange loose
  | cons x row ih =>
    obtain ⟨op, right⟩ := x
    obtain ⟨marks, back, more, rfl, marked, behind, others⟩ := spelledBy_cons.mp spelled
    obtain ⟨n, rfl⟩ := Nat.exists_eq_succ_of_ne_zero (show n ≠ 0 by omega)
    simp only [Token.sizeOfAll_append] at deep
    have := Token.sizeOfAll_pos marked.nonempty
    obtain ⟨tightOp, tightRow⟩ := List.forall_mem_cons.mp tight
    -- Behind the right operand comes the next operator of the row, or what follows the row.
    have behindOperand : ∀ o ∈ (row.head?.map (·.1)).or next, o.rank ≤ op.rank := by
      intro o member
      cases row with
      | nil => exact Nat.le_of_lt (Nat.lt_of_lt_of_le (loose o member) tightOp)
      | cons y row =>
        cases member
        exact (readable.before y (List.mem_cons_self ..)).rank_le
    obtain ⟨tighter, reads⟩ := readable.operands (op, right) (List.mem_cons_self ..)
    have operand := reads op tighter back behind n (by omega) structs c _ _ (others.next follows)
      behindOperand
    have unchainedRow : (Tree.binary (.plain op) left right.toTree).isComparison →
        ∀ x ∈ row, x.1.tightness ≠ 3 := by
      intro comparison x member
      rw [isComparison_binary] at comparison
      rcases readable.before x member with less | ⟨-, other⟩ <;> omega
    have later : (Rules.atDepth n).operators (.binary (.plain op) left right.toTree) structs base
        (c.at (more ++ rest)) = .ok (grow left ((op, right) :: row), c.at rest) :=
      ih readable.tail tightRow rfl unchainedRow others (by omega)
    simp only [List.append_assoc]
    refine (operatorsRule_operator structs c marked _ noRange tightOp fun comparison =>
      unchained comparison _ (List.mem_cons_self ..)).trans ?_
    rw [bind_of_ok operand]
    exact later

theorem SpelledBy.nonempty {x : Operator × Expr} {row : Row} {tokens : List Token}
    (spelled : SpelledBy (x :: row) tokens) : tokens ≠ [] := by
  obtain ⟨marks, back, more, rfl, marked, -, -⟩ := spelledBy_cons.mp spelled
  exact List.append_ne_nil_of_left_ne_nil marked.nonempty _

/-- The operators of a row that bind as tight as the first are read together, and so on with what is
left. -/
theorem operandTail_row {row : Row} (readable : Readable row) {above : Operator}
    (tight : ∀ x ∈ row, above.tightness < x.1.tightness) {right : Tree}
    (noRange : right.isRange = false) {tokens : List Token} (spelled : SpelledBy row tokens)
    {n : Nat} (deep : 4 * Token.sizeOfAll tokens + 2 ≤ n) (structs : Bool) (c : Cursor)
    {next : Option Operator} {rest : List Token} (follows : Next next rest)
    (loose : ∀ op ∈ next, op.rank ≤ above.rank) :
    (Rules.atDepth n).operandTail right structs (BinaryOp.plain above).precedence
      (c.at (tokens ++ rest)) = .ok (grow right row, c.at rest) := by
  induction size : row.length using Nat.strongRecOn generalizing row right tokens n with
  | ind length ih =>
  obtain ⟨n, rfl⟩ := Nat.exists_eq_succ_of_ne_zero (show n ≠ 0 by omega)
  cases row with
  | nil =>
    cases spelledBy_nil.mp spelled
    exact follows.operandTailRule_stops _ right structs c loose
  | cons x row =>
    obtain ⟨near, far, rfl, tightNear, looseFar⟩ := exists_split x.1 row
    rw [← List.cons_append] at readable tight spelled ⊢
    obtain ⟨front, back, rfl, spelledNear, spelledFar⟩ := spelledBy_append.mp spelled
    obtain ⟨readableNear, readableFar⟩ := readable.of_append
    obtain ⟨aboveNear, aboveFar⟩ := List.forall_mem_append.mp tight
    simp only [Token.sizeOfAll_append] at deep
    have := Token.sizeOfAll_pos spelledNear.nonempty
    have := List.length_pos_iff.mpr spelledNear.nonempty
    have tighter : above.rank < x.1.rank :=
      (Operator.rank_lt_iff ..).mpr (aboveNear x (List.mem_cons_self ..))
    have tightGroup : ∀ y ∈ x :: near, x.1.rank ≤ y.1.rank := by
      simpa [Operator.rank_le_iff] using tightNear
    have looseBehind : ∀ op ∈ (far.head?.map (·.1)).or next, op.rank < x.1.rank := by
      intro op member
      cases stop : far.head? with
      | none =>
        rw [stop] at member
        exact Nat.lt_of_le_of_lt (loose op member) tighter
      | some y =>
        rw [stop] at member
        cases member
        exact (Operator.rank_lt_iff ..).mpr (looseFar y stop)
    -- An operator above which something binds tighter is looser than all of the row.
    have unchained : right.isComparison → ∀ y ∈ x :: near, y.1.tightness ≠ 3 := by
      intro _ y member
      have := above.three_le_tightness
      have := aboveNear y member
      omega
    have group := operators_row readableNear tightGroup noRange unchained spelledNear
      (show _ ≤ n by omega) structs c (spelledFar.next follows) looseBehind
    have later := ih far.length (by simp at size; omega) readableFar aboveFar
      (isRange_grow noRange (x :: near)) spelledFar (show _ ≤ n by omega) rfl
    rw [grow_append, ← later, List.append_assoc]
    refine operandTailRule_operator (spelledNear.next (spelledFar.next follows)) tighter group ?_
    simp only [List.length_append]
    omega

end Row

namespace Expr

/-- An expression that is read by itself, whatever may follow an operand. -/
def ReadsAlone (e : Expr) : Prop :=
  ∀ tokens, e.SpelledBy tokens → ∀ n, 4 * Token.sizeOfAll tokens ≤ n + 3 →
    ∀ structs (c : Cursor) rest, Over rest →
      (Rules.atDepth n).unary structs (c.at (tokens ++ rest)) = .ok (e.toTree, c.at rest)

namespace Grouped

variable {e : Expr} (grouped : e.Grouped)

include grouped

section Parts

variable (alone : e.first.ReadsAlone) (readable : Row.Readable e.row)

include alone readable

/-- As a right operand, the expression is its first operand and a row of tighter operators. -/
theorem readsBehind : e.ReadsBehind := by
  intro above tighter tokens spelled n deep structs c next rest follows loose
  obtain ⟨front, back, rfl, first, others, some⟩ := grouped.exists_parts spelled
  simp only [Token.sizeOfAll_append] at deep
  obtain ⟨n, rfl⟩ := Nat.exists_eq_succ_of_ne_zero (show n ≠ 0 by omega)
  have tight : ∀ x ∈ e.row, above.tightness < x.1.tightness := fun x member =>
    Nat.lt_of_lt_of_le tighter (grouped.row_descends.2 x member)
  have read := alone front first n (by omega) structs c (back ++ rest)
    (others.next follows).over_operand
  have later := Row.operandTail_row readable tight grouped.isRange_first others
    (show _ ≤ n by omega) structs c follows loose
  rw [grouped.toTree_eq, List.append_assoc, ← later]
  exact bind_of_ok read _

/-- As a whole, it goes on over all operators. -/
theorem expr_of_parts {tokens : List Token} (spelled : e.SpelledBy tokens) {n : Nat}
    (deep : 4 * Token.sizeOfAll tokens ≤ n + 2) (structs : Bool) (c : Cursor) {rest : List Token}
    (ends : endsExpr rest) :
    (Rules.atDepth n).expr structs (c.at (tokens ++ rest)) = .ok (e.toTree, c.at rest) := by
  obtain ⟨front, back, rfl, first, others, some⟩ := grouped.exists_parts spelled
  simp only [Token.sizeOfAll_append] at deep
  obtain ⟨n, rfl⟩ := Nat.exists_eq_succ_of_ne_zero (show n ≠ 0 by omega)
  have follows := Next.done ends
  have read := alone front first n (by omega) structs c (back ++ rest)
    (others.next follows).over_operand
  have unchained : e.first.toTree.isComparison → ∀ x ∈ e.row, x.1.tightness ≠ 3 := by
    rw [grouped.isComparison_first]
    nofun
  have later : (Rules.atDepth n).operators e.first.toTree structs .jump (c.at (back ++ rest)) =
      .ok (Row.grow e.first.toTree e.row, c.at rest) :=
    Row.operators_row readable (fun _ _ => Nat.zero_le _) grouped.isRange_first unchained others
      (by omega) structs c follows nofun
  rw [grouped.toTree_eq, List.append_assoc, ← later]
  exact bind_of_ok read _

end Parts

theorem readsAlone_of_rule
    (rule : ∀ tokens, e.SpelledBy tokens → ∀ n, 4 * Token.sizeOfAll tokens ≤ n + 4 →
      ∀ structs (c : Cursor) rest, Over rest →
        unaryRule (Rules.atDepth n) structs (c.at (tokens ++ rest)) = .ok (e.toTree, c.at rest)) :
    e.ReadsAlone := by
  intro tokens spelled n deep structs c rest closed
  have := Token.sizeOfAll_pos (grouped.nonempty spelled)
  obtain ⟨n, rfl⟩ := Nat.exists_eq_succ_of_ne_zero (show n ≠ 0 by omega)
  exact rule tokens spelled n (by omega) structs c rest closed

end Grouped

/-- Every part of the tree is read where it stands. -/
theorem Grouped.parts_read {e : Expr} (grouped : e.Grouped) :
    e.first.ReadsAlone ∧ Row.Readable e.row := by
  induction grouped with
  | literal l written =>
    refine ⟨(Grouped.literal l written).readsAlone_of_rule ?_, .nil⟩
    intro tokens spelled n _ structs c rest closed
    obtain ⟨p, rfl⟩ := (SpelledBy.literal written).mp spelled
    exact unaryRule_literal _ structs c l p closed
  | name text free =>
    refine ⟨(Grouped.name text free).readsAlone_of_rule ?_, .nil⟩
    intro tokens spelled n _ structs c rest closed
    obtain ⟨p, rfl⟩ := spelled.name
    exact unaryRule_name free p c closed _ structs
  | @paren inner within ih =>
    refine ⟨within.paren.readsAlone_of_rule ?_, .nil⟩
    intro tokens spelled n deep structs c rest closed
    obtain ⟨own, p, q, rfl, spelledOwn⟩ := spelled.paren
    simp only [Token.sizeOfAll, Token.size] at deep
    have read (d : Cursor) : (Rules.atDepth n).expr true (d.at (own ++ [])) =
        .ok (inner.toTree, d.at []) :=
      within.expr_of_parts ih.1 ih.2 spelledOwn (by omega) true d rfl
    rw [List.append_nil] at read
    exact unaryRule_paren structs c (within.nonempty spelledOwn) read closed
  | @unary op operand tight behind ih =>
    refine ⟨(behind.unary tight).readsAlone_of_rule ?_, .nil⟩
    intro tokens spelled n deep structs c rest closed
    obtain ⟨p, more, rfl, spelledMore⟩ := spelled.unary
    simp only [Token.sizeOfAll, Token.size] at deep
    rw [first_of_tight tight] at ih
    have read := ih.1 more spelledMore n (by omega) structs c rest closed
    exact unaryRule_sign structs c op false p read
  | @binary op left right onLeft onRight before behind ihLeft ihRight =>
    refine ⟨ihLeft.1, (before.binary onLeft onRight behind).row_descends.1, ?_⟩
    simp only [row, List.mem_append, List.mem_singleton]
    rintro x (inLeft | rfl)
    · exact ihLeft.2.operands x inLeft
    · exact ⟨onRight, behind.readsBehind ihRight.1 ihRight.2⟩

/-- An expression that can be written, as it is written. -/
def WrittenAs (e : Expr) (tokens : List Token) : Prop := e.Grouped ∧ e.SpelledBy tokens

/-- Reading takes just the tokens of an expression and gives its tree. -/
theorem expression_takes : Takes expression WrittenAs id (endsExpr ·) := by
  rintro e tokens ⟨grouped, spelled⟩ c rest ends
  obtain ⟨alone, readable⟩ := grouped.parts_read
  have deep : 4 * Token.sizeOfAll tokens ≤ depthFor (tokens ++ rest) + 2 := by
    simp only [depthFor, Token.sizeOfAll_append]
    omega
  have read := grouped.expr_of_parts alone readable spelled deep true c ends
  simp only [expression, ahead_at_bind]
  rw [bind_of_ok read, grouped.toExpr_toTree]
  rfl

theorem writtenAs_literal (l : Literal) (noBool : ∀ b, l ≠ .bool b) (p : Position) :
    (literal l).WrittenAs [.literal l p] :=
  ⟨.literal l noBool, (SpelledBy.literal noBool).mpr ⟨p, rfl⟩⟩

/-- A text that holds nothing but an expression is read as it. -/
theorem parse_of_lex {source : String} {tokens : List Token} {e : Expr}
    (lexed : Token.lex source.toList = .ok tokens) (written : e.WrittenAs tokens) :
    Expr.parse source = .ok e := by
  have taken := expression_takes e tokens written { ahead := [] } [] rfl
  rw [List.append_nil] at taken
  have all : readAll expression tokens = .ok e := readAll_eq_ok.mpr ⟨_, taken, rfl, rfl⟩
  simp only [Expr.parse, readText, lexed, all]

end Expr

end GoDecl
