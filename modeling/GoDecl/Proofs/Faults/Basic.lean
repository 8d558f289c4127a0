import GoDecl.Grammar.Parser
import GoDecl.Proofs.TokenPlaces

/-! Where a reading fails. A cursor knows places only from the tokens ahead of it, from the group
they stand in and from what was left over. A reader that starts among real places stays among them,
so a fault it raises points at one. This is closed under putting readers together. -/
namespace GoDecl.Grammar

structure Cursor.Within (real : Position → Prop) (c : Cursor) : Prop where
  ahead : ∀ t ∈ c.ahead, t.Within real
  close : real c.close
  stray : ∀ s, c.stray = some s → real s.place

def Fault.Within (real : Position → Prop) : Fault → Prop
  | .refused _ place => real place
  | .exhausted => True

/-- The end of a reading: a result as `found` says and a cursor, or a fault, at real places. -/
def Ends {α : Type} (real : Position → Prop) (found : α → Prop) :
    Except Fault (α × Cursor) → Prop
  | .ok (a, d) => found a ∧ d.Within real
  | .error fault => fault.Within real

/-- Among real places, what the reader gives back is as `found` says and its faults are real. -/
def Finds {α : Type} (real : Position → Prop) (found : α → Prop) (reader : Parser α) : Prop :=
  ∀ c : Cursor, c.Within real → Ends real found (reader c)

/-- Among real places, the reader goes on to real places and its faults point at some. -/
def Points {α : Type} (real : Position → Prop) (reader : Parser α) : Prop :=
  Finds real (fun _ => True) reader

variable {α β : Type} {real : Position → Prop}

theorem Cursor.Within.place {c : Cursor} (within : c.Within real) : real c.place := by
  unfold Cursor.place
  split
  · next t rest same => exact (within.ahead t (by simp [same])).start
  · exact within.close

theorem Cursor.Within.leftOver {c : Cursor} (within : c.Within real) {s : Stray}
    (left : c.leftOver = some s) : real s.place := by
  unfold Cursor.leftOver at left
  split at left
  · next t rest same =>
    cases left
    exact (within.ahead t (by simp [same])).start
  · contradiction

/-- With a part of what was ahead the cursor is still among real places. -/
theorem Cursor.Within.move {c : Cursor} (within : c.Within real) {rest : Tokens}
    (behind : rest <:+ c.ahead) : Cursor.Within real { c with ahead := rest } :=
  ⟨fun t member => within.ahead t (behind.subset member), within.close, within.stray⟩

theorem Finds.pure {found : α → Prop} {a : α} (holds : found a) :
    Finds real found (Pure.pure a) := fun _ within => ⟨holds, within⟩

theorem Finds.bind {first : α → Prop} {found : β → Prop} {reader : Parser α}
    {next : α → Parser β} (one : Finds real first reader)
    (other : ∀ a, first a → Finds real found (next a)) : Finds real found (reader >>= next) := by
  intro c within
  have taken := one c within
  change Ends real found (reader c >>= fun p => next p.1 p.2)
  cases read : reader c with
  | error fault =>
    rw [read] at taken
    exact taken
  | ok p =>
    rw [read] at taken
    exact other p.1 taken.1 p.2 taken.2

theorem Finds.imp {found weaker : α → Prop} {reader : Parser α} (one : Finds real found reader)
    (implies : ∀ a, found a → weaker a) : Finds real weaker reader := by
  intro c within
  have taken := one c within
  cases read : reader c with
  | error fault =>
    rw [read] at taken
    exact taken
  | ok p =>
    rw [read] at taken
    exact ⟨implies p.1 taken.1, taken.2⟩

theorem Finds.points {found : α → Prop} {reader : Parser α} (one : Finds real found reader) :
    Points real reader := one.imp fun _ _ => trivial

/-- A reader whose result does not matter to what the next one finds. -/
theorem Finds.behind {found : β → Prop} {reader : Parser α} {next : α → Parser β}
    (one : Points real reader) (other : ∀ a, Finds real found (next a)) :
    Finds real found (reader >>= next) := .bind one fun a _ => other a

/-- A reader that looks at the cursor sees real places. -/
theorem Finds.get {found : β → Prop} {next : Cursor → Parser β}
    (other : ∀ c : Cursor, c.Within real → Finds real found (next c)) :
    Finds real found (get >>= next) := fun c within => other c within c within

@[grind ←] theorem Points.pure (a : α) : Points real (Pure.pure a : Parser α) := Finds.pure trivial

/-- What comes behind a reader may rest on what that one found. -/
theorem Points.behind {found : α → Prop} {reader : Parser α} {next : α → Parser β}
    (one : Finds real found reader) (other : ∀ a, found a → Points real (next a)) :
    Points real (reader >>= next) := Finds.bind one other

@[grind ←] theorem Points.bind {reader : Parser α} {next : α → Parser β} (one : Points real reader)
    (other : ∀ a, Points real (next a)) : Points real (reader >>= next) :=
  .behind one fun a _ => other a

@[grind ←] theorem Points.get {next : Cursor → Parser β}
    (other : ∀ c : Cursor, c.Within real → Points real (next c)) : Points real (get >>= next) :=
  Finds.get other

@[grind ←] theorem Points.set {d : Cursor} {next : PUnit → Parser β} (there : d.Within real)
    (other : ∀ u, Points real (next u)) : Points real (set d >>= next) :=
  fun _ _ => other ⟨⟩ d there

@[grind ←] theorem points_throw {message : String} {place : Position} (there : real place) :
    Points real (throw (.refused message place) : Parser α) := fun _ _ => there

@[grind ←] theorem points_exhausted : Points real (throw .exhausted : Parser α) :=
  fun _ _ => trivial

theorem points_modify {change : Cursor → Cursor}
    (keeps : ∀ c : Cursor, c.Within real → (change c).Within real) :
    Points real (modify change) := fun c within => ⟨trivial, keeps c within⟩

theorem Finds.ite {p : Prop} [Decidable p] {found : α → Prop} {reader alternative : Parser α}
    (one : Finds real found reader) (two : Finds real found alternative) :
    Finds real found (if p then reader else alternative) := by
  split
  · exact one
  · exact two

/-- One of two readers, and what comes behind it either way. -/
theorem Finds.branch {p : Prop} [Decidable p] {found : β → Prop} {reader alternative : Parser α}
    {next : α → Parser β} (one : Points real reader) (two : Points real alternative)
    (other : ∀ a, Finds real found (next a)) :
    Finds real found (if p then reader >>= next else alternative >>= next) :=
  .ite (.behind one other) (.behind two other)

theorem Points.ite {p : Prop} [Decidable p] {reader alternative : Parser α}
    (one : Points real reader) (two : Points real alternative) :
    Points real (if p then reader else alternative) := Finds.ite one two

theorem Points.branch {p : Prop} [Decidable p] {reader alternative : Parser α}
    {next : α → Parser β} (one : Points real reader) (two : Points real alternative)
    (other : ∀ a, Points real (next a)) :
    Points real (if p then reader >>= next else alternative >>= next) := Finds.branch one two other

/-- A reader that is only run where `p` holds, and what comes behind it either way. -/
theorem Points.when {p : Prop} [Decidable p] {reader : Parser Unit} {next : Unit → Parser β}
    (one : Points real reader) (other : ∀ u, Points real (next u)) :
    Points real (if p then reader >>= next else next ()) := .ite (.bind one other) (other ())

@[grind ←] theorem points_ahead : Points real ahead := fun _ within => ⟨trivial, within⟩

@[grind ←] theorem points_atEnd : Points real atEnd := fun _ within => ⟨trivial, within⟩

theorem finds_refuse {found : α → Prop} (message : String) :
    Finds real found (refuse message : Parser α) := .get fun _ within _ _ => within.place

@[grind ←] theorem points_refuse (message : String) : Points real (refuse message : Parser α) :=
  finds_refuse message

@[grind ←] theorem points_refusePlainly (message : String) :
    Points real (refusePlainly message : Parser α) :=
  .get fun _ within => points_throw within.place

@[grind ←] theorem points_refuseFor (wanted : List String) :
    Points real (refuseFor wanted : Parser α) := points_refuse _

@[grind ←] theorem points_discard {reader : Parser α} (one : Points real reader) :
    Points real (discard reader) := Finds.bind one fun _ _ => Finds.pure trivial

/-- A reader that refuses is taken back to where it began. -/
theorem finds_attempt? {found : α → Prop} {reader : Parser α} (one : Finds real found reader) :
    Finds real (fun found? => ∀ a, found? = some a → found a) (attempt? reader) := by
  intro c within
  have taken := one c within
  unfold attempt?
  cases read : reader c with
  | ok p =>
    rw [read] at taken
    exact ⟨fun a same => Option.some.inj same ▸ taken.1, taken.2⟩
  | error fault =>
    cases fault with
    | refused => exact ⟨by simp, within⟩
    | exhausted => exact trivial

@[grind ←] theorem points_attempt? {reader : Parser α} (one : Points real reader) :
    Points real (attempt? reader) := (finds_attempt? one).points

/-- Inside a group its own closing bracket is the end. What is left over there is in front of it. -/
@[grind ←] theorem points_insideThen (d : Delimiter) {body : Parser α} {after : α → Parser β}
    (one : Points real body) (other : ∀ a, Points real (after a)) :
    Points real (insideThen d body after) := by
  unfold insideThen
  refine .get fun c within => ?_
  split
  · next e inner start stop rest same =>
    have group := within.ahead (.group e inner start stop) (by simp [same])
    cases group with
    | group inner _ ends =>
      refine .ite (.set ⟨inner, ends, within.stray⟩ fun _ => .bind one fun found => ?_)
        (points_refuse _)
      refine .get fun finished left => ?_
      have rest := within.move (by simp [same] : rest <:+ c.ahead)
      refine .set ⟨rest.ahead, rest.close, left.stray⟩ fun _ => .bind (other found) fun result => ?_
      refine .bind (points_modify fun e last => ⟨last.ahead, last.close, fun s kept => ?_⟩) fun _ =>
        .pure result
      cases before : e.stray with
      | some first => exact last.stray s (by simpa [before] using kept)
      | none => exact left.leftOver (by simpa [before] using kept)
  · exact points_refuse _

@[grind ←] theorem points_inside (d : Delimiter) {body : Parser α} (one : Points real body) :
    Points real (inside d body) := points_insideThen d one fun a => .pure a

@[grind ←] theorem points_group (d : Delimiter) {body : Parser Tokens} (one : Points real body) :
    Points real (group d body) := .bind (points_inside d one) fun _ => .pure _

@[grind ←] theorem points_token : Points real token := by
  unfold token
  refine .get fun c within => ?_
  split
  · next t rest same => exact .set (within.move (by simp [same])) fun _ => .pure t
  · exact points_refuse _

theorem readPunct?_suffix {symbol : List Char} {tokens read rest : Tokens}
    (found : readPunct? symbol tokens = some (read, rest)) : rest <:+ tokens := by
  fun_induction readPunct? symbol tokens generalizing read <;> grind [Option.map_eq_some_iff]

@[grind ←] theorem points_punct (symbol : List Char) : Points real (punct symbol) := by
  unfold punct
  refine .get fun c within => ?_
  split
  · next read rest found => exact .set (within.move (readPunct?_suffix found)) fun _ => .pure read
  · exact points_refusePlainly _

@[grind ←] theorem points_optionalPunct (symbol : List Char) :
    Points real (optionalPunct symbol) :=
  .bind points_ahead fun _ => .ite (points_punct _) (.pure _)

@[grind ←] theorem points_word (text : String) : Points real (word text) :=
  .bind points_ahead fun _ => .ite (.bind points_token fun _ => .pure _) (points_refuse _)

@[grind ←] theorem points_optionalWord (text : String) : Points real (optionalWord text) :=
  .bind points_ahead fun _ => .ite (.bind points_token fun _ => .pure _) (.pure _)

@[grind ←] theorem points_anyWord : Points real anyWord := by
  unfold anyWord
  refine .bind points_ahead fun a => ?_
  split
  · exact .bind (points_discard points_token) fun _ => .pure _
  · exact points_refuse _

@[grind ←] theorem points_name : Points real name := by
  unfold name
  refine .bind points_ahead fun a => ?_
  split
  · exact .ite (points_refuse _) (.bind (points_discard points_token) fun _ => .pure _)
  · exact points_refuse _

@[grind ←] theorem points_lifetime : Points real lifetime :=
  .bind points_ahead fun _ =>
    .ite (.bind points_token fun _ => .bind points_token fun _ => .pure _) (points_refuse _)

@[grind ←] theorem points_anyGroup : Points real anyGroup := by
  unfold anyGroup
  refine .bind points_ahead fun a => ?_
  split
  · exact points_token
  · exact points_refuse _

@[grind ←] theorem points_itemsUntil (stop : Tokens → Bool) {item : Parser α}
    (one : Points real item) (fuel : Nat) : Points real (itemsUntil stop item fuel) := by
  induction fuel with
  | zero => exact points_exhausted
  | succ fuel ih =>
    unfold itemsUntil
    grind

@[grind ←] theorem points_listUntil (stop : Tokens → Bool) {item : Parser α}
    (one : Points real item) : Points real (listUntil stop item) :=
  .bind points_ahead fun _ => points_itemsUntil _ one _

@[grind ←] theorem points_list {item : Parser Tokens} (one : Points real item) :
    Points real (list item) :=
  .bind (points_listUntil _ one) fun _ => .pure _

@[grind ←] theorem points_repeated (more : Tokens → Bool) {item : Parser Tokens}
    (one : Points real item) (fuel : Nat) : Points real (repeated more item fuel) := by
  induction fuel with
  | zero => exact points_exhausted
  | succ fuel ih =>
    unfold repeated
    grind

@[grind ←] theorem points_manyWhile (more : Tokens → Bool) {item : Parser Tokens}
    (one : Points real item) : Points real (manyWhile more item) :=
  .bind points_ahead fun _ => points_repeated _ one _

@[grind ←] theorem points_untilEnd {item : Parser Tokens} (one : Points real item) :
    Points real (untilEnd item) := points_manyWhile _ one

@[grind ←] theorem points_since (start : Tokens) : Points real (since start) :=
  .bind points_ahead fun _ => .pure _

@[grind ←] theorem points_written {reader : Parser α} (one : Points real reader) :
    Points real (written reader) :=
  .bind points_ahead fun _ => .bind (points_discard one) fun _ => points_since _

end GoDecl.Grammar
