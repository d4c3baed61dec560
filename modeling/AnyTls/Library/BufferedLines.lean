import AnyTls.Library.Segments

/-! Lines read through a buffer. The buffer is filled by one read of the connection whenever it is
empty, and a line is gathered from it up to the delimiter, over several reads if need be. Which line
that is does not depend on the segments; what is left in the buffer does. -/
namespace BufferedLines
variable {α ε : Type*} [DecidableEq α] {delimiter : α}

/-- The first line, with its delimiter if it has one. -/
def line (delimiter : α) : List α → List α
  | [] => []
  | a :: rest => if a = delimiter then [a] else a :: line delimiter rest

def after (delimiter : α) : List α → List α
  | [] => []
  | a :: rest => if a = delimiter then rest else after delimiter rest

/-- A line with its delimiter. -/
def Ended (delimiter : α) (text : List α) : Prop := ∃ content, delimiter ∉ content ∧ text = content ++ [delimiter]

theorem line_append_after (delimiter : α) (text : List α) : line delimiter text ++ after delimiter text = text := by
  induction text with
  | nil => rfl
  | cons a rest ih =>
    rw [line, after]
    split_ifs
    · rfl
    · rw [List.cons_append, ih]

theorem line_missing {text} (missing : delimiter ∉ text) (rest : List α) :
    line delimiter (text ++ rest) = text ++ line delimiter rest ∧
      after delimiter (text ++ rest) = after delimiter rest := by
  induction text with
  | nil => exact ⟨rfl, rfl⟩
  | cons a text ih =>
    rw [List.mem_cons, not_or] at missing
    obtain ⟨first, later⟩ := ih missing.2
    rw [List.cons_append, line, after, if_neg (Ne.symm missing.1), if_neg (Ne.symm missing.1), first]
    exact ⟨rfl, later⟩

theorem Ended.line_eq {text} (ended : Ended delimiter text) (rest : List α) :
    line delimiter (text ++ rest) = text ∧ after delimiter (text ++ rest) = rest := by
  obtain ⟨content, missing, rfl⟩ := ended
  rw [List.append_assoc]
  obtain ⟨first, later⟩ := line_missing missing ([delimiter] ++ rest)
  rw [first, later, List.singleton_append, line, after, if_pos rfl, if_pos rfl]
  exact ⟨rfl, rfl⟩

/-- The first line of a text that has one. -/
theorem line_ended {text} (found : delimiter ∈ text) : Ended delimiter (line delimiter text) := by
  obtain ⟨front, rest, rfl, missing⟩ := List.eq_append_cons_of_mem found
  rw [(line_missing missing _).1, line, if_pos rfl]
  exact ⟨front, missing, rfl⟩

/-! ### The reader -/

/-- What has been read ahead, what the connection has still to give, and how the connection ends. -/
structure Reader (α ε : Type*) where
  ahead : List α
  segments : List (List α)
  failure : Option ε

namespace Reader
variable {capacity : Nat} {r : Reader α ε} {front back : List (List α)}

def pending (r : Reader α ε) : List α := r.ahead ++ r.segments.flatten

def fillBuf (capacity : Nat) (r : Reader α ε) : Except ε (Reader α ε) :=
  if r.ahead.isEmpty then
    match Segments.read capacity r.segments, r.failure with
    | ([], _), some error => .error error
    | (got, rest), _ => .ok { r with ahead := got, segments := rest }
  else .ok r

def readUntilFuel (capacity : Nat) (delimiter : α) : Nat → Reader α ε → Except ε (List α × Reader α ε)
  | 0, r => .ok ([], r)
  | fuel + 1, r => do
    let r ← r.fillBuf capacity
    if delimiter ∈ r.ahead then
      .ok (line delimiter r.ahead, { r with ahead := after delimiter r.ahead })
    else if r.ahead.isEmpty then .ok ([], r)
    else
      let (later, rest) ← readUntilFuel capacity delimiter fuel { r with ahead := [] }
      .ok (r.ahead ++ later, rest)

/-- Every round but the last takes something, so there are no more rounds than what is pending. -/
def readUntil (capacity : Nat) (delimiter : α) (r : Reader α ε) : Except ε (List α × Reader α ε) :=
  readUntilFuel capacity delimiter (r.pending.length + 1) r

omit [DecidableEq α] in
/-- The buffer is filled from the segments that have something to give. -/
theorem fillBuf_split (room : capacity ≠ 0) (split : r.segments = front ++ back)
    (some : r.ahead ++ front.flatten ≠ []) :
    ∃ got rest, r.fillBuf capacity = .ok { r with ahead := got, segments := rest ++ back } ∧ got ≠ [] ∧
      got ++ rest.flatten = r.ahead ++ front.flatten ∧ Segments.LeftOf capacity rest front := by
  by_cases empty : r.ahead = []
  · rw [empty, List.nil_append] at some
    have got : (Segments.read capacity front).1 ≠ [] := fun none => some (Segments.read_empty room none)
    refine ⟨_, _, ?_, got, (Segments.read_flatten capacity front).trans (by rw [empty, List.nil_append]),
      Segments.read_leftOf capacity front⟩
    rw [fillBuf, if_pos (by rw [empty]; rfl), split, Segments.read_append some]
    split
    · rename_i none _
      exact absurd (congrArg Prod.fst none) got
    · rename_i same _
      cases same
      rfl
  · refine ⟨r.ahead, front, ?_, empty, rfl, .refl capacity front⟩
    rw [fillBuf, if_neg (by simpa using empty), ← split]

omit [DecidableEq α] in
theorem fillBuf_end (none : r.pending = []) :
    r.fillBuf capacity = r.failure.elim (.ok { r with ahead := [], segments := [] }) .error := by
  obtain ⟨empty, ended⟩ := List.append_eq_nil_iff.mp none
  rw [fillBuf, if_pos (by rw [empty]; rfl), Segments.read_end ended]
  cases r.failure with
  | none => rfl
  | some error => rfl

theorem readUntilFuel_found (room : capacity ≠ 0) {fuel} (split : r.segments = front ++ back)
    (found : delimiter ∈ r.ahead ++ front.flatten) (enough : (r.ahead ++ front.flatten).length ≤ fuel) :
    ∃ ahead rest, readUntilFuel capacity delimiter fuel r =
        .ok (line delimiter (r.ahead ++ front.flatten), { r with ahead, segments := rest ++ back }) ∧
      ahead ++ rest.flatten = after delimiter (r.ahead ++ front.flatten) ∧ Segments.LeftOf capacity rest front := by
  induction fuel generalizing r front with
  | zero => exact absurd (List.length_eq_zero_iff.mp (Nat.le_zero.mp enough)) (List.ne_nil_of_mem found)
  | succ fuel ih =>
    obtain ⟨got, rest, filled, some, same, taken⟩ := fillBuf_split room split (List.ne_nil_of_mem found)
    rw [← same] at found enough ⊢
    simp only [readUntilFuel, filled, bind, Except.bind]
    by_cases here : delimiter ∈ got
    · obtain ⟨content, missing, ended⟩ := line_ended here
      have parts := line_append_after delimiter got
      have whole := Ended.line_eq ⟨content, missing, ended⟩ (after delimiter got ++ rest.flatten)
      rw [← List.append_assoc, parts] at whole
      rw [if_pos here, whole.1, whole.2]
      exact ⟨_, _, rfl, rfl, taken⟩
    · have later : delimiter ∈ rest.flatten := (List.mem_append.mp found).resolve_left here
      rw [List.length_append] at enough
      have shrinks := List.length_pos_iff.mpr some
      obtain ⟨ahead, rest', read, left, more⟩ := ih (r := { r with ahead := [], segments := rest ++ back }) rfl later
        (by simp only [List.nil_append]; omega)
      rw [List.nil_append] at read left
      rw [if_neg here, if_neg (by simpa using some), read, (line_missing here _).1, (line_missing here _).2]
      exact ⟨ahead, rest', rfl, left, more.trans taken⟩

theorem readUntilFuel_missing (room : capacity ≠ 0) {fuel} (missing : delimiter ∉ r.pending)
    (enough : r.pending.length < fuel) : readUntilFuel capacity delimiter fuel r =
      r.failure.elim (.ok (r.pending, { r with ahead := [], segments := [] })) .error := by
  induction fuel generalizing r with
  | zero => cases enough
  | succ fuel ih =>
    by_cases none : r.pending = []
    · simp only [readUntilFuel, fillBuf_end none, none]
      cases r.failure with
      | none => rfl
      | some error => rfl
    · have split : r.segments = r.segments ++ [] := (List.append_nil _).symm
      obtain ⟨got, rest, filled, some, same, -⟩ := fillBuf_split room split none
      rw [List.append_nil] at filled
      have whole : r.pending = got ++ rest.flatten := same.symm
      rw [whole] at missing enough ⊢
      rw [List.mem_append, not_or] at missing
      rw [List.length_append] at enough
      have shrinks := List.length_pos_iff.mpr some
      have read := ih (r := { r with ahead := [], segments := rest }) missing.2
        (by simp only [pending, List.nil_append]; omega)
      simp only [readUntilFuel, filled, bind, Except.bind]
      rw [if_neg missing.1, if_neg (by simpa using some), read]
      cases r.failure with
      | none => rfl
      | some error => rfl

/-- A line that lies in the front segments is read from them. -/
theorem readUntil_line (room : capacity ≠ 0) {text rest} (ended : Ended delimiter text)
    (split : r.segments = front ++ back) (starts : r.ahead ++ front.flatten = text ++ rest) :
    ∃ ahead later, r.readUntil capacity delimiter = .ok (text, { r with ahead, segments := later ++ back }) ∧
      ahead ++ later.flatten = rest ∧ Segments.LeftOf capacity later front := by
  obtain ⟨first, left⟩ := ended.line_eq rest
  have found : delimiter ∈ r.ahead ++ front.flatten := by
    obtain ⟨content, -, rfl⟩ := ended
    simp [starts]
  have enough : (r.ahead ++ front.flatten).length ≤ r.pending.length + 1 := by
    rw [pending, split, List.flatten_append]
    simp only [List.length_append]
    omega
  obtain ⟨ahead, later, read, same, taken⟩ := readUntilFuel_found room split found enough
  rw [starts, first] at read
  rw [starts, left] at same
  exact ⟨ahead, later, read, same, taken⟩

/-- The end of the connection ends a line, unless it is a failure. -/
theorem readUntil_cut (room : capacity ≠ 0) (missing : delimiter ∉ r.pending) : r.readUntil capacity delimiter =
    r.failure.elim (.ok (r.pending, { r with ahead := [], segments := [] })) .error :=
  readUntilFuel_missing room missing (Nat.lt_succ_self _)

end Reader

end BufferedLines
