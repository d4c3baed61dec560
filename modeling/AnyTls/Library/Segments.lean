import Mathlib.Data.List.Basic

/-! Reading from a connection whose bytes arrive in segments. A read returns the front of what has
arrived, as much as its buffer has room for, and nothing at the end only; a loop of reads that fills
a buffer therefore does not depend on the segments. -/
namespace Segments
variable {α : Type*}

/-- One read into a buffer with so much room. -/
def read (room : Nat) : List (List α) → List α × List (List α)
  | [] => ([], [])
  | [] :: rest => read room rest
  | (first :: more) :: rest => ((first :: more).take room, (first :: more).drop room :: rest)

def fillFuel : Nat → Nat → List (List α) → List α × List (List α)
  | 0, _, segments => ([], segments)
  | fuel + 1, room, segments =>
    if room = 0 then ([], segments)
    else if (read room segments).1.isEmpty then ([], (read room segments).2)
    else
      let (later, rest) := fillFuel fuel (room - (read room segments).1.length) (read room segments).2
      ((read room segments).1 ++ later, rest)

/-- Reads until the buffer is full or a read returns nothing; each of them returns something, so
there are no more than the buffer has places. -/
def fill (room : Nat) (segments : List (List α)) : List α × List (List α) := fillFuel room room segments

theorem read_flatten (room : Nat) (segments : List (List α)) :
    (read room segments).1 ++ (read room segments).2.flatten = segments.flatten := by
  induction segments with
  | nil => rfl
  | cons segment rest ih =>
    cases segment with
    | nil => exact ih
    | cons first more =>
      rw [read, List.flatten_cons, ← List.append_assoc, List.take_append_drop, List.flatten_cons]

theorem read_length (room : Nat) (segments : List (List α)) : (read room segments).1.length ≤ room := by
  induction segments with
  | nil => exact Nat.zero_le _
  | cons segment rest ih =>
    cases segment with
    | nil => exact ih
    | cons first more => exact List.length_take_le ..

theorem read_empty {room} {segments : List (List α)} (some : room ≠ 0) (empty : (read room segments).1 = []) :
    segments.flatten = [] := by
  induction segments with
  | nil => rfl
  | cons segment rest ih =>
    cases segment with
    | nil => exact ih empty
    | cons first more =>
      obtain ⟨room, rfl⟩ := Nat.exists_eq_succ_of_ne_zero some
      cases empty

theorem read_end {segments : List (List α)} (none : segments.flatten = []) (room : Nat) : read room segments = ([], []) := by
  induction segments with
  | nil => rfl
  | cons segment rest ih =>
    cases segment with
    | nil => exact ih none
    | cons first more => cases none

/-- A read is served by the segments that have something to give. -/
theorem read_append {room front} (some : front.flatten ≠ []) (back : List (List α)) :
    read room (front ++ back) = ((read room front).1, (read room front).2 ++ back) := by
  induction front with
  | nil => exact absurd rfl some
  | cons segment rest ih =>
    cases segment with
    | nil => exact ih some
    | cons first more => rfl

/-- The segments that have something to give. -/
def filled (segments : List (List α)) : List (List α) := segments.filter (!·.isEmpty)

theorem flatten_filled (segments : List (List α)) : (filled segments).flatten = segments.flatten :=
  List.flatten_filter_not_isEmpty

/-- What reads leave of segments that have room in the buffer: each is taken whole. -/
def LeftOf (room : Nat) (rest segments : List (List α)) : Prop :=
  (∀ segment ∈ segments, segment.length ≤ room) →
    (∀ segment ∈ rest, segment.length ≤ room) ∧ filled rest <:+ filled segments

theorem LeftOf.refl (room : Nat) (segments : List (List α)) : LeftOf room segments segments :=
  fun fit => ⟨fit, List.suffix_refl _⟩

theorem LeftOf.trans {room : Nat} {first second third : List (List α)} (later : LeftOf room third second)
    (left : LeftOf room second first) : LeftOf room third first := fun fit =>
  ⟨(later (left fit).1).1, (later (left fit).1).2.trans (left fit).2⟩

theorem read_leftOf (room : Nat) (segments : List (List α)) : LeftOf room (read room segments).2 segments := by
  intro fit
  induction segments with
  | nil => exact LeftOf.refl room [] fit
  | cons segment rest ih =>
    obtain ⟨short, later⟩ := List.forall_mem_cons.mp fit
    cases segment with
    | nil => exact ih later
    | cons first more =>
      rw [read, List.drop_eq_nil_of_le short]
      exact ⟨List.forall_mem_cons.mpr ⟨Nat.zero_le _, later⟩, List.suffix_cons ..⟩

/-- Reads that have left less than a segment have taken all of it, and of those before. -/
theorem LeftOf.taken {room} {rest front : List (List α)} {segment : List α}
    (left : LeftOf room rest (front ++ [segment])) (fit : ∀ other ∈ front ++ [segment], other.length ≤ room)
    (less : rest.flatten.length < segment.length) : rest.flatten = [] := by
  have last : filled (front ++ [segment]) = filled front ++ [segment] := by
    cases segment with
    | nil => cases less
    | cons first more => exact List.filter_append ..
  obtain ⟨taken, same⟩ := (left fit).2
  rw [← flatten_filled] at less ⊢
  rcases List.eq_nil_or_concat (filled rest) with none | ⟨before, other, whole⟩
  · rw [none]
    rfl
  · rw [List.concat_eq_append] at whole
    rw [last, whole, ← List.append_assoc] at same
    cases (List.append_inj' same rfl).2
    rw [whole, List.flatten_append, List.length_append, List.flatten_singleton] at less
    omega

theorem fillFuel_spec {fuel room} (enough : room ≤ fuel) (segments : List (List α)) :
    (fillFuel fuel room segments).1 = segments.flatten.take room ∧
      (fillFuel fuel room segments).2.flatten = segments.flatten.drop room := by
  induction fuel generalizing room segments with
  | zero =>
    obtain rfl := Nat.le_zero.mp enough
    exact ⟨rfl, rfl⟩
  | succ fuel ih =>
    unfold fillFuel
    split_ifs with none empty
    · subst none
      exact ⟨rfl, rfl⟩
    · have got := List.isEmpty_iff.mp empty
      have parts := read_flatten room segments
      rw [got, List.nil_append] at parts
      have exhausted := read_empty none got
      simp only [parts, exhausted, List.take_nil, List.drop_nil, and_self]
    · have parts := read_flatten room segments
      have short := read_length room segments
      have some : 0 < (read room segments).1.length := by
        rw [List.isEmpty_iff] at empty
        exact List.length_pos_iff.mpr empty
      obtain ⟨first, second⟩ := ih (show room - (read room segments).1.length ≤ fuel by omega) (read room segments).2
      simp only [first, second]
      rw [← parts, List.take_append, List.drop_append, List.take_of_length_le short, List.drop_of_length_le short,
        List.nil_append]
      exact ⟨rfl, rfl⟩

theorem fill_take (room : Nat) (segments : List (List α)) : (fill room segments).1 = segments.flatten.take room :=
  (fillFuel_spec (Nat.le_refl room) segments).1

theorem fill_drop (room : Nat) (segments : List (List α)) : (fill room segments).2.flatten = segments.flatten.drop room :=
  (fillFuel_spec (Nat.le_refl room) segments).2

end Segments
