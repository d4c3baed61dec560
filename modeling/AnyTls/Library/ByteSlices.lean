import Mathlib.Data.List.Infix
import Mathlib.Tactic.SplitIfs

/-! Texts indexed by the bytes of their UTF-8 form, as `str` is: searches return byte offsets, and a
slice needs two offsets in order that both lie on the boundary of a character. -/
namespace ByteSlices

def byteLength : List Char → Nat
  | [] => 0
  | char :: rest => char.utf8Size + byteLength rest

/-- The text before and after a byte offset, where that is a boundary of it. -/
def splitAt (offset : Nat) : List Char → Option (List Char × List Char)
  | [] => if offset = 0 then some ([], []) else none
  | char :: rest =>
    if offset = 0 then some ([], char :: rest)
    else if char.utf8Size ≤ offset then
      (splitAt (offset - char.utf8Size) rest).map fun (front, back) => (char :: front, back)
    else none

/-- `text.get(start..stop)`. -/
def slice (text : List Char) (start stop : Nat) : Option (List Char) :=
  (splitAt stop text).bind fun (front, _) => (splitAt start front).map Prod.snd

/-- The offset of the first character that matches. -/
def find (p : Char → Bool) : List Char → Option Nat
  | [] => none
  | char :: rest => if p char then some 0 else (find p rest).map (char.utf8Size + ·)

/-- The offset of the last character that matches. -/
def rfind (p : Char → Bool) : List Char → Option Nat
  | [] => none
  | char :: rest =>
    match rfind p rest with
    | some offset => some (char.utf8Size + offset)
    | none => if p char then some 0 else none

@[simp] theorem byteLength_nil : byteLength [] = 0 := rfl

@[simp] theorem byteLength_cons (char : Char) (rest : List Char) :
    byteLength (char :: rest) = char.utf8Size + byteLength rest := rfl

@[simp] theorem byteLength_append (front back : List Char) :
    byteLength (front ++ back) = byteLength front + byteLength back := by
  induction front with
  | nil => simp
  | cons char front ih => simp only [List.cons_append, byteLength_cons, ih, Nat.add_assoc]

/-! ### Boundaries -/

theorem splitAt_append (front back : List Char) : splitAt (byteLength front) (front ++ back) = some (front, back) := by
  induction front with
  | nil => cases back <;> rfl
  | cons char front ih =>
    have wide := char.utf8Size_pos
    rw [List.cons_append, splitAt, byteLength_cons, if_neg (by omega), if_pos (by omega),
      Nat.add_sub_cancel_left, ih]
    rfl

theorem splitAt_some {offset text front back} (split : splitAt offset text = some (front, back)) :
    text = front ++ back ∧ byteLength front = offset := by
  induction text generalizing offset front with
  | nil =>
    rw [splitAt] at split
    split_ifs at split with start
    cases split
    exact ⟨rfl, start.symm⟩
  | cons char rest ih =>
    rw [splitAt] at split
    split_ifs at split with start fits
    · cases split
      exact ⟨rfl, start.symm⟩
    · obtain ⟨⟨later, after⟩, found, same⟩ := Option.map_eq_some_iff.mp split
      cases same
      obtain ⟨whole, length⟩ := ih found
      refine ⟨by rw [whole]; rfl, ?_⟩
      rw [byteLength_cons, length]
      omega

/-- `is_char_boundary`. -/
def IsBoundary (text : List Char) (offset : Nat) : Prop :=
  ∃ front back, text = front ++ back ∧ byteLength front = offset

theorem splitAt_isSome {text offset} :
    (splitAt offset text).isSome = true ↔ IsBoundary text offset := by
  constructor
  · intro found
    obtain ⟨⟨front, back⟩, split⟩ := Option.isSome_iff_exists.mp found
    exact ⟨front, back, splitAt_some split⟩
  · rintro ⟨front, back, rfl, rfl⟩
    rw [splitAt_append]
    rfl

theorem slice_append (front middle back : List Char) :
    slice (front ++ middle ++ back) (byteLength front) (byteLength (front ++ middle)) = some middle := by
  simp only [slice, splitAt_append, Option.bind_some, Option.map_some]

theorem isBoundary_front {front back offset} (start : offset ≤ byteLength front)
    (boundary : IsBoundary (front ++ back) offset) : IsBoundary front offset := by
  obtain ⟨first, rest, whole, rfl⟩ := boundary
  rcases List.append_eq_append_iff.mp whole with ⟨more, rfl, -⟩ | ⟨more, rfl, -⟩
  · -- the offset is not beyond the front, so nothing is between the two
    rw [byteLength_append] at start
    cases more with
    | nil => exact ⟨front, [], (List.append_nil _).symm, by simp⟩
    | cons char more =>
      have wide := char.utf8Size_pos
      rw [byteLength_cons] at start
      omega
  · exact ⟨first, more, rfl, rfl⟩

/-- A slice exists where its offsets are in order, in range and on boundaries. -/
theorem slice_isSome {text start stop} : (slice text start stop).isSome = true ↔
    start ≤ stop ∧ stop ≤ byteLength text ∧ IsBoundary text start ∧ IsBoundary text stop := by
  constructor
  · intro found
    obtain ⟨piece, taken⟩ := Option.isSome_iff_exists.mp found
    obtain ⟨⟨front, back⟩, split, taken⟩ := Option.bind_eq_some_iff.mp taken
    obtain ⟨⟨before, after⟩, inner, -⟩ := Option.map_eq_some_iff.mp taken
    obtain ⟨rfl, rfl⟩ := splitAt_some split
    obtain ⟨rfl, rfl⟩ := splitAt_some inner
    refine ⟨by simp, by simp, ⟨before, after ++ back, by simp, rfl⟩, ⟨_, back, rfl, rfl⟩⟩
  · rintro ⟨ordered, -, first, front, back, rfl, rfl⟩
    have inner := splitAt_isSome.mpr (isBoundary_front ordered first)
    rw [slice, splitAt_append, Option.bind_some, Option.isSome_map]
    exact inner

/-! ### Boundaries by the bytes -/

theorem length_encoded (text : List Char) : (text.flatMap String.utf8EncodeChar).length = byteLength text := by
  induction text with
  | nil => rfl
  | cons char rest ih => rw [List.flatMap_cons, List.length_append, String.length_utf8EncodeChar, ih, byteLength_cons]

/-- An offset is a boundary where a character starts, and at the end. -/
theorem splitAt_isSome_iff_byte {text offset} : (splitAt offset text).isSome = true ↔
    offset ≤ byteLength text ∧ ∀ byte ∈ (text.flatMap String.utf8EncodeChar)[offset]?, byte.IsUTF8FirstByte := by
  induction text generalizing offset with
  | nil =>
    rw [splitAt]
    split_ifs with start
    · simp [start]
    · simp [start]
  | cons char rest ih =>
    have width := String.length_utf8EncodeChar char
    rw [splitAt, List.flatMap_cons, byteLength_cons]
    split_ifs with start fits
    · subst start
      have wide := char.utf8Size_pos
      rw [List.getElem?_append_left (by omega), List.getElem?_eq_getElem (by omega)]
      simp [UInt8.isUTF8FirstByte_getElem_utf8EncodeChar]
    · rw [Option.isSome_map, ih, List.getElem?_append_right (by omega), width]
      exact and_congr_left' (by omega)
    · -- inside the character
      rw [List.getElem?_append_left (by omega), List.getElem?_eq_getElem (by omega)]
      simp [UInt8.isUTF8FirstByte_getElem_utf8EncodeChar, start]

theorem slice_zero (text : List Char) (stop : Nat) : slice text 0 stop = (splitAt stop text).map Prod.fst := by
  have whole (front : List Char) : splitAt 0 front = some ([], front) := by cases front <;> rfl
  rw [slice]
  cases splitAt stop text with
  | none => rfl
  | some parts => simp only [Option.bind_some, whole, Option.map_some]

theorem slice_isSome_iff_byte {text stop} (fits : stop ≤ byteLength text) :
    (slice text 0 stop).isSome = true ↔
      ∀ byte ∈ (text.flatMap String.utf8EncodeChar)[stop]?, byte.IsUTF8FirstByte := by
  rw [slice_zero, Option.isSome_map, splitAt_isSome_iff_byte]
  exact and_iff_right fits

/-- The bytes of a slice from the start. -/
theorem slice_encoded {text front stop} (taken : slice text 0 stop = some front) :
    front.flatMap String.utf8EncodeChar = (text.flatMap String.utf8EncodeChar).take stop := by
  rw [slice_zero] at taken
  obtain ⟨⟨first, rest⟩, split, rfl⟩ := Option.map_eq_some_iff.mp taken
  obtain ⟨rfl, rfl⟩ := splitAt_some split
  rw [List.flatMap_append, ← length_encoded, List.take_left]

/-! ### Searches -/

theorem find_append {p front} (goes : ∀ char ∈ front, p char = false) {char} (stops : p char = true)
    (back : List Char) : find p (front ++ char :: back) = some (byteLength front) := by
  induction front with
  | nil => rw [List.nil_append, find, if_pos stops]; rfl
  | cons first front ih =>
    have passed := goes first List.mem_cons_self
    rw [List.cons_append, find, passed, if_neg Bool.false_ne_true,
      ih fun char member => goes char (List.mem_cons_of_mem _ member)]
    rfl

theorem find_absent {p text} (absent : ∀ char ∈ text, p char = false) :
    find p text = none := by
  induction text with
  | nil => rfl
  | cons first rest ih =>
    rw [find, absent first List.mem_cons_self, if_neg Bool.false_ne_true,
      ih fun char member => absent char (List.mem_cons_of_mem _ member)]
    rfl

theorem rfind_absent {p text} (absent : ∀ char ∈ text, p char = false) :
    rfind p text = none := by
  induction text with
  | nil => rfl
  | cons first rest ih =>
    rw [rfind, ih fun char member => absent char (List.mem_cons_of_mem _ member)]
    simp only [absent first List.mem_cons_self, Bool.false_eq_true, if_false]

theorem rfind_append {p} (front : List Char) {char} (stops : p char = true) {back}
    (goes : ∀ char ∈ back, p char = false) : rfind p (front ++ char :: back) = some (byteLength front) := by
  induction front with
  | nil =>
    rw [List.nil_append, rfind, rfind_absent goes]
    simp only [stops, if_true, byteLength_nil]
  | cons first front ih =>
    rw [List.cons_append, rfind, ih]
    rfl

/-- A text up to its first match and from there on, or without one. -/
theorem first_match (p : Char → Bool) (text : List Char) :
    (∃ front char back, text = front ++ char :: back ∧ (∀ c ∈ front, p c = false) ∧ p char = true) ∨
    ∀ char ∈ text, p char = false := by
  induction text with
  | nil => exact .inr fun _ member => absurd member List.not_mem_nil
  | cons first rest ih =>
    cases matched : p first with
    | true => exact .inl ⟨[], first, rest, rfl, fun _ member => absurd member List.not_mem_nil, matched⟩
    | false =>
      rcases ih with ⟨front, char, back, rfl, goes, stops⟩ | absent
      · exact .inl ⟨first :: front, char, back, rfl, by simpa [matched] using goes, stops⟩
      · exact .inr (by simpa [matched] using absent)

/-- The same at its last match. -/
theorem last_match (p : Char → Bool) (text : List Char) :
    (∃ front char back, text = front ++ char :: back ∧ p char = true ∧ ∀ c ∈ back, p c = false) ∨
    ∀ char ∈ text, p char = false := by
  rcases first_match p text.reverse with ⟨front, char, back, whole, goes, stops⟩ | absent
  · refine .inl ⟨back.reverse, char, front.reverse, ?_, stops, by simpa using goes⟩
    rw [← List.reverse_reverse text, whole]
    simp
  · exact .inr (by simpa using absent)

end ByteSlices
