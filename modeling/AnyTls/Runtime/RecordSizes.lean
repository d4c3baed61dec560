import AnyTls.Core.TextRoundTrip
import AnyTls.Runtime.Shaping

/-! The sizes a padding scheme gives to a packet, against the items its line lists: marks, and
ranges of numbers of any size. -/
namespace AnyTls

/-! ### The items of a line -/

def decimalValue (text : List Char) : Option Nat :=
  if text ≠ [] ∧ text.all Char.isDigit = true then some (Nat.ofDigitChars 10 text 0) else none

/-- The value of a decimal numeral of any length, with or without a plus sign. -/
def numeralValue : List Char → Option Nat
  | '+' :: rest => decimalValue rest
  | text => decimalValue text

inductive SizeItem where
  | mark
  | range (first second : Nat) (positive : 0 < first ∧ 0 < second)
deriving DecidableEq, Repr

/-- `c`, or two positive numbers with a hyphen between them. -/
inductive SizeItem.Reads : List Char → SizeItem → Prop where
  | mark : Reads ['c'] .mark
  | range {firstText secondText first second} : numeralValue firstText = some first →
      numeralValue secondText = some second → (positive : 0 < first ∧ 0 < second) →
      Reads (firstText ++ '-' :: secondText) (.range first second positive)

def sizeItem (part : List Char) : Option SizeItem :=
  if part = ['c'] then some .mark
  else do
    let (firstText, secondText) ← splitOnce '-' part
    let first ← numeralValue firstText
    let second ← numeralValue secondText
    if positive : 0 < first ∧ 0 < second then some (.range first second positive) else none

/-- The parts of the line that a scheme has for a packet. -/
def packetParts (rawScheme : Bytes) (pkt : UInt32) : List (List Char) :=
  match (StringMap.fromBytes rawScheme).lookup (toString pkt.toNat) with
  | some line => line.toList.splitOn ','
  | none => []

def packetItems (rawScheme : Bytes) (pkt : UInt32) : List SizeItem := (packetParts rawScheme pkt).filterMap sizeItem

namespace SizeItem

/-- A size that an item may be given. -/
def Gives : SizeItem → Int → Prop
  | .mark, size => size = CHECK_MARK
  | .range first second _, size =>
    (min (first : Int) second ≤ size ∧ size ≤ max (first : Int) second) ∧ (1 ≤ size ∧ size ≤ 65535) ∧ size ≠ CHECK_MARK

/-- The bounds of a range are sizes. -/
def Small : SizeItem → Prop
  | .mark => True
  | .range first second _ => first ≤ 65535 ∧ second ≤ 65535

instance : DecidablePred Small
  | .mark => inferInstanceAs (Decidable True)
  | .range first second _ => inferInstanceAs (Decidable (first ≤ 65535 ∧ second ≤ 65535))

end SizeItem

/-! ### Reading the items -/

theorem decimalValue_plain {text : List Char} {value : Nat} (read : decimalValue text = some value) : '-' ∉ text := by
  intro member
  rw [decimalValue] at read
  split_ifs at read with decimal
  exact absurd (List.all_eq_true.mp decimal.2 '-' member) (by decide)

theorem numeralValue_plain {text : List Char} {value : Nat} (read : numeralValue text = some value) : '-' ∉ text := by
  unfold numeralValue at read
  split at read
  · simp [decimalValue_plain read]
  · exact decimalValue_plain read

/-- The items are those the definition of a line allows. -/
theorem sizeItem_iff {part : List Char} {item : SizeItem} : sizeItem part = some item ↔ SizeItem.Reads part item := by
  constructor
  · intro read
    rw [sizeItem] at read
    split_ifs at read with mark
    · cases read
      rw [mark]
      exact .mark
    · obtain ⟨⟨firstText, secondText⟩, split, read⟩ := Option.bind_eq_some_iff.mp read
      obtain ⟨first, firstRead, read⟩ := Option.bind_eq_some_iff.mp read
      obtain ⟨second, secondRead, read⟩ := Option.bind_eq_some_iff.mp read
      split_ifs at read with positive
      cases read
      rw [splitOnce_some split]
      exact .range firstRead secondRead positive
  · intro reads
    cases reads with
    | mark => rfl
    | range firstRead secondRead positive =>
      have plain := numeralValue_plain firstRead
      rw [sizeItem, if_neg, splitOnce_append plain]
      · simp only [bind, Option.bind_some, firstRead, secondRead, dif_pos positive]
      · intro same
        have member := congrArg ('-' ∈ ·) same
        simp at member

/-! ### Drawing the sizes -/

theorem digits_decimalValue {limit : Nat} (positive : 0 < limit) {text : List Char} (filled : text ≠ []) :
    digits limit 0 text = (decimalValue text).filter (· < limit) := by
  rw [digits_eq positive, decimalValue]
  by_cases decimal : text.all Char.isDigit = true
  · by_cases fits : Nat.ofDigitChars 10 text 0 < limit
    · rw [if_pos ⟨decimal, fits⟩, if_pos ⟨filled, decimal⟩, Option.filter_some, if_pos (decide_eq_true fits)]
    · rw [if_neg (fun both => fits both.2), if_pos ⟨filled, decimal⟩, Option.filter_some, if_neg (by simpa using fits)]
  · rw [if_neg (fun both => decimal both.1), if_neg (fun both => decimal both.2)]
    rfl

theorem parseUnsigned_eq {limit : Nat} (positive : 0 < limit) (text) :
    parseUnsigned limit text = (numeralValue text.toList).filter (· < limit) := by
  unfold parseUnsigned
  split
  · rename_i empty
    rw [empty]
    rfl
  · rename_i sign
    rw [sign]
    rfl
  · rename_i rest bare signed
    rw [signed]
    exact digits_decimalValue positive bare
  · rename_i chars filled bare unsigned
    unfold numeralValue
    split
    · rename_i rest signed
      exact absurd signed (unsigned _)
    · exact digits_decimalValue positive filled

/-- Positive numbers are read as they are, up to the largest `i64`. -/
theorem parseInt64_cases (text) :
    (∃ value : Nat, numeralValue text = some value ∧
      parseInt64 text = if value < 2 ^ 63 then some (value : Int) else none) ∨
    (numeralValue text = none ∧ ∀ value, parseInt64 text = some value → value ≤ 0) := by
  unfold parseInt64
  split
  · rename_i rest
    have unread : numeralValue ('-' :: rest) = none :=
      Option.eq_none_iff_forall_ne_some.mpr fun value read => numeralValue_plain read List.mem_cons_self
    refine .inr ⟨unread, fun value read => ?_⟩
    split_ifs at read
    obtain ⟨magnitude, -, rfl⟩ := Option.map_eq_some_iff.mp read
    omega
  · rw [parseUnsigned_eq (by decide), String.toList_ofList]
    cases numeralValue text with
    | none => exact .inr ⟨rfl, nofun⟩
    | some value =>
      refine .inl ⟨value, rfl, ?_⟩
      rw [Option.filter_some]
      split_ifs with fits small small
      · rfl
      · exact absurd (of_decide_eq_true fits) small
      · exact absurd (decide_eq_true small) fits
      · rfl

namespace SizeItem

/-- The size drawn for an item: none past the largest `i64`, and what an `i32` keeps of the draw. -/
def drawn (random : Int → Int → Int) : SizeItem → Option Int
  | .mark => some CHECK_MARK
  | .range first second _ =>
    if first < 2 ^ 63 ∧ second < 2 ^ 63 then
      some (Int.bmod (if first = second then (first : Int) else random (min first second) (max first second)) (2 ^ 32))
    else none

end SizeItem

namespace PaddingFactory

/-- The size for two bounds that have been parsed. -/
def rangeSize (random : Int → Int → Int) (first second : Int) : Option Int :=
  if 0 < min first second ∧ 0 < max first second then
    some (Int.bmod (if min first second = max first second then min first second
      else random (min first second) (max first second)) (2 ^ 32))
  else none

theorem rangeSize_refused {random : Int → Int → Int} {first second : Int} (negative : first ≤ 0 ∨ second ≤ 0) :
    rangeSize random first second = none := by
  rw [rangeSize, if_neg (by omega)]

theorem rangeSize_positive {random : Int → Int → Int} {first second : Nat} (positive : 0 < first ∧ 0 < second) :
    rangeSize random first second =
      some (Int.bmod (if first = second then (first : Int) else random (min first second) (max first second)) (2 ^ 32)) := by
  rw [rangeSize, if_pos (by omega)]
  by_cases same : first = second
  · simp [same]
  · rw [if_neg same, if_neg (by omega)]

theorem rangeSize_numbers (random : Int → Int → Int) (first second : Nat) :
    ((if first < 2 ^ 63 then some (first : Int) else none).bind fun low =>
      (if second < 2 ^ 63 then some (second : Int) else none).bind (rangeSize random low)) =
      if positive : 0 < first ∧ 0 < second then (SizeItem.range first second positive).drawn random else none := by
  by_cases fits : first < 2 ^ 63 ∧ second < 2 ^ 63
  · rw [if_pos fits.1, if_pos fits.2, Option.bind_some, Option.bind_some]
    split_ifs with positive
    · rw [rangeSize_positive positive, SizeItem.drawn, if_pos fits]
    · exact rangeSize_refused (by omega)
  · have large (positive : 0 < first ∧ 0 < second) : (SizeItem.range first second positive).drawn random = none := by
      rw [SizeItem.drawn, if_neg fits]
    simp only [large, dite_eq_ite, ite_self]
    rcases not_and_or.mp fits with unparsed | unparsed
    · rw [if_neg unparsed, Option.bind_none]
    · simp only [if_neg unparsed, Option.bind_none, Option.bind_fun_none]

/-- What the bounds of a range come to, read as numbers of any size. -/
theorem rangeSize_numerals (random : Int → Int → Int) (firstText secondText : List Char) :
    ((parseInt64 firstText).bind fun first => (parseInt64 secondText).bind (rangeSize random first)) =
      (numeralValue firstText).bind fun first => (numeralValue secondText).bind fun second =>
        if positive : 0 < first ∧ 0 < second then (SizeItem.range first second positive).drawn random else none := by
  rcases parseInt64_cases firstText with ⟨first, read, parsed⟩ | ⟨read, negative⟩
  · rcases parseInt64_cases secondText with ⟨second, secondRead, secondParsed⟩ | ⟨secondRead, negative⟩
    · rw [read, secondRead, parsed, secondParsed, Option.bind_some, Option.bind_some]
      exact rangeSize_numbers random first second
    · have none (first : Int) : (parseInt64 secondText).bind (rangeSize random first) = none := by
        refine Option.bind_eq_none_iff.mpr fun second parsed => ?_
        exact rangeSize_refused (.inr (negative second parsed))
      rw [secondRead]
      simp only [none, Option.bind_none, Option.bind_fun_none]
  · rw [read, Option.bind_none]
    refine Option.bind_eq_none_iff.mpr fun first parsed => Option.bind_eq_none_iff.mpr fun second _ => ?_
    exact rangeSize_refused (.inl (negative first parsed))

theorem recordSize_eq (random : Int → Int → Int) (part) :
    recordSize random part = (sizeItem part).bind (SizeItem.drawn random) := by
  rw [recordSize, sizeItem]
  split_ifs with mark
  · rfl
  · cases splitOnce '-' part with
    | none => rfl
    | some texts =>
      refine (rangeSize_numerals random texts.1 texts.2).trans ?_
      simp only [bind, Option.bind_some, Option.bind_assoc]
      congr 1
      funext first
      congr 1
      funext second
      split_ifs
      · rfl
      · rfl

end PaddingFactory

/-! ### The sizes of a packet -/

/-- `random_range` stays within its bounds. -/
def WithinBounds (random : Int → Int → Int) : Prop :=
  ∀ low high, low < high → low ≤ random low high ∧ random low high ≤ high

theorem bmod_small {size : Int} (positive : 0 ≤ size) (small : size < 2 ^ 31) : Int.bmod size (2 ^ 32) = size := by
  rw [Int.bmod_def, Int.emod_eq_of_lt positive (by omega), if_pos (by omega)]

namespace SizeItem
variable {random : Int → Int → Int} {item : SizeItem}

theorem drawn_gives (within : WithinBounds random) (small : item.Small) :
    ∃ size, item.drawn random = some size ∧ item.Gives size := by
  cases item with
  | mark => exact ⟨CHECK_MARK, rfl, rfl⟩
  | range first second positive =>
    obtain ⟨firstSmall, secondSmall⟩ := small
    rw [drawn, if_pos ⟨by omega, by omega⟩]
    refine ⟨_, rfl, ?_⟩
    have between : min (first : Int) second ≤
          (if first = second then (first : Int) else random (min first second) (max first second)) ∧
        (if first = second then (first : Int) else random (min first second) (max first second)) ≤
          max (first : Int) second := by
      split_ifs with same
      · omega
      · exact within _ _ (by omega)
    rw [bmod_small (by omega) (by omega)]
    exact ⟨between, by omega, by unfold CHECK_MARK; omega⟩

theorem sizeEntry_of_gives {items : List SizeItem} {sizes : List Int} (given : List.Forall₂ Gives items sizes) :
    ∀ size ∈ sizes, SizeEntry size := by
  induction given with
  | nil => exact fun _ member => absurd member List.not_mem_nil
  | @cons item size _ _ gives _ ih =>
    refine List.forall_mem_cons.mpr ⟨?_, ih⟩
    cases item with
    | mark => exact .inl gives
    | range first second positive => exact .inr gives.2.1

/-- A draw that no size allows, where there is one. -/
def worstDraw (low high : Int) : Int := max low (min 65536 high)

theorem worstDraw_within : WithinBounds worstDraw := by
  intro low high order
  unfold worstDraw
  omega

theorem small_of_gives {size : Int} (drawn : item.drawn worstDraw = some size) (gives : item.Gives size) :
    item.Small := by
  cases item with
  | mark => trivial
  | range first second positive =>
    obtain ⟨between, range, -⟩ := gives
    by_cases same : first = second
    · exact ⟨by omega, by omega⟩
    · rw [SizeItem.drawn, if_neg same] at drawn
      split_ifs at drawn
      have value := Option.some.inj drawn
      by_contra large
      have high : 65536 ≤ max (first : Int) second := by
        unfold Small at large
        omega
      -- the size is below 65536, so the lower bound is, and the draw is 65536
      rw [worstDraw, min_eq_left high, max_eq_right (by omega), bmod_small (by decide) (by decide)] at value
      omega

end SizeItem

namespace PaddingFactory
variable {random : Nat → Int → Int → Int}

/-- The sizes of the parts of a line, from some position on. -/
def partSizes (random : Nat → Int → Int → Int) (parts : List (List Char)) (start : Nat) : List Int :=
  (parts.zipIdx start).filterMap fun (part, position) => recordSize (random position) part

theorem partSizes_cons (random : Nat → Int → Int → Int) (part) (parts : List (List Char)) (start) :
    partSizes random (part :: parts) start =
      (((sizeItem part).bind (SizeItem.drawn (random start))).toList) ++ partSizes random parts (start + 1) := by
  rw [partSizes, List.zipIdx_cons, List.filterMap_cons]
  simp only [recordSize_eq (random start)]
  cases (sizeItem part).bind (SizeItem.drawn (random start)) with
  | none => rfl
  | some size => rfl

theorem partSizes_given (within : ∀ position, WithinBounds (random position)) {parts : List (List Char)}
    (small : ∀ item ∈ parts.filterMap sizeItem, item.Small) (start) :
    List.Forall₂ SizeItem.Gives (parts.filterMap sizeItem) (partSizes random parts start) := by
  induction parts generalizing start with
  | nil => exact .nil
  | cons part parts ih =>
    rw [List.filterMap_cons] at small ⊢
    rw [partSizes_cons]
    cases read : sizeItem part with
    | none =>
      rw [read] at small
      exact ih small (start + 1)
    | some item =>
      rw [read] at small
      obtain ⟨size, drawn, gives⟩ := item.drawn_gives (within start) (small item List.mem_cons_self)
      rw [Option.bind_some, drawn]
      exact .cons gives (ih (fun item member => small item (List.mem_cons_of_mem _ member)) (start + 1))

theorem partSizes_length_le (random : Nat → Int → Int → Int) (parts : List (List Char)) (start) :
    (partSizes random parts start).length ≤ (parts.filterMap sizeItem).length := by
  induction parts generalizing start with
  | nil => exact Nat.le_refl 0
  | cons part parts ih =>
    have later := ih (start + 1)
    rw [partSizes_cons, List.filterMap_cons, List.length_append]
    cases sizeItem part with
    | none => simpa using later
    | some item =>
      rw [Option.bind_some, List.length_cons]
      cases item.drawn (random start) with
      | none => simp only [Option.toList_none, List.length_nil]; omega
      | some size => simp only [Option.toList_some, List.length_singleton]; omega

theorem small_of_partSizes {parts : List (List Char)} {start : Nat}
    (given : List.Forall₂ SizeItem.Gives (parts.filterMap sizeItem)
      (partSizes (fun _ => SizeItem.worstDraw) parts start)) :
    ∀ item ∈ parts.filterMap sizeItem, item.Small := by
  induction parts generalizing start with
  | nil => exact fun _ member => absurd member List.not_mem_nil
  | cons part parts ih =>
    rw [partSizes_cons, List.filterMap_cons] at given
    rw [List.filterMap_cons]
    cases read : sizeItem part with
    | none =>
      rw [read] at given
      exact ih given
    | some item =>
      rw [read, Option.bind_some] at given
      cases drawn : item.drawn SizeItem.worstDraw with
      | none =>
        -- the part is skipped, so there are fewer sizes than items
        rw [drawn] at given
        have short := partSizes_length_le (fun _ => SizeItem.worstDraw) parts (start + 1)
        have same := given.length_eq
        simp only [List.length_cons, Option.toList_none, List.nil_append] at same
        omega
      | some size =>
        rw [drawn] at given
        cases given with
        | cons gives later => exact List.forall_mem_cons.mpr ⟨SizeItem.small_of_gives drawn gives, ih later⟩

variable {md5 : Bytes → String} {raw : Bytes} {padding : PaddingFactory}

theorem generateRecordPayloadSizes_eq (made : PaddingFactory.new md5 raw = some padding)
    (random : Nat → Int → Int → Int) (pkt) :
    padding.generateRecordPayloadSizes random pkt = partSizes random (packetParts raw pkt) 0 := by
  obtain ⟨stop, rfl⟩ := new_eq made
  rw [generateRecordPayloadSizes, packetParts]
  cases (StringMap.fromBytes raw).lookup (toString pkt.toNat) with
  | none => rfl
  | some line => rfl

/-- Whatever is drawn, every item of the line for a packet gives one size, in order: `c` the check
mark, and a range a size within its bounds that a frame can have and that is not the check mark.
This is so exactly if the bounds of the ranges are such sizes themselves. -/
theorem record_sizes_valid (made : PaddingFactory.new md5 raw = some padding) (pkt : UInt32) :
    (∀ random : Nat → Int → Int → Int, (∀ position, WithinBounds (random position)) →
      List.Forall₂ SizeItem.Gives (packetItems raw pkt) (padding.generateRecordPayloadSizes random pkt)) ↔
    ∀ item ∈ packetItems raw pkt, item.Small := by
  constructor
  · intro valid
    have given := valid (fun _ => SizeItem.worstDraw) fun _ => SizeItem.worstDraw_within
    rw [generateRecordPayloadSizes_eq made] at given
    exact small_of_partSizes given
  · intro small random within
    rw [generateRecordPayloadSizes_eq made]
    exact partSizes_given within small 0

theorem record_sizes_both_orders :
    ∃ padding, PaddingFactory.new (fun _ => "") (asBytes "stop=8\n1=5-9,c,x,9-5") = some padding ∧
      packetItems (asBytes "stop=8\n1=5-9,c,x,9-5") 1 =
        [.range 5 9 (by decide), .mark, .range 9 5 (by decide)] ∧
      List.Forall₂ SizeItem.Gives (packetItems (asBytes "stop=8\n1=5-9,c,x,9-5") 1)
        (padding.generateRecordPayloadSizes (fun position low high => if position = 0 then low else high) 1) := by
  have accepted : (PaddingFactory.new (fun _ => "") (asBytes "stop=8\n1=5-9,c,x,9-5")).isSome = true := by
    decide +kernel
  obtain ⟨padding, made⟩ := Option.isSome_iff_exists.mp accepted
  refine ⟨padding, made, by decide +kernel, (record_sizes_valid made 1).mpr ?_ _ fun position low high order => ?_⟩
  · decide +kernel
  · split_ifs
    · exact ⟨Int.le_refl _, Int.le_of_lt order⟩
    · exact ⟨Int.le_of_lt order, Int.le_refl _⟩

/-- The sizes of such a scheme are those that `write_conn` expects. -/
theorem generated_sizeEntry (made : PaddingFactory.new md5 raw = some padding) (pkt)
    (within : ∀ position, WithinBounds (random position)) (small : ∀ item ∈ packetItems raw pkt, item.Small) :
    ∀ size ∈ padding.generateRecordPayloadSizes random pkt, SizeEntry size := by
  rw [generateRecordPayloadSizes_eq made]
  exact SizeItem.sizeEntry_of_gives (partSizes_given within small 0)

def largeRanges : Bytes := asBytes "stop=8\n0=4294967295-4294967295\n1=65536-65536\n2=1-9223372036854775808"

/-- A range past the largest `i32` gives the check mark, one past the length field a size that no
frame can have, and one past the largest `i64` nothing. -/
theorem large_ranges_misread :
    ∃ padding, PaddingFactory.new (fun _ => "") largeRanges = some padding ∧
      packetItems largeRanges 0 = [.range 4294967295 4294967295 (by decide)] ∧
      packetItems largeRanges 1 = [.range 65536 65536 (by decide)] ∧
      packetItems largeRanges 2 = [.range 1 9223372036854775808 (by decide)] ∧
      ∀ random, padding.generateRecordPayloadSizes random 0 = [CHECK_MARK] ∧
        padding.generateRecordPayloadSizes random 1 = [65536] ∧
        padding.generateRecordPayloadSizes random 2 = [] ∧
        ∀ pkt ∈ [0, 1, 2], ¬List.Forall₂ SizeItem.Gives (packetItems largeRanges pkt)
          (padding.generateRecordPayloadSizes random pkt) := by
  have accepted : (PaddingFactory.new (fun _ => "") largeRanges).isSome = true := by decide +kernel
  obtain ⟨padding, made⟩ := Option.isSome_iff_exists.mp accepted
  have firstParts : packetParts largeRanges 0 = ["4294967295-4294967295".toList] := by decide +kernel
  have secondParts : packetParts largeRanges 1 = ["65536-65536".toList] := by decide +kernel
  have thirdParts : packetParts largeRanges 2 = ["1-9223372036854775808".toList] := by decide +kernel
  have first : sizeItem "4294967295-4294967295".toList = some (.range 4294967295 4294967295 (by decide)) := by
    decide +kernel
  have second : sizeItem "65536-65536".toList = some (.range 65536 65536 (by decide)) := by decide +kernel
  have third : sizeItem "1-9223372036854775808".toList = some (.range 1 9223372036854775808 (by decide)) := by
    decide +kernel
  have sizes (random : Nat → Int → Int → Int) : padding.generateRecordPayloadSizes random 0 = [CHECK_MARK] ∧
      padding.generateRecordPayloadSizes random 1 = [65536] ∧ padding.generateRecordPayloadSizes random 2 = [] := by
    refine ⟨?_, ?_, ?_⟩
    · rw [generateRecordPayloadSizes_eq made, firstParts, partSizes_cons, first]
      rfl
    · rw [generateRecordPayloadSizes_eq made, secondParts, partSizes_cons, second]
      rfl
    · rw [generateRecordPayloadSizes_eq made, thirdParts, partSizes_cons, third]
      rfl
  have items : packetItems largeRanges 0 = [.range 4294967295 4294967295 (by decide)] ∧
      packetItems largeRanges 1 = [.range 65536 65536 (by decide)] ∧
      packetItems largeRanges 2 = [.range 1 9223372036854775808 (by decide)] := by
    simp only [packetItems, firstParts, secondParts, thirdParts, List.filterMap_cons, first, second, third,
      List.filterMap_nil, and_self]
  refine ⟨padding, made, items.1, items.2.1, items.2.2, fun random => ?_⟩
  obtain ⟨marked, oversized, skipped⟩ := sizes random
  refine ⟨marked, oversized, skipped, ?_⟩
  intro pkt listed given
  simp only [List.mem_cons, List.not_mem_nil, or_false] at listed
  rcases listed with rfl | rfl | rfl
  · rw [items.1, marked] at given
    cases given with
    | cons gives => exact gives.2.2 rfl
  · rw [items.2.1, oversized] at given
    cases given with
    | cons gives => exact absurd gives.2.1.2 (by decide)
  · rw [items.2.2, skipped] at given
    cases given

end PaddingFactory

end AnyTls
