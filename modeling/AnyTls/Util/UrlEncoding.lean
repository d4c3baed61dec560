import AnyTls.Util.UrlGrammar

/-! What the encoders do to a text. Their sets have neither `%` nor a digit, so that a text decodes to the
same with and without its encoding, and one that comes out of an encoder is left as it is by it. -/
namespace AnyTls

/-! ### ASCII texts -/

theorem utf8_eq (text) : utf8 text = text.flatMap String.utf8EncodeChar := by
  rw [utf8, asBytes, String.toList_ofList]

theorem fromUtf8Lossy_utf8 (text) : fromUtf8Lossy (utf8 text) = text := by
  rw [utf8, fromUtf8Lossy_asBytes, String.toList_ofList]

theorem utf8EncodeChar_ascii {char} (ascii : char.toNat < 0x80) :
    String.utf8EncodeChar char = [UInt8.ofNat char.toNat] := by
  have one : char.val.toNat ≤ 127 := Nat.le_of_lt_succ ascii
  simp only [String.utf8EncodeChar, if_pos one]
  rfl

theorem toNat_of_mem_utf8EncodeChar {char byte} (ascii : byte.toNat < 0x80)
    (member : byte ∈ String.utf8EncodeChar char) : char.toNat = byte.toNat := by
  have value {n : Nat} (small : n < 256) : (UInt8.ofNat n).toNat = n := by
    rw [UInt8.toNat_ofNat', Nat.mod_eq_of_lt small]
  unfold String.utf8EncodeChar at member
  simp only [show char.val.toNat = char.toNat from rfl] at member
  -- the bytes of a longer encoding all have their highest bit set
  split_ifs at member with one two three
  · cases List.mem_singleton.mp member
    exact (value (by omega)).symm
  all_goals
    simp only [List.mem_cons, List.not_mem_nil, or_false] at member
    rcases member with rfl | rfl | rfl | rfl <;> rw [value (by omega)] at ascii <;> omega

def asciiBytes (text : Text) : Bytes := text.map fun char => UInt8.ofNat char.toNat

theorem utf8_ascii {text} (ascii : ∀ char ∈ text, char.toNat < 0x80) : utf8 text = asciiBytes text := by
  rw [utf8_eq]
  induction text with
  | nil => rfl
  | cons char rest ih =>
    rw [List.flatMap_cons, utf8EncodeChar_ascii (ascii char List.mem_cons_self),
      ih fun other member => ascii other (List.mem_cons_of_mem _ member)]
    rfl

theorem ofNat_toNat_byte {char} (ascii : char.toNat < 0x80) :
    Char.ofNat (UInt8.ofNat char.toNat).toNat = char := by
  rw [UInt8.toNat_ofNat', Nat.mod_eq_of_lt (by omega), Char.ofNat_toNat]

theorem toNat_ofNat_byte {byte : UInt8} (ascii : byte.toNat < 0x80) : (Char.ofNat byte.toNat).toNat = byte.toNat := by
  have valid : byte.toNat.isValidChar := .inl (by omega)
  rw [Char.ofNat, dif_pos valid]
  rfl

theorem asciiText_asciiBytes {text} (ascii : ∀ char ∈ text, char.toNat < 0x80) :
    asciiText (asciiBytes text) = text := by
  rw [asciiText, asciiBytes, List.map_map]
  refine (List.map_congr_left fun char member => ?_).trans (List.map_id text)
  exact ofNat_toNat_byte (ascii char member)

theorem utf8_asciiText {bytes} (ascii : ∀ byte ∈ bytes, byte.toNat < 0x80) : utf8 (asciiText bytes) = bytes := by
  have chars : ∀ char ∈ asciiText bytes, char.toNat < 0x80 := by
    intro char member
    obtain ⟨byte, inside, rfl⟩ := List.mem_map.mp member
    rw [toNat_ofNat_byte (ascii byte inside)]
    exact ascii byte inside
  rw [utf8_ascii chars, asciiBytes, asciiText, List.map_map]
  refine (List.map_congr_left fun byte member => ?_).trans (List.map_id bytes)
  simp only [Function.comp_apply, toNat_ofNat_byte (ascii byte member), UInt8.ofNat_toNat, id_eq]

/-! ### The encoders -/

/-- The bytes that `utf8_percent_encode` escapes. -/
def escapes (set : UInt8 → Bool) (byte : UInt8) : Bool := 0x80 ≤ byte.toNat || set byte

theorem utf8PercentEncode_eq (set : UInt8 → Bool) (value) :
    utf8PercentEncode set value = asciiText (PercentEncoding.encode (escapes set) (utf8 value)) := rfl

theorem escapes_asciiSet (chars byte) : escapes (asciiSet chars) byte = false ↔
    0x20 ≤ byte.toNat ∧ byte.toNat < 0x7F ∧ byte.toNat ∉ chars.toList.map Char.toNat := by
  simp only [escapes, asciiSet, Bool.or_eq_false_iff, decide_eq_false_iff_not, List.contains_eq_mem]
  constructor
  · rintro ⟨ascii, ⟨visible, other⟩, absent⟩
    exact ⟨by omega, by omega, absent⟩
  · rintro ⟨visible, short, absent⟩
    exact ⟨by omega, ⟨by omega, by omega⟩, absent⟩

/-- A fact about every byte, from the 256 of them. -/
theorem forall_byte {p : UInt8 → Prop} (all : ∀ n < 256, p (UInt8.ofNat n)) (byte) : p byte := by
  have here := all byte.toNat byte.toNat_lt
  rwa [UInt8.ofNat_toNat] at here

theorem ascii_of_spared {set byte} (spared : escapes set byte = false) :
    byte.toNat < 0x80 := by
  simp only [escapes, Bool.or_eq_false_iff, decide_eq_false_iff_not, Nat.not_le] at spared
  exact spared.1

theorem encoded_ascii {set bytes byte} (member : byte ∈ PercentEncoding.encode (escapes set) bytes) :
    byte.toNat < 0x80 := by
  rcases PercentEncoding.mem_encode member with ⟨-, spared⟩ | rfl | digit
  · exact ascii_of_spared spared
  · decide
  · have range := PercentEncoding.hexValue_range digit
    omega

theorem utf8_utf8PercentEncode (set : UInt8 → Bool) (value) :
    utf8 (utf8PercentEncode set value) = PercentEncoding.encode (escapes set) (utf8 value) :=
  utf8_asciiText fun _ member => encoded_ascii member

/-- The encoder leaves the character as it is. -/
def Spared (set : UInt8 → Bool) (char : Char) : Prop :=
  char.toNat < 0x80 ∧ escapes set (UInt8.ofNat char.toNat) = false

theorem spared_of_graphic {chars set} (within : set.toList.all (' ' :: chars.toList).contains = true)
    {char} (graphic : graphicBut chars char = true) : Spared (asciiSet set) char := by
  obtain ⟨visible, short, absent⟩ := (graphicBut_iff chars char).mp graphic
  have value : (UInt8.ofNat char.toNat).toNat = char.toNat := by
    rw [UInt8.toNat_ofNat', Nat.mod_eq_of_lt (by omega)]
  refine ⟨by omega, ?_⟩
  rw [escapes_asciiSet, value]
  refine ⟨by omega, short, fun member => ?_⟩
  obtain ⟨other, inside, same⟩ := List.mem_map.mp member
  rcases List.mem_cons.mp (List.contains_iff_mem.mp (List.all_eq_true.mp within other inside)) with rfl | outside
  · exact absurd same (by simp; omega)
  · exact absent (List.mem_map.mpr ⟨other, outside, same⟩)

theorem graphic_of_spared {chars set} (space : ' ' ∈ set.toList)
    (within : chars.toList.all set.toList.contains = true) {char} (spared : Spared (asciiSet set) char) :
    graphicBut chars char = true := by
  obtain ⟨ascii, kept⟩ := spared
  have value : (UInt8.ofNat char.toNat).toNat = char.toNat := by
    rw [UInt8.toNat_ofNat', Nat.mod_eq_of_lt (by omega)]
  rw [escapes_asciiSet, value] at kept
  obtain ⟨visible, short, absent⟩ := kept
  refine (graphicBut_iff chars char).mpr ⟨?_, short, fun member => absent ?_⟩
  · have blank : char.toNat ≠ 32 := fun same => absent (List.mem_map.mpr ⟨' ', space, same.symm⟩)
    omega
  · obtain ⟨other, inside, same⟩ := List.mem_map.mp member
    exact List.mem_map.mpr ⟨other, List.contains_iff_mem.mp (List.all_eq_true.mp within other inside), same⟩

theorem utf8PercentEncode_eq_self {set value} (spared : ∀ char ∈ value, Spared set char) :
    utf8PercentEncode set value = value := by
  have ascii : ∀ char ∈ value, char.toNat < 0x80 := fun char member => (spared char member).1
  have kept : ∀ byte ∈ asciiBytes value, escapes set byte = false := by
    intro byte member
    obtain ⟨char, inside, rfl⟩ := List.mem_map.mp member
    exact (spared char inside).2
  rw [utf8PercentEncode_eq, utf8_ascii ascii, PercentEncoding.encode_eq_self kept, asciiText_asciiBytes ascii]

/-- A character that is no part of an escape is in the encoding exactly if it is in the text. -/
theorem mem_utf8PercentEncode {set} {char : Char} (spared : Spared set char)
    (outside : UInt8.ofNat char.toNat ≠ PercentEncoding.percent)
    (letter : PercentEncoding.hexValue (UInt8.ofNat char.toNat) = none) (value) :
    char ∈ utf8PercentEncode set value ↔ char ∈ value := by
  constructor
  · intro member
    obtain ⟨byte, inside, same⟩ := List.mem_map.mp member
    have small := encoded_ascii inside
    have code : byte.toNat = char.toNat := by rw [← same, toNat_ofNat_byte small]
    have here : UInt8.ofNat char.toNat = byte := by rw [← code, UInt8.ofNat_toNat]
    rw [here] at outside letter
    rcases PercentEncoding.mem_encode inside with ⟨inside, -⟩ | percent | digit
    · rw [utf8_eq] at inside
      obtain ⟨original, inValue, encoded⟩ := List.mem_flatMap.mp inside
      have own := toNat_of_mem_utf8EncodeChar small encoded
      rw [code] at own
      rwa [← Char.toNat_inj.mp own]
    · exact absurd percent outside
    · rw [letter] at digit
      cases digit
  · intro member
    have inside : UInt8.ofNat char.toNat ∈ utf8 value := by
      rw [utf8_eq]
      refine List.mem_flatMap.mpr ⟨char, member, ?_⟩
      rw [utf8EncodeChar_ascii spared.1]
      exact List.mem_singleton_self _
    have kept : UInt8.ofNat char.toNat ∈ PercentEncoding.encode (escapes set) (utf8 value) := by
      refine List.mem_flatMap.mpr ⟨_, inside, ?_⟩
      rw [spared.2]
      exact List.mem_singleton_self _
    exact List.mem_map.mpr ⟨_, kept, ofNat_toNat_byte spared.1⟩

/-! ### Sets without escapes -/

/-- A set that leaves escapes alone. -/
structure SparesEscapes (set : UInt8 → Bool) : Prop where
  percent : escapes set PercentEncoding.percent = false
  digits : PercentEncoding.SparesDigits (escapes set)

theorem spares_fragment : SparesEscapes FRAGMENT_ENCODE_SET := ⟨by decide, forall_byte (by decide +kernel)⟩

theorem spares_userinfo : SparesEscapes USERINFO_ENCODE_SET := ⟨by decide, forall_byte (by decide +kernel)⟩

namespace SparesEscapes
variable {set : UInt8 → Bool} (spares : SparesEscapes set)
include spares

/-- What the encoding is made of stays as it is. -/
theorem spared_of_mem {value char} (member : char ∈ utf8PercentEncode set value) : Spared set char := by
  obtain ⟨byte, inside, rfl⟩ := List.mem_map.mp member
  have small := encoded_ascii inside
  rw [Spared, toNat_ofNat_byte small, UInt8.ofNat_toNat]
  refine ⟨small, ?_⟩
  rcases PercentEncoding.mem_encode inside with ⟨-, spared⟩ | rfl | digit
  · exact spared
  · exact spares.percent
  · exact spares.digits byte digit

/-- The encoding decodes to what the text decodes to. -/
theorem decode_encode (value) :
    PercentEncoding.decode (utf8 (utf8PercentEncode set value)) = PercentEncoding.decode (utf8 value) := by
  rw [utf8_utf8PercentEncode, PercentEncoding.decode_encode spares.percent spares.digits]

end SparesEscapes

theorem percentEncodeFragment_chars (name) : ∀ char ∈ percentEncodeFragment name, fragmentChar char = true :=
  fun _ member => graphic_of_spared (by decide) (by decide) (spares_fragment.spared_of_mem member)

/-- The fragment decodes to what the name decodes to. -/
theorem percentDecodeStr_encodeFragment (name) :
    percentDecodeStr (percentEncodeFragment name) = percentDecodeStr name :=
  congrArg fromUtf8Lossy (spares_fragment.decode_encode name)

theorem percentEncodeUserinfo_chars (password) : ∀ char ∈ percentEncodeUserinfo password, printedChar char = true :=
  fun _ member => graphic_of_spared (by decide) (by decide) (spares_userinfo.spared_of_mem member)

/-- A password that has nothing to escape is printed as it is. -/
theorem percentEncodeUserinfo_plain {password} (plain : ∀ char ∈ password, printedChar char = true) :
    percentEncodeUserinfo password = password :=
  utf8PercentEncode_eq_self fun char member => spared_of_graphic (by decide) (plain char member)

end AnyTls
