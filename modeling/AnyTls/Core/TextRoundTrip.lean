import AnyTls.Core.StringMap

/-! Settings read back from their bytes: UTF-8 text decodes to itself, joined lines are
split again, and a map written in any order of its entries is found again entry by entry. -/
namespace AnyTls

/-! ### Characters -/

section
variable {first second third fourth : UInt8} {rest : Bytes}

theorem nextCharLossy_one (ascii : first.toNat < 0x80) :
    nextCharLossy (first :: rest) = some (Char.ofNat first.toNat, rest) := by
  have small : first < 0x80 := UInt8.lt_iff_toNat_lt.mpr ascii
  simp only [nextCharLossy, small, if_true]

theorem isContinuation_of (low : 0x80 ≤ second.toNat) (high : second.toNat ≤ 0xBF) :
    isContinuation second = true := by
  simp [isContinuation, UInt8.le_iff_toNat_le, low, high]

theorem nextCharLossy_two (lead : 0xC2 ≤ first.toNat ∧ first.toNat ≤ 0xDF)
    (tail : isContinuation second = true) : nextCharLossy (first :: second :: rest) =
      some (codePoint (first.toNat % 32) [second], rest) := by
  have large : ¬ first < 0x80 := by
    rw [UInt8.lt_iff_toNat_lt]
    exact Nat.not_lt.mpr (Nat.le_trans (by decide) lead.1)
  have range : (0xC2 ≤ first && first ≤ 0xDF) = true := by
    simp [UInt8.le_iff_toNat_le, lead.1, lead.2]
  simp only [nextCharLossy, large, range, tail, if_true, if_false]

theorem nextCharLossy_three (lead : 0xE0 ≤ first.toNat ∧ first.toNat ≤ 0xEF)
    (range : secondInRange first second = true) (tail : isContinuation third = true) :
    nextCharLossy (first :: second :: third :: rest) =
      some (codePoint (first.toNat % 16) [second, third], rest) := by
  have large : ¬ first < 0x80 := by
    rw [UInt8.lt_iff_toNat_lt]
    exact Nat.not_lt.mpr (Nat.le_trans (by decide) lead.1)
  have notTwo : (0xC2 ≤ first && first ≤ 0xDF) = false := by
    simp only [UInt8.le_iff_toNat_le, Bool.and_eq_false_iff, decide_eq_false_iff_not]
    exact .inr (Nat.not_le.mpr (Nat.lt_of_lt_of_le (by decide) lead.1))
  have three : (0xE0 ≤ first && first ≤ 0xEF) = true := by
    simp [UInt8.le_iff_toNat_le, lead.1, lead.2]
  simp only [nextCharLossy, large, notTwo, three, range, tail, if_true, if_false, Bool.false_eq_true]

theorem nextCharLossy_four (lead : 0xF0 ≤ first.toNat ∧ first.toNat ≤ 0xF4)
    (range : secondInRange first second = true) (mid : isContinuation third = true)
    (tail : isContinuation fourth = true) : nextCharLossy (first :: second :: third :: fourth :: rest) =
      some (codePoint (first.toNat % 8) [second, third, fourth], rest) := by
  have large : ¬ first < 0x80 := by
    rw [UInt8.lt_iff_toNat_lt]
    exact Nat.not_lt.mpr (Nat.le_trans (by decide) lead.1)
  have notTwo : (0xC2 ≤ first && first ≤ 0xDF) = false := by
    simp only [UInt8.le_iff_toNat_le, Bool.and_eq_false_iff, decide_eq_false_iff_not]
    exact .inr (Nat.not_le.mpr (Nat.lt_of_lt_of_le (by decide) lead.1))
  have notThree : (0xE0 ≤ first && first ≤ 0xEF) = false := by
    simp only [UInt8.le_iff_toNat_le, Bool.and_eq_false_iff, decide_eq_false_iff_not]
    exact .inr (Nat.not_le.mpr (Nat.lt_of_lt_of_le (by decide) lead.1))
  have four : (0xF0 ≤ first && first ≤ 0xF4) = true := by
    simp [UInt8.le_iff_toNat_le, lead.1, lead.2]
  simp only [nextCharLossy, large, notTwo, notThree, four, range, mid, tail, if_true, if_false,
    Bool.false_eq_true]

/-- The limits of the second byte leave out overlong forms, surrogates and what is past
the last code point. -/
theorem secondInRange_of (low : 0x80 ≤ second.toNat) (high : second.toNat ≤ 0xBF)
    (overlong : first.toNat = 0xE0 → 0xA0 ≤ second.toNat) (surrogate : first.toNat = 0xED → second.toNat ≤ 0x9F)
    (short : first.toNat = 0xF0 → 0x90 ≤ second.toNat) (last : first.toNat = 0xF4 → second.toNat ≤ 0x8F) :
    secondInRange first second = true := by
  unfold secondInRange
  split_ifs with e0 ed f0 f4
  · simp [UInt8.le_iff_toNat_le, overlong (by rw [e0]; rfl), high]
  · simp [UInt8.le_iff_toNat_le, surrogate (by rw [ed]; rfl), low]
  · simp [UInt8.le_iff_toNat_le, short (by rw [f0]; rfl), high]
  · simp [UInt8.le_iff_toNat_le, last (by rw [f4]; rfl), low]
  · exact isContinuation_of low high

end

theorem nextCharLossy_encoded (char : Char) (rest) :
    nextCharLossy (String.utf8EncodeChar char ++ rest) = some (char, rest) := by
  have valid : char.toNat < 0xD800 ∨ 0xDFFF < char.toNat ∧ char.toNat < 0x110000 := char.valid
  have back : Char.ofNat char.toNat = char := Char.ofNat_toNat char
  have value {n : Nat} (small : n < 256) : (UInt8.ofNat n).toNat = n := by
    rw [UInt8.toNat_ofNat', Nat.mod_eq_of_lt small]
  unfold String.utf8EncodeChar
  simp only [show char.val.toNat = char.toNat from rfl]
  generalize char.toNat = v at valid back
  split_ifs with one two three
  · rw [List.singleton_append, nextCharLossy_one (by rw [value (by omega)]; omega), value (by omega), back]
  · have lead := value (show v / 64 % 32 + 192 < 256 by omega)
    have tail := value (show v % 64 + 128 < 256 by omega)
    rw [List.cons_append, List.singleton_append, nextCharLossy_two (by rw [lead]; omega)
      (isContinuation_of (by rw [tail]; omega) (by rw [tail]; omega))]
    simp only [codePoint, List.foldl_cons, List.foldl_nil, lead, tail]
    rw [show (v / 64 % 32 + 192) % 32 * 64 + (v % 64 + 128) % 64 = v by omega, back]
  · have lead := value (show v / 4096 % 16 + 224 < 256 by omega)
    have mid := value (show v / 64 % 64 + 128 < 256 by omega)
    have tail := value (show v % 64 + 128 < 256 by omega)
    rw [List.cons_append, List.cons_append, List.singleton_append, nextCharLossy_three (by rw [lead]; omega)
      (secondInRange_of (by rw [mid]; omega) (by rw [mid]; omega) (by rw [lead, mid]; omega) (by rw [lead, mid]; omega)
        (by rw [lead, mid]; omega) (by rw [lead, mid]; omega))
      (isContinuation_of (by rw [tail]; omega) (by rw [tail]; omega))]
    simp only [codePoint, List.foldl_cons, List.foldl_nil, lead, mid, tail]
    rw [show ((v / 4096 % 16 + 224) % 16 * 64 + (v / 64 % 64 + 128) % 64) * 64 + (v % 64 + 128) % 64 = v by omega,
      back]
  · have lead := value (show v / 262144 % 8 + 240 < 256 by omega)
    have second := value (show v / 4096 % 64 + 128 < 256 by omega)
    have third := value (show v / 64 % 64 + 128 < 256 by omega)
    have tail := value (show v % 64 + 128 < 256 by omega)
    rw [List.cons_append, List.cons_append, List.cons_append, List.singleton_append,
      nextCharLossy_four (by rw [lead]; omega)
      (secondInRange_of (by rw [second]; omega) (by rw [second]; omega) (by rw [lead, second]; omega)
        (by rw [lead, second]; omega) (by rw [lead, second]; omega) (by rw [lead, second]; omega))
      (isContinuation_of (by rw [third]; omega) (by rw [third]; omega))
      (isContinuation_of (by rw [tail]; omega) (by rw [tail]; omega))]
    simp only [codePoint, List.foldl_cons, List.foldl_nil, lead, second, third, tail]
    rw [show (((v / 262144 % 8 + 240) % 8 * 64 + (v / 4096 % 64 + 128) % 64) * 64 + (v / 64 % 64 + 128) % 64) * 64 +
      (v % 64 + 128) % 64 = v by omega, back]

theorem decodeLossy_encoded {fuel chars} (enough : chars.length ≤ fuel) :
    decodeLossy fuel (chars.flatMap String.utf8EncodeChar) = chars := by
  induction chars generalizing fuel with
  | nil => cases fuel <;> rfl
  | cons char chars ih =>
    obtain ⟨fuel, rfl⟩ : ∃ n, fuel = n + 1 := ⟨fuel - 1, by simp only [List.length_cons] at enough; omega⟩
    rw [List.flatMap_cons, decodeLossy, nextCharLossy_encoded]
    simp only [ih (Nat.le_of_succ_le_succ enough)]

/-- Valid UTF-8 is read without loss. -/
theorem fromUtf8Lossy_asBytes (text) : fromUtf8Lossy (asBytes text) = text.toList := by
  refine decodeLossy_encoded ?_
  unfold asBytes
  generalize text.toList = chars
  induction chars with
  | nil => exact Nat.le_refl 0
  | cons char chars ih =>
    have filled := List.length_pos_of_ne_nil (String.utf8EncodeChar_ne_nil : String.utf8EncodeChar char ≠ [])
    rw [List.flatMap_cons, List.length_append, List.length_cons]
    omega

/-- Only the encoding of a text is read as one. -/
theorem fromUtf8_eq_some {bytes text} :
    fromUtf8 bytes = some text ↔ bytes = text.flatMap String.utf8EncodeChar := by
  rw [fromUtf8]
  constructor
  · intro read
    split_ifs at read with same
    cases read
    exact same.symm
  · rintro rfl
    have lossless := fromUtf8Lossy_asBytes (String.ofList text)
    rw [asBytes, String.toList_ofList] at lossless
    rw [lossless, if_pos rfl]

theorem fromUtf8_asBytes (text) : fromUtf8 (asBytes text) = some text.toList := fromUtf8_eq_some.mpr rfl

/-! ### Lines -/

theorem linesFrom_plain {line chars} (plain : '\n' ∉ chars) (filled : line ++ chars ≠ []) :
    linesFrom line chars = [line ++ chars] := by
  induction chars generalizing line with
  | nil =>
    rw [List.append_nil] at filled ⊢
    simp [linesFrom, filled]
  | cons char chars ih =>
    have other : char ≠ '\n' := fun same => plain (by simp [same])
    rw [linesFrom.eq_3 _ _ _ other, ih (fun member => plain (by simp [member])) (by simp)]
    simp

theorem linesFrom_newline {line chars} (plain : '\n' ∉ chars) (rest) :
    linesFrom line (chars ++ '\n' :: rest) = stripCarriageReturn (line ++ chars) :: linesFrom [] rest := by
  induction chars generalizing line with
  | nil => simp [linesFrom]
  | cons char chars ih =>
    have other : char ≠ '\n' := fun same => plain (by simp [same])
    rw [List.cons_append, linesFrom.eq_3 _ _ _ other, ih (fun member => plain (by simp [member]))]
    simp

/-- A line that `lines` gives back as it is. -/
structure PlainLine (line : List Char) : Prop where
  filled : line ≠ []
  plain : '\n' ∉ line
  unreturned : line.getLast? ≠ some '\r'

theorem lines_intercalate {texts} (plain : ∀ line ∈ texts, PlainLine line) :
    lines (['\n'].intercalate texts) = texts := by
  induction texts with
  | nil => rfl
  | cons line texts ih =>
    have first := plain line List.mem_cons_self
    cases texts with
    | nil =>
      rw [List.intercalate_singleton, lines, linesFrom_plain first.plain (by simpa using first.filled)]
      rfl
    | cons next texts =>
      have later := ih fun other member => plain other (List.mem_cons_of_mem _ member)
      rw [List.intercalate_cons_cons, lines, List.append_assoc, List.singleton_append, linesFrom_newline first.plain,
        ← lines, later, List.nil_append, stripCarriageReturn, if_neg first.unreturned]

theorem splitOnce_append {separator before} (absent : separator ∉ before) (after) :
    splitOnce separator (before ++ separator :: after) = some (before, after) := by
  induction before with
  | nil => simp [splitOnce]
  | cons char before ih =>
    have other : char ≠ separator := fun same => absent (by simp [same])
    rw [List.cons_append, splitOnce, if_neg other, ih fun member => absent (by simp [member])]
    rfl

theorem splitOnce_some {separator text before after}
    (split : splitOnce separator text = some (before, after)) : text = before ++ separator :: after := by
  induction text generalizing before with
  | nil => cases split
  | cons char text ih =>
    rw [splitOnce] at split
    split_ifs at split with same
    · cases split
      rw [same]
      rfl
    · obtain ⟨⟨front, back⟩, found, parts⟩ := Option.map_eq_some_iff.mp split
      cases parts
      rw [ih found]
      rfl

theorem splitOnce_none {separator text} (absent : separator ∉ text) :
    splitOnce separator text = none := by
  induction text with
  | nil => rfl
  | cons char text ih =>
    have other : char ≠ separator := fun same => absent (by simp [same])
    rw [splitOnce, if_neg other, ih fun member => absent (by simp [member])]
    rfl

/-! ### Maps -/

namespace StringMap

/-- An entry that is read back from its line. -/
structure PlainEntry (entry : Sigma fun _ : String => String) : Prop where
  key : '=' ∉ entry.1.toList ∧ '\n' ∉ entry.1.toList
  value : '\n' ∉ entry.2.toList ∧ entry.2.toList.getLast? ≠ some '\r'

theorem plainLine_entry {entry} (plain : PlainEntry entry) :
    PlainLine (entry.1 ++ "=" ++ entry.2).toList := by
  have text : (entry.1 ++ "=" ++ entry.2).toList = entry.1.toList ++ '=' :: entry.2.toList := by
    simp [String.toList_append]
  rw [text]
  refine ⟨by simp, ?_, ?_⟩
  · simp [plain.key.2, plain.value.1]
  · cases value : entry.2.toList with
    | nil => simp
    | cons char chars =>
      have last := plain.value.2
      rw [value] at last
      simpa [List.getLast?_append, List.getLast?_cons_cons] using last

theorem fromBytes_toBytes {entries} (plain : ∀ entry ∈ entries, PlainEntry entry) : fromBytes (toBytes entries) =
      entries.foldl (fun map entry => map.insert entry.1 entry.2) ∅ := by
  have split : lines (fromUtf8Lossy (toBytes entries)) =
      entries.map fun entry => entry.1.toList ++ '=' :: entry.2.toList := by
    rw [toBytes, fromUtf8Lossy_asBytes, String.toList_intercalate]
    have texts : (entries.map fun entry => entry.1 ++ "=" ++ entry.2).map String.toList =
        entries.map fun entry => entry.1.toList ++ '=' :: entry.2.toList := by
      simp [String.toList_append]
    rw [texts]
    refine lines_intercalate fun line member => ?_
    obtain ⟨entry, listed, rfl⟩ := List.mem_map.mp member
    simpa [String.toList_append] using plainLine_entry (plain entry listed)
  rw [fromBytes, split, List.foldl_map]
  refine List.foldl_ext _ _ _ fun map entry listed => ?_
  rw [splitOnce_append (plain entry listed).key.1]
  simp

/-- Entries with keys of their own are all kept. -/
theorem foldl_insert_perm {entries : List (Sigma fun _ : String => String)} {map : StringMap}
    (distinct : entries.NodupKeys) (apart : ∀ key ∈ entries.keys, key ∉ map) :
    (entries.foldl (fun map entry => map.insert entry.1 entry.2) map).entries.Perm (entries ++ map.entries) := by
  induction entries generalizing map with
  | nil => exact List.Perm.refl _
  | cons entry entries ih =>
    obtain ⟨absent, distinct⟩ := List.nodupKeys_cons.mp distinct
    have fresh : entry.1 ∉ map := apart entry.1 (by simp)
    have later : ∀ key ∈ entries.keys, key ∉ map.insert entry.1 entry.2 := by
      intro key member inside
      rcases (AList.mem_insert map).mp inside with rfl | old
      · exact absent member
      · exact apart key (List.mem_cons_of_mem _ member) old
    have rest := ih distinct later
    rw [AList.entries_insert_of_notMem fresh] at rest
    exact rest.trans List.perm_middle

/-- Whatever the order in which a map is written, its entries are read back. -/
theorem fromBytes_perm {map : StringMap} {entries : List (Sigma fun _ : String => String)}
    (order : entries.Perm map.entries) (plain : ∀ entry ∈ map.entries, PlainEntry entry) :
    (fromBytes (toBytes entries)).entries.Perm map.entries := by
  rw [fromBytes_toBytes fun entry member => plain entry (order.mem_iff.mp member)]
  have kept : (entries.foldl (fun map entry => map.insert entry.1 entry.2) (∅ : StringMap)).entries.Perm (entries ++ []) :=
    foldl_insert_perm ((List.perm_nodupKeys order).mpr map.nodupKeys) fun key _ => AList.notMem_empty key
  rw [List.append_nil] at kept
  exact kept.trans order

theorem lookup_fromBytes {map : StringMap} {entries : List (Sigma fun _ : String => String)}
    (order : entries.Perm map.entries) (plain : ∀ entry ∈ map.entries, PlainEntry entry) (key) :
    (fromBytes (toBytes entries)).lookup key = map.lookup key :=
  AList.perm_lookup (fromBytes_perm order plain)

theorem sameAs_of_perm {first second} (same : first.entries.Perm second.entries) :
    sameAs first second = true := by
  rw [sameAs, Bool.and_eq_true, beq_iff_eq, List.all_eq_true]
  refine ⟨same.length_eq, fun entry member => ?_⟩
  rw [beq_iff_eq]
  exact AList.mem_lookup_iff.mpr (same.mem_iff.mp member)

/-- Settings survive their way over the wire, in whatever order they are written: the map that is
read compares equal to the one written, and has the same value for every key. -/
theorem settings_read_back (map : StringMap) (entries : List (Sigma fun _ : String => String))
    (order : entries.Perm map.entries)
    (keys : ∀ entry ∈ map.entries, '=' ∉ entry.1.toList ∧ '\n' ∉ entry.1.toList)
    (values : ∀ entry ∈ map.entries, '\n' ∉ entry.2.toList ∧ entry.2.toList.getLast? ≠ some '\r') :
    sameAs (fromBytes (toBytes entries)) map = true ∧
      ∀ key, (fromBytes (toBytes entries)).lookup key = map.lookup key := by
  have plain : ∀ entry ∈ map.entries, PlainEntry entry := fun entry member => ⟨keys entry member, values entry member⟩
  exact ⟨sameAs_of_perm (fromBytes_perm order plain), lookup_fromBytes order plain⟩

/-- Empty keys and values, and values with `=` and with a carriage return inside. -/
theorem settings_read_back_odd :
    ∃ map : StringMap, map.lookup "" = some "" ∧ map.lookup "v" = some "a=b=" ∧ map.lookup "\r" = some "\r=x" ∧
      ∃ entries, entries.Perm map.entries ∧ entries ≠ map.entries ∧
        sameAs (fromBytes (toBytes entries)) map = true ∧
          ∀ key, (fromBytes (toBytes entries)).lookup key = map.lookup key := by
  refine ⟨(((∅ : StringMap).insert "" "").insert "v" "a=b=").insert "\r" "\r=x", by decide, by decide, by decide,
    [⟨"", ""⟩, ⟨"\r", "\r=x"⟩, ⟨"v", "a=b="⟩], by decide, by decide, ?_⟩
  exact settings_read_back _ _ (by decide) (by decide) (by decide)

end StringMap

end AnyTls
