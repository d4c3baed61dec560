import AnyTls.Core.StringMap

/-! The padding schemes of `core/padding.rs`: a map from packet numbers to the sizes of the
records of the packet. `md5` is a parameter that stands for `md5::compute` in lowercase
hexadecimal, and `random` for `random_range`. -/
namespace AnyTls

def CHECK_MARK : Int := -1

structure PaddingFactory where
  scheme : StringMap
  rawScheme : Bytes
  stop : UInt32
  md5 : String

/-- `str::parse::<i64>`. -/
def parseInt64 (text : List Char) : Option Int :=
  match text with
  | '-' :: rest => if rest.isEmpty then none else (digits (2 ^ 63 + 1) 0 rest).map fun value : Nat => -(value : Int)
  | _ => (parseUnsigned (2 ^ 63) (String.ofList text)).map fun value : Nat => (value : Int)

namespace PaddingFactory

def new (md5 : Bytes → String) (rawScheme : Bytes) : Option PaddingFactory := do
  let scheme := StringMap.fromBytes rawScheme
  if scheme.keys.isEmpty then none
  else
    let text ← scheme.lookup "stop"
    let stop ← parseUnsigned (2 ^ 32) text
    some ⟨scheme, rawScheme, UInt32.ofNat stop, md5 rawScheme⟩

/-- One comma-separated part of a line of the scheme. -/
def recordSize (random : Int → Int → Int) (part : List Char) : Option Int :=
  if part = ['c'] then some CHECK_MARK
  else do
    let (minText, maxText) ← splitOnce '-' part
    let first ← parseInt64 minText
    let second ← parseInt64 maxText
    let low := min first second
    let high := max first second
    if 0 < low ∧ 0 < high then
      some (Int.bmod (if low = high then low else random low high) (2 ^ 32))
    else none

/-- Each part has a draw of its own, `random position`. -/
def generateRecordPayloadSizes (padding : PaddingFactory) (random : Nat → Int → Int → Int) (pkt : UInt32) :
    List Int :=
  match padding.scheme.lookup (toString pkt.toNat) with
  | some line =>
    (line.toList.splitOn ',').zipIdx.filterMap fun (part, position) => recordSize (random position) part
  | none => []

section
variable {md5 : Bytes → String} {raw : Bytes} {factory : PaddingFactory}

theorem new_eq (made : PaddingFactory.new md5 raw = some factory) :
    ∃ stop, factory = ⟨StringMap.fromBytes raw, raw, stop, md5 raw⟩ := by
  simp only [PaddingFactory.new] at made
  split_ifs at made
  obtain ⟨text, -, made⟩ := Option.bind_eq_some_iff.mp made
  obtain ⟨stop, -, made⟩ := Option.bind_eq_some_iff.mp made
  cases made
  exact ⟨_, rfl⟩

theorem new_fields (made : PaddingFactory.new md5 raw = some factory) :
    factory.rawScheme = raw ∧ factory.md5 = md5 raw := by
  obtain ⟨stop, rfl⟩ := new_eq made
  exact ⟨rfl, rfl⟩

/-- No factory is made from nothing. -/
theorem new_ne_nil (made : PaddingFactory.new md5 raw = some factory) : raw ≠ [] := by
  rintro rfl
  cases made

end

end PaddingFactory

end AnyTls
