import Mathlib.Algebra.Order.Group.Nat
import Mathlib.Tactic.Ring

/-! Fixed-width big-endian numbers over bytes. Writing keeps the low `width`
bytes of the value, as a narrowing machine cast does. -/
namespace BigEndian

def bytes : Nat → Nat → List UInt8
  | 0, _ => []
  | width + 1, value => UInt8.ofNat (value / 256 ^ width) :: bytes width value

def value (input : List UInt8) : Nat := input.foldl (fun sum byte => sum * 256 + byte.toNat) 0

@[simp] theorem bytes_length (width number : Nat) : (bytes width number).length = width := by
  induction width with
  | zero => rfl
  | succ width ih => simp only [bytes, List.length_cons, ih]

theorem foldl_shift (input : List UInt8) (start : Nat) :
    input.foldl (fun sum byte => sum * 256 + byte.toNat) start =
      start * 256 ^ input.length + value input := by
  induction input generalizing start with
  | nil => simp [value]
  | cons byte rest ih =>
    simp only [value, List.foldl_cons, List.length_cons, Nat.zero_mul, Nat.zero_add]
    rw [ih, ih byte.toNat, Nat.pow_succ]
    ring

theorem value_cons (byte : UInt8) (rest : List UInt8) :
    value (byte :: rest) = byte.toNat * 256 ^ rest.length + value rest := by
  rw [value, List.foldl_cons, foldl_shift, Nat.zero_mul, Nat.zero_add]

theorem value_lt (input : List UInt8) : value input < 256 ^ input.length := by
  induction input with
  | nil => simp [value]
  | cons byte rest ih =>
    have digit : byte.toNat < 256 := byte.toNat_lt
    rw [value_cons, List.length_cons, Nat.pow_succ]
    calc byte.toNat * 256 ^ rest.length + value rest
        < byte.toNat * 256 ^ rest.length + 256 ^ rest.length := by omega
      _ = (byte.toNat + 1) * 256 ^ rest.length := by ring
      _ ≤ 256 * 256 ^ rest.length := Nat.mul_le_mul_right _ digit
      _ = 256 ^ rest.length * 256 := Nat.mul_comm _ _

theorem value_bytes (width number : Nat) : value (bytes width number) = number % 256 ^ width := by
  induction width with
  | zero => simp [bytes, value, Nat.mod_one]
  | succ width ih =>
    have digit : (UInt8.ofNat (number / 256 ^ width)).toNat = number / 256 ^ width % 256 := by
      simp
    rw [bytes, value_cons, bytes_length, ih, digit, Nat.pow_succ, Nat.mod_mul]
    ring

theorem bytes_value_aux (input : List UInt8) (high : Nat) :
    bytes input.length (high * 256 ^ input.length + value input) = input := by
  induction input generalizing high with
  | nil => rfl
  | cons byte rest ih =>
    have below := value_lt rest
    have split : high * 256 ^ (rest.length + 1) + (byte.toNat * 256 ^ rest.length + value rest) =
        (high * 256 + byte.toNat) * 256 ^ rest.length + value rest := by
      rw [Nat.pow_succ]; ring
    rw [List.length_cons, value_cons, split, bytes, ih]
    congr 1
    rw [Nat.mul_comm, Nat.mul_add_div (Nat.pow_pos (by decide)), Nat.div_eq_of_lt below, Nat.add_zero]
    apply UInt8.toNat_inj.mp
    rw [UInt8.toNat_ofNat']
    have digit : byte.toNat < 256 := byte.toNat_lt
    omega

/-- Reading is injective at a fixed width: the bytes are recovered. -/
theorem bytes_value (input : List UInt8) : bytes input.length (value input) = input := by
  simpa using bytes_value_aux input 0

end BigEndian
