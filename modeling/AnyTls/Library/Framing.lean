import Mathlib.Data.List.Basic

/-! Repeated decoding of self-delimiting items from a growing input. A lawful
decoder consumes something and never reconsiders an item when more input
arrives, so decoding is independent of how the input is cut into pieces. -/
namespace Framing
variable {α β : Type*} {decode : List α → Option (β × List α)}

structure Lawful (decode : List α → Option (β × List α)) : Prop where
  progress : ∀ {input item rest}, decode input = some (item, rest) → rest.length < input.length
  extend : ∀ {input item rest} (more : List α), decode input = some (item, rest) →
    decode (input ++ more) = some (item, rest ++ more)

def decodeFuel (decode : List α → Option (β × List α)) : Nat → List α → List β × List α
  | 0, input => ([], input)
  | fuel + 1, input =>
    match decode input with
    | none => ([], input)
    | some (item, rest) => (item :: (decodeFuel decode fuel rest).1, (decodeFuel decode fuel rest).2)

/-- All items from the front, and the input no item could be decoded from. -/
def decodeAll (decode : List α → Option (β × List α)) (input : List α) : List β × List α :=
  decodeFuel decode input.length input

theorem decodeFuel_enough (lawful : Lawful decode) {fuel input} (enough : input.length ≤ fuel) :
    decodeFuel decode fuel input = decodeAll decode input := by
  have main : ∀ (n : Nat) (input : List α), input.length ≤ n → ∀ fuel, input.length ≤ fuel →
      decodeFuel decode fuel input = decodeFuel decode n input := by
    intro n
    induction n with
    | zero =>
      intro input small fuel _
      cases decoded : decode input with
      | none => cases fuel <;> simp only [decodeFuel, decoded]
      | some pair =>
        obtain ⟨item, rest⟩ := pair
        have shorter := lawful.progress decoded
        omega
    | succ n ih =>
      intro input small fuel enough
      cases decoded : decode input with
      | none => cases fuel <;> simp only [decodeFuel, decoded]
      | some pair =>
        obtain ⟨item, rest⟩ := pair
        have shorter := lawful.progress decoded
        obtain ⟨fuel, rfl⟩ : ∃ k, fuel = k + 1 := ⟨fuel - 1, by omega⟩
        simp only [decodeFuel, decoded, ih rest (by omega) fuel (by omega)]
  exact main input.length input (Nat.le_refl _) fuel enough

@[simp] theorem decodeAll_nil : decodeAll decode [] = ([], []) := rfl

theorem decodeAll_none {input} (failed : decode input = none) :
    decodeAll decode input = ([], input) := by
  unfold decodeAll
  cases input.length <;> simp only [decodeFuel, failed]

theorem decodeAll_some (lawful : Lawful decode) {input rest item}
    (decoded : decode input = some (item, rest)) :
    decodeAll decode input = (item :: (decodeAll decode rest).1, (decodeAll decode rest).2) := by
  have shorter := lawful.progress decoded
  obtain ⟨n, size⟩ : ∃ n, input.length = n + 1 := ⟨input.length - 1, by omega⟩
  rw [decodeAll, size, decodeFuel, decoded]
  simp only [decodeFuel_enough lawful (show rest.length ≤ n by omega)]

/-- Induction along the items decoded from the front. -/
theorem decodeAll_induction (lawful : Lawful decode) {motive : List α → Prop}
    (stop : ∀ input, decode input = none → motive input)
    (next : ∀ input item rest, decode input = some (item, rest) → motive rest → motive input)
    (input : List α) : motive input := by
  induction size : input.length using Nat.strongRecOn generalizing input with
  | _ n ih =>
    cases decoded : decode input with
    | none => exact stop input decoded
    | some pair =>
      obtain ⟨item, rest⟩ := pair
      have shorter := lawful.progress decoded
      exact next input item rest decoded (ih _ (by omega) rest rfl)

theorem decodeAll_left (lawful : Lawful decode) (input : List α) :
    decode (decodeAll decode input).2 = none := by
  induction input using decodeAll_induction lawful with
  | stop input failed => rw [decodeAll_none failed]; exact failed
  | next input item rest decoded ih => rw [decodeAll_some lawful decoded]; exact ih

/-- Later input is decoded after what the earlier input left over. -/
theorem decodeAll_append (lawful : Lawful decode) (first second : List α) :
    decodeAll decode (first ++ second) =
      ((decodeAll decode first).1 ++ (decodeAll decode ((decodeAll decode first).2 ++ second)).1,
        (decodeAll decode ((decodeAll decode first).2 ++ second)).2) := by
  induction first using decodeAll_induction lawful with
  | stop input failed => simp only [decodeAll_none failed, List.nil_append]
  | next input item rest decoded ih =>
    rw [decodeAll_some lawful (lawful.extend second decoded), ih, decodeAll_some lawful decoded]
    simp only [List.cons_append]

/-- The encoder's image of an item is decoded as that item, whatever follows it. -/
def Encodes (decode : List α → Option (β × List α)) (encode : β → List α) (item : β) : Prop :=
  ∀ rest, decode (encode item ++ rest) = some (item, rest)

theorem decodeAll_encoded (lawful : Lawful decode) {encode items}
    (encodes : ∀ item ∈ items, Encodes decode encode item) (rest : List α) :
    decodeAll decode (items.flatMap encode ++ rest) =
      (items ++ (decodeAll decode rest).1, (decodeAll decode rest).2) := by
  induction items with
  | nil => rfl
  | cons item items ih =>
    have decoded : decode ((item :: items).flatMap encode ++ rest) =
        some (item, items.flatMap encode ++ rest) := by
      rw [List.flatMap_cons, List.append_assoc]
      exact encodes item List.mem_cons_self _
    rw [decodeAll_some lawful decoded, ih (fun i member => encodes i (List.mem_cons_of_mem _ member))]
    rfl

/-- An item decoded from a prefix of an encoded sequence is its first item. -/
theorem decode_first (lawful : Lawful decode) {encode items}
    (encodes : ∀ item ∈ items, Encodes decode encode item) {input more rest item}
    (split : input ++ more = items.flatMap encode) (decoded : decode input = some (item, rest)) :
    ∃ later, items = item :: later ∧ rest ++ more = later.flatMap encode := by
  have whole := lawful.extend more decoded
  cases items with
  | nil =>
    have shorter := lawful.progress decoded
    simp only [List.flatMap_nil, List.append_eq_nil_iff] at split
    simp [split.1] at shorter
  | cons head later =>
    rw [split, List.flatMap_cons, encodes head List.mem_cons_self, Option.some.injEq,
      Prod.mk.injEq] at whole
    exact ⟨later, by rw [whole.1], whole.2.symm⟩

/-- Items whose encoding starts an encoded sequence are its first items. -/
theorem encoded_prefix (lawful : Lawful decode) {encode items all}
    (encodes : ∀ item ∈ items, Encodes decode encode item)
    (known : ∀ item ∈ all, Encodes decode encode item) {rest more}
    (split : items.flatMap encode ++ rest ++ more = all.flatMap encode) : items <+: all := by
  induction items generalizing all with
  | nil => exact List.nil_prefix
  | cons item items ih =>
    have decoded : decode ((item :: items).flatMap encode ++ rest) =
        some (item, items.flatMap encode ++ rest) := by
      rw [List.flatMap_cons, List.append_assoc]
      exact encodes item List.mem_cons_self _
    obtain ⟨later, rfl, left⟩ := decode_first lawful known split decoded
    exact List.cons_prefix_cons.mpr ⟨rfl, ih (fun i member => encodes i (List.mem_cons_of_mem _ member))
      (fun i member => known i (List.mem_cons_of_mem _ member)) left⟩

end Framing
