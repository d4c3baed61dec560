import AnyTls.Library.Framing

/-! Decoders written as programs of exact reads, the shape of an asynchronous
decoder that awaits `read_exact` calls. Feeding bytes to a program runs it until
it ends or its current read is not filled; the bytes of that read are kept. -/

inductive ReadProgram (ε α : Type) where
  | done (value : α)
  | fail (error : ε)
  | read (count : Nat) (next : List UInt8 → ReadProgram ε α)

namespace ReadProgram
variable {ε α β : Type}

protected def bind : ReadProgram ε α → (α → ReadProgram ε β) → ReadProgram ε β
  | .done value, f => f value
  | .fail error, _ => .fail error
  | .read count next, f => .read count fun bytes => (next bytes).bind f

instance : Monad (ReadProgram ε) where
  pure := .done
  bind := ReadProgram.bind

/-- The read in progress and the bytes it holds, after `held` was offered. -/
def feed : ReadProgram ε α → List UInt8 → ReadProgram ε α × List UInt8
  | .done value, held => (.done value, held)
  | .fail error, held => (.fail error, held)
  | .read count next, held =>
    if held.length < count then (.read count next, held)
    else (next (held.take count)).feed (held.drop count)

/-- How many bytes the read in progress still asks for. -/
def wants : ReadProgram ε α → List UInt8 → Nat
  | .read count _, held => count - held.length
  | _, _ => 0

def decode (program : ReadProgram ε α) (input : List UInt8) : Option (α × List UInt8) :=
  match program.feed input with
  | (.done value, rest) => some (value, rest)
  | _ => none

/-- Input that arrives later continues the read in progress. -/
theorem feed_feed (program : ReadProgram ε α) (first second : List UInt8) :
    (program.feed first).1.feed ((program.feed first).2 ++ second) = program.feed (first ++ second) := by
  induction program generalizing first with
  | done value => rfl
  | fail error => rfl
  | read count next ih =>
    by_cases short : first.length < count
    · simp only [feed, if_pos short]
    · have whole : ¬ (first ++ second).length < count := by rw [List.length_append]; omega
      have taken : (first ++ second).take count = first.take count :=
        List.take_append_of_le_length (by omega)
      have left : (first ++ second).drop count = first.drop count ++ second :=
        List.drop_append_of_le_length (by omega)
      simp only [feed, if_neg short, if_neg whole, taken, left]
      exact ih _ _

theorem feed_done {program : ReadProgram ε α} {input rest value} (more : List UInt8)
    (fed : program.feed input = (.done value, rest)) :
    program.feed (input ++ more) = (.done value, rest ++ more) := by
  rw [← feed_feed, fed]
  rfl

theorem feed_length (program : ReadProgram ε α) (input : List UInt8) :
    (program.feed input).2.length ≤ input.length := by
  induction program generalizing input with
  | done value => exact Nat.le_refl _
  | fail error => exact Nat.le_refl _
  | read count next ih =>
    simp only [feed]
    split
    · exact Nat.le_refl _
    · have shorter := ih (input.take count) (input.drop count)
      rw [List.length_drop] at shorter
      omega

theorem feed_nil (program : ReadProgram ε α) : (program.feed []).2 = [] :=
  List.eq_nil_of_length_eq_zero (Nat.le_zero.mp (feed_length program []))

/-- A read that is offered no more than it asks for leaves nothing over when it is
filled. -/
theorem feed_wanted {count} (next : List UInt8 → ReadProgram ε α) {input} (bounded : input.length ≤ count) :
    (feed (.read count next) input).2 = [] ∨
    feed (.read count next) input = (.read count next, input) := by
  by_cases short : input.length < count
  · exact .inr (if_pos short)
  · left
    have filled : input.drop count = [] := List.drop_eq_nil_of_le bounded
    simp only [feed, if_neg short, filled]
    exact feed_nil _

theorem feed_bind_done {program : ReadProgram ε α} {f : α → ReadProgram ε β}
    {input rest : List UInt8} {value : β} (fed : (program.bind f).feed input = (.done value, rest)) :
    ∃ first left, program.feed input = (.done first, left) ∧ (f first).feed left = (.done value, rest) := by
  induction program generalizing input with
  | done first => exact ⟨first, input, rfl, fed⟩
  | fail error => cases fed
  | read count next ih =>
    simp only [ReadProgram.bind, feed] at fed ⊢
    split at fed
    · cases fed
    · rename_i whole
      rw [if_neg whole]
      exact ih _ fed

/-- Every failure of the program, on any input, meets `P`. -/
def FailsOnly (P : ε → Prop) : ReadProgram ε α → Prop
  | .done _ => True
  | .fail error => P error
  | .read _ next => ∀ bytes, (next bytes).FailsOnly P

theorem FailsOnly.bind {P : ε → Prop} {program : ReadProgram ε α} {f : α → ReadProgram ε β}
    (first : program.FailsOnly P) (later : ∀ value, (f value).FailsOnly P) :
    (program.bind f).FailsOnly P := by
  induction program with
  | done value => exact later value
  | fail error => exact first
  | read count next ih => exact fun bytes => ih bytes (first bytes)

theorem FailsOnly.feed {P} {program : ReadProgram ε α} (fails : program.FailsOnly P) (input : List UInt8) :
    (program.feed input).1.FailsOnly P := by
  induction program generalizing input with
  | done value => trivial
  | fail error => exact fails
  | read count next ih =>
    unfold ReadProgram.feed
    split_ifs
    · exact fails
    · exact ih _ (fails _) _

/-- A program none of whose successful runs reads nothing. -/
def Consumes (program : ReadProgram ε α) : Prop :=
  ∀ input rest value, program.feed input = (.done value, rest) → rest.length < input.length

theorem consumes_read {count : Nat} {next : List UInt8 → ReadProgram ε α} (positive : 0 < count) :
    Consumes (.read count next) := by
  intro input rest value fed
  simp only [feed] at fed
  split at fed
  · cases fed
  · have shorter := feed_length (next (input.take count)) (input.drop count)
    simp only [fed, List.length_drop] at shorter
    omega

theorem consumes_bind (program : ReadProgram ε α) {f : α → ReadProgram ε β}
    (later : ∀ value, Consumes (f value)) : Consumes (program.bind f) := by
  induction program with
  | done value => exact later value
  | fail error => intro input rest value fed; cases fed
  | read count next ih =>
    intro input rest value fed
    simp only [ReadProgram.bind, feed] at fed
    split at fed
    · cases fed
    · have shorter := ih _ _ _ _ fed
      rw [List.length_drop] at shorter
      omega

theorem decode_iff {program : ReadProgram ε α} {input rest value} :
    program.decode input = some (value, rest) ↔ program.feed input = (.done value, rest) := by
  unfold decode
  split
  · rename_i read left fed
    rw [fed]
    simp
  · rename_i other
    simp only [reduceCtorEq, false_iff]
    exact fun fed => other value rest fed

theorem decode_lawful {program : ReadProgram ε α} (consumes : Consumes program) :
    Framing.Lawful program.decode where
  progress decoded := consumes _ _ _ (decode_iff.mp decoded)
  extend more decoded := decode_iff.mpr (feed_done more (decode_iff.mp decoded))

/-! ### Encodings -/

theorem feed_bind {program : ReadProgram ε α} {input rest value} (f : α → ReadProgram ε β)
    (fed : program.feed input = (.done value, rest)) : (program.bind f).feed input = (f value).feed rest := by
  induction program generalizing input with
  | done first =>
    cases fed
    rfl
  | fail error => cases fed
  | read count next ih =>
    simp only [ReadProgram.bind, feed] at fed ⊢
    split_ifs at fed ⊢ with short
    · cases fed
    · exact ih _ fed

/-- The encoding is read as the value, whatever follows it. -/
def Reads (program : ReadProgram ε α) (encoding : List UInt8) (value : α) : Prop :=
  ∀ rest, program.feed (encoding ++ rest) = (.done value, rest)

theorem reads_done (value : α) : Reads (.done value : ReadProgram ε α) [] value := fun _ => rfl

theorem reads_read {count : Nat} {next : List UInt8 → ReadProgram ε α} {first second : List UInt8} {value : α}
    (size : first.length = count) (later : Reads (next first) second value) :
    Reads (.read count next) (first ++ second) value := by
  intro rest
  have whole : ¬ (first ++ (second ++ rest)).length < count := by
    rw [List.length_append]
    omega
  rw [List.append_assoc, feed, if_neg whole, List.take_left' size, List.drop_left' size]
  exact later rest

theorem Reads.bind {program : ReadProgram ε α} {f : α → ReadProgram ε β} {first second : List UInt8} {value : α}
    {result : β} (reads : Reads program first value) (later : Reads (f value) second result) :
    Reads (program.bind f) (first ++ second) result := by
  intro rest
  rw [List.append_assoc, feed_bind f (reads (second ++ rest))]
  exact later rest

/-- What a program makes of an input that ends: a read that is not filled fails. -/
def finish (eof : ε) (program : ReadProgram ε α) (input : List UInt8) : Except ε (α × List UInt8) :=
  match program.feed input with
  | (.done value, rest) => .ok (value, rest)
  | (.fail error, _) => .error error
  | (.read _ _, _) => .error eof

theorem Reads.finish {program : ReadProgram ε α} {encoding value} (reads : Reads program encoding value)
    (eof : ε) (rest : List UInt8) :
    program.finish eof (encoding ++ rest) = .ok (value, rest) := by
  rw [ReadProgram.finish, reads rest]

/-- An encoding that ends too early is not read as anything. -/
theorem Reads.finish_short {program : ReadProgram ε α} {part more value}
    (reads : Reads program (part ++ more) value) (cut : more ≠ []) (eof : ε) :
    ∃ error, program.finish eof part = .error error := by
  unfold ReadProgram.finish
  split
  · rename_i other rest fed
    have whole := feed_done more fed
    have same := reads []
    rw [List.append_nil, whole, Prod.mk.injEq, List.append_eq_nil_iff] at same
    exact absurd same.2.2 cut
  · exact ⟨_, rfl⟩
  · exact ⟨_, rfl⟩

/-- The program run so many times, on an input that ends: the values read, and the failure or the
input that is left. -/
def finishMany (eof : ε) (program : ReadProgram ε α) : Nat → List UInt8 → List α × Except ε (List UInt8)
  | 0, input => ([], .ok input)
  | n + 1, input =>
    match program.finish eof input with
    | .error error => ([], .error error)
    | .ok (value, rest) => (value :: (finishMany eof program n rest).1, (finishMany eof program n rest).2)

theorem finishMany_reads {program} {items : List (α × List UInt8)}
    (reads : ∀ item ∈ items, Reads program item.2 item.1) (eof : ε) (n : Nat) (rest : List UInt8) :
    finishMany eof program (items.length + n) (items.flatMap Prod.snd ++ rest) =
      (items.map Prod.fst ++ (finishMany eof program n rest).1, (finishMany eof program n rest).2) := by
  induction items with
  | nil => simp
  | cons item items ih =>
    have later := ih fun other member => reads other (List.mem_cons_of_mem _ member)
    rw [List.length_cons, Nat.add_right_comm, finishMany, List.flatMap_cons, List.append_assoc,
      (reads item List.mem_cons_self).finish eof]
    simp only [later, List.map_cons, List.cons_append]

end ReadProgram
