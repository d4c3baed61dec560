import AnyTls.Library.ReadProgram
import AnyTls.Proxy.PipeOrder

/-! `StreamReader` of `bin/server.rs` and `client_runner.rs`, the `AsyncRead` of a
stream. It keeps its read of the pipe when the future that polls it is dropped, and
hands the result to whichever buffer is offered next. -/
namespace AnyTls

/-- `read_fut`: the size of its own buffer and its position. -/
abbrev ReadFut := Option (Nat × ReadPc)

def ReadFut.pc : ReadFut → ReadPc
  | some (_, pc) => pc
  | none => .start

inductive PollRead where
  | pending
  | ready (bytes : Bytes)
  | failed (error : IoError)
  | panicked

/-- A step of `poll_read` into a buffer with room for `remaining` bytes, which are
some. `put_slice` panics when the result is longer than that. -/
def pollRead (pipe : PipeInner) (fut : ReadFut) (remaining : Nat) :
    Option (PipeInner × ReadFut × PollRead) :=
  match fut with
  | none => some (pipe, some (remaining, .start), .pending)
  | some (len, pc) => (pipe.readStep len pc).map fun (pipe, state) =>
    match state with
    | .running pc => (pipe, some (len, pc), .pending)
    | .returned (.error error) => (pipe, none, .failed error)
    | .returned (.ok bytes) =>
      (pipe, none, if bytes.length > remaining then .panicked else .ready bytes)

/-- What a poll of a decoding future comes to. -/
inductive Polled (α : Type) where
  | pending (program : ReadProgram IoError α) (held : Bytes)
  | done (value : α)
  | failed (error : IoError)
  | panicked

def earlyEof : IoError := ⟨.unexpectedEof, "early eof"⟩

/-- The outcome of a program that has been offered bytes. -/
def Polled.of {α : Type} : ReadProgram IoError α × Bytes → Polled α
  | (.done value, _) => .done value
  | (.fail error, _) => .failed error
  | (.read count next, held) => .pending (.read count next) held

/-- A step of a future made of exact reads; the bytes it has taken come third. -/
def pollProgram {α : Type} (pipe : PipeInner) (fut : ReadFut) (program : ReadProgram IoError α)
    (held : Bytes) : Option (PipeInner × ReadFut × Bytes × Polled α) :=
  match program with
  | .done value => some (pipe, fut, [], .done value)
  | .fail error => some (pipe, fut, [], .failed error)
  | .read count next => (pollRead pipe fut (count - held.length)).map fun (pipe, fut, result) =>
    match result with
    | .pending => (pipe, fut, [], .pending program held)
    | .failed error => (pipe, fut, [], .failed error)
    | .panicked => (pipe, fut, [], .panicked)
    | .ready [] => (pipe, fut, [], .failed earlyEof)
    | .ready bytes => (pipe, fut, bytes, .of ((ReadProgram.read count next).feed (held ++ bytes)))

section
variable {α : Type} {pipe pipe' : PipeInner} {fut fut' : ReadFut} {program : ReadProgram IoError α}
  {held bytes : Bytes} {polled : Polled α}

/-- All that a poll of a decoding future can do. -/
inductive PollCase (pipe : PipeInner) (fut : ReadFut) (program : ReadProgram IoError α) (held : Bytes) :
    PipeInner → ReadFut → Bytes → Polled α → Prop where
  | done (value) : program = .done value → PollCase pipe fut program held pipe fut [] (.done value)
  | fail (error) : program = .fail error → PollCase pipe fut program held pipe fut [] (.failed error)
  | start (count next) : program = .read count next →
      fut = none → PollCase pipe fut program held pipe (some (count - held.length, .start)) []
        (.pending program held)
  | running (count next len pc pc' pipe') : program = .read count next → fut = some (len, pc) →
      pipe.readStep len pc = some (pipe', .running pc') →
      PollCase pipe fut program held pipe' (some (len, pc')) [] (.pending program held)
  | error (len pc pipe' error) : fut = some (len, pc) →
      pipe.readStep len pc = some (pipe', .returned (.error error)) →
      PollCase pipe fut program held pipe' none [] (.failed error)
  | panicked (count next len pc pipe' bytes) : program = .read count next → fut = some (len, pc) →
      pipe.readStep len pc = some (pipe', .returned (.ok bytes)) →
      bytes.length > count - held.length → PollCase pipe fut program held pipe' none [] .panicked
  | eof (len pc pipe') : fut = some (len, pc) → pipe.readStep len pc = some (pipe', .returned (.ok [])) →
      PollCase pipe fut program held pipe' none [] (.failed earlyEof)
  | ready (count next len pc pipe' bytes) : program = .read count next → fut = some (len, pc) →
      pipe.readStep len pc = some (pipe', .returned (.ok bytes)) → bytes ≠ [] →
      bytes.length ≤ count - held.length →
      PollCase pipe fut program held pipe' none bytes (.of (program.feed (held ++ bytes)))

theorem pollProgram_cases (poll : pollProgram pipe fut program held = some (pipe', fut', bytes, polled)) :
    PollCase pipe fut program held pipe' fut' bytes polled := by
  unfold pollProgram at poll
  split at poll
  · cases poll
    exact .done _ rfl
  · cases poll
    exact .fail _ rfl
  · rename_i count next
    obtain ⟨⟨pipe₁, fut₁, result⟩, read, same⟩ := Option.map_eq_some_iff.mp poll
    unfold pollRead at read
    split at read
    · cases read
      cases same
      exact .start count next rfl rfl
    · rename_i len pc
      obtain ⟨⟨pipe₂, state⟩, stepped, returned⟩ := Option.map_eq_some_iff.mp read
      cases state with
      | running pc' =>
        cases returned
        cases same
        exact .running count next len pc pc' _ rfl rfl stepped
      | returned outcome =>
        cases outcome with
        | error error =>
          cases returned
          cases same
          exact .error len pc _ error rfl stepped
        | ok data =>
          simp only [Prod.mk.injEq] at returned
          obtain ⟨rfl, rfl, rfl⟩ := returned
          by_cases tooLong : data.length > count - held.length
          · rw [if_pos tooLong] at same
            cases same
            exact .panicked count next len pc _ data rfl rfl stepped tooLong
          · rw [if_neg tooLong] at same
            cases data with
            | nil =>
              cases same
              exact .eof len pc _ rfl stepped
            | cons byte rest =>
              cases same
              exact .ready count next len pc _ _ rfl rfl stepped (List.cons_ne_nil _ _)
                (Nat.le_of_not_lt tooLong)

theorem Polled.of_ne_panicked (fed : ReadProgram IoError α × Bytes) : Polled.of fed ≠ .panicked := by
  obtain ⟨program, held⟩ := fed
  cases program with
  | done value => nofun
  | fail error => nofun
  | read count next => nofun

/-- The future takes the first unread bytes. -/
theorem PollCase.unread (poll : PollCase pipe fut program held pipe' fut' bytes polled)
    (settled : fut.pc.pastBuffer = true → pipe.buffer = []) (calm : polled ≠ .panicked) :
    pipe.unread fut.pc = bytes ++ pipe'.unread fut'.pc ∧
    (fut'.pc.pastBuffer = true → pipe'.buffer = []) := by
  cases poll with
  | done value | fail error => exact ⟨rfl, settled⟩
  | start count next _ idle =>
    subst idle
    exact ⟨rfl, nofun⟩
  | running count next len pc pc' _ _ pending read =>
    subst pending
    exact PipeInner.readStep_unread settled read
  | error len pc _ error pending read =>
    subst pending
    exact PipeInner.readStep_unread settled read
  | panicked => exact absurd rfl calm
  | eof len pc _ pending read =>
    subst pending
    exact PipeInner.readStep_unread settled read
  | ready count next len pc _ _ _ pending read =>
    subst pending
    exact PipeInner.readStep_unread settled read

/-- A future does not wait while there is something to read. -/
theorem pollProgram_enabled (program : ReadProgram IoError α) (held) (settled :
    fut.pc.pastBuffer = true → pipe.buffer = []) (waiting : pipe.unread fut.pc ≠ []) : ∃ next, pollProgram pipe fut program held = some next := by
  unfold pollProgram
  split
  · exact ⟨_, rfl⟩
  · exact ⟨_, rfl⟩
  · suffices ready : ∃ next, pollRead pipe fut _ = some next by
      obtain ⟨next, read⟩ := ready
      exact ⟨_, by rw [read]; rfl⟩
    unfold pollRead
    split
    · exact ⟨_, rfl⟩
    · rename_i len pc
      suffices ready : ∃ next, pipe.readStep len pc = some next by
        obtain ⟨next, read⟩ := ready
        exact ⟨_, by rw [read]; rfl⟩
      cases pc with
      | recv =>
        simp only [PipeInner.readStep, PipeInner.recv]
        split
        · exact ⟨_, rfl⟩
        · rename_i drained
          refine absurd ?_ waiting
          simp [PipeInner.unread, ReadFut.pc, ReadPc.inHand, drained, settled rfl]
      | start | waiting | take | restore received => exact ⟨_, rfl⟩

end

end AnyTls
