import AnyTls.Library.Transition
import AnyTls.Proxy.StreamReader

/-! `poll_read` of `StreamReader`, in the server and in the client, and of the client's
`StreamRw`: the same calls in the same order. The read they keep between two polls has
the size of the buffer that started it, while its result goes to the buffer of the poll
that finishes it. -/
namespace AnyTls

/-- A reader with what the reads of its stream returned and what its polls put into the
buffers they were given, each with the room in that buffer. -/
structure Polling where
  pipe : PipeInner
  fut : ReadFut
  got : List Bytes
  put : List (Nat × Bytes)
  panicked : Bool
deriving DecidableEq

/-- A poll, or a part of one that ends at a lock; whoever polls next may be another
caller. The others are the writer of the pipe, its ends and its deadline. -/
inductive PollAction where
  | poll (remaining : Nat)
  | write (buf : Bytes)
  | finish (error : Option IoError)
  | close (error : Option IoError)
  | deadline

/-- What the read in progress returns at its next lock section. -/
def ReadFut.answer (pipe : PipeInner) : ReadFut → Option Bytes
  | none => none
  | some (len, pc) =>
    match pipe.readStep len pc with
    | some (_, .returned (.ok bytes)) => some bytes
    | _ => none

/-- How many bytes the read in progress returns next: what the side buffer holds when it looks
there, or the payload it has received, up to the size of the buffer that started it. -/
def ReadFut.due (pipe : PipeInner) : ReadFut → Nat
  | some (len, .start) => min len pipe.buffer.length
  | some (len, .restore (some event)) => min len event.bytes.length
  | _ => 0

theorem ReadFut.answer_length {pipe bytes} {fut : ReadFut} (answered : fut.answer pipe = some bytes) :
    bytes.length = fut.due pipe := by
  match fut with
  | none => cases answered
  | some (len, pc) =>
    simp only [answer] at answered
    split at answered
    · rename_i read
      cases answered
      cases PipeInner.readStep_move read with
      | buffered | handsOver => exact List.length_take
      | endsClosed empty => simp [due, empty]
      | ends => simp [due, PipeEvent.bytes]
      | endsDrained => rfl
    · cases answered

theorem ReadFut.due_silent {pipe} {fut : ReadFut} (silent : fut.answer pipe = none) : fut.due pipe = 0 := by
  match fut with
  | none => rfl
  | some (len, .start) =>
    by_cases empty : pipe.buffer = []
    · simp [due, empty]
    · simp [answer, PipeInner.readStep, PipeInner.readFast, empty] at silent
  | some (len, .restore (some (.data data))) => cases silent
  | some (len, .restore (some (.streamEnd error))) => exact Nat.min_zero len
  | some (len, .restore none) | some (len, .waiting) | some (len, .take) | some (len, .recv) => rfl

theorem ReadFut.due_le {pipe : PipeInner} (len) (pc : ReadPc) : due pipe (some (len, pc)) ≤ len := by
  match pc with
  | .start | .restore (some _) => exact Nat.min_le_left ..
  | .restore none | .waiting | .take | .recv => exact Nat.zero_le _

namespace Polling

def new : Polling := ⟨.new, none, [], [], false⟩

def step (s : Polling) (a : PollAction) : Option Polling :=
  if s.panicked then none
  else match a with
  | .poll remaining =>
    if s.fut = none ∧ remaining = 0 then some s
    else (pollRead s.pipe s.fut remaining).map fun (pipe, fut, result) =>
      let got := s.got ++ (s.fut.answer s.pipe).toList
      match result with
      | .pending | .failed _ => { s with pipe := pipe, fut := fut, got := got }
      | .ready bytes => { s with pipe := pipe, fut := fut, got := got, put := s.put ++ [(remaining, bytes)] }
      | .panicked => { s with pipe := pipe, fut := fut, got := got, panicked := true }
  | .write buf => some { s with pipe := (s.pipe.write buf).2 }
  | .finish error => some { s with pipe := s.pipe.finishStream error }
  | .close error => some { s with pipe := s.pipe.closeWithError error }
  | .deadline =>
    match s.fut with
    | none => none
    | some (len, pc) => (s.pipe.readDeadline pc).map fun (pipe, state) =>
      match state with
      | .running pc => { s with pipe := pipe, fut := some (len, pc) }
      -- the poll that this wakes returns the error
      | .returned _ => { s with pipe := pipe, fut := none }

/-- What the read in progress returns next has room in the buffer of the poll. -/
def fits (s : Polling) : PollAction → Bool
  | .poll remaining => s.fut.due s.pipe ≤ remaining
  | .write _ | .finish _ | .close _ | .deadline => true

variable {s t : Polling} {a : PollAction} {actions : List PollAction} {remaining : Nat}

/-- What a poll does with the answer of the read. -/
inductive Hands (s : Polling) (remaining : Nat) (t : Polling) : Prop where
  | waits : s.fut.answer s.pipe = none → t.got = s.got → t.put = s.put → t.panicked = false →
      Hands s remaining t
  | puts (bytes) : s.fut.answer s.pipe = some bytes → bytes.length ≤ remaining →
      t.got = s.got ++ [bytes] → t.put = s.put ++ [(remaining, bytes)] → t.panicked = false →
      Hands s remaining t
  | panics (bytes) : s.fut.answer s.pipe = some bytes → remaining < bytes.length →
      t.got = s.got ++ [bytes] → t.put = s.put → t.panicked = true → Hands s remaining t

theorem poll_hands (stepped : s.step (.poll remaining) = some t) : s.Hands remaining t := by
  simp only [step] at stepped
  split_ifs at stepped with stopped nothing
  · cases stepped
    exact .waits (by rw [nothing.1]; rfl) rfl rfl (Bool.not_eq_true _ ▸ stopped)
  · obtain ⟨⟨pipe, fut, result⟩, polled, rfl⟩ := Option.map_eq_some_iff.mp stepped
    have calm : s.panicked = false := Bool.not_eq_true _ ▸ stopped
    unfold pollRead at polled
    split at polled
    · rename_i idle
      cases polled
      have silent : s.fut.answer s.pipe = none := by rw [idle]; rfl
      exact .waits silent (by simp [silent]) rfl calm
    · rename_i len pc reading
      obtain ⟨⟨next, state⟩, read, same⟩ := Option.map_eq_some_iff.mp polled
      cases state with
      | running pc' =>
        cases same
        have silent : s.fut.answer s.pipe = none := by simp only [reading, ReadFut.answer, read]
        exact .waits silent (by simp [silent]) rfl calm
      | returned outcome =>
        cases outcome with
        | error error =>
          cases same
          have silent : s.fut.answer s.pipe = none := by simp only [reading, ReadFut.answer, read]
          exact .waits silent (by simp [silent]) rfl calm
        | ok bytes =>
          have answered : s.fut.answer s.pipe = some bytes := by simp only [reading, ReadFut.answer, read]
          simp only at same
          by_cases long : bytes.length > remaining
          · rw [if_pos long] at same
            cases same
            exact .panics bytes answered long (by simp [answered]) rfl rfl
          · rw [if_neg long] at same
            cases same
            exact .puts bytes answered (Nat.le_of_not_lt long) (by simp [answered]) rfl calm

/-- No byte is lost and no buffer overrun. -/
structure Faithful (s : Polling) : Prop where
  calm : s.panicked = false
  same : s.put.map Prod.snd = s.got
  within : ∀ buffer ∈ s.put, buffer.2.length ≤ buffer.1

theorem faithful_step (faithful : s.Faithful) (fits : s.fits a = true) (stepped : s.step a = some t) : t.Faithful := by
  cases a with
  | poll remaining =>
    cases poll_hands stepped with
    | waits _ got put calm => exact ⟨calm, by rw [put, got, faithful.same], by rw [put]; exact faithful.within⟩
    | puts bytes _ room got put calm =>
      refine ⟨calm, ?_, ?_⟩
      · rw [put, got, List.map_append, faithful.same]
        rfl
      · intro buffer member
        rw [put] at member
        rcases List.mem_append.mp member with old | new
        · exact faithful.within buffer old
        · cases List.mem_singleton.mp new
          exact room
    | panics bytes answered long =>
      simp only [Polling.fits, ← ReadFut.answer_length answered, decide_eq_true_eq] at fits
      exact absurd fits (Nat.not_le.mpr long)
  | write buf | finish error | close error =>
    simp only [step, faithful.calm, Bool.false_eq_true, if_false] at stepped
    cases stepped
    exact ⟨rfl, faithful.same, faithful.within⟩
  | deadline =>
    simp only [step, faithful.calm, Bool.false_eq_true, if_false] at stepped
    split at stepped
    · cases stepped
    · obtain ⟨⟨pipe, state⟩, -, rfl⟩ := Option.map_eq_some_iff.mp stepped
      cases state with
      | running pc => exact ⟨rfl, faithful.same, faithful.within⟩
      | returned result => exact ⟨rfl, faithful.same, faithful.within⟩

theorem panics_iff (stepped : s.step (.poll remaining) = some t) :
    t.panicked = true ↔ s.fits (.poll remaining) = false := by
  cases poll_hands stepped with
  | waits silent _ _ calm => simp [calm, fits, ReadFut.due_silent silent]
  | puts bytes answered room _ _ calm => simp [calm, fits, ← ReadFut.answer_length answered, room]
  | panics bytes answered long _ _ panicked => simp [panicked, fits, ← ReadFut.answer_length answered, long]

/-- The buffer that started the read, and every larger one, has room for its result. -/
theorem fits_of_le {len pc} (reading : s.fut = some (len, pc)) (enough : len ≤ remaining) :
    s.fits (.poll remaining) = true := by
  rw [fits, reading, decide_eq_true_eq]
  exact (ReadFut.due_le len pc).trans enough

/-- While every poll has room for what the read in progress returns next, none panics, and the polls put into their buffers exactly what the reads returned. -/
theorem polls_faithful (room : Transition.Along step (fun s a => s.fits a = true) new actions)
    (path : Transition.run step new actions = some s) :
    s.panicked = false ∧ (s.put.map Prod.snd).flatten = s.got.flatten ∧
    (∀ buffer ∈ s.put, buffer.2.length ≤ buffer.1) ∧
    (∀ remaining t, s.step (.poll remaining) = some t →
      (t.panicked = true ↔ s.fits (.poll remaining) = false)) ∧
    ∀ len pc remaining, s.fut = some (len, pc) → len ≤ remaining → s.fits (.poll remaining) = true := by
  have initial : new.Faithful := ⟨rfl, rfl, by simp [new]⟩
  have faithful : s.Faithful := Transition.invariant_along faithful_step initial room path
  refine ⟨faithful.calm, by rw [faithful.same], faithful.within, ?_, ?_⟩
  · intro remaining t stepped
    exact panics_iff stepped
  · intro len pc remaining reading enough
    exact fits_of_le reading enough

/-- A read started for eight bytes and left pending is finished by a poll for sixteen. -/
theorem widened_faithful : ∃ s,
    Transition.run step new [.poll 8, .poll 8, .poll 8, .write [1, 2], .poll 16, .poll 16] = some s ∧
    s.put = [(16, [1, 2])] ∧ s.panicked = false := by
  obtain ⟨s, path, put⟩ : ∃ s,
      Transition.run step new [.poll 8, .poll 8, .poll 8, .write [1, 2], .poll 16, .poll 16] = some s ∧
      s.put = [(16, [1, 2])] := ⟨_, rfl, rfl⟩
  exact ⟨s, path, put, (polls_faithful (by decide +kernel) path).1⟩

/-- The same read finished by a poll for one byte: `put_slice` panics and the bytes are lost. -/
theorem narrowed_panics : ∃ s,
    Transition.run step new [.poll 8, .poll 8, .poll 8, .write [1, 2], .poll 1, .poll 1] = some s ∧
    s.panicked = true ∧ s.got = [[1, 2]] ∧ s.put = [] :=
  ⟨_, rfl, rfl, rfl, rfl⟩

end Polling
end AnyTls
