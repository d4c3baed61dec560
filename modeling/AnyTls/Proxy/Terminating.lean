import AnyTls.Proxy.SessionSteps

/-! The end of a session, and the streams it announces. `closed` is set once, by the swap of
`terminate`, and the call that set it clears the stream table; the receive loop has ended only
in a closed session. `on_new_stream` is called for the streams that the loop makes. -/
namespace AnyTls

/-- The streams that `terminate` has still to end. -/
def EndPc.refs : EndPc → List StreamRef
  | .mark refs | .finish _ refs => refs
  | _ => []

/-- The call is past its tests of the closed flag. -/
def OpenPc.admitted : OpenPc → Bool
  | .syn _ | .returned (.ok _) => true
  | _ => false

namespace Session
variable {s t : Session} {a : SessionAction}

/-- What a step does to the closed flag and to the `terminate` in progress. -/
inductive Closing (s : Session) (t : Session) : Prop where
  | same : (t.closed, t.ending) = (s.closed, s.ending) →
      (t.recv = .ended → s.recv = .ended ∨ s.closed = true) → Closing s t
  | begun : s.closed = false → (t.closed, t.ending) = (true, .clear) → t.streams = s.streams → Closing s t
  | cleared : s.ending = .clear → t.streams = ∅ →
      t.ending = .mark (s.streams.entries.map fun entry => entry.2) →
      (t.closed, t.recv) = (s.closed, s.recv) → Closing s t
  | marking : s.ending ≠ .clear → t.ending ≠ .clear → t.ending.refs ⊆ s.ending.refs →
      t.streams = s.streams → (t.closed, t.recv) = (s.closed, s.recv) → Closing s t

/-- The streams announced are the same, or a step of the loop made one. -/
def Announces (s t : Session) : Prop :=
  t.newStreams = s.newStreams ∨ ∃ sid rest, s.recv = .incoming sid rest ∧ t = s.createIncoming sid rest

/-- The loop waits for its alert to be written only once the channel has taken it. -/
def Alerts (s t : Session) : Prop :=
  ∀ message, t.recv = .alerting message →
    (s.recv = .alerting message ∧ (s.acked = true → t.acked = true)) ∨ ∃ write ∈ t.frameTx.queue, write.ack = true

/-- The `open_stream` call has passed its tests. -/
def admits (s : Session) (call : Nat) : Bool := (s.opens[call]?).any OpenPc.admitted

/-- In a closed session no call passes its tests. -/
def Bars (s t : Session) : Prop := s.closed = true → ∀ call, s.admits call = false → t.admits call = false

theorem Bars.same (opens : t.opens = s.opens) : Bars s t := by
  intro _ call out
  rw [admits, opens]
  exact out

structure Settles (s t : Session) : Prop where
  closing : Closing s t
  announces : Announces s t
  alerts : Alerts s t
  bars : Bars s t

variable {md5 : Bytes → String}

theorem Turns.runs {next} (turns : Turns s next) : next ≠ .ended ∧ ∀ message, next ≠ .alerting message := by
  cases turns with
  | _ => exact ⟨nofun, nofun⟩

/-- `terminate` begins, in the loop or elsewhere. -/
theorem Closing.begins (flag : t.closed = true) (ending : t.ending = if s.closed then s.ending else .clear)
    (streams : t.streams = s.streams) : Closing s t := by
  cases closed : s.closed with
  | true =>
    rw [closed, if_pos rfl] at ending
    exact .same (by rw [flag, ending, closed]) fun _ => .inr closed
  | false =>
    rw [closed] at ending
    exact .begun closed (by rw [flag, ending]; rfl) streams

theorem Move.closing (moves : Move md5 s a t) : Closing s t := by
  cases moves with
  | turns turning => exact .same rfl fun ended => absurd ended turning.runs.1
  | answers _ sending =>
    cases sending with
    | _ => exact .same rfl nofun
  | @closeAnnounces ref =>
    cases ref with
    | _ => exact .same rfl nofun
  | receives | disconnects | alerts | handles | ends | releases | creates | pushed | closeMarks | closeFinishes =>
    exact .same rfl nofun
  | fails | terminates => exact .begins rfl rfl rfl
  | clears clearing => exact .cleared clearing rfl rfl rfl
  | endsAll marking => exact .marking (by simp [marking]) nofun (List.nil_subset _) rfl rfl
  | endSkips marking | endMarks marking =>
    exact .marking (by simp [marking]) nofun (by rw [marking]; exact List.subset_cons_self _ _) rfl rfl
  | endFinishes finishing =>
    exact .marking (by simp [finishing]) nofun (by rw [finishing]; exact List.Subset.refl _) rfl rfl
  | _ => exact .same rfl .inl

theorem Move.newStreams (moves : Move md5 s a t) : Announces s t := by
  cases moves with
  | creates receiving absent => exact .inr ⟨_, _, receiving, by simp only [createIncoming, absent]⟩
  | _ => exact .inl rfl

theorem Move.alerting (moves : Move md5 s a t) : Alerts s t := by
  cases moves with
  | turns turning => exact fun message alerting => absurd alerting (turning.runs.2 message)
  | answers _ sending =>
    cases sending with
    | sendFrame | sendFrameSync => nofun
    | alertAndFail => exact fun _ _ => .inr ⟨_, List.mem_append_right _ List.mem_cons_self, rfl⟩
  | @closeAnnounces ref =>
    cases ref with
    | _ => nofun
  | receives | disconnects | alerts | handles | ends | releases | creates | pushed | closeMarks | closeFinishes
  | fails => nofun
  | emits => exact fun _ alerting => .inl ⟨alerting, fun acked => by simp [acked]⟩
  | _ => exact fun _ alerting => .inl ⟨alerting, id⟩

theorem Waits.barred {pc next} (waits : Waits s pc next) : next.admitted = false := by
  cases waits with
  | _ => rfl

theorem Bars.set {i pc next} (placed : s.opens[i]? = some pc) (opens : t.opens = s.opens.set i next)
    (barred : s.closed = true → pc.admitted = false → next.admitted = false) : Bars s t := by
  intro closed call out
  rw [admits, opens, List.getElem?_set]
  split_ifs with same within
  · subst same
    rw [admits, placed] at out
    exact barred closed out
  · rfl
  · exact out

theorem Move.bars (moves : Move md5 s a t) : Bars s t := by
  cases moves with
  | asks =>
    intro _ call out
    rw [admits, List.getElem?_append]
    split_ifs
    · exact out
    · cases call - s.opens.length <;> rfl
  | waits placed waiting => exact .set placed rfl fun _ _ => waiting.barred
  | inserts placed unset => exact .set placed rfl fun closed => nomatch unset.symm.trans closed
  | synSent placed => exact .set placed rfl fun _ out => out
  | exhausts placed | undoRemoves placed | undoAnnounces placed | undoMarks placed | undoFinishes placed =>
    exact .set placed rfl fun _ _ => rfl
  | _ => exact .same rfl

theorem step_settles (stepped : s.step md5 a = some t) : Settles s t := by
  have moves := step_move stepped
  exact ⟨moves.closing, moves.newStreams, moves.alerting, moves.bars⟩

/-- A closed session stays closed. -/
theorem Closing.stays (closing : Closing s t) (closed : s.closed = true) : t.closed = true := by
  cases closing with
  | same unchanged => exact (congrArg (·.1) unchanged).trans closed
  | begun _ flags => exact congrArg (·.1) flags
  | cleared _ _ _ unchanged | marking _ _ _ _ unchanged => exact (congrArg (·.1) unchanged).trans closed

/-- A channel whose receiver is gone stays so. -/
theorem writer_stays (stepped : s.step md5 a = some t) (gone : s.frameTx.isClosed = true) :
    t.frameTx.isClosed = true := by
  cases step_move stepped with
  | synSent _ _ alive | pshSent _ _ alive | finSent _ _ alive | acknowledges _ _ alive | answers _ _ alive =>
    cases gone.symm.trans alive
  | emits _ queued =>
    rw [queued] at gone
    cases gone
  | writerFails => rfl
  | _ => exact gone

theorem terminated_stays (stepped : s.step md5 a = some t)
    (ended : s.isTerminated = true) : t.isTerminated = true := by
  simp only [isTerminated, Bool.or_eq_true] at ended ⊢
  exact ended.imp (step_settles stepped).closing.stays (writer_stays stepped)

/-- The loop has ended only in a closed session. -/
def EndedClosed (s : Session) : Prop := s.recv = .ended → s.closed = true

theorem endedClosed_step (ended : s.EndedClosed) (stepped : s.step md5 a = some t) :
    t.EndedClosed := by
  intro after
  have closing := (step_settles stepped).closing
  cases closing with
  | same unchanged was =>
    have before : s.closed = true := (was after).elim ended id
    exact (congrArg (·.1) unchanged).trans before
  | begun _ flags => exact congrArg (·.1) flags
  | cleared _ _ _ unchanged | marking _ _ _ _ unchanged =>
    simp only [Prod.mk.injEq] at unchanged
    rw [unchanged.1]
    exact ended (unchanged.2 ▸ after)

theorem Fresh.endedClosed (fresh : s.Fresh) : s.EndedClosed := by
  intro ended
  rw [fresh.recv] at ended
  cases ended

end Session

end AnyTls
