import AnyTls.Proxy.ClientMoves

/-! The rounds of `create_stream`. A call settles on a session and opens a stream on it
later, so others may have filled or terminated it by then. The call then starts over; after
the third round it returns the error. It returns a stream in the runs where nobody takes the
last place of a session, or terminates it, under a call that has no round left. -/
namespace AnyTls

namespace CreatePc

/-- The call is in its third round. -/
def last : CreatePc → Bool
  | .take attempt | .popped attempt .. | .aged attempt .. | .dropStale attempt .. | .snapshot attempt
  | .scan attempt _ | .capacity attempt .. | .dial attempt | .register attempt .. | .openCheck attempt ..
  | .insert attempt .. | .syn attempt .. | .undo attempt .. | .giveUp attempt .. => 2 ≤ attempt
  | .returned _ => false

/-- The session the call has settled on, having seen it open. -/
def target? : CreatePc → Option SessionId
  | .aged _ entry _ => some entry.session
  | .capacity _ _ id _ | .register _ _ id | .openCheck _ _ id | .insert _ _ id | .syn _ _ id _ => some id
  | _ => none

/-- The call needs a place in that session. -/
def claims : CreatePc → Bool
  | .register .. | .openCheck .. | .insert .. => true
  | _ => false

/-- No round is left to make up for an error. -/
def failing : CreatePc → Bool
  | .undo attempt .. | .giveUp attempt .. => 2 ≤ attempt
  | .returned (.error _) => true
  | _ => false

end CreatePc

namespace ClientState

/-- Dials succeed, and a session ends only by a `terminate` of the client. -/
def unbroken (s : ClientState) : ClientAction → Bool
  | .advance _ dialed => dialed.isOk
  | .writerExits id | .close id => (s.sessions[id]?).all (·.closed)
  | _ => true

/-- A call in its last round has settled on the session. -/
def settledOn (calls : List CreatePc) (id : SessionId) : Bool := calls.any fun pc => pc.last && pc.target? = some id

def claimed (calls : List CreatePc) (id : SessionId) : Bool :=
  calls.any fun pc => pc.last && pc.claims && pc.target? = some id

/-- The step of a call leaves the others in their last round what they have settled on, and
finds a place in its own. -/
def sparesCall (config : ClientConfig) (s : ClientState) (others : List CreatePc) : CreatePc → Bool
  | .aged attempt entry guarded =>
    attempt < 2 || (!guarded && decide (config.idleSessionTimeout ≤ s.now - entry.idleSince)) ||
    (s.sessions[entry.session]?).all (·.hasStreamCapacity config.maxStreamsPerSession)
  | .dropStale _ entry .swap => !settledOn others entry.session
  | .giveUp _ id .swap _ => !settledOn others id
  | .insert attempt _ id => (s.sessions[id]?).all fun session =>
    (attempt < 2 || session.nextStreamId + 1 ≠ 0) &&
    (!claimed others id || session.streams.length + 1 < config.maxStreamsPerSession)
  | _ => true

def spares (config : ClientConfig) (s : ClientState) : ClientAction → Bool
  | .advance i _ => (s.calls[i]?).all (s.sparesCall config (s.calls.eraseIdx i))
  | .cleanupStep =>
    match s.cleanup with
    | (id, .swap) :: _ => !settledOn s.calls id
    | _ => true
  | _ => true

/-! ### What the last round relies on -/

/-- The session that a call in its last round has settled on is open, and has a place if
the call claims one. -/
structure Keeps (config : ClientConfig) (sessions : List ClientSession) (pc : CreatePc) : Prop where
  fine : pc.failing = false
  kept : pc.last = true → ∀ id, pc.target? = some id → ∃ session, sessions[id]? = some session ∧
    session.closed = false ∧ (pc.claims = true → session.streams.length < config.maxStreamsPerSession)

variable {config : ClientConfig} {s t : ClientState}

section
variable {sessions : List ClientSession} {calls others : List CreatePc} {pc next : CreatePc} {id : SessionId}

theorem keeps_unsettled (fine : pc.failing = false) (unsettled : pc.target? = none) : Keeps config sessions pc := by
  refine ⟨fine, fun _ id settled => ?_⟩
  cases unsettled.symm.trans settled

theorem Keeps.modify (keeps : Keeps config sessions pc) {f}
    (alive : pc.last = true → pc.target? = some id → ∀ session, sessions[id]? = some session →
      session.closed = false → (f session).closed = false)
    (room : pc.last = true → pc.target? = some id → pc.claims = true → ∀ session, sessions[id]? = some session →
      session.streams.length < config.maxStreamsPerSession →
      (f session).streams.length < config.maxStreamsPerSession) :
    Keeps config (sessions.modify id f) pc := by
  refine ⟨keeps.fine, fun last other settled => ?_⟩
  obtain ⟨session, stored, opened, place⟩ := keeps.kept last other settled
  rw [List.getElem?_modify, stored]
  by_cases same : id = other
  · subst same
    refine ⟨f session, by simp, alive last settled session stored opened, fun claims => ?_⟩
    exact room last settled claims session stored (place claims)
  · exact ⟨session, by simp [same], opened, place⟩

theorem Keeps.append (keeps : Keeps config sessions pc) (session) :
    Keeps config (sessions ++ [session]) pc := by
  refine ⟨keeps.fine, fun last id settled => ?_⟩
  obtain ⟨found, stored, kept⟩ := keeps.kept last id settled
  exact ⟨found, by rw [List.getElem?_append_left (List.getElem?_eq_some_iff.mp stored).1, stored], kept⟩

end

/-- The sessions have their writers, and the calls what they rely on. -/
structure Holds (config : ClientConfig) (sessions : List ClientSession) (calls : List CreatePc) : Prop where
  writers : ∀ session ∈ sessions, session.writerGone = true → session.closed = true
  calls : ∀ pc ∈ calls, Keeps config sessions pc

section
variable {sessions : List ClientSession} {calls others : List CreatePc} {pc next : CreatePc} {id : SessionId}

theorem Holds.add (holds : Holds config sessions others) (keeps : Keeps config sessions next) :
    Holds config sessions (next :: others) := by
  refine ⟨holds.writers, fun other member => ?_⟩
  rcases List.mem_cons.mp member with rfl | member
  · exact keeps
  · exact holds.calls other member

theorem Holds.subset (holds : Holds config sessions calls) (subset : others ⊆ calls) : Holds config sessions others :=
  ⟨holds.writers, fun other member => holds.calls other (subset member)⟩

theorem Holds.walk (holds : Holds config sessions (pc :: others)) (keeps : Keeps config sessions next) :
    Holds config sessions (next :: others) :=
  (holds.subset (List.subset_cons_self pc others)).add keeps

theorem Holds.unterminated (holds : Holds config sessions calls) {session}
    (stored : sessions[id]? = some session) (opened : session.closed = false) : session.isTerminated = false := by
  rw [ClientSession.isTerminated, opened, Bool.false_or, ← Bool.not_eq_true]
  intro gone
  cases opened.symm.trans (holds.writers session (List.mem_of_getElem? stored) gone)

theorem writers_modify {f}
    (writers : ∀ session ∈ sessions, session.writerGone = true → session.closed = true)
    (writer : ∀ session, sessions[id]? = some session → (session.writerGone = true → session.closed = true) →
      (f session).writerGone = true → (f session).closed = true) :
    ∀ session ∈ sessions.modify id f, session.writerGone = true → session.closed = true := by
  intro session member
  obtain ⟨place, found⟩ := List.mem_iff_getElem?.mp member
  rw [List.getElem?_modify] at found
  obtain ⟨before, stored, rfl⟩ := Option.map_eq_some_iff.mp found
  have kept := writers before (List.mem_of_getElem? stored)
  split_ifs with same
  · subst same
    exact writer before stored kept
  · exact kept

/-- A change that closes nothing and takes no place. -/
theorem Holds.modify_gentle (holds : Holds config sessions calls) {f}
    (gentle : ∀ session, sessions[id]? = some session → (f session).closed = session.closed ∧
      (f session).streams.length ≤ session.streams.length)
    (writer : ∀ session, sessions[id]? = some session → (session.writerGone = true → session.closed = true) →
      (f session).writerGone = true → (f session).closed = true) :
    Holds config (sessions.modify id f) calls := by
  refine ⟨writers_modify holds.writers writer, fun pc member => (holds.calls pc member).modify ?_ ?_⟩
  · intro _ _ session stored opened
    rw [(gentle session stored).1, opened]
  · intro _ _ _ session stored place
    exact Nat.lt_of_le_of_lt (gentle session stored).2 place

theorem settledOn_cons (unsettled : pc.target? = none) : settledOn (pc :: others) id = settledOn others id := by
  simp [settledOn, unsettled]

/-- A new stream leaves a place to those who claim one. -/
theorem Holds.insert (holds : Holds config sessions calls) {session after}
    (stored : sessions[id]? = some session) (closed : after.closed = session.closed)
    (writer : after.writerGone = session.writerGone)
    (spared : claimed calls id = false ∨ after.streams.length < config.maxStreamsPerSession) :
    Holds config (sessions.modify id fun _ => after) calls := by
  refine ⟨writers_modify holds.writers ?_, fun pc member => (holds.calls pc member).modify ?_ ?_⟩
  · intro found stored' kept
    cases stored.symm.trans stored'
    rw [closed, writer]
    exact kept
  · intro _ _ found stored' opened
    cases stored.symm.trans stored'
    rw [closed, opened]
  · intro last settled claims _ _ _
    refine spared.resolve_left fun unclaimed => ?_
    rw [claimed, List.any_eq_false] at unclaimed
    exact unclaimed pc member (by simp [last, claims, settled])

theorem Holds.close (holds : Holds config sessions calls) (spared : settledOn calls id = false) :
    Holds config (sessions.modify id fun session => { session with closed := true }) calls := by
  refine ⟨writers_modify holds.writers fun session _ _ _ => rfl, fun pc member => ?_⟩
  have apart (last : pc.last = true) : pc.target? ≠ some id := by
    intro settled
    rw [settledOn, List.any_eq_false] at spared
    exact spared pc member (by simp [last, settled])
  refine (holds.calls pc member).modify ?_ ?_
  · intro last settled
    exact absurd settled (apart last)
  · intro last settled
    exact absurd settled (apart last)

end

/-- A step of `terminate` on a session that no call in its last round has settled on. -/
theorem Holds.terminate {calls} (holds : Holds config s.sessions calls) {id pc after}
    (spared : pc = .swap → settledOn calls id = false) (stepped : s.terminateStep id pc = some (after, t)) :
    t.calls = s.calls ∧ Holds config t.sessions calls := by
  rcases terminateStep_cases stepped with ⟨-, rfl⟩ | ⟨swap, -, rfl⟩ | ⟨-, rfl⟩
  · exact ⟨rfl, holds⟩
  · exact ⟨rfl, holds.close (spared swap)⟩
  · refine ⟨rfl, holds.modify_gentle ?_ ?_⟩
    · intro session _
      exact ⟨rfl, Nat.zero_le _⟩
    · intro session _ kept
      exact kept

theorem retry_keeps {sessions attempt} (error) (left : attempt < 2) :
    Keeps config sessions (retry attempt error) := by
  rw [retry, if_pos (by omega)]
  exact keeps_unsettled rfl rfl

/-- What `open_stream` makes of a session that has room for a stream and a number for it. -/
theorem insertStream_room {session : ClientSession} (opened : session.closed = false)
    (place : session.streams.length < config.maxStreamsPerSession) (numbered : session.nextStreamId + 1 ≠ 0) :
    (session.insertStream config.maxStreamsPerSession).1 = .ok (session.nextStreamId + 1) := by
  simp only [ClientSession.insertStream, opened, Bool.false_eq_true, if_false, if_neg (Nat.not_le.mpr place),
    if_neg numbered]

theorem insertStream_kept (session : ClientSession) (maxStreams) :
    (session.insertStream maxStreams).2.closed = session.closed ∧
    (session.insertStream maxStreams).2.writerGone = session.writerGone ∧
    (session.insertStream maxStreams).2.streams.length ≤ session.streams.length + 1 := by
  simp only [ClientSession.insertStream]
  split_ifs
  · exact ⟨rfl, rfl, Nat.le_succ _⟩
  · exact ⟨rfl, rfl, Nat.le_succ _⟩
  · exact ⟨rfl, rfl, Nat.le_succ _⟩
  · refine ⟨rfl, rfl, ?_⟩
    rw [List.length_insert]
    split_ifs <;> omega

section
variable {others : List CreatePc} {pc next : CreatePc} {attempt : Nat} {seq : UInt64} {id : SessionId}
  {session after : ClientSession}

/-- A call that has just seen its session open. -/
theorem keeps_seen (fine : next.failing = false) (settled : next.target? = some id) (unclaimed : next.claims = false)
    (stored : s.sessions[id]? = some session) (live : session.isTerminated = false) : Keeps config s.sessions next := by
  refine ⟨fine, fun _ other target => ?_⟩
  cases settled.symm.trans target
  rw [ClientSession.isTerminated, Bool.or_eq_false_iff] at live
  refine ⟨session, stored, live.1, fun claims => ?_⟩
  cases unclaimed.symm.trans claims

/-- A call that gives up is not in its last round, where the session it has settled on is open. -/
theorem keeps_unfailing (here : Keeps config s.sessions pc) (settled : pc.target? = some id)
    (stored : s.sessions[id]? = some session) (shut : session.closed ≠ false)
    (round : next.failing = true → pc.last = true) (unsettled : next.target? = none) :
    Keeps config s.sessions next := by
  refine keeps_unsettled ?_ unsettled
  rw [← Bool.not_eq_true]
  intro failing
  obtain ⟨session', stored', opened, -⟩ := here.kept (round failing) _ settled
  cases stored.symm.trans stored'
  exact shut opened

theorem Walks.keeps (holds : Holds config s.sessions (pc :: others)) (spared : s.sparesCall config others pc = true)
    (walks : Walks config s (.ok ()) pc next) : Keeps config s.sessions next := by
  have here := holds.calls pc List.mem_cons_self
  cases walks with
  | misses | dead | expires | lists | exhausted | passes | full => exact keeps_unsettled rfl rfl
  | alive stored live | considers stored live => exact keeps_seen rfl rfl rfl stored live
  | @reuses attempt entry guarded stale =>
    refine ⟨rfl, ?_⟩
    rintro last id ⟨⟩
    obtain ⟨session, stored, opened, -⟩ := here.kept last _ rfl
    refine ⟨session, stored, opened, fun _ => ?_⟩
    have late : ¬ attempt < 2 := Nat.not_lt.mpr (of_decide_eq_true last)
    simp only [sparesCall, late, decide_false, stale, stored, Option.all_some, Bool.false_or] at spared
    exact of_decide_eq_true spared
  | settles stored room =>
    refine ⟨rfl, ?_⟩
    rintro last id ⟨⟩
    obtain ⟨session', stored', opened, -⟩ := here.kept last _ rfl
    cases stored.symm.trans stored'
    exact ⟨_, stored, opened, fun _ => of_decide_eq_true room⟩
  | undialed failed => cases failed
  | refused stored terminated =>
    refine keeps_unfailing here rfl stored (fun opened => ?_) id rfl
    cases terminated.symm.trans (holds.unterminated stored opened)
  | admitted => exact ⟨rfl, fun last id settled => here.kept last id settled⟩
  | unsent stored gone =>
    refine keeps_unfailing here rfl stored (fun opened => ?_) id rfl
    cases opened.symm.trans (holds.writers _ (List.mem_of_getElem? stored) gone)

/-- What a call inserts leaves the others a place. -/
theorem Holds.inserted {result} (holds : Holds config s.sessions (.insert attempt seq id :: others))
    (spared : s.sparesCall config others (.insert attempt seq id) = true)
    (stored : s.sessions[id]? = some session)
    (inserted : session.insertStream config.maxStreamsPerSession = (result, after)) :
    after.closed = session.closed ∧ Holds config (s.sessions.modify id fun _ => after) others := by
  obtain ⟨closed, writer, longer⟩ := insertStream_kept session config.maxStreamsPerSession
  rw [inserted] at closed writer longer
  simp only [sparesCall, stored, Option.all_some, Bool.and_eq_true, Bool.or_eq_true, decide_eq_true_eq,
    Bool.not_eq_true'] at spared
  have rest := holds.subset (List.subset_cons_self (.insert attempt seq id) others)
  exact ⟨closed, rest.insert stored closed writer (spared.2.imp_right (Nat.lt_of_le_of_lt longer))⟩

/-- A call in its last round finds a place. -/
theorem Holds.round_left {error} (holds : Holds config s.sessions (.insert attempt seq id :: others))
    (spared : s.sparesCall config others (.insert attempt seq id) = true)
    (stored : s.sessions[id]? = some session)
    (failed : session.insertStream config.maxStreamsPerSession = (.error error, after)) : attempt < 2 := by
  simp only [sparesCall, stored, Option.all_some, Bool.and_eq_true, Bool.or_eq_true, decide_eq_true_eq] at spared
  rcases spared.1 with left | numbered
  · exact left
  · by_contra late
    obtain ⟨session', stored', opened, place⟩ :=
      (holds.calls _ List.mem_cons_self).kept (decide_eq_true (Nat.not_lt.mp late)) id rfl
    cases stored.symm.trans stored'
    have inserted := insertStream_room opened (place rfl) numbered
    rw [failed] at inserted
    cases inserted

theorem Holds.dials (holds : Holds config s.sessions (.dial attempt :: others))
    (places : 1 ≤ config.maxStreamsPerSession) :
    Holds config s.addSession.sessions (.register attempt s.seqNumber s.sessions.length :: others) := by
  refine ⟨?_, fun other member => ?_⟩
  · intro session member
    rcases List.mem_append.mp member with old | new
    · exact holds.writers session old
    · cases List.mem_singleton.mp new
      rintro ⟨⟩
  · rcases List.mem_cons.mp member with rfl | member
    · refine ⟨rfl, ?_⟩
      rintro - id ⟨⟩
      exact ⟨ClientSession.new, List.getElem?_concat_length, rfl, fun _ => places⟩
    · exact (holds.calls other (List.mem_cons_of_mem _ member)).append _

/-- A call terminates a session that it has not settled on itself. -/
theorem Holds.terminate_own (holds : Holds config s.sessions (pc :: others)) (unsettled : pc.target? = none)
    {terminating ended} (spared : terminating = .swap → settledOn others id = false)
    (stepped : s.terminateStep id terminating = some (ended, t)) :
    t.calls = s.calls ∧ Holds config t.sessions (pc :: others) := by
  refine holds.terminate ?_ stepped
  rw [settledOn_cons unsettled]
  exact spared

theorem CallMove.holds (places : 1 ≤ config.maxStreamsPerSession) (holds : Holds config s.sessions (pc :: others))
    (spared : s.sparesCall config others pc = true) (moves : CallMove config s (.ok ()) pc next t) :
    t.calls = s.calls ∧ Holds config t.sessions (next :: others) := by
  have here := holds.calls pc List.mem_cons_self
  cases moves with
  | walks walks => exact ⟨rfl, holds.walk (walks.keeps holds spared)⟩
  | pops | returns => exact ⟨rfl, holds.walk (keeps_unsettled rfl rfl)⟩
  | drops terminated | dropped terminated =>
    obtain ⟨calls, held⟩ := holds.terminate_own rfl (by rintro rfl; simpa [sparesCall] using spared) terminated
    exact ⟨calls, held.walk (keeps_unsettled rfl rfl)⟩
  | dials => exact ⟨rfl, holds.dials places⟩
  | registers => exact ⟨rfl, holds.walk ⟨rfl, fun last id settled => here.kept last id settled⟩⟩
  | @inserts attempt seq id sid session after stored inserted =>
    obtain ⟨closed, kept⟩ := holds.inserted spared stored inserted
    refine ⟨rfl, kept.add ⟨rfl, ?_⟩⟩
    rintro last id ⟨⟩
    obtain ⟨session', stored', opened, -⟩ := here.kept last _ rfl
    cases stored.symm.trans stored'
    refine ⟨after, ?_, closed.trans opened, by rintro ⟨⟩⟩
    simp [stored]
  | crowded stored failed =>
    exact ⟨rfl, (holds.inserted spared stored failed).2.add (retry_keeps _ (holds.round_left spared stored failed))⟩
  | fails stored failed =>
    have left := holds.round_left spared stored failed
    refine ⟨rfl, (holds.inserted spared stored failed).2.add (keeps_unsettled ?_ rfl)⟩
    exact decide_eq_false (Nat.not_le.mpr left)
  | undoes =>
    refine ⟨rfl, (holds.modify_gentle ?_ ?_).walk (keeps_unsettled here.fine rfl)⟩
    · intro session _
      exact ⟨rfl, List.length_erase_le⟩
    · intro session _ kept
      exact kept
  | gives terminated =>
    obtain ⟨calls, held⟩ := holds.terminate_own rfl (by rintro rfl; simpa [sparesCall] using spared) terminated
    exact ⟨calls, held.walk (keeps_unsettled here.fine rfl)⟩
  | gaveUp terminated =>
    obtain ⟨calls, held⟩ := holds.terminate_own rfl (by rintro rfl; simpa [sparesCall] using spared) terminated
    exact ⟨calls, held.walk (retry_keeps _ (Nat.not_le.mp (of_decide_eq_false here.fine)))⟩

end

/-! ### Runs -/

/-- Every call relies on what it has. -/
def Promising (config : ClientConfig) (s : ClientState) : Prop := Holds config s.sessions s.calls

theorem promising_new : ClientState.new.Promising config :=
  ⟨by rintro _ ⟨⟩, by rintro _ ⟨⟩⟩

theorem Promising.modify_gentle (promising : s.Promising config) {id f}
    (gentle : ∀ session, s.sessions[id]? = some session → (f session).closed = session.closed ∧
      (f session).streams.length ≤ session.streams.length)
    (writer : ∀ session, s.sessions[id]? = some session → (session.writerGone = true → session.closed = true) →
      (f session).writerGone = true → (f session).closed = true) :
    (s.modifySession id f).Promising config :=
  Holds.modify_gentle promising gentle writer

theorem dialed_ok {i dialed} (unbroken : s.unbroken (.advance i dialed) = true) :
    dialed = .ok () := by
  cases dialed with
  | ok _ => rfl
  | error error => cases unbroken

theorem promising_call {i pc next} (places : 1 ≤ config.maxStreamsPerSession)
    (promising : s.Promising config) (placed : s.calls[i]? = some pc)
    (spared : s.sparesCall config (s.calls.eraseIdx i) pc = true)
    (moves : CallMove config s (.ok ()) pc next t) :
    Promising config { t with calls := t.calls.set i next } := by
  obtain ⟨within, found⟩ := List.getElem?_eq_some_iff.mp placed
  have split : Holds config s.sessions (pc :: s.calls.eraseIdx i) := by
    refine promising.subset (List.cons_subset.mpr ⟨List.mem_of_getElem? placed, List.eraseIdx_subset⟩)
  obtain ⟨calls, holds⟩ := moves.holds places split spared
  refine holds.subset fun other member => ?_
  have member : other ∈ t.calls.set i next := member
  rw [calls] at member
  exact (List.set_perm_cons_eraseIdx within next).subset member

theorem Promising.terminate (promising : s.Promising config) {id pc after}
    (spared : pc = .swap → settledOn s.calls id = false) (stepped : s.terminateStep id pc = some (after, t)) :
    t.Promising config := by
  obtain ⟨calls, holds⟩ := Holds.terminate promising spared stepped
  rw [← calls] at holds
  exact holds

theorem promising_step {a} (places : 1 ≤ config.maxStreamsPerSession) (promising : s.Promising config)
    (unbroken : s.unbroken a = true) (spared : s.spares config a = true)
    (stepped : s.step config a = some t) :
    t.Promising config := by
  cases step_move stepped with
  | creates =>
    have fresh : Keeps config s.sessions (.take 0) := keeps_unsettled rfl rfl
    refine (promising.add fresh).subset ?_
    intro pc member
    rw [List.mem_append, List.mem_singleton] at member
    exact List.mem_cons.mpr member.symm
  | calls placed moves =>
    simp only [spares, placed, Option.all_some] at spared
    rw [dialed_ok unbroken] at moves
    exact promising_call places promising placed spared moves
  | idles | returns | ticks | forgets | elapses => exact promising
  | cleans pending terminated | cleaned pending terminated =>
    have kept := promising.terminate (by rintro rfl; simpa [spares, pending] using spared) terminated
    exact kept
  | removes id sid =>
    refine promising.modify_gentle ?_ ?_
    · intro session _
      exact ⟨rfl, List.length_erase_le⟩
    · intro session _ kept
      exact kept
  | announces id =>
    refine promising.modify_gentle ?_ ?_
    · intro session _
      exact ⟨rfl, Nat.le_refl _⟩
    · intro session _ kept
      exact kept
  | exits id =>
    refine promising.modify_gentle ?_ ?_
    · intro session _
      exact ⟨rfl, Nat.le_refl _⟩
    · intro session stored _ _
      simpa [ClientState.unbroken, stored] using unbroken
  | closes id =>
    refine promising.modify_gentle ?_ ?_
    · intro session stored
      have closed : session.closed = true := by simpa [ClientState.unbroken, stored] using unbroken
      exact ⟨closed.symm, Nat.le_refl _⟩
    · intro session _ _ _
      rfl
  | clears id =>
    refine promising.modify_gentle ?_ ?_
    · intro session _
      exact ⟨rfl, Nat.zero_le _⟩
    · intro session _ kept
      exact kept

/-! ### Returning

A call never waits for another: each of its steps is possible, and the sessions and rounds
it has still to go through become fewer. -/

/-- The sessions that are known exist. -/
structure Placed (s : ClientState) : Prop where
  pool : ∀ entry ∈ s.pool, entry.session < s.sessions.length
  active : ∀ entry ∈ s.active, entry.2 < s.sessions.length
  calls : ∀ pc ∈ s.calls, ∀ id ∈ pc.sessions, id < s.sessions.length
  tasks : ∀ task ∈ s.idleTasks, task.session < s.sessions.length

/-- What the rounds after this one take, with so many active sessions. -/
def later : Nat → Nat → Nat
  | 0, active => 4 * active + 42
  | 1, active => 2 * active + 20
  | _ + 2, _ => 0

/-- A bound on the steps that a call has still to take by itself. -/
def weight (pool active : Nat) : CreatePc → Nat
  | .take attempt => 5 * pool + 2 * active + 20 + later attempt (active + 1)
  | .popped attempt _ _ => 5 * pool + 2 * active + 24 + later attempt (active + 1)
  | .aged attempt _ _ => 5 * pool + 2 * active + 23 + later attempt (active + 1)
  | .dropStale attempt _ .swap => 5 * pool + 2 * active + 22 + later attempt (active + 1)
  | .dropStale attempt _ .clear => 5 * pool + 2 * active + 21 + later attempt (active + 1)
  | .snapshot attempt => 5 * pool + 2 * active + 19 + later attempt (active + 1)
  | .scan attempt rest => 5 * pool + 2 * rest.length + 15 + later attempt (active + 1)
  | .capacity attempt _ _ rest => 5 * pool + 2 * rest.length + 16 + later attempt (active + 1)
  | .dial attempt => 5 * pool + 14 + later attempt (active + 1)
  | .register attempt _ _ => 5 * pool + 11 + later attempt (active + 1)
  | .openCheck attempt _ _ => 5 * pool + 10 + later attempt active
  | .insert attempt _ _ => 5 * pool + 9 + later attempt active
  | .syn attempt _ _ _ => 5 * pool + 8 + later attempt active
  | .undo attempt _ _ _ => 5 * pool + 7 + later attempt active
  | .giveUp attempt _ .swap _ => 5 * pool + 6 + later attempt active
  | .giveUp attempt _ .clear _ => 5 * pool + 5 + later attempt active
  | .returned _ => 0

theorem later_mono (attempt) {first second} (le : first ≤ second) :
    later attempt first ≤ later attempt second := by
  unfold later
  split <;> omega

theorem retry_weight (pool active attempt error) :
    weight pool active (retry attempt error) ≤ 5 * pool + later attempt active := by
  unfold retry
  split_ifs with left
  · have early : attempt = 0 ∨ attempt = 1 := by omega
    rcases early with rfl | rfl
    · simp only [weight, later]
      omega
    · simp only [weight, later]
      omega
  · exact Nat.zero_le _

/-- A step of a call brings it nearer to its end and finds only sessions that exist. -/
structure Advances (s t : ClientState) (pc next : CreatePc) : Prop where
  calls : t.calls = s.calls
  nearer : weight t.pool.length t.active.length next < weight s.pool.length s.active.length pc
  sessions : s.sessions.length ≤ t.sessions.length
  pool : ∀ entry ∈ t.pool, entry ∈ s.pool
  active : ∀ entry ∈ t.active, entry ∈ s.active ∨ entry.2 < t.sessions.length
  tasks : ∀ task ∈ t.idleTasks, task ∈ s.idleTasks ∨ task.session < t.sessions.length
  known : ∀ id ∈ next.sessions, id < t.sessions.length

/-- A step that changes nothing but the call. -/
theorem advances_same {pc next}
    (nearer : weight s.pool.length s.active.length next < weight s.pool.length s.active.length pc)
    (known : ∀ id ∈ next.sessions, id < s.sessions.length) : Advances s s pc next :=
  ⟨rfl, nearer, Nat.le_refl _, fun _ member => member, fun _ member => .inl member, fun _ member => .inl member, known⟩

/-- A step that changes one session besides. -/
theorem advances_modify {pc next} (id) (f : ClientSession → ClientSession)
    (nearer : weight s.pool.length s.active.length next < weight s.pool.length s.active.length pc)
    (known : ∀ id ∈ next.sessions, id < s.sessions.length) : Advances s (s.modifySession id f) pc next := by
  refine ⟨rfl, nearer, ?_, fun _ member => member, fun _ member => .inl member, fun _ member => .inl member, ?_⟩
  · exact Nat.le_of_eq (List.length_modify ..).symm
  · intro other member
    exact Nat.lt_of_lt_of_eq (known other member) (List.length_modify ..).symm

theorem terminateStep_enabled {id} (exists_ : id < s.sessions.length) (pc : TerminatePc) :
    ∃ after t, s.terminateStep id pc = some (after, t) := by
  cases pc with
  | swap =>
    simp only [terminateStep, List.getElem?_eq_getElem exists_, Option.map_some]
    exact ⟨_, _, rfl⟩
  | clear => exact ⟨_, _, rfl⟩

/-- Only the swap is followed by another step. -/
theorem terminateStep_some {id pc after} (stepped : s.terminateStep id pc = some (some after, t)) :
    pc = .swap ∧ after = .clear := by
  rcases terminateStep_cases stepped with ⟨none, -⟩ | ⟨swap, same, -⟩ | ⟨none, -⟩
  · cases none
  · cases same
    exact ⟨swap, rfl⟩
  · cases none

theorem insertKey_length {α : Type*} (entries : List (UInt64 × α)) (key) (value : α) :
    (insertKey entries key value).length ≤ entries.length + 1 := by
  unfold insertKey
  split_ifs
  · rw [List.length_map]
    exact Nat.le_succ _
  · rw [List.length_append, List.length_singleton]

theorem retry_sessions (attempt error) : (retry attempt error).sessions = [] := by
  unfold retry
  split_ifs <;> rfl

section
variable {dialed : Except IoError Unit} {pc next : CreatePc}

theorem stepCall_enabled (config) (known : ∀ id ∈ pc.sessions, id < s.sessions.length)
    (running : ∀ result, pc ≠ .returned result) : ∃ next t, s.stepCall config (.ok ()) pc = some (next, t) := by
  cases pc with
  | take attempt =>
    simp only [stepCall]
    split
    · exact ⟨_, _, rfl⟩
    · exact ⟨_, _, rfl⟩
  | popped attempt entry guarded =>
    have stored := List.getElem?_eq_getElem (known entry.session List.mem_cons_self)
    simp only [stepCall, stored, Option.map_some]
    exact ⟨_, _, rfl⟩
  | aged attempt entry guarded =>
    simp only [stepCall]
    split_ifs
    · exact ⟨_, _, rfl⟩
    · exact ⟨_, _, rfl⟩
  | dropStale attempt entry pc =>
    obtain ⟨after, t, stepped⟩ := terminateStep_enabled (known entry.session List.mem_cons_self) pc
    simp only [stepCall, stepped, Option.map_some]
    exact ⟨_, _, rfl⟩
  | snapshot attempt | dial attempt | register attempt seq id | undo attempt id sid error => exact ⟨_, _, rfl⟩
  | scan attempt active =>
    cases active with
    | nil => exact ⟨_, _, rfl⟩
    | cons first rest =>
      have stored := List.getElem?_eq_getElem (known first.2 List.mem_cons_self)
      simp only [stepCall, stored, Option.map_some]
      exact ⟨_, _, rfl⟩
  | capacity attempt seq id active | openCheck attempt seq id | insert attempt seq id | syn attempt seq id sid =>
    have stored := List.getElem?_eq_getElem (known id List.mem_cons_self)
    simp only [stepCall, stored, Option.map_some]
    exact ⟨_, _, rfl⟩
  | giveUp attempt id pc error =>
    obtain ⟨after, t, stepped⟩ := terminateStep_enabled (known id List.mem_cons_self) pc
    simp only [stepCall, stepped, Option.map_some]
    exact ⟨_, _, rfl⟩
  | returned result => exact absurd rfl (running result)

theorem Walks.advances (placed : s.Placed) (known : ∀ id ∈ pc.sessions, id < s.sessions.length)
    (walks : Walks config s dialed pc next) : Advances s s pc next := by
  cases walks with
  | misses | dead | exhausted | undialed =>
    refine advances_same ?_ (by rintro _ ⟨⟩)
    simp only [weight, List.length_nil]
    omega
  | alive | expires | considers | refused | admitted | unsent =>
    refine advances_same ?_ known
    simp only [weight, List.length_cons]
    omega
  | @reuses attempt =>
    have fewer := later_mono attempt (Nat.le_add_right s.active.length 1)
    refine advances_same ?_ known
    simp only [weight]
    omega
  | lists =>
    refine advances_same ?_ ?_
    · simp only [weight]
      omega
    · intro id member
      obtain ⟨entry, listed, rfl⟩ := List.mem_map.mp member
      exact placed.active entry listed
  | passes | full =>
    refine advances_same ?_ fun id member => known id (List.mem_cons_of_mem _ member)
    simp only [weight, List.length_cons]
    omega
  | @settles attempt _ id =>
    have fewer := later_mono attempt (Nat.le_add_right s.active.length 1)
    refine advances_same ?_ ?_
    · simp only [weight]
      omega
    · intro other member
      cases List.mem_singleton.mp member
      exact known id List.mem_cons_self

/-- A step of `terminate` that a call makes. -/
theorem advances_terminate {id terminating after}
    (stepped : s.terminateStep id terminating = some (after, t))
    (nearer : weight s.pool.length s.active.length next < weight s.pool.length s.active.length pc)
    (known : ∀ id ∈ next.sessions, id < s.sessions.length) : Advances s t pc next := by
  rcases terminateStep_cases stepped with ⟨-, rfl⟩ | ⟨-, -, rfl⟩ | ⟨-, rfl⟩
  · exact advances_same nearer known
  · exact advances_modify _ _ nearer known
  · exact advances_modify _ _ nearer known

theorem advances_dial (attempt) :
    Advances s s.addSession (.dial attempt) (.register attempt s.seqNumber s.sessions.length) := by
  have one : s.addSession.sessions.length = s.sessions.length + 1 := List.length_append
  refine ⟨rfl, ?_, ?_, fun _ member => member, fun _ member => .inl member, fun _ member => .inl member, ?_⟩
  · simp only [weight, addSession]
    omega
  · exact one ▸ Nat.le_succ _
  · intro id member
    cases List.mem_singleton.mp member
    exact one ▸ Nat.lt_succ_self _

theorem advances_register {attempt seq id} (known : id < s.sessions.length) :
    Advances s { s with active := insertKey s.active seq id } (.register attempt seq id)
      (.openCheck attempt seq id) := by
  have fewer := later_mono attempt (insertKey_length s.active seq id)
  refine ⟨rfl, ?_, Nat.le_refl _, fun _ member => member, ?_, fun _ member => .inl member, ?_⟩
  · simp only [weight]
    omega
  · intro entry member
    refine (insertKey_mem member).imp_right ?_
    rintro rfl
    exact known
  · intro other member
    cases List.mem_singleton.mp member
    exact known

theorem CallMove.advances (placed : s.Placed) (known : ∀ id ∈ pc.sessions, id < s.sessions.length)
    (moves : CallMove config s dialed pc next t) : Advances s t pc next := by
  cases moves with
  | walks walks => exact walks.advances placed known
  | @pops attempt entry guarded pool popped =>
    obtain ⟨member, subset⟩ := IdleSessionPool.popLast_mem popped
    refine ⟨rfl, ?_, Nat.le_refl _, subset, fun _ member => .inl member, fun _ member => .inl member, ?_⟩
    · have shorter := IdleSessionPool.popLast_length popped
      simp only [weight]
      omega
    · intro id known
      cases List.mem_singleton.mp known
      exact placed.pool entry member
  | drops terminated =>
    refine advances_terminate terminated ?_ known
    obtain ⟨rfl, rfl⟩ := terminateStep_some terminated
    simp only [weight]
    omega
  | @dropped _ _ terminating _ terminated =>
    refine advances_terminate terminated ?_ (by rintro _ ⟨⟩)
    cases terminating <;> simp only [weight] <;> omega
  | @dials attempt => exact advances_dial attempt
  | registers => exact advances_register (known _ List.mem_cons_self)
  | inserts | fails | undoes =>
    refine advances_modify _ _ ?_ known
    simp only [weight]
    omega
  | @crowded attempt _ _ error =>
    have less := retry_weight s.pool.length s.active.length attempt error
    refine advances_modify _ _ (Nat.lt_of_le_of_lt less ?_) (by simp [retry_sessions])
    simp only [weight]
    omega
  | @returns _ _ id =>
    refine ⟨rfl, ?_, Nat.le_refl _, fun _ member => member, fun _ member => .inl member, ?_, by rintro _ ⟨⟩⟩
    · simp only [weight]
      omega
    · intro task member
      refine (List.mem_append.mp member).imp_right fun new => ?_
      cases List.mem_singleton.mp new
      exact known id List.mem_cons_self
  | gives terminated =>
    refine advances_terminate terminated ?_ known
    obtain ⟨rfl, rfl⟩ := terminateStep_some terminated
    simp only [weight]
    omega
  | @gaveUp attempt _ terminating error _ terminated =>
    have less := retry_weight s.pool.length s.active.length attempt error
    refine advances_terminate terminated (Nat.lt_of_le_of_lt less ?_) (by simp [retry_sessions])
    cases terminating <;> simp only [weight] <;> omega

end

theorem placed_new : ClientState.new.Placed :=
  ⟨by rintro _ ⟨⟩, by rintro _ ⟨⟩, by rintro _ ⟨⟩, by rintro _ ⟨⟩⟩

theorem Placed.modify (placed : s.Placed) (id) (f : ClientSession → ClientSession) :
    (s.modifySession id f).Placed := by
  have same : (s.modifySession id f).sessions.length = s.sessions.length := List.length_modify ..
  refine ⟨?_, ?_, ?_, ?_⟩
  · intro entry member
    exact same ▸ placed.pool entry member
  · intro entry member
    exact same ▸ placed.active entry member
  · intro pc member
    exact same ▸ placed.calls pc member
  · intro task member
    exact same ▸ placed.tasks task member

theorem Placed.terminate (placed : s.Placed) {id pc after}
    (stepped : s.terminateStep id pc = some (after, t)) : t.Placed := by
  rcases terminateStep_cases stepped with ⟨-, rfl⟩ | ⟨-, -, rfl⟩ | ⟨-, rfl⟩
  · exact placed
  · exact placed.modify _ _
  · exact placed.modify _ _

theorem Placed.task (placed : s.Placed) {i task pc} (found : s.idleTasks[i]? = some task) :
    ∀ other ∈ s.idleTasks.set i { task with pc := pc }, other.session < s.sessions.length := by
  intro other member
  rcases List.mem_or_eq_of_mem_set member with old | rfl
  · exact placed.tasks other old
  · exact placed.tasks task (List.mem_of_getElem? found)

theorem Advances.placed {i pc next} (placed : s.Placed) (advances : Advances s t pc next) :
    Placed { t with calls := t.calls.set i next } := by
  have more := advances.sessions
  refine ⟨?_, ?_, ?_, ?_⟩
  · intro entry member
    exact Nat.lt_of_lt_of_le (placed.pool entry (advances.pool entry member)) more
  · intro entry member
    rcases advances.active entry member with old | new
    · exact Nat.lt_of_lt_of_le (placed.active entry old) more
    · exact new
  · intro other member
    rcases List.mem_or_eq_of_mem_set member with old | rfl
    · intro id known
      exact Nat.lt_of_lt_of_le (placed.calls other (advances.calls ▸ old) id known) more
    · exact advances.known
  · intro task member
    rcases advances.tasks task member with old | new
    · exact Nat.lt_of_lt_of_le (placed.tasks task old) more
    · exact new

theorem placed_step {a} (placed : s.Placed) (stepped : s.step config a = some t) : t.Placed := by
  cases step_move stepped with
  | creates =>
    refine ⟨placed.pool, placed.active, ?_, placed.tasks⟩
    intro pc member
    rcases List.mem_append.mp member with old | new
    · exact placed.calls pc old
    · cases List.mem_singleton.mp new
      rintro _ ⟨⟩
  | calls found moves => exact (moves.advances placed (placed.calls _ (List.mem_of_getElem? found))).placed placed
  | idles found => exact ⟨placed.pool, placed.active, placed.calls, placed.task found⟩
  | returns found =>
    refine ⟨?_, placed.active, placed.calls, placed.task found⟩
    intro entry member
    rcases IdleSessionPool.returnSession_mem member with old | new
    · exact placed.pool entry old
    · exact new ▸ placed.tasks _ (List.mem_of_getElem? found)
  | ticks =>
    obtain ⟨kept, -⟩ := IdleSessionPool.cleanupStale_mem s.pool s.now
      config.idleSessionTimeout config.minIdleSessions
    exact ⟨fun entry member => placed.pool entry (kept entry member), placed.active, placed.calls, placed.tasks⟩
  | cleans _ terminated | cleaned _ terminated =>
    have kept := placed.terminate terminated
    exact ⟨kept.pool, kept.active, kept.calls, kept.tasks⟩
  | removes | announces | exits | closes | clears => exact placed.modify _ _
  | forgets =>
    exact ⟨placed.pool, fun entry member => placed.active entry (swapRemove_mem member), placed.calls, placed.tasks⟩
  | elapses => exact ⟨placed.pool, placed.active, placed.calls, placed.tasks⟩

/-- Nobody breaks a session or a dial, and the calls in their last round are spared. -/
def Spared (config : ClientConfig) (s : ClientState) (a : ClientAction) : Prop :=
  s.unbroken a = true ∧ s.spares config a = true

instance (s : ClientState) (a : ClientAction) : Decidable (s.Spared config a) :=
  inferInstanceAs (Decidable (s.unbroken a = true ∧ s.spares config a = true))

structure Assured (config : ClientConfig) (s : ClientState) : Prop where
  promising : s.Promising config
  placed : s.Placed

theorem assured_step {a} (places : 1 ≤ config.maxStreamsPerSession) (assured : s.Assured config)
    (spared : s.Spared config a) (stepped : s.step config a = some t) : t.Assured config :=
  ⟨promising_step places assured.promising spared.1 spared.2 stepped, placed_step assured.placed stepped⟩

/-- A call whose steps spare the others, and which nobody disturbs, returns a stream. -/
theorem returns_alone (places : 1 ≤ config.maxStreamsPerSession) (assured : s.Assured config) {i pc}
    (found : s.calls[i]? = some pc) :
    ∃ n, Transition.Along (ClientState.step config) (Spared config) s (List.replicate n (.advance i (.ok ()))) →
      ∃ t stream, Transition.run (ClientState.step config) s (List.replicate n (.advance i (.ok ()))) = some t ∧
        t.calls[i]? = some (.returned (.ok stream)) := by
  induction bound : weight s.pool.length s.active.length pc using Nat.strongRecOn generalizing s pc with
  | ind bound ih =>
    by_cases running : ∀ result, pc ≠ .returned result
    · have known := assured.placed.calls pc (List.mem_of_getElem? found)
      obtain ⟨next, u, called⟩ := stepCall_enabled config known running
      have advances := (stepCall_move called).advances assured.placed known
      have stepped : s.step config (.advance i (.ok ())) = some { u with calls := u.calls.set i next } := by
        simp only [step, found, Option.bind_some, called, Option.map_some]
      by_cases spared : s.Spared config (.advance i (.ok ()))
      · have place : (u.calls.set i next)[i]? = some next := by
          rw [advances.calls, List.getElem?_set_self (List.getElem?_eq_some_iff.mp found).1]
        obtain ⟨n, finishes⟩ := ih _ (bound ▸ advances.nearer) (assured_step places assured spared stepped) place rfl
        refine ⟨n + 1, fun along => ?_⟩
        obtain ⟨t, stream, path, returned⟩ := finishes (along.2 _ stepped)
        exact ⟨t, stream, Transition.run_cons_some.mpr ⟨_, stepped, path⟩, returned⟩
      · exact ⟨1, fun along => absurd along.1 spared⟩
    · simp only [not_forall, not_not] at running
      obtain ⟨result, rfl⟩ := running
      have fine := (assured.promising.calls _ (List.mem_of_getElem? found)).fine
      cases result with
      | ok stream => exact ⟨0, fun _ => ⟨s, stream, rfl, found⟩⟩
      | error error => cases fine

/-- In every run without a broken session or a failed dial, whose steps spare the calls in
their last round: a call that has returned has returned a stream, and one that has not
returns a stream once it is left to itself. -/
theorem createStream_succeeds (places : 1 ≤ config.maxStreamsPerSession) {actions : List ClientAction}
    (unbroken : Transition.Along (ClientState.step config) (fun s a => s.unbroken a = true) ClientState.new actions)
    (spared : Transition.Along (ClientState.step config) (fun s a => s.spares config a = true) ClientState.new actions)
    (path : Transition.run (ClientState.step config) ClientState.new actions = some s) {i : Nat} {pc : CreatePc}
    (found : s.calls[i]? = some pc) :
    (∀ result, pc = .returned result → ∃ stream, result = .ok stream) ∧
    ((∀ n, Transition.Along (ClientState.step config) (Spared config) s (List.replicate n (.advance i (.ok ())))) →
      ∃ n t stream, Transition.run (ClientState.step config) s (List.replicate n (.advance i (.ok ()))) = some t ∧
        t.calls[i]? = some (.returned (.ok stream))) := by
  have assured : s.Assured config :=
    Transition.invariant_along (assured_step places) ⟨promising_new, placed_new⟩ (unbroken.and spared) path
  refine ⟨?_, fun alone => ?_⟩
  · rintro result rfl
    have fine := (assured.promising.calls _ (List.mem_of_getElem? found)).fine
    cases result with
    | ok stream => exact ⟨stream, rfl⟩
    | error error => cases fine
  · obtain ⟨n, returns⟩ := returns_alone places assured found
    exact ⟨n, returns (alone n)⟩

/-! ### A call that others overtake -/

/-- One stream for each session. -/
def onePlace : ClientConfig := ⟨30, 0, 1⟩

/-- So many steps of a call. -/
def steps (n i : Nat) : List ClientAction := List.replicate n (.advance i (.ok ()))

/-- The first call dials a session twice, and each time another call takes its only place;
then it dials a third. -/
def overtakenTwice : List ClientAction :=
  List.flatten [[.createStream], steps 5 0, [.createStream], steps 7 1, steps 9 0, [.createStream], steps 9 2,
    steps 11 0]

theorem overtakenTwice_succeeds :
    ∃ s result, Transition.run (ClientState.step onePlace) ClientState.new (overtakenTwice ++ steps 3 0) = some s ∧
      s.calls[0]? = some (.returned result) ∧ ∃ stream, result = .ok stream := by
  have places : 1 ≤ onePlace.maxStreamsPerSession := by decide
  have unbroken : Transition.Along (ClientState.step onePlace) (fun s a => s.unbroken a = true) ClientState.new
      (overtakenTwice ++ steps 3 0) := by decide
  have spared : Transition.Along (ClientState.step onePlace) (fun s a => s.spares onePlace a = true) ClientState.new
      (overtakenTwice ++ steps 3 0) := by decide
  obtain ⟨s, path, found⟩ : ∃ s, Transition.run (ClientState.step onePlace) ClientState.new
      (overtakenTwice ++ steps 3 0) = some s ∧ s.calls[0]? = some (CreatePc.returned (.ok (2, 1))) := ⟨_, rfl, rfl⟩
  exact ⟨s, _, path, found, (createStream_succeeds places unbroken spared path found).1 _ rfl⟩

/-- A fourth call takes the place of the third session too. -/
def overtakenThrice : List ClientAction :=
  List.flatten [overtakenTwice, [.createStream], steps 11 3, steps 2 0]

theorem overtaken_wouldBlock :
    Transition.Along (ClientState.step onePlace) (fun s a => s.unbroken a = true) ClientState.new overtakenThrice ∧
    ∃ s, Transition.run (ClientState.step onePlace) ClientState.new overtakenThrice = some s ∧
      s.calls[0]? = some (.returned (.error ⟨.wouldBlock, "Session stream limit reached"⟩)) ∧
      s.calls[1]? = some (.returned (.ok (0, 1))) ∧ s.calls[2]? = some (.returned (.ok (1, 1))) ∧
      s.calls[3]? = some (.returned (.ok (2, 1))) :=
  ⟨by decide, _, rfl, rfl, rfl, rfl, rfl⟩

end ClientState

end AnyTls
