import AnyTls.Proxy.IdleReserve

/-! A call of `take_reusable`, when nobody comes between its steps. It pops from the end, and the
threshold of the reserve is the length of the pool at each pop, which is the position of the entry
popped. So the entries are judged by their own positions, and each one passed over has been
terminated when the call goes on. -/
namespace AnyTls

theorem IdleSessionPool.popLast_concat (init) (last : IdleEntry) (minIdle) :
    IdleSessionPool.popLast (init ++ [last]) minIdle = some ((last, decide (init.length + 1 ≤ minIdle)), init) := by
  rw [popLast, List.length_append, List.length_singleton, Nat.add_sub_cancel, swapRemoveIndex_last, Option.map_some]

namespace ClientState
variable {config : ClientConfig} {s t : ClientState}

/-- The state while one of the calls runs alone. -/
def during (s : ClientState) (i : Nat) (pool : IdleSessionPool) (sessions : List ClientSession) (pc : CreatePc) :
    ClientState :=
  { s with pool := pool, sessions := sessions, calls := s.calls.set i pc }

theorem during_self {i pc} (found : s.calls[i]? = some pc) : s.during i s.pool s.sessions pc = s := by
  obtain ⟨place, rfl⟩ := List.getElem?_eq_some_iff.mp found
  rw [during, List.set_getElem_self]

theorem during_calls {i} (place : i < s.calls.length) (pool) (sessions : List ClientSession) (pc : CreatePc) :
    (s.during i pool sessions pc).calls[i]? = some pc :=
  List.getElem?_set_self place

section
variable {i : Nat} (place : i < s.calls.length) (dialed : Except IoError Unit) {pool rest : IdleSessionPool}
  {sessions after : List ClientSession} {pc next : CreatePc}
include place

theorem during_run {n t}
    (called : (s.during i pool sessions pc).stepCall config dialed pc = some (next, s.during i rest after pc))
    (onward : Transition.run (ClientState.step config) (s.during i rest after next)
      (List.replicate n (.advance i dialed)) = some t) :
    Transition.run (ClientState.step config) (s.during i pool sessions pc)
      (List.replicate (n + 1) (.advance i dialed)) = some t := by
  have stepped : (s.during i pool sessions pc).step config (.advance i dialed) = some (s.during i rest after next) := by
    rw [step, during_calls place, Option.bind_some, called, Option.map_some]
    simp only [during, List.set_set]
  exact Transition.run_cons_some.mpr ⟨_, stepped, onward⟩

/-- The termination of a stale entry. -/
theorem dropStale_alone (config pool attempt) {entry} (known : entry.session < sessions.length) :
    ∃ n, Transition.run (ClientState.step config) (s.during i pool sessions (.dropStale attempt entry .swap))
        (List.replicate n (.advance i dialed)) =
      some (s.during i pool (sessions.modify entry.session ClientSession.terminate) (.take attempt)) := by
  rcases terminate_alone (s := s.during i pool sessions (.dropStale attempt entry .swap)) known with
    once | ⟨closed, first, second⟩
  · refine ⟨1, during_run place dialed ?_ rfl⟩
    rw [stepCall, once, Option.map_some]
    rfl
  · have swapped : (s.during i pool sessions (.dropStale attempt entry .swap)).stepCall config dialed
        (.dropStale attempt entry .swap) = some (.dropStale attempt entry .clear,
          s.during i pool (sessions.modify entry.session closed) (.dropStale attempt entry .swap)) := by
      rw [stepCall, first, Option.map_some]
      rfl
    refine ⟨2, during_run place dialed swapped (during_run place dialed ?_ rfl)⟩
    have same : (sessions.modify entry.session closed).modify entry.session ClientSession.clearStreams =
        sessions.modify entry.session ClientSession.terminate := congrArg ClientState.sessions second
    rw [stepCall, terminateStep, Option.map_some, ← same]
    rfl

end

/-- The entry at the position may be reused: its session is not terminated, and it is fresher
than the timeout or one of the reserve. -/
def reusable (config : ClientConfig) (s : ClientState) (position : Nat) (entry : IdleEntry) : Bool :=
  s.usable entry &&
    (decide (s.now - entry.idleSince < config.idleSessionTimeout) || decide (position ≤ config.minIdleSessions))

/-- The sessions after the round that passes an entry over. -/
structure Discards (sessions after : List ClientSession) (id : SessionId) : Prop where
  length : after.length = sessions.length
  terminated : (after[id]?).any (·.isTerminated) = true
  others : ∀ other, other ≠ id → after[other]? = sessions[other]?

theorem discards_modify {sessions id} (known : id < sessions.length) :
    Discards sessions (sessions.modify id ClientSession.terminate) id := by
  refine ⟨List.length_modify .., ?_, fun other apart => List.getElem?_modify_ne _ _ apart.symm⟩
  rw [List.getElem?_modify_eq, List.getElem?_eq_getElem known]
  exact ClientSession.terminate_isTerminated _

/-- An entry that is fresh or one of the reserve is taken; any other is terminated. -/
theorem stepCall_aged {dialed attempt entry guarded next}
    (chosen : s.now - entry.idleSince < config.idleSessionTimeout ∨ guarded = true →
      next = .openCheck attempt entry.seq entry.session)
    (condemned : ¬ (s.now - entry.idleSince < config.idleSessionTimeout ∨ guarded = true) →
      next = .dropStale attempt entry .swap) :
    s.stepCall config dialed (.aged attempt entry guarded) = some (next, s) := by
  by_cases spared : s.now - entry.idleSince < config.idleSessionTimeout ∨ guarded = true
  · have kept : (!guarded && decide (config.idleSessionTimeout ≤ s.now - entry.idleSince)) = false := by
      rcases spared with fresh | guarded
      · rw [decide_eq_false (Nat.not_le.mpr fresh), Bool.and_false]
      · rw [guarded, Bool.not_true, Bool.false_and]
    rw [stepCall, kept, if_neg Bool.false_ne_true, chosen spared]
  · obtain ⟨old, guarded⟩ := not_or.mp spared
    rw [stepCall, Bool.eq_false_iff.mpr guarded, decide_eq_true (Nat.not_lt.mp old), condemned spared]
    rfl

/-- One round of the loop. -/
theorem take_round {i} (place : i < s.calls.length) (config dialed attempt init) {last sessions}
    (known : last.session < sessions.length) :
    ∃ n after next, Transition.run (ClientState.step config) (s.during i (init ++ [last]) sessions (.take attempt))
        (List.replicate n (.advance i dialed)) = some (s.during i init after next) ∧
      ((reusable config { s with sessions := sessions } (init.length + 1) last = true ∧ after = sessions ∧
          next = .openCheck attempt last.seq last.session) ∨
        (reusable config { s with sessions := sessions } (init.length + 1) last = false ∧
          Discards sessions after last.session ∧ next = .take attempt)) := by
  have stored := List.getElem?_eq_getElem known
  obtain ⟨guarded, exempt⟩ : ∃ guarded, decide (init.length + 1 ≤ config.minIdleSessions) = guarded := ⟨_, rfl⟩
  have popped : (s.during i (init ++ [last]) sessions (.take attempt)).stepCall config dialed (.take attempt) =
      some (.popped attempt last guarded, s.during i init sessions (.take attempt)) := by
    simp only [stepCall, during, IdleSessionPool.popLast_concat, exempt]
  by_cases dead : sessions[last.session].isTerminated = true
  · have passed : (s.during i init sessions (.popped attempt last guarded)).stepCall config dialed
        (.popped attempt last guarded) =
        some (.take attempt, s.during i init sessions (.popped attempt last guarded)) := by
      simp only [stepCall, during, stored, Option.map_some, dead, if_true]
    refine ⟨2, _, _, during_run place dialed popped (during_run place dialed passed rfl),
      .inr ⟨?_, ⟨rfl, ?_, fun _ _ => rfl⟩, rfl⟩⟩
    · simp [reusable, usable, stored, dead]
    · rw [stored, Option.any_some, dead]
  · have alive : ClientState.usable { s with sessions := sessions } last = true := by
      simp [usable, stored, dead]
    have looked : (s.during i init sessions (.popped attempt last guarded)).stepCall config dialed
        (.popped attempt last guarded) =
        some (.aged attempt last guarded, s.during i init sessions (.popped attempt last guarded)) := by
      simp only [stepCall, during, stored, Option.map_some, dead, Bool.false_eq_true, if_false]
    by_cases spared : s.now - last.idleSince < config.idleSessionTimeout ∨ guarded = true
    · have chosen : (s.during i init sessions (.aged attempt last guarded)).stepCall config dialed
          (.aged attempt last guarded) = some (.openCheck attempt last.seq last.session, _) :=
        stepCall_aged (fun _ => rfl) fun refused => absurd spared refused
      refine ⟨3, _, _, during_run place dialed popped (during_run place dialed looked
        (during_run place dialed chosen rfl)), .inl ⟨?_, rfl, rfl⟩⟩
      rw [reusable, alive, exempt, Bool.true_and, Bool.or_eq_true, decide_eq_true_eq]
      exact spared
    · have condemned : (s.during i init sessions (.aged attempt last guarded)).stepCall config dialed
          (.aged attempt last guarded) = some (.dropStale attempt last .swap, _) :=
        stepCall_aged (fun kept => absurd kept spared) fun _ => rfl
      obtain ⟨n, dropped⟩ := dropStale_alone place dialed config init attempt known
      refine ⟨n + 3, _, _, during_run place dialed popped (during_run place dialed looked
        (during_run place dialed condemned dropped)), .inr ⟨?_, discards_modify known, rfl⟩⟩
      rw [reusable, alive, exempt, Bool.true_and, Bool.or_eq_false_iff, decide_eq_false_iff_not, ← Bool.not_eq_true]
      exact not_or.mp spared

/-- What the call leaves of the entries behind a position, which it passes over. -/
structure PassesOver (config : ClientConfig) (s : ClientState) (after : List ClientSession) (position : Nat) : Prop where
  judged : ∀ q entry, position ≤ q → s.pool[q]? = some entry → reusable config s (q + 1) entry = false
  terminated : ∀ q entry, position ≤ q → s.pool[q]? = some entry →
    (after[entry.session]?).any (·.isTerminated) = true
  others : ∀ id, (∀ q entry, position ≤ q → s.pool[q]? = some entry → entry.session ≠ id) →
    after[id]? = s.sessions[id]?

/-- Where the call stops, and with what. -/
inductive TakeEnds (config : ClientConfig) (s : ClientState) (attempt : Nat) : Nat → IdleSessionPool → CreatePc → Prop
  | none : TakeEnds config s attempt 0 [] (.snapshot attempt)
  | found {index : Nat} {entry : IdleEntry} (stored : s.pool[index]? = some entry)
    (fit : reusable config s (index + 1) entry = true) :
    TakeEnds config s attempt (index + 1) (s.pool.take index) (.openCheck attempt entry.seq entry.session)

theorem reusable_congr {sessions position entry}
    (same : sessions[entry.session]? = s.sessions[entry.session]?) :
    reusable config { s with sessions := sessions } position entry = reusable config s position entry := by
  simp only [reusable, usable, same]

/-- A round that passes the last entry over, before the rounds on the others. -/
theorem PassesOver.concat {init last sessions after position} (pooled : s.pool = init ++ [last])
    (apart : ∀ entry ∈ init, entry.session ≠ last.session)
    (unfit : reusable config s (init.length + 1) last = false)
    (discards : Discards s.sessions sessions last.session)
    (passes : PassesOver config { s with pool := init, sessions := sessions } after position)
    (within : position ≤ init.length) : PassesOver config s after position := by
  have early {q : Nat} {entry : IdleEntry} (stored : init[q]? = some entry) :
      reusable config { s with pool := init, sessions := sessions } (q + 1) entry = reusable config s (q + 1) entry :=
    reusable_congr (s := s) (discards.others _ (apart entry (List.mem_of_getElem? stored)))
  -- an entry of the pool is one of the others or the last
  have split {q : Nat} {entry : IdleEntry} (stored : s.pool[q]? = some entry) :
      init[q]? = some entry ∨ (q = init.length ∧ entry = last) := by
    rw [pooled, List.getElem?_append] at stored
    split_ifs at stored with small
    · exact .inl stored
    · obtain ⟨here, same⟩ := List.getElem?_eq_some_iff.mp stored
      rw [List.length_singleton] at here
      exact .inr ⟨by omega, by rw [← same, List.getElem_singleton]⟩
  have untouched : after[last.session]? = sessions[last.session]? :=
    passes.others _ fun q entry _ stored => apart entry (List.mem_of_getElem? stored)
  refine ⟨?_, ?_, ?_⟩
  · intro q entry behind stored
    rcases split stored with old | ⟨rfl, rfl⟩
    · rw [← early old]
      exact passes.judged q entry behind old
    · exact unfit
  · intro q entry behind stored
    rcases split stored with old | ⟨rfl, rfl⟩
    · exact passes.terminated q entry behind old
    · rw [untouched]
      exact discards.terminated
  · intro id away
    have first : last.session ≠ id := away init.length last within (by rw [pooled, List.getElem?_concat_length])
    have rest : ∀ q entry, position ≤ q → init[q]? = some entry → entry.session ≠ id := by
      intro q entry behind stored
      refine away q entry behind ?_
      rw [pooled, List.getElem?_append_left (List.getElem?_eq_some_iff.mp stored).1]
      exact stored
    exact (passes.others id rest).trans (discards.others id first.symm)

/-- The entries up to the position are spared. -/
theorem PassesOver.spares {after position index entry} (passes : PassesOver config s after position)
    (once : (s.pool.map (·.session)).Nodup) (early : index < position)
    (stored : s.pool[index]? = some entry) : after[entry.session]? = s.sessions[entry.session]? := by
  apply passes.others
  intro q popped behind found same
  have equal : index = q := by
    apply (List.getElem?_inj (by rw [List.length_map]; exact (List.getElem?_eq_some_iff.mp stored).1) once).mp
    rw [List.getElem?_map, List.getElem?_map, stored, found, Option.map_some, Option.map_some, same]
  omega

theorem TakeEnds.within {attempt position rest pc} (ends : TakeEnds config s attempt position rest pc) :
    position ≤ s.pool.length := by
  cases ends with
  | none => exact Nat.zero_le _
  | found stored fit => exact (List.getElem?_eq_some_iff.mp stored).1

theorem take_alone {i} (config dialed) {attempt} (found : s.calls[i]? = some (.take attempt))
    (known : ∀ entry ∈ s.pool, entry.session < s.sessions.length) (once : (s.pool.map (·.session)).Nodup) :
    ∃ n after position rest pc,
      Transition.run (ClientState.step config) s (List.replicate n (.advance i dialed)) =
        some (s.during i rest after pc) ∧
      PassesOver config s after position ∧ TakeEnds config s attempt position rest pc := by
  -- from the end of the pool on
  induction pooled : s.pool using List.reverseRecOn generalizing s with
  | nil =>
    have absent (q : Nat) (entry : IdleEntry) : s.pool[q]? ≠ some entry := by
      rw [pooled]
      rintro ⟨⟩
    have stepped : s.step config (.advance i dialed) = some (s.during i [] s.sessions (.snapshot attempt)) := by
      have called : s.stepCall config dialed (.take attempt) = some (.snapshot attempt, s) := by
        simp only [stepCall, pooled]
        rfl
      rw [step, found, Option.bind_some, called, Option.map_some, during, ← pooled]
    refine ⟨1, s.sessions, 0, [], .snapshot attempt, Transition.run_cons_some.mpr ⟨_, stepped, rfl⟩, ⟨?_, ?_, ?_⟩, .none⟩
    · intro q entry _ stored
      exact absurd stored (absent q entry)
    · intro q entry _ stored
      exact absurd stored (absent q entry)
    · intro id _
      rfl
  | append_singleton init last ih =>
    rw [pooled, List.map_append, List.map_singleton, List.nodup_append] at once
    have place := (List.getElem?_eq_some_iff.mp found).1
    have listed : last ∈ s.pool := by
      rw [pooled]
      exact List.mem_append_right _ List.mem_cons_self
    obtain ⟨n, after, next, path, result⟩ := take_round place config dialed attempt init (known last listed)
    rw [← pooled, during_self found] at path
    rcases result with ⟨fit, rfl, rfl⟩ | ⟨unfit, discards, rfl⟩
    · have beyond (q : Nat) (behind : init.length + 1 ≤ q) (entry : IdleEntry) : s.pool[q]? ≠ some entry := by
        intro stored
        have place := (List.getElem?_eq_some_iff.mp stored).1
        rw [pooled, List.length_append, List.length_singleton] at place
        omega
      refine ⟨n, s.sessions, init.length + 1, s.pool.take init.length, _, ?_, ⟨?_, ?_, ?_⟩,
        .found (by rw [pooled, List.getElem?_concat_length]) fit⟩
      · rw [path, pooled, List.take_left]
      · intro q entry behind stored
        exact absurd stored (beyond q behind entry)
      · intro q entry behind stored
        exact absurd stored (beyond q behind entry)
      · intro id _
        rfl
    · have apart : ∀ entry ∈ init, entry.session ≠ last.session := by
        intro entry member
        exact once.2.2 _ (List.mem_map_of_mem member) _ List.mem_cons_self
      have kept : s.during i init after (.take attempt) = { s with pool := init, sessions := after } := by
        obtain ⟨_, same⟩ := List.getElem?_eq_some_iff.mp found
        rw [during, ← same, List.set_getElem_self]
      obtain ⟨m, final, position, rest, pc, finished, passes, ends⟩ :=
        ih (s := { s with pool := init, sessions := after }) found
          (fun entry member => by
            rw [discards.length]
            exact known entry (pooled ▸ List.mem_append_left _ member)) once.1 rfl
      refine ⟨n + m, final, position, rest, pc, ?_, passes.concat pooled apart unfit discards ends.within, ?_⟩
      · rw [← List.replicate_append_replicate]
        exact Transition.run_append_some.mpr ⟨_, path, kept ▸ finished⟩
      · cases ends with
        | none => exact .none
        | @found index entry stored fit =>
          have within := (List.getElem?_eq_some_iff.mp stored).1
          have same : s.pool[index]? = some entry := by rw [pooled, List.getElem?_append_left within, stored]
          rw [show init.take index = s.pool.take index by rw [pooled, List.take_append_of_le_length within.le]]
          refine .found same (Eq.trans (reusable_congr ?_).symm fit)
          exact discards.others _ (apart entry (List.mem_of_getElem? stored))

/-- A call of `take_reusable` that nobody disturbs ends. It returns the last entry, by position,
whose session is not terminated and which is fresh or one of the reserve; the entries from there
on leave the pool, the others stay, and those popped and not returned are terminated. -/
theorem takeReusable_accounts (config : ClientConfig) (s : ClientState) (dialed : Except IoError Unit) {i attempt : Nat}
    (found : s.calls[i]? = some (.take attempt)) (known : ∀ entry ∈ s.pool, entry.session < s.sessions.length)
    (once : (s.pool.map (·.session)).Nodup) :
    ∃ n t, Transition.run (ClientState.step config) s (List.replicate n (.advance i dialed)) = some t ∧
      ((∃ index entry, s.pool[index]? = some entry ∧ reusable config s (index + 1) entry = true ∧
          t.calls[i]? = some (.openCheck attempt entry.seq entry.session) ∧ t.pool = s.pool.take index ∧
          (∀ q other, index < q → s.pool[q]? = some other → reusable config s (q + 1) other = false ∧
            (t.sessions[other.session]?).any (·.isTerminated) = true) ∧
          ∀ other ∈ s.pool.take (index + 1), t.sessions[other.session]? = s.sessions[other.session]?) ∨
        (t.calls[i]? = some (.snapshot attempt) ∧ t.pool = [] ∧
          ∀ q other, s.pool[q]? = some other → reusable config s (q + 1) other = false ∧
            (t.sessions[other.session]?).any (·.isTerminated) = true)) := by
  have place := (List.getElem?_eq_some_iff.mp found).1
  obtain ⟨n, after, position, rest, pc, path, passes, ends⟩ := take_alone config dialed found known once
  refine ⟨n, _, path, ?_⟩
  cases ends with
  | none =>
    refine .inr ⟨during_calls place .., rfl, ?_⟩
    intro q other stored
    exact ⟨passes.judged q other (Nat.zero_le _) stored, passes.terminated q other (Nat.zero_le _) stored⟩
  | @found index entry stored fit =>
    refine .inl ⟨index, entry, stored, fit, during_calls place .., rfl, ?_, ?_⟩
    · intro q other behind stored
      exact ⟨passes.judged q other behind stored, passes.terminated q other behind stored⟩
    · intro other member
      obtain ⟨k, early, rfl⟩ := List.mem_take_iff_getElem.mp member
      exact passes.spares once (by omega) (List.getElem?_eq_getElem (by omega))

/-- A call on a pool of four: the last session is terminated, the two before it are stale, and
the reserve holds one. -/
def fourIdle : ClientState :=
  ⟨[ClientSession.new, ClientSession.new, ClientSession.new, { ClientSession.new with closed := true }], [],
    [⟨0, 0, 0⟩, ⟨1, 1, 5⟩, ⟨2, 2, 9⟩, ⟨3, 3, 95⟩], 4, [.take 0], [], [], 100⟩

theorem takeReusable_fourIdle :
    ∃ n t, Transition.run (ClientState.step ⟨30, 1, 5⟩) fourIdle (List.replicate n (.advance 0 (.ok ()))) = some t ∧
      t.calls[0]? = some (.openCheck 0 0 0) ∧ t.pool = [] ∧
      ∀ other ∈ fourIdle.pool.drop 1, (t.sessions[other.session]?).any (·.isTerminated) = true := by
  have found : fourIdle.calls[0]? = some (.take 0) := rfl
  obtain ⟨n, t, path, ⟨index, entry, stored, fit, called, pool, behind, -⟩ | ⟨-, -, unfit⟩⟩ :=
    takeReusable_accounts ⟨30, 1, 5⟩ fourIdle (.ok ()) found (by decide) (by decide)
  · match index, stored with
    | 0, rfl =>
      refine ⟨n, t, path, called, pool, ?_⟩
      intro other member
      obtain ⟨k, within, rfl⟩ := List.mem_iff_getElem.mp member
      exact (behind (1 + k) _ (by omega) (by rw [← List.getElem?_drop, List.getElem?_eq_getElem])).2
    | 1, rfl => cases fit
    | 2, rfl => cases fit
    | 3, rfl => cases fit
  · cases (unfit 0 _ rfl).1

/-! ### The order of the pool

Entries are appended as they are returned, so the pool is in the order of `idle_since` until
`swap_remove_index` moves its last entry forward; and it is in the order of the numbers only when
the sessions are returned in that order. -/

/-- A session that is not in the pool is returned behind smaller numbers only, and a cleanup leaves no entry or a
number of entries that divides the number of those it removes. -/
def KeepsOrder (config : ClientConfig) (s : ClientState) : ClientAction → Prop
  | .idle i => ∀ task ∈ s.idleTasks[i]?, task.pc = .returning →
    (∃ entry ∈ s.pool, entry.seq = task.seq) ∨ ∀ entry ∈ s.pool, entry.seq < task.seq
  | .cleanupTick =>
    let removed := (s.pool.removable s.now config.idleSessionTimeout config.minIdleSessions).length
    removed = s.pool.length ∨ s.pool.length - removed ∣ removed
  | _ => True

instance (s : ClientState) : (a : ClientAction) → Decidable (KeepsOrder config s a)
  | .idle i => inferInstanceAs (Decidable (∀ task ∈ s.idleTasks[i]?, task.pc = .returning →
    (∃ entry ∈ s.pool, entry.seq = task.seq) ∨ ∀ entry ∈ s.pool, entry.seq < task.seq))
  | .cleanupTick => inferInstanceAs (Decidable (_ ∨ _))
  | .createStream | .advance .. | .cleanupStep | .removeStream .. | .announceIdle _ | .writerExits _ | .close _
  | .clear _ | .dropActive _ | .elapse _ => .isTrue trivial

/-- The pool is in the order of the numbers and of the times of return. -/
structure InOrder (s : ClientState) : Prop where
  numbers : s.pool.Pairwise fun first second => first.seq < second.seq
  times : s.pool.Pairwise fun first second => first.idleSince ≤ second.idleSince
  past : ∀ entry ∈ s.pool, entry.idleSince ≤ s.now

theorem inOrder_new : ClientState.new.InOrder := ⟨.nil, .nil, by rintro _ ⟨⟩⟩

theorem InOrder.shrink (ordered : s.InOrder) (sublist : t.pool.Sublist s.pool) (later : s.now ≤ t.now) : t.InOrder := by
  refine ⟨ordered.numbers.sublist sublist, ordered.times.sublist sublist, ?_⟩
  intro entry member
  exact Nat.le_trans (ordered.past entry (sublist.subset member)) later

theorem popLast_sublist {pool rest : IdleSessionPool} {minIdle entry guarded}
    (popped : pool.popLast minIdle = some ((entry, guarded), rest)) : rest.Sublist pool := by
  induction pool using List.reverseRecOn with
  | nil => cases popped
  | append_singleton init last _ =>
    rw [IdleSessionPool.popLast_concat] at popped
    cases popped
    exact List.sublist_append_left _ _

theorem CallTouch.pool {pc next} (touch : CallTouch s pc next t) :
    t.pool.Sublist s.pool ∧ t.now = s.now := by
  cases touch with
  | same | session | lists | dials | registers | spawns => exact ⟨List.Sublist.refl _, rfl⟩
  | pops popped => exact ⟨popLast_sublist popped, rfl⟩

theorem InOrder.returnSession (ordered : s.InOrder) {seq} (id)
    (larger : (∃ entry ∈ s.pool, entry.seq = seq) ∨ ∀ entry ∈ s.pool, entry.seq < seq) :
    InOrder { s with pool := s.pool.returnSession seq id s.now } := by
  unfold IdleSessionPool.returnSession
  split_ifs with listed
  · exact ordered
  · have behind : ∀ entry ∈ s.pool, entry.seq < seq := by
      refine larger.resolve_left ?_
      rintro ⟨entry, member, rfl⟩
      exact listed (List.any_eq_true.mpr ⟨entry, member, by simp⟩)
    refine ⟨?_, ?_, ?_⟩
    · refine List.pairwise_append.mpr ⟨ordered.numbers, List.pairwise_singleton _ _, ?_⟩
      intro entry member new listed
      cases List.mem_singleton.mp listed
      exact behind entry member
    · refine List.pairwise_append.mpr ⟨ordered.times, List.pairwise_singleton _ _, ?_⟩
      intro entry member new listed
      cases List.mem_singleton.mp listed
      exact ordered.past entry member
    · intro entry member
      rcases List.mem_append.mp member with old | new
      · exact ordered.past entry old
      · cases List.mem_singleton.mp new
        exact Nat.le_refl _

theorem inOrder_step {a} (ordered : s.InOrder) (keeps : s.KeepsOrder config a)
    (stepped : s.step config a = some t) : t.InOrder := by
  cases step_move stepped with
  | calls _ moves =>
    obtain ⟨sublist, clock⟩ := moves.touches.pool
    exact ordered.shrink sublist (Nat.le_of_eq clock.symm)
  | @returns i task found returning =>
    have returned := ordered.returnSession task.session (keeps task found returning)
    exact returned.shrink (List.Sublist.refl _) (Nat.le_refl _)
  | ticks => exact ordered.shrink (IdleSessionPool.cleanupStale_sublist ordered.times keeps) (Nat.le_refl _)
  | cleans _ terminated | cleaned _ terminated =>
    rcases terminateStep_cases terminated with ⟨-, rfl⟩ | ⟨-, -, rfl⟩ | ⟨-, rfl⟩
    · exact ordered.shrink (List.Sublist.refl _) (Nat.le_refl _)
    · exact ordered.shrink (List.Sublist.refl _) (Nat.le_refl _)
    · exact ordered.shrink (List.Sublist.refl _) (Nat.le_refl _)
  | elapses => exact ordered.shrink (List.Sublist.refl _) (Nat.le_add_right _ _)
  | _ => exact ordered.shrink (List.Sublist.refl _) (Nat.le_refl _)

/-- Of a pool in the order of the times, a cleanup removes the entries that are idle the longest. -/
theorem removable_oldest {pool : IdleSessionPool} {now timeout minIdle}
    (times : pool.Pairwise fun first second => first.idleSince ≤ second.idleSince)
    {removed kept : IdleEntry} (gone : removed ∈ pool.removable now timeout minIdle) (listed : kept ∈ pool)
    (stays : kept ∉ pool.removable now timeout minIdle) : removed.idleSince ≤ kept.idleSince := by
  have old := IdleSessionPool.removable_stale gone
  by_cases stale : timeout ≤ now - kept.idleSince
  · have member : kept ∈ pool.stale now timeout := List.mem_filter.mpr ⟨listed, decide_eq_true stale⟩
    rw [← List.take_append_drop (min (pool.length - minIdle) (pool.stale now timeout).length) (pool.stale now timeout),
      List.mem_append] at member
    have sorted : (pool.stale now timeout).Pairwise fun first second => first.idleSince ≤ second.idleSince :=
      times.sublist List.filter_sublist
    rw [← List.take_append_drop (min (pool.length - minIdle) (pool.stale now timeout).length) (pool.stale now timeout),
      List.pairwise_append] at sorted
    exact sorted.2.2 removed gone kept (member.resolve_left stays)
  · omega

theorem usable_not_terminated {entry}
    (terminated : (s.sessions[entry.session]?).any (·.isTerminated) = true) :
    s.usable entry = false := by
  unfold usable
  cases stored : s.sessions[entry.session]? with
  | none => rfl
  | some session =>
    rw [stored, Option.any_some] at terminated
    rw [Option.any_some, terminated, Bool.not_true]

/-- In every run whose returns and cleanups keep the pool in order: a call of `take_reusable` that
nobody disturbs returns, of the pooled sessions that are not terminated when it ends, the one with
the largest number, and none only if there is none; and the entries that a call of `cleanup_stale`
removes are those that have been idle the longest. -/
theorem reuse_newest_clean_oldest (config : ClientConfig) {actions : List ClientAction} {s : ClientState}
    (keeps : Transition.Along (ClientState.step config) (KeepsOrder config) ClientState.new actions)
    (path : Transition.run (ClientState.step config) ClientState.new actions = some s) :
    (∀ i attempt dialed, s.calls[i]? = some (.take attempt) →
      ∃ n t, Transition.run (ClientState.step config) s (List.replicate n (.advance i dialed)) = some t ∧
        ((∃ entry ∈ s.pool, t.calls[i]? = some (.openCheck attempt entry.seq entry.session) ∧ t.usable entry = true ∧
            ∀ other ∈ s.pool, t.usable other = true → other.seq ≤ entry.seq) ∨
          (t.calls[i]? = some (.snapshot attempt) ∧ ∀ other ∈ s.pool, t.usable other = false))) ∧
    (s.cleanup = [] →
      ∃ n t, Transition.run (ClientState.step config) s (.cleanupTick :: List.replicate n .cleanupStep) = some t ∧
        t.cleanup = [] ∧
        ∀ removed ∈ s.pool, removed ∉ t.pool → ∀ kept ∈ t.pool, removed.idleSince ≤ kept.idleSince) := by
  have keyed : s.Keyed := Transition.invariant keyed_step keyed_new path
  have ordered : s.InOrder := Transition.invariant_along inOrder_step inOrder_new keeps path
  have known : ∀ entry ∈ s.pool, entry.session < s.sessions.length := fun entry member => (keyed.pool entry member).1
  constructor
  · intro i attempt dialed found
    have place := (List.getElem?_eq_some_iff.mp found).1
    obtain ⟨n, after, position, rest, pc, called, passes, ends⟩ :=
      take_alone config dialed found known keyed.sessions_nodup
    refine ⟨n, _, called, ?_⟩
    cases ends with
    | none =>
      refine .inr ⟨during_calls place .., ?_⟩
      intro other member
      obtain ⟨q, stored⟩ := List.mem_iff_getElem?.mp member
      exact usable_not_terminated (passes.terminated q other (Nat.zero_le _) stored)
    | @found index entry stored fit =>
      refine .inl ⟨entry, List.mem_of_getElem? stored, during_calls place .., ?_, ?_⟩
      · have same := passes.spares keyed.sessions_nodup (Nat.lt_succ_self _) stored
        rw [reusable, Bool.and_eq_true] at fit
        simp only [usable, during, same]
        exact fit.1
      · intro other member alive
        obtain ⟨q, listed⟩ := List.mem_iff_getElem?.mp member
        rcases Nat.lt_or_ge index q with behind | early
        · have gone : (s.during i (s.pool.take index) after (.openCheck attempt entry.seq entry.session)).usable other =
              false := usable_not_terminated (passes.terminated q other behind listed)
          rw [gone] at alive
          cases alive
        · rcases Nat.eq_or_lt_of_le early with rfl | before
          · cases stored.symm.trans listed
            exact UInt64.le_refl _
          · obtain ⟨_, rfl⟩ := List.getElem?_eq_some_iff.mp stored
            obtain ⟨_, rfl⟩ := List.getElem?_eq_some_iff.mp listed
            exact UInt64.le_of_lt (List.pairwise_iff_getElem.mp ordered.numbers q index _ _ before)
  · intro free
    obtain ⟨n, called⟩ := cleanupStale_alone config free known
    have distinct : s.pool.Nodup := .of_map _ keyed.distinct
    refine ⟨n, _, called, free, ?_⟩
    intro removed listed gone kept stays
    obtain ⟨member, spared⟩ := (IdleSessionPool.cleanupStale_kept distinct kept).mp stays
    refine removable_oldest ordered.times (Decidable.by_contra fun apart => gone ?_) member spared
    exact (IdleSessionPool.cleanupStale_kept distinct removed).mpr ⟨listed, apart⟩

/-- Two sessions returned in the order of their numbers, and a call that looks for one. -/
theorem twoReturned_newest :
    ∃ s n t, Transition.run (ClientState.step ⟨60, 1, 1⟩) ClientState.new (twoReturned ++ [.createStream]) = some s ∧
      Transition.run (ClientState.step ⟨60, 1, 1⟩) s (List.replicate n (.advance 2 (.ok ()))) = some t ∧
      (t.usable ⟨1, 1, 30⟩ = true → ∃ entry : IdleEntry, t.calls[2]? = some (.openCheck 0 entry.seq entry.session) ∧ 1 ≤ entry.seq) := by
  have keeps : Transition.Along (ClientState.step ⟨60, 1, 1⟩) (KeepsOrder ⟨60, 1, 1⟩) ClientState.new
      (twoReturned ++ [ClientAction.createStream]) := by decide
  obtain ⟨s, path, found, member⟩ : ∃ s, Transition.run (ClientState.step ⟨60, 1, 1⟩) ClientState.new
      (twoReturned ++ [ClientAction.createStream]) = some s ∧ s.calls[2]? = some (CreatePc.take 0) ∧ ⟨1, 1, 30⟩ ∈ s.pool :=
    ⟨_, rfl, rfl, by decide⟩
  obtain ⟨n, t, called, ⟨entry, -, returned, -, newest⟩ | ⟨-, unusable⟩⟩ :=
    (reuse_newest_clean_oldest ⟨60, 1, 1⟩ keeps path).1 2 0 (.ok ()) found
  · exact ⟨s, n, t, path, called, fun alive => ⟨entry, returned, newest _ member alive⟩⟩
  · refine ⟨s, n, t, path, called, fun alive => ?_⟩
    rw [unusable _ member] at alive
    cases alive

/-- The second session is returned first. -/
def returnedBackwards : List ClientAction :=
  List.flatten [[.createStream], List.replicate 8 (.advance 0 (.ok ())), [.createStream],
    List.replicate 10 (.advance 1 (.ok ())), [.removeStream 1 1, .idle 1, .idle 1, .idle 1],
    [.removeStream 0 1, .idle 0, .idle 0, .idle 0, .createStream]]

/-- Three sessions, returned in the order of their numbers; a cleanup removes the first, and the
last takes its place. -/
def swappedForward : List ClientAction :=
  List.flatten [[.createStream], List.replicate 8 (.advance 0 (.ok ())), [.createStream],
    List.replicate 10 (.advance 1 (.ok ())), [.createStream], List.replicate 12 (.advance 2 (.ok ())),
    [.removeStream 0 1, .idle 0, .idle 0, .idle 0, .elapse 10, .removeStream 1 1, .idle 1, .idle 1, .idle 1, .elapse 10],
    [.removeStream 2 1, .idle 2, .idle 2, .idle 2, .elapse 10, .cleanupTick, .cleanupStep, .cleanupStep, .elapse 30]]

/-- A call takes session 0 out of the pool although session 1, which is neither terminated nor
stale, is in it; and a cleanup removes a session that has been idle since 20 and keeps one that has
been idle since 10. -/
theorem older_reused_newer_cleaned :
    (∃ s t, Transition.run (ClientState.step ⟨60, 1, 1⟩) ClientState.new returnedBackwards = some s ∧
      s.calls[2]? = some (.take 0) ∧ s.pool = [⟨1, 1, 0⟩, ⟨0, 0, 0⟩] ∧
      Transition.run (ClientState.step ⟨60, 1, 1⟩) s (List.replicate 3 (.advance 2 (.ok ()))) = some t ∧
      t.calls[2]? = some (.openCheck 0 0 0) ∧ t.usable ⟨1, 1, 0⟩ = true) ∧
    ∃ s t, Transition.run (ClientState.step ⟨30, 1, 1⟩) ClientState.new swappedForward = some s ∧
      s.pool = [⟨2, 2, 20⟩, ⟨1, 1, 10⟩] ∧
      Transition.run (ClientState.step ⟨30, 1, 1⟩) s [.cleanupTick, .cleanupStep, .cleanupStep] = some t ∧
      t.cleanup = [] ∧ t.pool = [⟨1, 1, 10⟩] :=
  ⟨⟨_, _, rfl, rfl, rfl, rfl, rfl, rfl⟩, ⟨_, _, rfl, rfl, rfl, rfl, rfl⟩⟩

end ClientState

end AnyTls
