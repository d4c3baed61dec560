import AnyTls.Proxy.IdleCleanup
import AnyTls.Proxy.PoolSafety
import Mathlib.Data.List.Nodup

/-! The number of a session. `create_session` hands out the numbers in the order in which the
sessions are made, so a number that is listed with a session, in the pool, among the active
sessions or by a call or a task, is always the same one; and as the pool lists a number once,
it lists a session once. -/
namespace AnyTls

/-- The sessions a call knows, each with the number it knows it by. -/
def CreatePc.keys : CreatePc → List (UInt64 × SessionId)
  | .popped _ entry _ | .aged _ entry _ | .dropStale _ entry _ => [(entry.seq, entry.session)]
  | .scan _ active => active
  | .capacity _ seq id active => (seq, id) :: active
  | .register _ seq id | .openCheck _ seq id | .insert _ seq id | .syn _ seq id _ => [(seq, id)]
  | _ => []

namespace ClientState
variable {config : ClientConfig} {s t : ClientState}

/-- What the step of a call changes besides the call. -/
inductive CallTouch (s : ClientState) : CreatePc → CreatePc → ClientState → Prop
  | same {pc next : CreatePc} (keys : next.keys ⊆ pc.keys) : CallTouch s pc next s
  | session {pc next : CreatePc} (id : SessionId) (f : ClientSession → ClientSession) (keys : next.keys ⊆ pc.keys) :
    CallTouch s pc next (s.modifySession id f)
  | pops {attempt minIdle : Nat} {entry : IdleEntry} {guarded : Bool} {rest : IdleSessionPool}
    (popped : s.pool.popLast minIdle = some ((entry, guarded), rest)) :
    CallTouch s (.take attempt) (.popped attempt entry guarded) { s with pool := rest }
  | lists (attempt : Nat) : CallTouch s (.snapshot attempt) (.scan attempt s.active) s
  | dials (attempt : Nat) :
    CallTouch s (.dial attempt) (.register attempt s.seqNumber s.sessions.length) s.addSession
  | registers (attempt : Nat) (seq : UInt64) (id : SessionId) :
    CallTouch s (.register attempt seq id) (.openCheck attempt seq id)
      { s with active := insertKey s.active seq id }
  | spawns (attempt : Nat) (seq : UInt64) (id : SessionId) (sid : UInt32) :
    CallTouch s (.syn attempt seq id sid) (.returned (.ok (id, sid)))
      { s with idleTasks := s.idleTasks ++ [⟨seq, id, .start⟩] }

theorem retry_keys (attempt error) : (retry attempt error).keys = [] := by
  unfold retry
  split_ifs <;> rfl

/-- A call that terminates a session. -/
theorem terminateStep_touches {id terminating after pc next}
    (stepped : s.terminateStep id terminating = some (after, t)) (keys : next.keys ⊆ pc.keys) :
    CallTouch s pc next t := by
  rcases terminateStep_cases stepped with ⟨-, rfl⟩ | ⟨-, -, rfl⟩ | ⟨-, rfl⟩
  · exact .same keys
  · exact .session _ _ keys
  · exact .session _ _ keys

theorem Walks.touches {dialed pc next} (walking : Walks config s dialed pc next) :
    CallTouch s pc next s := by
  cases walking with
  | lists => exact .lists _
  | alive | expires | reuses | considers | admitted => exact .same (List.Subset.refl _)
  | passes | full => exact .same (List.subset_cons_self _ _)
  | settles => exact .same (List.cons_subset_cons _ (List.nil_subset _))
  | misses | dead | exhausted | undialed | refused | unsent => exact .same (List.nil_subset _)

theorem CallMove.touches {dialed pc next} (moves : CallMove config s dialed pc next t) : CallTouch s pc next t := by
  cases moves with
  | walks walking => exact walking.touches
  | pops popped => exact .pops popped
  | drops terminated => exact terminateStep_touches terminated (List.Subset.refl _)
  | dropped terminated | gives terminated => exact terminateStep_touches terminated (List.nil_subset _)
  | dials => exact .dials _
  | registers => exact .registers ..
  | inserts => exact .session _ _ (List.Subset.refl _)
  | crowded => exact .session _ _ (by rw [retry_keys]; exact List.nil_subset _)
  | fails | undoes => exact .session _ _ (List.nil_subset _)
  | returns => exact .spawns ..
  | gaveUp terminated => exact terminateStep_touches terminated (by rw [retry_keys]; exact List.nil_subset _)

/-- The session exists and has this number. -/
def Known (s : ClientState) (key : UInt64 × SessionId) : Prop :=
  key.2 < s.sessions.length ∧ key.1 = UInt64.ofNat key.2

structure Keyed (s : ClientState) : Prop where
  counted : s.seqNumber = UInt64.ofNat s.sessions.length
  pool : ∀ entry ∈ s.pool, s.Known (entry.seq, entry.session)
  active : ∀ key ∈ s.active, s.Known key
  calls : ∀ pc ∈ s.calls, ∀ key ∈ pc.keys, s.Known key
  tasks : ∀ task ∈ s.idleTasks, s.Known (task.seq, task.session)
  distinct : (s.pool.map (·.seq)).Nodup

theorem keyed_new : ClientState.new.Keyed :=
  ⟨rfl, by rintro _ ⟨⟩, by rintro _ ⟨⟩, by rintro _ ⟨⟩, by rintro _ ⟨⟩, List.nodup_nil⟩

/-- The pool lists a session once. -/
theorem Keyed.sessions_nodup (keyed : s.Keyed) : (s.pool.map (·.session)).Nodup := by
  have numbers : s.pool.map (·.seq) = (s.pool.map (·.session)).map UInt64.ofNat := by
    rw [List.map_map]
    exact List.map_congr_left fun entry member => (keyed.pool entry member).2
  exact List.Nodup.of_map _ (numbers ▸ keyed.distinct)

/-- A step after which the same sessions exist. -/
theorem Keyed.of_same (keyed : s.Keyed) (numbers : t.seqNumber = s.seqNumber)
    (sessions : t.sessions.length = s.sessions.length) (pool : t.pool = s.pool) (active : t.active ⊆ s.active)
    (calls : ∀ pc ∈ t.calls, ∀ key ∈ pc.keys, s.Known key)
    (tasks : ∀ task ∈ t.idleTasks, s.Known (task.seq, task.session)) : t.Keyed := by
  have known {key : UInt64 × SessionId} (before : s.Known key) : t.Known key := ⟨sessions ▸ before.1, before.2⟩
  refine ⟨?_, ?_, ?_, ?_, ?_, ?_⟩
  · rw [numbers, sessions, keyed.counted]
  · intro entry member
    exact known (keyed.pool entry (pool ▸ member))
  · intro key member
    exact known (keyed.active key (active member))
  · intro pc member key listed
    exact known (calls pc member key listed)
  · intro task member
    exact known (tasks task member)
  · rw [pool]
    exact keyed.distinct

theorem Keyed.modify (keyed : s.Keyed) (id) (f : ClientSession → ClientSession) :
    (s.modifySession id f).Keyed :=
  keyed.of_same rfl (List.length_modify ..) rfl (List.Subset.refl _) keyed.calls keyed.tasks

theorem Keyed.terminate (keyed : s.Keyed) {id pc after} (stepped : s.terminateStep id pc = some (after, t)) :
    t.Keyed := by
  rcases terminateStep_cases stepped with ⟨-, rfl⟩ | ⟨-, -, rfl⟩ | ⟨-, rfl⟩
  · exact keyed
  · exact keyed.modify _ _
  · exact keyed.modify _ _

/-- A pool that lists nothing new. -/
theorem Keyed.shrink (keyed : s.Keyed) {pool} (subset : ∀ entry ∈ pool, entry ∈ s.pool)
    (distinct : (pool.map (·.seq)).Nodup) : Keyed { s with pool := pool } :=
  ⟨keyed.counted, fun entry member => keyed.pool entry (subset entry member), keyed.active, keyed.calls, keyed.tasks,
    distinct⟩

theorem Keyed.addSession (keyed : s.Keyed) : s.addSession.Keyed := by
  have longer : s.addSession.sessions.length = s.sessions.length + 1 := by
    rw [ClientState.addSession, List.length_append, List.length_singleton]
  have known {key : UInt64 × SessionId} (before : s.Known key) : s.addSession.Known key :=
    ⟨longer ▸ Nat.lt_succ_of_lt before.1, before.2⟩
  refine ⟨?_, fun entry member => known (keyed.pool entry member), fun key member => known (keyed.active key member),
    fun pc member key listed => known (keyed.calls pc member key listed),
    fun task member => known (keyed.tasks task member), keyed.distinct⟩
  rw [longer, UInt64.ofNat_add, ← keyed.counted]
  rfl

theorem Keyed.register (keyed : s.Keyed) {key} (known : s.Known key) :
    Keyed { s with active := insertKey s.active key.1 key.2 } := by
  refine ⟨keyed.counted, keyed.pool, fun other member => ?_, keyed.calls, keyed.tasks, keyed.distinct⟩
  rcases insertKey_mem member with old | rfl
  · exact keyed.active other old
  · exact known

theorem popLast_perm {pool rest : IdleSessionPool} {minIdle entry guarded}
    (popped : pool.popLast minIdle = some ((entry, guarded), rest)) : (entry :: rest).Perm pool := by
  obtain ⟨⟨first, others⟩, swapped, same⟩ := Option.map_eq_some_iff.mp popped
  cases same
  exact (swapRemoveIndex_perm swapped).2

/-- The keys of the calls when one of them has moved. -/
theorem keys_set {calls : List CreatePc} {i : Nat} {next : CreatePc} {P : UInt64 × SessionId → Prop}
    (before : ∀ pc ∈ calls, ∀ key ∈ pc.keys, P key) (moved : ∀ key ∈ next.keys, P key) :
    ∀ pc ∈ calls.set i next, ∀ key ∈ pc.keys, P key := by
  intro pc member
  rcases List.mem_or_eq_of_mem_set member with old | rfl
  · exact before pc old
  · exact moved

theorem CallTouch.keyed {pc next : CreatePc} (keyed : s.Keyed) {i : Nat} (found : s.calls[i]? = some pc)
    (touch : CallTouch s pc next t) : Keyed { t with calls := t.calls.set i next } := by
  have held := keyed.calls pc (List.mem_of_getElem? found)
  cases touch with
  | same keys =>
    exact keyed.of_same rfl rfl rfl (List.Subset.refl _) (keys_set keyed.calls fun key member => held key (keys member))
      keyed.tasks
  | session id f keys =>
    exact keyed.of_same rfl (List.length_modify ..) rfl (List.Subset.refl _)
      (keys_set keyed.calls fun key member => held key (keys member)) keyed.tasks
  | @pops attempt minIdle entry guarded rest popped =>
    have perm := popLast_perm popped
    have first : s.Known (entry.seq, entry.session) := keyed.pool entry (perm.subset List.mem_cons_self)
    have shrunk : Keyed { s with pool := rest } :=
      keyed.shrink (fun other member => perm.subset (List.mem_cons_of_mem _ member))
        ((perm.map (·.seq)).nodup_iff.mpr keyed.distinct).of_cons
    refine shrunk.of_same rfl rfl rfl (List.Subset.refl _) (keys_set shrunk.calls ?_) shrunk.tasks
    intro key member
    cases List.mem_singleton.mp member
    exact first
  | lists attempt =>
    exact keyed.of_same rfl rfl rfl (List.Subset.refl _) (keys_set keyed.calls keyed.active) keyed.tasks
  | dials attempt =>
    have added := keyed.addSession
    refine added.of_same rfl rfl rfl (List.Subset.refl _) (keys_set added.calls ?_) added.tasks
    intro key member
    cases List.mem_singleton.mp member
    refine ⟨?_, keyed.counted⟩
    rw [ClientState.addSession, List.length_append]
    exact Nat.lt_succ_self _
  | registers attempt seq id =>
    have listed := keyed.register (held _ List.mem_cons_self)
    exact listed.of_same rfl rfl rfl (List.Subset.refl _) (keys_set listed.calls held) listed.tasks
  | spawns attempt seq id sid =>
    refine keyed.of_same rfl rfl rfl (List.Subset.refl _) (keys_set keyed.calls (by rintro _ ⟨⟩)) ?_
    intro task member
    rcases List.mem_append.mp member with old | new
    · exact keyed.tasks task old
    · cases List.mem_singleton.mp new
      exact held _ List.mem_cons_self

theorem Keyed.returnSession (keyed : s.Keyed) {seq id} (known : s.Known (seq, id)) (now) :
    Keyed { s with pool := s.pool.returnSession seq id now } := by
  unfold IdleSessionPool.returnSession
  split_ifs with listed
  · exact keyed
  · refine ⟨keyed.counted, ?_, keyed.active, keyed.calls, keyed.tasks, ?_⟩
    · intro entry member
      rcases List.mem_append.mp member with old | new
      · exact keyed.pool entry old
      · cases List.mem_singleton.mp new
        exact known
    · rw [List.map_append, List.map_singleton, List.nodup_append]
      refine ⟨keyed.distinct, List.nodup_singleton _, ?_⟩
      intro number member other new same
      cases List.mem_singleton.mp new
      obtain ⟨entry, stored, rfl⟩ := List.mem_map.mp member
      exact listed (List.any_eq_true.mpr ⟨entry, stored, by simpa using same⟩)

/-- An idle-return task moves. -/
theorem Keyed.task (keyed : s.Keyed) {i task} (found : s.idleTasks[i]? = some task) (pc : IdlePc) :
    Keyed { s with idleTasks := s.idleTasks.set i { task with pc := pc } } := by
  refine keyed.of_same rfl rfl rfl (List.Subset.refl _) keyed.calls fun other member => ?_
  rcases List.mem_or_eq_of_mem_set member with old | rfl
  · exact keyed.tasks other old
  · exact keyed.tasks task (List.mem_of_getElem? found)

theorem keyed_step {a} (keyed : s.Keyed) (stepped : s.step config a = some t) : t.Keyed := by
  cases step_move stepped with
  | creates =>
    refine keyed.of_same rfl rfl rfl (List.Subset.refl _) ?_ keyed.tasks
    intro pc member
    rcases List.mem_append.mp member with old | new
    · exact keyed.calls pc old
    · cases List.mem_singleton.mp new
      rintro _ ⟨⟩
  | calls found moves => exact moves.touches.keyed keyed found
  | idles found => exact keyed.task found _
  | returns found =>
    have known := keyed.tasks _ (List.mem_of_getElem? found)
    exact (keyed.returnSession known s.now).task found .finished
  | ticks =>
    have perm := (IdleSessionPool.cleanupStale_exact s.pool s.now config.idleSessionTimeout config.minIdleSessions).2
    have distinct := (perm.map IdleEntry.seq).nodup_iff.mpr keyed.distinct
    rw [List.map_append] at distinct
    have shrunk := keyed.shrink (fun entry member => perm.subset (List.mem_append_right _ member))
      (List.nodup_append.mp distinct).2.1
    exact shrunk.of_same rfl rfl rfl (List.Subset.refl _) shrunk.calls shrunk.tasks
  | cleans _ terminated | cleaned _ terminated =>
    have kept := keyed.terminate terminated
    exact kept.of_same rfl rfl rfl (List.Subset.refl _) kept.calls kept.tasks
  | removes | announces | exits | closes | clears => exact keyed.modify _ _
  | forgets =>
    exact keyed.of_same rfl rfl rfl (fun _ member => swapRemove_mem member) keyed.calls keyed.tasks
  | elapses => exact keyed.of_same rfl rfl rfl (List.Subset.refl _) keyed.calls keyed.tasks

end ClientState

end AnyTls
