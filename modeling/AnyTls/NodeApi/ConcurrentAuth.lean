import AnyTls.NodeApi.Retirement

/-! `authenticate` calls interleaved with `replace`. A call looks the hash up
under the read lock, checks the entry, reads its generation and counts the
connection, and a replace may come between any two of these. A password that is
replaced between the lookup and the reading of the generation lives on. -/
namespace AnyTls

inductive AuthPhase where
  | begun
  | lookedUp (entry : EntryId)
  | checked (entry : EntryId)
  | captured (user : AuthedUser)
  | authed (user : AuthedUser)
  | refused
deriving DecidableEq, Repr

structure AuthCall where
  passwordHash : Bytes
  phase : AuthPhase
deriving DecidableEq, Repr

structure AuthState where
  registry : UserRegistry
  calls : List AuthCall

inductive AuthAction where
  | replace (specs : List UserSpec)
  | call (passwordHash : Bytes)
  /-- the next step of one call; `now` is what the clock shows it -/
  | advance (call : Nat) (now : Int64)

def AuthAction.specs? : AuthAction → Option (List UserSpec)
  | .replace specs => some specs
  | _ => none

namespace AuthState
variable (hashPassword : String → PasswordHash)

def new : AuthState := ⟨UserRegistry.new, []⟩

/-- The steps of `authenticate` and `AuthedUser::new`. -/
def advance (registry : UserRegistry) (call : AuthCall) (now : Int64) :
    Option (AuthPhase × UserRegistry) :=
  match call.phase with
  | .begun =>
    match registry.lookupHash call.passwordHash with
    | some id => some (.lookedUp id, registry)
    | none => some (.refused, registry)
  | .lookedUp id => (registry.heap[id]?).map fun entry =>
    (if (entry.denyReasonAt now).isSome then .refused else .checked id, registry)
  | .checked id => (registry.heap[id]?).map fun entry =>
    (.captured ⟨id, entry.generation⟩, registry)
  | .captured user => some (.authed user, registry.connect user.entry)
  | .authed _ | .refused => none

def step (s : AuthState) : AuthAction → Option AuthState
  | .replace specs => some { s with registry := s.registry.replace hashPassword specs }
  | .call passwordHash => some { s with calls := s.calls ++ [⟨passwordHash, .begun⟩] }
  | .advance i now =>
    (s.calls[i]?).bind fun call => (advance s.registry call now).map fun (phase, registry) =>
      ⟨registry, s.calls.set i { call with phase := phase }⟩

end AuthState

/-- The session a call holds, or would hold if it read the generation now. -/
def AuthCall.user? (call : AuthCall) (registry : UserRegistry) : Option AuthedUser :=
  match call.phase with
  | .lookedUp id | .checked id => (registry.heap[id]?).map fun entry => ⟨id, entry.generation⟩
  | .captured user | .authed user => some user
  | .begun | .refused => none

/-- The call has looked its entry up and not yet read its generation. -/
def AuthCall.window? (call : AuthCall) : Option EntryId :=
  match call.phase with
  | .lookedUp id | .checked id => some id
  | _ => none

/-- The replace gives the user of this entry another password. -/
def UserRegistry.Rekeys (hashPassword : String → PasswordHash) (registry : UserRegistry)
    (specs : List UserSpec) (id : EntryId) : Prop :=
  ∃ entry spec, registry.heap[id]? = some entry ∧
    registry.index.byEmail.lookup entry.email = some id ∧
    (userSet hashPassword specs).lookup entry.email = some spec ∧
    registry.index.byHash.lookup (hashPassword spec.password) ≠ some id

/-- A replace has distinct emails and re-keys no entry that a call in progress
has looked up but whose generation it has yet to read. -/
def Undisturbed (hashPassword : String → PasswordHash) (s : AuthState) : AuthAction → Prop
  | .replace specs => (specs.map (·.email)).Nodup ∧
    ∀ call ∈ s.calls, ∀ id, call.window? = some id → ¬ s.registry.Rekeys hashPassword specs id
  | _ => True

section
variable {hashPassword : String → PasswordHash} {registry : UserRegistry} {s t : AuthState}

open UserRegistry

theorem AuthCall.user?_modify (call : AuthCall) (id) {f} (neutral : UserEntry.Neutral f) :
    call.user? (registry.modify id f) = call.user? registry := by
  have read (other : EntryId) :
      ((registry.modify id f).heap[other]?).map (fun entry => AuthedUser.mk other entry.generation) =
        (registry.heap[other]?).map fun entry => AuthedUser.mk other entry.generation := by
    cases stored : registry.heap[other]? with
    | none => simp [UserRegistry.modify, List.getElem?_modify, stored]
    | some entry =>
      rw [modify_heap_self other stored]
      split_ifs <;> simp [(neutral entry).2.1]
  unfold AuthCall.user?
  cases call.phase <;> first | rfl | exact read _

/-- A replace that does not re-key the entry leaves what the call will read. -/
theorem AuthCall.user?_replace {users} (rep : registry.Represents hashPassword users) {specs}
    (distinct : (specs.map (·.email)).Nodup) (call : AuthCall) {user}
    (quiet : ∀ id, call.window? = some id → ¬ registry.Rekeys hashPassword specs id)
    (held : call.user? registry = some user) :
    call.user? (registry.replace hashPassword specs) = some user := by
  have unmoved {id : EntryId} {entry : UserEntry} (stored : registry.heap[id]? = some entry)
      (quiet : ¬ registry.Rekeys hashPassword specs id) :
      ∃ after, (registry.replace hashPassword specs).heap[id]? = some after ∧
        after.generation = entry.generation := by
    refine ⟨_, replace_heap rep distinct stored, ?_⟩
    unfold fate
    split_ifs with listed
    · cases enrolled : (userSet hashPassword specs).lookup entry.email with
      | none => rfl
      | some spec =>
        have same : registry.index.byHash.lookup (hashPassword spec.password) = some id := by
          by_contra moved
          exact quiet ⟨entry, spec, stored, listed, enrolled, moved⟩
        simp [same, UserEntry.reissue, UserEntry.applyLimits]
    · rfl
  unfold AuthCall.user? at held ⊢
  unfold AuthCall.window? at quiet
  cases phase : call.phase with
  | lookedUp id | checked id =>
    simp only [phase, Option.some.injEq, forall_eq'] at held quiet ⊢
    obtain ⟨entry, stored, rfl⟩ := Option.map_eq_some_iff.mp held
    obtain ⟨after, stored', same⟩ := unmoved stored quiet
    rw [stored', Option.map_some, same]
  | captured other | authed other => simpa only [phase] using held
  | begun | refused => simp only [phase] at held; cases held

/-- What one step of a call does: the entry and the session it stands for stay,
or come from the lookup. -/
theorem AuthState.advance_cases (hashPassword : String → PasswordHash) {call now phase after}
    (advanced : AuthState.advance registry call now = some (phase, after)) :
    phase ≠ .begun ∧ registry.Evolves hashPassword none after ∧
    (∀ id, AuthCall.window? ⟨call.passwordHash, phase⟩ = some id →
      call.window? = some id ∨ registry.lookupHash call.passwordHash = some id) ∧
    ∀ user, AuthCall.user? ⟨call.passwordHash, phase⟩ registry = some user →
      call.user? registry = some user ∨
      (call.phase = .begun ∧ registry.lookupHash call.passwordHash = some user.entry ∧
        ∃ entry, registry.heap[user.entry]? = some entry ∧ user = ⟨user.entry, entry.generation⟩) := by
  unfold AuthState.advance at advanced
  cases current : call.phase with
  | begun =>
    simp only [current] at advanced
    cases found : registry.lookupHash call.passwordHash with
    | none =>
      simp only [found, Option.some.injEq, Prod.mk.injEq] at advanced
      obtain ⟨rfl, rfl⟩ := advanced
      exact ⟨by simp, evolves_refl, by simp [AuthCall.window?], by simp [AuthCall.user?]⟩
    | some id =>
      simp only [found, Option.some.injEq, Prod.mk.injEq] at advanced
      obtain ⟨rfl, rfl⟩ := advanced
      refine ⟨by simp, evolves_refl, fun other seen => .inr seen, fun user held => .inr ⟨rfl, ?_⟩⟩
      obtain ⟨entry, stored, rfl⟩ := Option.map_eq_some_iff.mp held
      exact ⟨rfl, entry, stored, rfl⟩
  | lookedUp id =>
    simp only [current] at advanced
    obtain ⟨entry, stored, same⟩ := Option.map_eq_some_iff.mp advanced
    cases same
    split_ifs
    · exact ⟨by simp, evolves_refl, by simp [AuthCall.window?], by simp [AuthCall.user?]⟩
    · exact ⟨by simp, evolves_refl, fun other seen => .inl (by simpa [AuthCall.window?, current] using seen),
        fun user held => .inl (by simpa [AuthCall.user?, current] using held)⟩
  | checked id =>
    simp only [current] at advanced
    obtain ⟨entry, stored, same⟩ := Option.map_eq_some_iff.mp advanced
    cases same
    exact ⟨by simp, evolves_refl, by simp [AuthCall.window?],
      fun user held => .inl (by simpa [AuthCall.user?, current, stored] using held)⟩
  | captured user =>
    simp only [current, Option.some.injEq, Prod.mk.injEq] at advanced
    obtain ⟨rfl, rfl⟩ := advanced
    exact ⟨by simp, connect_evolves _, by simp [AuthCall.window?],
      fun other held => .inl (by simpa [AuthCall.user?, current] using held)⟩
  | authed user | refused => simp [current] at advanced

/-- A step is a replace, a new call, or one step of the call at its place. -/
theorem AuthState.step_cases {a} (stepped : s.step hashPassword a = some t) :
    (∃ specs, a = .replace specs ∧ t = ⟨s.registry.replace hashPassword specs, s.calls⟩) ∨
    (∃ passwordHash, a = .call passwordHash ∧ t = ⟨s.registry, s.calls ++ [⟨passwordHash, .begun⟩]⟩) ∨
    (∃ i now call phase registry, a = .advance i now ∧ s.calls[i]? = some call ∧
      AuthState.advance s.registry call now = some (phase, registry) ∧
      t = ⟨registry, s.calls.set i ⟨call.passwordHash, phase⟩⟩) := by
  cases a with
  | replace specs => cases stepped; exact .inl ⟨specs, rfl, rfl⟩
  | call passwordHash => cases stepped; exact .inr (.inl ⟨passwordHash, rfl, rfl⟩)
  | advance i now =>
    obtain ⟨call, placed, moved⟩ := Option.bind_eq_some_iff.mp stepped
    obtain ⟨⟨phase, registry⟩, advanced, rfl⟩ := Option.map_eq_some_iff.mp moved
    exact .inr (.inr ⟨i, now, call, phase, registry, rfl, placed, advanced, rfl⟩)

/-- Every entry a call has looked up is there to be read. -/
def AuthState.Allocated (s : AuthState) : Prop :=
  ∀ (i : Nat) (call : AuthCall) (id : EntryId), s.calls[i]? = some call →
    call.window? = some id → ∃ entry, s.registry.heap[id]? = some entry

theorem AuthCall.user?_exists {call : AuthCall} {other user}
    (allocated : ∀ id, call.window? = some id → ∃ entry, registry.heap[id]? = some entry)
    (held : call.user? other = some user) : ∃ user, call.user? registry = some user := by
  unfold AuthCall.user? at held ⊢
  unfold AuthCall.window? at allocated
  cases phase : call.phase with
  | lookedUp id | checked id =>
    obtain ⟨entry, stored⟩ := allocated id (by simp only [phase])
    exact ⟨⟨id, entry.generation⟩, by simp [stored]⟩
  | captured user | authed user => exact ⟨user, rfl⟩
  | begun | refused => simp only [phase] at held; cases held

/-- Where the call at a place came from: the same call before the step with the
same session, or one that has just looked its entry up. -/
theorem AuthState.step_origin {a : AuthAction} {users : UserSet} {i : Nat} {call : AuthCall}
    {user : AuthedUser} (rep : s.registry.Represents hashPassword users) (allocated : s.Allocated)
    (calm : Undisturbed hashPassword s a) (stepped : s.step hashPassword a = some t)
    (placed : t.calls[i]? = some call) (held : call.user? t.registry = some user) :
    ∃ before, s.calls[i]? = some before ∧ before.passwordHash = call.passwordHash ∧
      (before.user? s.registry = some user ∨
        (before.phase = .begun ∧ s.registry.lookupHash call.passwordHash = some user.entry ∧
          ∃ entry, s.registry.heap[user.entry]? = some entry ∧
            user = ⟨user.entry, entry.generation⟩)) := by
  rcases AuthState.step_cases stepped with ⟨specs, rfl, rfl⟩ | ⟨passwordHash, rfl, rfl⟩ |
    ⟨j, now, before, phase, registry, rfl, started, advanced, rfl⟩
  · obtain ⟨distinct, quiet⟩ := calm
    obtain ⟨user', held'⟩ := AuthCall.user?_exists (fun id => allocated i call id placed) held
    have same := AuthCall.user?_replace rep distinct call
      (quiet call (List.mem_of_getElem? placed)) held'
    cases same.symm.trans held
    exact ⟨call, placed, rfl, .inl held'⟩
  · rcases Nat.lt_or_ge i s.calls.length with old | new
    · rw [List.getElem?_append_left old] at placed
      exact ⟨call, placed, rfl, .inl held⟩
    · rw [List.getElem?_append_right new] at placed
      rw [List.getElem?_singleton] at placed
      split_ifs at placed
      cases placed
      simp [AuthCall.user?] at held
  · obtain ⟨-, ⟨id, f, neutral, rfl⟩, -, origin⟩ := AuthState.advance_cases hashPassword advanced
    rw [AuthCall.user?_modify call id neutral] at held
    by_cases same : j = i
    · subst same
      rw [List.getElem?_set_self (List.getElem?_eq_some_iff.mp started).1, Option.some.injEq] at placed
      subst placed
      exact ⟨before, started, rfl, origin user held⟩
    · rw [List.getElem?_set_ne same] at placed
      exact ⟨call, placed, rfl, .inl held⟩

theorem AuthState.step_evolves {a} (stepped : s.step hashPassword a = some t) :
    s.registry.Evolves hashPassword a.specs? t.registry := by
  rcases AuthState.step_cases stepped with ⟨specs, rfl, rfl⟩ | ⟨passwordHash, rfl, rfl⟩ |
    ⟨j, now, before, phase, registry, rfl, started, advanced, rfl⟩
  · rfl
  · exact evolves_refl
  · exact (AuthState.advance_cases hashPassword advanced).2.1

theorem undisturbed_distinct {a} (calm : Undisturbed hashPassword s a) :
    ∀ specs ∈ a.specs?, (specs.map (·.email)).Nodup := by
  cases a with
  | replace specs => rintro _ ⟨⟩; exact calm.1
  | call _ | advance _ _ => rintro _ ⟨⟩

theorem lookupHash_eq {passwordHash id} (found : registry.lookupHash passwordHash = some id) :
    ∃ hash : PasswordHash, passwordHash = hash.val ∧ registry.index.byHash.lookup hash = some id := by
  unfold UserRegistry.lookupHash at found
  split_ifs at found with sized
  exact ⟨⟨passwordHash, sized⟩, rfl, found⟩

/-- What holds whenever no replace disturbs a call: the indices describe the
current user set, and the session of every call has a standing. -/
structure Consistent (hashPassword : String → PasswordHash) (s : AuthState) (users : UserSet)
    (replaces : Nat) : Prop where
  represents : s.registry.Represents hashPassword users
  allocated : s.Allocated
  sessions : ∀ (i : Nat) (call : AuthCall) (user : AuthedUser), s.calls[i]? = some call →
    call.user? s.registry = some user →
    ∃ hash email retired entry bumps, call.passwordHash = hash.val ∧ bumps ≤ replaces ∧
      Standing hashPassword s.registry users user email hash retired entry bumps

theorem stored_evolves {users : UserSet} {next : UserRegistry} {replaced : Option (List UserSpec)}
    (rep : registry.Represents hashPassword users)
    (distinct : ∀ specs ∈ replaced, (specs.map (·.email)).Nodup)
    (evolves : registry.Evolves hashPassword replaced next) {id : EntryId} {entry : UserEntry}
    (stored : registry.heap[id]? = some entry) :
    ∃ after, next.heap[id]? = some after ∧ after.email = entry.email := by
  cases replaced with
  | some specs =>
    rw [evolves]
    exact ⟨_, replace_heap rep (distinct specs rfl) stored, fate_email rfl⟩
  | none =>
    obtain ⟨_, f, neutral, rfl⟩ := evolves
    refine ⟨_, modify_heap_self id stored, ?_⟩
    split_ifs
    · exact (neutral entry).1
    · rfl

theorem allocated_step {users : UserSet} {a : AuthAction}
    (rep : s.registry.Represents hashPassword users) (allocated : s.Allocated)
    (calm : Undisturbed hashPassword s a) (stepped : s.step hashPassword a = some t) :
    t.Allocated := by
  intro i call id placed seen
  suffices ∃ entry, s.registry.heap[id]? = some entry by
    obtain ⟨entry, stored⟩ := this
    obtain ⟨after, stored', -⟩ :=
      stored_evolves rep (undisturbed_distinct calm) (AuthState.step_evolves stepped) stored
    exact ⟨after, stored'⟩
  rcases AuthState.step_cases stepped with ⟨specs, rfl, rfl⟩ | ⟨passwordHash, rfl, rfl⟩ |
    ⟨j, now, before, phase, registry, rfl, started, advanced, rfl⟩
  · exact allocated i call id placed seen
  · rcases Nat.lt_or_ge i s.calls.length with old | new
    · rw [List.getElem?_append_left old] at placed
      exact allocated i call id placed seen
    · rw [List.getElem?_append_right new, List.getElem?_singleton] at placed
      split_ifs at placed
      cases placed
      simp [AuthCall.window?] at seen
  · by_cases same : j = i
    · subst same
      rw [List.getElem?_set_self (List.getElem?_eq_some_iff.mp started).1, Option.some.injEq] at placed
      subst placed
      rcases (AuthState.advance_cases hashPassword advanced).2.2.1 id seen with old | found
      · exact allocated j before id started old
      · obtain ⟨hash, -, found⟩ := lookupHash_eq found
        obtain ⟨email, -, listed⟩ := (rep.keyed hash id).mp found
        obtain ⟨_, entry, -, -, stored, -⟩ := rep.live listed
        exact ⟨entry, stored⟩
    · rw [List.getElem?_set_ne same] at placed
      exact allocated i call id placed seen

theorem Consistent.step {users : UserSet} {replaces : Nat} {a : AuthAction}
    (consistent : Consistent hashPassword s users replaces) (calm : Undisturbed hashPassword s a)
    (stepped : s.step hashPassword a = some t) :
    Consistent hashPassword t (usersAfter hashPassword users a.specs?)
      (replaces + a.specs?.toList.length) where
  represents := consistent.represents.evolve (undisturbed_distinct calm) (AuthState.step_evolves stepped)
  allocated := allocated_step consistent.represents consistent.allocated calm stepped
  sessions i call user placed held := by
    have rep := consistent.represents
    obtain ⟨before, started, same, origin⟩ :=
      AuthState.step_origin rep consistent.allocated calm stepped placed held
    have standing : ∃ hash email retired entry bumps, call.passwordHash = hash.val ∧
        bumps ≤ replaces ∧
        Standing hashPassword s.registry users user email hash retired entry bumps := by
      rcases origin with carried | ⟨-, found, entry, stored, captured⟩
      · rw [← same]
        exact consistent.sessions i before user started carried
      · obtain ⟨hash, hashed, found⟩ := lookupHash_eq found
        refine ⟨hash, entry.email, False, entry, 0, hashed, Nat.zero_le _, ?_⟩
        rw [captured]
        exact Standing.start rep found stored
    obtain ⟨hash, email, retired, entry, bumps, hashed, bounded, standing⟩ := standing
    obtain ⟨entry', bumps', bounded', standing'⟩ :=
      standing.evolve rep (undisturbed_distinct calm) (AuthState.step_evolves stepped)
    exact ⟨hash, email, _, entry', bumps', hashed, by omega, standing'⟩

/-- A session the call may hold for `id`, by that hash, is retired. -/
def Cut (hashPassword : String → PasswordHash) (hash : PasswordHash) (id : EntryId) (i : Nat)
    (s : AuthState) (users : UserSet) (replaces : Nat) : Prop :=
  ∀ (call : AuthCall) (user : AuthedUser), s.calls[i]? = some call →
    call.passwordHash = hash.val → call.user? s.registry = some user → user.entry = id →
    ∃ email entry bumps, bumps ≤ replaces ∧
      Standing hashPassword s.registry users user email hash True entry bumps

/-- The call is past its lookup, or its lookup will not find `id` now. -/
def Blocked (hash : PasswordHash) (id : EntryId) (i : Nat) (s : AuthState) : Prop :=
  (∃ call, s.calls[i]? = some call ∧ call.phase ≠ .begun) ∨
    s.registry.lookupHash hash.val ≠ some id

theorem cut_step {hash : PasswordHash} {id : EntryId} {i : Nat} {users : UserSet} {replaces : Nat}
    {a : AuthAction} (consistent : Consistent hashPassword s users replaces)
    (cut : Cut hashPassword hash id i s users replaces) (blocked : Blocked hash id i s)
    (calm : Undisturbed hashPassword s a) (stepped : s.step hashPassword a = some t) :
    Cut hashPassword hash id i t (usersAfter hashPassword users a.specs?)
      (replaces + a.specs?.toList.length) := by
  intro call user placed hashed held same
  obtain ⟨before, started, sameHash, origin⟩ :=
    AuthState.step_origin consistent.represents consistent.allocated calm stepped placed held
  rcases origin with carried | ⟨fresh, found, -⟩
  · obtain ⟨email, entry, bumps, bounded, standing⟩ :=
      cut before user started (sameHash.trans hashed) carried same
    obtain ⟨entry', bumps', bounded', standing'⟩ := standing.evolve consistent.represents
      (undisturbed_distinct calm) (AuthState.step_evolves stepped)
    rw [true_or] at standing'
    exact ⟨email, entry', bumps', by omega, standing'⟩
  · rcases blocked with ⟨other, started', past⟩ | elsewhere
    · cases started.symm.trans started'
      exact absurd fresh past
    · rw [hashed, same] at found
      exact absurd found elsewhere

theorem past_lookup_step {i : Nat} {a : AuthAction}
    (past : ∃ call, s.calls[i]? = some call ∧ call.phase ≠ .begun)
    (stepped : s.step hashPassword a = some t) :
    ∃ call, t.calls[i]? = some call ∧ call.phase ≠ .begun := by
  obtain ⟨call, placed, past⟩ := past
  rcases AuthState.step_cases stepped with ⟨specs, rfl, rfl⟩ | ⟨passwordHash, rfl, rfl⟩ |
    ⟨j, now, before, phase, registry, rfl, started, advanced, rfl⟩
  · exact ⟨call, placed, past⟩
  · exact ⟨call, by rwa [List.getElem?_append_left (List.getElem?_eq_some_iff.mp placed).1], past⟩
  · by_cases same : j = i
    · subst same
      exact ⟨_, List.getElem?_set_self (List.getElem?_eq_some_iff.mp started).1,
        (AuthState.advance_cases hashPassword advanced).1⟩
    · exact ⟨call, by rwa [List.getElem?_set_ne same], past⟩

/-- The entry belongs to the email, and the email is not served by that hash. -/
def Unserved (hashPassword : String → PasswordHash) (email : String) (hash : PasswordHash)
    (id : EntryId) (s : AuthState) (users : UserSet) : Prop :=
  users.hashOf hashPassword email ≠ some hash ∧
    ∃ entry, s.registry.heap[id]? = some entry ∧ entry.email = email

theorem unserved_blocked {email hash id users} (rep : s.registry.Represents hashPassword users)
    (unserved : Unserved hashPassword email hash id s users) :
    s.registry.lookupHash hash.val ≠ some id := by
  intro found
  obtain ⟨away, entry, stored, named⟩ := unserved
  rw [UserRegistry.lookupHash, dif_pos hash.property] at found
  obtain ⟨other, hashed, listed⟩ := (rep.keyed hash id).mp found
  rw [← rep.entry_email listed stored, named] at hashed
  exact away hashed

/-- Some replace of the run gives the email this hash again. -/
def Restored (hashPassword : String → PasswordHash) (email : String) (hash : PasswordHash)
    (actions : List AuthAction) : Prop :=
  ∃ specs, AuthAction.replace specs ∈ actions ∧
    (userSet hashPassword specs).hashOf hashPassword email = some hash

theorem unserved_step {email : String} {hash : PasswordHash} {id : EntryId} {users : UserSet}
    {a : AuthAction} (rep : s.registry.Represents hashPassword users)
    (calm : Undisturbed hashPassword s a) (kept : ¬ Restored hashPassword email hash [a])
    (unserved : Unserved hashPassword email hash id s users)
    (stepped : s.step hashPassword a = some t) :
    Unserved hashPassword email hash id t (usersAfter hashPassword users a.specs?) := by
  obtain ⟨away, entry, stored, named⟩ := unserved
  obtain ⟨after, stored', same⟩ :=
    stored_evolves rep (undisturbed_distinct calm) (AuthState.step_evolves stepped) stored
  refine ⟨?_, after, stored', same.trans named⟩
  cases a with
  | replace specs => exact fun back => kept ⟨specs, List.mem_singleton.mpr rfl, back⟩
  | call _ | advance _ _ => exact away

theorem replaces_cons (a : AuthAction) (rest : List AuthAction) :
    ((a :: rest).filterMap (·.specs?)).length =
      a.specs?.toList.length + (rest.filterMap (·.specs?)).length := by
  cases shape : a.specs? <;> simp [shape, Nat.add_comm]

theorem consistent_run {users replaces actions} (consistent : Consistent hashPassword s users replaces)
    (calm : Transition.Along (AuthState.step hashPassword) (Undisturbed hashPassword) s actions)
    (path : Transition.run (AuthState.step hashPassword) s actions = some t) :
    ∃ users', Consistent hashPassword t users'
      (replaces + (actions.filterMap (·.specs?)).length) := by
  induction actions generalizing s users replaces with
  | nil => cases path; exact ⟨users, consistent⟩
  | cons a rest ih =>
    obtain ⟨u, stepped, onward⟩ := Transition.run_cons_some.mp path
    obtain ⟨users', final⟩ := ih (consistent.step calm.1 stepped) (calm.2 u stepped) onward
    exact ⟨users', by rwa [replaces_cons, ← Nat.add_assoc]⟩

theorem cut_run {hash : PasswordHash} {email : String} {id : EntryId} {i : Nat} {users : UserSet}
    {replaces : Nat} {actions : List AuthAction}
    (consistent : Consistent hashPassword s users replaces)
    (cut : Cut hashPassword hash id i s users replaces)
    (shut : (∃ call, s.calls[i]? = some call ∧ call.phase ≠ .begun) ∨
      (Unserved hashPassword email hash id s users ∧ ¬ Restored hashPassword email hash actions))
    (calm : Transition.Along (AuthState.step hashPassword) (Undisturbed hashPassword) s actions)
    (path : Transition.run (AuthState.step hashPassword) s actions = some t) :
    ∃ users', Cut hashPassword hash id i t users'
      (replaces + (actions.filterMap (·.specs?)).length) := by
  induction actions generalizing s users replaces with
  | nil => cases path; exact ⟨users, cut⟩
  | cons a rest ih =>
    obtain ⟨u, stepped, onward⟩ := Transition.run_cons_some.mp path
    have blocked : Blocked hash id i s :=
      shut.imp_right fun unserved => unserved_blocked consistent.represents unserved.1
    have shut' : (∃ call, u.calls[i]? = some call ∧ call.phase ≠ .begun) ∨
        (Unserved hashPassword email hash id u (usersAfter hashPassword users a.specs?) ∧
          ¬ Restored hashPassword email hash rest) := by
      rcases shut with past | ⟨unserved, lasting⟩
      · exact .inl (past_lookup_step past stepped)
      · refine .inr ⟨unserved_step consistent.represents calm.1 ?_ unserved stepped, ?_⟩
        · rintro ⟨specs, now, back⟩
          exact lasting ⟨specs, List.mem_cons.mpr (.inl (List.mem_singleton.mp now)), back⟩
        · rintro ⟨specs, later, back⟩
          exact lasting ⟨specs, List.mem_cons_of_mem _ later, back⟩
    obtain ⟨users', final⟩ := ih (consistent.step calm.1 stepped)
      (cut_step consistent cut blocked calm.1 stepped) shut' (calm.2 u stepped) onward
    exact ⟨users', by rwa [replaces_cons, ← Nat.add_assoc]⟩

theorem consistent_new : Consistent hashPassword AuthState.new ∅ 0 where
  represents := Represents.empty []
  allocated i call id placed := by simp [AuthState.new] at placed
  sessions i call user placed := by simp [AuthState.new] at placed

/-- The replace retires what the calls hold by the superseded hash. -/
theorem replace_cuts {users : UserSet} {replaces : Nat} {specs : List UserSpec} {email : String}
    {hash : PasswordHash} {id : EntryId} (consistent : Consistent hashPassword s users replaces)
    (calm : Undisturbed hashPassword s (.replace specs))
    (stepped : s.step hashPassword (.replace specs) = some t)
    (owner : s.registry.index.byEmail.lookup email = some id)
    (superseded : (userSet hashPassword specs).hashOf hashPassword email ≠ some hash) (i) :
    Cut hashPassword hash id i t (userSet hashPassword specs) (replaces + 1) := by
  intro call user placed hashed held same
  have rep := consistent.represents
  obtain ⟨before, started, sameHash, origin⟩ :=
    AuthState.step_origin rep consistent.allocated calm stepped placed held
  cases stepped
  cases started.symm.trans placed
  rcases origin with carried | ⟨fresh, -⟩
  · obtain ⟨hash', email', retired, entry, bumps, hashed', bounded, standing⟩ :=
      consistent.sessions i call user placed carried
    cases Subtype.ext (hashed.symm.trans hashed')
    have named : email' = email := by
      rw [← standing.named]
      exact rep.entry_email owner (same ▸ standing.stored)
    subst named
    obtain ⟨entry', bumps', bounded', standing'⟩ := standing.replace rep calm.1
    rw [eq_true superseded, or_true] at standing'
    exact ⟨email', entry', bumps', by omega, standing'⟩
  · simp [AuthCall.user?, fresh] at held

/-- Once a replace has left out the email or given it another password, no
session got with the old password for the email's entry is still good, whether
its call looked the entry up before that replace or looks it up later; only a
later replace that brings the old password back admits new ones. This holds in
every run in which no replace re-keys an entry between a call's lookup and its
reading of the generation. -/
theorem superseded_sessions_revoked (before after : List AuthAction) (specs : List UserSpec)
    (email : String) (hash : PasswordHash) (now : Int64)
    {s₁ s₂ s₃ : AuthState} {id : EntryId} {i : Nat} {user : AuthedUser}
    (few : ((before ++ .replace specs :: after).filterMap (·.specs?)).length < 2 ^ 64)
    (calm : Transition.Along (AuthState.step hashPassword) (Undisturbed hashPassword)
      AuthState.new (before ++ .replace specs :: after))
    (reached : Transition.run (AuthState.step hashPassword) AuthState.new before = some s₁)
    (replaced : s₁.step hashPassword (.replace specs) = some s₂)
    (path : Transition.run (AuthState.step hashPassword) s₂ after = some s₃)
    (owner : s₁.registry.index.byEmail.lookup email = some id)
    (superseded : (userSet hashPassword specs).hashOf hashPassword email ≠ some hash)
    (authed : s₃.calls[i]? = some ⟨hash.val, .authed user⟩) (holds : user.entry = id)
    (old : (∃ call, s₁.calls[i]? = some call ∧ call.phase ≠ .begun) ∨
      ¬ Restored hashPassword email hash after) :
    user.denyReason s₃.registry now = some .revoked := by
  obtain ⟨users, consistent⟩ := consistent_run consistent_new calm.append_left reached
  have onward := calm.append_right reached
  have cut := replace_cuts consistent onward.1 replaced owner superseded i
  have shut : (∃ call, s₂.calls[i]? = some call ∧ call.phase ≠ .begun) ∨
      (Unserved hashPassword email hash id s₂ (userSet hashPassword specs) ∧
        ¬ Restored hashPassword email hash after) := by
    refine old.imp (fun past => past_lookup_step past replaced) fun lasting => ⟨⟨superseded, ?_⟩, lasting⟩
    obtain ⟨_, entry, -, -, stored, -⟩ := consistent.represents.live owner
    obtain ⟨entry', stored', same⟩ := stored_evolves consistent.represents
      (undisturbed_distinct onward.1) (AuthState.step_evolves replaced) stored
    exact ⟨entry', stored', same.trans (consistent.represents.entry_email owner stored)⟩
  obtain ⟨_, final⟩ := cut_run (consistent.step onward.1 replaced) cut shut (onward.2 s₂ replaced) path
  obtain ⟨_, _, bumps, bounded, standing⟩ := final _ user authed rfl rfl holds
  have small : bumps < 2 ^ 64 := by
    rw [List.filterMap_append, List.length_append, replaces_cons] at few
    omega
  exact (standing.denyReason_iff small now).mpr trivial

end

/-- One call from its lookup to its end. -/
def signIn (password : String) : List AuthAction :=
  [.call (lengthHash password).val, .advance 0 0, .advance 0 0, .advance 0 0, .advance 0 0]

theorem rekeyed_session_revoked :
    ∃ s, Transition.run (AuthState.step lengthHash) AuthState.new
        (.replace [unlimited "a@x" "old password"] :: signIn "old password" ++
          [.replace [unlimited "a@x" "new"]]) = some s ∧
      AuthedUser.denyReason ⟨0, 0⟩ s.registry 0 = some .revoked := by
  have calm : Transition.Along (AuthState.step lengthHash) (Undisturbed lengthHash) AuthState.new
      (.replace [unlimited "a@x" "old password"] :: signIn "old password" ++
        [.replace [unlimited "a@x" "new"]]) := by
    refine .cons ⟨by decide, fun call mem => nomatch mem⟩ rfl <| .cons trivial rfl <|
      .cons trivial rfl <| .cons trivial rfl <| .cons trivial rfl <| .cons trivial rfl <|
      .cons ⟨by decide, ?_⟩ rfl trivial
    intro call mem id seen
    cases List.mem_singleton.mp mem
    cases seen
  exact ⟨_, rfl, superseded_sessions_revoked (i := 0)
    (.replace [unlimited "a@x" "old password"] :: signIn "old password") []
    [unlimited "a@x" "new"] "a@x" (lengthHash "old password") 0 (by decide) calm rfl rfl rfl rfl
    (by decide) rfl rfl (.inr (by rintro ⟨_, listed, -⟩; cases listed))⟩

/-- A call holds the entry when its user is re-keyed, and goes on to read the
generation of the new password. -/
def overtaken : List AuthAction :=
  [.replace [unlimited "a@x" "old password"], .call (lengthHash "old password").val, .advance 0 0,
    .replace [unlimited "a@x" "new"], .advance 0 0, .advance 0 0, .advance 0 0]

theorem overtaken_session_lives :
    ∃ s, Transition.run (AuthState.step lengthHash) AuthState.new overtaken = some s ∧
      s.registry.index.byEmail.lookup "a@x" = some 0 ∧
      (userSet lengthHash [unlimited "a@x" "new"]).hashOf lengthHash "a@x" ≠
        some (lengthHash "old password") ∧
      s.calls[0]? = some ⟨(lengthHash "old password").val, .authed ⟨0, 1⟩⟩ ∧
      AuthedUser.denyReason ⟨0, 1⟩ s.registry 0 = none :=
  ⟨_, rfl, by decide, by decide, by decide, by decide⟩

end AnyTls
