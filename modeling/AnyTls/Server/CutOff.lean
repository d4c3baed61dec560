import AnyTls.Server.Policing

/-! Revocation from the management API down to the streams. A connection whose user was revoked by a
`PUT /users` is denied for good, so that none of its stream handlers passes the check of its loop
again: one that was reading its destination may still get it, and no other reads any. -/
namespace AnyTls
variable {Address : Type}

/-! ### What a step does to the registry -/

/-- Accounting on entries, any number of times. -/
inductive UserRegistry.Keeps (registry : UserRegistry) : UserRegistry → Prop where
  | refl : Keeps registry registry
  | modify {after} (id f) : Keeps registry after → UserEntry.Neutral f → Keeps registry (after.modify id f)

namespace ServerConnection
variable {codec : AddressCodec Address} {config : ServerConfig} {stores stores' : Stores}
  {c next : ServerConnection Address} {action : ConnAction Address} {registry : UserRegistry}

theorem recordUp_keeps (c : ServerConnection Address) (bytes) (keeps : registry.Keeps stores.registry) :
    registry.Keeps (c.recordUp stores bytes).registry := by
  unfold recordUp
  split
  · exact keeps.modify _ _ fun _ => ⟨rfl, rfl, rfl, rfl, rfl⟩
  · split
    · exact keeps
    · exact keeps

theorem recordDown_keeps (c : ServerConnection Address) (bytes) (keeps : registry.Keeps stores.registry) :
    registry.Keeps (c.recordDown stores bytes).registry := by
  unfold recordDown
  split
  · exact keeps.modify _ _ fun _ => ⟨rfl, rfl, rfl, rfl, rfl⟩
  · split
    · exact keeps
    · exact keeps

theorem record_keeps (c : ServerConnection Address) (counted : Tally)
    (keeps : registry.Keeps stores.registry) :
    registry.Keeps (c.record stores counted).registry := by
  have upward : registry.Keeps (if counted.up = 0 then stores else c.recordUp stores counted.up).registry := by
    split
    · exact keeps
    · exact c.recordUp_keeps _ keeps
  unfold record
  simp only
  split
  · exact upward
  · exact c.recordDown_keeps _ upward

theorem release_keeps (c : ServerConnection Address) (keeps : registry.Keeps stores.registry) :
    registry.Keeps (c.release stores).registry := by
  unfold release
  split
  · exact keeps.modify _ _ fun _ => ⟨rfl, rfl, rfl, rfl, rfl⟩
  · exact keeps

theorem Advanced.keeps (advanced : Advanced config stores c action next stores') :
    stores.registry.Keeps stores'.registry := by
  cases advanced with
  | authenticates now authData phase after registry here moved =>
    rcases AuthState.advance_registry moved with ⟨user, -, -, rfl⟩ | ⟨rfl, -⟩
    · exact .modify _ _ .refl fun _ => ⟨rfl, rfl, rfl, rfl, rfl⟩
    · exact .refl
  | presents | padded | serves | opens | ends => exact .refl

theorem Moved.keeps (moved : Moved codec config stores c action next stores') :
    stores.registry.Keeps stores'.registry := by
  cases moved with
  | own advanced => exact advanced.keeps
  | task inside taken => exact c.record_keeps _ .refl

end ServerConnection

/-- A request keeps accounts, or replaces the user set by the one of its body. -/
theorem ApiCall.step_registry {hashPassword fromSlice token collected} {registry registry' : UserRegistry}
    {call after : ApiCall}
    (stepped : call.step hashPassword fromSlice token collected registry = some (after, registry')) :
    registry.Keeps registry' ∨ ∃ body : UsersPutBody, registry' = registry.replace hashPassword body.intoSpecs := by
  cases step_moved _ _ _ stepped with
  | routes | loads | lists | reports | rejects | counts | loadsUp | loadsDown => exact .inl .refl
  | replaces request bytes body => exact .inr ⟨body, rfl⟩
  | stores => exact .inl (.modify _ _ .refl fun _ => ⟨rfl, rfl, rfl, rfl, rfl⟩)

namespace ServerNode
variable {crates : ServerCrates Address} {config : ServerConfig} {s t : ServerNode Address} {a : ServerAction Address}

theorem Moved.registry (moved : Moved crates config s a t) :
    s.stores.registry.Keeps t.stores.registry ∨
      t.connections = s.connections ∧ ∃ body : UsersPutBody,
        t.stores.registry = s.stores.registry.replace crates.hashPassword body.intoSpecs := by
  cases moved with
  | accept | request | panel => exact .inl .refl
  | connection placed moved =>
    refine .inl ?_
    split
    · exact ServerConnection.release_keeps _ moved.keeps
    · exact moved.keeps
  | api placed stepped => exact (ApiCall.step_registry stepped).imp_right fun replaced => ⟨rfl, replaced⟩

end ServerNode

/-! ### Generations -/

namespace UserRegistry
variable {hashPassword : String → PasswordHash} {registry after : UserRegistry} {users : UserSet} {user : AuthedUser}
  {n : Nat}

theorem Keeps.represents (keeps : registry.Keeps after) (rep : registry.Represents hashPassword users) :
    after.Represents hashPassword users := by
  induction keeps with
  | refl => exact rep
  | modify id f _ neutral ih => exact ih.modify id neutral

/-- The user's entry has been re-keyed `bumps` times since the user read its generation. -/
structure Follows (registry : UserRegistry) (user : AuthedUser) (entry : UserEntry) (bumps : Nat) : Prop where
  stored : registry.heap[user.entry]? = some entry
  generation : entry.generation = user.generation + UInt64.ofNat bumps

theorem Keeps.entry (keeps : registry.Keeps after) {id : EntryId} {entry : UserEntry}
    (stored : registry.heap[id]? = some entry) : ∃ entry', after.heap[id]? = some entry' ∧
      entry'.generation = entry.generation ∧ entry'.revoked = entry.revoked := by
  induction keeps with
  | refl => exact ⟨entry, stored, rfl, rfl⟩
  | modify other f _ neutral ih =>
    obtain ⟨entry', stored', generation, revoked⟩ := ih
    refine ⟨_, modify_heap_self id stored', ?_, ?_⟩
    · split_ifs
      · exact (neutral entry').2.1.trans generation
      · exact generation
    · split_ifs
      · exact (neutral entry').2.2.1.trans revoked
      · exact revoked

/-- A replace re-keys an entry once or not at all, and never takes a revocation back. -/
theorem replace_entry (rep : registry.Represents hashPassword users) (body : UsersPutBody) {id : EntryId}
    {entry : UserEntry} (stored : registry.heap[id]? = some entry) :
    ∃ entry' bump, (registry.replace hashPassword body.intoSpecs).heap[id]? = some entry' ∧ bump ≤ 1 ∧
      entry'.generation = entry.generation + UInt64.ofNat bump ∧ (entry.revoked = true → entry'.revoked = true) := by
  have becomes := replace_heap rep body.intoSpecs_emails stored
  unfold fate at becomes
  split_ifs at becomes with listed
  · split at becomes
    · rename_i spec enrolled
      by_cases rekeyed : registry.index.byHash.lookup (hashPassword spec.password) = some id
      · exact ⟨_, 0, becomes, Nat.zero_le _, by simp [UserEntry.reissue, rekeyed, UserEntry.applyLimits],
          fun gone => by simpa [UserEntry.reissue, rekeyed, UserEntry.applyLimits] using gone⟩
      · exact ⟨_, 1, becomes, Nat.le_refl _, by simp [UserEntry.reissue, rekeyed, UserEntry.applyLimits],
          fun gone => by simpa [UserEntry.reissue, rekeyed, UserEntry.applyLimits] using gone⟩
    · exact ⟨_, 0, becomes, Nat.zero_le _, by simp [UserEntry.revoke], fun _ => rfl⟩
  · exact ⟨_, 0, becomes, Nat.zero_le _, by simp, fun gone => gone⟩

/-- What a step of the server can do to the registry. -/
def Changes (hashPassword : String → PasswordHash) (registry after : UserRegistry) : Prop :=
  registry.Keeps after ∨ ∃ body : UsersPutBody, after = registry.replace hashPassword body.intoSpecs

theorem Changes.represents (changes : registry.Changes hashPassword after)
    (rep : ∃ users, registry.Represents hashPassword users) : ∃ users, after.Represents hashPassword users := by
  obtain ⟨users, rep⟩ := rep
  rcases changes with keeps | ⟨body, rfl⟩
  · exact ⟨users, keeps.represents rep⟩
  · exact ⟨_, replace_represents rep body.intoSpecs_emails⟩

theorem Follows.changes {entry : UserEntry} {bumps : Nat} (follows : registry.Follows user entry bumps)
    (rep : ∃ users, registry.Represents hashPassword users) (changes : registry.Changes hashPassword after) :
    ∃ entry' bumps', after.Follows user entry' bumps' ∧ bumps ≤ bumps' ∧ bumps' ≤ bumps + 1 ∧
      (entry.revoked = true → entry'.revoked = true) := by
  rcases changes with keeps | ⟨body, rfl⟩
  · obtain ⟨entry', stored, generation, revoked⟩ := keeps.entry follows.stored
    exact ⟨entry', bumps, ⟨stored, generation.trans follows.generation⟩, Nat.le_refl _, Nat.le_succ _,
      fun gone => revoked.trans gone⟩
  · obtain ⟨users, rep⟩ := rep
    obtain ⟨entry', bump, stored, one, generation, revoked⟩ := replace_entry rep body follows.stored
    refine ⟨entry', bumps + bump, ⟨stored, ?_⟩, Nat.le_add_right _ _, Nat.add_le_add_left one _, revoked⟩
    rw [generation, follows.generation, UInt64.ofNat_add, UInt64.add_assoc]

/-- While the generation cannot have come round, the user is revoked exactly if its entry is or
has been re-keyed. -/
theorem Follows.denyReason_iff {entry bumps} (follows : registry.Follows user entry bumps)
    (few : bumps < 2 ^ 64) (now : Int64) :
    user.denyReason registry now = some .revoked ↔ entry.revoked = true ∨ 0 < bumps := by
  simp only [AuthedUser.denyReason, follows.stored, Option.bind_some, follows.generation,
    Standing.generation_moved few]
  by_cases moved : 0 < bumps
  · simp [moved]
  · simp [moved, UserEntry.denyReasonAt_revoked]

end UserRegistry

/-! ### The user of a connection -/

namespace ServerConnection
variable {codec : AddressCodec Address} {config : ServerConfig} {stores stores' : Stores}
  {c next : ServerConnection Address} {action : ConnAction Address} {user : AuthedUser}

/-- Not authenticated yet. -/
def unadmitted (c : ServerConnection Address) : Bool :=
  match c.phase with
  | .reading | .authenticating _ _ => true
  | _ => false

/-- A connection has a user and stream handlers only once it is admitted. -/
def Fresh (c : ServerConnection Address) : Prop := c.unadmitted = true → c.user = none ∧ c.tasks = []

theorem admitted_unadmitted (c : ServerConnection Address) (authData) (user : Option AuthedUser) :
    (c.admitted authData user).unadmitted = false := by
  unfold admitted unadmitted
  by_cases padding : BigEndian.value (authData.drop 32) > 0 <;> simp [padding]

theorem Fresh.presented (fresh : c.Fresh) (here : c.phase = .reading) (authData) :
    (c.presented config authData).Fresh := by
  unfold ServerConnection.presented
  split
  · split
    · split
      · exact fun early => nomatch (c.admitted_unadmitted authData none).symm.trans early
      · exact nofun
    · exact fun _ => fresh (by rw [unadmitted, here])
  · exact nofun

theorem Fresh.authenticated (fresh : c.Fresh) {authData phase}
    (here : c.phase = .authenticating authData phase) (after : AuthPhase) :
    (c.authenticated authData after).Fresh := by
  have early := fresh (by rw [unadmitted, here])
  cases after with
  | authed user => exact fun still => nomatch (c.admitted_unadmitted authData (some user)).symm.trans still
  | refused => exact nofun
  | begun | lookedUp | checked | captured => exact fun _ => early

theorem Fresh.moved (fresh : c.Fresh) (moved : Moved codec config stores c action next stores') : next.Fresh := by
  cases moved with
  | own advanced =>
    cases advanced with
    | presents authData here => exact fresh.presented here authData
    | authenticates now authData phase after registry here => exact fresh.authenticated here after
    | opens peerVersion here => exact fun early => by simp [unadmitted, here] at early
    | padded | serves | ends => exact nofun
  | task inside taken =>
    intro early
    rw [(fresh early).2] at inside
    cases inside

/-- The user of an admitted connection stays. -/
theorem Moved.keeps_user (moved : Moved codec config stores c action next stores') (fresh : c.Fresh)
    (authed : c.user = some user) : next.user = some user := by
  cases moved with
  | own advanced =>
    cases advanced with
    | presents authData here => cases (fresh (by rw [unadmitted, here])).1.symm.trans authed
    | authenticates now authData phase after registry here =>
      cases (fresh (by rw [unadmitted, here])).1.symm.trans authed
    | padded | serves | opens | ends => exact authed
  | task => exact authed

/-- The user that holds a generation: one that is authenticated, or about to be. -/
def guard? (c : ServerConnection Address) : Option AuthedUser :=
  match c.phase with
  | .authenticating _ (.captured user) => some user
  | _ => c.user

theorem guard?_admitted (c : ServerConnection Address) (authData) (user : Option AuthedUser) :
    (c.admitted authData user).guard? = user := by
  unfold admitted guard?
  by_cases padding : BigEndian.value (authData.drop 32) > 0 <;> simp [padding]

theorem guard?_of_user (fresh : c.Fresh) (authed : c.user = some user) : c.guard? = some user := by
  unfold guard?
  split
  · rename_i here
    cases (fresh (by rw [unadmitted, here])).1.symm.trans authed
  · exact authed

/-- A user comes from the connection, or has just read the generation of its entry. -/
theorem Moved.guard (moved : Moved codec config stores c action next stores') (fresh : c.Fresh)
    (held : next.guard? = some user) :
    c.guard? = some user ∨ ∃ entry, stores.registry.heap[user.entry]? = some entry ∧
      entry.generation = user.generation := by
  cases moved with
  | own advanced =>
    cases advanced with
    | presents authData here =>
      have none := (fresh (by rw [unadmitted, here])).1
      unfold presented at held
      split at held
      · split at held
        · split at held
          · rw [guard?_admitted] at held
            cases held
          · cases none.symm.trans held
        · cases none.symm.trans held
      · cases none.symm.trans held
    | authenticates now authData phase after registry here moved =>
      have none := (fresh (by rw [unadmitted, here])).1
      unfold AuthState.advance at moved
      cases phase with
      | begun =>
        simp only at moved
        split at moved <;> cases moved <;> cases none.symm.trans held
      | lookedUp id =>
        obtain ⟨entry, -, same⟩ := Option.map_eq_some_iff.mp moved
        cases same
        split at held <;> cases none.symm.trans held
      | checked id =>
        obtain ⟨entry, stored, same⟩ := Option.map_eq_some_iff.mp moved
        cases same
        cases held
        exact .inr ⟨entry, stored, rfl⟩
      | captured captured =>
        cases moved
        rw [authenticated, guard?_admitted] at held
        exact .inl (by rw [guard?, here]; exact held)
      | authed | refused => cases moved
    | padded paddingData clientId here => exact .inl (by rw [guard?, here]; exact held)
    | serves now here => exact .inl (by rw [guard?, here]; exact held)
    | opens peerVersion here =>
      refine .inl ?_
      rw [guard?, here]
      rwa [guard?, here] at held
    | ends _ here =>
      refine .inl ?_
      have own : c.guard? = c.user := by
        rcases here with reading | owns
        · rw [guard?, reading]
        · unfold ownsContext at owns
          unfold guard?
          split at owns <;> simp_all
      rw [own]
      exact held
  | task => exact .inl held

end ServerConnection

/-! ### Destinations -/

/-- The handler is past its check and has yet to read its destination. -/
def Phase.awaiting : Phase Address → Nat
  | .retrieve _ _ => 1
  | _ => 0

theorem Closes.awaiting {pc outcome} {before after : Phase Address}
    (closes : Closes before pc outcome after) : after.awaiting = 0 := by
  cases closes with
  | mainDone pc after result => cases after <;> cases result <;> rfl
  | _ => rfl

namespace Handler
variable {codec : AddressCodec Address} {h next : Handler Address} {action : HandlerAction}

theorem destinations_grow (stepped : h.step codec action = some next) : h.destinations <+: next.destinations := by
  cases step_moved stepped with
  | retrieve program held bytes pipe readFut polled here =>
    cases polled with
    | done destination => exact List.prefix_append _ _
    | pending | failed | panicked => exact List.prefix_refl _
  | session | quiet | close | request | relay | s2oPoll => exact List.prefix_refl _

/-- Unless the check lets it pass, a handler reads no destination but one it is reading. -/
theorem barred_step (stepped : h.step codec action = some next) (barred : action ≠ .approved true) :
    next.destinations.length + next.phase.awaiting ≤ h.destinations.length + h.phase.awaiting := by
  have settled {phase : Phase Address} (none : phase.awaiting = 0) :
      h.destinations.length + phase.awaiting ≤ h.destinations.length + h.phase.awaiting := by
    rw [none]
    exact Nat.le_add_right _ _
  cases step_moved stepped with
  | session event stream happened => exact Nat.le_refl _
  | quiet _ phase quiet =>
    refine settled ?_
    cases quiet with
    | approved => exact absurd rfl barred
    | created _ _ _ next => rcases next with rfl | rfl <;> rfl
    | _ => rfl
  | close _ pc phase closes => exact settled closes.awaiting
  | retrieve program held bytes pipe readFut polled here =>
    have one : h.phase.awaiting = 1 := by rw [here]; rfl
    rw [one]
    cases polled with
    | pending program held => exact Nat.le_refl _
    | done destination =>
      simp only [retrieved, List.length_append, List.length_singleton]
      split_ifs <;> exact Nat.le_refl _
    | failed | panicked => exact Nat.le_succ _
  | request program held bytes pipe readFut polled here => cases polled <;> exact settled rfl
  | relay => exact settled rfl
  | s2oPoll o2s cancel pipe readFut result here =>
    cases result with
    | ready bytes => cases bytes <;> exact settled rfl
    | pending | failed | panicked => exact settled rfl

end Handler

/-! ### A revoked user -/

namespace ServerNode
variable {crates : ServerCrates Address} {config : ServerConfig} {s t : ServerNode Address} {a : ServerAction Address}
  {n i : Nat} {user : AuthedUser}

theorem changes (stepped : s.step crates config a = some t) :
    s.stores.registry.Changes crates.hashPassword t.stores.registry :=
  (step_moved stepped).registry.imp_right fun replaced => replaced.2

/-- After at most `n` steps: every user of a connection follows its entry. -/
structure Tracked (hashPassword : String → PasswordHash) (n : Nat) (s : ServerNode Address) : Prop where
  represents : ∃ users, s.stores.registry.Represents hashPassword users
  fresh : ∀ c ∈ s.connections, c.Fresh
  follows : ∀ c ∈ s.connections, ∀ user, c.guard? = some user →
    ∃ entry bumps, s.stores.registry.Follows user entry bumps ∧ bumps ≤ n

theorem tracked_start (crates : ServerCrates Address) (panel) (users : UsersPutBody) :
    (start crates panel users).Tracked crates.hashPassword 0 where
  represents := ⟨_, UserRegistry.replace_represents (.empty []) users.intoSpecs_emails⟩
  fresh := fun _ member => absurd member List.not_mem_nil
  follows := fun _ member => absurd member List.not_mem_nil

theorem tracked_step (tracked : s.Tracked crates.hashPassword n) (stepped : s.step crates config a = some t) :
    t.Tracked crates.hashPassword (n + 1) := by
  have moved := step_moved stepped
  refine ⟨(changes stepped).represents tracked.represents, ?_, ?_⟩
  · intro c member
    rcases moved.connection_mem member with old | rfl | ⟨before, inside, action, stores, moves⟩
    · exact tracked.fresh c old
    · exact fun _ => ⟨rfl, rfl⟩
    · exact (tracked.fresh before inside).moved moves
  · intro c member user held
    obtain ⟨entry, bumps, follows, few⟩ : ∃ entry bumps, s.stores.registry.Follows user entry bumps ∧ bumps ≤ n := by
      rcases moved.connection_mem member with old | rfl | ⟨before, inside, action, stores, moves⟩
      · exact tracked.follows c old user held
      · cases held
      · rcases moves.guard (tracked.fresh before inside) held with same | ⟨entry, stored, generation⟩
        · exact tracked.follows before inside user same
        · exact ⟨entry, 0, ⟨stored, by simp [generation]⟩, Nat.zero_le _⟩
    obtain ⟨entry', bumps', follows', -, more, -⟩ := follows.changes tracked.represents (changes stepped)
    exact ⟨entry', bumps', follows', by omega⟩

theorem tracked_run {actions} (tracked : s.Tracked crates.hashPassword n)
    (path : Transition.run (step crates config) s actions = some t) :
    t.Tracked crates.hashPassword (n + actions.length) := by
  induction actions generalizing s n with
  | nil => cases path; exact tracked
  | cons a rest ih =>
    obtain ⟨u, stepped, onward⟩ := Transition.run_cons_some.mp path
    have reached := ih (tracked_step tracked stepped) onward
    rwa [Nat.add_right_comm, Nat.add_assoc] at reached

end ServerNode

/-- The destinations of a handler, against those it had when its user was revoked. A handler that
came later had none. -/
def StreamTask.Within (before : Option (StreamTask Address)) (task : StreamTask Address) : Prop :=
  before.elim [] (·.handler.destinations) <+: task.handler.destinations ∧
    task.handler.destinations.length + task.handler.phase.awaiting ≤
      before.elim 0 fun task => task.handler.destinations.length + task.handler.phase.awaiting

theorem Handler.resolve_barred {codec approved} {h : Handler Address} {act resolved}
    (resolves : h.resolve codec approved act = some resolved) (denied : ∀ now, approved now = false) :
    resolved ≠ .approved true := by
  rintro rfl
  cases act with
  | own action =>
    simp only [resolve] at resolves
    split_ifs at resolves with plain
    cases resolves
    cases plain
  | approve now =>
    simp only [resolve, denied] at resolves
    cases resolves
  | tick half now => cases half <;> cases resolves
  | inbound received =>
    simp only [resolve] at resolves
    split at resolves <;> cases resolves

theorem StreamTask.Within.step {codec approved before} {task after : StreamTask Address} {act counted}
    (within : task.Within before) (denied : ∀ now, approved now = false)
    (taken : task.step codec approved act = some (after, counted)) : after.Within before := by
  obtain ⟨resolved, resolves, stepped, -, -⟩ := StreamTask.step_eq_some.mp taken
  exact ⟨within.1.trans (Handler.destinations_grow stepped),
    (Handler.barred_step stepped (Handler.resolve_barred resolves denied)).trans within.2⟩

namespace ServerNode
variable {crates : ServerCrates Address} {config : ServerConfig} {s t : ServerNode Address} {a : ServerAction Address}
  {n i : Nat} {user : AuthedUser} {reference : ServerConnection Address}

/-- Connection `i`, whose user is revoked, after at most `n` steps in all. -/
structure CutOff (hashPassword : String → PasswordHash) (reference : ServerConnection Address) (i : Nat)
    (user : AuthedUser) (n : Nat) (s : ServerNode Address) : Prop where
  tracked : s.Tracked hashPassword n
  revoked : ∃ entry bumps, s.stores.registry.Follows user entry bumps ∧ bumps ≤ n ∧
    (entry.revoked = true ∨ 0 < bumps)
  connection : ∃ c, s.connections[i]? = some c ∧ c.user = some user ∧
    reference.tasks.length ≤ c.tasks.length ∧
    ∀ (k : Nat) task, c.tasks[k]? = some task → task.Within (reference.tasks[k]?)

theorem CutOff.denied {hashPassword} (cut : s.CutOff hashPassword reference i user n) (few : n < 2 ^ 64)
    (now : Int64) : user.denyReason s.stores.registry now = some .revoked := by
  obtain ⟨entry, bumps, follows, bound, gone⟩ := cut.revoked
  exact (follows.denyReason_iff (by omega) now).mpr gone

theorem cutOff_step (cut : s.CutOff crates.hashPassword reference i user n) (few : n < 2 ^ 64)
    (stepped : s.step crates config a = some t) : t.CutOff crates.hashPassword reference i user (n + 1) := by
  refine ⟨tracked_step cut.tracked stepped, ?_, ?_⟩
  · obtain ⟨entry, bumps, follows, bound, gone⟩ := cut.revoked
    obtain ⟨entry', bumps', follows', more, most, stays⟩ :=
      follows.changes cut.tracked.represents (changes stepped)
    exact ⟨entry', bumps', follows', by omega, gone.imp stays fun some => by omega⟩
  · obtain ⟨c, placed, authed, older, within⟩ := cut.connection
    have denied : ∀ now, c.approved config s.stores now = false := by
      intro now
      rw [ServerConnection.approved, authed]
      simp only [cut.denied few now]
      rfl
    obtain ⟨c', placed', rfl | ⟨action, stores, rfl, moved⟩⟩ := (step_moved stepped).connection_at placed
    · exact ⟨c', placed', authed, older, within⟩
    · refine ⟨c', placed', moved.keeps_user (cut.tracked.fresh c (List.mem_of_getElem? placed)) authed,
        older.trans moved.tasks_length, ?_⟩
      intro k task found
      cases earlier : c.tasks[k]? with
      | some before =>
        obtain ⟨after, found', rfl | ⟨act, counted, -, taken⟩⟩ := moved.task_at earlier
        · cases found'.symm.trans found
          exact within k _ earlier
        · cases found'.symm.trans found
          exact (within k before earlier).step denied taken
      | none =>
        obtain ⟨peerVersion, rfl⟩ := moved.task_new earlier found
        have absent : reference.tasks[k]? = none :=
          List.getElem?_eq_none (older.trans (List.getElem?_eq_none_iff.mp earlier))
        rw [absent]
        exact ⟨List.prefix_refl _, Nat.le_refl _⟩

theorem cutOff_run {actions} (cut : s.CutOff crates.hashPassword reference i user n)
    (few : n + actions.length < 2 ^ 64) (path : Transition.run (step crates config) s actions = some t) :
    t.CutOff crates.hashPassword reference i user (n + actions.length) := by
  induction actions generalizing s n with
  | nil => cases path; exact cut
  | cons a rest ih =>
    obtain ⟨u, stepped, onward⟩ := Transition.run_cons_some.mp path
    rw [List.length_cons] at few
    have reached := ih (cutOff_step cut (by omega) stepped) (by omega) onward
    rwa [Nat.add_right_comm, Nat.add_assoc] at reached

/-- A revoked user is cut off. In every run of fewer than `2 ^ 64` steps, once the user of a
connection is revoked it stays so, whatever user sets are pushed later. A stream handler that had
passed its check and was reading its destination may still read that one; no other handler of the
connection reads a destination any more, and none that is started later reads any. -/
theorem revoked_cut_off (crates : ServerCrates Address) (config : ServerConfig) (panel : PanelSyncConfig)
    (users : UsersPutBody) {actions more : List (ServerAction Address)}
    (few : actions.length + more.length < 2 ^ 64)
    (path : Transition.run (step crates config) (start crates panel users) actions = some s)
    (onward : Transition.run (step crates config) s more = some t)
    {c : ServerConnection Address} (placed : s.connections[i]? = some c) (authed : c.user = some user)
    {now : Int64} (revoked : user.denyReason s.stores.registry now = some .revoked) :
    (∀ later, user.denyReason t.stores.registry later = some .revoked) ∧
    ∃ c', t.connections[i]? = some c' ∧ c'.user = some user ∧
      ∀ (k : Nat) after, c'.tasks[k]? = some after →
        (c.tasks[k]? = none → after.handler.destinations = []) ∧
        ∀ before, c.tasks[k]? = some before →
          before.handler.destinations <+: after.handler.destinations ∧
          after.handler.destinations.length ≤
            before.handler.destinations.length + before.handler.phase.awaiting := by
  have tracked := tracked_run (tracked_start crates panel users) path
  rw [Nat.zero_add] at tracked
  have member := List.mem_of_getElem? placed
  obtain ⟨entry, bumps, follows, bound⟩ :=
    tracked.follows c member user (ServerConnection.guard?_of_user (tracked.fresh c member) authed)
  have cut : s.CutOff crates.hashPassword c i user actions.length :=
    { tracked
      revoked := ⟨entry, bumps, follows, bound, (follows.denyReason_iff (by omega) now).mp revoked⟩
      connection := ⟨c, placed, authed, Nat.le_refl _, fun k task found => by
        rw [found]
        exact ⟨List.prefix_refl _, Nat.le_refl _⟩⟩ }
  have last := cutOff_run cut few onward
  obtain ⟨c', placed', authed', -, within⟩ := last.connection
  refine ⟨last.denied few, c', placed', authed', fun k after found => ?_⟩
  obtain ⟨front, bound⟩ := within k after found
  constructor
  · intro absent
    rw [absent] at bound
    exact List.length_eq_zero_iff.mp (Nat.le_zero.mp (Nat.le_trans (Nat.le_add_right _ _) bound))
  · intro before earlier
    rw [earlier] at front bound
    exact ⟨front, Nat.le_trans (Nat.le_add_right _ _) bound⟩

/-- The destination arrives after the revocation, and another stream is opened. -/
def openedLate : List (ServerAction (Bytes × UInt16)) :=
  relayed ++ [ConnAction.opened 2, .task 1 (.own .advance), .task 1 (.approve 0)].map (.connection 0)

theorem nobody_cut_off : ∃ s t : ServerNode (Bytes × UInt16), ∃ user,
    Transition.run (step lengthCrates perUser) (start lengthCrates noPanel oneUser) (admission ++ putNobody) = some s ∧
    Transition.run (step lengthCrates perUser) s openedLate = some t ∧
    (∀ later, AuthedUser.denyReason user t.stores.registry later = some .revoked) ∧
    ∃ c', t.connections[0]? = some c' ∧ c'.tasks.map (·.handler.destinations) = [[([9, 9, 9, 9], 80)], []] := by
  have runs : (Transition.run (step lengthCrates perUser) (start lengthCrates noPanel oneUser)
      (admission ++ putNobody)).any (fun s =>
        s.connections[0]?.any (fun c => c.user.any fun user => user.denyReason s.stores.registry 0 = some .revoked) &&
        (Transition.run (step lengthCrates perUser) s openedLate).any fun t =>
          t.connections[0]?.any fun c => c.tasks.map (·.handler.destinations) = [[([9, 9, 9, 9], 80)], []]) = true := by
    decide +kernel
  obtain ⟨s, reached, both⟩ := (Option.any_eq_true _ _).mp runs
  rw [Bool.and_eq_true] at both
  obtain ⟨c, placed, denied⟩ := (Option.any_eq_true _ _).mp both.1
  obtain ⟨user, authed, revoked⟩ := (Option.any_eq_true _ _).mp denied
  obtain ⟨t, onward, last⟩ := (Option.any_eq_true _ _).mp both.2
  obtain ⟨c', placed', read⟩ := (Option.any_eq_true _ _).mp last
  rw [decide_eq_true_eq] at revoked read
  have cut := revoked_cut_off lengthCrates perUser noPanel oneUser (by decide) reached onward placed authed revoked
  exact ⟨s, t, user, reached, onward, cut.1, c', placed', read⟩

end ServerNode

end AnyTls
