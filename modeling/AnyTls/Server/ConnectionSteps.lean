import AnyTls.Server.Connections
import AnyTls.Server.HandlerSteps

/-! What a step of the server can do: a connection's own task moves, one of its stream handlers
takes a step, a request moves, or the panel's client does. The invariants of the server are proved
from these lists. -/
namespace AnyTls
variable {Address : Type}

namespace StreamTask
variable {codec : AddressCodec Address} {approved : Int64 → Bool} {task next : StreamTask Address}
  {action : TaskAction Address} {counted : Tally}

theorem step_eq_some : task.step codec approved action = some (next, counted) ↔
    ∃ resolved, task.handler.resolve codec approved action = some resolved ∧
      task.handler.step codec resolved = some next.handler ∧
      counted = task.handler.tally codec next.handler action ∧ next.tally = task.tally.add counted := by
  simp only [step, Option.bind_eq_bind, Option.bind_eq_some_iff, Option.some.injEq, Prod.mk.injEq]
  constructor
  · rintro ⟨resolved, found, handler, stepped, rfl, rfl⟩
    exact ⟨resolved, found, stepped, rfl, rfl⟩
  · rintro ⟨resolved, found, stepped, rfl, total⟩
    exact ⟨resolved, found, next.handler, stepped, by rw [← total], rfl⟩

end StreamTask

/-- A step of `authenticate` counts the connection, at its end, or leaves the registry alone. -/
theorem AuthState.advance_registry {registry registry' call now after}
    (advanced : advance registry call now = some (after, registry')) :
    (∃ user, call.phase = .captured user ∧ after = .authed user ∧ registry' = registry.connect user.entry) ∨
      registry' = registry ∧ ∀ user, after ≠ .authed user := by
  unfold advance at advanced
  cases here : call.phase with
  | begun =>
    simp only [here] at advanced
    split at advanced <;> cases advanced <;> exact .inr ⟨rfl, nofun⟩
  | lookedUp id =>
    simp only [here] at advanced
    obtain ⟨entry, -, same⟩ := Option.map_eq_some_iff.mp advanced
    cases same
    refine .inr ⟨rfl, fun user => ?_⟩
    split_ifs <;> nofun
  | checked id =>
    simp only [here] at advanced
    obtain ⟨entry, -, same⟩ := Option.map_eq_some_iff.mp advanced
    cases same
    exact .inr ⟨rfl, nofun⟩
  | captured user =>
    simp only [here] at advanced
    cases advanced
    exact .inl ⟨user, rfl, rfl, rfl⟩
  | authed | refused => simp only [here] at advanced; cases advanced

namespace ServerConnection
variable {uuid : UuidCrate} {codec : AddressCodec Address} {config : ServerConfig} {stores stores' : Stores}
  {c next : ServerConnection Address} {action : ConnAction Address}

/-- The moves of a connection's own task. -/
inductive Advanced (config : ServerConfig) (stores : Stores) (c : ServerConnection Address) :
    ConnAction Address → ServerConnection Address → Stores → Prop where
  | presents (authData) : c.phase = .reading →
      Advanced config stores c (.read (.ok authData)) (c.presented config authData) stores
  | authenticates (now authData phase after registry) : c.phase = .authenticating authData phase →
      AuthState.advance stores.registry ⟨authData.take 32, phase⟩ now = some (after, registry) →
      Advanced config stores c (.authenticate now) (c.authenticated authData after) { stores with registry }
  | padded (paddingData clientId) : c.phase = .padding paddingData.length →
      Advanced config stores c (.readPadding (.ok paddingData)) { c with clientId, phase := .approving } stores
  | serves (now) : c.phase = .approving → c.approved config stores now = true →
      Advanced config stores c (.approve now) { c with phase := .serving } stores
  | opens (peerVersion) : c.phase = .serving →
      Advanced config stores c (.opened peerVersion) { c with tasks := c.tasks ++ [.start peerVersion] } stores
  | ends (action : ConnAction Address) : c.phase = .reading ∨ c.ownsContext = true →
      (∀ k act, action ≠ .task k act) → Advanced config stores c action { c with phase := .ended } stores

theorem advance_advanced (advanced : c.advance uuid config stores action = some (next, stores')) :
    Advanced config stores c action next stores' := by
  unfold advance at advanced
  split at advanced
  · split at advanced
    · rename_i here
      split_ifs at advanced
      cases advanced
      exact .presents _ here
    · rename_i here
      cases advanced
      exact .ends _ (.inl here) nofun
    · cases advanced
  · split at advanced
    · rename_i here
      obtain ⟨⟨phase, registry⟩, moved, same⟩ := Option.map_eq_some_iff.mp advanced
      cases same
      exact .authenticates _ _ _ phase registry here moved
    · cases advanced
  · split at advanced
    · rename_i here
      split_ifs at advanced with sized
      cases advanced
      exact .padded _ _ (by rw [here, sized])
    · rename_i here
      cases advanced
      exact .ends _ (.inr (by rw [ownsContext, here])) nofun
    · cases advanced
  · split at advanced
    · rename_i here
      cases advanced
      split_ifs with admitted
      · exact .serves _ here admitted
      · exact .ends _ (.inr (by rw [ownsContext, here])) nofun
    · cases advanced
  · split at advanced
    · rename_i here
      cases advanced
      exact .opens _ here
    · cases advanced
  · split at advanced
    · rename_i here
      cases advanced
      exact .ends _ (.inr (by rw [ownsContext, here])) nofun
    · cases advanced
  · cases advanced

/-- A connection's own task moves, or one of its stream handlers takes a step. -/
inductive Moved (codec : AddressCodec Address) (config : ServerConfig) (stores : Stores)
    (c : ServerConnection Address) : ConnAction Address → ServerConnection Address → Stores → Prop where
  | own {action : ConnAction Address} {next : ServerConnection Address} {stores' : Stores} :
      Advanced config stores c action next stores' → Moved codec config stores c action next stores'
  | task {k action task after counted} :
      c.tasks[k]? = some task → task.step codec (c.approved config stores) action = some (after, counted) →
      Moved codec config stores c (.task k action) { c with tasks := c.tasks.set k after } (c.record stores counted)

theorem step_moved (stepped : c.step uuid codec config stores action = some (next, stores')) :
    Moved codec config stores c action next stores' := by
  cases action with
  | task k action =>
    simp only [step, taskStep, Option.bind_eq_bind, Option.bind_eq_some_iff, Option.some.injEq] at stepped
    obtain ⟨task, found, ⟨after, counted⟩, moved, same⟩ := stepped
    cases same
    exact .task found moved
  | read | authenticate | readPadding | approve | opened | returned =>
    simp only [step] at stepped
    exact .own (advance_advanced stepped)

theorem presented_tasks (c : ServerConnection Address) (authData) :
    (c.presented config authData).tasks = c.tasks ∧ ((c.presented config authData).user = none ∨
      (c.presented config authData).user = c.user) := by
  unfold presented
  split
  · split
    · split
      · exact ⟨rfl, .inl rfl⟩
      · exact ⟨rfl, .inr rfl⟩
    · exact ⟨rfl, .inr rfl⟩
  · exact ⟨rfl, .inr rfl⟩

theorem authenticated_tasks (c : ServerConnection Address) (authData) (phase : AuthPhase) :
    (c.authenticated authData phase).tasks = c.tasks := by
  cases phase <;> rfl

theorem authenticated_user (c : ServerConnection Address) (authData) {phase}
    (early : ∀ user, phase ≠ .authed user) : (c.authenticated authData phase).user = c.user := by
  cases phase with
  | authed user => exact absurd rfl (early user)
  | begun | lookedUp | checked | captured | refused => rfl

/-- The stream handlers stay, and one may be added. -/
theorem Advanced.tasks (advanced : Advanced config stores c action next stores') :
    next.tasks = c.tasks ∨ ∃ peerVersion, next.tasks = c.tasks ++ [.start peerVersion] := by
  cases advanced with
  | presents authData here => exact .inl (c.presented_tasks authData).1
  | authenticates now authData phase after registry here moved => exact .inl (c.authenticated_tasks authData after)
  | opens peerVersion here => exact .inr ⟨peerVersion, rfl⟩
  | padded | serves | ends => exact .inl rfl

/-- A stream handler has stayed as it is, or taken the step. -/
theorem Moved.task_at (moved : Moved codec config stores c action next stores') {k task}
    (found : c.tasks[k]? = some task) :
    ∃ after, next.tasks[k]? = some after ∧ (after = task ∨ ∃ act counted, action = .task k act ∧
      task.step codec (c.approved config stores) act = some (after, counted)) := by
  have inside := (List.getElem?_eq_some_iff.mp found).1
  cases moved with
  | own advanced =>
    refine ⟨task, ?_, .inl rfl⟩
    rcases advanced.tasks with same | ⟨peerVersion, more⟩
    · rw [same, found]
    · rw [more, List.getElem?_append_left inside, found]
  | @task other act stepping after counted placed stepped =>
    by_cases own : other = k
    · subst own
      cases placed.symm.trans found
      exact ⟨after, List.getElem?_set_self inside, .inr ⟨act, counted, rfl, stepped⟩⟩
    · exact ⟨task, (List.getElem?_set_ne own).trans found, .inl rfl⟩

theorem Moved.tasks_length (moved : Moved codec config stores c action next stores') :
    c.tasks.length ≤ next.tasks.length := by
  cases moved with
  | own advanced =>
    rcases advanced.tasks with same | ⟨peerVersion, more⟩
    · rw [same]
    · rw [more, List.length_append]
      exact Nat.le_add_right _ _
  | task => exact Nat.le_of_eq List.length_set.symm

/-- A stream handler that was not there has just been started. -/
theorem Moved.task_new (moved : Moved codec config stores c action next stores') {k : Nat} {task : StreamTask Address}
    (absent : c.tasks[k]? = none) (found : next.tasks[k]? = some task) : ∃ peerVersion, task = .start peerVersion := by
  have beyond := List.getElem?_eq_none_iff.mp absent
  cases moved with
  | own advanced =>
    rcases advanced.tasks with same | ⟨peerVersion, more⟩
    · rw [same, absent] at found
      cases found
    · rw [more, List.getElem?_append_right beyond] at found
      have first := (List.getElem?_eq_some_iff.mp found).1
      rw [List.length_singleton] at first
      obtain zero : k - c.tasks.length = 0 := by omega
      rw [zero] at found
      cases found
      exact ⟨peerVersion, rfl⟩
  | @task other act stepping after counted placed stepped =>
    have none : (c.tasks.set other after)[k]? = none := by
      rw [List.getElem?_eq_none_iff, List.length_set]
      exact beyond
    cases none.symm.trans found

end ServerConnection

namespace ServerNode
variable {crates : ServerCrates Address} {config : ServerConfig} {s t : ServerNode Address}
  {a : ServerAction Address}

/-- The moves of the server. -/
inductive Moved (crates : ServerCrates Address) (config : ServerConfig) (s : ServerNode Address) :
    ServerAction Address → ServerNode Address → Prop where
  | accept : Moved crates config s .accept { s with connections := s.connections ++ [.new] }
  | connection {i : Nat} {action : ConnAction Address} {before after : ServerConnection Address} {stores : Stores} :
      s.connections[i]? = some before →
      ServerConnection.Moved crates.codec config s.stores before action after stores →
      Moved crates config s (.connection i action)
        { s with
          stores := if before.holds && !after.holds then after.release stores else stores
          connections := s.connections.set i after }
  | request (request) : Moved crates config s (.request request) { s with calls := s.calls ++ [⟨request, .received⟩] }
  | api {j collected call after registry} : s.calls[j]? = some call →
      call.step crates.hashPassword crates.fromSlice config.apiToken collected s.stores.registry =
        some (after, registry) →
      Moved crates config s (.api j collected)
        { s with stores := { s.stores with registry }, calls := s.calls.set j after }
  | panel {action panel} : s.stores.panel.step action = some panel →
      Moved crates config s (.panel action) { s with stores := { s.stores with panel } }

theorem step_moved (stepped : s.step crates config a = some t) : Moved crates config s a t := by
  cases a with
  | accept => cases stepped; exact .accept
  | connection i action =>
    simp only [step, connectionStep, Option.bind_eq_bind, Option.bind_eq_some_iff, Option.some.injEq] at stepped
    obtain ⟨before, placed, ⟨after, stores⟩, moved, rfl⟩ := stepped
    exact .connection placed (ServerConnection.step_moved moved)
  | request request => cases stepped; exact .request request
  | api j collected =>
    simp only [step, Option.bind_eq_bind, Option.bind_eq_some_iff, Option.some.injEq] at stepped
    obtain ⟨call, placed, ⟨after, registry⟩, moved, rfl⟩ := stepped
    exact .api placed moved
  | panel action =>
    simp only [step] at stepped
    split_ifs at stepped
    obtain ⟨panel, moved, rfl⟩ := Option.map_eq_some_iff.mp stepped
    exact .panel moved

/-- A connection has stayed as it is, or taken the step. -/
theorem Moved.connection_at (moved : Moved crates config s a t) {i c} (found : s.connections[i]? = some c) :
    ∃ after, t.connections[i]? = some after ∧ (after = c ∨ ∃ action stores, a = .connection i action ∧
      ServerConnection.Moved crates.codec config s.stores c action after stores) := by
  have inside := (List.getElem?_eq_some_iff.mp found).1
  cases moved with
  | accept => exact ⟨c, (List.getElem?_append_left inside).trans found, .inl rfl⟩
  | @connection other action before after stores placed moved =>
    by_cases own : other = i
    · subst own
      cases placed.symm.trans found
      exact ⟨after, List.getElem?_set_self inside, .inr ⟨action, stores, rfl, moved⟩⟩
    · exact ⟨c, (List.getElem?_set_ne own).trans found, .inl rfl⟩
  | request | api | panel => exact ⟨c, found, .inl rfl⟩

/-- Where the connections of the next state come from. -/
theorem Moved.connection_mem (moved : Moved crates config s a t) {c} (member : c ∈ t.connections) :
    c ∈ s.connections ∨ c = .new ∨ ∃ before ∈ s.connections, ∃ action stores,
      ServerConnection.Moved crates.codec config s.stores before action c stores := by
  cases moved with
  | accept =>
    rcases List.mem_append.mp member with old | new
    · exact .inl old
    · exact .inr (.inl (List.mem_singleton.mp new))
  | @connection i action before after stores placed moved =>
    rcases List.mem_or_eq_of_mem_set member with old | rfl
    · exact .inl old
    · exact .inr (.inr ⟨before, List.mem_of_getElem? placed, action, stores, moved⟩)
  | request | api | panel => exact .inl member

end ServerNode

end AnyTls
