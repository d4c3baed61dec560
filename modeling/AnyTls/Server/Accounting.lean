import AnyTls.Server.CutOff
import AnyTls.Server.Release

/-! Accounting over the whole server. Each stream handler counts what it reads before it passes it on;
the counters of an entry are the sums over all connections, ended or not, that were authenticated to
it, and the number of its connections is the number of those whose context is still held. -/
namespace AnyTls
variable {Address : Type}

/-! ### What a handler counts -/

def RelayStatus.inHand : RelayStatus Address → Nat
  | .sending datagram => datagram.2.length
  | _ => 0

/-- The bytes that are counted and that the outbound has yet to answer for. -/
def Phase.inHand : Phase Address → Nat
  | .tcpRelay (.writing bytes) _ _ => bytes.length
  | .uotRelay relay => relay.status.inHand
  | _ => 0

/-- Every byte counted has been accepted by its destination, was in a write that failed, or is on
its way; towards the client, it was accepted by the stream or refused by it. -/
structure StreamTask.Exact (task : StreamTask Address) : Prop where
  up : task.tally.up = task.tally.sent + task.tally.unsent + task.handler.phase.inHand
  down : task.tally.down = task.tally.queued + task.tally.refused

/-- A tally that turns the bytes in hand from `before` into `after`. -/
structure Tally.Balances (tally : Tally) (before after : Nat) : Prop where
  up : before + tally.up = tally.sent + tally.unsent + after
  down : tally.down = tally.queued + tally.refused

namespace Tally

theorem Balances.zero {before after} (same : after = before) : Tally.zero.Balances before after :=
  ⟨by simp [Tally.zero, same], rfl⟩

theorem Balances.counted (bytes) : (Tally.counted bytes).Balances 0 bytes :=
  ⟨by simp [Tally.counted, Tally.zero], rfl⟩

theorem Balances.answered (bytes result) :
    (Tally.answered bytes result).Balances bytes 0 := by
  cases result <;> exact ⟨by simp [Tally.answered, Tally.zero], rfl⟩

theorem Balances.written (bytes result) {before after} (same : after = before) :
    (Tally.written bytes result).Balances before after := by
  cases result <;> exact ⟨by simp [Tally.written, Tally.zero, same], by simp [Tally.written, Tally.zero]⟩

end Tally

namespace Handler
variable {codec : AddressCodec Address} {h next : Handler Address} {action : HandlerAction}

/-- The steps that take bytes in hand or answer for them. -/
def hands : HandlerAction → Bool
  | .s2o .poll | .s2o (.wrote _) | .relay _ => true
  | _ => false

theorem closes_inHand {pc outcome} {before after : Phase Address} (closes : Closes before pc outcome after) :
    after.inHand = before.inHand := by
  cases closes with
  | mainDone pc after result => cases after <;> cases result <;> rfl
  | o2s pc next s2o cancel => cases s2o <;> rfl
  | o2sDone pc s2o cancel result => cases s2o <;> rfl
  | main | s2o | s2oDone => rfl

theorem inHand_kept (stepped : h.step codec action = some next) (aside : hands action = false) :
    next.phase.inHand = h.phase.inHand := by
  cases step_moved stepped with
  | session => rfl
  | close _ pc phase closes => exact closes_inHand closes
  | retrieve program held bytes pipe readFut polled here =>
    rw [here]
    cases polled with
    | done destination =>
      simp only [retrieved]
      split_ifs <;> rfl
    | pending | failed | panicked => rfl
  | request program held bytes pipe readFut polled here =>
    rw [here]
    cases polled <;> rfl
  | relay | s2oPoll => cases aside
  | quiet _ phase quiet =>
    show phase.inHand = h.phase.inHand
    cases quiet with
    | created _ _ here next => rw [here]; rcases next with rfl | rfl <;> rfl
    | handshakeFails _ here =>
      rcases here with ⟨_, here⟩ | ⟨_, here⟩ | ⟨_, here⟩ <;> rw [here] <;> rfl
    | relayEnds relay here status | relayFails relay _ here status | relayPanics relay here status =>
      simp only [here, Phase.inHand, status, RelayStatus.inHand]
    | s2oTick o2s cancel approved here => rw [here]; cases approved <;> rfl
    | o2sWrote s2o _ _ here => rw [here]
    | o2sCancelled s2o here | o2sTick s2o _ _ here | o2sEof s2o _ here | o2sRefused s2o _ _ here
    | o2sFails s2o _ _ here =>
      rw [here]
      cases s2o <;> rfl
    | relayDenied | s2oWrote | s2oFails => cases aside
    | terminated here | proceeds here | approved here | denied here | exits _ here | fails _ here
    | createFails _ _ here | ready _ here | readyFails _ _ here | connects _ here | connectFails _ _ here
    | uotStarts _ here | tcpStarts _ here | refuses _ here | joins _ here | s2oCancelled _ here
    | s2oShutdown _ _ _ _ _ here => rw [here]; rfl

theorem s2oPoll_balances (stepped : h.step codec (.s2o .poll) = some next) :
    (h.tally codec next (.own (.s2o .poll))).Balances h.phase.inHand next.phase.inHand := by
  obtain ⟨pc, o2s, cancel, here, moved⟩ := s2o_phase stepped
  cases pc with
  | select =>
    obtain ⟨⟨pipe, readFut, result⟩, -, rfl⟩ := Option.map_eq_some_iff.mp moved
    rw [here]
    cases result with
    | ready bytes =>
      cases bytes with
      | nil => exact .zero rfl
      | cons b bytes => exact .counted _
    | pending | failed | panicked => exact .zero rfl
  | writing | closing | shutdown | done => cases moved

theorem s2oWrote_balances {result} (stepped : h.step codec (.s2o (.wrote result)) = some next) :
    (h.tally codec next (.own (.s2o (.wrote result)))).Balances h.phase.inHand next.phase.inHand := by
  obtain ⟨pc, o2s, cancel, here, moved⟩ := s2o_phase stepped
  cases pc with
  | writing bytes =>
    simp only [tally, here]
    cases result with
    | ok done => cases moved; exact .answered _ _
    | error error => cases moved; exact .answered _ _
  | select | closing | shutdown | done => cases moved

theorem tally_handle {relay} (here : next.phase = .uotRelay relay) :
    h.tally codec next (.own (.relay .handle)) = .counted relay.status.inHand := by
  obtain ⟨_, _, _, _, _, status, _, _, _, _, _⟩ := relay
  simp only [tally, here]
  cases status <;> rfl

theorem tally_sent {relay} (here : h.phase = .uotRelay relay) (result) :
    h.tally codec next (.own (.relay (.sent result))) = .answered relay.status.inHand result := by
  obtain ⟨_, _, _, _, _, status, _, _, _, _, _⟩ := relay
  simp only [tally, here]
  cases status <;> cases result <;> rfl

end Handler

namespace Relay
variable {codec : AddressCodec Address} {r next : Relay Address}

/-- The branches of a `select!`, which win while nothing is in hand. -/
def selects : RelayAction → Bool
  | .poll | .tick _ | .inbound _ => true
  | _ => false

theorem packetError_inHand (r : Relay Address) (error) : (r.packetError error).status.inHand = 0 := by
  rcases r.packetError_ends error with ⟨-, same⟩ | same <;> rw [same] <;> rfl

theorem selects_inHand {act} (stepped : r.step codec act = some next) (selecting : selects act = true) :
    r.status.inHand = 0 ∧ next.status.inHand = 0 := by
  cases act with
  | poll =>
    simp only [step] at stepped
    split at stepped
    · rename_i status
      obtain ⟨⟨pipe, fut, bytes, polled⟩, -, rfl⟩ := Option.map_eq_some_iff.mp stepped
      rw [status]
      refine ⟨rfl, ?_⟩
      cases polled with
      | pending decoder held => simp only [took, status, RelayStatus.inHand]
      | done packet | panicked => rfl
      | failed error => exact packetError_inHand _ error
    · cases stepped
  | tick approved =>
    simp only [step] at stepped
    split at stepped
    · cases stepped
    · rename_i status _
      cases stepped
      rw [status]
      cases approved <;> exact ⟨rfl, rfl⟩
    · cases stepped
  | inbound result =>
    simp only [step] at stepped
    split at stepped
    · cases stepped
    · rename_i status _
      cases stepped
      rw [status]
      cases result <;> exact ⟨rfl, rfl⟩
    · cases stepped
  | push | finish | pipeClose | handle | sent | socks | replyClosed => cases selecting

end Relay

namespace Handler
variable {codec : AddressCodec Address} {h next : Handler Address}

theorem relayStep_selects {relay act} (here : h.phase = .uotRelay relay)
    (moved : h.relayStep codec relay act = some next) (selecting : Relay.selects act = true) :
    next.phase.inHand = h.phase.inHand := by
  obtain ⟨after, stepped, rfl⟩ := Option.map_eq_some_iff.mp moved
  obtain ⟨before, later⟩ := Relay.selects_inHand stepped selecting
  rw [here]
  exact later.trans before.symm

theorem handle_balances (stepped : h.step codec (.relay .handle) = some next) :
    (h.tally codec next (.own (.relay .handle))).Balances h.phase.inHand next.phase.inHand := by
  obtain ⟨relay, here, moved⟩ := relay_phase stepped
  obtain ⟨after, taken, rfl⟩ := Option.map_eq_some_iff.mp moved
  simp only [Relay.step] at taken
  split at taken
  · rename_i status
    rw [tally_handle rfl, here]
    simp only [Phase.inHand, status]
    exact .counted _
  · cases taken

theorem sent_balances {result} (stepped : h.step codec (.relay (.sent result)) = some next) :
    (h.tally codec next (.own (.relay (.sent result)))).Balances h.phase.inHand next.phase.inHand := by
  obtain ⟨relay, here, moved⟩ := relay_phase stepped
  obtain ⟨after, taken, rfl⟩ := Option.map_eq_some_iff.mp moved
  rw [tally_sent here, here]
  have settled : after.status.inHand = 0 := by
    simp only [Relay.step] at taken
    split at taken
    · split at taken <;> cases taken <;> rfl
    · cases taken
  simp only [Phase.inHand, settled]
  exact .answered _ _

theorem selects_kept {act} (stepped : h.step codec (.relay act) = some next)
    (selecting : Relay.selects act = true) : next.phase.inHand = h.phase.inHand := by
  obtain ⟨relay, here, moved⟩ := relay_phase stepped
  cases act with
  | poll => exact relayStep_selects here moved rfl
  | tick approved =>
    cases approved with
    | true => exact relayStep_selects here moved rfl
    | false =>
      simp only [Handler.relay] at moved
      split at moved
      · rename_i status
        cases moved
        simp only [here, Phase.inHand, status, RelayStatus.inHand]
      · cases moved
  | inbound result => exact relayStep_selects here moved rfl
  | push | finish | pipeClose | handle | sent | socks | replyClosed => cases selecting

/-- What a step counts is what it takes in hand, and what it answers for has been counted. -/
theorem tally_balances {approved act resolved} (resolves : h.resolve codec approved act = some resolved)
    (stepped : h.step codec resolved = some next) :
    (h.tally codec next act).Balances h.phase.inHand next.phase.inHand := by
  cases act with
  | own action =>
    obtain rfl := resolve_own resolves
    cases resolved with
    | s2o act =>
      cases act with
      | poll => exact s2oPoll_balances stepped
      | wrote result => exact s2oWrote_balances stepped
      | cancelled | tick | close | shutdown => exact .zero (inHand_kept stepped rfl)
    | o2s act =>
      have kept := inHand_kept stepped rfl
      cases act with
      | read result =>
        cases result with
        | ok bytes => exact .written _ _ kept
        | error error => exact .zero kept
      | cancelled | tick | close => exact .zero kept
    | relay act =>
      cases act with
      | handle => exact handle_balances stepped
      | sent result => exact sent_balances stepped
      | poll | tick | inbound => exact .zero (selects_kept stepped rfl)
      | push | finish | pipeClose | socks | replyClosed =>
        obtain ⟨relay, -, moved⟩ := relay_phase stepped
        cases moved
    | session | advance | approved | poll | createOutbound | outboundReady | connected =>
      exact .zero (inHand_kept stepped rfl)
  | approve now =>
    cases resolves
    exact .zero (inHand_kept stepped rfl)
  | tick half now =>
    cases resolves
    cases half with
    | s2o | o2s => exact .zero (inHand_kept stepped rfl)
    | uot => exact .zero (selects_kept stepped rfl)
  | inbound received =>
    simp only [resolve] at resolves
    split at resolves
    · rename_i relay here
      cases resolves
      have kept := selects_kept stepped rfl
      cases received with
      | error error => exact .zero kept
      | ok datagram =>
        simp only [tally, here] at kept ⊢
        split
        · exact .written _ _ kept
        · exact .zero kept
    · cases resolves

end Handler

theorem StreamTask.Exact.step {codec approved} {task after : StreamTask Address} {act counted}
    (exact : task.Exact) (taken : task.step codec approved act = some (after, counted)) : after.Exact := by
  obtain ⟨resolved, resolves, stepped, rfl, total⟩ := StreamTask.step_eq_some.mp taken
  have balances := Handler.tally_balances resolves stepped
  have up := exact.up
  have down := exact.down
  constructor
  · have moved := balances.up
    simp only [total, Tally.add]
    omega
  · have moved := balances.down
    simp only [total, Tally.add]
    omega

/-! ### The accounts of the entries -/

/-- Bytes from the client, bytes for it, and connections alive. -/
structure Totals where
  up : Nat
  down : Nat
  live : Nat
deriving DecidableEq, Repr

/-- The counters of an entry show the totals, modulo their size. -/
structure UserEntry.Shows (entry : UserEntry) (totals : Totals) : Prop where
  up : entry.up = UInt64.ofNat totals.up
  down : entry.down = UInt64.ofNat totals.down
  connections : entry.connections = Int64.ofNat totals.live

namespace UserEntry.Shows
variable {entry : UserEntry} {up down live : Nat}

theorem recordUp (shown : entry.Shows ⟨up, down, live⟩) (bytes) :
    (entry.recordUp (UInt64.ofNat bytes)).Shows ⟨up + bytes, down, live⟩ :=
  ⟨by rw [UserEntry.recordUp, shown.up, UInt64.ofNat_add], shown.down, shown.connections⟩

theorem recordDown (shown : entry.Shows ⟨up, down, live⟩) (bytes) :
    (entry.recordDown (UInt64.ofNat bytes)).Shows ⟨up, down + bytes, live⟩ :=
  ⟨shown.up, by rw [UserEntry.recordDown, shown.down, UInt64.ofNat_add], shown.connections⟩

theorem connect (shown : entry.Shows ⟨up, down, live⟩) :
    UserEntry.Shows { entry with connections := entry.connections + 1 } ⟨up, down, live + 1⟩ :=
  ⟨shown.up, shown.down, by rw [shown.connections, Int64.ofNat_add]; rfl⟩

theorem drop (shown : entry.Shows ⟨up, down, live + 1⟩) :
    UserEntry.Shows { entry with connections := entry.connections - 1 } ⟨up, down, live⟩ :=
  ⟨shown.up, shown.down, by rw [shown.connections, Int64.ofNat_add]; exact Int64.add_sub_cancel _ _⟩

end UserEntry.Shows

/-- Where `before` shows the first totals on an entry, `after` shows the second. -/
def UserRegistry.Posts (before after : UserRegistry) (id : EntryId) (old new : Totals) : Prop :=
  ∀ entry', after.heap[id]? = some entry' → ∃ entry, before.heap[id]? = some entry ∧
    (entry.Shows old → entry'.Shows new)

namespace UserRegistry
variable {before middle after : UserRegistry} {id : EntryId} {old between new : Totals}

theorem Posts.refl (registry : UserRegistry) (id) (totals : Totals) : registry.Posts registry id totals totals :=
  fun entry stored => ⟨entry, stored, fun shown => shown⟩

theorem Posts.trans (first : before.Posts middle id old between) (second : middle.Posts after id between new) :
    before.Posts after id old new := by
  intro entry'' stored''
  obtain ⟨entry', stored', later⟩ := second entry'' stored''
  obtain ⟨entry, stored, sooner⟩ := first entry' stored'
  exact ⟨entry, stored, fun shown => later (sooner shown)⟩

theorem posts_modify (registry : UserRegistry) {target f}
    (posts : ∀ entry : UserEntry, target = id → entry.Shows old → (f entry).Shows new)
    (aside : target ≠ id → new = old) : registry.Posts (registry.modify target f) id old new := by
  intro entry' stored'
  obtain ⟨entry, stored, rfl⟩ := Node.Kept.stored_of_modify stored'
  refine ⟨entry, stored, fun shown => ?_⟩
  split_ifs with hit
  · exact posts entry hit shown
  · rw [aside hit]
    exact shown

end UserRegistry

namespace ServerConnection
variable {codec : AddressCodec Address} {config : ServerConfig} {stores stores' : Stores}
  {c next : ServerConnection Address} {action : ConnAction Address} {id : EntryId} {up down live : Nat}

/-- An amount, if the connection is one of the entry's user. -/
def own (c : ServerConnection Address) (id : EntryId) (amount : Nat) : Nat :=
  if c.user.map (·.entry) = some id then amount else 0

theorem own_add (c : ServerConnection Address) (id a b) :
    c.own id (a + b) = c.own id a + c.own id b := by
  unfold own
  split_ifs <;> rfl

theorem own_zero (c : ServerConnection Address) (id) : c.own id 0 = 0 := ite_self 0

theorem own_none {amount} (unknown : c.user = none) : c.own id amount = 0 := by
  rw [own, unknown]
  exact if_neg nofun

theorem own_some {user amount} (authed : c.user = some user) :
    c.own id amount = if user.entry = id then amount else 0 := by
  rw [own, authed]
  simp

theorem recordUp_posts (c : ServerConnection Address) (stores : Stores) (bytes) :
    stores.registry.Posts (c.recordUp stores bytes).registry id ⟨up, down, live⟩ ⟨up + c.own id bytes, down, live⟩ := by
  unfold recordUp
  split
  · rename_i user authed
    rw [own_some authed]
    refine UserRegistry.posts_modify _ (fun entry hit shown => ?_) (fun miss => by rw [if_neg miss, Nat.add_zero])
    rw [if_pos hit]
    exact shown.recordUp bytes
  · rename_i unknown
    rw [own_none unknown]
    split <;> exact .refl _ _ _

theorem recordDown_posts (c : ServerConnection Address) (stores : Stores) (bytes) :
    stores.registry.Posts (c.recordDown stores bytes).registry id ⟨up, down, live⟩ ⟨up, down + c.own id bytes, live⟩ := by
  unfold recordDown
  split
  · rename_i user authed
    rw [own_some authed]
    refine UserRegistry.posts_modify _ (fun entry hit shown => ?_) (fun miss => by rw [if_neg miss, Nat.add_zero])
    rw [if_pos hit]
    exact shown.recordDown bytes
  · rename_i unknown
    rw [own_none unknown]
    split <;> exact .refl _ _ _

theorem record_posts (c : ServerConnection Address) (stores : Stores) (counted : Tally) :
    stores.registry.Posts (c.record stores counted).registry id ⟨up, down, live⟩
      ⟨up + c.own id counted.up, down + c.own id counted.down, live⟩ := by
  unfold record
  simp only
  have upward : stores.registry.Posts (if counted.up = 0 then stores else c.recordUp stores counted.up).registry id
      ⟨up, down, live⟩ ⟨up + c.own id counted.up, down, live⟩ := by
    split_ifs with none
    · rw [none, own_zero]
      exact .refl _ _ _
    · exact c.recordUp_posts stores _
  refine upward.trans ?_
  generalize (if counted.up = 0 then stores else c.recordUp stores counted.up) = recorded
  split_ifs with none
  · rw [none, own_zero]
    exact .refl _ _ _
  · exact c.recordDown_posts recorded _

theorem release_posts (c : ServerConnection Address) (stores : Stores) :
    stores.registry.Posts (c.release stores).registry id ⟨up, down, live + c.own id 1⟩ ⟨up, down, live⟩ := by
  unfold release
  split
  · rename_i user authed
    rw [own_some authed]
    refine UserRegistry.posts_modify _ (fun entry hit shown => ?_) (fun miss => by rw [if_neg miss, Nat.add_zero])
    rw [if_pos hit] at shown
    exact shown.drop
  · rename_i unknown
    rw [own_none unknown]
    exact .refl _ _ _

end ServerConnection

namespace ServerConnection
variable {codec : AddressCodec Address} {config : ServerConfig} {stores stores' : Stores}
  {c next : ServerConnection Address} {action : ConnAction Address} {id : EntryId}

def up (c : ServerConnection Address) : Nat := (c.tasks.map (·.tally.up)).sum

def down (c : ServerConnection Address) : Nat := (c.tasks.map (·.tally.down)).sum

def live (c : ServerConnection Address) : Nat := if c.holds then 1 else 0

/-- The totals of an entry, with what the connection adds to those of the others. -/
def joins (c : ServerConnection Address) (id : EntryId) (others : Totals) : Totals :=
  ⟨others.up + c.own id c.up, others.down + c.own id c.down, others.live + c.own id c.live⟩

end ServerConnection

theorem Handler.running_step {codec} {h next : Handler Address} {action}
    (stepped : h.step codec action = some next) (running : next.running = true) : h.running = true := by
  have alive : h.phase.isOver = false → h.running = true := by
    unfold Handler.running
    cases h.phase <;> simp [Phase.isOver]
  cases step_moved stepped with
  | session event stream happened => exact running
  | quiet _ phase quiet => exact alive quiet.running
  | close _ pc phase closes => exact alive closes.running
  | retrieve _ _ _ _ _ _ here | request _ _ _ _ _ _ here | relay _ _ _ _ here | s2oPoll _ _ _ _ _ here =>
    exact alive (by rw [here]; rfl)

namespace ServerConnection
variable {codec : AddressCodec Address} {config : ServerConfig} {stores stores' : Stores}
  {c next : ServerConnection Address} {action : ConnAction Address} {id : EntryId} {others : Totals}

theorem holds_task {k act} {task after : StreamTask Address} {counted approved}
    (inside : c.tasks[k]? = some task) (taken : task.step codec approved act = some (after, counted))
    (held : ServerConnection.holds { c with tasks := c.tasks.set k after } = true) : c.holds = true := by
  obtain ⟨resolved, -, stepped, -, -⟩ := StreamTask.step_eq_some.mp taken
  simp only [holds, Bool.or_eq_true, List.any_eq_true] at held ⊢
  rcases held with owns | ⟨other, member, running⟩
  · exact .inl owns
  · refine .inr ?_
    rcases List.mem_or_eq_of_mem_set member with old | rfl
    · exact ⟨other, old, running⟩
    · exact ⟨task, List.mem_of_getElem? inside, Handler.running_step stepped running⟩

/-- A step of a stream handler posts what it counts. -/
theorem task_posts {k act task after counted approved} (inside : c.tasks[k]? = some task)
    (taken : task.step codec approved act = some (after, counted)) :
    stores.registry.Posts (c.record stores counted).registry id (c.joins id others)
      ⟨others.up + c.own id (up { c with tasks := c.tasks.set k after }),
        others.down + c.own id (down { c with tasks := c.tasks.set k after }), others.live + c.own id c.live⟩ := by
  obtain ⟨resolved, -, -, -, total⟩ := StreamTask.step_eq_some.mp taken
  have upward : up { c with tasks := c.tasks.set k after } = c.up + counted.up := by
    rw [up, up, ListUpdate.sum_map_set inside, ListUpdate.sum_map_split inside, total, Nat.add_assoc]
    rfl
  have downward : down { c with tasks := c.tasks.set k after } = c.down + counted.down := by
    rw [down, down, ListUpdate.sum_map_set inside, ListUpdate.sum_map_split inside, total, Nat.add_assoc]
    rfl
  rw [upward, downward, own_add, own_add, ← Nat.add_assoc, ← Nat.add_assoc]
  exact c.record_posts stores counted

/-- The guard is dropped with its last holder. -/
theorem dropped_posts {up down} (same : next.user = c.user) (held : next.holds = true → c.holds = true) :
    stores.registry.Posts (if c.holds && !next.holds then next.release stores else stores).registry id
      ⟨up, down, others.live + c.own id c.live⟩ ⟨up, down, others.live + next.own id next.live⟩ := by
  have owned (amount : Nat) : c.own id amount = next.own id amount := by rw [own, own, same]
  rw [owned]
  cases before : c.holds with
  | false =>
    have none : next.holds = false := by
      rw [← Bool.not_eq_true]
      intro after
      exact nomatch before.symm.trans (held after)
    simp only [live, before, none]
    exact .refl _ _ _
  | true =>
    cases after : next.holds with
    | true =>
      simp only [live, before, after]
      exact .refl _ _ _
    | false =>
      simp only [live, before, after]
      rw [if_neg Bool.false_ne_true, own_zero]
      exact next.release_posts stores

theorem joins_none (unknown : c.user = none) : c.joins id others = others := by
  simp only [joins, own_none unknown, Nat.add_zero]

/-- Before it is admitted, a connection holds no context and counts for no entry. -/
theorem Fresh.holds (fresh : c.Fresh) (early : c.unadmitted = true) : c.holds = false := by
  have none : c.ownsContext = false := by
    unfold unadmitted at early
    unfold ownsContext
    split at early
    · rename_i here
      rw [here]
    · rename_i here
      rw [here]
    · cases early
  simp [ServerConnection.holds, none, (fresh early).2]

theorem presented_user (c : ServerConnection Address) (authData) (unknown : c.user = none) :
    (c.presented config authData).user = none := by
  rcases (c.presented_tasks authData).2 with none | same
  · exact none
  · exact same.trans unknown

/-- The last step of `authenticate` counts the connection. -/
theorem authed_posts (fresh : c.Fresh) (early : c.unadmitted = true) (authData) (user : AuthedUser) :
    stores.registry.Posts (stores.registry.connect user.entry) id others
      ((c.admitted authData (some user)).joins id others) := by
  have known : (c.admitted authData (some user)).user = some user := rfl
  have tasks : (c.admitted authData (some user)).tasks = [] := (fresh early).2
  have owns : (c.admitted authData (some user)).ownsContext = true := by
    unfold admitted ownsContext
    by_cases padding : BigEndian.value (authData.drop 32) > 0 <;> simp [padding]
  have counts : (c.admitted authData (some user)).joins id others =
      ⟨others.up, others.down, others.live + if user.entry = id then 1 else 0⟩ := by
    simp [joins, up, down, live, tasks, ServerConnection.holds, owns, own_some known]
  rw [counts]
  refine UserRegistry.posts_modify _ (fun entry hit shown => ?_) (fun miss => by rw [if_neg miss, Nat.add_zero])
  rw [if_pos hit]
  exact shown.connect

/-- A move that counts nothing. -/
theorem kept_posts (same : next.user = c.user) (upward : next.up = c.up) (downward : next.down = c.down)
    (held : next.holds = true → c.holds = true) :
    stores.registry.Posts (if c.holds && !next.holds then next.release stores else stores).registry id
      (c.joins id others) (next.joins id others) := by
  have owned (amount : Nat) : c.own id amount = next.own id amount := by rw [own, own, same]
  unfold joins
  rw [← owned next.up, ← owned next.down, upward, downward]
  exact dropped_posts same held

theorem Advanced.posts (advanced : Advanced config stores c action next stores') (fresh : c.Fresh) :
    stores.registry.Posts (if c.holds && !next.holds then next.release stores' else stores').registry id
      (c.joins id others) (next.joins id others) := by
  have serving {after : ServerConnection Address} (owns : c.ownsContext = true) (_ : after.holds = true) :
      c.holds = true := by rw [ServerConnection.holds, owns, Bool.true_or]
  cases advanced with
  | presents authData here =>
    have early : c.unadmitted = true := by rw [unadmitted, here]
    have unknown := (fresh early).1
    rw [fresh.holds early, joins_none unknown, joins_none (c.presented_user authData unknown)]
    exact .refl _ _ _
  | authenticates now authData phase after registry here moved =>
    have early : c.unadmitted = true := by rw [unadmitted, here]
    have unknown := (fresh early).1
    rw [fresh.holds early, joins_none unknown]
    rcases AuthState.advance_registry moved with ⟨user, -, rfl, rfl⟩ | ⟨rfl, still⟩
    · exact authed_posts fresh early authData user
    · rw [joins_none ((c.authenticated_user authData still).trans unknown)]
      exact .refl _ _ _
  | padded paddingData clientId here => exact kept_posts rfl rfl rfl (serving (by rw [ownsContext, here]))
  | serves now here => exact kept_posts rfl rfl rfl (serving (by rw [ownsContext, here]))
  | opens peerVersion here =>
    refine kept_posts rfl ?_ ?_ (serving (by rw [ownsContext, here]))
    · simp [up, StreamTask.start, Tally.zero]
    · simp [down, StreamTask.start, Tally.zero]
  | ends _ here =>
    refine kept_posts rfl rfl rfl fun held => ?_
    -- only the handlers can hold the context of a connection that has ended
    have running : c.tasks.any (·.handler.running) = true := by
      simpa only [ServerConnection.holds, ownsContext, Bool.false_or] using held
    rw [ServerConnection.holds, running, Bool.or_true]

/-- What a move does to an entry is what it does to the connection's part in the totals. -/
theorem Moved.posts (moved : Moved codec config stores c action next stores') (fresh : c.Fresh) :
    stores.registry.Posts (if c.holds && !next.holds then next.release stores' else stores').registry id
      (c.joins id others) (next.joins id others) := by
  cases moved with
  | own advanced => exact advanced.posts fresh
  | task inside taken => exact (task_posts inside taken).trans (dropped_posts rfl (holds_task inside taken))

end ServerConnection

end AnyTls
