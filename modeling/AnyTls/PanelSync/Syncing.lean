import AnyTls.PanelSync.Reporting
import Mathlib.Data.List.Induction

/-! What one call of `sync_once` makes of the audit. The list is applied entry by entry, with the lock
released in between, and the clients that were there before and are not in it are removed after it;
sessions add their traffic all the while. Past that traffic the result depends on the list alone. -/
namespace AnyTls

/-- The flag of the client's last entry in the list. -/
def lastFlag (users : List SyncUser) (id : Uuid) : Option Bool :=
  ((users.filter fun user => user.clientId = some id).getLast?).map (·.enable)

theorem lastFlag_append (users : List SyncUser) (user : SyncUser) (id) :
    lastFlag (users ++ [user]) id = if user.clientId = some id then some user.enable else lastFlag users id := by
  unfold lastFlag
  rw [List.filter_append]
  split_ifs with same
  · rw [List.filter_cons_of_pos (by simpa using same), List.filter_nil, List.getLast?_concat, Option.map_some]
  · rw [List.filter_cons_of_neg (by simpa using same), List.filter_nil, List.append_nil]

theorem lastFlag_isSome (users : List SyncUser) (id) :
    (lastFlag users id).isSome = true ↔ ∃ user ∈ users, user.clientId = some id := by
  rw [lastFlag, Option.isSome_map, List.getLast?_isSome, ne_eq, List.filter_eq_nil_iff]
  simp

/-- The traffic that the action adds to the client's counters. -/
def creditOf (id : Uuid) : PanelAction → Nat × Nat
  | .addUpstream clientId traffic => if clientId = id then trafficOf (traffic, 0) else 0
  | .addDownstream clientId traffic => if clientId = id then trafficOf (0, traffic) else 0
  | _ => 0

def creditsOf (id : Uuid) (actions : List PanelAction) : Nat × Nat := (actions.map (creditOf id)).sum

/-- What the action adds to the audit. -/
def applyAdd (audit : TrafficAudit) : PanelAction → TrafficAudit
  | .addUpstream clientId traffic => audit.addUpstreamTrafficOf clientId traffic
  | .addDownstream clientId traffic => audit.addDownstreamTrafficOf clientId traffic
  | _ => audit

theorem shown_traffic (node : ClientNode) : shown (node.traffic + 0) = node.traffic := by
  have up := node.upstreamTraffic.toNat_lt
  have down := node.downstreamTraffic.toNat_lt
  rw [add_zero]
  exact Prod.ext (Nat.min_eq_left (Nat.le_of_lt_succ up)) (Nat.min_eq_left (Nat.le_of_lt_succ down))

theorem applyAdd_lookup (audit : TrafficAudit) (a : PanelAction) (id) :
    ∃ change : ClientNode → ClientNode, (applyAdd audit a).lookup id = (audit.lookup id).map change ∧
      ∀ node, (change node).enable = node.enable ∧ (change node).traffic = shown (node.traffic + creditOf id a) := by
  have still : ∃ change : ClientNode → ClientNode, audit.lookup id = (audit.lookup id).map change ∧
      ∀ node, (change node).enable = node.enable ∧ (change node).traffic = shown (node.traffic + 0) :=
    ⟨fun node => node, Option.map_id'.symm, fun node => ⟨rfl, (shown_traffic node).symm⟩⟩
  cases a with
  | addUpstream clientId traffic =>
    simp only [applyAdd, TrafficAudit.addUpstreamTrafficOf, TrafficAudit.lookup_modifyNode, creditOf]
    by_cases same : clientId = id
    · subst same
      rw [if_pos rfl, if_pos rfl]
      exact ⟨_, rfl, fun node => ⟨rfl, traffic_addUpstream node traffic⟩⟩
    · rw [if_neg (Ne.symm same), if_neg same]
      exact still
  | addDownstream clientId traffic =>
    simp only [applyAdd, TrafficAudit.addDownstreamTrafficOf, TrafficAudit.lookup_modifyNode, creditOf]
    by_cases same : clientId = id
    · subst same
      rw [if_pos rfl, if_pos rfl]
      exact ⟨_, rfl, fun node => ⟨rfl, traffic_addDownstream node traffic⟩⟩
    · rw [if_neg (Ne.symm same), if_neg same]
      exact still
  | syncOnce | reportTrafficOnce | fetched | list | next | replied => exact still

/-- The entry of a client, given its entry at the start of the call, the traffic added since, and the
flag it has been given. -/
structure Entry (before : Option ClientNode) (total : Nat × Nat) (flag : Option Bool) (now : Option ClientNode) :
    Prop where
  present : now.isSome = (flag.isSome || before.isSome)
  enable : ∀ node enabled, now = some node → flag = some enabled → node.enable = enabled
  traffic : ∀ old node, before = some old → now = some node → node.traffic = shown (old.traffic + total)

section
variable {before now : Option ClientNode} {total more : Nat × Nat} {flag : Option Bool}

theorem entry_start (before : Option ClientNode) : Entry before 0 none before := by
  refine ⟨?_, ?_, ?_⟩
  · rw [Option.isSome_none, Bool.false_or]
  · rintro node enabled - ⟨⟩
  · intro old node first second
    cases first.symm.trans second
    exact (shown_traffic old).symm

theorem Entry.credit (entry : Entry before total flag now) {change}
    (changes : ∀ node, (change node).enable = node.enable ∧ (change node).traffic = shown (node.traffic + more)) :
    Entry before (total + more) flag (now.map change) := by
  refine ⟨?_, ?_, ?_⟩
  · rw [Option.isSome_map, entry.present]
  · intro node enabled found flagged
    obtain ⟨older, stored, rfl⟩ := Option.map_eq_some_iff.mp found
    rw [(changes older).1]
    exact entry.enable older enabled stored flagged
  · intro old node first found
    obtain ⟨older, stored, rfl⟩ := Option.map_eq_some_iff.mp found
    rw [(changes older).2, entry.traffic old older first stored, shown_add, add_assoc]

theorem Entry.enrol (entry : Entry before total flag now) (enabled) :
    Entry before total (some enabled) (some { now.getD .new with enable := enabled }) := by
  refine ⟨rfl, ?_, ?_⟩
  · rintro node flagged ⟨⟩ ⟨⟩
    rfl
  · rintro old node first ⟨⟩
    have present := entry.present
    rw [first, Option.isSome_some, Bool.or_true, Option.isSome_iff_exists] at present
    obtain ⟨older, stored⟩ := present
    rw [stored]
    exact entry.traffic old older first stored

end

theorem creditsOf_append (id) (past : List PanelAction) (a : PanelAction) :
    creditsOf id (past ++ [a]) = creditsOf id past + creditOf id a := by
  rw [creditsOf, List.map_append, List.sum_append, List.map_singleton, List.sum_singleton, creditsOf]

/-- The entries while only traffic has been added. -/
theorem entry_adds (audit : TrafficAudit) (past : List PanelAction) (id) :
    Entry (audit.lookup id) (creditsOf id past) none ((past.foldl applyAdd audit).lookup id) := by
  induction past using List.reverseRecOn with
  | nil => exact entry_start _
  | append_singleton past a ih =>
    rw [List.foldl_append, creditsOf_append]
    obtain ⟨change, looked, changes⟩ := applyAdd_lookup (past.foldl applyAdd audit) a id
    rw [List.foldl_cons, List.foldl_nil, looked]
    exact ih.credit changes

namespace Panel
variable {s t u : Panel} {past : List PanelAction} {a : PanelAction}

/-- A step of the call in progress or of a session. -/
def withinSync : PanelAction → Bool
  | .addUpstream _ _ | .addDownstream _ _ | .fetched _ | .list _ | .next => true
  | .syncOnce | .reportTrafficOnce | .replied _ => false

/-- The ids entered in `seen_clients` by the entries of the list. -/
def seenOf (users : List SyncUser) : List Uuid := (users.filterMap (·.clientId)).reverse

theorem seenOf_append (users : List SyncUser) (user : SyncUser) :
    seenOf (users ++ [user]) = user.clientId.toList ++ seenOf users := by
  rw [seenOf, List.filterMap_append, List.reverse_append]
  cases known : user.clientId with
  | none => rw [List.filterMap_cons_none known]; rfl
  | some id => rw [List.filterMap_cons_some known]; rfl

theorem mem_seenOf (users : List SyncUser) (id) : id ∈ seenOf users ↔ (lastFlag users id).isSome = true := by
  rw [seenOf, List.mem_reverse, List.mem_filterMap, lastFlag_isSome]

/-- Nothing but traffic has reached the stores since the call began. -/
def Untouched (s : Panel) (past : List PanelAction) (u : Panel) : Prop :=
  u.audit = past.foldl applyAdd s.audit ∧ u.reportedTraffic = s.reportedTraffic

/-- The users were fetched in this call, with its only reply. -/
def Fetched (past : List PanelAction) (users : List SyncUser) : Prop :=
  ∃ reply, (∀ other, .fetched other ∈ past ↔ other = reply) ∧ received reply = .ok users

/-- Where a call of `sync_once` is that began in the state `s`, after the steps `past`. -/
inductive Syncing (s : Panel) (past : List PanelAction) (u : Panel) : Prop
  | fetching (pc : u.pc = .fetching) (waiting : ∀ reply, .fetched reply ∉ past) (untouched : Untouched s past u)
    (running : u.returned = s.returned)
  | listing (users : List SyncUser) (pc : u.pc = .listing users) (fetched : Fetched past users)
    (untouched : Untouched s past u) (running : u.returned = s.returned)
  | entering (existing : List Uuid) (done left : List SyncUser) (pc : u.pc = .syncing existing (seenOf done) left)
    (fetched : Fetched past (done ++ left)) (listed : ∀ id, id ∈ existing ↔ (s.audit.lookup id).isSome = true)
    (entries : ∀ id, Entry (s.audit.lookup id) (creditsOf id past) (lastFlag done id) (u.audit.lookup id))
    (running : u.returned = s.returned)
  | removing (users : List SyncUser) (left : List Uuid) (pc : u.pc = .removing (seenOf users) left)
    (fetched : Fetched past users)
    (entries : ∀ id, (lastFlag users id).isSome = true →
      Entry (s.audit.lookup id) (creditsOf id past) (lastFlag users id) (u.audit.lookup id))
    (gone : ∀ id, lastFlag users id = none → id ∉ left → u.audit.lookup id = none)
    (running : u.returned = s.returned)
  | succeeded (users : List SyncUser) (pc : u.pc = .idle) (fetched : Fetched past users)
    (entries : ∀ id, (lastFlag users id).isSome = true →
      Entry (s.audit.lookup id) (creditsOf id past) (lastFlag users id) (u.audit.lookup id))
    (gone : ∀ id, lastFlag users id = none → u.audit.lookup id = none) (returned : u.returned = s.returned ++ [.ok ()])
  | failed (error : IoError) (pc : u.pc = .idle) (untouched : Untouched s past u)
    (returned : u.returned = s.returned ++ [.error error])

theorem mem_append_other (other : ∀ reply, .fetched reply ≠ a)
    (reply : Except String (PanelResponse (List SyncUser))) : .fetched reply ∈ past ++ [a] ↔ .fetched reply ∈ past := by
  rw [List.mem_append, List.mem_singleton, or_iff_left (other reply)]

theorem Fetched.append {users} (fetched : Fetched past users) (other : ∀ reply, .fetched reply ≠ a) :
    Fetched (past ++ [a]) users := by
  obtain ⟨reply, only, answer⟩ := fetched
  exact ⟨reply, fun given => (mem_append_other other given).trans (only given), answer⟩

theorem Untouched.append (untouched : Untouched s past u) (audit : t.audit = applyAdd u.audit a)
    (reported : t.reportedTraffic = u.reportedTraffic) : Untouched s (past ++ [a]) t := by
  refine ⟨?_, reported.trans untouched.2⟩
  rw [audit, untouched.1, List.foldl_append]
  rfl

theorem entry_append {before flag id} (entry : Entry before (creditsOf id past) flag (u.audit.lookup id))
    (audit : t.audit = applyAdd u.audit a) :
    Entry before (creditsOf id (past ++ [a])) flag (t.audit.lookup id) := by
  obtain ⟨change, looked, changes⟩ := applyAdd_lookup u.audit a id
  rw [audit, looked, creditsOf_append]
  exact entry.credit changes

/-- A session adds its traffic. -/
theorem Syncing.adds (syncing : Syncing s past u) (other : ∀ reply, .fetched reply ≠ a) (audit : t.audit = applyAdd u.audit a)
    (reported : t.reportedTraffic = u.reportedTraffic) (pc : t.pc = u.pc) (returned : t.returned = u.returned) :
    Syncing s (past ++ [a]) t := by
  have absent {id : Uuid} (missing : u.audit.lookup id = none) : t.audit.lookup id = none := by
    obtain ⟨change, looked, -⟩ := applyAdd_lookup u.audit a id
    rw [audit, looked, missing]
    rfl
  cases syncing with
  | fetching here waiting untouched running =>
    exact .fetching (pc.trans here) (fun reply member => waiting reply ((mem_append_other other reply).mp member))
      (untouched.append audit reported) (returned.trans running)
  | listing users here fetched untouched running =>
    exact .listing users (pc.trans here) (fetched.append other) (untouched.append audit reported) (returned.trans running)
  | entering existing done left here fetched listed entries running =>
    exact .entering existing done left (pc.trans here) (fetched.append other) listed
      (fun id => entry_append (entries id) audit) (returned.trans running)
  | removing users left here fetched entries gone running =>
    exact .removing users left (pc.trans here) (fetched.append other) (fun id flagged => entry_append (entries id flagged) audit)
      (fun id unflagged apart => absent (gone id unflagged apart)) (returned.trans running)
  | succeeded users here fetched entries gone done =>
    exact .succeeded users (pc.trans here) (fetched.append other) (fun id flagged => entry_append (entries id flagged) audit)
      (fun id unflagged => absent (gone id unflagged)) (returned.trans done)
  | failed error here untouched done =>
    exact .failed error (pc.trans here) (untouched.append audit reported) (returned.trans done)

/-- A round of the loop over the list. -/
theorem Syncing.enters {existing done left} (user : SyncUser)
    (fetched : Fetched past (done ++ user :: left))
    (listed : ∀ id, id ∈ existing ↔ (s.audit.lookup id).isSome = true)
    (entries : ∀ id, Entry (s.audit.lookup id) (creditsOf id past) (lastFlag done id) (u.audit.lookup id))
    (running : u.returned = s.returned) :
    Syncing s (past ++ [.next]) (u.syncUser existing (seenOf done) left user) := by
  have later : Fetched (past ++ [.next]) ((done ++ [user]) ++ left) := by
    rw [List.append_assoc, List.singleton_append]
    exact fetched.append (by rintro _ ⟨⟩)
  have same (id : Uuid) : creditsOf id (past ++ [.next]) = creditsOf id past := by
    rw [creditsOf_append]
    exact add_zero _
  cases known : user.clientId with
  | none =>
    refine .entering existing (done ++ [user]) left ?_ later listed ?_ ?_
    · rw [seenOf_append, known, syncUser, known]
      rfl
    · intro id
      rw [same, lastFlag_append, known, if_neg (by rintro ⟨⟩), syncUser, known]
      exact entries id
    · rw [syncUser, known]
      exact running
  | some clientId =>
    refine .entering existing (done ++ [user]) left ?_ later listed ?_ ?_
    · rw [seenOf_append, known, syncUser, known]
      rfl
    · intro id
      rw [same, lastFlag_append, known, syncUser, known]
      simp only [TrafficAudit.lookup_enrolled, Option.some.injEq]
      by_cases here : id = clientId
      · subst here
        rw [if_pos rfl, if_pos rfl]
        exact (entries id).enrol user.enable
      · rw [if_neg here, if_neg (Ne.symm here)]
        exact entries id
    · rw [syncUser, known]
      exact running

/-- A round of the loop over the clients that were there before. -/
theorem Syncing.removes {users left} (clientId) (fetched : Fetched past users)
    (entries : ∀ id, (lastFlag users id).isSome = true →
      Entry (s.audit.lookup id) (creditsOf id past) (lastFlag users id) (u.audit.lookup id))
    (gone : ∀ id, lastFlag users id = none → id ∉ clientId :: left → u.audit.lookup id = none)
    (running : u.returned = s.returned) :
    Syncing s (past ++ [.next]) (u.removeUnseen (seenOf users) left clientId) := by
  have same (id : Uuid) : creditsOf id (past ++ [.next]) = creditsOf id past := by
    rw [creditsOf_append]
    exact add_zero _
  unfold removeUnseen
  split_ifs with seen
  · refine .removing users left rfl (fetched.append (by rintro _ ⟨⟩)) ?_ ?_ running
    · intro id flagged
      rw [same]
      exact entries id flagged
    · intro id unflagged apart
      refine gone id unflagged ?_
      rw [List.mem_cons, not_or]
      refine ⟨?_, apart⟩
      rintro rfl
      rw [mem_seenOf, unflagged] at seen
      cases seen
  · refine .removing users left rfl (fetched.append (by rintro _ ⟨⟩)) ?_ ?_ running
    · intro id flagged
      have other : id ≠ clientId := by
        rintro rfl
        exact seen ((mem_seenOf users id).mpr flagged)
      rw [same]
      simp only [TrafficAudit.removeClient, AList.lookup_erase_ne other]
      exact entries id flagged
    · intro id unflagged apart
      simp only [TrafficAudit.removeClient]
      by_cases here : id = clientId
      · subst here
        exact AList.lookup_erase _ _
      · rw [AList.lookup_erase_ne here]
        exact gone id unflagged (List.not_mem_cons_of_ne_of_not_mem here apart)

theorem syncing_step (syncing : Syncing s past u) (within : withinSync a = true) (stepped : u.step a = some t) :
    Syncing s (past ++ [a]) t := by
  cases step_move stepped with
  | addsUp | addsDown => exact syncing.adds (by rintro _ ⟨⟩) rfl rfl rfl rfl
  | asks | askFails | reports | settles | replyFails => cases within
  | fetchFails here =>
    cases syncing with
    | fetching pc waiting untouched running =>
      exact .failed _ rfl (untouched.append rfl rfl) (congrArg (· ++ _) running)
    | listing _ pc | entering _ _ _ pc | removing _ _ pc | succeeded _ pc | failed _ pc => cases pc.symm.trans here
  | @fetches reply users here answer =>
    cases syncing with
    | fetching pc waiting untouched running =>
      refine .listing users rfl ⟨reply, fun other => ?_, answer⟩ (untouched.append rfl rfl) running
      rw [List.mem_append, or_iff_right (waiting other), List.mem_singleton, PanelAction.fetched.injEq]
    | listing _ pc | entering _ _ _ pc | removing _ _ pc | succeeded _ pc | failed _ pc => cases pc.symm.trans here
  | lists here listed =>
    cases syncing with
    | listing users pc fetched untouched running =>
      cases pc.symm.trans here
      have entries (id : Uuid) : Entry (s.audit.lookup id) (creditsOf id past) none (u.audit.lookup id) := by
        rw [untouched.1]
        exact entry_adds s.audit past id
      refine .entering _ [] _ rfl (fetched.append (by rintro _ ⟨⟩)) ?_ (fun id => entry_append (entries id) rfl) running
      intro id
      rw [listed.mem_iff, ← AList.mem_keys, ← AList.lookup_isSome, (entries id).present, Option.isSome_none, Bool.false_or]
    | fetching pc | entering _ _ _ pc | removing _ _ pc | succeeded _ pc | failed _ pc => cases pc.symm.trans here
  | entered here =>
    cases syncing with
    | entering existing done left pc fetched listed entries running =>
      cases pc.symm.trans here
      rw [List.append_nil] at fetched
      refine .removing done _ rfl (fetched.append (by rintro _ ⟨⟩)) (fun id _ => entry_append (entries id) rfl) ?_ running
      intro id unflagged apart
      have present := (entries id).present
      rw [unflagged, Option.isSome_none, Bool.false_or] at present
      rw [listed, ← present, Bool.not_eq_true, Option.isSome_eq_false_iff, Option.isNone_iff_eq_none] at apart
      exact apart
    | fetching pc | listing _ pc | removing _ _ pc | succeeded _ pc | failed _ pc => cases pc.symm.trans here
  | enters here =>
    cases syncing with
    | entering existing done left pc fetched listed entries running =>
      cases pc.symm.trans here
      exact .enters _ fetched listed entries running
    | fetching pc | listing _ pc | removing _ _ pc | succeeded _ pc | failed _ pc => cases pc.symm.trans here
  | removed here =>
    cases syncing with
    | removing users left pc fetched entries gone running =>
      cases pc.symm.trans here
      refine .succeeded users rfl (fetched.append (by rintro _ ⟨⟩)) (fun id flagged => entry_append (entries id flagged) rfl) ?_
        (congrArg (· ++ _) running)
      intro id unflagged
      exact gone id unflagged (by rintro ⟨⟩)
    | fetching pc | listing _ pc | entering _ _ _ pc | succeeded _ pc | failed _ pc => cases pc.symm.trans here
  | removes here =>
    cases syncing with
    | removing users left pc fetched entries gone running =>
      cases pc.symm.trans here
      exact .removes _ fetched entries gone running
    | fetching pc | listing _ pc | entering _ _ _ pc | succeeded _ pc | failed _ pc => cases pc.symm.trans here
  | gathers here | counts here | counted here =>
    cases syncing with
    | fetching pc | listing _ pc | entering _ _ _ pc | removing _ _ pc | succeeded _ pc | failed _ pc =>
      cases pc.symm.trans here

theorem syncing_run {actions} (syncing : Syncing s past u) (within : ∀ a ∈ actions, withinSync a = true)
    (path : Transition.run Panel.step u actions = some t) :
    Syncing s (past ++ actions) t := by
  induction actions generalizing past u with
  | nil =>
    cases path
    rw [List.append_nil]
    exact syncing
  | cons a rest ih =>
    obtain ⟨v, stepped, path⟩ := Transition.run_cons_some.mp path
    have next := syncing_step syncing (within a List.mem_cons_self) stepped
    have finished := ih next (fun b member => within b (List.mem_cons_of_mem _ member)) path
    rwa [List.append_assoc, List.singleton_append] at finished

theorem syncOnce_starts (stepped : s.step .syncOnce = some t) : Syncing s [] t := by
  cases step_move stepped with
  | asks => exact .fetching rfl (by rintro _ ⟨⟩) ⟨rfl, rfl⟩ rfl
  | askFails => exact .failed _ rfl ⟨rfl, rfl⟩ rfl

/-- A call of `sync_once`, from any state of the stores, with traffic added between its steps in any
way. If it succeeds, the clients registered are those of the list that was fetched, each has the flag
of its last entry, and one that was registered before has its counters, with all that was added
since. If it fails, nothing but the traffic added has changed. -/
theorem syncOnce_applies_list (s t : Panel) (actions : List PanelAction) (result : Except IoError Unit)
    (within : ∀ a ∈ actions, withinSync a = true)
    (path : Transition.run Panel.step s (.syncOnce :: actions) = some t) (ended : t.returned = s.returned ++ [result]) :
    (result = .ok () → ∃ reply users, (∀ other, .fetched other ∈ actions ↔ other = reply) ∧ received reply = .ok users ∧
      (∀ id, (t.audit.lookup id).isSome = true ↔ ∃ user ∈ users, user.clientId = some id) ∧
      (∀ id, t.audit.getEnableOf id = (lastFlag users id).getD false) ∧
      ∀ id old node, s.audit.lookup id = some old → t.audit.lookup id = some node →
        node.traffic = shown (old.traffic + creditsOf id actions)) ∧
    (∀ error, result = .error error →
      t.audit = actions.foldl applyAdd s.audit ∧ t.reportedTraffic = s.reportedTraffic) := by
  obtain ⟨u, started, path⟩ := Transition.run_cons_some.mp path
  have stage := syncing_run (syncOnce_starts started) within path
  rw [List.nil_append] at stage
  cases stage with
  | fetching _ _ _ running | listing _ _ _ _ running | entering _ _ _ _ _ _ _ running | removing _ _ _ _ _ _ running =>
    rw [running] at ended
    simp at ended
  | failed error _ untouched returned =>
    rw [returned, List.append_cancel_left_eq, List.cons.injEq] at ended
    obtain ⟨rfl, -⟩ := ended
    exact ⟨by rintro ⟨⟩, fun _ _ => untouched⟩
  | succeeded users _ fetched entries gone returned =>
    rw [returned, List.append_cancel_left_eq, List.cons.injEq] at ended
    obtain ⟨rfl, -⟩ := ended
    obtain ⟨reply, only, answer⟩ := fetched
    refine ⟨fun _ => ⟨reply, users, only, answer, ?_, ?_, ?_⟩, by rintro _ ⟨⟩⟩
    · intro id
      rw [← lastFlag_isSome]
      cases flag : lastFlag users id with
      | none =>
        rw [gone id flag]
        exact Iff.rfl
      | some enabled =>
        have entry := entries id (by rw [flag]; rfl)
        rw [entry.present, flag]
        rfl
    · intro id
      rw [TrafficAudit.getEnableOf]
      cases flag : lastFlag users id with
      | none =>
        rw [gone id flag]
        rfl
      | some enabled =>
        have entry := entries id (by rw [flag]; rfl)
        have present := entry.present
        rw [flag, Option.isSome_some, Bool.true_or, Option.isSome_iff_exists] at present
        obtain ⟨node, found⟩ := present
        rw [found]
        exact entry.enable node enabled found flag
    · intro id old node before found
      cases flag : lastFlag users id with
      | none => cases (gone id flag).symm.trans found
      | some enabled => exact (entries id (by rw [flag]; rfl)).traffic old node before found

/-- One client is registered, with some traffic. -/
def oneRegistered : Panel :=
  { Panel.new ⟨some "panel", none, some 1⟩ with audit := (∅ : TrafficAudit).insert 1 ⟨true, 10, 20⟩ }

/-- The list names that client twice, another one once, and one without a valid id; traffic of the
first arrives between its two entries. -/
def twiceListed : List PanelAction :=
  .fetched (.ok ⟨200, "OK", .ok ⟨some 1, "", .ok [⟨some 1, true⟩, ⟨none, true⟩, ⟨some 2, true⟩, ⟨some 1, false⟩]⟩⟩) ::
    .list [1] :: .next :: .addUpstream 1 5 :: List.replicate 6 .next

theorem syncOnce_twiceListed :
    ∃ t, Transition.run Panel.step oneRegistered (.syncOnce :: twiceListed) = some t ∧
      t.audit.getEnableOf 1 = false ∧ t.audit.getEnableOf 2 = true ∧ (t.audit.lookup 3).isSome = false ∧
      ∀ node, t.audit.lookup 1 = some node → node.traffic = (15, 20) := by
  obtain ⟨t, path, ended⟩ : ∃ t, Transition.run Panel.step oneRegistered (.syncOnce :: twiceListed) = some t ∧
      t.returned = oneRegistered.returned ++ [.ok ()] := ⟨_, rfl, rfl⟩
  obtain ⟨reply, users, only, answer, registered, enabled, traffic⟩ :=
    (syncOnce_applies_list oneRegistered t twiceListed (.ok ()) (by decide) path ended).1 rfl
  obtain rfl := (only _).mp List.mem_cons_self
  cases answer
  refine ⟨t, path, enabled 1, enabled 2, ?_, ?_⟩
  · rw [Bool.eq_false_iff, ne_eq, registered]
    decide
  · intro node found
    exact traffic 1 ⟨true, 10, 20⟩ node rfl found

end Panel

end AnyTls
