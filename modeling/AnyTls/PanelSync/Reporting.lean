import AnyTls.Library.Transition
import AnyTls.PanelSync.Core

/-! What the panel is told of a client's traffic. The audit counts it, the client of the
panel remembers what it has reported, and both start from nothing when the client is
registered; at every moment the reports acknowledged since then add up to what is
remembered, and the next report is exactly the rest. -/
namespace AnyTls

/-- Upstream and downstream. -/
def trafficOf (traffic : UInt64 × UInt64) : Nat × Nat := (traffic.1.toNat, traffic.2.toNat)

def ClientNode.traffic (node : ClientNode) : Nat × Nat :=
  trafficOf (node.upstreamTraffic, node.downstreamTraffic)

/-- What 64-bit counters that stop at their largest value show of a total. -/
def shown (total : Nat × Nat) : Nat × Nat := (min total.1 (2 ^ 64 - 1), min total.2 (2 ^ 64 - 1))

def deltaSum (clientId : Uuid) (records : List TrafficRecord) : Nat × Nat :=
  ((records.filter (·.clientId = clientId)).map fun record => trafficOf (record.u, record.d)).sum

theorem deltaSum_append (clientId) (records : List TrafficRecord) (record : TrafficRecord) :
    deltaSum clientId (records ++ [record]) =
      deltaSum clientId records + if record.clientId = clientId then trafficOf (record.u, record.d) else 0 := by
  rw [deltaSum, List.filter_append, List.map_append, List.sum_append, ← deltaSum]
  split_ifs with same
  · simp [same]
  · simp [same]

/-- The traffic of a client since it was last registered, and what was acknowledged of it. -/
structure PanelAccount where
  credited : Nat × Nat
  acknowledged : Nat × Nat

namespace PanelAccount

def opened : PanelAccount := ⟨0, 0⟩

def post (clientId : Uuid) (account : PanelAccount) : PanelEvent → PanelAccount
  | .registered id => if id = clientId then opened else account
  | .credited id up down =>
    if id = clientId then { account with credited := account.credited + trafficOf (up, down) } else account
  | .acknowledged records => { account with acknowledged := account.acknowledged + deltaSum clientId records }

def ofHistory (clientId : Uuid) (history : List PanelEvent) : PanelAccount :=
  history.foldl (post clientId) opened

@[simp] theorem ofHistory_append (clientId) (history : List PanelEvent) (event : PanelEvent) :
    ofHistory clientId (history ++ [event]) = (ofHistory clientId history).post clientId event := by
  rw [ofHistory, List.foldl_append]
  rfl

end PanelAccount

/-! ### The stores -/

theorem traffic_addUpstream (node : ClientNode) (traffic) :
    (node.addUpstreamTraffic traffic).traffic = shown (node.traffic + trafficOf (traffic, 0)) := by
  have small := node.downstreamTraffic.toNat_lt
  simp only [ClientNode.addUpstreamTraffic, ClientNode.traffic, trafficOf, shown, saturatingAdd_toNat,
    Prod.fst_add, Prod.snd_add, UInt64.toNat_zero, Prod.mk.injEq, true_and]
  omega

theorem traffic_addDownstream (node : ClientNode) (traffic) :
    (node.addDownstreamTraffic traffic).traffic = shown (node.traffic + trafficOf (0, traffic)) := by
  have small := node.upstreamTraffic.toNat_lt
  simp only [ClientNode.addDownstreamTraffic, ClientNode.traffic, trafficOf, shown, saturatingAdd_toNat,
    Prod.fst_add, Prod.snd_add, UInt64.toNat_zero, Prod.mk.injEq, and_true]
  omega

theorem le_shown_add {total more} (small : total ≤ (2 ^ 64 - 1, 2 ^ 64 - 1)) :
    total ≤ shown (total + more) := by
  obtain ⟨up, down⟩ := Prod.mk_le_mk.mp small
  refine Prod.mk_le_mk.mpr ⟨?_, ?_⟩
  · simp only [Prod.fst_add]
    omega
  · simp only [Prod.snd_add]
    omega

theorem ClientNode.traffic_small (node : ClientNode) : node.traffic ≤ (2 ^ 64 - 1, 2 ^ 64 - 1) := by
  have up := node.upstreamTraffic.toNat_lt
  have down := node.downstreamTraffic.toNat_lt
  refine Prod.mk_le_mk.mpr ⟨?_, ?_⟩
  · simp only
    omega
  · simp only
    omega

theorem shown_add (total more : Nat × Nat) : shown (shown total + more) = shown (total + more) := by
  simp only [shown, Prod.fst_add, Prod.snd_add, Prod.mk.injEq]
  omega

namespace TrafficAudit
variable (audit : TrafficAudit) (clientId : Uuid)

theorem lookup_modifyNode (change : ClientNode → ClientNode) (id) :
    (audit.modifyNode clientId change).lookup id =
      if id = clientId then (audit.lookup id).map change else audit.lookup id := by
  unfold modifyNode
  split
  · rename_i node found
    split_ifs with same
    · subst same
      rw [AList.lookup_insert, found]
      rfl
    · exact AList.lookup_insert_ne same
  · rename_i absent
    split_ifs with same
    · subst same
      rw [absent]
      rfl
    · rfl

theorem traffic_read {audit : TrafficAudit} {clientId} {node : ClientNode}
    (found : audit.lookup clientId = some node) :
    trafficOf (audit.getUpstreamTrafficOf clientId, audit.getDownstreamTrafficOf clientId) = node.traffic := by
  rw [getUpstreamTrafficOf, getDownstreamTrafficOf, found]
  rfl

/-- An entry afterwards is an entry of before, changed if it is the client's. -/
theorem modifyNode_origin {audit : TrafficAudit} {clientId id change node}
    (found : (audit.modifyNode clientId change).lookup id = some node) :
    ∃ old, audit.lookup id = some old ∧ node = if id = clientId then change old else old := by
  rw [lookup_modifyNode] at found
  split_ifs at found with same
  · obtain ⟨old, before, changed⟩ := Option.map_eq_some_iff.mp found
    exact ⟨old, before, by rw [if_pos same, changed]⟩
  · exact ⟨node, found, (if_neg same).symm⟩

theorem modifyNode_grows {audit : TrafficAudit} {clientId id change} {old : ClientNode}
    (grows : ∀ node : ClientNode, node.traffic ≤ (change node).traffic) (found : audit.lookup id = some old) :
    ∃ node, (audit.modifyNode clientId change).lookup id = some node ∧ old.traffic ≤ node.traffic := by
  rw [lookup_modifyNode]
  split_ifs with same
  · exact ⟨change old, by rw [found]; rfl, grows old⟩
  · exact ⟨old, found, le_refl _⟩

/-- What `sync_once` makes of the entry of a user. -/
theorem lookup_enrolled (enable id) :
    ((audit.addClient clientId).setEnableOf clientId enable).lookup id =
      if id = clientId then some { (audit.lookup id).getD .new with enable := enable } else audit.lookup id := by
  unfold setEnableOf addClient
  split_ifs with same
  · subst same
    rw [AList.lookup_insert]
    split
    · rfl
    · rename_i absent
      rw [AList.lookup_insert, absent]
      rfl
  · rw [AList.lookup_insert_ne same]
    split
    · rfl
    · exact AList.lookup_insert_ne same

end TrafficAudit

theorem Panel.lookup_insertAll (reported current : ReportedTraffic) (id) :
    (insertAll reported current).lookup id = (current.lookup id).or (reported.lookup id) := by
  obtain ⟨entries, distinct⟩ := current
  simp only [insertAll, AList.lookup]
  induction entries generalizing reported with
  | nil => rfl
  | cons entry rest ih =>
    obtain ⟨fresh, distinct⟩ := List.nodupKeys_cons.mp distinct
    rw [List.foldl_cons, ih _ distinct]
    by_cases same : id = entry.1
    · subst same
      rw [List.dlookup_eq_none.mpr fresh, List.dlookup_cons_eq]
      exact AList.lookup_insert _
    · rw [List.dlookup_cons_ne _ _ same]
      exact congrArg _ (AList.lookup_insert_ne same)

/-! ### The books -/

namespace Panel
variable {s t : Panel} {a : PanelAction} {actions : List PanelAction}

/-- What has been reported of a client. -/
def reportedOf (s : Panel) (clientId : Uuid) : Nat × Nat :=
  trafficOf ((s.reportedTraffic.lookup clientId).getD (0, 0))

/-- A report that is being gathered or is on its way: for each client that was counted,
what is reported and the record in the payload make up the counters that were read. -/
structure Gathered (s : Panel) (left : List Uuid) (payload : List TrafficRecord) (current : ReportedTraffic) :
    Prop where
  distinct : left.Nodup
  listed : ∀ id ∈ left, (s.audit.lookup id).isSome = true ∧ current.lookup id = none
  sums : ∀ id, s.reportedOf id + deltaSum id payload = ((current.lookup id).map trafficOf).getD (s.reportedOf id)
  bounded : ∀ id traffic, current.lookup id = some traffic →
    ∃ node, s.audit.lookup id = some node ∧ trafficOf traffic ≤ node.traffic

/-- What holds in a phase of a call. -/
def Phase (s : Panel) : PanelPc → Prop
  | .counting left payload current => s.Gathered left payload current
  | .posting payload current => s.Gathered [] payload current
  | .idle | .fetching | .listing _ | .syncing _ _ _ | .removing _ _ | .gathering => True

structure Books (s : Panel) : Prop where
  absent : ∀ id, s.audit.lookup id = none → s.reportedTraffic.lookup id = none
  acknowledged : ∀ id node, s.audit.lookup id = some node →
    (PanelAccount.ofHistory id s.history).acknowledged = s.reportedOf id
  within : ∀ id node, s.audit.lookup id = some node → s.reportedOf id ≤ node.traffic
  credited : ∀ id node, s.audit.lookup id = some node →
    node.traffic = shown (PanelAccount.ofHistory id s.history).credited
  phase : s.Phase s.pc

theorem Phase.imp {pc} (phase : s.Phase pc)
    (gathered : ∀ left payload current, s.Gathered left payload current → t.Gathered left payload current) :
    t.Phase pc := by
  cases pc with
  | counting left payload current => exact gathered left payload current phase
  | posting payload current => exact gathered [] payload current phase
  | idle | fetching | listing | syncing | removing | gathering => trivial

/-- The call comes to another point without touching the two stores. -/
theorem Books.moves (books : s.Books) (pc : PanelPc) (returned : List (Except IoError Unit)) (phase : s.Phase pc) :
    Books { s with pc := pc, returned := returned } := by
  refine ⟨books.absent, books.acknowledged, books.within, books.credited, phase.imp ?_⟩
  intro left payload current gathered
  exact ⟨gathered.distinct, gathered.listed, gathered.sums, gathered.bounded⟩

/-- Traffic that is added to a registered client is credited to it. -/
theorem ofHistory_credit {clientId id up down old} (found : s.audit.lookup id = some old) :
    PanelAccount.ofHistory id (s.credit clientId up down) =
      if id = clientId then { PanelAccount.ofHistory id s.history with
        credited := (PanelAccount.ofHistory id s.history).credited + trafficOf (up, down) }
      else PanelAccount.ofHistory id s.history := by
  by_cases same : id = clientId
  · subst same
    simp [credit, found, PanelAccount.post]
  · rw [if_neg same, credit]
    split_ifs
    · simp [PanelAccount.post, Ne.symm same]
    · rfl

/-- A session adds traffic to a client. -/
theorem Books.credits (books : s.Books) {clientId up down change}
    (adds : ∀ node : ClientNode, (change node).traffic = shown (node.traffic + trafficOf (up, down))) :
    Books { s with audit := s.audit.modifyNode clientId change, history := s.credit clientId up down } := by
  have grows : ∀ node : ClientNode, node.traffic ≤ (change node).traffic := by
    intro node
    rw [adds]
    exact le_shown_add node.traffic_small
  refine ⟨?_, ?_, ?_, ?_, books.phase.imp ?_⟩
  · intro id missing
    refine books.absent id ?_
    rw [TrafficAudit.lookup_modifyNode] at missing
    split_ifs at missing with same
    · exact Option.map_eq_none_iff.mp missing
    · exact missing
  · intro id node found
    obtain ⟨old, before, -⟩ := TrafficAudit.modifyNode_origin found
    rw [ofHistory_credit before]
    split_ifs
    · exact books.acknowledged id old before
    · exact books.acknowledged id old before
  · intro id node found
    obtain ⟨old, before, changed⟩ := TrafficAudit.modifyNode_origin found
    refine (books.within id old before).trans ?_
    rw [changed]
    split_ifs
    · exact grows old
    · exact le_refl _
  · intro id node found
    obtain ⟨old, before, changed⟩ := TrafficAudit.modifyNode_origin found
    rw [ofHistory_credit before, changed]
    split_ifs
    · rw [adds, books.credited id old before, shown_add]
    · exact books.credited id old before
  · intro left payload current gathered
    refine ⟨gathered.distinct, ?_, gathered.sums, ?_⟩
    · intro id member
      obtain ⟨registered, uncounted⟩ := gathered.listed id member
      obtain ⟨old, before⟩ := Option.isSome_iff_exists.mp registered
      obtain ⟨node, found, -⟩ := TrafficAudit.modifyNode_grows grows before
      exact ⟨Option.isSome_iff_exists.mpr ⟨node, found⟩, uncounted⟩
    · intro id traffic counted
      obtain ⟨old, before, below⟩ := gathered.bounded id traffic counted
      obtain ⟨node, found, grown⟩ := TrafficAudit.modifyNode_grows grows before
      exact ⟨node, found, below.trans grown⟩

/-- A user of the panel is entered or kept. -/
theorem Books.enrols (books : s.Books) (existing seen : List Uuid) (users : List SyncUser) (user : SyncUser) :
    (s.syncUser existing seen users user).Books := by
  unfold syncUser
  split
  · exact books.moves (.syncing existing seen users) s.returned trivial
  · rename_i clientId named
    -- an entry afterwards is an old one but for its flag, or the new one of a client with no account
    have origin : ∀ id node,
        ((s.audit.addClient clientId).setEnableOf clientId user.enable).lookup id = some node →
        (∃ old, s.audit.lookup id = some old ∧ node.traffic = old.traffic) ∨
        s.audit.lookup id = none ∧ id = clientId ∧ node.traffic = 0 := by
      intro id node found
      rw [TrafficAudit.lookup_enrolled] at found
      split_ifs at found with same
      · cases found
        cases before : s.audit.lookup id with
        | none => exact .inr ⟨rfl, same, rfl⟩
        | some old => exact .inl ⟨old, rfl, rfl⟩
      · exact .inl ⟨node, found, rfl⟩
    have account : ∀ id old, s.audit.lookup id = some old →
        PanelAccount.ofHistory id
          (if (s.audit.lookup clientId).isSome then s.history else s.history ++ [.registered clientId]) =
        PanelAccount.ofHistory id s.history := by
      intro id old before
      split_ifs with registered
      · rfl
      · have other : clientId ≠ id := by
          rintro rfl
          rw [before] at registered
          exact registered rfl
        simp [PanelAccount.post, other]
    have entered : ∀ id, s.audit.lookup id = none → id = clientId →
        PanelAccount.ofHistory id
          (if (s.audit.lookup clientId).isSome then s.history else s.history ++ [.registered clientId]) =
        .opened := by
      rintro id missing rfl
      simp [missing, PanelAccount.post]
    refine ⟨?_, ?_, ?_, ?_, trivial⟩
    · intro id missing
      refine books.absent id ?_
      rw [TrafficAudit.lookup_enrolled] at missing
      split_ifs at missing
      exact missing
    · intro id node found
      rcases origin id node found with ⟨old, before, -⟩ | ⟨missing, same, -⟩
      · rw [account id old before]
        exact books.acknowledged id old before
      · rw [entered id missing same]
        simp only [reportedOf, books.absent id missing]
        rfl
    · intro id node found
      rcases origin id node found with ⟨old, before, same⟩ | ⟨missing, -, fresh⟩
      · rw [same]
        exact books.within id old before
      · simp only [reportedOf, books.absent id missing, fresh]
        exact le_refl _
    · intro id node found
      rcases origin id node found with ⟨old, before, same⟩ | ⟨missing, same, fresh⟩
      · rw [same, account id old before]
        exact books.credited id old before
      · rw [fresh, entered id missing same]
        rfl

/-- A client that the panel no longer has is removed from both stores. -/
theorem Books.removes (books : s.Books) (seen existing : List Uuid) (clientId) :
    (s.removeUnseen seen existing clientId).Books := by
  unfold removeUnseen
  split_ifs with kept
  · exact books.moves (.removing seen existing) s.returned trivial
  · have others : ∀ id node, (s.audit.removeClient clientId).lookup id = some node →
        id ≠ clientId ∧ s.audit.lookup id = some node := by
      intro id node found
      by_cases same : id = clientId
      · subst same
        rw [TrafficAudit.removeClient, AList.lookup_erase] at found
        cases found
      · rw [TrafficAudit.removeClient, AList.lookup_erase_ne same] at found
        exact ⟨same, found⟩
    have reported : ∀ id, id ≠ clientId →
        (s.reportedTraffic.erase clientId).lookup id = s.reportedTraffic.lookup id :=
      fun id other => AList.lookup_erase_ne other
    refine ⟨?_, ?_, ?_, ?_, trivial⟩
    · intro id missing
      by_cases same : id = clientId
      · subst same
        exact AList.lookup_erase _ _
      · rw [TrafficAudit.removeClient, AList.lookup_erase_ne same] at missing
        exact (reported id same).trans (books.absent id missing)
    · intro id node found
      obtain ⟨other, before⟩ := others id node found
      rw [books.acknowledged id node before]
      simp only [reportedOf, reported id other]
    · intro id node found
      obtain ⟨other, before⟩ := others id node found
      simp only [reportedOf, reported id other]
      exact books.within id node before
    · intro id node found
      exact books.credited id node (others id node found).2

/-! ### A report -/

/-- What is reported and the next record make up the counters. -/
theorem Books.delta_exact (books : s.Books) {id node} (found : s.audit.lookup id = some node) :
    s.reportedOf id + trafficOf (s.delta id) = node.traffic := by
  obtain ⟨up, down⟩ := Prod.mk_le_mk.mp (books.within id node found)
  simp only [delta, reportedOf, trafficOf, ClientNode.traffic, TrafficAudit.getUpstreamTrafficOf,
    TrafficAudit.getDownstreamTrafficOf, found, Option.elim_some, saturatingSub_toNat, Prod.mk_add_mk,
    Prod.mk.injEq] at up down ⊢
  exact ⟨Nat.add_sub_of_le up, Nat.add_sub_of_le down⟩

theorem Gathered.start {order} (listed : order.Perm s.audit.keys) : s.Gathered order [] ∅ := by
  refine ⟨listed.nodup_iff.mpr s.audit.keys_nodup, ?_, ?_, ?_⟩
  · intro id member
    exact ⟨AList.lookup_isSome.mpr (listed.mem_iff.mp member), rfl⟩
  · intro id
    exact add_zero _
  · rintro id traffic ⟨⟩

theorem Books.counts (books : s.Books) {clientId left payload current}
    (gathered : s.Gathered (clientId :: left) payload current) :
    (s.countClient left payload current clientId).Books := by
  obtain ⟨apart, distinct⟩ := List.nodup_cons.mp gathered.distinct
  obtain ⟨registered, uncounted⟩ := gathered.listed clientId List.mem_cons_self
  obtain ⟨node, found⟩ := Option.isSome_iff_exists.mp registered
  have listed := fun id member => gathered.listed id (List.mem_cons_of_mem clientId member)
  unfold countClient
  simp only
  split_ifs with unchanged
  · exact books.moves (.counting left payload current) s.returned
      ⟨distinct, listed, gathered.sums, gathered.bounded⟩
  · refine books.moves (.counting left _ _) s.returned ⟨distinct, ?_, ?_, ?_⟩
    · intro id member
      have other : id ≠ clientId := by
        rintro rfl
        exact apart member
      rw [AList.lookup_insert_ne other]
      exact listed id member
    · intro id
      have before := gathered.sums id
      rw [deltaSum_append]
      by_cases same : clientId = id
      · subst same
        rw [uncounted, Option.map_none, Option.getD_none] at before
        rw [AList.lookup_insert, if_pos rfl, ← add_assoc, before, Option.map_some, Option.getD_some,
          TrafficAudit.traffic_read found]
        exact books.delta_exact found
      · rw [AList.lookup_insert_ne (Ne.symm same), if_neg same, add_zero]
        exact before
    · intro id traffic counted
      by_cases same : id = clientId
      · subst same
        rw [AList.lookup_insert] at counted
        cases counted
        exact ⟨node, found, (TrafficAudit.traffic_read found).le⟩
      · rw [AList.lookup_insert_ne same] at counted
        exact gathered.bounded id traffic counted

/-- A report is acknowledged. -/
theorem Books.settles (books : s.Books) {payload current} (gathered : s.Gathered [] payload current) :
    Books { s.finish (.ok ()) with
      reportedTraffic := insertAll s.reportedTraffic current
      history := s.history ++ [.acknowledged payload] } := by
  have reported : ∀ id, trafficOf (((insertAll s.reportedTraffic current).lookup id).getD (0, 0)) =
      s.reportedOf id + deltaSum id payload := by
    intro id
    rw [lookup_insertAll, gathered.sums]
    cases current.lookup id with
    | none => rfl
    | some traffic => rfl
  refine ⟨?_, ?_, ?_, ?_, trivial⟩
  · intro id missing
    rw [lookup_insertAll]
    cases counted : current.lookup id with
    | none => exact books.absent id missing
    | some traffic =>
      obtain ⟨node, found, -⟩ := gathered.bounded id traffic counted
      cases missing.symm.trans found
  · intro id node found
    rw [PanelAccount.ofHistory_append, reportedOf, reported id, ← books.acknowledged id node found]
    rfl
  · intro id node found
    rw [reportedOf, reported id, gathered.sums]
    cases counted : current.lookup id with
    | none => exact books.within id node found
    | some traffic =>
      obtain ⟨other, present, below⟩ := gathered.bounded id traffic counted
      cases present.symm.trans found
      exact below
  · intro id node found
    rw [PanelAccount.ofHistory_append]
    exact books.credited id node found

theorem Books.posts (books : s.Books) {payload current} (gathered : s.Gathered [] payload current) :
    (s.post payload current).Books := by
  unfold post
  split_ifs
  · exact books.moves .idle _ trivial
  · split
    · exact books.moves .idle _ trivial
    · exact books.moves (.posting payload current) s.returned gathered

/-! ### Steps -/

/-- What a step does, branch by branch. -/
inductive Move (s : Panel) : PanelAction → Panel → Prop where
  | addsUp (clientId traffic) : Move s (.addUpstream clientId traffic)
      { s with
        audit := s.audit.addUpstreamTrafficOf clientId traffic
        history := s.credit clientId traffic 0 }
  | addsDown (clientId traffic) : Move s (.addDownstream clientId traffic)
      { s with
        audit := s.audit.addDownstreamTrafficOf clientId traffic
        history := s.credit clientId 0 traffic }
  | asks (here : s.pc = .idle) : Move s .syncOnce { s with pc := .fetching }
  | askFails {error} (here : s.pc = .idle) : Move s .syncOnce (s.finish (.error error))
  | reports (here : s.pc = .idle) : Move s .reportTrafficOnce { s with pc := .gathering }
  | fetches {reply users} (here : s.pc = .fetching) (answer : received reply = .ok users) :
      Move s (.fetched reply) { s with pc := .listing users }
  | fetchFails {reply error} (here : s.pc = .fetching) : Move s (.fetched reply) (s.finish (.error error))
  | lists {order : List Uuid} {users : List SyncUser} (here : s.pc = .listing users)
      (listed : order.Perm s.audit.keys) : Move s (.list order) { s with pc := .syncing order [] users }
  | gathers {order : List Uuid} (here : s.pc = .gathering) (listed : order.Perm s.audit.keys) :
      Move s (.list order) { s with pc := .counting order [] ∅ }
  | enters {existing seen user users} (here : s.pc = .syncing existing seen (user :: users)) :
      Move s .next (s.syncUser existing seen users user)
  | entered {existing seen} (here : s.pc = .syncing existing seen []) :
      Move s .next { s with pc := .removing seen existing }
  | removes {seen existing clientId} (here : s.pc = .removing seen (clientId :: existing)) :
      Move s .next (s.removeUnseen seen existing clientId)
  | removed {seen} (here : s.pc = .removing seen []) : Move s .next (s.finish (.ok ()))
  | counts {clientId left payload current} (here : s.pc = .counting (clientId :: left) payload current) :
      Move s .next (s.countClient left payload current clientId)
  | counted {payload current} (here : s.pc = .counting [] payload current) : Move s .next (s.post payload current)
  | settles {reply payload current} (here : s.pc = .posting payload current) : Move s (.replied reply)
      { s.finish (.ok ()) with
        reportedTraffic := insertAll s.reportedTraffic current
        history := s.history ++ [.acknowledged payload] }
  | replyFails {reply payload current error} (here : s.pc = .posting payload current) :
      Move s (.replied reply) (s.finish (.error error))

theorem step_move (stepped : s.step a = some t) : Move s a t := by
  cases a with
  | addUpstream clientId traffic =>
    cases stepped
    exact .addsUp clientId traffic
  | addDownstream clientId traffic =>
    cases stepped
    exact .addsDown clientId traffic
  | syncOnce =>
    simp only [step] at stepped
    split_ifs at stepped with here
    split at stepped
    · cases stepped
      exact .askFails (not_not.mp here)
    · cases stepped
      exact .asks (not_not.mp here)
  | reportTrafficOnce =>
    simp only [step] at stepped
    split_ifs at stepped with here
    cases stepped
    exact .reports (not_not.mp here)
  | fetched reply =>
    simp only [step] at stepped
    split_ifs at stepped with here
    split at stepped
    · cases stepped
      exact .fetchFails (not_not.mp here)
    · rename_i users answer
      cases stepped
      exact .fetches (not_not.mp here) answer
  | list order =>
    simp only [step] at stepped
    split_ifs at stepped with listed
    split at stepped
    · rename_i users here
      cases stepped
      exact .lists here listed
    · rename_i here
      cases stepped
      exact .gathers here listed
    · cases stepped
  | next =>
    simp only [step] at stepped
    split at stepped
    · rename_i here
      cases stepped
      exact .entered here
    · rename_i here
      cases stepped
      exact .enters here
    · rename_i here
      cases stepped
      exact .removed here
    · rename_i here
      cases stepped
      exact .removes here
    · rename_i here
      cases stepped
      exact .counted here
    · rename_i here
      cases stepped
      exact .counts here
    · cases stepped
  | replied reply =>
    simp only [step] at stepped
    split at stepped
    · rename_i here
      split at stepped
      · cases stepped
        exact .replyFails here
      · cases stepped
        exact .settles here
    · cases stepped

/-- The loops of `sync_once`, after its request. -/
def syncs : PanelPc → Bool
  | .syncing _ _ _ | .removing _ _ => true
  | .idle | .fetching | .listing _ | .gathering | .counting _ _ _ | .posting _ _ => false

def adds : PanelAction → Bool
  | .addUpstream _ _ | .addDownstream _ _ => true
  | .syncOnce | .reportTrafficOnce | .fetched _ | .list _ | .next | .replied _ => false

/-- All that a step can do to the audit and to what is remembered as reported. -/
inductive Touches (s : Panel) (a : PanelAction) (t : Panel) : Prop where
  | credits : adds a = true → t.reportedTraffic = s.reportedTraffic → t.returned = s.returned →
      (∀ id, s.audit.lookup id = none → t.audit.lookup id = none) → Touches s a t
  | enrols : syncs s.pc = true → t.reportedTraffic = s.reportedTraffic → t.returned = s.returned →
      (∀ id node, s.audit.lookup id = none → t.audit.lookup id = some node → node.traffic = 0) → Touches s a t
  | removes : syncs s.pc = true → t.returned = s.returned →
      (∀ id, s.audit.lookup id = none → t.audit.lookup id = none) → Touches s a t
  | settles : t.audit = s.audit → t.returned = s.returned ++ [.ok ()] → Touches s a t
  | leaves : t.audit = s.audit → t.reportedTraffic = s.reportedTraffic → Touches s a t

theorem Touches.failed (touches : Touches s a t) {error}
    (failed : t.returned = s.returned ++ [.error error]) :
    t.audit = s.audit ∧ t.reportedTraffic = s.reportedTraffic := by
  have grown : t.returned ≠ s.returned := by
    rw [failed]
    simp
  cases touches with
  | credits _ _ same _ => exact absurd same grown
  | enrols _ _ same _ => exact absurd same grown
  | removes _ same _ => exact absurd same grown
  | settles _ done =>
    rw [failed] at done
    simp at done
  | leaves audit reported => exact ⟨audit, reported⟩

/-- Only the loops of `sync_once` enter or remove clients, and only an acknowledged report
changes what is remembered. -/
theorem Touches.outside (touches : Touches s a t) (call : adds a = false) (outside : syncs s.pc = false) :
    t.audit = s.audit ∧ (t.reportedTraffic = s.reportedTraffic ∨ t.returned = s.returned ++ [.ok ()]) := by
  cases touches with
  | credits added => exact absurd (call.symm.trans added) (by decide)
  | enrols looping => exact absurd (outside.symm.trans looping) (by decide)
  | removes looping => exact absurd (outside.symm.trans looping) (by decide)
  | settles audit done => exact ⟨audit, .inr done⟩
  | leaves audit reported => exact ⟨audit, .inl reported⟩

theorem Touches.entered (touches : Touches s a t) (books : s.Books) {id node}
    (missing : s.audit.lookup id = none) (found : t.audit.lookup id = some node) :
    node.traffic = 0 ∧ t.reportedTraffic.lookup id = none := by
  cases touches with
  | credits _ _ _ stays => cases (stays id missing).symm.trans found
  | enrols _ reported _ fresh => exact ⟨fresh id node missing found, reported ▸ books.absent id missing⟩
  | removes _ _ stays => cases (stays id missing).symm.trans found
  | settles audit => cases (audit ▸ missing).symm.trans found
  | leaves audit => cases (audit ▸ missing).symm.trans found

/-- A response that is taken as a success. -/
def accepted {α : Type} (data : α) : Except String (PanelResponse α) :=
  .ok ⟨200, "200 OK", .ok ⟨some 1, "", .ok data⟩⟩

end Panel

end AnyTls
