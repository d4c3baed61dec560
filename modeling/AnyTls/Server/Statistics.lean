import AnyTls.Server.Accounting

/-! The figures of `GET /stats` over the whole server. The counters of every entry show the totals of
the connections of its user, whatever user sets are pushed meanwhile; a scrape, which loads one counter
after the other while connections go on, reports for each user and each counter the total of a moment
between the request and the answer. -/
namespace AnyTls
variable {Address : Type}

namespace UserEntry

theorem Shows.of_counters {entry other : UserEntry} {totals} (shown : entry.Shows totals)
    (same : other.counters = entry.counters) : other.Shows totals := by
  simp only [counters, Prod.mk.injEq] at same
  obtain ⟨connections, up, down, -⟩ := same
  exact ⟨up.trans shown.up, down.trans shown.down, connections.trans shown.connections⟩

end UserEntry

/-! ### Replacing the user set -/

/-- Every entry is an old one with its counters, or a new one with none. -/
structure Descends (heap after : List UserEntry) : Prop where
  grows : heap.length ≤ after.length
  entries : ∀ (id : EntryId) entry', after[id]? = some entry' →
    (∃ entry, heap[id]? = some entry ∧ entry'.counters = entry.counters) ∨
      heap.length ≤ id ∧ entry'.counters = (0, 0, 0, 0)

namespace Descends
variable {heap after : List UserEntry}

theorem refl (heap : List UserEntry) : Descends heap heap :=
  ⟨Nat.le_refl _, fun _ entry stored => .inl ⟨entry, stored, rfl⟩⟩

theorem modify (descends : Descends heap after) (target) {f}
    (same : ∀ entry, (f entry).counters = entry.counters) : Descends heap (after.modify target f) := by
  refine ⟨by rw [List.length_modify]; exact descends.grows, fun id entry' stored => ?_⟩
  rw [List.getElem?_modify] at stored
  obtain ⟨before, placed, rfl⟩ := Option.map_eq_some_iff.mp stored
  have counters : (if target = id then f before else before).counters = before.counters := by
    split_ifs
    · exact same before
    · rfl
  rcases descends.entries id before placed with ⟨entry, stored, kept⟩ | ⟨young, none⟩
  · exact .inl ⟨entry, stored, counters.trans kept⟩
  · exact .inr ⟨young, counters.trans none⟩

theorem append (descends : Descends heap after) (spec) : Descends heap (after ++ [UserEntry.new spec]) := by
  refine ⟨by rw [List.length_append]; exact Nat.le_add_right_of_le descends.grows, fun id entry' stored => ?_⟩
  rcases Nat.lt_or_ge id after.length with old | new
  · rw [List.getElem?_append_left old] at stored
    exact descends.entries id entry' stored
  · rw [List.getElem?_append_right new] at stored
    obtain rfl := List.mem_singleton.mp (List.mem_of_getElem? stored)
    exact .inr ⟨descends.grows.trans new, rfl⟩

end Descends

namespace UserRegistry
variable {hashPassword : String → PasswordHash} {heap : List UserEntry}

theorem replaceOne_descends {building} (descends : Descends heap building.heap) (old : Index) (spec) :
    Descends heap (replaceOne hashPassword old building spec).heap := by
  unfold replaceOne
  split_ifs
  · exact descends
  · simp only
    split_ifs
    · exact descends
    · split
      · exact descends.modify _ fun entry => entry.reissue_counters _ _
      · exact descends.append spec

theorem revokeAbsent_descends {after} (descends : Descends heap after)
    (kept : AList fun _ : String => EntryId) (entries : List (Sigma fun _ : String => EntryId)) :
    Descends heap (revokeAbsent kept after entries) := by
  unfold revokeAbsent
  induction entries generalizing after with
  | nil => exact descends
  | cons user rest ih =>
    rw [List.foldl_cons]
    refine ih ?_
    split_ifs
    · exact descends
    · exact descends.modify _ fun _ => rfl

theorem replace_descends (registry : UserRegistry) (specs) :
    Descends registry.heap (registry.replace hashPassword specs).heap := by
  have built (building : UserRegistry) (descends : Descends registry.heap building.heap) :
      Descends registry.heap (specs.foldl (replaceOne hashPassword registry.index) building).heap := by
    induction specs generalizing building with
    | nil => exact descends
    | cons spec rest ih => exact ih _ (replaceOne_descends descends registry.index spec)
  exact revokeAbsent_descends (built ⟨registry.heap, ∅, ∅⟩ (.refl _)) _ _

end UserRegistry

/-! ### The books -/

theorem ServerConnection.Moved.task_mem {codec config stores stores'} {c next : ServerConnection Address}
    {action} (moved : Moved codec config stores c action next stores') {task} (member : task ∈ next.tasks) :
    task ∈ c.tasks ∨ (∃ peerVersion, task = .start peerVersion) ∨
      ∃ before ∈ c.tasks, ∃ act counted, before.step codec (c.approved config stores) act = some (task, counted) := by
  cases moved with
  | own advanced =>
    rcases advanced.tasks with same | ⟨peerVersion, more⟩
    · exact .inl (same ▸ member)
    · rw [more] at member
      rcases List.mem_append.mp member with old | new
      · exact .inl old
      · exact .inr (.inl ⟨peerVersion, List.mem_singleton.mp new⟩)
  | @task k act before after counted inside taken =>
    rcases List.mem_or_eq_of_mem_set member with old | rfl
    · exact .inl old
    · exact .inr (.inr ⟨before, List.mem_of_getElem? inside, act, counted, taken⟩)

namespace ServerNode
variable {crates : ServerCrates Address} {config : ServerConfig} {s t : ServerNode Address} {a : ServerAction Address}

/-- The totals over the connections of an entry's user. -/
def totalsOf (connections : List (ServerConnection Address)) (id : EntryId) : Totals :=
  ⟨(connections.map fun c => c.own id c.up).sum, (connections.map fun c => c.own id c.down).sum,
    (connections.map fun c => c.own id c.live).sum⟩

def totals (s : ServerNode Address) (id : EntryId) : Totals := totalsOf s.connections id

/-- The counters of the entries show the totals, and the tallies of the handlers are exact. -/
structure Booked (hashPassword : String → PasswordHash) (s : ServerNode Address) : Prop where
  tracked : ∃ n, s.Tracked hashPassword n
  shown : ∀ (id : EntryId) entry, s.stores.registry.heap[id]? = some entry → entry.Shows (s.totals id)
  exact : ∀ c ∈ s.connections, ∀ task ∈ c.tasks, task.Exact

theorem totalsOf_split {connections : List (ServerConnection Address)} {i} {c : ServerConnection Address}
    (placed : connections[i]? = some c) (id) :
    totalsOf connections id = c.joins id (totalsOf (connections.eraseIdx i) id) := by
  simp only [totalsOf, ServerConnection.joins, ListUpdate.sum_map_split placed]

theorem totalsOf_set {connections : List (ServerConnection Address)} {i}
    {c after : ServerConnection Address} (placed : connections[i]? = some c) (id) :
    totalsOf (connections.set i after) id = after.joins id (totalsOf (connections.eraseIdx i) id) := by
  simp only [totalsOf, ServerConnection.joins, ListUpdate.sum_map_set placed]

/-- No connection is for an entry that is not there yet. -/
theorem Tracked.totals_young {hashPassword n} (tracked : s.Tracked hashPassword n) {id}
    (young : s.stores.registry.heap.length ≤ id) : s.totals id = ⟨0, 0, 0⟩ := by
  have none : ∀ c ∈ s.connections, ∀ amount, c.own id amount = 0 := by
    intro c member amount
    cases authed : c.user with
    | none => exact ServerConnection.own_none authed
    | some user =>
      obtain ⟨entry, bumps, follows, -⟩ :=
        tracked.follows c member user (ServerConnection.guard?_of_user (tracked.fresh c member) authed)
      have inside := (List.getElem?_eq_some_iff.mp follows.stored).1
      rw [ServerConnection.own_some authed, if_neg (Nat.ne_of_lt (Nat.lt_of_lt_of_le inside young))]
  have zero (f : ServerConnection Address → Nat) : (s.connections.map fun c => c.own id (f c)).sum = 0 := by
    refine List.sum_eq_zero fun amount member => ?_
    obtain ⟨c, inside, rfl⟩ := List.mem_map.mp member
    exact none c inside (f c)
  simp only [totals, totalsOf, zero]

theorem Booked.descends {hashPassword} (booked : s.Booked hashPassword) {after : UserRegistry}
    (descends : Descends s.stores.registry.heap after.heap) {id} {entry : UserEntry}
    (stored : after.heap[id]? = some entry) : entry.Shows (s.totals id) := by
  rcases descends.entries id entry stored with ⟨before, placed, same⟩ | ⟨young, none⟩
  · exact (booked.shown id before placed).of_counters same
  · obtain ⟨n, tracked⟩ := booked.tracked
    rw [tracked.totals_young young]
    simp only [UserEntry.counters, Prod.mk.injEq] at none
    exact ⟨none.2.1, none.2.2.1, none.1⟩

theorem Booked.shown_step (booked : s.Booked crates.hashPassword) (moved : Moved crates config s a t) {id}
    {entry : UserEntry} (stored : t.stores.registry.heap[id]? = some entry) : entry.Shows (t.totals id) := by
  cases moved with
  | accept =>
    have same : ServerNode.totals { s with connections := s.connections ++ [.new] } id = s.totals id := by
      simp [totals, totalsOf, ServerConnection.own_none (c := ServerConnection.new) rfl]
    rw [same]
    exact booked.shown id entry stored
  | request | panel => exact booked.shown id entry stored
  | @connection i action before after stores placed moved =>
    obtain ⟨n, tracked⟩ := booked.tracked
    obtain ⟨old, placed', posts⟩ := moved.posts (tracked.fresh before (List.mem_of_getElem? placed)) entry stored
    rw [totals, totalsOf_set placed]
    refine posts ?_
    rw [← totalsOf_split placed]
    exact booked.shown id old placed'
  | api placed stepped =>
    cases ApiCall.step_moved _ _ _ stepped with
    | routes | loads | lists | reports | rejects | counts | loadsUp | loadsDown => exact booked.shown id entry stored
    | replaces request bytes body => exact booked.descends (UserRegistry.replace_descends _ _) stored
    | stores request email target =>
      obtain ⟨old, placed', rfl⟩ := Node.Kept.stored_of_modify stored
      have shown := booked.shown id old placed'
      split_ifs
      · exact ⟨shown.up, shown.down, shown.connections⟩
      · exact shown

theorem booked_step (booked : s.Booked crates.hashPassword) (stepped : s.step crates config a = some t) :
    t.Booked crates.hashPassword := by
  have moved := step_moved stepped
  obtain ⟨n, tracked⟩ := booked.tracked
  refine ⟨⟨_, tracked_step tracked stepped⟩, fun id entry stored => booked.shown_step moved stored, ?_⟩
  intro c member task inside
  rcases moved.connection_mem member with old | rfl | ⟨before, earlier, action, stores, moves⟩
  · exact booked.exact c old task inside
  · cases inside
  · rcases moves.task_mem inside with old | ⟨peerVersion, rfl⟩ | ⟨first, old, act, counted, taken⟩
    · exact booked.exact before earlier task old
    · exact ⟨rfl, rfl⟩
    · exact (booked.exact before earlier first old).step taken

theorem booked_start (crates : ServerCrates Address) (panel users) :
    (start crates panel users).Booked crates.hashPassword where
  tracked := ⟨0, tracked_start crates panel users⟩
  shown id entry stored := by
    rcases (UserRegistry.replace_descends UserRegistry.new users.intoSpecs).entries id entry stored with
      ⟨before, placed, -⟩ | ⟨-, none⟩
    · cases placed
    · simp only [UserEntry.counters, Prod.mk.injEq] at none
      exact ⟨none.2.1, none.2.2.1, none.1⟩
  exact _ member := absurd member List.not_mem_nil

/-- In every run, the counters of every entry show what the stream handlers of its user's
connections have counted, those that are over included, and how many of these connections are alive;
and every handler has counted what it passed on, in either direction. -/
theorem counters_account (crates : ServerCrates Address) (config : ServerConfig) (panel : PanelSyncConfig)
    (users : UsersPutBody) {actions : List (ServerAction Address)}
    (path : Transition.run (step crates config) (start crates panel users) actions = some s) :
    (∀ (id : EntryId) entry, s.stores.registry.heap[id]? = some entry → entry.Shows (s.totals id)) ∧
      ∀ c ∈ s.connections, ∀ task ∈ c.tasks, task.Exact := by
  have booked := Transition.invariant booked_step (booked_start crates panel users) path
  exact ⟨booked.shown, booked.exact⟩

/-- A byte goes to the destination and two come back. -/
def exchanged : List (ServerAction (Bytes × UInt16)) :=
  [HandlerAction.s2o .poll, .s2o .poll, .s2o (.wrote (.ok ())), .o2s (.read (.ok [1, 2]))].map
    fun action => .connection 0 (.task 0 (.own action))

theorem exchanged_account : ∃ s entry,
    Transition.run (step lengthCrates perUser) (start lengthCrates noPanel oneUser) (admission ++ relayed ++ exchanged) =
      some s ∧
    s.stores.registry.heap[0]? = some entry ∧ entry.Shows (s.totals 0) ∧ s.totals 0 = ⟨1, 2, 1⟩ := by
  have runs : (Transition.run (step lengthCrates perUser) (start lengthCrates noPanel oneUser)
      (admission ++ relayed ++ exchanged)).any (fun s =>
        s.stores.registry.heap[0]?.isSome && s.totals 0 = ⟨1, 2, 1⟩) = true := by
    decide +kernel
  obtain ⟨s, reached, both⟩ := (Option.any_eq_true _ _).mp runs
  rw [Bool.and_eq_true, decide_eq_true_eq] at both
  obtain ⟨entry, stored⟩ := Option.isSome_iff_exists.mp both.1
  exact ⟨s, entry, reached, stored, (counters_account lengthCrates perUser noPanel oneUser reached).1 0 entry stored,
    both.2⟩

end ServerNode

/-! ### Scrapes -/

/-- A request that may be answered with statistics. -/
def ApiPhase.reports : ApiPhase → Bool
  | .received | .scraping .. | .answered ⟨_, .stats _⟩ => true
  | _ => false

namespace ApiCall
variable {hashPassword : String → PasswordHash} {fromSlice : Bytes → Except String UsersPutBody} {token : Option String}
  {collected : Except String Bytes} {registry registry' : UserRegistry} {call after : ApiCall}

theorem Moved.reports_before (moved : Moved hashPassword fromSlice token collected registry call after registry')
    (later : after.phase.reports = true) : call.phase.reports = true := by
  cases moved with
  | routes | loads | lists | reports => rfl
  | rejects | replaces | counts | loadsUp | loadsDown | stores => cases later

end ApiCall

namespace ServerNode
variable {crates : ServerCrates Address} {config : ServerConfig} {s t : ServerNode Address} {a : ServerAction Address}
  {j : Nat}

/-- A request has stayed as it is, or taken the step. -/
theorem call_step (stepped : s.step crates config a = some t) {call} (found : s.calls[j]? = some call) :
    ∃ after, t.calls[j]? = some after ∧ (after = call ∨ ∃ collected, a = .api j collected ∧
      ApiCall.Moved crates.hashPassword crates.fromSlice config.apiToken collected s.stores.registry call after
        t.stores.registry) := by
  have inside := (List.getElem?_eq_some_iff.mp found).1
  cases step_moved stepped with
  | accept | connection | panel => exact ⟨call, found, .inl rfl⟩
  | request => exact ⟨call, (List.getElem?_append_left inside).trans found, .inl rfl⟩
  | @api other collected before after registry placed moved =>
    by_cases own : other = j
    · subst own
      cases placed.symm.trans found
      exact ⟨after, List.getElem?_set_self inside, .inr ⟨collected, rfl, ApiCall.step_moved _ _ _ moved⟩⟩
    · exact ⟨call, (List.getElem?_set_ne own).trans found, .inl rfl⟩

theorem answered_run {more} (onward : Transition.run (step crates config) s more = some t)
    {request response} (found : s.calls[j]? = some ⟨request, .answered response⟩) :
    t.calls[j]? = some ⟨request, .answered response⟩ := by
  have kept : ∀ {s : ServerNode Address} {a t}, s.calls[j]? = some ⟨request, .answered response⟩ →
      s.step crates config a = some t → t.calls[j]? = some ⟨request, .answered response⟩ := by
    intro s a t found stepped
    obtain ⟨after, found', rfl | ⟨collected, -, moved⟩⟩ := call_step stepped found
    · exact found'
    · cases moved
  exact Transition.invariant kept found onward

/-- A property of the phases of a request that goes from each phase to the one before. -/
theorem phase_run {P : ApiPhase → Prop}
    (closed : ∀ {collected registry call after registry'}, ApiCall.Moved crates.hashPassword crates.fromSlice
      config.apiToken collected registry call after registry' → P after.phase → P call.phase)
    {more : List (ServerAction Address)} (onward : Transition.run (step crates config) s more = some t)
    {call last : ApiCall} (found : s.calls[j]? = some call) (found' : t.calls[j]? = some last) (later : P last.phase) :
    P call.phase := by
  induction more generalizing s call with
  | nil =>
    cases onward
    cases found.symm.trans found'
    exact later
  | cons a rest ih =>
    obtain ⟨u, stepped, path⟩ := Transition.run_cons_some.mp onward
    obtain ⟨after, placed, rfl | ⟨collected, -, moved⟩⟩ := call_step stepped found
    · exact ih path placed
    · exact closed moved (ih path placed)

/-- A row is loaded from an entry along a run, one load after the other. -/
def Loaded (crates : ServerCrates Address) (config : ServerConfig) (id : EntryId) :
    List Load → StatsUser → StatsUser → ServerNode Address → List (ServerAction Address) → Prop
  | [], row, final, _, _ => final = row
  | load :: more, row, final, s, actions => ∃ front rest v entry, actions = front ++ rest ∧
    Transition.run (step crates config) s front = some v ∧ v.stores.registry.heap[id]? = some entry ∧
    Loaded crates config id more (load.apply entry row) final v rest

theorem Loaded.cons {id loads row final rest} (stepped : s.step crates config a = some t)
    (loaded : Loaded crates config id loads row final t rest) :
    Loaded crates config id loads row final s (a :: rest) := by
  cases loads with
  | nil => exact loaded
  | cons load more =>
    obtain ⟨front, back, v, entry, rfl, path, stored, later⟩ := loaded
    exact ⟨a :: front, back, v, entry, rfl, Transition.run_cons_some.mpr ⟨t, stepped, path⟩, stored, later⟩

/-- What later loads leave alone. -/
theorem Loaded.keeps {β : Type} {f : StatsUser → β} {id : EntryId} {loads : List Load} {row final : StatsUser}
    {actions : List (ServerAction Address)} (same : ∀ load ∈ loads, ∀ entry row, f (load.apply entry row) = f row)
    (loaded : Loaded crates config id loads row final s actions) : f final = f row := by
  induction loads generalizing s row actions with
  | nil => exact congrArg f loaded
  | cons load more ih =>
    obtain ⟨front, rest, v, entry, -, -, -, later⟩ := loaded
    have last := ih (fun load member => same load (List.mem_cons_of_mem _ member)) later
    exact last.trans (same load List.mem_cons_self entry row)

/-- The run goes through a state at which the entry has the email. -/
def Named (crates : ServerCrates Address) (config : ServerConfig) (s : ServerNode Address)
    (actions : List (ServerAction Address)) (id : EntryId) (email : String) : Prop :=
  ∃ v entry, Transition.Visits (step crates config) s actions v ∧ v.stores.registry.heap[id]? = some entry ∧
    entry.email = email

theorem Named.cons {id email rest} (stepped : s.step crates config a = some t)
    (named : Named crates config t rest id email) :
    Named crates config s (a :: rest) id email := by
  obtain ⟨v, entry, visits, stored⟩ := named
  exact ⟨v, entry, visits.cons stepped, stored⟩

/-- How the rows of a scrape that is under way come about. The row of the first entry that is left
has the loads still to come, the others have all of them. -/
structure Scraped (crates : ServerCrates Address) (config : ServerConfig) (s : ServerNode Address)
    (actions : List (ServerAction Address)) (left : List EntryId) (rows : AList fun _ : String => StatsUser)
    (row : StatsUser) (loads : List Load) (final : AList fun _ : String => StatsUser) : Prop where
  made : ∀ email shown, final.lookup email = some shown → rows.lookup email = some shown ∨
    ∃ id ∈ left, Named crates config s actions id email ∧ (Loaded crates config id Load.all .blank shown s actions ∨
      left.head? = some id ∧ Loaded crates config id loads row shown s actions)
  kept : ∀ email ∈ rows, email ∈ final
  reached : ∀ id ∈ left, ∃ email ∈ final, Named crates config s actions id email

section Scraped
variable {rest : List (ServerAction Address)} {left : List EntryId} {rows final : AList fun _ : String => StatsUser}
  {row : StatsUser} {loads : List Load}

theorem Scraped.cons (stepped : s.step crates config a = some t)
    (scraped : Scraped crates config t rest left rows row loads final) :
    Scraped crates config s (a :: rest) left rows row loads final where
  made email shown listed := by
    refine (scraped.made email shown listed).imp_right ?_
    rintro ⟨id, member, named, loaded⟩
    exact ⟨id, member, named.cons stepped, loaded.imp (.cons stepped) fun own => ⟨own.1, own.2.cons stepped⟩⟩
  kept := scraped.kept
  reached id member := by
    obtain ⟨email, reported, named⟩ := scraped.reached id member
    exact ⟨email, reported, named.cons stepped⟩

theorem Scraped.load {id entry load} (stored : s.stores.registry.heap[id]? = some entry)
    (scraped : Scraped crates config s rest (id :: left) rows (load.apply entry row) loads final) :
    Scraped crates config s rest (id :: left) rows row (load :: loads) final where
  made email shown listed := by
    refine (scraped.made email shown listed).imp_right ?_
    rintro ⟨other, member, named, loaded⟩
    refine ⟨other, member, named, loaded.imp_right ?_⟩
    rintro ⟨first, loaded⟩
    cases first
    exact ⟨rfl, [], rest, s, entry, rfl, rfl, stored, loaded⟩
  kept := scraped.kept
  reached := scraped.reached

theorem Scraped.list {id entry} (stored : s.stores.registry.heap[id]? = some entry)
    (scraped : Scraped crates config s rest left (rows.insert entry.email row) .blank Load.all final) :
    Scraped crates config s rest (id :: left) rows row [] final where
  made email shown listed := by
    rcases scraped.made email shown listed with new | ⟨other, member, named, loaded⟩
    · by_cases same : email = entry.email
      · subst same
        rw [AList.lookup_insert, Option.some.injEq] at new
        exact .inr ⟨id, List.mem_cons_self, ⟨s, entry, .start s _, stored, rfl⟩, .inr ⟨rfl, new.symm⟩⟩
      · exact .inl ((AList.lookup_insert_ne same).symm.trans new)
    · exact .inr ⟨other, List.mem_cons_of_mem _ member, named, .inl (loaded.elim (·) (·.2))⟩
  kept email member := scraped.kept email ((AList.mem_insert _).mpr (.inr member))
  reached other member := by
    rcases List.mem_cons.mp member with rfl | later
    · exact ⟨entry.email, scraped.kept _ ((AList.mem_insert _).mpr (.inl rfl)), s, entry, .start s _, stored, rfl⟩
    · exact scraped.reached other later

theorem scraping_run (onward : Transition.run (step crates config) s rest = some t) {request last}
    (found : s.calls[j]? = some ⟨request, .scraping left rows row loads⟩)
    (found' : t.calls[j]? = some ⟨last, .answered ⟨200, .stats final⟩⟩) :
    Scraped crates config s rest left rows row loads final := by
  induction rest generalizing s left rows row loads with
  | nil =>
    cases onward
    cases found.symm.trans found'
  | cons a rest ih =>
    obtain ⟨u, stepped, path⟩ := Transition.run_cons_some.mp onward
    obtain ⟨after, placed, rfl | ⟨collected, -, moved⟩⟩ := call_step stepped found
    · exact (ih path placed).cons stepped
    · generalize u.stores.registry = registry at moved
      cases moved with
      | loads _ _ _ _ _ _ _ entry stored => exact ((ih path placed).cons stepped).load stored
      | lists _ _ _ _ _ entry stored => exact ((ih path placed).cons stepped).list stored
      | reports =>
        cases (answered_run path placed).symm.trans found'
        exact ⟨fun _ _ listed => .inl listed, fun _ member => member, nofun⟩

end Scraped

/-- A request that is answered with statistics has read the index at some point. -/
theorem scrape_begins {more : List (ServerAction Address)}
    (onward : Transition.run (step crates config) s more = some t) {request last : Request}
    {final : AList fun _ : String => StatsUser} (asked : s.calls[j]? = some ⟨request, .received⟩)
    (found' : t.calls[j]? = some ⟨last, .answered ⟨200, .stats final⟩⟩) :
    ∃ front rest u, more = front ++ rest ∧ Transition.run (step crates config) s front = some u ∧
      Transition.run (step crates config) u rest = some t ∧
      u.calls[j]? =
        some ⟨request, .scraping (u.stores.registry.index.byEmail.entries.map (·.2)) ∅ .blank Load.all⟩ := by
  induction more generalizing s with
  | nil =>
    cases onward
    cases asked.symm.trans found'
  | cons a rest ih =>
    obtain ⟨u, stepped, path⟩ := Transition.run_cons_some.mp onward
    obtain ⟨after, placed, rfl | ⟨collected, -, moved⟩⟩ := call_step stepped asked
    · obtain ⟨front, back, v, rfl, reached, later, scraping⟩ := ih path placed
      exact ⟨a :: front, back, v, rfl, Transition.run_cons_some.mpr ⟨u, stepped, reached⟩, later, scraping⟩
    · have first : Transition.run (step crates config) s [a] = some u := Transition.run_cons_some.mpr ⟨u, stepped, rfl⟩
      have reports : after.phase.reports = true :=
        phase_run (P := fun phase => phase.reports = true) ApiCall.Moved.reports_before path placed found' rfl
      generalize same : u.stores.registry = registry at moved
      cases moved with
      | routes _ phase routed =>
        cases routed with
        | scrapes => exact ⟨[a], rest, u, rfl, first, path, same ▸ placed⟩
        | unauthorized | refuses | healthy | collects | finds => cases reports

end ServerNode

/-! ### Emails -/

namespace UserRegistry
variable {hashPassword : String → PasswordHash} {registry after : UserRegistry} {id : EntryId} {entry : UserEntry}

theorem Keeps.email (keeps : registry.Keeps after) (stored : registry.heap[id]? = some entry) :
    ∃ entry', after.heap[id]? = some entry' ∧ entry'.email = entry.email := by
  induction keeps with
  | refl => exact ⟨entry, stored, rfl⟩
  | modify other f _ neutral ih =>
    obtain ⟨entry', stored', same⟩ := ih
    refine ⟨_, modify_heap_self id stored', ?_⟩
    split_ifs
    · exact (neutral entry').1.trans same
    · exact same

/-- The email of an entry never changes. -/
theorem Changes.email (changes : registry.Changes hashPassword after)
    (rep : ∃ users, registry.Represents hashPassword users) (stored : registry.heap[id]? = some entry) :
    ∃ entry', after.heap[id]? = some entry' ∧ entry'.email = entry.email := by
  rcases changes with keeps | ⟨body, rfl⟩
  · exact keeps.email stored
  · obtain ⟨users, rep⟩ := rep
    exact ⟨_, replace_heap rep body.intoSpecs_emails stored, fate_email rfl⟩

end UserRegistry

namespace ServerNode
variable {crates : ServerCrates Address} {config : ServerConfig} {s t : ServerNode Address} {j : Nat}

theorem email_run {n : Nat} {actions : List (ServerAction Address)} (tracked : s.Tracked crates.hashPassword n)
    (path : Transition.run (step crates config) s actions = some t) {id : EntryId} {entry : UserEntry}
    (stored : s.stores.registry.heap[id]? = some entry) :
    ∃ entry', t.stores.registry.heap[id]? = some entry' ∧ entry'.email = entry.email := by
  induction actions generalizing s n entry with
  | nil => cases path; exact ⟨entry, stored, rfl⟩
  | cons a rest ih =>
    obtain ⟨u, stepped, onward⟩ := Transition.run_cons_some.mp path
    obtain ⟨entry', stored', same⟩ := (changes stepped).email tracked.represents stored
    obtain ⟨last, stored'', later⟩ := ih (tracked_step tracked stepped) onward stored'
    exact ⟨last, stored'', later.trans same⟩

/-- The counters of a row are totals of the entry's user, each at a state that the run goes through:
first the connections, then the bytes in, then the bytes out. -/
def Accounts (crates : ServerCrates Address) (config : ServerConfig) (u : ServerNode Address)
    (actions : List (ServerAction Address)) (id : EntryId) (row : StatsUser) : Prop :=
  ∃ first second third rest v₁ v₂ v₃, actions = first ++ (second ++ (third ++ rest)) ∧
    Transition.run (step crates config) u first = some v₁ ∧ row.connections = Int64.ofNat (v₁.totals id).live ∧
    Transition.run (step crates config) v₁ second = some v₂ ∧ row.bytesIn = UInt64.ofNat (v₂.totals id).up ∧
    Transition.run (step crates config) v₂ third = some v₃ ∧ row.bytesOut = UInt64.ofNat (v₃.totals id).down

theorem Booked.accounts {u : ServerNode Address} (booked : u.Booked crates.hashPassword)
    {actions : List (ServerAction Address)} {id : EntryId} {row : StatsUser}
    (loaded : Loaded crates config id Load.all .blank row u actions) : Accounts crates config u actions id row := by
  obtain ⟨first, _, v₁, live, rfl, path₁, stored₁, second, _, v₂, up, rfl, path₂, stored₂, third, rest, v₃, down, rfl,
    path₃, stored₃, quota⟩ := loaded
  have booked₁ := Transition.invariant booked_step booked path₁
  have booked₂ := Transition.invariant booked_step booked₁ path₂
  have booked₃ := Transition.invariant booked_step booked₂ path₃
  -- the loads for the quota come later and leave the three counters alone
  have kept := quota.keeps (f := fun row => (row.connections, row.bytesIn, row.bytesOut)) (by
    intro load member entry row
    cases load <;> first | rfl | simp at member)
  simp only [Prod.mk.injEq] at kept
  obtain ⟨connections, bytesIn, bytesOut⟩ := kept
  exact ⟨first, second, third, rest, v₁, v₂, v₃, rfl, path₁, connections.trans (booked₁.shown id live stored₁).connections,
    path₂, bytesIn.trans (booked₂.shown id up stored₂).up, path₃, bytesOut.trans (booked₃.shown id down stored₃).down⟩

/-- What a scrape reports. If a request is answered with statistics, the run has gone through a state
`u` after the request came such that the rows are for the users served at `u`, and each counter of a row
is the total of its user at a state that the run goes through between `u` and the answer. -/
theorem scrape_accounts (crates : ServerCrates Address) (config : ServerConfig) (panel : PanelSyncConfig)
    (users : UsersPutBody) {actions more : List (ServerAction Address)}
    (path : Transition.run (step crates config) (start crates panel users) actions = some s)
    (onward : Transition.run (step crates config) s more = some t) {request last : Request}
    {rows : AList fun _ : String => StatsUser} (asked : s.calls[j]? = some ⟨request, .received⟩)
    (answered : t.calls[j]? = some ⟨last, .answered ⟨200, .stats rows⟩⟩) :
    ∃ front rest u, more = front ++ rest ∧ Transition.run (step crates config) s front = some u ∧
      (∀ email, (rows.lookup email).isSome = (u.stores.registry.get email).isSome) ∧
      ∀ email row, rows.lookup email = some row →
        ∃ id, u.stores.registry.get email = some id ∧ Accounts crates config u rest id row := by
  obtain ⟨front, rest, u, split, reached, later, scraping⟩ := scrape_begins onward asked answered
  have booked : u.Booked crates.hashPassword := Transition.invariant booked_step
    (Transition.invariant booked_step (booked_start crates panel users) path) reached
  obtain ⟨n, tracked⟩ := booked.tracked
  obtain ⟨known, rep⟩ := tracked.represents
  have scraped := scraping_run later scraping answered
  -- an entry of the index that is read later still has the email it had at `u`
  have named {email name : String} {id : EntryId} (listed : u.stores.registry.get email = some id)
      (called : Named crates config u rest id name) : name = email := by
    obtain ⟨v, entry, ⟨_, _, _, goes⟩, stored, rfl⟩ := called
    obtain ⟨_, before, -, -, placed, -⟩ := rep.live listed
    obtain ⟨entry', stored', same⟩ := email_run tracked goes placed
    cases stored'.symm.trans stored
    exact same.trans (rep.entry_email listed placed)
  have served {email : String} {row : StatsUser} (listed : rows.lookup email = some row) :
      ∃ id, u.stores.registry.get email = some id ∧ Loaded crates config id Load.all .blank row u rest := by
    rcases scraped.made email row listed with none | ⟨id, member, called, loaded⟩
    · cases none
    · obtain ⟨⟨name, _⟩, inside, rfl⟩ := List.mem_map.mp member
      have listed : u.stores.registry.get name = some _ := AList.mem_lookup_iff.mpr inside
      obtain rfl := named listed called
      exact ⟨_, listed, loaded.elim (·) (·.2)⟩
  refine ⟨front, rest, u, split, reached, fun email => ?_, fun email row listed => ?_⟩
  · rw [Bool.eq_iff_iff]
    constructor
    · intro there
      obtain ⟨row, listed⟩ := Option.isSome_iff_exists.mp there
      obtain ⟨id, found, -⟩ := served listed
      rw [found]
      rfl
    · intro there
      obtain ⟨id, listed⟩ := Option.isSome_iff_exists.mp there
      have member : id ∈ u.stores.registry.index.byEmail.entries.map (·.2) :=
        List.mem_map.mpr ⟨⟨email, id⟩, AList.mem_lookup_iff.mp listed, rfl⟩
      obtain ⟨name, reported, called⟩ := scraped.reached id member
      obtain rfl := named listed called
      exact AList.lookup_isSome.mpr reported
  · obtain ⟨id, found, loaded⟩ := served listed
    exact ⟨id, found, booked.accounts loaded⟩

def getStats : ServerAction (Bytes × UInt16) := .request ⟨.get, "/stats".toList, none, some 0⟩

/-- The exchange happens between the load of the bytes in and that of the bytes out. -/
def scrape : List (ServerAction (Bytes × UInt16)) :=
  List.replicate 3 (.api 0 (.ok [])) ++ exchanged ++ List.replicate 8 (.api 0 (.ok []))

/-- The answer to a scrape. -/
def rows? (call : ApiCall) : Option (AList fun _ : String => StatsUser) :=
  match call.phase with
  | .answered ⟨200, .stats rows⟩ => some rows
  | _ => none

theorem scrape_during_exchange : ∃ s t v : ServerNode (Bytes × UInt16), ∃ id, ∃ row : StatsUser,
    Transition.run (step lengthCrates perUser) (start lengthCrates noPanel oneUser) (admission ++ relayed ++ [getStats]) =
      some s ∧
    Transition.run (step lengthCrates perUser) s scrape = some t ∧
    row.bytesIn = 0 ∧ row.bytesOut = 2 ∧ row.bytesOut = UInt64.ofNat (v.totals id).down := by
  have runs : (Transition.run (step lengthCrates perUser) (start lengthCrates noPanel oneUser)
      (admission ++ relayed ++ [getStats])).any (fun s =>
        s.calls[0]?.any (fun call => call.phase matches .received) &&
        (Transition.run (step lengthCrates perUser) s scrape).any fun t =>
          t.calls[0]?.any fun call => (rows? call).any fun rows => (rows.lookup "a").any fun row =>
            row.bytesIn = 0 ∧ row.bytesOut = 2) = true := by
    decide +kernel
  obtain ⟨s, reached, both⟩ := (Option.any_eq_true _ _).mp runs
  rw [Bool.and_eq_true] at both
  obtain ⟨⟨request, phase⟩, asked, early⟩ := (Option.any_eq_true _ _).mp both.1
  obtain ⟨t, onward, last⟩ := (Option.any_eq_true _ _).mp both.2
  obtain ⟨⟨request', phase'⟩, answered, some⟩ := (Option.any_eq_true _ _).mp last
  obtain ⟨rows, reported, listed⟩ := (Option.any_eq_true _ _).mp some
  obtain ⟨row, found, two⟩ := (Option.any_eq_true _ _).mp listed
  rw [decide_eq_true_eq] at two
  cases phase with
  | received =>
    unfold rows? at reported
    split at reported
    · rename_i here
      cases here
      cases reported
      obtain ⟨front, rest, u, -, -, -, shown⟩ :=
        scrape_accounts lengthCrates perUser noPanel oneUser reached onward asked answered
      obtain ⟨id, -, _, _, _, _, _, _, v, -, -, -, -, -, -, down⟩ := shown "a" row found
      exact ⟨s, t, v, id, row, reached, onward, two.1, two.2, down⟩
    · cases reported
  | scraping | collecting | replaced | found | resetting | storing | answered => cases early

end ServerNode

end AnyTls
