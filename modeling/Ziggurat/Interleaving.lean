import Ziggurat.KnownNetwork

/-! # The store under concurrent calls

The crawler calls the store's methods from many tasks at once: gossip calls
`add_addrs`, pruning calls `remove_old_connections`, and the seed loop inserts
nodes.  The two maps have
separate locks and no method holds both, so calls interleave at their lock
sections.  A call in progress is a `Task`: the lock section it runs next and
the locals it holds.  A state of the system is the store, the clock and the
calls in progress, each under the id it started with (`State`); an `Event`
starts a call, runs the next section of one (`Task.advance`, built from the
sections of `KnownNetwork`), or advances the clock.  Every interleaving at lock
boundaries, under every clock schedule, is a list of events (`run`).

Run alone, each call is the sequential method of `KnownNetwork`
(`runAlone_refines`).  What holds in every reachable state (`Valid`): ids are
fresh, the connection set holds one element per unordered pair, and each side
of every connection is a key of the nodes map or will be made one by an
`add_addrs` call in progress (`Known`).  From it: the set never holds both
`(a, b)` and `(b, a)` (`connections_undirected`), and once no `add_addrs` call
is between its insert and its upsert every side of every connection is a node;
with an invariant of one call's run, an `add_addrs` with no prune about makes
its edges' sides nodes by the time it returns (`nodes_cover_connections`).
-/
namespace Ziggurat
namespace Interleaving
open KnownNetwork

/-- A call of the store's methods in progress, by the lock section it runs next
and the locals it holds. -/
inductive Task (Addr : Type) [DecidableEq Addr] where
  /-- `add_addrs(source, listening_addrs)`, before its connections write section. -/
  | addAddrs (source : Addr) (listeningAddrs : List Addr)
  /-- `update_nodes`, before its snapshot; `caller` holds the arguments of the
  `add_addrs` call it ends, if it ends one. -/
  | updateNodes (caller : Option (Addr × List Addr))
  /-- `update_nodes`, holding its prospect nodes, before its nodes write section. -/
  | upsertNodes (caller : Option (Addr × List Addr)) (prospectNodes : List Addr)
  /-- `remove_old_connections`, before its snapshot. -/
  | removeOldConnections
  /-- `remove_old_connections`' first loop, with the snapshot elements it has
  not looked at yet; with none left, its write section. -/
  | scanConnections (pending : List (KnownConnection Addr))
      (oldConns : HashSet (KnownConnection Addr))
  /-- The seed loop's `nodes.write().insert(addr, KnownNode::default())`. -/
  | insertSeed (addr : Addr)

/-- A call the crawler makes of the store. -/
inductive Call (Addr : Type) where
  | addAddrs (source : Addr) (listeningAddrs : List Addr)
  | updateNodes
  | removeOldConnections
  | insertSeed (addr : Addr)
  deriving DecidableEq

/-- What happens next: a call starts, a call runs its next lock section, or
the clock advances. -/
inductive Event (Addr : Type) where
  | call (c : Call Addr)
  | run (task : Nat)
  | tick (elapsed : Duration)
  deriving DecidableEq

/-- The store, the clock, and the calls in progress by id. -/
structure State (Addr : Type) [DecidableEq Addr] where
  network : KnownNetwork Addr
  clock : Instant
  tasks : Nat → Option (Task Addr)
  nextTask : Nat

variable {Addr : Type} [LinearOrder Addr]

/-- A call as it starts. -/
def Call.start : Call Addr → Task Addr
  | .addAddrs source listeningAddrs => .addAddrs source listeningAddrs
  | .updateNodes => .updateNodes none
  | .removeOldConnections => .removeOldConnections
  | .insertSeed addr => .insertSeed addr

/-- The next lock section of a call, run at the instant `now`: the store after
it, and where the call stands then (`none` once it has returned). -/
def Task.advance (now : Instant) (net : KnownNetwork Addr) :
    Task Addr → KnownNetwork Addr × Option (Task Addr)
  | .addAddrs source addrs =>
    ({ net with connections := KnownNetwork.insertConnections now source addrs net.connections },
      some (.updateNodes (some (source, addrs))))
  | .updateNodes caller =>
    (net, some (.upsertNodes caller (KnownNetwork.prospectNodes net.connections.elems)))
  | .upsertNodes _ prospects =>
    ({ net with nodes := KnownNetwork.upsertNodes prospects net.nodes }, none)
  | .removeOldConnections =>
    (net, some (.scanConnections net.connections.elems net.connections.clear))
  | .scanConnections (conn :: pending) oldConns =>
    (net, some (.scanConnections pending (KnownNetwork.collectOld now oldConns conn)))
  | .scanConnections [] oldConns =>
    ({ net with connections := KnownNetwork.dropOldConns oldConns net.connections }, none)
  | .insertSeed addr => ({ net with nodes := Function.update net.nodes addr (some default) }, none)

namespace State

/-- The call `c` starts, under the next id. -/
def start (σ : State Addr) (c : Call Addr) : State Addr :=
  { σ with tasks := Function.update σ.tasks σ.nextTask (some c.start), nextTask := σ.nextTask + 1 }

/-- The call `i`, standing at `t`, runs its next lock section. -/
def runTask (σ : State Addr) (i : Nat) (t : Task Addr) : State Addr :=
  { σ with
    network := (t.advance σ.clock σ.network).1
    tasks := Function.update σ.tasks i (t.advance σ.clock σ.network).2 }

end State

def step (σ : State Addr) : Event Addr → State Addr
  | .call c => σ.start c
  | .run i =>
    match σ.tasks i with
    | some t => σ.runTask i t
    | none => σ
  | .tick elapsed => { σ with clock := σ.clock + elapsed }

/-- The state after a list of events. -/
def run (σ : State Addr) (evs : List (Event Addr)) : State Addr := evs.foldl step σ

/-- A crawler's store before any call: `KnownNetwork::default()` over the
build-hasher `H`, the clock at `clock`. -/
def init {S : Type} (H : Hasher Addr S) (clock : Instant) : State Addr :=
  ⟨KnownNetwork.empty H, clock, fun _ => none, 0⟩

/-- The states some interleaving of calls reaches from a fresh store. -/
inductive Reachable : State Addr → Prop
  | init {S : Type} (H : Hasher Addr S) (clock : Instant) : Reachable (init H clock)
  | step {σ : State Addr} (e : Event Addr) : Reachable σ → Reachable (step σ e)

@[simp] theorem run_nil (σ : State Addr) : run σ [] = σ := rfl

@[simp] theorem run_cons (σ : State Addr) (e : Event Addr) (evs : List (Event Addr)) :
    run σ (e :: evs) = run (step σ e) evs := rfl

theorem Reachable.run {σ : State Addr} (h : Reachable σ) (evs : List (Event Addr)) :
    Reachable (run σ evs) := by
  induction evs generalizing σ with
  | nil => exact h
  | cons e evs ih => exact ih (h.step e)

/-! ## What one step can do -/

/-- **Every step** starts a call, advances the clock, runs a section of a call
in progress, or changes nothing. -/
theorem step_cases (σ : State Addr) (e : Event Addr) :
    (∃ c, step σ e = σ.start c) ∨ (∃ d, step σ e = { σ with clock := σ.clock + d }) ∨
      (∃ i t, σ.tasks i = some t ∧ step σ e = σ.runTask i t) ∨ step σ e = σ := by
  cases e with
  | call c => exact .inl ⟨c, rfl⟩
  | tick d => exact .inr (.inl ⟨d, rfl⟩)
  | run i =>
    cases ht : σ.tasks i with
    | none => exact .inr (.inr (.inr (by simp [step, ht])))
    | some t => exact .inr (.inr (.inl ⟨i, t, ht, by simp [step, ht]⟩))

@[simp] theorem step_call (σ : State Addr) (c : Call Addr) : step σ (.call c) = σ.start c := rfl

theorem step_run {σ : State Addr} {i : Nat} {t : Task Addr} (h : σ.tasks i = some t) :
    step σ (.run i) = σ.runTask i t := by
  simp [step, h]

theorem runTask_network (σ : State Addr) (i : Nat) (t : Task Addr) :
    (σ.runTask i t).network = (t.advance σ.clock σ.network).1 := rfl

@[simp] theorem start_network (σ : State Addr) (c : Call Addr) : (σ.start c).network = σ.network :=
  rfl

@[simp] theorem start_clock (σ : State Addr) (c : Call Addr) : (σ.start c).clock = σ.clock := rfl

@[simp] theorem runTask_clock (σ : State Addr) (i : Nat) (t : Task Addr) :
    (σ.runTask i t).clock = σ.clock := rfl

theorem start_tasks_ne (σ : State Addr) (c : Call Addr) {j : Nat} (h : j ≠ σ.nextTask) :
    (σ.start c).tasks j = σ.tasks j := by
  simp [State.start, h]

theorem runTask_tasks_self (σ : State Addr) (i : Nat) (t : Task Addr) :
    (σ.runTask i t).tasks i = (t.advance σ.clock σ.network).2 := by
  simp [State.runTask]

theorem runTask_tasks_ne (σ : State Addr) {i j : Nat} (t : Task Addr) (h : j ≠ i) :
    (σ.runTask i t).tasks j = σ.tasks j := by
  simp [State.runTask, h]

/-- What holds of every call in progress still holds once a call starts, when
it holds of every call as it starts. -/
theorem forall_tasks_start {P : Task Addr → Prop} {σ : State Addr}
    (h : ∀ j t, σ.tasks j = some t → P t) {c : Call Addr} (hc : P c.start) :
    ∀ j t, (σ.start c).tasks j = some t → P t := by
  intro j t hj
  by_cases hjn : j = σ.nextTask
  · subst hjn
    simp only [State.start, Function.update_same, Option.some.injEq] at hj
    exact hj ▸ hc
  · exact h j t ((start_tasks_ne σ c hjn).symm.trans hj)

/-- What holds of every call in progress still holds once the call `i` runs a
section, when it holds of where that call stands next. -/
theorem forall_tasks_runTask {P : Task Addr → Prop} {σ : State Addr}
    (h : ∀ j t, σ.tasks j = some t → P t) {i : Nat} {t : Task Addr}
    (hadv : ∀ t', (t.advance σ.clock σ.network).2 = some t' → P t') :
    ∀ j u, (σ.runTask i t).tasks j = some u → P u := by
  intro j u hj
  by_cases hji : j = i
  · subst hji
    exact hadv u ((runTask_tasks_self σ j t).symm.trans hj)
  · exact h j u ((runTask_tasks_ne σ t hji).symm.trans hj)

/-- No section drops a key of the nodes map. -/
theorem isSome_runTask_nodes (σ : State Addr) (i : Nat) (t : Task Addr) {k : Addr}
    (h : (σ.network.nodes k).isSome) : ((σ.runTask i t).network.nodes k).isSome := by
  cases t with
  | upsertNodes caller prospects => exact isSome_upsertNodes (.inl h)
  | scanConnections pending oldConns => cases pending <;> exact h
  | insertSeed addr =>
    simp only [State.runTask, Task.advance, Function.update_apply]; split <;> simp_all
  | _ => exact h

/-- **No step loses a node.** -/
theorem isSome_step_nodes (σ : State Addr) (e : Event Addr) {k : Addr}
    (h : (σ.network.nodes k).isSome) : ((step σ e).network.nodes k).isSome := by
  rcases step_cases σ e with ⟨c, he⟩ | ⟨d, he⟩ | ⟨i, t, -, he⟩ | he <;> rw [he]
  · exact h
  · exact h
  · exact isSome_runTask_nodes σ i t h
  · exact h

theorem isSome_run_nodes (σ : State Addr) (evs : List (Event Addr)) {k : Addr}
    (h : (σ.network.nodes k).isSome) : ((run σ evs).network.nodes k).isSome := by
  induction evs generalizing σ with
  | nil => exact h
  | cons e evs ih => exact ih _ (isSome_step_nodes σ e h)

/-- Only `add_addrs`' write section adds connections; the other sections keep
or remove them. -/
theorem runTask_connections_subset (σ : State Addr) (i : Nat) {t : Task Addr}
    (ht : ∀ source addrs, t ≠ .addAddrs source addrs) :
    (σ.runTask i t).network.connections.elems ⊆ σ.network.connections.elems := by
  cases t with
  | addAddrs source addrs => exact absurd rfl (ht source addrs)
  | scanConnections pending oldConns =>
    cases pending with
    | nil => exact (dropOldConns_sublist _ _).subset
    | cons => exact List.Subset.refl _
  | _ => exact List.Subset.refl _

/-- A step keeps a connection, unless it is the write section of a prune
whose collected elements hold one equal to it. -/
theorem mem_step_connections (σ : State Addr) (e : Event Addr) {c : KnownConnection Addr}
    (hc : c ∈ σ.network.connections.elems) :
    c ∈ (step σ e).network.connections.elems ∨
      ∃ j oldConns, e = .run j ∧ σ.tasks j = some (.scanConnections [] oldConns) ∧
        ∃ o ∈ oldConns.elems, (c == o) = true := by
  cases e with
  | call c' => exact .inl hc
  | tick d => exact .inl hc
  | run j =>
    cases hj : σ.tasks j with
    | none => exact .inl (by simpa [step, hj] using hc)
    | some t =>
      rw [step_run hj]
      cases t with
      | addAddrs source addrs => exact .inl (subset_insertConnections _ _ _ _ hc)
      | scanConnections pending oldConns =>
        cases pending with
        | nil =>
          cases hany : oldConns.elems.any (c == ·) with
          | false =>
            exact .inl (mem_dropOldConns hc fun o ho =>
              Bool.eq_false_iff.mpr (List.any_eq_false.mp hany o ho))
          | true =>
            obtain ⟨o, ho, hco⟩ := List.any_eq_true.mp hany
            exact .inr ⟨j, oldConns, rfl, hj, o, ho, hco⟩
        | cons => exact .inl hc
      | _ => exact .inl hc

/-! ## A call run alone -/

/-- The call `c` started, then run for `n` sections with no other event between. -/
def runAlone (σ : State Addr) (c : Call Addr) (n : Nat) : State Addr :=
  run σ (.call c :: List.replicate n (.run σ.nextTask))

theorem run_append (σ : State Addr) (evs evs' : List (Event Addr)) :
    run σ (evs ++ evs') = run (run σ evs) evs' :=
  List.foldl_append _ _ _ _

/-- `remove_old_connections`' first loop, run alone, scans its whole snapshot at
one instant. -/
theorem run_scanConnections (τ : State Addr) (j : Nat) (pending : List (KnownConnection Addr))
    (oldConns : HashSet (KnownConnection Addr))
    (h : τ.tasks j = some (.scanConnections pending oldConns)) :
    (run τ (List.replicate pending.length (.run j))).network = τ.network ∧
    (run τ (List.replicate pending.length (.run j))).clock = τ.clock ∧
    (run τ (List.replicate pending.length (.run j))).tasks j =
      some (.scanConnections [] (oldConnections τ.clock pending oldConns)) := by
  induction pending generalizing τ oldConns with
  | nil => exact ⟨rfl, rfl, h⟩
  | cons c pending ih =>
    rw [List.length_cons, List.replicate_succ, run_cons, step_run h]
    exact ih (τ.runTask j (.scanConnections (c :: pending) oldConns)) (collectOld τ.clock oldConns c)
      (runTask_tasks_self τ j _)

theorem runAlone_removeOldConnections (σ : State Addr) :
    (runAlone σ .removeOldConnections (σ.network.connections.elems.length + 2)).network =
      σ.network.removeOldConnections σ.clock ∧
    (runAlone σ .removeOldConnections (σ.network.connections.elems.length + 2)).tasks σ.nextTask =
      none := by
  have h₀ : (σ.start .removeOldConnections).tasks σ.nextTask = some .removeOldConnections := by
    simp [State.start, Call.start]
  obtain ⟨hn, -, ht⟩ := run_scanConnections
    ((σ.start .removeOldConnections).runTask σ.nextTask .removeOldConnections) σ.nextTask
    σ.network.connections.elems σ.network.connections.clear (runTask_tasks_self _ _ _)
  rw [runAlone, List.replicate_succ, List.replicate_succ', run_cons, run_cons, step_call,
    step_run h₀, run_append, run_cons, step_run ht, run_nil]
  exact ⟨by rw [runTask_network, hn]; rfl, runTask_tasks_self _ _ _⟩

theorem runAlone_addAddrs (σ : State Addr) (source : Addr) (addrs : List Addr) :
    (runAlone σ (.addAddrs source addrs) 3).network = σ.network.addAddrs σ.clock source addrs ∧
    (runAlone σ (.addAddrs source addrs) 3).tasks σ.nextTask = none := by
  constructor <;> simp [runAlone, step, State.start, State.runTask, Task.advance, Call.start,
    KnownNetwork.addAddrs, KnownNetwork.updateNodes]

theorem runAlone_updateNodes (σ : State Addr) :
    (runAlone σ .updateNodes 2).network = σ.network.updateNodes ∧
    (runAlone σ .updateNodes 2).tasks σ.nextTask = none := by
  constructor <;> simp [runAlone, step, State.start, State.runTask, Task.advance, Call.start,
    KnownNetwork.updateNodes]

/-- **Each call run alone is the sequential method.**  Started and run
section after section with no other event between, `add_addrs` returns after
three sections, `update_nodes` after two and `remove_old_connections` after
two more than its snapshot has elements, and each leaves the store as the
method of `KnownNetwork` does. -/
theorem runAlone_refines (σ : State Addr) (source : Addr) (addrs : List Addr) :
    (runAlone σ (.addAddrs source addrs) 3).network = σ.network.addAddrs σ.clock source addrs ∧
    (runAlone σ (.addAddrs source addrs) 3).tasks σ.nextTask = none ∧
    (runAlone σ .updateNodes 2).network = σ.network.updateNodes ∧
    (runAlone σ .updateNodes 2).tasks σ.nextTask = none ∧
    (runAlone σ .removeOldConnections (σ.network.connections.elems.length + 2)).network =
      σ.network.removeOldConnections σ.clock ∧
    (runAlone σ .removeOldConnections (σ.network.connections.elems.length + 2)).tasks σ.nextTask =
      none :=
  ⟨(runAlone_addAddrs σ source addrs).1, (runAlone_addAddrs σ source addrs).2,
    (runAlone_updateNodes σ).1, (runAlone_updateNodes σ).2, runAlone_removeOldConnections σ⟩

theorem distinct_runTask (σ : State Addr) (i : Nat) (t : Task Addr)
    (h : σ.network.connections.Distinct) : (σ.runTask i t).network.connections.Distinct := by
  cases t with
  | addAddrs source addrs => exact KnownNetwork.Distinct.insertConnections h _ _ _
  | scanConnections pending oldConns =>
    cases pending with
    | nil => exact KnownNetwork.Distinct.dropOldConns h _
    | cons => exact h
  | _ => exact h

/-! ## Which calls will make a side a node -/

/-- Whether the call stands between `add_addrs`' connections write section and
its nodes write section. -/
def Task.midAddAddrs : Task Addr → Bool
  | .updateNodes (some _) => true
  | .upsertNodes (some _) _ => true
  | _ => false

/-- Whether the call is a `remove_old_connections` in progress. -/
def Task.prunes : Task Addr → Bool
  | .removeOldConnections => true
  | .scanConnections _ _ => true
  | _ => false

/-- The call will make `x` a node: an `add_addrs` before its snapshot will see
every connection present then, and after its snapshot it upserts its
prospects. -/
def Task.Covers : Task Addr → Addr → Prop
  | .updateNodes (some _), _ => True
  | .upsertNodes (some _) prospects, x => x ∈ prospects
  | _, _ => False

theorem Task.midAddAddrs_of_covers {t : Task Addr} {x : Addr} (h : t.Covers x) :
    t.midAddAddrs = true := by
  unfold Task.Covers at h
  split at h <;> first | rfl | exact h.elim

/-- `x` is a node, or a call in progress will make it one. -/
def Known (σ : State Addr) (x : Addr) : Prop :=
  (σ.network.nodes x).isSome ∨ ∃ i t, σ.tasks i = some t ∧ t.Covers x

/-- **What holds in every reachable state**: ids not yet given out are free,
the connection set holds one element per unordered pair, and both sides of
every connection are known. -/
structure Valid (σ : State Addr) : Prop where
  fresh : ∀ i, σ.nextTask ≤ i → σ.tasks i = none
  distinct : σ.network.connections.Distinct
  known : ∀ c ∈ σ.network.connections.elems, Known σ c.a ∧ Known σ c.b

theorem init_valid {S : Type} (H : Hasher Addr S) (clock : Instant) : Valid (init H clock) where
  fresh _ _ := rfl
  distinct := List.Pairwise.nil
  known c hc := absurd hc (List.not_mem_nil c)

theorem Known.start {σ : State Addr} (hv : Valid σ) {x : Addr} (hx : Known σ x) (c : Call Addr) :
    Known (σ.start c) x := by
  rcases hx with hx | ⟨j, t, hj, ht⟩
  · exact .inl hx
  · have hne : j ≠ σ.nextTask := by rintro rfl; simp [hv.fresh _ le_rfl] at hj
    exact .inr ⟨j, t, (start_tasks_ne σ c hne).trans hj, ht⟩

theorem Valid.start {σ : State Addr} (hv : Valid σ) (c : Call Addr) : Valid (σ.start c) where
  fresh i hi := by
    have hi' : σ.nextTask + 1 ≤ i := hi
    rw [start_tasks_ne σ c (by omega)]
    exact hv.fresh i (by omega)
  distinct := hv.distinct
  known c' hc := ⟨(hv.known c' hc).1.start hv c, (hv.known c' hc).2.start hv c⟩

/-- A known address stays known when the call `i` runs a section, provided
the section makes good what the call itself promised. -/
theorem Known.runTask {σ : State Addr} {i : Nat} {t : Task Addr} (hi : σ.tasks i = some t)
    {x : Addr} (hx : Known σ x) (hself : t.Covers x → Known (σ.runTask i t) x) :
    Known (σ.runTask i t) x := by
  rcases hx with hx | ⟨j, u, hj, hu⟩
  · exact .inl (isSome_runTask_nodes σ i t hx)
  · by_cases hji : j = i
    · subst hji
      exact hself (Option.some_injective _ (hj.symm.trans hi) ▸ hu)
    · exact .inr ⟨j, u, (runTask_tasks_ne σ t hji).trans hj, hu⟩

/-- What a call promised of a side of a connection still present, it keeps: a
snapshot puts the side among the prospects, and the upsert makes it a node. -/
theorem Known.runTask_self (σ : State Addr) (i : Nat) (t : Task Addr) {c : KnownConnection Addr}
    (hc : c ∈ (σ.runTask i t).network.connections.elems) {x : Addr} (hx : x = c.a ∨ x = c.b)
    (hcov : t.Covers x) : Known (σ.runTask i t) x := by
  cases t with
  | updateNodes caller =>
    cases caller with
    | none => exact hcov.elim
    | some caller =>
      exact .inr ⟨i, _, runTask_tasks_self σ i _, (mem_prospectNodes _ x).mpr ⟨c, hc, hx⟩⟩
  | upsertNodes caller prospects =>
    cases caller with
    | none => exact hcov.elim
    | some caller => exact .inl (isSome_upsertNodes (.inr hcov))
  | _ => exact hcov.elim

theorem Valid.runTask {σ : State Addr} (hv : Valid σ) {i : Nat} {t : Task Addr}
    (hi : σ.tasks i = some t) : Valid (σ.runTask i t) where
  fresh j hj := by
    have hji : j ≠ i := by rintro rfl; simp [hv.fresh _ hj] at hi
    exact (runTask_tasks_ne σ t hji).trans (hv.fresh j hj)
  distinct := distinct_runTask σ i t hv.distinct
  known c hc := by
    by_cases hadd : ∃ source addrs, t = .addAddrs source addrs
    · -- after its write section, `add_addrs` covers every address until its snapshot
      obtain ⟨source, addrs, rfl⟩ := hadd
      have hall : ∀ x, Known (σ.runTask i (.addAddrs source addrs)) x :=
        fun _ => .inr ⟨i, _, runTask_tasks_self σ i _, trivial⟩
      exact ⟨hall _, hall _⟩
    · have hc' := runTask_connections_subset σ i (fun s a h => hadd ⟨s, a, h⟩) hc
      exact ⟨(hv.known c hc').1.runTask hi (Known.runTask_self σ i t hc (.inl rfl)),
        (hv.known c hc').2.runTask hi (Known.runTask_self σ i t hc (.inr rfl))⟩

theorem Valid.step {σ : State Addr} (hv : Valid σ) (e : Event Addr) : Valid (step σ e) := by
  rcases step_cases σ e with ⟨c, he⟩ | ⟨d, he⟩ | ⟨i, t, hi, he⟩ | he <;> rw [he]
  · exact hv.start c
  · exact ⟨hv.fresh, hv.distinct, hv.known⟩
  · exact hv.runTask hi
  · exact hv

theorem reachable_valid {σ : State Addr} (h : Reachable σ) : Valid σ := by
  induction h with
  | init H clock => exact init_valid H clock
  | step e _ ih => exact ih.step e

/-! ## Connections in every reachable state -/

theorem Known.isSome {σ : State Addr} {x : Addr} (hx : Known σ x)
    (hmid : ∀ j t, σ.tasks j = some t → t.midAddAddrs = false) : (σ.network.nodes x).isSome :=
  hx.elim id fun ⟨j, t, hj, ht⟩ =>
    (Bool.false_ne_true ((hmid j t hj).symm.trans (Task.midAddAddrs_of_covers ht))).elim

/-- Once no `add_addrs` call is between its insert and its upsert, both sides
of every connection are nodes. -/
theorem connection_sides_known {σ : State Addr} (h : Reachable σ)
    (hmid : ∀ j t, σ.tasks j = some t → t.midAddAddrs = false) {c : KnownConnection Addr}
    (hc : c ∈ σ.network.connections.elems) :
    (σ.network.nodes c.a).isSome ∧ (σ.network.nodes c.b).isSome :=
  ⟨((reachable_valid h).known c hc).1.isSome hmid, ((reachable_valid h).known c hc).2.isSome hmid⟩

/-- **Connections are undirected edges, and the set holds each edge once.**
`==` on connections is equality of the unordered pair of sides, and so an
equivalence; `Hash` feeds the smaller side, then the larger, so equal
connections give every hasher the same input; and in every state some
interleaving of calls reaches, the connection set holds at most one element per
unordered pair, never both `(a, b)` and `(b, a)`. -/
theorem connections_undirected :
    (∀ x y : KnownConnection Addr, (x == y) = true ↔ x.endpoints = y.endpoints) ∧
    (∀ {S : Type} (write : S → Addr → S) (state : S) (x : KnownConnection Addr),
      x.hash write state = write (write state (min x.a x.b)) (max x.a x.b)) ∧
    Equivalence (fun x y : KnownConnection Addr => (x == y) = true) ∧
    (∀ x y : KnownConnection Addr, (x == y) = true →
      ∀ {S : Type} (write : S → Addr → S) (state : S), x.hash write state = y.hash write state) ∧
    (∀ σ : State Addr, Reachable σ →
      (σ.network.connections.elems.map KnownConnection.endpoints).Nodup ∧
      ∀ c ∈ σ.network.connections.elems, ∀ c' ∈ σ.network.connections.elems,
        c.a = c'.b → c.b = c'.a → c = c') := by
  refine ⟨KnownConnection.beq_iff_endpoints, KnownConnection.hash_eq_min_max,
    ⟨fun _ => BEq.refl, BEq.symm, BEq.trans⟩,
    fun _ _ h _ => KnownConnection.hash_eq_of_beq h, fun σ h => ⟨?_, ?_⟩⟩
  · exact (KnownConnection.distinct_iff_nodup_endpoints _).mp (reachable_valid h).distinct
  · intro c hc c' hc' ha hb
    refine (reachable_valid h).distinct.eq_of_beq hc hc' ((KnownConnection.beq_iff_endpoints _ _).mpr ?_)
    rw [KnownConnection.endpoints, KnownConnection.endpoints, ha, hb]
    exact Sym2.eq_swap

/-- **A prune run alone keeps exactly the fresh connections**, from every
reachable state: the sequential method's result carries over to the
interleaved store through the refinement and the one-element-per-pair
invariant. -/
theorem runAlone_removeOldConnections_fresh {σ : State Addr} (h : Reachable σ) :
    (runAlone σ .removeOldConnections
        (σ.network.connections.elems.length + 2)).network.connections.elems =
      σ.network.connections.elems.filter
        (fun c => decide (c.elapsedSecs σ.clock ≤ lastSeenCutoff)) := by
  rw [(runAlone_removeOldConnections σ).1]
  exact elems_removeOldConnections σ.clock (reachable_valid h).distinct

/-- Edges reported at 0 s and at 100 s, then a prune alone at 650 s. -/
theorem runAlone_removeOldConnections_fresh_two_reports :
    (runAlone (run (init Hasher.sample 0)
        [.call (.addAddrs 0 [1]), .run 0, .run 0, .run 0, .tick 100000000000,
          .call (.addAddrs 0 [2]), .run 1, .run 1, .run 1, .tick 550000000000])
        .removeOldConnections 4).network.connections.elems =
      (run (init Hasher.sample 0)
        [.call (.addAddrs 0 [1]), .run 0, .run 0, .run 0, .tick 100000000000,
          .call (.addAddrs 0 [2]), .run 1, .run 1, .run 1, .tick 550000000000]).network.connections.elems.filter
        (fun c => decide (c.elapsedSecs 650000000000 ≤ lastSeenCutoff)) :=
  runAlone_removeOldConnections_fresh ((Reachable.init Hasher.sample 0).run _)

/-! ## An `add_addrs` call with no pruning about -/

/-- A `remove_old_connections` call is in progress. -/
def State.Pruning (σ : State Addr) : Prop := ∃ j t, σ.tasks j = some t ∧ t.prunes = true

theorem Call.prunes_start {c : Call Addr} (h : c ≠ .removeOldConnections) :
    c.start.prunes = false := by
  cases c <;> first | rfl | exact absurd rfl h

theorem Task.prunes_advance {t : Task Addr} (ht : t.prunes = false) (now : Instant)
    (net : KnownNetwork Addr) {t' : Task Addr} (h : (t.advance now net).2 = some t') :
    t'.prunes = false := by
  cases t <;> cases ht <;> cases h <;> rfl

/-- Without pruning no section removes a connection. -/
theorem subset_runTask_connections (σ : State Addr) (i : Nat) {t : Task Addr}
    (ht : t.prunes = false) :
    σ.network.connections.elems ⊆ (σ.runTask i t).network.connections.elems := by
  cases t with
  | addAddrs source addrs => exact subset_insertConnections _ _ _ _
  | removeOldConnections => cases ht
  | scanConnections => cases ht
  | _ => exact List.Subset.refl _

/-- Every reported edge `(source, p)` is in the connection set. -/
def Inserted (source : Addr) (addrs : List Addr) (σ : State Addr) : Prop :=
  ∀ p ∈ addrs, ∃ c ∈ σ.network.connections.elems, c.endpoints = s(source, p)

/-- How far the call `add_addrs(source, addrs)` has come, by where it stands:
its edges are in the set once it has passed its write section, both sides of
each are among its prospects once it has taken its snapshot, and both are
nodes once it has returned. -/
def AddAddrsProgress (source : Addr) (addrs : List Addr) (σ : State Addr) :
    Option (Task Addr) → Prop
  | some (.addAddrs s a) => s = source ∧ a = addrs
  | some (.updateNodes caller) => caller = some (source, addrs) ∧ Inserted source addrs σ
  | some (.upsertNodes caller prospects) =>
    caller = some (source, addrs) ∧ ∀ p ∈ addrs, source ∈ prospects ∧ p ∈ prospects
  | some _ => False
  | none => ∀ p ∈ addrs, (σ.network.nodes source).isSome ∧ (σ.network.nodes p).isSome

/-- Progress is kept while connections and nodes only grow. -/
theorem AddAddrsProgress.mono {source : Addr} {addrs : List Addr} {σ σ' : State Addr}
    {o : Option (Task Addr)} (h : AddAddrsProgress source addrs σ o)
    (hconns : σ.network.connections.elems ⊆ σ'.network.connections.elems)
    (hnodes : ∀ k, (σ.network.nodes k).isSome → (σ'.network.nodes k).isSome) :
    AddAddrsProgress source addrs σ' o := by
  rcases o with _ | ⟨_ | _ | _ | _ | _ | _⟩
  · exact fun p hp => ⟨hnodes _ (h p hp).1, hnodes _ (h p hp).2⟩
  · exact h
  · exact ⟨h.1, fun p hp => (h.2 p hp).imp fun c hc => ⟨hconns hc.1, hc.2⟩⟩
  all_goals exact h

/-- The call `i` is `add_addrs(source, addrs)`, and no `remove_old_connections`
is in progress. -/
structure AddAddrsRun (i : Nat) (source : Addr) (addrs : List Addr) (σ : State Addr) : Prop where
  noPrune : ∀ j t, σ.tasks j = some t → t.prunes = false
  started : i < σ.nextTask
  progress : AddAddrsProgress source addrs σ (σ.tasks i)

/-- The call's own section moves it one stage on. -/
theorem AddAddrsRun.progress_runTask_self {i : Nat} {source : Addr} {addrs : List Addr}
    {σ : State Addr} (h : AddAddrsRun i source addrs σ) {t : Task Addr} (hi : σ.tasks i = some t) :
    AddAddrsProgress source addrs (σ.runTask i t) ((σ.runTask i t).tasks i) := by
  have hp := h.progress
  rw [hi] at hp
  rw [runTask_tasks_self]
  cases t with
  | addAddrs s a =>
    obtain ⟨rfl, rfl⟩ := hp
    refine ⟨rfl, fun p hp => ?_⟩
    obtain ⟨c, hc, hbeq⟩ := exists_beq_insertConnections σ.clock s hp σ.network.connections
    exact ⟨c, hc, (KnownConnection.beq_iff_endpoints _ _).mp hbeq⟩
  | updateNodes caller =>
    refine ⟨hp.1, fun p hp' => ?_⟩
    obtain ⟨c, hc, hends⟩ := hp.2 p hp'
    have hside : ∀ x ∈ s(source, p), x ∈ prospectNodes σ.network.connections.elems := by
      intro x hx
      have hx' : x ∈ c.endpoints := hends ▸ hx
      exact (mem_prospectNodes _ x).mpr ⟨c, hc, Sym2.mem_iff.mp hx'⟩
    exact ⟨hside _ (Sym2.mem_mk_left _ _), hside _ (Sym2.mem_mk_right _ _)⟩
  | upsertNodes caller prospects =>
    exact fun p hp' => ⟨isSome_upsertNodes (.inr (hp.2 p hp').1),
      isSome_upsertNodes (.inr (hp.2 p hp').2)⟩
  | _ => exact hp.elim

theorem AddAddrsRun.runTask {i : Nat} {source : Addr} {addrs : List Addr} {σ : State Addr}
    (h : AddAddrsRun i source addrs σ) {j : Nat} {t : Task Addr} (hj : σ.tasks j = some t) :
    AddAddrsRun i source addrs (σ.runTask j t) := by
  have ht := h.noPrune j t hj
  refine ⟨forall_tasks_runTask h.noPrune fun _ => Task.prunes_advance ht _ _, h.started, ?_⟩
  by_cases hij : i = j
  · subst hij
    exact h.progress_runTask_self hj
  · rw [runTask_tasks_ne σ t hij]
    exact h.progress.mono (subset_runTask_connections σ j ht) fun _ => isSome_runTask_nodes σ j t

theorem AddAddrsRun.step {i : Nat} {source : Addr} {addrs : List Addr} {σ : State Addr}
    (h : AddAddrsRun i source addrs σ) {e : Event Addr} (he : e ≠ .call .removeOldConnections) :
    AddAddrsRun i source addrs (step σ e) := by
  cases e with
  | call c =>
    refine ⟨forall_tasks_start h.noPrune (Call.prunes_start fun hc => he (hc ▸ rfl)),
      Nat.lt_succ_of_lt h.started, ?_⟩
    rw [step_call, start_tasks_ne σ c (Nat.ne_of_lt h.started)]
    exact h.progress.mono (List.Subset.refl _) fun _ => id
  | tick d => exact ⟨h.noPrune, h.started, h.progress⟩
  | run j =>
    simp only [Interleaving.step]
    split
    · exact h.runTask ‹_›
    · exact h

theorem AddAddrsRun.run {i : Nat} {source : Addr} {addrs : List Addr} {σ : State Addr}
    (h : AddAddrsRun i source addrs σ) {evs : List (Event Addr)}
    (hevs : .call .removeOldConnections ∉ evs) : AddAddrsRun i source addrs (run σ evs) := by
  induction evs generalizing σ with
  | nil => exact h
  | cons e evs ih =>
    rw [List.mem_cons, not_or] at hevs
    exact ih (h.step (Ne.symm hevs.1)) hevs.2

/-! ## How long an `add_addrs` call takes -/

/-- The call `add_addrs(source, addrs)` standing at `o` has `n` of its sections
still to run: the connections insert, the snapshot, the nodes upsert. -/
def AddAddrsLeft (source : Addr) (addrs : List Addr) : Nat → Option (Task Addr) → Prop
  | 3, o => o = some (.addAddrs source addrs)
  | 2, o => o = some (.updateNodes (some (source, addrs)))
  | 1, o => ∃ prospects, o = some (.upsertNodes (some (source, addrs)) prospects)
  | 0, o => o = none
  | _, _ => False

theorem AddAddrsLeft.eq_none_iff {source : Addr} {addrs : List Addr} {n : Nat}
    {o : Option (Task Addr)} (h : AddAddrsLeft source addrs n o) : o = none ↔ n = 0 := by
  match n, h with
  | 0, h => exact ⟨fun _ => rfl, fun _ => h⟩
  | 1, ⟨_, h⟩ => rw [h]; exact ⟨nofun, nofun⟩
  | 2, h | 3, h => rw [h]; exact ⟨nofun, nofun⟩

/-- Each of the call's sections takes one off what it has left. -/
theorem AddAddrsLeft.advance {source : Addr} {addrs : List Addr} {n : Nat} {t : Task Addr}
    (h : AddAddrsLeft source addrs n (some t)) (now : Instant) (net : KnownNetwork Addr) :
    AddAddrsLeft source addrs (n - 1) (t.advance now net).2 := by
  match n, h with
  | 1, ⟨_, h⟩ => cases h; rfl
  | 2, h => cases h; exact ⟨_, rfl⟩
  | 3, h => cases h; rfl

/-- The call `i` is an `add_addrs(source, addrs)` with `n` sections left. -/
structure AddAddrsCall (i : Nat) (source : Addr) (addrs : List Addr) (n : Nat) (σ : State Addr) :
    Prop where
  started : i < σ.nextTask
  left : AddAddrsLeft source addrs n (σ.tasks i)

/-- A step that is not the call's own leaves it where it stands. -/
theorem AddAddrsCall.step_ne {i n : Nat} {source : Addr} {addrs : List Addr} {σ : State Addr}
    (h : AddAddrsCall i source addrs n σ) {e : Event Addr} (he : e ≠ .run i) :
    AddAddrsCall i source addrs n (step σ e) := by
  cases e with
  | call c =>
    exact ⟨Nat.lt_succ_of_lt h.started, by
      rw [step_call, start_tasks_ne σ c (Nat.ne_of_lt h.started)]; exact h.left⟩
  | tick d => exact ⟨h.started, h.left⟩
  | run j =>
    simp only [Interleaving.step]
    split
    · exact ⟨h.started, by rw [runTask_tasks_ne σ _ (by rintro rfl; exact he rfl)]; exact h.left⟩
    · exact h

/-- The call's own step runs its next section, if it has one. -/
theorem AddAddrsCall.step_self {i n : Nat} {source : Addr} {addrs : List Addr} {σ : State Addr}
    (h : AddAddrsCall i source addrs n σ) : AddAddrsCall i source addrs (n - 1) (step σ (.run i)) := by
  cases hi : σ.tasks i with
  | none =>
    obtain rfl := h.left.eq_none_iff.mp hi
    have hstay : step σ (.run i) = σ := by simp only [Interleaving.step, hi]
    rw [hstay]
    exact h
  | some t =>
    rw [step_run hi]
    exact ⟨h.started, by rw [runTask_tasks_self]; exact (hi ▸ h.left).advance _ _⟩

/-- Over a run, the call's sections left go down by the runs of its id, to none. -/
theorem AddAddrsCall.run {i n : Nat} {source : Addr} {addrs : List Addr} {σ : State Addr}
    (h : AddAddrsCall i source addrs n σ) (evs : List (Event Addr)) :
    AddAddrsCall i source addrs (n - evs.count (.run i)) (run σ evs) := by
  induction evs generalizing σ n with
  | nil => exact h
  | cons e evs ih =>
    by_cases he : e = .run i
    · subst he
      rw [List.count_cons_self, Nat.add_comm, ← Nat.sub_sub, run_cons]
      exact ih h.step_self
    · rw [List.count_cons_of_ne (Ne.symm he)]
      exact ih (h.step_ne he)

/-- When `add_addrs(source, addrs)` runs with no `remove_old_connections` in
progress or started, `source` and every reported address are nodes once it
returns. -/
theorem addAddrs_sides_known (σ : State Addr) (source : Addr) (addrs : List Addr)
    (evs : List (Event Addr)) (hprune : ¬ σ.Pruning) (hevs : .call .removeOldConnections ∉ evs)
    (hret : (run σ (.call (.addAddrs source addrs) :: evs)).tasks σ.nextTask = none) :
    ∀ p ∈ addrs, ((run σ (.call (.addAddrs source addrs) :: evs)).network.nodes source).isSome ∧
      ((run σ (.call (.addAddrs source addrs) :: evs)).network.nodes p).isSome := by
  have h₀ : AddAddrsRun σ.nextTask source addrs (step σ (.call (.addAddrs source addrs))) :=
    ⟨forall_tasks_start (fun j t hj => Bool.eq_false_iff.mpr fun hp => hprune ⟨j, t, hj, hp⟩) rfl,
      Nat.lt_succ_self _, by simp [step, State.start, Call.start, AddAddrsProgress]⟩
  have hp := (h₀.run hevs).progress
  rwa [← run_cons, hret] at hp

/-- **Gossip keeps the nodes map covering the connections.** Over every
interleaving of the store's calls, under every clock schedule, no key of the
nodes map is ever lost; in every reachable state where no `add_addrs` call is
between its connections insert and its nodes upsert, both sides of every
connection are keys; and an `add_addrs(source, addrs)` run with no
`remove_old_connections` in progress or started leaves `source` and every
reported address a key once it returns. -/
theorem nodes_cover_connections :
    (∀ (σ : State Addr) (evs : List (Event Addr)) (k : Addr),
      (σ.network.nodes k).isSome → ((run σ evs).network.nodes k).isSome) ∧
    (∀ σ : State Addr, Reachable σ → (∀ j t, σ.tasks j = some t → t.midAddAddrs = false) →
      ∀ c ∈ σ.network.connections.elems,
        (σ.network.nodes c.a).isSome ∧ (σ.network.nodes c.b).isSome) ∧
    (∀ (σ : State Addr) (source : Addr) (addrs : List Addr) (evs : List (Event Addr)),
      ¬ σ.Pruning → .call .removeOldConnections ∉ evs →
      (run σ (.call (.addAddrs source addrs) :: evs)).tasks σ.nextTask = none →
      ∀ p ∈ addrs, ((run σ (.call (.addAddrs source addrs) :: evs)).network.nodes source).isSome ∧
        ((run σ (.call (.addAddrs source addrs) :: evs)).network.nodes p).isSome) :=
  ⟨fun σ evs _ h => isSome_run_nodes σ evs h, fun _ h hmid _ hc => connection_sides_known h hmid hc,
    addAddrs_sides_known⟩

/-- One report of the edge `(0, 1)` on a fresh store, run to its return. -/
theorem nodes_cover_connections_single_report :
    ¬ (init Hasher.sample 0 : State Nat).Pruning ∧
      (.call .removeOldConnections : Event Nat) ∉ [.run 0, .run 0, .run 0] ∧
      (run (init Hasher.sample 0) [.call (.addAddrs 0 [1]), .run 0, .run 0, .run 0]).tasks 0 = none ∧
      ((run (init Hasher.sample 0) [.call (.addAddrs 0 [1]), .run 0, .run 0, .run 0]).network.nodes
        0).isSome ∧
      ((run (init Hasher.sample 0) [.call (.addAddrs 0 [1]), .run 0, .run 0, .run 0]).network.nodes
        1).isSome :=
  have hprune : ¬ (init Hasher.sample 0 : State Nat).Pruning := fun ⟨_, _, h, _⟩ => Option.noConfusion h
  have hevs : (.call .removeOldConnections : Event Nat) ∉ [.run 0, .run 0, .run 0] := by decide
  ⟨hprune, hevs, rfl,
    (@nodes_cover_connections Nat _).2.2 (init Hasher.sample 0) 0 [1] [.run 0, .run 0, .run 0] hprune
      hevs rfl 1 (List.mem_singleton_self 1)⟩

end Interleaving
end Ziggurat
