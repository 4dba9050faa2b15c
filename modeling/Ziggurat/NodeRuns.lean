import Ziggurat.Node

/-! # Runs of the node supervisor

A test drives its `Node` through the builder, `start`, `stop` and finally
`Drop`, each call answered by the environment in any way; between calls the
node's process, or any other, may end by itself.  A run is a list of such
events (`Op`), and what the supervisor does to the host's processes is read
off whole runs.

What holds in every reachable state (`Valid`): pids not yet given out are
free, and the process the supervisor holds exists and was never killed by it.
From it, `stop` reports an early exit exactly for a node that ended by itself,
with that node's status (`stop_reports_early_exit`).  Over any run, a process
the supervisor does not hold is never again touched by it
(`released_process_untouched`): a `start` over a running node, or a `stop`
whose `try_wait` or `kill` fails, lets the process go for good.  And the
synthetic peers' addresses pile up in the initial peers from one `start` to
the next (`synthetic_peer_stays`).
-/
namespace Ziggurat
namespace Supervisor
open Node

variable {Block Header : Type} (fixture : Fixture Block Header)
  (debug : Message Block Header → String)

/-- What happens next: a call of the supervisor, with the environment's
answers to it, or a process ending by itself. -/
inductive Op (Block Header : Type) where
  | initialPeers (peers : List SocketAddr)
  | maxPeers (maxPeers : Nat)
  | logToStdout (logToStdout : Bool)
  | initialAction (action : Action)
  | start (io : StartIO Block Header)
  | stop (io : StopIO)
  | drop (io : StopIO)
  | exit (pid : Nat) (status : ExitStatus)

/-- The supervisor and the host after one event. -/
def step (σ : Node × Host) : Op Block Header → Node × Host
  | .initialPeers peers => (σ.1.initialPeers peers, σ.2)
  | .maxPeers maxPeers => (σ.1.maxPeers maxPeers, σ.2)
  | .logToStdout logToStdout => (σ.1.logToStdout logToStdout, σ.2)
  | .initialAction action => (σ.1.initialAction action, σ.2)
  | .start io => (σ.1.start fixture debug io σ.2).2
  | .stop io => (σ.1.stop io σ.2).2
  | .drop io => σ.1.drop io σ.2
  | .exit pid status => (σ.1, σ.2.exit pid status)

/-- The supervisor and the host after a list of events. -/
def run (σ : Node × Host) (ops : List (Op Block Header)) : Node × Host :=
  ops.foldl (step fixture debug) σ

@[simp] theorem run_nil (σ : Node × Host) : run fixture debug σ ([] : List (Op Block Header)) = σ :=
  rfl

@[simp] theorem run_cons (σ : Node × Host) (op : Op Block Header) (ops : List (Op Block Header)) :
    run fixture debug σ (op :: ops) = run fixture debug (step fixture debug σ op) ops := rfl

/-- The states a supervisor reaches from `Node::new`, on a host whose free
pids are free. -/
inductive Reachable : Node × Host → Prop
  | init {node : Node} {host : Host} (hnode : node.process = none) (hhost : host.Fresh) :
      Reachable (node, host)
  | step {σ : Node × Host} (op : Op Block Header) : Reachable σ → Reachable (step fixture debug σ op)

/-! ## What one event does -/

theorem stop_host (self : Node) (io : StopIO) (host : Host) :
    (self.stop io host).2.2 = host ∨ ∃ pid, self.process = some pid ∧ (self.stop io host).2.2 = host.kill pid := by
  unfold stop
  split
  · exact .inl rfl
  · rename_i pid hpid
    exact (stopChild_host _ io pid host).imp id fun h => ⟨pid, hpid, h⟩

/-- **Every event** leaves the host and the handle as they are, lets the
handle go and perhaps kills the process it held, spawns a process whose handle
the supervisor then holds, or ends a process by itself. -/
theorem step_cases (σ : Node × Host) (op : Op Block Header) :
    ((step fixture debug σ op).2 = σ.2 ∧ (step fixture debug σ op).1.process = σ.1.process) ∨
    ((step fixture debug σ op).1.process = none ∧
      ((step fixture debug σ op).2 = σ.2 ∨
        ∃ pid, σ.1.process = some pid ∧ (step fixture debug σ op).2 = σ.2.kill pid)) ∨
    ((step fixture debug σ op).1.process = some σ.2.nextPid ∧
      ∃ command args dir output, (step fixture debug σ op).2 = σ.2.spawn command args dir output) ∨
    (∃ pid status, op = .exit pid status ∧ step fixture debug σ op = (σ.1, σ.2.exit pid status)) := by
  cases op with
  | start io =>
    obtain ⟨peers, -, h | h⟩ := start_spec fixture debug σ.1 io σ.2
    · exact .inl ⟨congrArg (·.2) h, congrArg (·.1.process) h⟩
    · exact .inr (.inr (.inl ⟨congrArg (·.1.process) h, _, _, _, _, congrArg (·.2) h⟩))
  | stop io => exact .inr (.inl ⟨stop_process _ _ _, stop_host _ _ _⟩)
  | drop io => exact .inr (.inl ⟨stop_process _ _ _, stop_host _ _ _⟩)
  | exit pid status => exact .inr (.inr (.inr ⟨pid, status, rfl, rfl⟩))
  | _ => exact .inl ⟨rfl, rfl⟩

theorem step_process {σ : Node × Host} {op : Op Block Header} {pid : Nat}
    (h : (step fixture debug σ op).1.process = some pid) : σ.1.process = some pid ∨ pid = σ.2.nextPid := by
  rcases step_cases fixture debug σ op with ⟨-, hp⟩ | ⟨hp, -⟩ | ⟨hp, -⟩ | ⟨_, _, -, hs⟩
  · exact .inl (hp ▸ h)
  · rw [hp] at h; cases h
  · rw [hp] at h; exact .inr (Option.some_injective _ h).symm
  · rw [hs] at h; exact .inl h

theorem nextPid_le_step (σ : Node × Host) (op : Op Block Header) :
    σ.2.nextPid ≤ (step fixture debug σ op).2.nextPid := by
  rcases step_cases fixture debug σ op with ⟨hh, -⟩ | ⟨-, hh | ⟨_, -, hh⟩⟩ | ⟨-, _, _, _, _, hh⟩ | ⟨_, _, -, hs⟩
  all_goals first | rw [hh] | rw [hs]
  all_goals simp [Host.kill, Host.exit]

/-- **No event touches a process the supervisor does not hold**, other than
that process ending by itself. -/
theorem step_procs_of_not_held {σ : Node × Host} {op : Op Block Header} {pid : Nat}
    (hheld : σ.1.process ≠ some pid) (hlt : pid < σ.2.nextPid) (hexit : ∀ status, op ≠ .exit pid status) :
    (step fixture debug σ op).2.procs pid = σ.2.procs pid := by
  rcases step_cases fixture debug σ op with ⟨hh, -⟩ | ⟨-, hh | ⟨q, hq, hh⟩⟩ | ⟨-, _, _, _, _, hh⟩ |
      ⟨q, status, rfl, hs⟩
  · rw [hh]
  · rw [hh]
  · rw [hh, Host.kill_procs_ne _ fun h : pid = q => hheld (h ▸ hq)]
  · rw [hh, Host.spawn_procs_ne _ _ _ _ _ (Nat.ne_of_lt hlt)]
  · rw [hs]
    exact Host.exit_procs_ne _ _ fun h : pid = q => hexit status (by rw [h])

/-! ## What every reachable state satisfies -/

/-- **The supervisor's invariant**: free pids are free, and the handle it holds
names a process of the host that it never killed. -/
structure Valid (σ : Node × Host) : Prop where
  fresh : σ.2.Fresh
  held : ∀ pid, σ.1.process = some pid → ∃ proc, σ.2.procs pid = some proc ∧ proc.state ≠ .killed

theorem Valid.step {σ : Node × Host} (hv : Valid σ) (op : Op Block Header) :
    Valid (step fixture debug σ op) := by
  rcases step_cases fixture debug σ op with ⟨hh, hp⟩ | ⟨hp, hh | ⟨q, -, hh⟩⟩ | ⟨hp, _, _, _, _, hh⟩ |
      ⟨q, status, -, hs⟩
  · exact ⟨hh ▸ hv.fresh, fun pid h => hh ▸ hv.held pid (hp ▸ h)⟩
  · exact ⟨hh ▸ hv.fresh, fun pid h => by rw [hp] at h; cases h⟩
  · exact ⟨hh ▸ hv.fresh.setState q _, fun pid h => by rw [hp] at h; cases h⟩
  · refine ⟨hh ▸ hv.fresh.spawn _ _ _ _, fun pid h => ?_⟩
    rw [hp] at h; cases h
    exact ⟨_, hh ▸ Host.spawn_procs_self _ _ _ _ _, ProcState.noConfusion⟩
  · rw [hs]
    refine ⟨hv.fresh.setState q _, fun pid h => ?_⟩
    obtain ⟨proc, hproc, hnk⟩ := hv.held pid h
    exact σ.2.exit_procs_ne_killed q status hproc hnk

theorem reachable_valid {σ : Node × Host} (h : Reachable fixture debug σ) : Valid σ := by
  induction h with
  | init hnode hhost => exact ⟨hhost, fun pid h => by rw [hnode] at h; cases h⟩
  | step op _ ih => exact ih.step fixture debug op

/-! ## What `stop` reports -/

/-- **`stop` reports an early exit exactly for a node that ended by itself.**
From every reachable state in which the supervisor holds a process, a `stop`
whose `try_wait` and `kill` succeed either finds the process running, kills it
and returns what `cleanup` returns, or finds it ended with a status and returns
`InvalidData` "Node exited early, " with that status's report, unless
`cleanup` fails first, leaving the host as it is.  It never finds a process the
supervisor killed itself. -/
theorem stop_reports_early_exit {σ : Node × Host} (h : Reachable fixture debug σ) {pid : Nat}
    (hp : σ.1.process = some pid) {io : StopIO} (hw : io.tryWait = none) (hk : io.kill = none) :
    (∃ proc, σ.2.procs pid = some proc ∧ proc.state = .running ∧
      (σ.1.stop io σ.2).1 = σ.1.cleanup io.cleanup ∧ (σ.1.stop io σ.2).2.2 = σ.2.kill pid) ∨
    (∃ proc status, σ.2.procs pid = some proc ∧ proc.state = .exited status ∧
      (σ.1.stop io σ.2).1 =
        (do σ.1.cleanup io.cleanup; throw ⟨.invalidData, "Node exited early, " ++ crashMessage status⟩) ∧
      (σ.1.stop io σ.2).2.2 = σ.2) := by
  obtain ⟨proc, hproc, hnk⟩ := (reachable_valid fixture debug h).held pid hp
  rw [stop_of_process hp]
  rcases hstate : proc.state with _ | status | _
  · have hrun : σ.2.tryWait pid = none := by simp [Host.tryWait, hproc, hstate]
    exact .inl ⟨proc, hproc, hstate, by rw [stopChild_running hw hk hrun]; rfl,
      by rw [stopChild_running hw hk hrun]⟩
  · have hs : σ.2.tryWait pid = some status := by simp [Host.tryWait, hproc, hstate]
    exact .inr ⟨proc, status, hproc, hstate, by rw [stopChild_ended hw hs]; rfl,
      by rw [stopChild_ended hw hs]⟩
  · exact absurd hstate hnk

/-- A node started, that then crashed with status 1: its `stop` reports it. -/
theorem stop_reports_early_exit_crash :
    ((run sampleFixture (fun _ => "") (sampleNode .zcashd .none, emptyHost)
        [.start startOk, .exit 0 ⟨false, "exit status: 1"⟩]).1.stop stopOk
        (run sampleFixture (fun _ => "") (sampleNode .zcashd .none, emptyHost)
          [.start startOk, .exit 0 ⟨false, "exit status: 1"⟩]).2).1 =
      .error ⟨.invalidData, "Node exited early, crashed with exit status: 1"⟩ := by
  rcases @stop_reports_early_exit Unit Unit sampleFixture (fun _ => "") _
      ((Reachable.init (rfl : (sampleNode .zcashd .none).process = none) emptyHost_fresh).step
        (.start startOk) |>.step (.exit 0 ⟨false, "exit status: 1"⟩))
      0 rfl stopOk rfl rfl with ⟨proc, hproc, hstate, -⟩ | ⟨proc, status, hproc, hstate, hstop, -⟩
  · cases hproc; cases hstate
  · cases hproc; cases hstate; exact hstop

/-! ## What the supervisor lets go -/

/-- **A process the supervisor lets go stays as it is.**  For every state,
every pid the host has given out that the supervisor does not hold, and every
run of later calls, with any answers, and of other processes ending: the
process is left exactly as it was, running if it was running, and the
supervisor never holds it again.  A `start` on a node whose process still runs
replaces the handle without stopping the process, and a `stop` whose `try_wait`
or `kill` fails has already dropped the handle: either way the node process
then runs on, and neither a later `stop` nor `Drop` kills it. -/
theorem released_process_untouched (σ : Node × Host) {pid : Nat} (hheld : σ.1.process ≠ some pid)
    (hlt : pid < σ.2.nextPid) (ops : List (Op Block Header))
    (hexit : ∀ status, Op.exit pid status ∉ ops) :
    (run fixture debug σ ops).2.procs pid = σ.2.procs pid ∧
      (run fixture debug σ ops).1.process ≠ some pid := by
  induction ops generalizing σ with
  | nil => exact ⟨rfl, hheld⟩
  | cons op ops ih =>
    have hop : ∀ status, op ≠ .exit pid status := fun status h => hexit status (h ▸ List.mem_cons_self _ _)
    have hheld' : (step fixture debug σ op).1.process ≠ some pid := fun h =>
      (step_process fixture debug h).elim hheld (Nat.ne_of_lt hlt)
    obtain ⟨hprocs, hnot⟩ := ih (step fixture debug σ op) hheld'
      (Nat.lt_of_lt_of_le hlt (nextPid_le_step fixture debug σ op))
      fun status h => hexit status (List.mem_cons_of_mem _ h)
    exact ⟨hprocs.trans (step_procs_of_not_held fixture debug hheld hlt hop), hnot⟩

/-- Two `start`s in a row: the first node process still runs after the second
`start` and a `stop`. -/
theorem released_process_untouched_double_start :
    (run sampleFixture (fun _ => "") (sampleNode .zcashd .none, emptyHost)
        [.start startOk, .start startOk, .stop stopOk]).2.procs 0 =
      some ⟨"node", [], "/tmp/node", false, .running⟩ :=
  (@released_process_untouched Unit Unit sampleFixture (fun _ => "")
    (run sampleFixture (fun _ => "") (sampleNode .zcashd .none, emptyHost) [.start startOk, .start startOk])
    0 (by decide) (by decide) [.stop stopOk] (by simp)).1.trans rfl

/-! ## The synthetic peers' addresses -/

/-- Every event but the `initial_peers` setter keeps every initial peer. -/
theorem initialPeers_subset_step (σ : Node × Host) {op : Op Block Header}
    (hop : ∀ peers, op ≠ .initialPeers peers) :
    σ.1.config.initialPeers ⊆ (step fixture debug σ op).1.config.initialPeers := by
  cases op with
  | initialPeers peers => exact absurd rfl (hop peers)
  | start io =>
    obtain ⟨peers, hsub, h | h⟩ := start_spec fixture debug σ.1 io σ.2 <;>
      exact (congrArg (·.1.config.initialPeers) h).symm ▸ hsub
  | stop io => exact (congrArg NodeConfig.initialPeers (stop_config σ.1 io σ.2)).symm ▸ List.Subset.refl _
  | drop io => exact (congrArg NodeConfig.initialPeers (stop_config σ.1 io σ.2)).symm ▸ List.Subset.refl _
  | _ => exact List.Subset.refl _

theorem initialPeers_subset_run (σ : Node × Host) {ops : List (Op Block Header)}
    (hops : ∀ peers, Op.initialPeers peers ∉ ops) :
    σ.1.config.initialPeers ⊆ (run fixture debug σ ops).1.config.initialPeers := by
  induction ops generalizing σ with
  | nil => exact List.Subset.refl _
  | cons op ops ih =>
    exact (initialPeers_subset_step fixture debug σ fun peers h =>
      hops peers (h ▸ List.mem_cons_self _ _)).trans
      (ih _ fun peers h => hops peers (List.mem_cons_of_mem _ h))

/-- **A synthetic peer's address stays among the initial peers.**  Once a
`start` with an initial action has built its synthetic peer, whatever follows
in that `start`, the peer's address is among the node's initial peers after
every later run of calls that does not set `initial_peers` again: across
`stop`s and further `start`s, each writing its configuration file from them,
although `start` shuts that peer down once its initial action is done. -/
theorem synthetic_peer_stays (σ : Node × Host) {io : StartIO Block Header} {addr : SocketAddr}
    (haction : σ.1.config.initialAction ≠ .none) (hclean : σ.1.cleanup io.cleanup = .ok ())
    (hbuild : io.build = .ok addr) (ops : List (Op Block Header))
    (hops : ∀ peers, Op.initialPeers peers ∉ ops) :
    addr ∈ (run fixture debug (step fixture debug σ (.start io)) ops).1.config.initialPeers :=
  initialPeers_subset_run fixture debug _ hops (mem_start_initialPeers fixture debug haction hclean hbuild)

/-- A node waiting for a connection, started, stopped and started again: the
first synthetic peer's address is still an initial peer. -/
theorem synthetic_peer_stays_restart :
    "127.0.0.1:8000" ∈ (run sampleFixture (fun _ => "")
      (step sampleFixture (fun _ => "") (sampleNode .zcashd .waitForConnection, emptyHost) (.start startOk))
      [.stop stopOk, .start startOk]).1.config.initialPeers :=
  @synthetic_peer_stays Unit Unit sampleFixture (fun _ => "") (sampleNode .zcashd .waitForConnection, emptyHost)
    startOk "127.0.0.1:8000" (by decide) rfl rfl _ (by simp)

end Supervisor
end Ziggurat
