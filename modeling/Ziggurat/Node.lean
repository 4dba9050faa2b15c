import Ziggurat.Inv

/-! # The node supervisor

`setup::node::Node` runs the node under test as a child process: `start`
clears what an earlier run left, starts a synthetic peer when the initial
action needs one and adds its address to the node's initial peers, writes the
node's configuration file, spawns the node, and performs the initial action;
`stop`, which `Drop` calls, takes the child handle, kills the node unless it has
already exited, clears its files, and reports an early exit.

Every call the supervisor makes of the operating system or the network is
answered by the environment, with any answer of the call's type: a removal may
fail with any error, a peer may send any message.  What the supervisor does to
processes outlives the supervisor, so the host's processes are state (`Host`).
Messages, blocks and the fixture chain live in modules the sources do not
include; the seeding exchange is written over them as the specification
describes them (§3, §4.6).
-/
namespace Ziggurat

/-! ## What the supervisor observes -/

/-- `std::io::ErrorKind`, by the kinds the supervisor and the conformance tests
name; any other kind is `other`. -/
inductive IoErrorKind where
  | notFound
  | invalidData
  | unexpectedEof
  | connectionReset
  | connectionAborted
  | brokenPipe
  | other
  deriving DecidableEq, Repr

/-- `std::io::Error`: its kind, and the text it displays. -/
structure IoError where
  kind : IoErrorKind
  message : String
  deriving DecidableEq, Repr

/-- How a call ends without returning `Ok`: an `io::Error` returned, or a panic
of the calling thread with its message. -/
inductive Abort where
  | error (e : IoError)
  | panic (message : String)
  deriving DecidableEq, Repr

/-- `std::process::ExitStatus`, by what the supervisor reads of it: `success()`,
and the text `{}` prints. -/
structure ExitStatus where
  success : Bool
  display : String
  deriving DecidableEq, Repr

/-- The status `Child::kill` leaves on Unix. -/
def ExitStatus.sigkill : ExitStatus := ⟨false, "signal: 9 (SIGKILL)"⟩

/-- `SocketAddr`, by the text `{}` prints for it, which is all the supervisor
keeps of an address. -/
abbrev SocketAddr := String

/-! ## The host's processes -/

/-- Where a process stands: running, ended by itself, or killed by `Child::kill`. -/
inductive ProcState where
  | running
  | exited (status : ExitStatus)
  | killed
  deriving DecidableEq, Repr

/-- A child process: the `Command` that started it, and where it stands. -/
structure Process where
  command : String
  args : List String
  dir : String
  inheritsOutput : Bool
  state : ProcState

/-- The processes on the host by pid; no pid from `nextPid` on is given out yet. -/
structure Host where
  procs : Nat → Option Process
  nextPid : Nat

namespace Host

/-- `Command::spawn` that succeeds: a running process under the next pid. -/
def spawn (h : Host) (command : String) (args : List String) (dir : String)
    (inheritsOutput : Bool) : Host :=
  ⟨Function.update h.procs h.nextPid (some ⟨command, args, dir, inheritsOutput, .running⟩),
    h.nextPid + 1⟩

/-- The process `pid` moves on by `f`. -/
def setState (h : Host) (pid : Nat) (f : ProcState → ProcState) : Host :=
  { h with procs := Function.update h.procs pid ((h.procs pid).map fun p => { p with state := f p.state }) }

/-- `Child::kill` that succeeds: a running process is killed. -/
def kill (h : Host) (pid : Nat) : Host :=
  h.setState pid fun s => if s = .running then .killed else s

/-- A running process ends by itself with `status`. -/
def exit (h : Host) (pid : Nat) (status : ExitStatus) : Host :=
  h.setState pid fun s => if s = .running then .exited status else s

/-- `Child::try_wait` that succeeds: the status of a process that has ended. -/
def tryWait (h : Host) (pid : Nat) : Option ExitStatus :=
  match (h.procs pid).map Process.state with
  | some (.exited status) => some status
  | some .killed => some .sigkill
  | _ => none

@[simp] theorem spawn_nextPid (h : Host) (command : String) (args : List String) (dir : String)
    (inheritsOutput : Bool) : (h.spawn command args dir inheritsOutput).nextPid = h.nextPid + 1 := rfl

@[simp] theorem setState_nextPid (h : Host) (pid : Nat) (f : ProcState → ProcState) :
    (h.setState pid f).nextPid = h.nextPid := rfl

/-- No pid from `nextPid` on is in use. -/
def Fresh (h : Host) : Prop := ∀ pid, h.nextPid ≤ pid → h.procs pid = none

theorem spawn_procs_ne (h : Host) (command : String) (args : List String) (dir : String)
    (inheritsOutput : Bool) {q : Nat} (hq : q ≠ h.nextPid) :
    (h.spawn command args dir inheritsOutput).procs q = h.procs q :=
  Function.update_noteq hq _ _

theorem setState_procs_ne (h : Host) {pid q : Nat} (f : ProcState → ProcState) (hq : q ≠ pid) :
    (h.setState pid f).procs q = h.procs q :=
  Function.update_noteq hq _ _

theorem setState_procs_self (h : Host) (pid : Nat) (f : ProcState → ProcState) :
    (h.setState pid f).procs pid = (h.procs pid).map fun p => { p with state := f p.state } :=
  Function.update_same _ _ _

theorem kill_procs_ne (h : Host) {pid q : Nat} (hq : q ≠ pid) : (h.kill pid).procs q = h.procs q :=
  h.setState_procs_ne _ hq

theorem exit_procs_ne (h : Host) {pid q : Nat} (status : ExitStatus) (hq : q ≠ pid) :
    (h.exit pid status).procs q = h.procs q :=
  h.setState_procs_ne _ hq

theorem spawn_procs_self (h : Host) (command : String) (args : List String) (dir : String)
    (inheritsOutput : Bool) :
    (h.spawn command args dir inheritsOutput).procs h.nextPid =
      some ⟨command, args, dir, inheritsOutput, .running⟩ :=
  Function.update_same _ _ _

/-- Moving a process on neither creates nor removes one. -/
theorem setState_procs_eq_none (h : Host) {pid q : Nat} (f : ProcState → ProcState)
    (hq : h.procs q = none) : (h.setState pid f).procs q = none := by
  by_cases hqp : q = pid
  · subst hqp; rw [setState_procs_self, hq]; rfl
  · rw [setState_procs_ne h f hqp, hq]

theorem Fresh.spawn {h : Host} (hf : h.Fresh) (command : String) (args : List String)
    (dir : String) (inheritsOutput : Bool) : (h.spawn command args dir inheritsOutput).Fresh :=
  fun pid hpid => (h.spawn_procs_ne command args dir inheritsOutput (by simp at hpid; omega)).trans
    (hf pid (by simp at hpid; omega))

theorem Fresh.setState {h : Host} (hf : h.Fresh) (pid : Nat) (f : ProcState → ProcState) :
    (h.setState pid f).Fresh :=
  fun q hq => h.setState_procs_eq_none f (hf q hq)

/-- A process that was not killed is still there, and still not killed, after
any process ends by itself. -/
theorem exit_procs_ne_killed (h : Host) (pid : Nat) (status : ExitStatus) {q : Nat}
    {proc : Process} (hq : h.procs q = some proc) (hk : proc.state ≠ .killed) :
    ∃ proc', (h.exit pid status).procs q = some proc' ∧ proc'.state ≠ .killed := by
  by_cases hqp : q = pid
  · subst hqp
    refine ⟨_, by rw [exit, setState_procs_self, hq]; rfl, ?_⟩
    dsimp only
    split
    · exact ProcState.noConfusion
    · exact hk
  · exact ⟨proc, by rw [exit, setState_procs_ne h _ hqp, hq], hk⟩

end Host

/-- A host on which no process has run yet. -/
def emptyHost : Host := ⟨fun _ => none, 0⟩

theorem emptyHost_fresh : emptyHost.Fresh := fun _ _ => rfl

/-! ## The seeding exchange's messages -/

/-- `LocatorHashes`, the payload of `getheaders`: newest hash first, and the
hash to stop at. -/
structure LocatorHashes where
  blockLocatorHashes : List Hash
  hashStop : Hash

/-- `Message`, by the commands the seeding exchange and the handshake tests
name (`Version`'s payload is not read); any other command is `other`. -/
inductive Message (Block Header : Type) where
  | version
  | verack
  | getHeaders (locations : LocatorHashes)
  | headers (headers : List Header)
  | getData (inv : Inv)
  | block (block : Block)
  | other (command : String)

/-- The command a message is sent under. -/
def Message.command {Block Header : Type} : Message Block Header → String
  | .version => "version"
  | .verack => "verack"
  | .getHeaders _ => "getheaders"
  | .headers _ => "headers"
  | .getData _ => "getdata"
  | .block _ => "block"
  | .other command => command

/-- Modelled from the spec: the embedded testnet chain, `Block::testnet_genesis()`
and `Block::initial_testnet_blocks()`, and what the exchange reads of a block. -/
structure Fixture (Block Header : Type) where
  genesis : Block
  initialTestnetBlocks : List Block
  header : Block → Header
  doubleSha256 : Block → Hash

/-- Modelled from the spec: `block.inv_hash()`, the block's hash as a `Block`
record. -/
def Fixture.invHash {Block Header : Type} (fixture : Fixture Block Header) (block : Block) :
    InvHash :=
  ⟨.block, fixture.doubleSha256 block⟩

/-- Modelled from the spec: `Inv::new(inventory)`, the count set to the length. -/
def Inv.new (inventory : List InvHash) : Inv := ⟨VarInt.ofNat inventory.length, inventory⟩

/-- A chain of two blocks, genesis and one more, whose hashes are zero. -/
def sampleFixture : Fixture Unit Unit := ⟨(), [(), ()], fun _ => (), fun _ => Hash.zeroed⟩

/-! ## The supervisor's state -/

/-- `NodeKind`: which implementation the node under test is. -/
inductive NodeKind where
  | zebra
  | zcashd
  deriving DecidableEq, Repr

/-- `Action`: what `start` does once the node runs. -/
inductive Action where
  /-- Nothing. -/
  | none
  /-- Wait for the node to connect to a synthetic peer. -/
  | waitForConnection
  /-- Serve the node the first `count` blocks of the testnet chain, genesis
  included, from a synthetic peer. -/
  | seedWithTestnetBlocks (count : Nat)
  deriving DecidableEq, Repr

/-- `NodeConfig`, by the fields `node.rs` reads and writes; the whole of it is
what the configuration file is generated from. -/
structure NodeConfig where
  /-- A `HashSet<String>` of addresses as `{}` prints them. -/
  initialPeers : List SocketAddr
  maxPeers : Nat
  logToStdout : Bool
  initialAction : Action

/-- `NodeMetaData`: the kind of node and how to start it. -/
structure NodeMetaData where
  kind : NodeKind
  path : String
  startCommand : String
  startArgs : List String

/-- `Node`: its configuration, how to start it, and the handle of the running
node's process. -/
structure Node where
  config : NodeConfig
  meta : NodeMetaData
  process : Option Nat

namespace Node

/-- A node of kind `kind` under the initial action `action`, holding no process. -/
def sampleNode (kind : NodeKind) (action : Action) : Node :=
  ⟨⟨[], 8, false, action⟩, ⟨kind, "/tmp/node", "node", []⟩, none⟩

/-- `Node::new`, from `NodeConfig::new()` and `NodeMetaData::new()`. -/
def new (config : NodeConfig) (meta : Except IoError NodeMetaData) : Except IoError Node :=
  meta.map fun meta => ⟨config, meta, none⟩

/-! ## The builder -/

/-- `initial_peers(peers)`: the set of the addresses' texts replaces the old one. -/
def initialPeers (self : Node) (peers : List SocketAddr) : Node :=
  { self with config.initialPeers := peers.foldl (fun set addr => set.insert addr) [] }

def maxPeers (self : Node) (maxPeers : Nat) : Node := { self with config.maxPeers := maxPeers }

def logToStdout (self : Node) (logToStdout : Bool) : Node :=
  { self with config.logToStdout := logToStdout }

def initialAction (self : Node) (action : Action) : Node :=
  { self with config.initialAction := action }

/-! ## Files -/

/-- What `cleanup` is answered: `fs::remove_file` of the configuration file,
`home::home_dir()`, and `fs::remove_dir_all` of the zcashd cache. -/
structure CleanupIO where
  removeFile : Except IoError Unit
  homeDir : Option String
  removeDirAll : Except IoError Unit

/-- A `cleanup` whose removals succeed, with no home directory. -/
def cleanupOk : CleanupIO := ⟨.ok (), none, .ok ()⟩

/-- A removal whose `NotFound` is let through: the file may not exist. -/
def ignoreNotFound (removal : Except IoError Unit) : Except IoError Unit :=
  match removal with
  | .error e => if e.kind ≠ .notFound then .error e else .ok ()
  | .ok () => .ok ()

def cleanupConfigFile (io : CleanupIO) : Except IoError Unit := ignoreNotFound io.removeFile

/-- `cleanup_cache`: only zcashd keeps a cache, under `~/.zcash/testnet3`. -/
def cleanupCache (self : Node) (io : CleanupIO) : Except IoError Unit :=
  match self.meta.kind, io.homeDir with
  | .zcashd, some _ => ignoreNotFound io.removeDirAll
  | _, _ => .ok ()

def cleanup (self : Node) (io : CleanupIO) : Except IoError Unit := do
  cleanupConfigFile io
  self.cleanupCache io

/-- What `generate_config_file` is answered: whether `ZebraConfigFile::generate`
serialises the configuration, and `fs::write` of the file. -/
structure GenerateIO where
  zebraConfig : Except String Unit
  write : Except IoError Unit

def generateConfigFile (self : Node) (io : GenerateIO) : Except IoError Unit :=
  match self.meta.kind with
  | .zebra =>
    match io.zebraConfig with
    | .error e => .error ⟨.invalidData, e⟩
    | .ok () => io.write
  | .zcashd => io.write

/-! ## `stop` and `Drop` -/

/-- What `stop` is answered: an error of `Child::try_wait`, one of
`Child::kill`, and the answers of `cleanup`.  A call without an error reads the
host. -/
structure StopIO where
  tryWait : Option IoError
  kill : Option IoError
  cleanup : CleanupIO

/-- A `stop` every call of which succeeds. -/
def stopOk : StopIO := ⟨none, none, cleanupOk⟩

/-- `crashed`, for a process found ended with `status`. -/
def crashMessage (status : ExitStatus) : String :=
  if status.success then "but exited successfully somehow" else "crashed with " ++ status.display

/-- `stop`, from the point its handle is taken: the match on `try_wait`, which
kills a process still running, then `cleanup`, then the report of an early
exit. -/
def stopChild (self : Node) (io : StopIO) (child : Nat) (host : Host) :
    Except IoError Unit × Host :=
  match io.tryWait with
  | some e => (.error e, host)
  | none =>
    let crashed : Except IoError (Option String × Host) :=
      match host.tryWait child with
      | none =>
        match io.kill with
        | some e => .error e
        | none => .ok (none, host.kill child)
      | some status => .ok (some (crashMessage status), host)
    match crashed with
    | .error e => (.error e, host)
    | .ok (crashed, host) =>
      match self.cleanup io.cleanup with
      | .error e => (.error e, host)
      | .ok () =>
        match crashed with
        | some msg => (.error ⟨.invalidData, "Node exited early, " ++ msg⟩, host)
        | none => (.ok (), host)

/-- `stop`: when the node holds a process, the handle is taken first. -/
def stop (self : Node) (io : StopIO) (host : Host) : Except IoError Unit × Node × Host :=
  match self.process with
  | none => (.ok (), self, host)
  | some child =>
    let r := stopChild { self with process := none } io child host
    (r.1, { self with process := none }, r.2)

/-- `Drop`: `stop`, its error logged and never raised. -/
def drop (self : Node) (io : StopIO) (host : Host) : Node × Host := (self.stop io host).2

theorem stop_process (self : Node) (io : StopIO) (host : Host) :
    (self.stop io host).2.1.process = none := by
  unfold stop; split <;> simp_all

@[simp] theorem stop_config (self : Node) (io : StopIO) (host : Host) :
    (self.stop io host).2.1.config = self.config := by
  unfold stop; split <;> rfl

/-- `stop` of a node holding `child`. -/
theorem stop_of_process {self : Node} {child : Nat} (hp : self.process = some child) (io : StopIO)
    (host : Host) :
    self.stop io host = ((({ self with process := none } : Node).stopChild io child host).1,
      { self with process := none }, (({ self with process := none } : Node).stopChild io child host).2) := by
  unfold stop; rw [hp]

/-- When `try_wait` and `kill` succeed on a running child, `stop` kills it and
returns what `cleanup` returns. -/
theorem stopChild_running {self : Node} {io : StopIO} {child : Nat} {host : Host}
    (hw : io.tryWait = none) (hk : io.kill = none) (hrun : host.tryWait child = none) :
    self.stopChild io child host = (self.cleanup io.cleanup, host.kill child) := by
  unfold stopChild
  simp only [hw, hrun, hk]
  cases self.cleanup io.cleanup <;> rfl

/-- When `try_wait` succeeds on a child that has ended, `stop` leaves it and
reports the early exit, unless `cleanup` fails first. -/
theorem stopChild_ended {self : Node} {io : StopIO} {child : Nat} {host : Host}
    {status : ExitStatus} (hw : io.tryWait = none) (hs : host.tryWait child = some status) :
    self.stopChild io child host =
      ((do self.cleanup io.cleanup; throw ⟨.invalidData, "Node exited early, " ++ crashMessage status⟩),
        host) := by
  unfold stopChild
  simp only [hw, hs]
  cases self.cleanup io.cleanup <;> rfl

/-- **What `stop` does to the host**: nothing, or the kill of the process it
held. -/
theorem stopChild_host (self : Node) (io : StopIO) (child : Nat) (host : Host) :
    (self.stopChild io child host).2 = host ∨ (self.stopChild io child host).2 = host.kill child := by
  unfold stopChild
  rcases io.tryWait with _ | e
  · cases host.tryWait child with
    | none =>
      cases io.kill with
      | none => dsimp only; split <;> simp
      | some e => exact .inl rfl
    | some status => dsimp only; split <;> simp
  · exact .inl rfl

/-! ## The initial action -/

section InitialAction
variable {Block Header : Type} (fixture : Fixture Block Header)
  (debug : Message Block Header → String)

/-- The panic of a failed `assert_eq!`. -/
def assertEqFailed : String := "assertion failed: left == right"

/-- What the seeding exchange is answered: the synthetic peer's two
`recv_message_timeout`s, its sends in order (the headers first, then the
blocks), and its `ping_pong_timeout` with an address. -/
structure SeedIO (Block Header : Type) where
  recvGetHeaders : Except IoError (SocketAddr × Message Block Header)
  recvGetData : Except IoError (SocketAddr × Message Block Header)
  send : Nat → Except IoError Unit
  pingPong : SocketAddr → Except IoError Unit

/-- A node at `127.0.0.1:18233` that asks `sampleFixture`'s second block of the
synthetic peer, which answers it. -/
def seedOk : SeedIO Unit Unit :=
  ⟨.ok ("127.0.0.1:18233", .getHeaders ⟨[Hash.zeroed], Hash.zeroed⟩),
    .ok ("127.0.0.1:18233", .getData (Inv.new [⟨.block, Hash.zeroed⟩])), fun _ => .ok (),
    fun _ => .ok ()⟩

/-- `for block in blocks { send_direct_message(source, Message::Block(block))? }`,
the `i`-th send first: the error that ends the loop, and the messages sent
before it. -/
def sendBlocks (source : SocketAddr) (send : Nat → Except IoError Unit) :
    Nat → List Block → Except IoError Unit × List (SocketAddr × Message Block Header)
  | _, [] => (.ok (), [])
  | i, block :: blocks =>
    match send i with
    | .error e => (.error e, [])
    | .ok () =>
      let rest := sendBlocks source send (i + 1) blocks
      (rest.1, (source, .block block) :: rest.2)

/-- The first `match` of the exchange: a `GetHeaders` from genesis, with a
zero stop hash, is answered with the headers of `blocks`; its sender is the
`source` returned. -/
def answerGetHeaders (blocks : List Block) (io : SeedIO Block Header) :
    Except Abort SocketAddr × List (SocketAddr × Message Block Header) :=
  match io.recvGetHeaders with
  | .error e => (.error (.error e), [])
  | .ok (source, .getHeaders locations) =>
    if locations.blockLocatorHashes = [fixture.doubleSha256 fixture.genesis] ∧
        locations.hashStop = Hash.zeroed then
      match io.send 0 with
      | .error e => (.error (.error e), [])
      | .ok () => (.ok source, [(source, .headers (blocks.map fixture.header))])
    else (.error (.panic assertEqFailed), [])
  | .ok (_, msg) =>
    (.error (.error ⟨.invalidData, "Expected GetHeaders but got: " ++ debug msg⟩), [])

/-- The second `match`: a `GetData` for exactly the inventory of `blocks` is
answered with the blocks, sent to its sender. -/
def answerGetData (blocks : List Block) (io : SeedIO Block Header) :
    Except Abort Unit × List (SocketAddr × Message Block Header) :=
  match io.recvGetData with
  | .error e => (.error (.error e), [])
  | .ok (source, .getData inv) =>
    if inv = Inv.new (blocks.map fixture.invHash) then
      let sent := sendBlocks source io.send 1 blocks
      (sent.1.mapError .error, sent.2)
    else (.error (.panic assertEqFailed), [])
  | .ok (_, msg) =>
    (.error (.error ⟨.invalidData, "Expected GetData but got: " ++ debug msg⟩), [])

/-- `SeedWithTestnetBlocks(block_count)` on zcashd: the first `block_count`
blocks less genesis are offered by their headers, then sent, and the node that
asked for the headers is pinged.  Also returned: the messages sent, in order. -/
def seedWithTestnetBlocks (blockCount : Nat) (io : SeedIO Block Header) :
    Except Abort Unit × List (SocketAddr × Message Block Header) :=
  let blocks := (fixture.initialTestnetBlocks.take blockCount).drop 1
  let headers := answerGetHeaders fixture debug blocks io
  match headers.1 with
  | .error e => (.error e, headers.2)
  | .ok source =>
    let data := answerGetData fixture debug blocks io
    match data.1 with
    | .error e => (.error e, headers.2 ++ data.2)
    | .ok () =>
      match io.pingPong source with
      | .error e => (.error (.error e), headers.2 ++ data.2)
      | .ok () => (.ok (), headers.2 ++ data.2)

/-- What the initial action is answered: how `wait_until!` on the synthetic
peer's first connection ends, `none` when it returns and a panic's message when
it gives up, and the seeding exchange's answers. -/
structure InitialActionIO (Block Header : Type) where
  waitForConnection : Option String
  seed : SeedIO Block Header

/-- `perform_initial_action`, with the messages it has the synthetic peer send. -/
def performInitialAction (self : Node) (io : InitialActionIO Block Header) :
    Except Abort Unit × List (SocketAddr × Message Block Header) :=
  match self.config.initialAction with
  | .none => (.ok (), [])
  | .waitForConnection =>
    match io.waitForConnection with
    | some msg => (.error (.panic msg), [])
    | none => (.ok (), [])
  | .seedWithTestnetBlocks blockCount =>
    match self.meta.kind with
    | .zebra => (.error (.panic "not implemented: zebra doesn\x27t support block seeding"), [])
    | .zcashd => seedWithTestnetBlocks fixture debug blockCount io.seed

/-- A loop of sends that returns `Ok` has sent every block, in order. -/
theorem sendBlocks_ok {source : SocketAddr} {send : Nat → Except IoError Unit} {i : Nat}
    {blocks : List Block} (h : (sendBlocks source send i blocks : Except IoError Unit × List (SocketAddr × Message Block Header)).1 = .ok ()) :
    (sendBlocks source send i blocks : Except IoError Unit × List (SocketAddr × Message Block Header)).2 =
      blocks.map fun block => (source, .block block) := by
  induction blocks generalizing i with
  | nil => rfl
  | cons block blocks ih =>
    unfold sendBlocks at h ⊢
    cases hs : send i with
    | error e => rw [hs] at h; cases h
    | ok u => rw [hs] at h; simp only [List.map_cons, ih h]

theorem answerGetHeaders_ok {blocks : List Block} {io : SeedIO Block Header} {source : SocketAddr}
    (h : (answerGetHeaders fixture debug blocks io).1 = .ok source) :
    ∃ locations, io.recvGetHeaders = .ok (source, .getHeaders locations) ∧
      locations.blockLocatorHashes = [fixture.doubleSha256 fixture.genesis] ∧
      locations.hashStop = Hash.zeroed ∧
      (answerGetHeaders fixture debug blocks io).2 = [(source, .headers (blocks.map fixture.header))] := by
  unfold answerGetHeaders at h ⊢
  rcases hget : io.recvGetHeaders with e | ⟨source', _ | _ | locations | _ | _ | _ | _⟩ <;>
    simp only [hget] at h ⊢ <;> try cases h
  by_cases hloc : locations.blockLocatorHashes = [fixture.doubleSha256 fixture.genesis] ∧
      locations.hashStop = Hash.zeroed
  · rw [if_pos hloc] at h ⊢
    cases hsend : io.send 0 <;> simp only [hsend] at h ⊢
    · cases h
    · cases h; exact ⟨locations, rfl, hloc.1, hloc.2, rfl⟩
  · rw [if_neg hloc] at h; cases h

theorem answerGetData_ok {blocks : List Block} {io : SeedIO Block Header}
    (h : (answerGetData fixture debug blocks io).1 = .ok ()) :
    ∃ source, io.recvGetData = .ok (source, .getData (Inv.new (blocks.map fixture.invHash))) ∧
      (answerGetData fixture debug blocks io).2 = blocks.map fun block => (source, .block block) := by
  unfold answerGetData at h ⊢
  rcases hdata : io.recvGetData with e | ⟨source, _ | _ | _ | _ | inv | _ | _⟩ <;>
    simp only [hdata] at h ⊢ <;> try cases h
  by_cases hinv : inv = Inv.new (blocks.map fixture.invHash)
  · rw [if_pos hinv] at h ⊢
    cases hsent : (sendBlocks source io.send 1 blocks :
        Except IoError Unit × List (SocketAddr × Message Block Header)).1 <;>
      simp only [hsent, Except.mapError] at h
    · cases h
    · exact ⟨source, hinv ▸ rfl, sendBlocks_ok hsent⟩
  · rw [if_neg hinv] at h; cases h

/-- **A seeding that returns `Ok`**: the node asked for headers from genesis,
with a zero stop hash, and then for exactly the inventory of the seeded blocks,
blocks `1` to `min(n, len) - 1` of the fixture; the synthetic peer has sent one
`Headers` message with their headers to the first asker, then the blocks
themselves, in chain order, to the second, and has pinged the first. -/
theorem seedWithTestnetBlocks_ok {blockCount : Nat} {io : SeedIO Block Header}
    (h : (seedWithTestnetBlocks fixture debug blockCount io).1 = .ok ()) :
    ∃ source source' locations,
      io.recvGetHeaders = .ok (source, .getHeaders locations) ∧
      locations.blockLocatorHashes = [fixture.doubleSha256 fixture.genesis] ∧
      locations.hashStop = Hash.zeroed ∧
      io.recvGetData = .ok (source', .getData (Inv.new
        (((fixture.initialTestnetBlocks.take blockCount).drop 1).map fixture.invHash))) ∧
      io.pingPong source = .ok () ∧
      (seedWithTestnetBlocks fixture debug blockCount io).2 =
        (source, .headers (((fixture.initialTestnetBlocks.take blockCount).drop 1).map fixture.header)) ::
          ((fixture.initialTestnetBlocks.take blockCount).drop 1).map fun block => (source', .block block) := by
  unfold seedWithTestnetBlocks at h ⊢
  cases hh : (answerGetHeaders fixture debug ((fixture.initialTestnetBlocks.take blockCount).drop 1) io).1 with
  | error e => simp only [hh] at h; cases h
  | ok source =>
    obtain ⟨locations, hget, hloc, hstop, hlog⟩ := answerGetHeaders_ok fixture debug hh
    cases hd : (answerGetData fixture debug ((fixture.initialTestnetBlocks.take blockCount).drop 1) io).1 with
    | error e => simp only [hh, hd] at h; cases h
    | ok u =>
      obtain ⟨source', hdata, hsent⟩ := answerGetData_ok fixture debug hd
      cases hp : io.pingPong source with
      | error e => simp only [hh, hd, hp] at h; cases h
      | ok v => exact ⟨source, source', locations, hget, hloc, hstop, hdata, hp,
          by simp only [hh, hd, hp, hlog, hsent, List.singleton_append]⟩

/-- Two blocks, seeded: the node is sent the second block's header, then the
block. -/
theorem seedWithTestnetBlocks_ok_two_blocks :
    (seedWithTestnetBlocks sampleFixture (fun _ => "") 2 seedOk).2 =
      [("127.0.0.1:18233", .headers [()]), ("127.0.0.1:18233", .block ())] := by
  obtain ⟨source, source', locations, hget, -, -, hdata, -, hlog⟩ :=
    seedWithTestnetBlocks_ok sampleFixture (fun _ => "")
      (rfl : (seedWithTestnetBlocks sampleFixture (fun _ => "") 2 seedOk).1 = .ok ())
  cases hget; cases hdata
  exact hlog

end InitialAction

/-! ## `start` -/

section Start
variable {Block Header : Type} (fixture : Fixture Block Header)
  (debug : Message Block Header → String)

/-- What `start` is answered: `cleanup`, the synthetic peer's `build()` with
its listening address, `generate_config_file`, whether `Command::spawn`
succeeds, and the initial action. -/
structure StartIO (Block Header : Type) where
  cleanup : CleanupIO
  build : Except IoError SocketAddr
  generate : GenerateIO
  spawn : Bool
  initialAction : InitialActionIO Block Header

/-- A `start` every call of which succeeds; the synthetic peer listens on
`127.0.0.1:8000`, and the node connects to it and asks for blocks as `seedOk`. -/
def startOk : StartIO Unit Unit := ⟨cleanupOk, .ok "127.0.0.1:8000", ⟨.ok (), .ok ()⟩, true, ⟨none, seedOk⟩⟩

/-- `start`, up to the synthetic peer: with an initial action, the peer is built
and its address added to the initial peers.  Also returned: whether there is a
peer. -/
def addSyntheticNode (self : Node) (build : Except IoError SocketAddr) : Except IoError (Bool × Node) :=
  match self.config.initialAction with
  | .none => .ok (false, self)
  | _ =>
    match build with
    | .error e => .error e
    | .ok addr => .ok (true, { self with config.initialPeers := self.config.initialPeers.insert (addr) })

/-- `start`, once `cleanup` has succeeded. -/
def startAfterCleanup (self : Node) (io : StartIO Block Header) (host : Host) :
    Except Abort Unit × Node × Host :=
  match self.addSyntheticNode io.build with
  | .error e => (.error (.error e), self, host)
  | .ok (synthetic, self) =>
    match self.generateConfigFile io.generate with
    | .error e => (.error (.error e), self, host)
    | .ok () =>
      if io.spawn then
        let self' := { self with process := some host.nextPid }
        let host' := host.spawn self.meta.startCommand self.meta.startArgs self.meta.path
          self.config.logToStdout
        if synthetic then ((self'.performInitialAction fixture debug io.initialAction).1, self', host')
        else (.ok (), self', host')
      else (.error (.panic "node failed to start"), self, host)

def start (self : Node) (io : StartIO Block Header) (host : Host) :
    Except Abort Unit × Node × Host :=
  match self.cleanup io.cleanup with
  | .error e => (.error (.error e), self, host)
  | .ok () => self.startAfterCleanup fixture debug io host

/-- The synthetic peer only adds an initial peer. -/
theorem addSyntheticNode_ok {self self' : Node} {build : Except IoError SocketAddr} {synthetic : Bool}
    (h : self.addSyntheticNode build = .ok (synthetic, self')) :
    ∃ peers, self.config.initialPeers ⊆ peers ∧ self' = { self with config.initialPeers := peers } := by
  unfold addSyntheticNode at h
  split at h
  · cases h; exact ⟨_, List.Subset.refl _, rfl⟩
  · cases build with
    | error e => cases h
    | ok addr => cases h; exact ⟨_, List.subset_insert _ _, rfl⟩

/-- With an initial action, the synthetic peer's build decides what follows. -/
theorem addSyntheticNode_of_action {self : Node} (haction : self.config.initialAction ≠ .none)
    (build : Except IoError SocketAddr) :
    self.addSyntheticNode build =
      match build with
      | .error e => .error e
      | .ok addr => .ok (true, { self with config.initialPeers := self.config.initialPeers.insert addr }) := by
  unfold addSyntheticNode
  split
  · exact absurd ‹_› haction
  · rfl

/-- The configuration file does not depend on the initial peers. -/
theorem generateConfigFile_initialPeers (self : Node) (peers : List SocketAddr) (io : GenerateIO) :
    ({ self with config.initialPeers := peers } : Node).generateConfigFile io =
      self.generateConfigFile io := rfl

/-- `start` either ends before it spawns the node, with an error and the host
as it was, holding the node it started with or the one with the synthetic
peer's address added; or it spawns the node, holds its handle, and returns
what the initial action returns. -/
theorem start_cases (self : Node) (io : StartIO Block Header) (host : Host) :
    (∃ a self', (self' = self ∨ ∃ synthetic, self.addSyntheticNode io.build = .ok (synthetic, self')) ∧
      self.start fixture debug io host = (.error a, self', host)) ∨
    ∃ synthetic self', self.addSyntheticNode io.build = .ok (synthetic, self') ∧
      self.start fixture debug io host =
        (if synthetic then
            (({ self' with process := some host.nextPid } : Node).performInitialAction fixture debug
              io.initialAction).1
          else .ok (),
          { self' with process := some host.nextPid },
          host.spawn self'.meta.startCommand self'.meta.startArgs self'.meta.path
            self'.config.logToStdout) := by
  unfold start
  cases self.cleanup io.cleanup with
  | error e => exact .inl ⟨_, self, .inl rfl, rfl⟩
  | ok u =>
    unfold startAfterCleanup
    cases self.addSyntheticNode io.build with
    | error e => exact .inl ⟨_, self, .inl rfl, rfl⟩
    | ok r =>
      obtain ⟨synthetic, self'⟩ := r
      dsimp only
      cases self'.generateConfigFile io.generate with
      | error e => exact .inl ⟨_, self', .inr ⟨synthetic, rfl⟩, rfl⟩
      | ok v =>
        cases io.spawn with
        | false => exact .inl ⟨_, self', .inr ⟨synthetic, rfl⟩, rfl⟩
        | true => exact .inr ⟨synthetic, self', rfl, by cases synthetic <;> rfl⟩

/-- **What `start` does to the supervisor and the host**: at most, it adds
initial peers and spawns the node, whose handle it then holds; whatever the
initial action does after that changes neither. -/
theorem start_spec (self : Node) (io : StartIO Block Header) (host : Host) :
    ∃ peers, self.config.initialPeers ⊆ peers ∧
      ((self.start fixture debug io host).2 = ({ self with config.initialPeers := peers }, host) ∨
        (self.start fixture debug io host).2 =
          ({ self with config.initialPeers := peers, process := some host.nextPid },
            host.spawn self.meta.startCommand self.meta.startArgs self.meta.path
              self.config.logToStdout)) := by
  rcases start_cases fixture debug self io host with
    ⟨a, self', rfl | ⟨synthetic, hadd⟩, heq⟩ | ⟨synthetic, self', hadd, heq⟩ <;> rw [heq]
  · exact ⟨_, List.Subset.refl _, .inl rfl⟩
  · obtain ⟨peers, hsub, rfl⟩ := addSyntheticNode_ok hadd
    exact ⟨peers, hsub, .inl rfl⟩
  · obtain ⟨peers, hsub, rfl⟩ := addSyntheticNode_ok hadd
    exact ⟨peers, hsub, .inr rfl⟩

/-- With an initial action, a `start` whose `cleanup` and peer build succeed
adds the peer's listening address to the initial peers, whatever follows. -/
theorem mem_start_initialPeers {self : Node} {io : StartIO Block Header} {host : Host}
    {addr : SocketAddr} (haction : self.config.initialAction ≠ .none)
    (hclean : self.cleanup io.cleanup = .ok ()) (hbuild : io.build = .ok addr) :
    addr ∈ (self.start fixture debug io host).2.1.config.initialPeers := by
  unfold start startAfterCleanup
  rw [hclean]
  dsimp only
  rw [addSyntheticNode_of_action haction, hbuild]
  dsimp only
  split
  · exact List.mem_insert_self _ _
  · split
    · split <;> exact List.mem_insert_self _ _
    · exact List.mem_insert_self _ _

/-- **Seeding a zebra node never succeeds.**  For a zebra node whose initial
action is `SeedWithTestnetBlocks(n)`, `start` never returns `Ok`.  Before it
spawns the node, it returns the error of `cleanup`, of the synthetic peer's
build or of writing the configuration, or, when `Command::spawn` fails, panics
with `expect`'s "node failed to start", each time with the host as it was.
Once it has spawned the node it panics with `unimplemented!`, leaving the node
running under the supervisor's handle.  (The action's documentation says that
on zebra it behaves as `WaitForConnection`.) -/
theorem start_zebra_seed_panics (self : Node) (io : StartIO Block Header) (host : Host)
    {blockCount : Nat} (hkind : self.meta.kind = .zebra)
    (haction : self.config.initialAction = .seedWithTestnetBlocks blockCount) :
    (self.start fixture debug io host).1 ≠ .ok () ∧
    ((∃ e, self.cleanup io.cleanup = .error e ∧
        self.start fixture debug io host = (.error (.error e), self, host)) ∨
      (self.cleanup io.cleanup = .ok () ∧ ∃ e, io.build = .error e ∧
        self.start fixture debug io host = (.error (.error e), self, host)) ∨
      (self.cleanup io.cleanup = .ok () ∧ (∃ addr, io.build = .ok addr) ∧
        ∃ e, self.generateConfigFile io.generate = .error e ∧
        (self.start fixture debug io host).1 = .error (.error e) ∧
        (self.start fixture debug io host).2.2 = host) ∨
      (self.cleanup io.cleanup = .ok () ∧ (∃ addr, io.build = .ok addr) ∧
        self.generateConfigFile io.generate = .ok () ∧ io.spawn = false ∧
        (self.start fixture debug io host).1 = .error (.panic "node failed to start") ∧
        (self.start fixture debug io host).2.2 = host) ∨
      (self.cleanup io.cleanup = .ok () ∧ (∃ addr, io.build = .ok addr) ∧
        self.generateConfigFile io.generate = .ok () ∧ io.spawn = true ∧
        (self.start fixture debug io host).1 =
          .error (.panic "not implemented: zebra doesn\x27t support block seeding") ∧
        (self.start fixture debug io host).2.1.process = some host.nextPid ∧
        (self.start fixture debug io host).2.2 =
          host.spawn self.meta.startCommand self.meta.startArgs self.meta.path
            self.config.logToStdout)) := by
  unfold start
  cases hc : self.cleanup io.cleanup with
  | error e => exact ⟨nofun, .inl ⟨e, rfl, rfl⟩⟩
  | ok u =>
    unfold startAfterCleanup
    rw [addSyntheticNode_of_action (by rw [haction]; nofun)]
    cases hb : io.build with
    | error e => exact ⟨nofun, .inr (.inl ⟨rfl, e, rfl, rfl⟩)⟩
    | ok addr =>
      dsimp only
      rw [generateConfigFile_initialPeers]
      cases hg : self.generateConfigFile io.generate with
      | error e => exact ⟨nofun, .inr (.inr (.inl ⟨rfl, ⟨addr, rfl⟩, e, rfl, rfl, rfl⟩))⟩
      | ok v =>
        cases hs : io.spawn with
        | false => exact ⟨nofun, .inr (.inr (.inr (.inl ⟨rfl, ⟨addr, rfl⟩, rfl, rfl, rfl, rfl⟩)))⟩
        | true =>
          have hpanic : ∀ peers : List SocketAddr,
              (({ self with config.initialPeers := peers, process := some host.nextPid } : Node)
                |>.performInitialAction fixture debug io.initialAction).1 =
              .error (.panic "not implemented: zebra doesn\x27t support block seeding") := by
            intro peers
            simp only [performInitialAction, haction, hkind]
          rw [if_pos rfl, if_pos rfl, hpanic]
          exact ⟨nofun, .inr (.inr (.inr (.inr ⟨rfl, ⟨addr, rfl⟩, rfl, rfl, rfl, rfl, rfl⟩)))⟩

/-- A zebra node asked to seed two blocks, on a host where everything
succeeds: it is spawned, then `start` panics. -/
theorem start_zebra_seed_panics_spawned :
    ((sampleNode .zebra (.seedWithTestnetBlocks 2)).start sampleFixture (fun _ => "") startOk
      emptyHost).1 = .error (.panic "not implemented: zebra doesn\x27t support block seeding") := by
  rcases (start_zebra_seed_panics sampleFixture (fun _ => "") (sampleNode .zebra (.seedWithTestnetBlocks 2))
      startOk emptyHost rfl rfl).2 with
    ⟨_, h, _⟩ | ⟨_, _, h, _⟩ | ⟨_, _, _, h, _⟩ | ⟨_, _, _, h, _⟩ | ⟨_, _, _, _, h, _⟩
  · cases h
  · cases h
  · cases h
  · cases h
  · exact h

end Start

end Node
end Ziggurat
