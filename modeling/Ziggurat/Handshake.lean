import Ziggurat.Node

/-! # The handshake conformance tests

`tests/conformance/handshake.rs` checks that a node performs the handshake as
responder and as initiator (`handshake_responder_side`,
`handshake_initiator_side`), and that it rejects non-`version` messages before
the handshake (test 003, `reject_non_version_before_handshake`) and in reply to
its own `version` (test 004, `reject_non_version_replies_to_version`).

A connection is modelled from the node's end (`Conn`): the messages the node
sends on it, in order, then either a close, after which a read fails with an
error, or silence, after which a read waits forever.  The tests' own calls
(`connect`, `accept`, the writes) are answered in any way (`Calls`).  A check
then passes, panics with a message, or waits forever (`Verdict`).

With the tests' own calls answered `Ok`:
* the two handshake tests pass exactly the nodes whose first two messages are
  `version` and `verack`, and the initiator test also passes, with no message
  exchanged, when its `accept` fails (`handshake_tests_verdict`);
* tests 003 and 004 also pass a node that closes the connection with a
  termination error before it has sent both: test 003 at any point, test 004
  only once its own `version` is sent (`rejectNonVersionBeforeHandshake_verdict`,
  `rejectNonVersionRepliesToVersion_verdict`);
* on every test, a node that has sent at most its `version` and then neither
  sends nor closes makes the check wait forever: no read of these tests has a
  timeout, so none of them fails such a node.  In tests 003 and 004 the first
  connection that does not pass decides, so a silent node hangs the whole test.
-/
namespace Ziggurat
namespace Handshake

/-- `is_termination_error`: the kinds of error that say the connection has
been terminated. -/
def isTerminationError (err : IoError) : Bool :=
  match err.kind with
  | .connectionReset | .connectionAborted | .brokenPipe | .unexpectedEof => true
  | _ => false

/-- How a check ends: it passes, panics with a message, or waits forever. -/
inductive Verdict where
  | pass
  | fail (panic : String)
  | hang
  deriving DecidableEq, Repr

/-- The node's end of a test connection: the messages it sends, in order, then
how the stream ends for a reader: closed, so that a read fails with `closed`'s
error, or left open with nothing more sent (`none`). -/
structure Conn (Block Header : Type) where
  sent : List (Message Block Header)
  closed : Option IoError

/-- The answers to a check's own calls, in order: the connection's `connect` or
`accept`, then its two writes; `none` for a call that never returns. -/
structure Calls where
  connection : Option (Except IoError Unit)
  first : Option (Except IoError Unit)
  second : Option (Except IoError Unit)

/-- Every call of the check returns `Ok`. -/
def Calls.ok : Calls := ⟨some (.ok ()), some (.ok ()), some (.ok ())⟩

/-- What a test does with a step's error: `.unwrap()`; a `match` whose
termination-error arm ends the check (`continue`, `return`, `{}`) and whose
other arm panics with `what` and the error; or, for the initiator test's
`accept`, print it and go on to stop the node. -/
inductive OnError where
  | unwrap
  | endIfTerminated (what : String)
  | report

namespace Conn
variable {Block Header : Type}

/-- `Message::read_from_stream(&mut stream).await`: the next message, or the
error of a closed stream, with what is left of the stream; `none` when the read
never returns. -/
def read : Conn Block Header → Option (Except IoError (Message Block Header) × Conn Block Header)
  | ⟨m :: ms, closed⟩ => some (.ok m, ⟨ms, closed⟩)
  | ⟨[], some e⟩ => some (.error e, ⟨[], some e⟩)
  | ⟨[], none⟩ => none

/-- The commands of the messages the node sends. -/
def commands (c : Conn Block Header) : List String := c.sent.map Message.command

/-- The node's first two messages are `version` and `verack`. -/
def Handshakes (c : Conn Block Header) : Prop := ["version", "verack"] <+: c.commands

/-- The node closes the connection, and a read then fails with a termination
error. -/
def Terminated (c : Conn Block Header) : Prop := ∃ e, c.closed = some e ∧ isTerminationError e

/-- The node sends at most its `version`, then neither sends nor closes. -/
def Silent (c : Conn Block Header) : Prop := c.commands <+: ["version"] ∧ c.closed = none

end Conn

section Checks
variable {Block Header : Type} (debugError : IoError → String)

/-- The verdict of a step that failed with `e`; `debugError` is the error's
`{:?}`. -/
def OnError.settle : OnError → IoError → Verdict
  | .unwrap, e => .fail ("called `Result::unwrap()` on an `Err` value: " ++ debugError e)
  | .endIfTerminated what, e => if isTerminationError e then .pass else .fail (what ++ debugError e)
  | .report, _ => .pass

/-- One of the check's own calls, answered `r`, then `next`. -/
def call (onError : OnError) (r : Option (Except IoError Unit)) (next : Verdict) : Verdict :=
  match r with
  | none => .hang
  | some (.error e) => onError.settle debugError e
  | some (.ok ()) => next

/-- A read, its message checked by `assert!(matches!(..))` (whose text is
`assertion`) to be sent under `command`, then `next` on the rest of the
stream. -/
def Conn.recv (c : Conn Block Header) (onError : OnError) (command assertion : String)
    (next : Conn Block Header → Verdict) : Verdict :=
  match c.read with
  | none => .hang
  | some (.error e, _) => onError.settle debugError e
  | some (.ok m, c') => if command = m.command then next c' else .fail ("assertion failed: " ++ assertion)

/-- `handshake_responder_side`, once the node is started. -/
def handshakeResponderSide (calls : Calls) (c : Conn Block Header) : Verdict :=
  call debugError .unwrap calls.connection <|
  call debugError .unwrap calls.first <|
  c.recv debugError .unwrap "version" "matches!(version, Message::Version(..))" fun c =>
  call debugError .unwrap calls.second <|
  c.recv debugError .unwrap "verack" "matches!(verack, Message::Verack)" fun _ => .pass

/-- `handshake_initiator_side`, once the node is started. -/
def handshakeInitiatorSide (calls : Calls) (c : Conn Block Header) : Verdict :=
  call debugError .report calls.connection <|
  c.recv debugError .unwrap "version" "matches!(version, Message::Version(..))" fun c =>
  call debugError .unwrap calls.first <|
  c.recv debugError .unwrap "verack" "matches!(verack, Message::Verack)" fun _ =>
  call debugError .unwrap calls.second .pass

/-- The body of test 003's loop, for one message: connect, send the message,
then `version`, and read `version` and `verack`. -/
def rejectNonVersionBeforeHandshakeConnection (calls : Calls) (c : Conn Block Header) : Verdict :=
  call debugError .unwrap calls.connection <|
  call debugError .unwrap calls.first <|
  call debugError (.endIfTerminated "Unexpected error while sending version: ") calls.second <|
  c.recv debugError (.endIfTerminated "Unexpected error while receiving version: ") "version"
    "matches!(message, Message::Version(..))" fun c =>
  c.recv debugError (.endIfTerminated "Unexpected error while receiving verack: ") "verack"
    "matches!(message, Message::Verack)" fun _ => .pass

/-- A task of test 004, for one message: accept the node's connection, read its
`version`, send the message, then `version`, and read `verack`. -/
def rejectNonVersionRepliesToVersionTask (calls : Calls) (c : Conn Block Header) : Verdict :=
  call debugError .unwrap calls.connection <|
  c.recv debugError .unwrap "version" "matches!(version, Message::Version(..))" fun c =>
  call debugError .unwrap calls.first <|
  call debugError (.endIfTerminated "Unexpected error while sending version: ") calls.second <|
  c.recv debugError (.endIfTerminated "Unexpected error while receiving verack: ") "verack"
    "matches!(message, Message::Verack)" fun _ => .pass

/-- Checks in turn, the first that does not pass deciding: test 003's loop over
its messages, and test 004 awaiting its tasks' handles in the order it spawned
them. -/
def inTurn {α : Type} (check : α → Verdict) : List α → Verdict
  | [] => .pass
  | x :: xs =>
    match check x with
    | .pass => inTurn check xs
    | v => v

/-- `reject_non_version_before_handshake`, once the node is started: one
connection per message. -/
def rejectNonVersionBeforeHandshake (conns : List (Calls × Conn Block Header)) : Verdict :=
  inTurn (fun p => rejectNonVersionBeforeHandshakeConnection debugError p.1 p.2) conns

/-- `reject_non_version_replies_to_version`: one task per message. -/
def rejectNonVersionRepliesToVersion (tasks : List (Calls × Conn Block Header)) : Verdict :=
  inTurn (fun p => rejectNonVersionRepliesToVersionTask debugError p.1 p.2) tasks

/-! ## One connection -/

@[simp] theorem call_ok (onError : OnError) (next : Verdict) :
    call debugError onError (some (.ok ())) next = next := rfl

@[simp] theorem Conn.recv_cons (m : Message Block Header) (ms : List (Message Block Header))
    (closed : Option IoError) (onError : OnError) (command assertion : String)
    (next : Conn Block Header → Verdict) :
    (⟨m :: ms, closed⟩ : Conn Block Header).recv debugError onError command assertion next =
      if command = m.command then next ⟨ms, closed⟩ else .fail ("assertion failed: " ++ assertion) :=
  rfl

@[simp] theorem Conn.recv_open (onError : OnError) (command assertion : String)
    (next : Conn Block Header → Verdict) :
    (⟨[], none⟩ : Conn Block Header).recv debugError onError command assertion next = .hang := rfl

@[simp] theorem Conn.recv_closed (e : IoError) (onError : OnError) (command assertion : String)
    (next : Conn Block Header → Verdict) :
    (⟨[], some e⟩ : Conn Block Header).recv debugError onError command assertion next =
      onError.settle debugError e := rfl

/-- An error never hangs a check. -/
@[simp] theorem settle_ne_hang (onError : OnError) (e : IoError) :
    onError.settle debugError e ≠ .hang := by
  unfold OnError.settle; split <;> (try split) <;> simp

@[simp] theorem settle_unwrap_ne_pass (e : IoError) : OnError.unwrap.settle debugError e ≠ .pass := by
  simp [OnError.settle]

@[simp] theorem settle_endIfTerminated_eq_pass (what : String) (e : IoError) :
    (OnError.endIfTerminated what).settle debugError e = .pass ↔ isTerminationError e := by
  unfold OnError.settle; split <;> simp_all

/-- **What the handshake tests accept.**  With the tests' own calls answered
`Ok`, `handshake_responder_side` and `handshake_initiator_side` each pass
exactly when the node's first two messages are `version` and `verack`, and wait
forever exactly when the node sends at most its `version` and then neither
sends nor closes; any other node fails them.  When its `accept` fails,
`handshake_initiator_side` passes whatever the node does, with no message
exchanged. -/
theorem handshake_tests_verdict (c : Conn Block Header) :
    (handshakeResponderSide debugError Calls.ok c = .pass ↔ c.Handshakes) ∧
    (handshakeResponderSide debugError Calls.ok c = .hang ↔ c.Silent) ∧
    (handshakeInitiatorSide debugError Calls.ok c = .pass ↔ c.Handshakes) ∧
    (handshakeInitiatorSide debugError Calls.ok c = .hang ↔ c.Silent) ∧
    ∀ (e : IoError) (first second : Option (Except IoError Unit)),
      handshakeInitiatorSide debugError ⟨some (.error e), first, second⟩ c = .pass := by
  -- the node's first two messages, or fewer and how the stream ends
  rcases c with ⟨_ | ⟨m, _ | ⟨m', ms⟩⟩, _ | e⟩ <;>
    simp [handshakeResponderSide, handshakeInitiatorSide, call, OnError.settle, Calls.ok,
      Conn.Handshakes, Conn.Silent, Conn.commands] <;>
    split_ifs <;> simp_all [@eq_comm String "version"]

/-- One connection of test 003: it passes exactly when the node completes the
handshake, or closes the connection with a termination error having sent at
most its `version`, and hangs exactly on a silent node. -/
theorem rejectNonVersionBeforeHandshakeConnection_verdict (c : Conn Block Header) :
    (rejectNonVersionBeforeHandshakeConnection debugError Calls.ok c = .pass ↔
      c.Handshakes ∨ c.commands <+: ["version"] ∧ c.Terminated) ∧
    (rejectNonVersionBeforeHandshakeConnection debugError Calls.ok c = .hang ↔ c.Silent) := by
  rcases c with ⟨_ | ⟨m, _ | ⟨m', ms⟩⟩, _ | e⟩ <;>
    simp [rejectNonVersionBeforeHandshakeConnection, Calls.ok, Conn.Handshakes, Conn.Silent,
      Conn.Terminated, Conn.commands] <;>
    split_ifs <;> simp_all [@eq_comm String "version"]

/-- One task of test 004: as for test 003, except that the node must first
send its `version`, which the task reads with `.unwrap()`. -/
theorem rejectNonVersionRepliesToVersionTask_verdict (c : Conn Block Header) :
    (rejectNonVersionRepliesToVersionTask debugError Calls.ok c = .pass ↔
      c.Handshakes ∨ c.commands = ["version"] ∧ c.Terminated) ∧
    (rejectNonVersionRepliesToVersionTask debugError Calls.ok c = .hang ↔ c.Silent) := by
  rcases c with ⟨_ | ⟨m, _ | ⟨m', ms⟩⟩, _ | e⟩ <;>
    simp [rejectNonVersionRepliesToVersionTask, Calls.ok, Conn.Handshakes, Conn.Silent,
      Conn.Terminated, Conn.commands] <;>
    split_ifs <;> simp_all [@eq_comm String "version"]

/-! ## Checks in turn -/

section InTurn
variable {α β : Type} (check : α → Verdict)

theorem inTurn_map (f : β → α) (xs : List β) :
    inTurn check (xs.map f) = inTurn (fun x => check (f x)) xs := by
  induction xs with
  | nil => rfl
  | cons x xs ih => simp only [List.map_cons, inTurn, ih]

theorem inTurn_append_of_pass {pre : List α} (hpre : ∀ x ∈ pre, check x = .pass) (xs : List α) :
    inTurn check (pre ++ xs) = inTurn check xs := by
  induction pre with
  | nil => rfl
  | cons x pre ih =>
    rw [List.forall_mem_cons] at hpre
    rw [List.cons_append, inTurn, hpre.1]
    exact ih hpre.2

theorem inTurn_eq_pass_iff (xs : List α) : inTurn check xs = .pass ↔ ∀ x ∈ xs, check x = .pass := by
  induction xs with
  | nil => simp [inTurn]
  | cons x xs ih => cases h : check x <;> simp [inTurn, h, ih]

/-- Checks in turn hang exactly when one hangs and every check before it
passes. -/
theorem inTurn_eq_hang_iff (xs : List α) :
    inTurn check xs = .hang ↔
      ∃ pre x post, xs = pre ++ x :: post ∧ (∀ y ∈ pre, check y = .pass) ∧ check x = .hang := by
  constructor
  · induction xs with
    | nil => simp [inTurn]
    | cons x xs ih =>
      intro h
      cases hx : check x with
      | pass =>
        simp only [inTurn, hx] at h
        obtain ⟨pre, y, post, rfl, hpre, hy⟩ := ih h
        exact ⟨x :: pre, y, post, rfl, List.forall_mem_cons.mpr ⟨hx, hpre⟩, hy⟩
      | fail panic => simp [inTurn, hx] at h
      | hang => exact ⟨[], x, xs, rfl, by simp, hx⟩
  · rintro ⟨pre, x, post, rfl, hpre, hx⟩
    rw [inTurn_append_of_pass check hpre]
    simp [inTurn, hx]

/-- What checks in turn pass and hang on, from what each check does. -/
theorem inTurn_verdict {Passes Hangs : α → Prop} (hpass : ∀ x, check x = .pass ↔ Passes x)
    (hhang : ∀ x, check x = .hang ↔ Hangs x) (xs : List α) :
    (inTurn check xs = .pass ↔ ∀ x ∈ xs, Passes x) ∧
    (inTurn check xs = .hang ↔
      ∃ pre x post, xs = pre ++ x :: post ∧ (∀ y ∈ pre, Passes y) ∧ Hangs x) := by
  simp only [inTurn_eq_pass_iff, inTurn_eq_hang_iff, hpass, hhang, iff_self, and_self]

end InTurn

/-! ## Tests 003 and 004 -/

/-- **Test 003's verdict.**  With the test's own calls answered `Ok`,
`reject_non_version_before_handshake` passes exactly when, on each of its
connections, the node completes the handshake or closes the connection with a
termination error having sent at most its `version`.  It waits forever exactly
when the first connection that does not pass is one on which the node goes
silent: the test never fails such a node, whatever the later connections
would show. -/
theorem rejectNonVersionBeforeHandshake_verdict (conns : List (Conn Block Header)) :
    (rejectNonVersionBeforeHandshake debugError (conns.map fun c => (Calls.ok, c)) = .pass ↔
      ∀ c ∈ conns, c.Handshakes ∨ c.commands <+: ["version"] ∧ c.Terminated) ∧
    (rejectNonVersionBeforeHandshake debugError (conns.map fun c => (Calls.ok, c)) = .hang ↔
      ∃ pre c post, conns = pre ++ c :: post ∧
        (∀ c' ∈ pre, c'.Handshakes ∨ c'.commands <+: ["version"] ∧ c'.Terminated) ∧ c.Silent) := by
  unfold rejectNonVersionBeforeHandshake
  rw [inTurn_map]
  exact inTurn_verdict _ (fun c => (rejectNonVersionBeforeHandshakeConnection_verdict debugError c).1)
    (fun c => (rejectNonVersionBeforeHandshakeConnection_verdict debugError c).2) conns

/-- A node that goes silent on the first connection hangs test 003, although it
answers the second non-`version` message. -/
example : rejectNonVersionBeforeHandshake (fun _ => "")
    [(Calls.ok, (⟨[.version], none⟩ : Conn Unit Unit)), (Calls.ok, ⟨[.other "pong"], none⟩)] = .hang :=
  rfl

/-- **Test 004's verdict.**  With the tasks' own calls answered `Ok`,
`reject_non_version_replies_to_version` passes exactly when, on each task's
connection, the node sends its `version` and then completes the handshake or
closes the connection with a termination error.  Its handles are awaited in
the order the tasks were spawned, so it waits forever exactly when the first
task that does not pass is one whose node goes silent, even if a later task
has already failed. -/
theorem rejectNonVersionRepliesToVersion_verdict (conns : List (Conn Block Header)) :
    (rejectNonVersionRepliesToVersion debugError (conns.map fun c => (Calls.ok, c)) = .pass ↔
      ∀ c ∈ conns, c.Handshakes ∨ c.commands = ["version"] ∧ c.Terminated) ∧
    (rejectNonVersionRepliesToVersion debugError (conns.map fun c => (Calls.ok, c)) = .hang ↔
      ∃ pre c post, conns = pre ++ c :: post ∧
        (∀ c' ∈ pre, c'.Handshakes ∨ c'.commands = ["version"] ∧ c'.Terminated) ∧ c.Silent) := by
  unfold rejectNonVersionRepliesToVersion
  rw [inTurn_map]
  exact inTurn_verdict _ (fun c => (rejectNonVersionRepliesToVersionTask_verdict debugError c).1)
    (fun c => (rejectNonVersionRepliesToVersionTask_verdict debugError c).2) conns

end Checks
end Handshake
end Ziggurat
