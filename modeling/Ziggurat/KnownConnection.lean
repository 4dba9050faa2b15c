import Ziggurat.HashSet

/-! # Known nodes and known connections

The crawler's records, from `tools/crawler/network.rs`.  A `KnownConnection`
is an undirected edge: its `PartialEq` compares the two sides in either order
and ignores `last_seen`, and its `Hash` feeds the smaller side first.  So two
connections are equal exactly when they join the same unordered pair of
addresses (`beq_iff_endpoints`), equality is an equivalence, and equal
connections give every hasher the same input (`hash_eq_of_beq`).  That is the
contract `HashSet` asks of its elements, and it is what lets the crawler's
connection set be built at all (`connectionSet`).

Addresses are any type with a linear order, which is what `Ord` promises of
`SocketAddr`: `cmp` is a total order that agrees with `==`.  Times are counted
in nanoseconds, the resolution of `Duration`.
-/
namespace Ziggurat

/-- `Instant`, in nanoseconds since an arbitrary origin. -/
abbrev Instant := Nat

/-- `Duration`, in nanoseconds. -/
abbrev Duration := Nat

/-- `LAST_SEEN_CUTOFF`: the seconds after which a connection is regarded as inactive. -/
def lastSeenCutoff : Nat := 10 * 60

/-- Modelled from the spec: `ProtocolVersion`, the version number a node
announces (an `i32`). -/
structure ProtocolVersion where
  val : Int
  deriving DecidableEq, Repr

/-- Modelled from the spec: `VarStr`, a length-prefixed UTF-8 string. -/
structure VarStr where
  val : String
  deriving DecidableEq, Repr

/-- A node encountered in the network or obtained from one of the peers.  The
address is the key of the owning map. -/
structure KnownNode where
  lastConnected : Option Instant := none
  handshakeTime : Option Duration := none
  protocolVersion : Option ProtocolVersion := none
  userAgent : Option VarStr := none
  services : Option UInt64 := none
  connectionFailures : UInt8 := 0
  deriving DecidableEq, Repr

/-- `#[derive(Default)]`: nothing known, no failures. -/
instance : Inhabited KnownNode := ⟨{}⟩

/-- A connection found in the network. -/
structure KnownConnection (Addr : Type) where
  a : Addr
  b : Addr
  lastSeen : Instant
  deriving Repr

namespace KnownConnection
variable {Addr : Type}

/-- `KnownConnection::new(a, b)`, called at the instant `now`. -/
def new (a b : Addr) (now : Instant) : KnownConnection Addr := ⟨a, b, now⟩

/-- The unordered pair of sides. -/
def endpoints (c : KnownConnection Addr) : Sym2 Addr := s(c.a, c.b)

/-- `last_seen.elapsed().as_secs()` read at the instant `now`: whole seconds,
and zero for a `last_seen` after `now`. -/
def elapsedSecs (c : KnownConnection Addr) (now : Instant) : Nat :=
  (now - c.lastSeen) / 1000000000

/-- The test of `remove_old_connections`' first loop. -/
def isOld (now : Instant) (c : KnownConnection Addr) : Bool :=
  decide (lastSeenCutoff < c.elapsedSecs now)

theorem isOld_eq_not (now : Instant) (c : KnownConnection Addr) :
    c.isOld now = !decide (c.elapsedSecs now ≤ lastSeenCutoff) := by
  rw [isOld, Bool.eq_iff_iff]; simp

/-- An old connection stays old as the clock moves on. -/
theorem isOld_mono {now now' : Instant} (h : now ≤ now') {c : KnownConnection Addr}
    (hold : c.isOld now = true) : c.isOld now' = true := by
  rw [isOld, decide_eq_true_eq, elapsedSecs] at hold ⊢
  exact lt_of_lt_of_le hold (Nat.div_le_div_right (Nat.sub_le_sub_right h _))

@[simp] theorem new_endpoints (a b : Addr) (now : Instant) : (new a b now).endpoints = s(a, b) :=
  rfl

@[simp] theorem new_lastSeen (a b : Addr) (now : Instant) : (new a b now).lastSeen = now := rfl

/-! ## Equality -/

section Eq
variable [DecidableEq Addr]

/-- `PartialEq::eq`: the same two sides, in either order.  `last_seen` is not compared. -/
def eq (self other : KnownConnection Addr) : Bool :=
  self.a == other.b && self.b == other.a || self.a == other.a && self.b == other.b

instance : BEq (KnownConnection Addr) := ⟨eq⟩

/-- **Equal connections are the same unordered pair.** -/
theorem beq_iff_endpoints (x y : KnownConnection Addr) :
    (x == y) = true ↔ x.endpoints = y.endpoints := by
  show eq x y = true ↔ _
  simp only [eq, endpoints, Sym2.eq_iff, Bool.or_eq_true, Bool.and_eq_true, beq_iff_eq]
  exact Or.comm

theorem beq_eq_false_iff (x y : KnownConnection Addr) :
    (x == y) = false ↔ x.endpoints ≠ y.endpoints := by
  rw [Ne, ← beq_iff_endpoints, Bool.not_eq_true]

instance : EquivBEq (KnownConnection Addr) where
  refl := (beq_iff_endpoints _ _).mpr rfl
  symm h := (beq_iff_endpoints _ _).mpr ((beq_iff_endpoints _ _).mp h).symm
  trans h₁ h₂ :=
    (beq_iff_endpoints _ _).mpr (((beq_iff_endpoints _ _).mp h₁).trans ((beq_iff_endpoints _ _).mp h₂))

/-- One element per class of a connection set is one element per unordered pair. -/
theorem distinct_iff_nodup_endpoints (s : HashSet (KnownConnection Addr)) :
    s.Distinct ↔ (s.elems.map endpoints).Nodup := by
  rw [HashSet.Distinct, List.Nodup, List.pairwise_map]
  exact List.Pairwise.iff (beq_eq_false_iff · ·)

end Eq

/-! ## Hashing -/

section Hash
variable [LinearOrder Addr]

/-- `Hash::hash`, into a hasher whose state `write` updates with one
`SocketAddr`: the smaller side goes in first. -/
def hash {S : Type} (write : S → Addr → S) (state : S) (c : KnownConnection Addr) : S :=
  match compare c.a c.b with
  | .gt => write (write state c.b) c.a
  | _ => write (write state c.a) c.b

/-- **The hasher's input** is the smaller side, then the larger. -/
theorem hash_eq_min_max {S : Type} (write : S → Addr → S) (state : S)
    (c : KnownConnection Addr) :
    c.hash write state = write (write state (min c.a c.b)) (max c.a c.b) := by
  unfold hash
  split
  · rename_i h
    have hba : c.b < c.a := compare_gt_iff_gt.mp h
    rw [min_eq_right hba.le, max_eq_left hba.le]
  · rename_i h
    have hab : c.a ≤ c.b := not_lt.mp fun hba => h (compare_gt_iff_gt.mpr hba)
    rw [min_eq_left hab, max_eq_right hab]

/-- **Equal connections hash alike**, into every hasher. -/
theorem hash_eq_of_beq {x y : KnownConnection Addr} (h : (x == y) = true) {S : Type}
    (write : S → Addr → S) (state : S) : x.hash write state = y.hash write state := by
  rw [hash_eq_min_max, hash_eq_min_max]
  rcases Sym2.eq_iff.mp ((beq_iff_endpoints x y).mp h) with ⟨ha, hb⟩ | ⟨ha, hb⟩
  · rw [ha, hb]
  · rw [ha, hb, min_comm, max_comm]

end Hash

end KnownConnection

/-! ## The connection set -/

/-- A `BuildHasher` for connections: the `Hasher` state it builds, how hashing
one `SocketAddr` updates that state, and the `u64` the state finishes with. -/
structure Hasher (Addr S : Type) where
  init : S
  write : S → Addr → S
  finish : S → UInt64

namespace Hasher
variable {Addr S : Type} [LinearOrder Addr]

/-- `BuildHasher::hash_one` of a connection. -/
def hashOne (H : Hasher Addr S) (c : KnownConnection Addr) : UInt64 :=
  H.finish (c.hash H.write H.init)

theorem hashOne_eq (H : Hasher Addr S) (x y : KnownConnection Addr) (h : (x == y) = true) :
    H.hashOne x = H.hashOne y := by
  rw [hashOne, hashOne, KnownConnection.hash_eq_of_beq h]

/-- An empty `HashSet<KnownConnection>` over the build-hasher `H`. -/
def connectionSet (H : Hasher Addr S) : HashSet (KnownConnection Addr) :=
  ⟨H.hashOne, H.hashOne_eq, []⟩

end Hasher

/-- A build-hasher over numbered addresses, to run the model on concrete inputs:
no result depends on which hasher a set has. -/
def Hasher.sample : Hasher Nat UInt64 := ⟨0, fun h a => h * 31 + UInt64.ofNat a, id⟩

end Ziggurat
