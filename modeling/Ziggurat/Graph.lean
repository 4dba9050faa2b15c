import Ziggurat.Interleaving

/-! # The store as a graph

Read as a graph, the crawler's connection set gives each unordered pair the
`last_seen` of the element joining it.  `add_addrs` inserts with
`HashSet::insert`, which keeps an element already in the set, so that time is
when the edge was first reported since the set last lost it, not its latest
report; `remove_old_connections` drops the pairs whose time is more than
`LAST_SEEN_CUTOFF` seconds past.  `Graph` is that reading as an abstract state,
with its two operations: `report` adds the reported edges it does not know yet
and keeps the time of those it knows, and `prune` forgets the old ones.

A connection set stands for the graph that gives each unordered pair the
`last_seen` of the element joining it (`lastSeenOf`).  On that reading
`add_addrs`' write section is `report`, on every set
(`lastSeenOf_insertConnections`), and on a set with one element per pair
`remove_old_connections` is `prune` (`lastSeenOf_removeOldConnections`).  With
the refinement of the interleaved store by the sequential methods and the
invariant `Valid`, each call run alone from a reachable state acts on the
graph as its abstract operation (`runAlone_graph`).
-/
namespace Ziggurat

/-- The network as reported: for each unordered pair of addresses, when the
edge between them was first reported, if it is known. -/
def Graph (Addr : Type) := Sym2 Addr → Option Instant

namespace Graph
variable {Addr : Type} [DecidableEq Addr]

/-- `source` reports its peers `addrs` at `now`: an edge to a reported peer
that the graph does not know is added, seen now; a known edge keeps its time. -/
def report (now : Instant) (source : Addr) (addrs : List Addr) (g : Graph Addr) : Graph Addr :=
  fun e =>
    match g e with
    | some t => some t
    | none => if ∃ p ∈ addrs, e = s(source, p) then some now else none

/-- At `now`, forget every edge first reported more than `LAST_SEEN_CUTOFF`
whole seconds before. -/
def prune (now : Instant) (g : Graph Addr) : Graph Addr :=
  fun e => (g e).filter fun t => decide ((now - t) / 1000000000 ≤ lastSeenCutoff)

@[simp] theorem report_nil (now : Instant) (source : Addr) (g : Graph Addr) :
    report now source [] g = g := by
  funext e
  unfold report
  cases g e <;> simp

/-- Reports of one source at one instant can be made one peer at a time. -/
theorem report_cons (now : Instant) (source p : Addr) (addrs : List Addr) (g : Graph Addr) :
    report now source (p :: addrs) g = report now source addrs (report now source [p] g) := by
  funext e
  unfold report
  cases g e with
  | some t => rfl
  | none => by_cases he : e = s(source, p) <;> simp [he]

end Graph

namespace KnownNetwork
open Graph
variable {Addr : Type} [LinearOrder Addr]

/-- The graph a list of connections stands for: each pair gets the
`last_seen` of the first element joining it. -/
def lastSeenOf (conns : List (KnownConnection Addr)) : Graph Addr :=
  fun e => (conns.find? fun c => c.endpoints = e).map KnownConnection.lastSeen

theorem lastSeenOf_cons (c : KnownConnection Addr) (conns : List (KnownConnection Addr))
    (e : Sym2 Addr) :
    lastSeenOf (c :: conns) e = if c.endpoints = e then some c.lastSeen else lastSeenOf conns e := by
  by_cases he : c.endpoints = e <;> simp [lastSeenOf, he]

theorem lastSeenOf_eq_none {conns : List (KnownConnection Addr)} {e : Sym2 Addr} :
    lastSeenOf conns e = none ↔ ∀ c ∈ conns, c.endpoints ≠ e := by
  simp [lastSeenOf]

/-- On a list with one element per pair, keeping the elements whose
`last_seen` passes a test keeps the graph's edges whose time passes it. -/
theorem lastSeenOf_filter {conns : List (KnownConnection Addr)}
    (h : (conns.map KnownConnection.endpoints).Nodup) (keep : Instant → Bool) (e : Sym2 Addr) :
    lastSeenOf (conns.filter fun c => keep c.lastSeen) e = (lastSeenOf conns e).filter keep := by
  induction conns with
  | nil => rfl
  | cons c conns ih =>
    rw [List.map_cons, List.nodup_cons] at h
    rw [lastSeenOf_cons, List.filter_cons]
    by_cases he : c.endpoints = e
    · -- no other element joins the pair of `c`
      have hnone : lastSeenOf (conns.filter fun c => keep c.lastSeen) e = none :=
        lastSeenOf_eq_none.mpr fun c' hc' hce =>
          h.1 (List.mem_map.mpr ⟨c', (List.mem_filter.mp hc').1, hce.trans he.symm⟩)
      cases hk : keep c.lastSeen <;> simp [lastSeenOf_cons, Option.filter_some, he, hk, hnone]
    · split <;> simp only [lastSeenOf_cons, he, if_false, ih h.2]

/-- `connections.insert(KnownConnection::new(source, p))` at `now` is a report
of the one peer `p`. -/
theorem lastSeenOf_insert_new (s : HashSet (KnownConnection Addr)) (now : Instant)
    (source p : Addr) :
    lastSeenOf (s.insert (KnownConnection.new source p now)).elems =
      report now source [p] (lastSeenOf s.elems) := by
  funext e
  rw [HashSet.elems_insert]
  unfold report
  split
  · -- the edge is in the set already: nothing changes
    rename_i hany
    obtain ⟨y, hy, hyx⟩ := List.any_eq_true.mp hany
    rw [KnownConnection.beq_iff_endpoints, KnownConnection.new_endpoints] at hyx
    cases hg : lastSeenOf s.elems e with
    | some t => rfl
    | none =>
      have hne : e ≠ s(source, p) := fun he => lastSeenOf_eq_none.mp hg y hy (hyx.trans he.symm)
      simp [hne]
  · -- the edge is new: it is added, seen now
    rename_i hany
    have hfresh : ∀ c ∈ s.elems, c.endpoints ≠ s(source, p) := fun c hc hce =>
      hany (List.any_eq_true.mpr ⟨c, hc, (KnownConnection.beq_iff_endpoints _ _).mpr hce⟩)
    rw [lastSeenOf_cons, KnownConnection.new_endpoints]
    by_cases he : s(source, p) = e
    · subst he
      simp [lastSeenOf_eq_none.mpr hfresh]
    · cases lastSeenOf s.elems e <;> simp [he, Ne.symm he]

/-- **`add_addrs`' write section is a report**, on every connection set. -/
theorem lastSeenOf_insertConnections (now : Instant) (source : Addr) (addrs : List Addr)
    (connections : HashSet (KnownConnection Addr)) :
    lastSeenOf (insertConnections now source addrs connections).elems =
      report now source addrs (lastSeenOf connections.elems) := by
  induction addrs generalizing connections with
  | nil => exact (report_nil now source _).symm
  | cons p addrs ih =>
    rw [insertConnections, List.foldl_cons, ← insertConnections, ih, lastSeenOf_insert_new,
      ← report_cons]

/-- **`remove_old_connections` is a prune**, on a set with one element per pair. -/
theorem lastSeenOf_removeOldConnections (now : Instant) {net : KnownNetwork Addr}
    (hd : net.connections.Distinct) :
    lastSeenOf (net.removeOldConnections now).connections.elems =
      prune now (lastSeenOf net.connections.elems) := by
  funext e
  rw [elems_removeOldConnections now hd]
  exact lastSeenOf_filter ((KnownConnection.distinct_iff_nodup_endpoints _).mp hd)
    (fun t => decide ((now - t) / 1000000000 ≤ lastSeenCutoff)) e

end KnownNetwork

namespace Interleaving
open KnownNetwork Graph
variable {Addr : Type} [LinearOrder Addr]

/-- **The store refines the graph.**  From every state some interleaving of
calls reaches, each call run alone acts on the graph the connection set stands
for as its abstract operation: `add_addrs(source, addrs)` reports `addrs` at
the clock's time, `update_nodes` leaves the graph as it is, and
`remove_old_connections` forgets exactly the edges first reported more than
`LAST_SEEN_CUTOFF` seconds before. -/
theorem runAlone_graph {σ : State Addr} (h : Reachable σ) (source : Addr) (addrs : List Addr) :
    lastSeenOf (runAlone σ (.addAddrs source addrs) 3).network.connections.elems =
      report σ.clock source addrs (lastSeenOf σ.network.connections.elems) ∧
    lastSeenOf (runAlone σ .updateNodes 2).network.connections.elems =
      lastSeenOf σ.network.connections.elems ∧
    lastSeenOf (runAlone σ .removeOldConnections
        (σ.network.connections.elems.length + 2)).network.connections.elems =
      prune σ.clock (lastSeenOf σ.network.connections.elems) := by
  refine ⟨?_, ?_, ?_⟩
  · rw [(runAlone_addAddrs σ source addrs).1]
    exact lastSeenOf_insertConnections _ _ _ _
  · rw [(runAlone_updateNodes σ).1]
    rfl
  · rw [(runAlone_removeOldConnections σ).1]
    exact lastSeenOf_removeOldConnections σ.clock (reachable_valid h).distinct

/-- The edge `(0, 1)` reported at 0 s, and the clock moved on to 700 s. -/
def knownEdge : List (Event Nat) :=
  [.call (.addAddrs 0 [1]), .run 0, .run 0, .run 0, .tick 700000000000]

/-- From a store that knows `(0, 1)` since 0 s, at 700 s: a report of `[1, 2]`
keeps that edge's time and adds `(0, 2)`, seen at 700 s; a prune forgets
`(0, 1)`. -/
theorem runAlone_graph_known_edge :
    (lastSeenOf (runAlone (run (init Hasher.sample 0) knownEdge) (.addAddrs 0 [1, 2])
          3).network.connections.elems =
        report 700000000000 0 [1, 2]
          (lastSeenOf (run (init Hasher.sample 0) knownEdge).network.connections.elems) ∧
      lastSeenOf (runAlone (run (init Hasher.sample 0) knownEdge) .updateNodes
          2).network.connections.elems =
        lastSeenOf (run (init Hasher.sample 0) knownEdge).network.connections.elems ∧
      lastSeenOf (runAlone (run (init Hasher.sample 0) knownEdge) .removeOldConnections
          3).network.connections.elems =
        prune 700000000000
          (lastSeenOf (run (init Hasher.sample 0) knownEdge).network.connections.elems)) ∧
    report 700000000000 0 [1, 2]
        (lastSeenOf (run (init Hasher.sample 0) knownEdge).network.connections.elems) s(0, 1) =
      some 0 ∧
    report 700000000000 0 [1, 2]
        (lastSeenOf (run (init Hasher.sample 0) knownEdge).network.connections.elems) s(0, 2) =
      some 700000000000 ∧
    prune 700000000000
        (lastSeenOf (run (init Hasher.sample 0) knownEdge).network.connections.elems) s(0, 1) =
      none :=
  ⟨runAlone_graph ((Reachable.init Hasher.sample 0).run knownEdge) 0 [1, 2], by decide, by decide,
    by decide⟩

end Interleaving
end Ziggurat
