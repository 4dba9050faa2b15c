import Ziggurat.KnownConnection

/-! # The crawler's store

`KnownNetwork` holds the nodes map and the connection set, each behind its own
`RwLock`.  Its methods are written here as the code runs them, one lock
section at a time, so that the interleaved system (`Interleaving`) takes
its steps from the same definitions:

* `add_addrs(source, listening_addrs)` inserts a `KnownConnection` for each
  reported address under the connections lock (`insertConnections`), then calls
  `update_nodes`;
* `update_nodes` snapshots the connections and collects both sides of each
  (`prospectNodes`), then under the nodes lock gives every prospect an entry,
  `entry(addr).or_default()` (`upsertNodes`);
* `remove_old_connections` snapshots the connections, collects those last seen
  more than `LAST_SEEN_CUTOFF` seconds ago (`oldConnections`), and, when there
  are any, removes each of them under the connections lock
  (`removeConnections`).

A `HashMap<SocketAddr, KnownNode>` is a finite partial function; its hash is
`SocketAddr`'s own, so it is modelled by its lookups.  `prospect_nodes`, a
`HashSet<SocketAddr>`, is a list without repeats.

Two results of the sequential methods: gossip only adds nodes, with default
records, and never touches an existing record (`nodes_addAddrs_updateNodes`);
and `remove_old_connections` keeps exactly the connections within the cutoff
(`removeOldConnections_elems`).
-/
namespace Ziggurat

/-- The nodes and connections the crawler is aware of. -/
structure KnownNetwork (Addr : Type) [DecidableEq Addr] where
  nodes : Addr → Option KnownNode
  connections : HashSet (KnownConnection Addr)

namespace KnownNetwork
variable {Addr : Type} [LinearOrder Addr]

/-- `KnownNetwork::default()`, its connection set over the build-hasher `H`. -/
def empty {S : Type} (H : Hasher Addr S) : KnownNetwork Addr := ⟨fun _ => none, H.connectionSet⟩

/-! ## Lock sections -/

/-- `nodes.entry(addr).or_default()`. -/
def entryOrDefault (nodes : Addr → Option KnownNode) (addr : Addr) : Addr → Option KnownNode :=
  fun k => if k = addr then some ((nodes addr).getD default) else nodes k

/-- `add_addrs`' connections write section: for each reported address,
`connections.insert(KnownConnection::new(source, *addr))`. -/
def insertConnections (now : Instant) (source : Addr) (listeningAddrs : List Addr)
    (connections : HashSet (KnownConnection Addr)) : HashSet (KnownConnection Addr) :=
  listeningAddrs.foldl (fun conns addr => conns.insert (KnownConnection.new source addr now))
    connections

/-- `update_nodes`' loop over its snapshot: both sides of every connection. -/
def prospectNodes (snapshot : List (KnownConnection Addr)) : List Addr :=
  snapshot.foldl (fun nodes conn => (nodes.insert conn.a).insert conn.b) []

/-- `update_nodes`' nodes write section. -/
def upsertNodes (prospectNodes : List Addr) (nodes : Addr → Option KnownNode) :
    Addr → Option KnownNode :=
  prospectNodes.foldl entryOrDefault nodes

/-- One turn of `remove_old_connections`' first loop, at the instant `now`. -/
def collectOld (now : Instant) (oldConns : HashSet (KnownConnection Addr))
    (conn : KnownConnection Addr) : HashSet (KnownConnection Addr) :=
  if conn.isOld now then oldConns.insert conn else oldConns

/-- `remove_old_connections`' first loop over its snapshot. -/
def oldConnections (now : Instant) (snapshot : List (KnownConnection Addr))
    (oldConns : HashSet (KnownConnection Addr)) : HashSet (KnownConnection Addr) :=
  snapshot.foldl (collectOld now) oldConns

/-- The loop of `remove_old_connections`' write section. -/
def removeConnections (oldConns : List (KnownConnection Addr))
    (connections : HashSet (KnownConnection Addr)) : HashSet (KnownConnection Addr) :=
  oldConns.foldl HashSet.remove connections

/-- `remove_old_connections`' write section, taken only when `old_conns` is
not empty. -/
def dropOldConns (oldConns connections : HashSet (KnownConnection Addr)) :
    HashSet (KnownConnection Addr) :=
  if oldConns.isEmpty then connections else removeConnections oldConns.elems connections

/-! ## The methods, run without other writers -/

def updateNodes (net : KnownNetwork Addr) : KnownNetwork Addr :=
  { net with nodes := upsertNodes (prospectNodes net.connections.elems) net.nodes }

/-- `add_addrs(source, listening_addrs)`, called at the instant `now`. -/
def addAddrs (now : Instant) (source : Addr) (listeningAddrs : List Addr)
    (net : KnownNetwork Addr) : KnownNetwork Addr :=
  updateNodes { net with connections := insertConnections now source listeningAddrs net.connections }

/-- `remove_old_connections`, its clock read at `now`.  `old_conns` is a fresh
`HashSet`; which build-hasher it has changes no lookup (`HashSet.lookup_eq`),
so it is given the connection set's. -/
def removeOldConnections (now : Instant) (net : KnownNetwork Addr) : KnownNetwork Addr :=
  { net with connections :=
      dropOldConns (oldConnections now net.connections.elems net.connections.clear) net.connections }

/-! ## The sections, one lemma each -/

theorem entryOrDefault_apply (nodes : Addr → Option KnownNode) (addr k : Addr) :
    entryOrDefault nodes addr k = if k = addr then some ((nodes k).getD default) else nodes k := by
  unfold entryOrDefault; split <;> simp_all

/-- `update_nodes`' write section gives exactly the prospects an entry, and an
existing entry keeps its record. -/
theorem upsertNodes_apply (prospects : List Addr) (nodes : Addr → Option KnownNode) (k : Addr) :
    upsertNodes prospects nodes k =
      if k ∈ prospects then some ((nodes k).getD default) else nodes k := by
  induction prospects generalizing nodes with
  | nil => simp [upsertNodes]
  | cons p ps ih =>
    rw [upsertNodes, List.foldl_cons, ← upsertNodes, ih, entryOrDefault_apply]
    by_cases hk : k = p <;> by_cases hks : k ∈ ps <;> simp [hk, hks]

theorem isSome_upsertNodes {prospects : List Addr} {nodes : Addr → Option KnownNode} {k : Addr}
    (h : (nodes k).isSome ∨ k ∈ prospects) : (upsertNodes prospects nodes k).isSome := by
  rw [upsertNodes_apply]; split <;> simp_all

private theorem mem_foldl_prospect (snapshot : List (KnownConnection Addr)) (acc : List Addr)
    (k : Addr) :
    k ∈ snapshot.foldl (fun nodes conn => (nodes.insert conn.a).insert conn.b) acc ↔
      k ∈ acc ∨ k ∈ snapshot.flatMap fun c => [c.a, c.b] := by
  induction snapshot generalizing acc with
  | nil => simp
  | cons c cs ih =>
    rw [List.foldl_cons, ih]
    simp only [List.mem_insert_iff, List.flatMap_cons, List.mem_append, List.mem_cons,
      List.mem_singleton, List.not_mem_nil, or_false]
    tauto

theorem mem_prospectNodes (snapshot : List (KnownConnection Addr)) (k : Addr) :
    k ∈ prospectNodes snapshot ↔ ∃ c ∈ snapshot, k = c.a ∨ k = c.b := by
  rw [prospectNodes, mem_foldl_prospect]; simp

theorem subset_insertConnections (now : Instant) (source : Addr) (listeningAddrs : List Addr)
    (connections : HashSet (KnownConnection Addr)) :
    connections.elems ⊆ (insertConnections now source listeningAddrs connections).elems := by
  induction listeningAddrs generalizing connections with
  | nil => exact List.Subset.refl _
  | cons addr addrs ih =>
    exact (HashSet.subset_insert _ _).trans (ih _)

/-- After `add_addrs`' write section, each reported edge is in the set. -/
theorem exists_beq_insertConnections (now : Instant) (source : Addr) {listeningAddrs : List Addr}
    {addr : Addr} (haddr : addr ∈ listeningAddrs) (connections : HashSet (KnownConnection Addr)) :
    ∃ c ∈ (insertConnections now source listeningAddrs connections).elems,
      (c == KnownConnection.new source addr now) = true := by
  induction listeningAddrs generalizing connections with
  | nil => cases haddr
  | cons a addrs ih =>
    rcases List.mem_cons.mp haddr with rfl | haddr
    · obtain ⟨c, hc, hbeq⟩ := HashSet.exists_beq_insert connections (KnownConnection.new source addr now)
      exact ⟨c, subset_insertConnections now source addrs _ hc, hbeq⟩
    · exact ih haddr _

/-- Every element `add_addrs`' write section adds is a reported edge, seen now. -/
theorem mem_insertConnections {now : Instant} {source : Addr} {listeningAddrs : List Addr}
    {connections : HashSet (KnownConnection Addr)} {c : KnownConnection Addr}
    (h : c ∈ (insertConnections now source listeningAddrs connections).elems) :
    c ∈ connections.elems ∨ ∃ addr ∈ listeningAddrs, c = KnownConnection.new source addr now := by
  induction listeningAddrs generalizing connections with
  | nil => exact .inl h
  | cons a addrs ih =>
    rcases ih h with h | ⟨addr, haddr, rfl⟩
    · rcases HashSet.mem_insert h with h | rfl
      · exact .inl h
      · exact .inr ⟨a, List.mem_cons_self _ _, rfl⟩
    · exact .inr ⟨addr, List.mem_cons_of_mem _ haddr, rfl⟩

/-- **A re-report does not refresh an edge.**  `add_addrs`' write section keeps
every element it finds, `last_seen` included, and adds
`KnownConnection::new(source, addr)` only for an edge not yet in the set:
`HashSet::insert` leaves an equal element in place and drops the new one. -/
theorem insertConnections_keeps (now : Instant) (source : Addr) (listeningAddrs : List Addr)
    (connections : HashSet (KnownConnection Addr)) :
    connections.elems ⊆ (insertConnections now source listeningAddrs connections).elems ∧
    ∀ c ∈ (insertConnections now source listeningAddrs connections).elems,
      c ∈ connections.elems ∨ (∃ addr ∈ listeningAddrs, c = KnownConnection.new source addr now) ∧
        ∀ c' ∈ connections.elems, (c' == c) = false := by
  refine ⟨subset_insertConnections now source listeningAddrs connections, ?_⟩
  induction listeningAddrs generalizing connections with
  | nil => exact fun c hc => .inl hc
  | cons a addrs ih =>
    intro c hc
    rcases ih _ c hc with hc | ⟨⟨addr, haddr, rfl⟩, hfresh⟩
    · rw [HashSet.elems_insert] at hc
      split at hc
      · exact .inl hc
      · rename_i hnew
        rcases List.mem_cons.mp hc with rfl | hc
        · refine .inr ⟨⟨a, List.mem_cons_self _ _, rfl⟩, fun c' hc' => ?_⟩
          simpa using fun h => hnew (List.any_eq_true.mpr ⟨c', hc', h⟩)
        · exact .inl hc
    · exact .inr ⟨⟨addr, List.mem_cons_of_mem _ haddr, rfl⟩,
        fun c' hc' => hfresh c' (HashSet.subset_insert _ _ hc')⟩

theorem Distinct.insertConnections {connections : HashSet (KnownConnection Addr)}
    (h : connections.Distinct) (now : Instant) (source : Addr) (listeningAddrs : List Addr) :
    (insertConnections now source listeningAddrs connections).Distinct := by
  induction listeningAddrs generalizing connections with
  | nil => exact h
  | cons a addrs ih => exact ih (h.insert _)

theorem Distinct.removeConnections {connections : HashSet (KnownConnection Addr)}
    (h : connections.Distinct) (oldConns : List (KnownConnection Addr)) :
    (removeConnections oldConns connections).Distinct := by
  induction oldConns generalizing connections with
  | nil => exact h
  | cons o os ih => exact ih (h.remove o)

theorem removeConnections_sublist (oldConns : List (KnownConnection Addr))
    (connections : HashSet (KnownConnection Addr)) :
    (removeConnections oldConns connections).elems.Sublist connections.elems := by
  induction oldConns generalizing connections with
  | nil => exact List.Sublist.refl _
  | cons o os ih => exact (ih _).trans (connections.remove_sublist o)

/-- The write section keeps every element equal to none of the removed ones. -/
theorem mem_removeConnections {oldConns : List (KnownConnection Addr)}
    {connections : HashSet (KnownConnection Addr)} {c : KnownConnection Addr}
    (hc : c ∈ connections.elems) (h : ∀ o ∈ oldConns, (c == o) = false) :
    c ∈ (removeConnections oldConns connections).elems := by
  induction oldConns generalizing connections with
  | nil => exact hc
  | cons o os ih =>
    exact ih (HashSet.mem_remove_of_beq_false hc (h o (List.mem_cons_self _ _)))
      fun o' ho' => h o' (List.mem_cons_of_mem _ ho')

theorem dropOldConns_sublist (oldConns connections : HashSet (KnownConnection Addr)) :
    (dropOldConns oldConns connections).elems.Sublist connections.elems := by
  unfold dropOldConns; split
  · exact List.Sublist.refl _
  · exact removeConnections_sublist _ _

theorem Distinct.dropOldConns {connections : HashSet (KnownConnection Addr)}
    (h : connections.Distinct) (oldConns : HashSet (KnownConnection Addr)) :
    (dropOldConns oldConns connections).Distinct :=
  List.Pairwise.sublist (dropOldConns_sublist _ _) h

/-- The write section keeps every element equal to none of the collected ones. -/
theorem mem_dropOldConns {oldConns connections : HashSet (KnownConnection Addr)}
    {c : KnownConnection Addr} (hc : c ∈ connections.elems)
    (h : ∀ o ∈ oldConns.elems, (c == o) = false) : c ∈ (dropOldConns oldConns connections).elems := by
  unfold dropOldConns; split
  · exact hc
  · exact mem_removeConnections hc h

/-- One turn of the first loop collects the connection it looks at, when old. -/
theorem mem_collectOld {now : Instant} {oldConns : HashSet (KnownConnection Addr)}
    {conn o : KnownConnection Addr} (h : o ∈ (collectOld now oldConns conn).elems) :
    o ∈ oldConns.elems ∨ (o = conn ∧ conn.isOld now = true) := by
  unfold collectOld at h
  split at h
  · exact (HashSet.mem_insert h).imp_right fun ho => ⟨ho, ‹_›⟩
  · exact .inl h

theorem mem_oldConnections {now : Instant} {snapshot : List (KnownConnection Addr)}
    {oldConns : HashSet (KnownConnection Addr)} {c : KnownConnection Addr}
    (h : c ∈ (oldConnections now snapshot oldConns).elems) :
    c ∈ oldConns.elems ∨ (c ∈ snapshot ∧ c.isOld now = true) := by
  induction snapshot generalizing oldConns with
  | nil => exact .inl h
  | cons x xs ih =>
    rcases ih h with h | ⟨hxs, hold⟩
    · exact (mem_collectOld h).imp_right fun ⟨hx, hold⟩ => ⟨hx ▸ List.mem_cons_self _ _, hx ▸ hold⟩
    · exact .inr ⟨List.mem_cons_of_mem _ hxs, hold⟩

theorem subset_oldConnections (now : Instant) (snapshot : List (KnownConnection Addr))
    (oldConns : HashSet (KnownConnection Addr)) :
    oldConns.elems ⊆ (oldConnections now snapshot oldConns).elems := by
  induction snapshot generalizing oldConns with
  | nil => exact List.Subset.refl _
  | cons x xs ih =>
    refine List.Subset.trans ?_ (ih _)
    unfold collectOld; split
    · exact HashSet.subset_insert _ _
    · exact List.Subset.refl _

theorem exists_beq_oldConnections {now : Instant} {snapshot : List (KnownConnection Addr)}
    {c : KnownConnection Addr} (hc : c ∈ snapshot) (hold : c.isOld now = true)
    (oldConns : HashSet (KnownConnection Addr)) :
    ∃ o ∈ (oldConnections now snapshot oldConns).elems, (o == c) = true := by
  induction snapshot generalizing oldConns with
  | nil => cases hc
  | cons x xs ih =>
    rcases List.mem_cons.mp hc with rfl | hc
    · have hstep : collectOld now oldConns c = oldConns.insert c := if_pos hold
      obtain ⟨o, ho, hbeq⟩ := HashSet.exists_beq_insert oldConns c
      exact ⟨o, subset_oldConnections now xs _ (hstep ▸ ho), hbeq⟩
    · exact ih hc _

/-! ## Gossip only adds nodes -/

/-- `net'` keeps every node record of `net`, and gives the default record to
exactly the sides of its connections that were not keys. -/
def NodesUpserted (net net' : KnownNetwork Addr) : Prop :=
  ∀ k, net'.nodes k =
    match net.nodes k with
    | some node => some node
    | none => if ∃ c ∈ net'.connections.elems, k = c.a ∨ k = c.b then some default else none

theorem nodesUpserted_updateNodes (net : KnownNetwork Addr) : NodesUpserted net net.updateNodes := by
  intro k
  dsimp only [updateNodes]
  rw [upsertNodes_apply]
  cases net.nodes k <;> simp [mem_prospectNodes]

/-- **Gossip never resets a node.** `add_addrs` and `update_nodes` change the
nodes map only by adding `KnownNode::default()` for the sides of connections
that were not yet keys; every key keeps exactly its record, failure count and
handshake metrics included. -/
theorem nodes_addAddrs_updateNodes (now : Instant) (source : Addr) (listeningAddrs : List Addr)
    (net : KnownNetwork Addr) :
    NodesUpserted net (net.addAddrs now source listeningAddrs) ∧ NodesUpserted net net.updateNodes :=
  ⟨nodesUpserted_updateNodes _, nodesUpserted_updateNodes net⟩

/-! ## Pruning keeps exactly the fresh connections -/

/-- In a set with one element per pair, the snapshot's old elements are found
by exactly the old elements. -/
theorem any_oldConnections {now : Instant} {connections : HashSet (KnownConnection Addr)}
    (h : connections.Distinct) {c : KnownConnection Addr} (hc : c ∈ connections.elems) :
    (oldConnections now connections.elems connections.clear).elems.any (c == ·) = c.isOld now := by
  cases hold : c.isOld now
  · rw [List.any_eq_false]
    intro o ho hco
    rcases mem_oldConnections ho with ho | ⟨ho, hoold⟩
    · cases ho
    · rw [h.eq_of_beq hc ho hco] at hold
      exact Bool.false_ne_true (hold.symm.trans hoold)
  · obtain ⟨o, ho, hoc⟩ := exists_beq_oldConnections hc hold connections.clear
    exact List.any_eq_true.mpr ⟨o, ho, BEq.symm hoc⟩

@[simp] theorem removeOldConnections_nodes (now : Instant) (net : KnownNetwork Addr) :
    (net.removeOldConnections now).nodes = net.nodes := rfl

/-- On a set with one element per class, pruning keeps exactly the fresh
connections. -/
theorem elems_removeOldConnections (now : Instant) {net : KnownNetwork Addr}
    (hd : net.connections.Distinct) :
    (net.removeOldConnections now).connections.elems =
      net.connections.elems.filter (fun c => decide (c.elapsedSecs now ≤ lastSeenCutoff)) := by
  have hkeep : ∀ c ∈ net.connections.elems,
      (!(oldConnections now net.connections.elems net.connections.clear).elems.any (c == ·)) =
        decide (c.elapsedSecs now ≤ lastSeenCutoff) := by
    intro c hc
    rw [any_oldConnections hd hc, KnownConnection.isOld_eq_not, Bool.not_not]
  dsimp only [removeOldConnections, dropOldConns]
  split
  · rename_i hempty
    have hnil : (oldConnections now net.connections.elems net.connections.clear).elems = [] := by
      simpa [HashSet.isEmpty] using hempty
    refine (List.filter_eq_self.mpr fun c hc => ?_).symm
    rw [← hkeep c hc, hnil]
    rfl
  · exact (hd.elems_foldl_remove _).trans (List.filter_congr hkeep)

/-- **Pruning keeps exactly the connections within the cutoff.**  On a set with
at most one element per unordered pair, `remove_old_connections` leaves the
connections whose `last_seen.elapsed().as_secs()` is at most
`LAST_SEEN_CUTOFF`, each unchanged, `last_seen` included, and removes all the
others, although its second loop removes by `==`, which ignores `last_seen`. -/
theorem removeOldConnections_elems (now : Instant) (net : KnownNetwork Addr)
    (h : (net.connections.elems.map KnownConnection.endpoints).Nodup) :
    (net.removeOldConnections now).connections.elems =
      net.connections.elems.filter (fun c => decide (c.elapsedSecs now ≤ lastSeenCutoff)) ∧
    (net.removeOldConnections now).nodes = net.nodes :=
  ⟨elems_removeOldConnections now ((KnownConnection.distinct_iff_nodup_endpoints _).mpr h),
    removeOldConnections_nodes now net⟩

/-- Edges reported at 0 s and at 100 s, pruned at 650 s: the first is older
than the cutoff and goes, the second, seen at 100 s, is all that is left. -/
theorem removeOldConnections_elems_two_reports :
    ((addAddrs 100000000000 0 [2] (addAddrs 0 0 [1] (empty Hasher.sample))).connections.elems.map
        KnownConnection.endpoints).Nodup ∧
    (removeOldConnections 650000000000
        (addAddrs 100000000000 0 [2] (addAddrs 0 0 [1] (empty Hasher.sample)))).connections.elems =
      [KnownConnection.new 0 2 100000000000] ∧
    (removeOldConnections 650000000000
        (addAddrs 100000000000 0 [2] (addAddrs 0 0 [1] (empty Hasher.sample)))).nodes =
      (addAddrs 100000000000 0 [2] (addAddrs 0 0 [1] (empty Hasher.sample))).nodes :=
  have h := removeOldConnections_elems 650000000000
    (addAddrs 100000000000 0 [2] (addAddrs 0 0 [1] (empty Hasher.sample))) (by decide)
  ⟨by decide, h.1.trans rfl, h.2⟩

end KnownNetwork

end Ziggurat
