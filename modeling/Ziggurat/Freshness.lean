import Ziggurat.Interleaving

/-! # How long an inserted connection stays

`add_addrs` inserts `KnownConnection::new(source, p)` with `last_seen` read from
the clock, and `remove_old_connections` takes out what its scan found older
than `LAST_SEEN_CUTOFF`.  Together they do not keep an edge for the cutoff
after its latest report, for two reasons (`reported_edge_pruned_within_cutoff`).
`HashSet::insert` keeps the
element already in the set, so a second report leaves `last_seen` at the first
one and a prune within the cutoff of the second removes the edge.  And the
prune's write section removes by `==`, which ignores `last_seen`: a prune whose
scan collected an old element removes whatever element equal to it stands in
the set when the prune takes the lock, also one a concurrent `add_addrs`
inserted a moment before.

What does hold: when an `add_addrs` insert adds the edge, and no prune in
progress holds an element equal to it, an element equal to the edge and seen
no earlier stays in the set for as long as the clock is within the cutoff of
the insert (`inserted_connection_stays`).  The argument is an invariant of
every step taken within that window (`Fresh`): elements equal to the edge were
seen no earlier than it, so no scan finds them old, and no prune has collected
one.
-/
namespace Ziggurat
namespace Interleaving
open KnownNetwork

variable {Addr : Type} [LinearOrder Addr]

/-! ## The clock -/

/-- Only a tick moves the clock, and only forward. -/
theorem clock_le_step (σ : State Addr) (e : Event Addr) : σ.clock ≤ (step σ e).clock := by
  cases e with
  | call c => exact le_rfl
  | run i => simp only [step]; split <;> exact le_rfl
  | tick d => exact Nat.le_add_right _ _

theorem clock_le_run (σ : State Addr) (evs : List (Event Addr)) : σ.clock ≤ (run σ evs).clock := by
  induction evs generalizing σ with
  | nil => exact le_rfl
  | cons e evs ih => exact (clock_le_step σ e).trans (ih _)

/-! ## One section at a time -/

/-- Every element of `conns` equal to `x` was seen no earlier than `x`. -/
def SeenSince (x : KnownConnection Addr) (conns : List (KnownConnection Addr)) : Prop :=
  ∀ c ∈ conns, (c == x) = true → x.lastSeen ≤ c.lastSeen

/-- `conns` holds an element equal to `x`, seen no earlier than `x`. -/
def Present (x : KnownConnection Addr) (conns : List (KnownConnection Addr)) : Prop :=
  ∃ c ∈ conns, (c == x) = true ∧ x.lastSeen ≤ c.lastSeen

/-- A call spares `x` when it is no prune that will find an element equal to `x`
old: what its scan has still to look at was seen no earlier than `x`, and it
has collected nothing equal to `x`. -/
def Task.Spares (x : KnownConnection Addr) : Task Addr → Prop
  | .scanConnections pending oldConns =>
    SeenSince x pending ∧ ∀ o ∈ oldConns.elems, (o == x) = false
  | _ => True

section Window
variable {x : KnownConnection Addr} {now : Instant}
  (hwin : (now - x.lastSeen) / 1000000000 ≤ lastSeenCutoff)
include hwin

omit [LinearOrder Addr] in
/-- Within the cutoff of `x`, an element seen no earlier than `x` is not old. -/
theorem isOld_eq_false {c : KnownConnection Addr} (hc : x.lastSeen ≤ c.lastSeen) :
    c.isOld now = false := by
  rw [KnownConnection.isOld, decide_eq_false_iff_not, KnownConnection.elapsedSecs, not_lt]
  exact (Nat.div_le_div_right (Nat.sub_le_sub_left hc now)).trans hwin

theorem Task.spares_advance {net : KnownNetwork Addr} (hseen : SeenSince x net.connections.elems)
    {t t' : Task Addr} (ht : t.Spares x) (h : (t.advance now net).2 = some t') : t'.Spares x := by
  cases t with
  | removeOldConnections =>
    cases h
    exact ⟨hseen, fun o ho => absurd ho (List.not_mem_nil o)⟩
  | scanConnections pending oldConns =>
    cases pending with
    | nil => cases h
    | cons c pending =>
      cases h
      refine ⟨fun c' hc' => ht.1 c' (List.mem_cons_of_mem _ hc'), fun o ho => ?_⟩
      rcases mem_collectOld ho with ho | ⟨rfl, hold⟩
      · exact ht.2 o ho
      · -- an element equal to `x` is seen no earlier than `x`, so not old
        refine Bool.eq_false_iff.mpr fun hox => ?_
        rw [isOld_eq_false hwin (ht.1 o (List.mem_cons_self _ _) hox)] at hold
        exact Bool.false_ne_true hold
  | _ => cases h <;> trivial

end Window

theorem seenSince_advance {x : KnownConnection Addr} {now : Instant} {net : KnownNetwork Addr}
    (hseen : SeenSince x net.connections.elems) (hnow : x.lastSeen ≤ now) (t : Task Addr) :
    SeenSince x (t.advance now net).1.connections.elems := by
  cases t with
  | addAddrs source addrs =>
    intro c hc hcx
    rcases mem_insertConnections hc with hc | ⟨p, -, rfl⟩
    · exact hseen c hc hcx
    · exact hnow
  | scanConnections pending oldConns =>
    cases pending with
    | nil => exact fun c hc => hseen c ((dropOldConns_sublist _ _).subset hc)
    | cons => exact hseen
  | _ => exact hseen

theorem present_advance {x : KnownConnection Addr} {now : Instant} {net : KnownNetwork Addr}
    (hp : Present x net.connections.elems) {t : Task Addr} (ht : t.Spares x) :
    Present x (t.advance now net).1.connections.elems := by
  obtain ⟨c, hc, hcx, hseen⟩ := hp
  cases t with
  | addAddrs source addrs => exact ⟨c, subset_insertConnections _ _ _ _ hc, hcx, hseen⟩
  | scanConnections pending oldConns =>
    cases pending with
    | nil =>
      -- no collected element is equal to `x`, so none is equal to `c`
      exact ⟨c, mem_dropOldConns hc fun o ho => BEq.neq_of_beq_of_neq hcx (BEq.symm_false (ht.2 o ho)),
        hcx, hseen⟩
    | cons => exact ⟨c, hc, hcx, hseen⟩
  | _ => exact ⟨c, hc, hcx, hseen⟩

/-! ## Every step within the cutoff -/

/-- The edge `x` is in the set and will stay there: an element equal to it and
seen no earlier is present, every element equal to it was seen no earlier, and
every call in progress spares it. -/
structure Fresh (x : KnownConnection Addr) (σ : State Addr) : Prop where
  present : Present x σ.network.connections.elems
  seen : SeenSince x σ.network.connections.elems
  spared : ∀ j t, σ.tasks j = some t → t.Spares x
  clock : x.lastSeen ≤ σ.clock

theorem Fresh.step {x : KnownConnection Addr} {σ : State Addr} (h : Fresh x σ)
    (hwin : (σ.clock - x.lastSeen) / 1000000000 ≤ lastSeenCutoff) (e : Event Addr) :
    Fresh x (step σ e) := by
  rcases step_cases σ e with ⟨c, he⟩ | ⟨d, he⟩ | ⟨i, t, hi, he⟩ | he <;> rw [he]
  · exact ⟨h.present, h.seen, forall_tasks_start h.spared (by cases c <;> trivial), h.clock⟩
  · exact ⟨h.present, h.seen, h.spared, h.clock.trans (Nat.le_add_right _ _)⟩
  · exact ⟨present_advance h.present (h.spared i t hi), seenSince_advance h.seen h.clock t,
      forall_tasks_runTask h.spared fun _ => Task.spares_advance hwin h.seen (h.spared i t hi),
      h.clock⟩
  · exact h

theorem Fresh.run {x : KnownConnection Addr} {σ : State Addr} (h : Fresh x σ)
    (evs : List (Event Addr))
    (hwin : ((run σ evs).clock - x.lastSeen) / 1000000000 ≤ lastSeenCutoff) :
    Fresh x (run σ evs) := by
  induction evs generalizing σ with
  | nil => exact h
  | cons e evs ih =>
    rw [run_cons] at hwin ⊢
    have hle : σ.clock ≤ (Interleaving.run (Interleaving.step σ e) evs).clock :=
      (clock_le_step σ e).trans (clock_le_run _ _)
    exact ih (h.step ((Nat.div_le_div_right (Nat.sub_le_sub_right hle _)).trans hwin) e) hwin

/-! ## What a prune removes -/

/-- A prune in progress has collected only elements old at `now`. -/
def Task.CollectedOld (now : Instant) : Task Addr → Prop
  | .scanConnections _ oldConns => ∀ o ∈ oldConns.elems, o.isOld now = true
  | _ => True

/-- What every prune in progress has collected is old. -/
def CollectedOld (σ : State Addr) : Prop := ∀ j t, σ.tasks j = some t → t.CollectedOld σ.clock

theorem Task.CollectedOld.mono {now now' : Instant} (h : now ≤ now') {t : Task Addr}
    (ht : t.CollectedOld now) : t.CollectedOld now' := by
  cases t with
  | scanConnections pending oldConns => exact fun o ho => KnownConnection.isOld_mono h (ht o ho)
  | _ => trivial

theorem Task.collectedOld_advance {now : Instant} {net : KnownNetwork Addr} {t t' : Task Addr}
    (ht : t.CollectedOld now) (h : (t.advance now net).2 = some t') : t'.CollectedOld now := by
  cases t with
  | removeOldConnections =>
    cases h
    exact fun o ho => absurd ho (List.not_mem_nil o)
  | scanConnections pending oldConns =>
    cases pending with
    | nil => cases h
    | cons c pending =>
      cases h
      intro o ho
      rcases mem_collectOld ho with ho | ⟨rfl, hold⟩
      · exact ht o ho
      · exact hold
  | _ => cases h <;> trivial

theorem CollectedOld.step {σ : State Addr} (h : CollectedOld σ) (e : Event Addr) :
    CollectedOld (step σ e) := by
  rcases step_cases σ e with ⟨c, he⟩ | ⟨d, he⟩ | ⟨i, t, hi, he⟩ | he <;> rw [he]
  · exact forall_tasks_start h (by cases c <;> trivial)
  · exact fun j t hj => (h j t hj).mono (Nat.le_add_right _ _)
  · exact forall_tasks_runTask h fun _ => Task.collectedOld_advance (h i t hi)
  · exact h

theorem reachable_collectedOld {σ : State Addr} (h : Reachable σ) : CollectedOld σ := by
  induction h with
  | init H clock => exact fun _ _ hj => Option.noConfusion hj
  | step e _ ih => exact ih.step e

/-- **A connection leaves the set only through a prune that found it old.**  In
every reachable state, the one step that removes a connection is the write
section of a `remove_old_connections` whose `old_conns` holds an element equal
to it, and every element of `old_conns` is older than the cutoff at that
instant. -/
theorem connection_removed_only_if_old {σ : State Addr} (h : Reachable σ) (e : Event Addr)
    {c : KnownConnection Addr} (hc : c ∈ σ.network.connections.elems)
    (hout : c ∉ (step σ e).network.connections.elems) :
    ∃ j oldConns, e = .run j ∧ σ.tasks j = some (.scanConnections [] oldConns) ∧
      (∃ o ∈ oldConns.elems, (c == o) = true) ∧ ∀ o ∈ oldConns.elems, o.isOld σ.clock = true := by
  obtain ⟨j, oldConns, rfl, hj, o, ho, hco⟩ := (mem_step_connections σ e hc).resolve_left hout
  exact ⟨j, oldConns, rfl, hj, ⟨o, ho, hco⟩, reachable_collectedOld h j _ hj⟩

/-- An edge reported at 0 s, found old by a prune at 601 s and removed. -/
theorem connection_removed_only_if_old_after_cutoff :
    ∃ j oldConns, (Event.run 1 : Event Nat) = .run j ∧
      (run (init Hasher.sample 0) [.call (.addAddrs 0 [1]), .run 0, .tick 601000000000,
        .call .removeOldConnections, .run 1, .run 1]).tasks j =
        some (.scanConnections [] oldConns) ∧
      (∃ o ∈ oldConns.elems, (KnownConnection.new 0 1 0 == o) = true) ∧
      ∀ o ∈ oldConns.elems, o.isOld 601000000000 = true :=
  connection_removed_only_if_old ((Reachable.init Hasher.sample 0).run _) (.run 1)
    (List.mem_singleton_self _) (List.not_mem_nil _)

/-! ## Where the cutoff is not kept -/

/-- An edge reported at 0 s; at 500 s a second report of it is called. -/
def reReport : List (Event Nat) :=
  [.call (.addAddrs 0 [1]), .run 0, .run 0, .run 0, .tick 500000000000, .call (.addAddrs 0 [1])]

/-- An edge reported at 0 s; at 601 s two prunes start, and both collect it;
the second removes it, and a new report of the edge is called. -/
def staleScan : List (Event Nat) :=
  [.call (.addAddrs 0 [1]), .run 0, .run 0, .run 0, .tick 601000000000,
    .call .removeOldConnections, .run 1, .run 1,
    .call .removeOldConnections, .run 2, .run 2, .run 2,
    .call (.addAddrs 0 [1])]

/-- **An edge can be pruned within the cutoff of its latest report.**  Run one
at a time: the report at 500 s finds the edge in the set, `HashSet::insert`
keeps the element seen at 0 s, and a prune at 601 s, 101 s after that report,
finds it old and removes it.  Interleaved: after `staleScan` the new report
inserts the edge afresh at 601 s, and the first prune's write section, which
removes by `==`, takes it out with no time passed. -/
theorem reported_edge_pruned_within_cutoff :
    (run (init Hasher.sample 0) reReport).tasks 1 = some (.addAddrs 0 [1]) ∧
      (run (init Hasher.sample 0) reReport).clock = 500000000000 ∧
      (run (init Hasher.sample 0) (reReport ++ [.run 1])).network.connections.elems =
        [KnownConnection.new 0 1 0] ∧
      (run (init Hasher.sample 0) (reReport ++ [.run 1, .run 1, .run 1, .tick 101000000000,
        .call .removeOldConnections, .run 2, .run 2, .run 2])).network.connections.elems = [] ∧
      (run (init Hasher.sample 0) staleScan).tasks 3 = some (.addAddrs 0 [1]) ∧
      (run (init Hasher.sample 0) staleScan).clock = 601000000000 ∧
      (run (init Hasher.sample 0) (staleScan ++ [.run 3])).network.connections.elems =
        [KnownConnection.new 0 1 601000000000] ∧
      (run (init Hasher.sample 0) (staleScan ++ [.run 3, .run 1])).network.connections.elems = [] :=
  ⟨rfl, rfl, rfl, rfl, rfl, rfl, rfl, rfl⟩

/-! ## The edge an insert adds -/

/-- The insert that adds the edge `(source, p)` starts it off fresh. -/
theorem fresh_insert (σ : State Addr) {i : Nat} {source p : Addr} {addrs : List Addr}
    (hi : σ.tasks i = some (.addAddrs source addrs)) (hp : p ∈ addrs)
    (hnew : ∀ c ∈ σ.network.connections.elems, (c == KnownConnection.new source p σ.clock) = false)
    (hprune : ∀ j pending oldConns, σ.tasks j = some (.scanConnections pending oldConns) →
      ∀ c ∈ pending ++ oldConns.elems, (c == KnownConnection.new source p σ.clock) = false) :
    Fresh (KnownConnection.new source p σ.clock) (step σ (.run i)) := by
  have hseen : SeenSince (KnownConnection.new source p σ.clock)
      (insertConnections σ.clock source addrs σ.network.connections).elems := by
    intro c hc hcx
    rcases mem_insertConnections hc with hc | ⟨q, -, rfl⟩
    · rw [hnew c hc] at hcx; cases hcx
    · exact le_rfl
  have hspared : ∀ j u, σ.tasks j = some u → u.Spares (KnownConnection.new source p σ.clock) := by
    intro j u hj
    cases u with
    | scanConnections pending oldConns =>
      have hnone := hprune j pending oldConns hj
      exact ⟨fun c hc hcx => absurd hcx (by simp [hnone c (List.mem_append_left _ hc)]),
        fun o ho => hnone o (List.mem_append_right _ ho)⟩
    | _ => trivial
  rw [step_run hi]
  obtain ⟨c, hc, hcx⟩ := exists_beq_insertConnections σ.clock source hp σ.network.connections
  exact ⟨⟨c, hc, hcx, hseen c hc hcx⟩, hseen,
    forall_tasks_runTask hspared fun _ h => by cases h; trivial, le_rfl⟩

/-- **An edge an insert adds stays for the cutoff.**  When `add_addrs(source,
addrs)` runs its write section at the instant `t` and adds the edge
`(source, p)`, none equal to it being in the set, and no prune in progress
holds an element equal to it, then as long as the clock reads at most
`LAST_SEEN_CUTOFF` whole seconds after `t`, under every interleaving of the
store's calls, the set holds an element equal to `KnownConnection::new(source,
p)` whose `last_seen` is `t` or later. -/
theorem inserted_connection_stays (σ : State Addr) {i : Nat} {source p : Addr}
    {addrs : List Addr} (hi : σ.tasks i = some (.addAddrs source addrs)) (hp : p ∈ addrs)
    (hnew : ∀ c ∈ σ.network.connections.elems, (c == KnownConnection.new source p σ.clock) = false)
    (hprune : ∀ j pending oldConns, σ.tasks j = some (.scanConnections pending oldConns) →
      ∀ c ∈ pending ++ oldConns.elems, (c == KnownConnection.new source p σ.clock) = false)
    (evs : List (Event Addr))
    (hcut : ((run (step σ (.run i)) evs).clock - σ.clock) / 1000000000 ≤ lastSeenCutoff) :
    ∃ c ∈ (run (step σ (.run i)) evs).network.connections.elems,
      (c == KnownConnection.new source p σ.clock) = true ∧ σ.clock ≤ c.lastSeen :=
  ((fresh_insert σ hi hp hnew hprune).run evs hcut).present

/-- An edge first reported at 5 s survives a whole prune run at 605 s. -/
theorem inserted_connection_stays_at_cutoff :
    ∃ c ∈ (run (step (step (step (init Hasher.sample 0) (.tick 5000000000))
        (.call (.addAddrs 0 [1]))) (.run 0))
        [.tick 600000000000, .call .removeOldConnections, .run 1, .run 1, .run 1]).network.connections.elems,
      (c == KnownConnection.new 0 1 5000000000) = true ∧ 5000000000 ≤ c.lastSeen :=
  @inserted_connection_stays Nat _
    (step (step (init Hasher.sample 0) (.tick 5000000000)) (.call (.addAddrs 0 [1]))) 0 0 1 [1] rfl
    (List.mem_singleton_self 1) (fun c hc => absurd hc (List.not_mem_nil c))
    (fun j _ _ hj => by by_cases h0 : j = 0 <;> simp [h0, step, State.start, init, Call.start] at hj)
    [.tick 600000000000, .call .removeOldConnections, .run 1, .run 1, .run 1] (by decide)

end Interleaving
end Ziggurat
