import Mathlib

/-! # Hash sets

`std::collections::HashSet`, by what a program observes of it.  A set holds
its build-hasher, here its `hash_one`, and its elements.  A lookup of `x` stops
at the element `y` with `hash_one(y) == hash_one(x)` and `y == x`; `insert`
keeps an element already there and drops the new one; `remove` takes out the
element a lookup finds.

The contract of `Hash`, that values equal by `==` hash alike, is a field of
the set, so a table over a type that breaks it cannot be built.  Under that
contract a lookup is a search by `==` alone (`lookup_eq`), and the hash
function drops out of every result below.  The table's layout and its
iteration order are not modelled: the elements are a list.
-/
namespace Ziggurat

/-- `HashSet<T, S>`: the `hash_one` of its build-hasher, and its elements. -/
structure HashSet (α : Type) [BEq α] where
  hashOne : α → UInt64
  hashOne_eq : ∀ x y : α, (x == y) = true → hashOne x = hashOne y
  elems : List α

namespace HashSet
variable {α : Type} [BEq α]

/-- An empty set with the same build-hasher. -/
def clear (s : HashSet α) : HashSet α := { s with elems := [] }

/-- Whether a lookup of `x` stops at the element `y`. -/
def lookup (s : HashSet α) (x y : α) : Bool := s.hashOne y == s.hashOne x && y == x

def contains (s : HashSet α) (x : α) : Bool := s.elems.any (s.lookup x)

/-- `insert`: when an element equal to `x` is present it stays, and `x` is dropped. -/
def insert (s : HashSet α) (x : α) : HashSet α :=
  if s.contains x then s else { s with elems := x :: s.elems }

/-- `remove`: the element a lookup of `x` finds is taken out. -/
def remove (s : HashSet α) (x : α) : HashSet α :=
  { s with elems := s.elems.eraseP (s.lookup x) }

def isEmpty (s : HashSet α) : Bool := s.elems.isEmpty

/-- At most one element of each `==` class: what `insert` maintains. -/
def Distinct (s : HashSet α) : Prop := s.elems.Pairwise fun x y => (x == y) = false

@[simp] theorem clear_elems (s : HashSet α) : s.clear.elems = [] := rfl

@[simp] theorem lookup_eq (s : HashSet α) (x y : α) : s.lookup x y = (y == x) := by
  unfold lookup
  cases h : (y == x)
  · exact Bool.and_false _
  · simp [s.hashOne_eq _ _ h]

theorem lookup_eq_beq (s : HashSet α) (x : α) : s.lookup x = (· == x) := funext (s.lookup_eq x)

theorem contains_eq (s : HashSet α) (x : α) : s.contains x = s.elems.any (· == x) := by
  rw [contains, lookup_eq_beq]

theorem elems_insert (s : HashSet α) (x : α) :
    (s.insert x).elems = if s.elems.any (· == x) then s.elems else x :: s.elems := by
  rw [insert, contains_eq]; split <;> rfl

@[simp] theorem elems_remove (s : HashSet α) (x : α) :
    (s.remove x).elems = s.elems.eraseP (· == x) := by
  rw [remove, lookup_eq_beq]

theorem subset_insert (s : HashSet α) (x : α) : s.elems ⊆ (s.insert x).elems := by
  rw [elems_insert]; split
  · exact List.Subset.refl _
  · exact List.subset_cons_self _ _

theorem mem_insert {s : HashSet α} {x y : α} (h : y ∈ (s.insert x).elems) :
    y ∈ s.elems ∨ y = x := by
  rw [elems_insert] at h; split at h
  · exact .inl h
  · exact (List.mem_cons.mp h).symm

/-- After `insert x`, an element equal to `x` is present. -/
theorem exists_beq_insert [ReflBEq α] (s : HashSet α) (x : α) :
    ∃ y ∈ (s.insert x).elems, (y == x) = true := by
  rw [elems_insert]; split
  · rename_i h; simpa using h
  · exact ⟨x, List.mem_cons_self _ _, BEq.refl⟩

theorem remove_sublist (s : HashSet α) (x : α) : (s.remove x).elems.Sublist s.elems := by
  rw [elems_remove]; exact List.eraseP_sublist _

/-- `remove x` keeps every element not equal to `x`. -/
theorem mem_remove_of_beq_false {s : HashSet α} {x y : α} (hy : y ∈ s.elems) (h : (y == x) = false) :
    y ∈ (s.remove x).elems := by
  rw [elems_remove, List.mem_eraseP_of_neg (by simp [h])]; exact hy

theorem Distinct.insert [PartialEquivBEq α] {s : HashSet α} (h : s.Distinct) (x : α) :
    (s.insert x).Distinct := by
  unfold Distinct
  rw [elems_insert]; split
  · exact h
  · rename_i hx
    refine List.pairwise_cons.mpr ⟨fun y hy => ?_, h⟩
    have : (y == x) = false := by simpa using fun hyx => hx (List.any_eq_true.mpr ⟨y, hy, hyx⟩)
    exact BEq.symm_false this

theorem Distinct.remove {s : HashSet α} (h : s.Distinct) (x : α) : (s.remove x).Distinct :=
  List.Pairwise.sublist (s.remove_sublist x) h

private theorem eraseP_eq_filter [EquivBEq α] {l : List α}
    (h : l.Pairwise fun x y => (x == y) = false) (x : α) :
    l.eraseP (· == x) = l.filter fun y => !(y == x) := by
  induction l with
  | nil => rfl
  | cons a l ih =>
    obtain ⟨ha, hl⟩ := List.pairwise_cons.mp h
    by_cases hax : (a == x) = true
    · have hrest : ∀ y ∈ l, (y == x) = false := fun y hy =>
        BEq.symm_false (BEq.neq_of_beq_of_neq (BEq.symm hax) (ha y hy))
      simp only [List.eraseP_cons, List.filter_cons, hax, cond_true, Bool.not_true,
        Bool.false_eq_true, if_false]
      exact (List.filter_eq_self.mpr fun y hy => by simp [hrest y hy]).symm
    · simp only [List.eraseP_cons, List.filter_cons, Bool.eq_false_iff.mpr hax, cond_false,
        Bool.not_false, if_true, ih hl]

private theorem eq_of_beq_of_pairwise [EquivBEq α] {l : List α}
    (h : l.Pairwise fun x y => (x == y) = false) {x y : α} (hx : x ∈ l) (hy : y ∈ l)
    (hxy : (x == y) = true) : x = y := by
  induction l with
  | nil => cases hx
  | cons a l ih =>
    obtain ⟨ha, hl⟩ := List.pairwise_cons.mp h
    rcases List.mem_cons.mp hx with rfl | hx' <;> rcases List.mem_cons.mp hy with rfl | hy'
    · rfl
    · exact absurd hxy (by simp [ha y hy'])
    · exact absurd (BEq.symm hxy) (by simp [ha x hx'])
    · exact ih hl hx' hy'

/-- In a set with one element per class, `remove x` takes out exactly the
elements equal to `x`. -/
theorem Distinct.elems_remove [EquivBEq α] {s : HashSet α} (h : s.Distinct) (x : α) :
    (s.remove x).elems = s.elems.filter fun y => !(y == x) := by
  rw [HashSet.elems_remove, eraseP_eq_filter h]

/-- Removing the elements of a list one after the other. -/
theorem Distinct.elems_foldl_remove [EquivBEq α] (os : List α) {s : HashSet α}
    (h : s.Distinct) :
    (os.foldl HashSet.remove s).elems = s.elems.filter fun y => !os.any (y == ·) := by
  induction os generalizing s with
  | nil => simp
  | cons o os ih =>
    rw [List.foldl_cons, ih (h.remove o), h.elems_remove, List.filter_filter]
    congr 1; funext y
    simp [Bool.and_comm]

/-- In a set with one element per class, an element equal to a member is that member. -/
theorem Distinct.eq_of_beq [EquivBEq α] {s : HashSet α} (h : s.Distinct) {x y : α}
    (hx : x ∈ s.elems) (hy : y ∈ s.elems) (hxy : (x == y) = true) : x = y :=
  eq_of_beq_of_pairwise h hx hy hxy

end HashSet

end Ziggurat
