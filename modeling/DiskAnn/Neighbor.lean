import Mathlib.Data.List.Sort
import Mathlib.Order.Basic

/-
  DiskANN search, the frontier: `Neighbor` and the bounded best-first queue `retset`
  (`NeighborPriorityQueue`) that `cached_beam_search` pops its beams from.

  `neighbor.h` is not among the sources, so the queue is modelled from the spec: a
  container of `Neighbor{id, dist, expanded}` with capacity `l_search`, kept in ascending
  distance order with the lower id winning a tie, whose `insert` drops the worst entry when
  full, with `has_unexpanded_node` and `closest_unexpanded`. Distances range over any
  linear order `D`: the search only compares them.

  Proved here, for the search invariants: `insert` adds exactly the new id (`mem_ids_insert`)
  and keeps the ids duplicate-free (`ids_insert_nodup`); `closest_unexpanded` keeps the ids,
  returns the first unexpanded entry and removes exactly it from the unexpanded ones
  (`closestUnexpanded_spec`).
-/

namespace DiskAnn

/-- `Neighbor`: a node id, its distance to the query, and whether it was expanded. -/
structure Neighbor (D : Type) where
  id : Nat
  distance : D
  expanded : Bool := false
deriving DecidableEq, Repr

variable {D : Type}

/-- The ids of a list of neighbors. -/
def idsOf (l : List (Neighbor D)) : List Nat := l.map (·.id)

@[simp] theorem idsOf_nil : idsOf ([] : List (Neighbor D)) = [] := rfl

@[simp] theorem idsOf_cons (n : Neighbor D) (l : List (Neighbor D)) :
    idsOf (n :: l) = n.id :: idsOf l := rfl

@[simp] theorem idsOf_append (l₁ l₂ : List (Neighbor D)) :
    idsOf (l₁ ++ l₂) = idsOf l₁ ++ idsOf l₂ := List.map_append _ _ _

/-- The ids of the entries not yet expanded. -/
def unexpandedOf (l : List (Neighbor D)) : List Nat := idsOf (l.filter fun n => !n.expanded)

theorem unexpandedOf_sublist (l : List (Neighbor D)) : (unexpandedOf l).Sublist (idsOf l) :=
  (List.filter_sublist l).map _

section Order

variable [LinearOrder D]

/-- `Neighbor::operator<` as a total preorder: by distance, the lower id first on a tie. -/
def Neighbor.le (a b : Neighbor D) : Prop :=
  a.distance < b.distance ∨ (a.distance = b.distance ∧ a.id ≤ b.id)

instance : DecidableRel (Neighbor.le (D := D)) :=
  fun _ _ => inferInstanceAs (Decidable (_ ∨ _))

end Order

/-- Modelled from the spec (`neighbor.h` is not in the sources): the frontier `retset`,
    sorted by `Neighbor.le`, holding at most `capacity` entries. -/
structure NeighborPriorityQueue (D : Type) where
  data : List (Neighbor D)
  capacity : Nat

namespace NeighborPriorityQueue

/-- The queue after `reset()` and `reserve(l_search)`. -/
def reserve (lSearch : Nat) : NeighborPriorityQueue D := ⟨[], lSearch⟩

/-- The ids held, best first. -/
def ids (q : NeighborPriorityQueue D) : List Nat := idsOf q.data

/-- The ids held and not yet expanded. -/
def unexpandedIds (q : NeighborPriorityQueue D) : List Nat := unexpandedOf q.data

/-- `has_unexpanded_node`. -/
def hasUnexpandedNode (q : NeighborPriorityQueue D) : Bool := q.data.any fun n => !n.expanded

/-- Mark the first unexpanded entry as expanded and return it. -/
def markClosest : List (Neighbor D) → Option (Neighbor D × List (Neighbor D))
  | [] => none
  | n :: rest =>
    if n.expanded then (markClosest rest).map fun r => (r.1, n :: r.2)
    else some (n, { n with expanded := true } :: rest)

/-- `closest_unexpanded`: the best unexpanded entry, now marked expanded. -/
def closestUnexpanded (q : NeighborPriorityQueue D) :
    Option (Neighbor D × NeighborPriorityQueue D) :=
  (markClosest q.data).map fun r => (r.1, { q with data := r.2 })

@[simp] theorem reserve_ids (l : Nat) : (reserve l : NeighborPriorityQueue D).ids = [] := rfl

@[simp] theorem reserve_unexpandedIds (l : Nat) :
    (reserve l : NeighborPriorityQueue D).unexpandedIds = [] := rfl

theorem unexpandedIds_sublist (q : NeighborPriorityQueue D) : q.unexpandedIds.Sublist q.ids :=
  unexpandedOf_sublist q.data

theorem mem_ids_of_mem_unexpandedIds {q : NeighborPriorityQueue D} {x : Nat}
    (h : x ∈ q.unexpandedIds) : x ∈ q.ids :=
  (unexpandedIds_sublist q).subset h

theorem markClosest_spec {l l' : List (Neighbor D)} {n : Neighbor D}
    (h : markClosest l = some (n, l')) :
    idsOf l' = idsOf l ∧ n ∈ l ∧ n.expanded = false ∧ unexpandedOf l = n.id :: unexpandedOf l' := by
  induction l generalizing l' with
  | nil => simp [markClosest] at h
  | cons m rest ih =>
    unfold markClosest at h
    split at h
    · obtain ⟨⟨n₀, r⟩, hr, he⟩ := Option.map_eq_some'.1 h
      cases he
      obtain ⟨h1, h2, h3, h4⟩ := ih hr
      simp_all [unexpandedOf, idsOf]
    · cases h
      simp_all [unexpandedOf, idsOf]

theorem markClosest_eq_none {l : List (Neighbor D)} :
    markClosest l = none ↔ unexpandedOf l = [] := by
  induction l with
  | nil => simp [markClosest, unexpandedOf]
  | cons m rest ih =>
    unfold markClosest
    split <;> simp_all [unexpandedOf, idsOf]

/-- `closest_unexpanded` keeps the ids and capacity, returns an entry that was unexpanded,
    and removes exactly that id from the front of the unexpanded ones. -/
theorem closestUnexpanded_spec {q q' : NeighborPriorityQueue D} {n : Neighbor D}
    (h : q.closestUnexpanded = some (n, q')) :
    q'.ids = q.ids ∧ q'.capacity = q.capacity ∧ n.expanded = false ∧
      q.unexpandedIds = n.id :: q'.unexpandedIds := by
  obtain ⟨⟨n₀, r⟩, hr, he⟩ := Option.map_eq_some'.1 h
  cases he
  obtain ⟨h1, -, h3, h4⟩ := markClosest_spec hr
  exact ⟨h1, rfl, h3, h4⟩

theorem closestUnexpanded_eq_none {q : NeighborPriorityQueue D} :
    q.closestUnexpanded = none ↔ q.unexpandedIds = [] := by
  simp [closestUnexpanded, unexpandedIds, markClosest_eq_none]

theorem hasUnexpandedNode_iff {q : NeighborPriorityQueue D} :
    q.hasUnexpandedNode = true ↔ q.unexpandedIds ≠ [] := by
  simp [hasUnexpandedNode, unexpandedIds, unexpandedOf, idsOf, List.filter_eq_nil_iff]

section Order

variable [LinearOrder D]

/-- `insert`: place `nbr` at its sorted position and drop the worst entry if over capacity. -/
def insert (q : NeighborPriorityQueue D) (nbr : Neighbor D) : NeighborPriorityQueue D :=
  { q with data := (q.data.orderedInsert Neighbor.le nbr).take q.capacity }

@[simp] theorem insert_capacity (q : NeighborPriorityQueue D) (n : Neighbor D) :
    (q.insert n).capacity = q.capacity := rfl

/-- After `insert`, every id is the inserted one or was already held. -/
theorem mem_ids_insert {q : NeighborPriorityQueue D} {n : Neighbor D} {x : Nat}
    (h : x ∈ (q.insert n).ids) : x = n.id ∨ x ∈ q.ids := by
  simp only [ids, idsOf, insert, List.mem_map] at h ⊢
  obtain ⟨m, hm, rfl⟩ := h
  rcases (List.mem_orderedInsert _).1 (List.mem_of_mem_take hm) with rfl | hm
  · exact .inl rfl
  · exact .inr ⟨m, hm, rfl⟩

/-- Inserting an id not yet held keeps the ids duplicate-free. -/
theorem ids_insert_nodup {q : NeighborPriorityQueue D} {n : Neighbor D}
    (hn : n.id ∉ q.ids) (hq : q.ids.Nodup) : (q.insert n).ids.Nodup := by
  have hperm := ((List.perm_orderedInsert Neighbor.le n q.data).map (·.id))
  have hcons : (n.id :: q.ids).Nodup := List.nodup_cons.2 ⟨hn, hq⟩
  exact ((List.take_sublist _ _).map _).nodup (hperm.nodup_iff.2 hcons)

/-- An unexpanded id after `insert` is the inserted one (if it is unexpanded) or was
    unexpanded before. -/
theorem mem_unexpandedIds_insert {q : NeighborPriorityQueue D} {n : Neighbor D} {x : Nat}
    (h : x ∈ (q.insert n).unexpandedIds) : x = n.id ∨ x ∈ q.unexpandedIds := by
  simp only [unexpandedIds, unexpandedOf, idsOf, insert, List.mem_map, List.mem_filter] at h ⊢
  obtain ⟨m, ⟨hm, he⟩, rfl⟩ := h
  rcases (List.mem_orderedInsert _).1 (List.mem_of_mem_take hm) with rfl | hm
  · exact .inl rfl
  · exact .inr ⟨m, ⟨hm, he⟩, rfl⟩

end Order

end NeighborPriorityQueue

end DiskAnn
