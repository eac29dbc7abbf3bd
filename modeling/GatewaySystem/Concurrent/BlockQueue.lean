import Mathlib.Data.Nat.Notation

/-!
# The bounded blocking queue

`BlockQueue α` is the queue between the reactor and the workers. Every member
function holds the mutex for its whole body, so each is one atomic operation
here. The bound on the size is a field, so a queue above its capacity cannot be
built. `push` answers which of the two guards refused the item; `pop` answers
`none` where the caller would keep waiting on the condition variable.
-/

namespace GatewaySystem

inductive PushResult where
  | ok
  | full
  | stopped
  deriving DecidableEq, Repr

structure BlockQueue (α : Type*) where
  capacity : ℕ
  /-- The queued items, the front first. -/
  items : List α
  peakSize : ℕ
  stopped : Bool
  size_le : items.length ≤ capacity

namespace BlockQueue

variable {α : Type*} {q : BlockQueue α} {item : α}

/-- The empty running queue of the given capacity. -/
def create (capacity : ℕ) : BlockQueue α where
  capacity := capacity
  items := []
  peakSize := 0
  stopped := false
  size_le := Nat.zero_le _

/-- `push`: refused when stopped, then when full. -/
def push (q : BlockQueue α) (item : α) : PushResult × BlockQueue α :=
  if q.stopped then (.stopped, q)
  else if h : q.items.length < q.capacity then
    (.ok,
      { capacity := q.capacity
        items := q.items ++ [item]
        peakSize := max q.peakSize (q.items.length + 1)
        stopped := q.stopped
        size_le := by rw [List.length_append]; exact h })
  else (.full, q)

/-- `push(T &&)`: the tests of `push`, and what the variable of the caller holds
afterwards. Only the item that is queued is moved from, which leaves `left`. -/
def pushRvalue (q : BlockQueue α) (item left : α) : PushResult × BlockQueue α × α :=
  if q.stopped then (.stopped, q, item)
  else if q.items.length < q.capacity then (.ok, (q.push item).2, left)
  else (.full, q, item)

/-- `tryPop`: the front item and the rest, if there is one. -/
def tryPop (q : BlockQueue α) : Option (α × BlockQueue α) :=
  match h : q.items with
  | [] => none
  | item :: rest =>
      some (item, { q with
        items := rest
        size_le := Nat.le_of_succ_le (by simpa [h] using q.size_le) })

/-- `pop`: `none` while the caller waits, otherwise what it returns. The inner
`none` is the answer `false` of a stopped and empty queue. -/
def pop (q : BlockQueue α) : Option (Option (α × BlockQueue α)) :=
  match q.tryPop with
  | some front => some (some front)
  | none => if q.stopped then some none else none

def stop (q : BlockQueue α) : BlockQueue α := { q with stopped := true }

/-- `abort`: the number of discarded items and the empty stopped queue. -/
def abort (q : BlockQueue α) : ℕ × BlockQueue α :=
  (q.items.length, { q with items := [], stopped := true, size_le := Nat.zero_le _ })

@[simp] theorem create_items (capacity : ℕ) :
    (create capacity : BlockQueue α).items = [] := rfl

@[simp] theorem create_stopped (capacity : ℕ) :
    (create capacity : BlockQueue α).stopped = false := rfl

@[simp] theorem stop_items (q : BlockQueue α) : q.stop.items = q.items := rfl

@[simp] theorem stop_stopped (q : BlockQueue α) : q.stop.stopped = true := rfl

@[simp] theorem abort_items (q : BlockQueue α) : q.abort.2.items = [] := rfl

@[simp] theorem abort_stopped (q : BlockQueue α) : q.abort.2.stopped = true := rfl

/-- An accepted push met a running queue with room and appended the item. -/
theorem push_ok (h : (q.push item).1 = .ok) :
    q.stopped = false ∧ q.items.length < q.capacity ∧
      (q.push item).2.items = q.items ++ [item] := by
  unfold push at h ⊢
  cases hs : q.stopped with
  | true => simp [hs] at h
  | false =>
      by_cases hl : q.items.length < q.capacity
      · simp [hl]
      · simp [hs, hl] at h

theorem push_peakSize (h : (q.push item).1 = .ok) :
    (q.push item).2.peakSize = max q.peakSize (q.items.length + 1) := by
  obtain ⟨hrunning, hroom, -⟩ := push_ok h
  simp [push, hrunning, hroom]

/-- A refused push leaves the queue as it was. -/
theorem push_refused (h : (q.push item).1 ≠ .ok) : (q.push item).2 = q := by
  unfold push at h ⊢
  cases hs : q.stopped with
  | true => simp
  | false =>
      by_cases hl : q.items.length < q.capacity
      · simp [hs, hl] at h
      · simp [hl]

/-- Only a stopped queue answers `stopped`. -/
theorem push_stopped_iff : (q.push item).1 = .stopped ↔ q.stopped = true := by
  unfold push
  cases hs : q.stopped with
  | true => simp
  | false =>
      by_cases hl : q.items.length < q.capacity <;> simp [hl]

@[simp] theorem push_stopped (q : BlockQueue α) (item : α) :
    (q.push item).2.stopped = q.stopped := by
  unfold push
  split
  · rfl
  · split <;> rfl

@[simp] theorem push_capacity (q : BlockQueue α) (item : α) :
    (q.push item).2.capacity = q.capacity := by
  unfold push
  split
  · rfl
  · split <;> rfl

/-- What `tryPop` returns: the items were the front followed by the rest. -/
theorem tryPop_eq_some {q q' : BlockQueue α} (h : q.tryPop = some (item, q')) :
    q.items = item :: q'.items ∧ q'.stopped = q.stopped ∧ q'.capacity = q.capacity := by
  unfold tryPop at h
  split at h
  · simp at h
  · next first rest hitems =>
      simp only [Option.some.injEq, Prod.mk.injEq] at h
      obtain ⟨rfl, rfl⟩ := h
      exact ⟨hitems, rfl, rfl⟩

theorem tryPop_peakSize {q q' : BlockQueue α} (h : q.tryPop = some (item, q')) :
    q'.peakSize = q.peakSize := by
  unfold tryPop at h
  split at h
  · cases h
  · cases h
    rfl

theorem tryPop_eq_none : q.tryPop = none ↔ q.items = [] := by
  unfold tryPop
  split
  · next hitems => simp [hitems]
  · next hitems => simp [hitems]

theorem pop_eq_item {front : α × BlockQueue α} :
    q.pop = some (some front) ↔ q.tryPop = some front := by
  unfold pop
  split
  · next hfront => simp [hfront]
  · next hnone => split <;> simp [hnone]

theorem pop_eq_none : q.pop = none ↔ q.items = [] ∧ q.stopped = false := by
  rw [← tryPop_eq_none]
  unfold pop
  split
  · next hfront => simp [hfront]
  · next hnone => simp [hnone]

/-- A `pop` that returns an item took the front one. -/
theorem pop_item {q q' : BlockQueue α} (h : q.pop = some (some (item, q'))) :
    q.items = item :: q'.items ∧ q'.stopped = q.stopped ∧ q'.capacity = q.capacity :=
  tryPop_eq_some (pop_eq_item.mp h)

/-- A `pop` that returns `false` met a stopped and empty queue. -/
theorem pop_finished (h : q.pop = some none) : q.stopped = true ∧ q.items = [] := by
  unfold pop at h
  split at h
  · simp at h
  · next hnone =>
      split at h
      · next hs => exact ⟨hs, tryPop_eq_none.mp hnone⟩
      · simp at h

end BlockQueue

end GatewaySystem
