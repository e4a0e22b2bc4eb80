import Mathlib.Data.Nat.ModEq
import Mathlib.Logic.Function.Basic

/-!
# Circular queues

The items of a queue in the slots of a circle, one of which stays free. An index goes
from slot to slot and wraps around at the last one.
-/

namespace Imperative

variable {α : Type}

/-- The slot `k` places after `start` in a circle of `n` slots. -/
def slotAfter (n start k : Nat) : Nat := (start + k) % n

/-- The items from `start` on. -/
structure InCircle (n : Nat) (slots : Nat → α) (start : Nat) (items : List α) : Prop where
  start_lt : start < n
  room : items.length < n
  item : ∀ k (h : k < items.length), slots (slotAfter n start k) = items[k]

section

variable {n start k j : Nat} {slots : Nat → α} {items : List α} {a : α}

theorem slotAfter_lt (hstart : start < n) : slotAfter n start k < n :=
  Nat.mod_lt _ (Nat.zero_lt_of_lt hstart)

theorem slotAfter_zero (hstart : start < n) : slotAfter n start 0 = start := Nat.mod_eq_of_lt hstart

theorem slotAfter_add : slotAfter n (slotAfter n start k) j = slotAfter n start (k + j) := by
  rw [slotAfter, slotAfter, slotAfter, Nat.mod_add_mod, Nat.add_assoc]

theorem slotAfter_inj (hk : k < n) (hj : j < n) :
    slotAfter n start k = slotAfter n start j ↔ k = j := by
  constructor
  · intro heq
    have hmod : k ≡ j [MOD n] := Nat.ModEq.add_left_cancel' start heq
    exact Nat.ModEq.eq_of_lt_of_lt hmod hk hj
  · rintro rfl
    rfl

/-- The next slot, without a division. -/
theorem slotAfter_succ (hn : 0 < n) :
    (if slotAfter n start k + 1 ≥ n then 0 else slotAfter n start k + 1) =
      slotAfter n start (k + 1) := by
  have hlt : slotAfter n start k < n := Nat.mod_lt _ hn
  rw [← slotAfter_add]
  generalize slotAfter n start k = slot at hlt
  rw [slotAfter]
  split
  next hlast => rw [show slot + 1 = n by omega, Nat.mod_self]
  next hmore => rw [Nat.mod_eq_of_lt (by omega)]

theorem InCircle.nil (hstart : start < n) : InCircle n slots start [] :=
  ⟨hstart, Nat.zero_lt_of_lt hstart, by simp⟩

theorem InCircle.head (h : InCircle n slots start (a :: items)) : slots start = a := by
  have hitem := h.item 0 (Nat.succ_pos _)
  rwa [slotAfter_zero h.start_lt] at hitem

/-- The item after those before it. -/
theorem InCircle.at {before : List α} (h : InCircle n slots start (before ++ a :: items)) :
    slots (slotAfter n start before.length) = a := by
  rw [h.item before.length (by simp)]
  simp

theorem InCircle.push (h : InCircle n slots start items)
    (hroom : items.length + 1 < n) (a : α) :
    InCircle n (Function.update slots (slotAfter n start items.length) a) start
      (items ++ [a]) := by
  refine ⟨h.start_lt, by simpa using hroom, fun k hk => ?_⟩
  rw [List.length_append, List.length_singleton] at hk
  rcases Nat.lt_succ_iff_lt_or_eq.mp hk with hless | rfl
  · have hne : slotAfter n start k ≠ slotAfter n start items.length := by
      rw [ne_eq, slotAfter_inj (by omega) h.room]
      exact Nat.ne_of_lt hless
    rw [Function.update_of_ne hne, List.getElem_append_left hless]
    exact h.item k hless
  · rw [Function.update_self]
    simp

theorem InCircle.pop (h : InCircle n slots start (a :: items)) :
    InCircle n slots (slotAfter n start 1) items := by
  refine ⟨slotAfter_lt h.start_lt, Nat.lt_of_succ_lt h.room, fun k hk => ?_⟩
  rw [slotAfter_add, Nat.add_comm, h.item (k + 1) (Nat.succ_lt_succ hk)]
  rfl

end

end Imperative
