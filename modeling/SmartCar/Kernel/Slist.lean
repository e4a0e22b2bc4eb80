import Mathlib.Data.List.TakeWhile
import SmartCar.Imperative.LinkedList

/-!
# The single list of the kernel

`rt_slist_append`, `rt_slist_remove` and `rt_slist_for_each` of `rtservice.h`. A
loop that does not end within its fuel gives `none`.
-/

namespace SmartCar

open Imperative

variable {N : Type} [DecidableEq N]

def rtSlistAppend (fuel : Nat) (next : N → Option N) (l n : N) : Option (N → Option N) := do
  let node ← seek next (fun _ => false) fuel l
  return Function.update (Function.update next node (some n)) n none

/-- `if (node->next != NULL) node->next = node->next->next;` -/
def unlinkNext (next : N → Option N) (node : N) : N → Option N :=
  match next node with
  | some m => Function.update next node (next m)
  | none => next

def rtSlistRemove (fuel : Nat) (next : N → Option N) (l n : N) : Option (N → Option N) := do
  let node ← seek next (fun m => m = n) fuel l
  return unlinkNext next node

/-- The nodes that `rt_slist_for_each` visits. -/
def rtSlistForEach (fuel : Nat) (next : N → Option N) (head : N) : Option (List N) :=
  visit next fuel (next head)

section

variable {next : N → Option N} {l n : N} {xs : List N} {fuel : Nat}

theorem unlinkNext_some {node m : N} (h : next node = some m) :
    unlinkNext next node = Function.update next node (next m) := by
  rw [unlinkNext, h]

theorem unlinkNext_none {node : N} (h : next node = none) : unlinkNext next node = next := by
  rw [unlinkNext, h]

theorem rtSlistAppend_spec (h : Links next l xs) (hn : n ∉ l :: xs) (hfuel : xs.length < fuel) :
    ∃ next', rtSlistAppend fuel next l n = some next' ∧ Links next' l (xs ++ [n]) := by
  have htake : (xs.takeWhile fun _ => !false) = xs := List.takeWhile_eq_self_iff.mpr fun _ _ => rfl
  refine ⟨_, ?_, h.append hn⟩
  rw [rtSlistAppend, h.seek_eq hfuel, htake]
  rfl

/-- Nothing happens to the list for a node that is not in it. -/
theorem rtSlistRemove_spec (h : Links next l xs) (hfuel : xs.length < fuel) :
    ∃ next', rtSlistRemove fuel next l n = some next' ∧ Links next' l (xs.erase n) := by
  by_cases hmem : n ∈ xs
  · obtain ⟨as, bs, hnot, rfl, herase⟩ := List.exists_erase_eq hmem
    have htake : ((as ++ n :: bs).takeWhile fun m => !decide (m = n)) = as := by
      rw [List.takeWhile_append_of_pos, List.takeWhile_cons_of_neg (by simp), List.append_nil]
      intro m hm
      simpa using fun heq : m = n => hnot (heq ▸ hm)
    have hnode : next (as.getLastD l) = some n := h.behind.1
    rw [herase]
    refine ⟨_, ?_, h.remove⟩
    rw [rtSlistRemove, h.seek_eq hfuel, htake, ← Option.some_inj.mpr (unlinkNext_some hnode)]
    rfl
  · have htake : (xs.takeWhile fun m => !decide (m = n)) = xs := by
      rw [List.takeWhile_eq_self_iff]
      intro m hm
      simpa using fun heq : m = n => hmem (heq ▸ hm)
    have hwhole : Links next l (xs ++ []) := (List.append_nil xs).symm ▸ h
    have hnode : next (xs.getLastD l) = none := hwhole.behind
    rw [List.erase_of_not_mem hmem]
    refine ⟨next, ?_, h⟩
    rw [rtSlistRemove, h.seek_eq hfuel, htake, ← Option.some_inj.mpr (unlinkNext_none hnode)]
    rfl

end

end SmartCar
