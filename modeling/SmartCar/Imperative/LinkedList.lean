import Mathlib.Data.List.Nodup
import Mathlib.Logic.Function.Basic
import Mathlib.Tactic.Common

/-!
# Linked lists

Nodes that point to the next node, from a node that stands for the list itself to
one that points nowhere. The loops take fuel, and a list that is well formed
needs no more of it than it has nodes.
-/

namespace Imperative

variable {N : Type}

/-! ## Well-formed lists -/

/-- Behind `l` come the nodes `xs`, in this order, and nothing else. -/
def Links (next : N → Option N) : N → List N → Prop
  | l, [] => next l = none
  | l, x :: xs => next l = some x ∧ Links next x xs

section Links

variable {next next' : N → Option N} {l : N} {xs ys : List N}

theorem Links.unique (h : Links next l xs) (h' : Links next l ys) : xs = ys := by
  induction xs generalizing l ys with
  | nil =>
      cases ys with
      | nil => rfl
      | cons y ys => exact absurd (h.symm.trans h'.1) (by simp)
  | cons x xs ih =>
      cases ys with
      | nil => exact absurd (h'.symm.trans h.1) (by simp)
      | cons y ys =>
          obtain rfl : x = y := Option.some.inj (h.1.symm.trans h'.1)
          rw [ih h.2 h'.2]

/-- What comes behind the last of the first nodes. -/
theorem Links.behind (h : Links next l (xs ++ ys)) : Links next (xs.getLastD l) ys := by
  induction xs generalizing l with
  | nil => exact h
  | cons x xs ih =>
      rw [List.getLastD_cons]
      exact ih h.2

/-- Every node of a list starts a list of its own. -/
theorem Links.suffix {x : N} (h : Links next l xs) (hx : x ∈ l :: xs) :
    ∃ rest, rest <:+ xs ∧ Links next x rest := by
  rcases List.mem_cons.mp hx with rfl | hmem
  · exact ⟨xs, List.suffix_rfl, h⟩
  · obtain ⟨before, rest, rfl⟩ := List.append_of_mem hmem
    exact ⟨rest, ⟨before ++ [x], by simp⟩, h.behind.2⟩

/-- A list that ends does not come back to a node. -/
theorem Links.nodup (h : Links next l xs) : (l :: xs).Nodup := by
  induction xs generalizing l with
  | nil => simp
  | cons x xs ih =>
      refine List.nodup_cons.mpr ⟨fun hmem => ?_, ih h.2⟩
      obtain ⟨rest, hrest, hlinks⟩ := h.2.suffix hmem
      -- the list behind `l` would be shorter than itself
      have hlength := hrest.length_le
      rw [hlinks.unique h, List.length_cons] at hlength
      omega

theorem Links.congr (h : Links next l xs) (hsame : ∀ m ∈ l :: xs, next' m = next m) :
    Links next' l xs := by
  induction xs generalizing l with
  | nil => exact (hsame l List.mem_cons_self).trans h
  | cons x xs ih =>
      rw [List.forall_mem_cons] at hsame
      exact ⟨hsame.1.trans h.1, ih h.2 hsame.2⟩

end Links

/-! ## Loops -/

/-- `while (node->next && !stop(node->next)) node = node->next;` -/
def seek (next : N → Option N) (stop : N → Bool) : Nat → N → Option N
  | 0, _ => none
  | fuel + 1, node =>
      match next node with
      | none => some node
      | some m => if stop m then some node else seek next stop fuel m

/-- The nodes that `for (pos = first; pos != NULL; pos = pos->next)` visits. -/
def visit (next : N → Option N) : Nat → Option N → Option (List N)
  | _, none => some []
  | 0, some _ => none
  | fuel + 1, some m => (visit next fuel (next m)).map (m :: ·)

section Loops

variable {next : N → Option N} {stop : N → Bool} {l : N} {xs : List N} {fuel : Nat}

theorem Links.seek_eq (h : Links next l xs) (hfuel : xs.length < fuel) :
    seek next stop fuel l = some ((xs.takeWhile fun m => !stop m).getLastD l) := by
  induction xs generalizing l fuel with
  | nil =>
      obtain ⟨fuel, rfl⟩ := Nat.exists_eq_succ_of_ne_zero (Nat.ne_zero_of_lt hfuel)
      rw [seek, h]
      rfl
  | cons x xs ih =>
      obtain ⟨fuel, rfl⟩ := Nat.exists_eq_succ_of_ne_zero (Nat.ne_zero_of_lt hfuel)
      rw [seek, h.1]
      dsimp only
      cases hstop : stop x with
      | true => simp [hstop]
      | false =>
          rw [List.takeWhile_cons_of_pos (by simp [hstop]), List.getLastD_cons]
          exact ih h.2 (by simpa using hfuel)

theorem Links.visit_eq (h : Links next l xs) (hfuel : xs.length ≤ fuel) :
    visit next fuel (next l) = some xs := by
  induction xs generalizing l fuel with
  | nil =>
      rw [h]
      cases fuel <;> rfl
  | cons x xs ih =>
      obtain ⟨fuel, rfl⟩ := Nat.exists_eq_succ_of_ne_zero (show fuel ≠ 0 by
        rw [List.length_cons] at hfuel
        omega)
      rw [h.1, visit, ih h.2 (by simpa using hfuel)]
      rfl

end Loops

/-! ## Changes -/

section Changes

variable [DecidableEq N] {next : N → Option N} {l n : N} {xs as bs : List N}

/-- A node behind the last one. -/
theorem Links.append (h : Links next l xs) (hn : n ∉ l :: xs) :
    Links (Function.update (Function.update next (xs.getLastD l) (some n)) n none) l
      (xs ++ [n]) := by
  induction xs generalizing l with
  | nil =>
      have hne : l ≠ n := fun heq => hn (heq ▸ List.mem_cons_self)
      refine ⟨?_, Function.update_self ..⟩
      rw [Function.update_of_ne hne]
      exact Function.update_self ..
  | cons x xs ih =>
      have hne : l ≠ n := fun heq => hn (heq ▸ List.mem_cons_self)
      have hlast : l ≠ xs.getLastD x := by
        intro heq
        have hmem : l ∈ x :: xs := by
          rw [heq]
          exact List.getLastD_mem_cons
        exact (List.nodup_cons.mp h.nodup).1 hmem
      rw [List.getLastD_cons]
      refine ⟨?_, ih h.2 fun hmem => hn (List.mem_cons_of_mem l hmem)⟩
      rw [Function.update_of_ne hne, Function.update_of_ne hlast]
      exact h.1

/-- Past a node: the one before it takes over its pointer. -/
theorem Links.remove (h : Links next l (as ++ n :: bs)) :
    Links (Function.update next (as.getLastD l) (next n)) l (as ++ bs) := by
  induction as generalizing l with
  | nil =>
      have hl : l ∉ n :: bs := (List.nodup_cons.mp h.nodup).1
      cases bs with
      | nil =>
          have hend : next n = none := h.2
          rw [hend]
          exact Function.update_self ..
      | cons b bs =>
          have hnext : next n = some b := h.2.1
          rw [hnext]
          refine ⟨Function.update_self .., h.2.2.congr fun m hm => ?_⟩
          apply Function.update_of_ne
          rintro rfl
          exact hl (List.mem_cons_of_mem n hm)
  | cons a as ih =>
      have hlast : l ≠ as.getLastD a := by
        intro heq
        have hmem : l ∈ a :: (as ++ n :: bs) := by
          rw [← List.cons_append]
          refine List.mem_append_left _ ?_
          rw [heq]
          exact List.getLastD_mem_cons
        exact (List.nodup_cons.mp h.nodup).1 hmem
      rw [List.getLastD_cons]
      refine ⟨?_, ih h.2⟩
      rw [Function.update_of_ne hlast]
      exact h.1

end Changes

end Imperative
