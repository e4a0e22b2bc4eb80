import Mathlib.Algebra.Group.Int.Defs
import Mathlib.Tactic.Common

/-!
# Computations that log the cells they touch

A value of `Logged ε α` is the result of a C expression or statement together
with the list of accesses it made, in order. The value never depends on the
log, so results about values and results about accesses are proved separately
over the same definition.
-/

namespace Imperative

/-- A result with the accesses made to obtain it. -/
structure Logged (ε α : Type) where
  val : α
  log : List ε

namespace Logged

variable {ε α β : Type}

instance : Monad (Logged ε) where
  pure a := ⟨a, []⟩
  bind x f := ⟨(f x.val).val, x.log ++ (f x.val).log⟩

/-- Every logged access satisfies `P`. -/
def All (P : ε → Prop) (x : Logged ε α) : Prop := ∀ e ∈ x.log, P e

instance (P : ε → Prop) [DecidablePred P] (x : Logged ε α) : Decidable (All P x) :=
  inferInstanceAs (Decidable (∀ e ∈ x.log, P e))

/-- A single access that reads `a`. -/
def read (e : ε) (a : α) : Logged ε α := ⟨a, [e]⟩

/-- An access made for its effect; the effect itself is in the state. -/
def touch (e : ε) : Logged ε Unit := ⟨(), [e]⟩

/-- An `if` without `else`, as a step on the state. -/
def onlyIf (p : Prop) [Decidable p] (f : α → Logged ε α) (a : α) : Logged ε α :=
  if p then f a else pure a

/-! ## Values -/

section Values

@[simp] theorem val_pure (a : α) : (pure a : Logged ε α).val = a := (rfl)

@[simp] theorem val_bind (x : Logged ε α) (f : α → Logged ε β) :
    (x >>= f).val = (f x.val).val := (rfl)

@[simp] theorem val_map (f : α → β) (x : Logged ε α) : (f <$> x).val = f x.val := (rfl)

@[simp] theorem val_read (e : ε) (a : α) : (read e a).val = a := (rfl)

@[simp] theorem val_touch (e : ε) : (touch e).val = () := (rfl)

@[simp] theorem val_ite (p : Prop) [Decidable p] (x y : Logged ε α) :
    (if p then x else y).val = if p then x.val else y.val := apply_ite _ _ _ _

@[simp] theorem val_onlyIf (p : Prop) [Decidable p] (f : α → Logged ε α) (a : α) :
    (onlyIf p f a).val = if p then (f a).val else a :=
  val_ite p (f a) (pure a)

end Values

/-! ## Logs -/

section Logs

variable {P : ε → Prop}

@[simp] theorem all_pure (a : α) : All P (pure a : Logged ε α) := by
  intro e he
  cases he

@[simp] theorem all_bind (x : Logged ε α) (f : α → Logged ε β) :
    All P (x >>= f) ↔ All P x ∧ All P (f x.val) := by
  change (∀ e ∈ x.log ++ (f x.val).log, P e) ↔ _
  simp only [List.mem_append, or_imp, forall_and]
  (rfl)

@[simp] theorem all_map (f : α → β) (x : Logged ε α) : All P (f <$> x) ↔ All P x := by
  rw [show f <$> x = x >>= fun a => pure (f a) from rfl, all_bind]
  exact and_iff_left (all_pure _)

@[simp] theorem all_read (e : ε) (a : α) : All P (read e a) ↔ P e := by
  simp [All, read]

@[simp] theorem all_touch (e : ε) : All P (touch e) ↔ P e := by
  simp [All, touch]

@[simp] theorem all_ite (p : Prop) [Decidable p] (x y : Logged ε α) :
    All P (if p then x else y) ↔ if p then All P x else All P y := by
  split <;> rfl

@[simp] theorem all_onlyIf (p : Prop) [Decidable p] (f : α → Logged ε α) (a : α) :
    All P (onlyIf p f a) ↔ (p → All P (f a)) := by
  unfold onlyIf
  split
  next h => simp [h]
  next h => simp [h]

end Logs

/-! ## Integer expressions and tests

`x.lt y` and its companions are the C comparisons of two logged operands, read
left to right; `<&&>` and `<||>` are C's short-circuit connectives. -/

section Tests

/-- A test on values that are already in registers. -/
def check (p : Prop) [Decidable p] : Logged ε Bool := pure (decide p)

instance (n : Nat) [OfNat Int n] : OfNat (Logged ε Int) n := ⟨pure (OfNat.ofNat n)⟩

instance : Add (Logged ε Int) := ⟨fun x y => do return (← x) + (← y)⟩

instance : Sub (Logged ε Int) := ⟨fun x y => do return (← x) - (← y)⟩

instance : Mul (Logged ε Int) := ⟨fun x y => do return (← x) * (← y)⟩

def lt (x y : Logged ε Int) : Logged ε Bool := do return decide ((← x) < (← y))

def le (x y : Logged ε Int) : Logged ε Bool := do return decide ((← x) ≤ (← y))

def gt (x y : Logged ε Int) : Logged ε Bool := do return decide ((← x) > (← y))

def ge (x y : Logged ε Int) : Logged ε Bool := do return decide ((← x) ≥ (← y))

def eq (x y : Logged ε Int) : Logged ε Bool := do return decide ((← x) = (← y))

def ne (x y : Logged ε Int) : Logged ε Bool := do return decide ((← x) ≠ (← y))

/-- The absolute value of `stdlib.h`. -/
def abs (x : Logged ε Int) : Logged ε Int := do return ((← x).natAbs : Int)

variable (x y : Logged ε Int) (a b : Logged ε Bool)

@[simp] theorem val_ofNat (n : Nat) [OfNat Int n] :
    (ofNat(n) : Logged ε Int).val = OfNat.ofNat n := (rfl)

@[simp] theorem val_add : (x + y).val = x.val + y.val := (rfl)

@[simp] theorem val_sub : (x - y).val = x.val - y.val := (rfl)

@[simp] theorem val_mul : (x * y).val = x.val * y.val := (rfl)

@[simp] theorem val_abs : x.abs.val = (x.val.natAbs : Int) := (rfl)

@[simp] theorem val_check (p : Prop) [Decidable p] : (check p : Logged ε Bool).val = decide p :=
  (rfl)

@[simp] theorem val_lt : (x.lt y).val = decide (x.val < y.val) := (rfl)

@[simp] theorem val_le : (x.le y).val = decide (x.val ≤ y.val) := (rfl)

@[simp] theorem val_gt : (x.gt y).val = decide (x.val > y.val) := (rfl)

@[simp] theorem val_ge : (x.ge y).val = decide (x.val ≥ y.val) := (rfl)

@[simp] theorem val_eq : (x.eq y).val = decide (x.val = y.val) := (rfl)

@[simp] theorem val_ne : (x.ne y).val = decide (x.val ≠ y.val) := (rfl)

@[simp] theorem val_and : (a <&&> b).val = (a.val && b.val) := by
  rcases a with ⟨_ | _, _⟩ <;> rfl

@[simp] theorem val_or : (a <||> b).val = (a.val || b.val) := by
  rcases a with ⟨_ | _, _⟩ <;> rfl

variable {P : ε → Prop}

@[simp] theorem all_ofNat (n : Nat) [OfNat Int n] :
    All P (ofNat(n) : Logged ε Int) := all_pure _

@[simp] theorem all_add : All P (x + y) ↔ All P x ∧ All P y := by
  change All P (x >>= fun i => y >>= fun j => pure (i + j)) ↔ _
  simp

@[simp] theorem all_sub : All P (x - y) ↔ All P x ∧ All P y := by
  change All P (x >>= fun i => y >>= fun j => pure (i - j)) ↔ _
  simp

@[simp] theorem all_mul : All P (x * y) ↔ All P x ∧ All P y := by
  change All P (x >>= fun i => y >>= fun j => pure (i * j)) ↔ _
  simp

@[simp] theorem all_abs : All P x.abs ↔ All P x := by simp [abs]

@[simp] theorem all_check (p : Prop) [Decidable p] : All P (check p : Logged ε Bool) :=
  all_pure _

@[simp] theorem all_lt : All P (x.lt y) ↔ All P x ∧ All P y := by simp [lt]

@[simp] theorem all_le : All P (x.le y) ↔ All P x ∧ All P y := by simp [le]

@[simp] theorem all_gt : All P (x.gt y) ↔ All P x ∧ All P y := by simp [gt]

@[simp] theorem all_ge : All P (x.ge y) ↔ All P x ∧ All P y := by simp [ge]

@[simp] theorem all_eq : All P (x.eq y) ↔ All P x ∧ All P y := by simp [eq]

@[simp] theorem all_ne : All P (x.ne y) ↔ All P x ∧ All P y := by simp [ne]

/-- The right operand of `&&` is read only when the left one holds. -/
@[simp] theorem all_and : All P (a <&&> b) ↔ All P a ∧ (a.val = true → All P b) := by
  rcases a with ⟨_ | _, _⟩ <;> simp [andM, toBool]

/-- The right operand of `||` is read only when the left one fails. -/
@[simp] theorem all_or : All P (a <||> b) ↔ All P a ∧ (a.val = false → All P b) := by
  rcases a with ⟨_ | _, _⟩ <;> simp [orM, toBool]

end Tests

/-! ## Contracts -/

section Contracts

variable {P : ε → Prop} {Q R : α → Prop} {x : Logged ε α}

/-- Every access satisfies `P` and the result satisfies `Q`. -/
def Ensures (P : ε → Prop) (Q : α → Prop) (x : Logged ε α) : Prop := All P x ∧ Q x.val

theorem Ensures.pure {a : α} (h : Q a) : Ensures P Q (pure a : Logged ε α) := ⟨all_pure a, h⟩

theorem Ensures.bind {S : β → Prop} {f : α → Logged ε β} (hx : Ensures P Q x)
    (hf : ∀ a, Q a → Ensures P S (f a)) : Ensures P S (x >>= f) := by
  obtain ⟨hlog, hval⟩ := hf x.val hx.2
  exact ⟨(all_bind x f).mpr ⟨hx.1, hlog⟩, hval⟩

/-- An access whose result is not looked into. -/
theorem Ensures.bind_all {S : β → Prop} {f : α → Logged ε β} (hx : All P x)
    (hf : ∀ a, Ensures P S (f a)) : Ensures P S (x >>= f) :=
  Ensures.bind (Q := fun _ => True) ⟨hx, trivial⟩ fun a _ => hf a

theorem Ensures.ite {p : Prop} [Decidable p] {y : Logged ε α} (hx : p → Ensures P Q x)
    (hy : ¬ p → Ensures P Q y) : Ensures P Q (if p then x else y) := by
  split
  next h => exact hx h
  next h => exact hy h

theorem Ensures.onlyIf {p : Prop} [Decidable p] {f : α → Logged ε α} {a : α} (ha : Q a)
    (hf : p → Ensures P Q (f a)) : Ensures P Q (onlyIf p f a) :=
  Ensures.ite hf fun _ => Ensures.pure ha

/-- A contract about the result alone. -/
def Returns (Q : α → Prop) (x : Logged ε α) : Prop := Q x.val

theorem Returns.pure {a : α} (h : Q a) : Returns Q (pure a : Logged ε α) := h

theorem Returns.bind {S : β → Prop} {f : α → Logged ε β} (hx : Returns Q x)
    (hf : ∀ a, Q a → Returns S (f a)) : Returns S (x >>= f) :=
  hf x.val hx

/-- A result that is not looked into. -/
theorem Returns.bind_any {S : β → Prop} {f : α → Logged ε β} (hf : ∀ a, Returns S (f a)) :
    Returns S (x >>= f) :=
  hf x.val

theorem Returns.ite {p : Prop} [Decidable p] {y : Logged ε α} (hx : p → Returns Q x)
    (hy : ¬ p → Returns Q y) : Returns Q (if p then x else y) := by
  split
  next h => exact hx h
  next h => exact hy h

theorem Returns.onlyIf {p : Prop} [Decidable p] {f : α → Logged ε α} {a : α} (ha : Q a)
    (hf : p → Returns Q (f a)) : Returns Q (onlyIf p f a) :=
  Returns.ite hf fun _ => Returns.pure ha

end Contracts

end Logged

end Imperative
