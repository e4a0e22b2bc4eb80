import SmartCar.Imperative.Trace

/-!
# Code, statement by statement

Code without loops as the tree of its statements, so that something else can come
between two of them. Left alone, the code does what its statements do one after the
other. Of code that logs at most one access on each way through it, all can be thought
to happen at that access.
-/

namespace Imperative

open Logged

variable {ε σ : Type}

/-- Code without loops that works on a `σ`. -/
inductive Code (ε σ : Type) where
  | done
  | set (f : σ → σ) (rest : Code ε σ)
  /-- a statement with an access, which is known from the result -/
  | emit (f : σ → σ) (e : σ → ε) (rest : Code ε σ)
  | branch (c : σ → Bool) (yes no : Code ε σ)

namespace Code

def isDone : Code ε σ → Bool
  | done => true
  | _ => false

/-- The next statement, with what is left after it. -/
def first : Code ε σ → σ → Logged ε (Code ε σ × σ)
  | done, s => return (done, s)
  | set f rest, s => return (rest, f s)
  | emit f e rest, s => do
      touch (e (f s))
      return (rest, f s)
  | branch c yes no, s => return (if c s then yes else no, s)

/-- All the statements, with nothing between them. -/
def finish : Code ε σ → σ → Logged ε σ
  | done, s => return s
  | set f rest, s => rest.finish (f s)
  | emit f e rest, s => do
      touch (e (f s))
      rest.finish (f s)
  | branch c yes no, s => if c s then yes.finish s else no.finish s

/-- The code makes no access. -/
def Silent : Code ε σ → Prop
  | done => True
  | set _ rest => rest.Silent
  | emit .. => False
  | branch _ yes no => yes.Silent ∧ no.Silent

/-- The code makes at most one access on each way through it. -/
def Single : Code ε σ → Prop
  | done => True
  | set _ rest => rest.Single
  | emit _ _ rest => rest.Silent
  | branch _ yes no => yes.Single ∧ no.Single

theorem finish_of_isDone {code : Code ε σ} (h : code.isDone = true) (s : σ) :
    code.finish s = pure s := by
  cases code with
  | done => rfl
  | set | emit | branch => cases h

/-- After the next statement the code does what it would have done. -/
theorem finish_first (code : Code ε σ) (s : σ) : code.finish s =
    ⟨((code.first s).val.1.finish (code.first s).val.2).val,
      (code.first s).log ++ ((code.first s).val.1.finish (code.first s).val.2).log⟩ := by
  cases code with
  | done | set f rest | emit f e rest => rfl
  | branch c yes no =>
      change (if c s then yes.finish s else no.finish s) =
        ⟨((if c s then yes else no).finish s).val, [] ++ ((if c s then yes else no).finish s).log⟩
      split <;> rfl

theorem val_finish_first (code : Code ε σ) (s : σ) :
    (code.finish s).val = ((code.first s).val.1.finish (code.first s).val.2).val := by
  rw [finish_first]

theorem finish_first_of_log {code : Code ε σ} {s : σ} (hlog : (code.first s).log = []) :
    code.finish s = (code.first s).val.1.finish (code.first s).val.2 := by
  rw [finish_first, hlog, List.nil_append]

theorem Silent.first {code : Code ε σ} (h : code.Silent) (s : σ) :
    (code.first s).log = [] ∧ (code.first s).val.1.Silent := by
  cases code with
  | done | set f rest => exact ⟨rfl, h⟩
  | emit f e rest => exact h.elim
  | branch c yes no =>
      refine ⟨rfl, ?_⟩
      change (if c s then yes else no).Silent
      split
      · exact h.1
      · exact h.2

theorem Silent.log {code : Code ε σ} (h : code.Silent) (s : σ) : (code.finish s).log = [] := by
  induction code generalizing s with
  | done => rfl
  | set f rest ih => exact ih h (f s)
  | emit f e rest => exact h.elim
  | branch c yes no ihyes ihno =>
      rw [finish]
      split
      · exact ihyes h.1 s
      · exact ihno h.2 s

theorem Silent.of_isDone {code : Code ε σ} (h : code.isDone = true) : code.Silent := by
  cases code with
  | done => trivial
  | set | emit | branch => cases h

/-- What the next statement of code with a single access leaves: either the access is
still to come, or nothing but silent code. -/
theorem Single.first {code : Code ε σ} (h : code.Single) (s : σ) :
    (code.first s).val.1.isDone = false ∧ (code.first s).val.1.Single ∧ (code.first s).log = [] ∨
      (code.first s).val.1.Silent ∧ (code.finish s).log = (code.first s).log := by
  have hleft : (code.first s).val.1.Single ∧ (code.first s).log = [] ∨
      (code.first s).val.1.Silent := by
    cases code with
    | done | set f rest => exact .inl ⟨h, rfl⟩
    | emit f e rest => exact .inr h
    | branch c yes no =>
        refine .inl ⟨?_, rfl⟩
        change (if c s then yes else no).Single
        split
        · exact h.1
        · exact h.2
  have hsilent (hrest : (code.first s).val.1.Silent) :
      (code.finish s).log = (code.first s).log := by
    rw [finish_first, hrest.log, List.append_nil]
  rcases hleft with ⟨hsingle, hlog⟩ | hrest
  · cases hdone : (code.first s).val.1.isDone with
    | false => exact .inl ⟨rfl, hsingle, hlog⟩
    | true => exact .inr ⟨.of_isDone hdone, hsilent (.of_isDone hdone)⟩
  · exact .inr ⟨hrest, hsilent hrest⟩

end Code

end Imperative
