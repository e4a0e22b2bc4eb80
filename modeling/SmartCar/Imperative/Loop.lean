import Mathlib.Algebra.BigOperators.Group.Finset.Basic
import Mathlib.Algebra.Order.Interval.Finset.SuccPred
import Mathlib.Data.Int.ConditionallyCompleteOrder
import Mathlib.Data.Int.Interval
import Mathlib.Data.Int.SuccPred
import Mathlib.Order.ConditionallyCompleteLattice.Basic
import Mathlib.Tactic.Ring
import SmartCar.Imperative.Logged

/-!
# Counted loops with an early exit

`forDown hi lo` is `for (i = hi; i > lo; i--)` and `forUp lo hi` is
`for (i = lo; i < hi; i++)`, both with a body that may `break`. The loop rules
carry an invariant indexed by the loop variable; the rules that mention a log
also hand the accesses of each visited iteration to its step.
-/

namespace Imperative

open Logged

variable {ε σ τ : Type}

/-- What an iteration must establish: the invariant if it continues, the
postcondition if it breaks. -/
def Continues (I Q : σ → Prop) : ForInStep σ → Prop
  | .yield s => I s
  | .done s => Q s

@[simp] theorem continues_yield (I Q : σ → Prop) (s : σ) : Continues I Q (.yield s) ↔ I s :=
  Iff.rfl

@[simp] theorem continues_done (I Q : σ → Prop) (s : σ) : Continues I Q (.done s) ↔ Q s :=
  Iff.rfl

theorem continues_true (x : ForInStep σ) : Continues (fun _ => True) (fun _ => True) x := by
  cases x <;> trivial

/-- `n` iterations from index `i` in steps of `d`. -/
def loop (d : Int) (body : Int → σ → Logged ε (ForInStep σ)) : Nat → Int → σ → Logged ε σ
  | 0, _, s => pure s
  | n + 1, i, s => do
      match ← body i s with
      | .yield s => loop d body n (i + d) s
      | .done s => pure s

def forDown (hi lo : Int) (s : σ) (body : Int → σ → Logged ε (ForInStep σ)) : Logged ε σ :=
  loop (-1) body (hi - lo).toNat hi s

def forUp (lo hi : Int) (s : σ) (body : Int → σ → Logged ε (ForInStep σ)) : Logged ε σ :=
  loop 1 body (hi - lo).toNat lo s

/-- A descending loop without `break`. -/
def foldDown (hi lo : Int) (s : σ) (body : Int → σ → Logged ε σ) : Logged ε σ :=
  forDown hi lo s fun i s => ForInStep.yield <$> body i s

/-- An ascending loop without `break`. -/
def foldUp (lo hi : Int) (s : σ) (body : Int → σ → Logged ε σ) : Logged ε σ :=
  forUp lo hi s fun i s => ForInStep.yield <$> body i s

/-- The first index of a descending search at which the test holds. -/
def scanDown (hi lo : Int) (test : Int → Logged ε Bool) : Logged ε (Option Int) :=
  forDown hi lo none fun i found => do
    if ← test i then return .done (some i) else return .yield found

/-- The first index of an ascending search at which the test holds. -/
def scanUp (lo hi : Int) (test : Int → Logged ε Bool) : Logged ε (Option Int) :=
  forUp lo hi none fun i found => do
    if ← test i then return .done (some i) else return .yield found

/-! ## The loop rule -/

section Rules

variable {P : ε → Prop} {d : Int} {body : Int → σ → Logged ε (ForInStep σ)}
  {n : Nat} {i hi lo : Int} {s : σ}

theorem loop_succ_yield {s' : σ} (hbody : (body i s).val = .yield s') :
    (loop d body (n + 1) i s).val = (loop d body n (i + d) s').val ∧
      (All P (loop d body (n + 1) i s) ↔
        All P (body i s) ∧ All P (loop d body n (i + d) s')) := by
  constructor
  · simp [loop, hbody]
  · simp [loop, hbody]

theorem loop_succ_done {s' : σ} (hbody : (body i s).val = .done s') :
    (loop d body (n + 1) i s).val = s' ∧
      (All P (loop d body (n + 1) i s) ↔ All P (body i s)) := by
  constructor
  · simp [loop, hbody]
  · simp [loop, hbody]

/-- The invariant rule, for a loop all of whose accesses are known to satisfy
`P`: the step may use `P` for the accesses of its own iteration. -/
theorem loop_rule_of_all (I : Int → σ → Prop) (Q : σ → Prop)
    (hall : All P (loop d body n i s)) (hinit : I i s)
    (hstep : ∀ k : Nat, k < n → ∀ s, I (i + k * d) s → All P (body (i + k * d) s) →
      Continues (I (i + (k + 1) * d)) Q (body (i + k * d) s).val)
    (hend : ∀ s, I (i + n * d) s → Q s) :
    Q (loop d body n i s).val := by
  induction n generalizing i s with
  | zero => exact hend s (by simpa using hinit)
  | succ n ih =>
      have hfirst := hstep 0 (Nat.succ_pos n) s (by simpa using hinit)
      simp only [Int.natCast_zero, zero_mul, add_zero, zero_add, one_mul] at hfirst
      cases hbody : (body i s).val with
      | done s' =>
          obtain ⟨hval, hlog⟩ := loop_succ_done (P := P) (d := d) (n := n) hbody
          rw [hval]
          simpa [hbody] using hfirst (hlog.mp hall)
      | yield s' =>
          obtain ⟨hval, hlog⟩ := loop_succ_yield (P := P) (d := d) (n := n) hbody
          have hlogs := hlog.mp hall
          have hnext : I (i + d) s' := by simpa [hbody] using hfirst hlogs.1
          rw [hval]
          -- the remaining iterations start one step on, which shifts their indices by `d`
          apply ih hlogs.2 hnext
          · intro k hk t ht hlogt
            have hcast : i + ((k + 1 : Nat) : Int) * d = i + d + k * d := by
              push_cast; ring
            have hthis := hstep (k + 1) (by omega) t
            rw [hcast] at hthis
            convert hthis ht hlogt using 2
            push_cast; ring
          · intro t ht
            apply hend t
            convert ht using 1
            push_cast; ring

theorem all_true (x : Logged ε σ) : All (fun _ => True) x := fun _ _ => trivial

theorem all_loop (I : Int → σ → Prop) (hinit : I i s)
    (hstep : ∀ k : Nat, k < n → ∀ s, I (i + k * d) s →
      All P (body (i + k * d) s) ∧
        Continues (I (i + (k + 1) * d)) (fun _ => True) (body (i + k * d) s).val) :
    All P (loop d body n i s) := by
  induction n generalizing i s with
  | zero => exact all_pure s
  | succ n ih =>
      have hfirst := hstep 0 (Nat.succ_pos n) s (by simpa using hinit)
      simp only [Int.natCast_zero, zero_mul, add_zero, zero_add, one_mul] at hfirst
      cases hbody : (body i s).val with
      | done s' => exact (loop_succ_done hbody).2.mpr hfirst.1
      | yield s' =>
          refine (loop_succ_yield hbody).2.mpr ⟨hfirst.1, ?_⟩
          have hnext : I (i + d) s' := by simpa [hbody] using hfirst.2
          apply ih hnext
          intro k hk t ht
          have hcast : i + ((k + 1 : Nat) : Int) * d = i + d + k * d := by
            push_cast; ring
          have hthis := hstep (k + 1) (by omega) t
          rw [hcast] at hthis
          convert hthis ht using 3
          push_cast; ring

/-- The outcome of an iteration, seen through `g`. -/
def mapStep (g : σ → τ) : ForInStep σ → ForInStep τ
  | .yield s => .yield (g s)
  | .done s => .done (g s)

/-- A translation of the states that the body respects is respected by the loop. -/
theorem loop_map {body' : Int → τ → Logged ε (ForInStep τ)} {g : σ → τ}
    (hbody : ∀ i s, (body' i (g s)).val = mapStep g (body i s).val) :
    (loop d body' n i (g s)).val = g (loop d body n i s).val := by
  induction n generalizing i s with
  | zero => rfl
  | succ n ih =>
      have hstep := hbody i s
      cases hfirst : (body i s).val with
      | yield t =>
          rw [hfirst] at hstep
          rw [(loop_succ_yield (P := fun _ => True) hstep).1,
            (loop_succ_yield (P := fun _ => True) hfirst).1]
          exact ih
      | done t =>
          rw [hfirst] at hstep
          rw [(loop_succ_done (P := fun _ => True) hstep).1,
            (loop_succ_done (P := fun _ => True) hfirst).1]

/-! ## Descending loops -/

theorem forDown_rule_of_all (I : Int → σ → Prop) (Q : σ → Prop)
    (hall : All P (forDown hi lo s body)) (hinit : I hi s)
    (hstep : ∀ i s, lo < i → i ≤ hi → I i s → All P (body i s) →
      Continues (I (i - 1)) Q (body i s).val)
    (hend : ∀ s, I (min lo hi) s → Q s) :
    Q (forDown hi lo s body).val := by
  refine loop_rule_of_all I Q hall hinit ?_ ?_
  · intro k hk t ht hlog
    have hthis := hstep _ t (by omega) (by omega) ht hlog
    convert hthis using 2
    ring
  · intro t ht
    apply hend t
    convert ht using 1
    omega

/-- The invariant rule of `for (i = hi; i > lo; i--)`. -/
theorem forDown_rule (I : Int → σ → Prop) (Q : σ → Prop) (hinit : I hi s)
    (hstep : ∀ i s, lo < i → i ≤ hi → I i s → Continues (I (i - 1)) Q (body i s).val)
    (hend : ∀ s, I (min lo hi) s → Q s) :
    Q (forDown hi lo s body).val :=
  forDown_rule_of_all I Q (all_true _) hinit (fun i s hlo hhi hI _ => hstep i s hlo hhi hI) hend

theorem forDown_map {body' : Int → τ → Logged ε (ForInStep τ)} {g : σ → τ}
    (hbody : ∀ i s, (body' i (g s)).val = mapStep g (body i s).val) :
    (forDown hi lo (g s) body').val = g (forDown hi lo s body).val :=
  loop_map hbody

/-- The accesses of a descending loop are those of its iterations. -/
theorem all_forDown (I : Int → σ → Prop) (hinit : I hi s)
    (hstep : ∀ i s, lo < i → i ≤ hi → I i s →
      All P (body i s) ∧ Continues (I (i - 1)) (fun _ => True) (body i s).val) :
    All P (forDown hi lo s body) := by
  refine all_loop I hinit ?_
  intro k hk t ht
  have hthis := hstep _ t (by omega) (by omega) ht
  convert hthis using 3
  ring

/-- A contract of a descending loop from a contract of its iterations. -/
theorem forDown_ensures (I : Int → σ → Prop) {Q : σ → Prop} (hinit : I hi s)
    (hstep : ∀ i s, lo < i → i ≤ hi → I i s →
      Ensures P (Continues (I (i - 1)) Q) (body i s))
    (hend : ∀ s, I (min lo hi) s → Q s) : Ensures P Q (forDown hi lo s body) := by
  constructor
  · refine all_forDown I hinit ?_
    intro i t hlo hhi ht
    obtain ⟨hlog, hval⟩ := hstep i t hlo hhi ht
    refine ⟨hlog, ?_⟩
    cases hbody : (body i t).val with
    | yield s' => simpa [hbody] using hval
    | done s' => trivial
  · exact forDown_rule I Q hinit (fun i t hlo hhi ht => (hstep i t hlo hhi ht).2) hend

end Rules

section Fold

variable {P : ε → Prop} {body : Int → σ → Logged ε σ} {hi lo : Int} {s : σ}

/-- The invariant rule of a loop without `break`; `r` is the row below which the
loop has stopped. -/
theorem foldDown_rule (I : Int → σ → Prop) {r : Int} (hr : r = min lo hi) (hinit : I hi s)
    (hstep : ∀ i s, lo < i → i ≤ hi → I i s → I (i - 1) (body i s).val) :
    I r (foldDown hi lo s body).val := by
  subst hr
  refine forDown_rule I (I (min lo hi)) hinit ?_ (fun _ h => h)
  intro i t hlo hhi ht
  exact hstep i t hlo hhi ht

theorem foldDown_rule_of_all (I : Int → σ → Prop) {r : Int} (hr : r = min lo hi)
    (hall : All P (foldDown hi lo s body)) (hinit : I hi s)
    (hstep : ∀ i s, lo < i → i ≤ hi → I i s → All P (body i s) → I (i - 1) (body i s).val) :
    I r (foldDown hi lo s body).val := by
  subst hr
  refine forDown_rule_of_all I (I (min lo hi)) hall hinit ?_ (fun _ h => h)
  intro i t hlo hhi ht hlog
  exact hstep i t hlo hhi ht (by simpa using hlog)

/-- A property of the state alone that every iteration keeps. -/
theorem foldDown_keeps (I : σ → Prop) (hinit : I s)
    (hstep : ∀ i s, lo < i → i ≤ hi → I s → I (body i s).val) :
    I (foldDown hi lo s body).val :=
  foldDown_rule (fun _ => I) rfl hinit hstep

theorem all_foldDown (I : Int → σ → Prop) (hinit : I hi s)
    (hstep : ∀ i s, lo < i → i ≤ hi → I i s → All P (body i s) ∧ I (i - 1) (body i s).val) :
    All P (foldDown hi lo s body) := by
  refine all_forDown I hinit ?_
  intro i t hlo hhi ht
  simpa using hstep i t hlo hhi ht

theorem foldDown_ensures (I : Int → σ → Prop) {Q : σ → Prop} (hinit : I hi s)
    (hstep : ∀ i s, lo < i → i ≤ hi → I i s → Ensures P (I (i - 1)) (body i s))
    (hend : ∀ s, I (min lo hi) s → Q s) : Ensures P Q (foldDown hi lo s body) :=
  ⟨all_foldDown I hinit fun i t hlo hhi ht => hstep i t hlo hhi ht,
    hend _ (foldDown_rule I rfl hinit fun i t hlo hhi ht => (hstep i t hlo hhi ht).2)⟩

/-- Where the accesses of an iteration do not depend on the state, the loop makes
those of all its iterations. -/
theorem all_foldDown_iff {p : Int → Prop}
    (h : ∀ i s, lo < i → i ≤ hi → (All P (body i s) ↔ p i)) :
    All P (foldDown hi lo s body) ↔ ∀ i, lo < i → i ≤ hi → p i := by
  constructor
  · intro hall
    have hrows := foldDown_rule_of_all (fun i _ => ∀ j, i < j → j ≤ hi → p j) rfl hall
      (fun j h₁ h₂ => absurd h₁ (by omega)) ?_
    · exact fun i hlo hhi => hrows i (by omega) hhi
    · intro i t hlo hhi ht hlog j hj hj'
      rcases eq_or_lt_of_le (show i ≤ j by omega) with rfl | hlt
      · exact (h i t hlo hhi).mp hlog
      · exact ht j hlt hj'
  · exact fun hall => all_foldDown (fun _ _ => True) trivial fun i t hlo hhi _ =>
      ⟨(h i t hlo hhi).mpr (hall i hlo hhi), trivial⟩

/-- A loop that adds a term for each index computes a sum. -/
theorem foldDown_sum {M : Type} [AddCommMonoid M] {body : Int → M → Logged ε M} (g : Int → M)
    (m : M) (hbody : ∀ i m, lo < i → i ≤ hi → (body i m).val = m + g i) :
    (foldDown hi lo m body).val = m + ∑ i ∈ Finset.Ioc lo hi, g i := by
  have hsum : (foldDown hi lo m body).val = m + ∑ i ∈ Finset.Ioc (min lo hi) hi, g i := by
    refine foldDown_rule (fun i acc => acc = m + ∑ j ∈ Finset.Ioc i hi, g j) rfl (by simp) ?_
    rintro i acc hlo hhi rfl
    rw [hbody i _ hlo hhi, ← Finset.insert_Ioc_left_eq_Ioc_sub_one hhi,
      Finset.sum_insert (by simp), add_assoc, add_comm (∑ j ∈ Finset.Ioc i hi, g j)]
  rcases le_total lo hi with hle | hle
  · rw [hsum, min_eq_left hle]
  · rw [hsum, min_eq_right hle, Finset.Ioc_eq_empty (by omega), Finset.Ioc_eq_empty (by omega)]

theorem foldDown_map {body' : Int → τ → Logged ε τ} {g : σ → τ}
    (hbody : ∀ i s, (body' i (g s)).val = g (body i s).val) :
    (foldDown hi lo (g s) body').val = g (foldDown hi lo s body).val :=
  loop_map fun i s => by simp [mapStep, hbody]

/-- Two runs of a loop with the same bounds stay related. -/
theorem foldDown_rel {body' : Int → τ → Logged ε τ} {t : τ} (R : Int → σ → τ → Prop) {r : Int}
    (hr : r = min lo hi) (hinit : R hi s t)
    (hstep : ∀ i s t, lo < i → i ≤ hi → R i s t → R (i - 1) (body i s).val (body' i t).val) :
    R r (foldDown hi lo s body).val (foldDown hi lo t body').val := by
  subst hr
  suffices hrun : ∀ n : Nat, ∀ i s t, R i s t → (n : Int) = i - min lo i → i ≤ hi →
      R (min lo i) (loop (-1) (fun i s => ForInStep.yield <$> body i s) n i s).val
        (loop (-1) (fun i t => ForInStep.yield <$> body' i t) n i t).val by
    have hthis := hrun (hi - lo).toNat hi s t hinit (by omega) le_rfl
    exact hthis
  intro n
  induction n with
  | zero =>
      intro i s t hR hn _
      have heq : min lo i = i := by omega
      rw [heq]
      exact hR
  | succ n ih =>
      intro i s t hR hn hhi
      have hnext := ih (i - 1) _ _ (hstep i s t (by omega) hhi hR) (by omega) (by omega)
      have heq : min lo (i - 1) = min lo i := by omega
      rw [heq] at hnext
      exact hnext

end Fold

section FoldUp

variable {P : ε → Prop} {body : Int → σ → Logged ε σ} {lo hi : Int} {s : σ}

theorem foldUp_of_le (h : hi ≤ lo) : foldUp lo hi s body = pure s := by
  rw [foldUp, forUp, Int.toNat_of_nonpos (by omega), loop]

theorem foldUp_rule_of_all (I : Int → σ → Prop) {r : Int} (hr : r = max lo hi)
    (hall : All P (foldUp lo hi s body)) (hinit : I lo s)
    (hstep : ∀ i s, lo ≤ i → i < hi → I i s → All P (body i s) → I (i + 1) (body i s).val) :
    I r (foldUp lo hi s body).val := by
  subst hr
  refine loop_rule_of_all I (I (max lo hi)) hall hinit ?_ ?_
  · intro k hk t ht hlog
    have hnext := hstep _ t (by omega) (by omega) ht (by simpa using hlog)
    rw [val_map, continues_yield]
    convert hnext using 1
    ring
  · intro t ht
    convert ht using 1
    omega

/-- The invariant rule of an ascending loop without `break`. -/
theorem foldUp_rule (I : Int → σ → Prop) {r : Int} (hr : r = max lo hi) (hinit : I lo s)
    (hstep : ∀ i s, lo ≤ i → i < hi → I i s → I (i + 1) (body i s).val) :
    I r (foldUp lo hi s body).val :=
  foldUp_rule_of_all I hr (all_true _) hinit fun i s hlo hhi hI _ => hstep i s hlo hhi hI

theorem all_foldUp (I : Int → σ → Prop) (hinit : I lo s)
    (hstep : ∀ i s, lo ≤ i → i < hi → I i s → All P (body i s) ∧ I (i + 1) (body i s).val) :
    All P (foldUp lo hi s body) := by
  refine all_loop I hinit ?_
  intro k hk t ht
  obtain ⟨hlog, hnext⟩ := hstep _ t (by omega) (by omega) ht
  refine ⟨(all_map _ _).mpr hlog, ?_⟩
  rw [val_map, continues_yield]
  convert hnext using 1
  ring

theorem foldUp_ensures (I : Int → σ → Prop) {r : Int} (hr : r = max lo hi) (hinit : I lo s)
    (hstep : ∀ i s, lo ≤ i → i < hi → I i s → Ensures P (I (i + 1)) (body i s)) :
    Ensures P (I r) (foldUp lo hi s body) :=
  ⟨all_foldUp I hinit fun i t hlo hhi ht => hstep i t hlo hhi ht,
    foldUp_rule I hr hinit fun i t hlo hhi ht => (hstep i t hlo hhi ht).2⟩

/-- Where the accesses of an iteration do not depend on the state, the loop makes
those of all its iterations. -/
theorem all_foldUp_iff {p : Int → Prop}
    (h : ∀ i s, lo ≤ i → i < hi → (All P (body i s) ↔ p i)) :
    All P (foldUp lo hi s body) ↔ ∀ i, lo ≤ i → i < hi → p i := by
  constructor
  · intro hall
    have hrows := foldUp_rule_of_all (fun i _ => ∀ j, lo ≤ j → j < i → p j) rfl hall
      (fun j h₁ h₂ => absurd h₁ (by omega)) ?_
    · exact fun i hlo hhi => hrows i hlo (by omega)
    · intro i t hlo hhi ht hlog j hj hj'
      rcases eq_or_lt_of_le (show j ≤ i by omega) with rfl | hlt
      · exact (h j t hlo hhi).mp hlog
      · exact ht j hj hlt
  · exact fun hall => all_foldUp (fun _ _ => True) trivial fun i t hlo hhi _ =>
      ⟨(h i t hlo hhi).mpr (hall i hlo hhi), trivial⟩

/-- A loop each of whose iterations writes cells of its own, leaves what they wrote:
cell `k` belongs to iteration `owner k`, which sets it to `g k` if `q k`. -/
theorem foldUp_write {κ α : Type} (get : σ → κ → α) (owner : κ → Int) (q : κ → Prop)
    [DecidablePred q] (g : κ → α) (hbody : ∀ i s, lo ≤ i → i < hi → ∀ k,
      get (body i s).val k = if owner k = i ∧ q k then g k else get s k) (k : κ) :
    get (foldUp lo hi s body).val k =
      if (lo ≤ owner k ∧ owner k < hi) ∧ q k then g k else get s k := by
  have hcells : ∀ k, get (foldUp lo hi s body).val k =
      if (lo ≤ owner k ∧ owner k < max lo hi) ∧ q k then g k else get s k := by
    apply foldUp_rule (fun i t => ∀ k, get t k =
      if (lo ≤ owner k ∧ owner k < i) ∧ q k then g k else get s k) rfl
    · intro k
      rw [if_neg (by omega)]
    · intro i t hlo hhi ht k
      rw [hbody i t hlo hhi, ht]
      by_cases hk : owner k = i
      · by_cases hq : q k
        · rw [if_pos ⟨hk, hq⟩, if_pos ⟨by omega, hq⟩]
        · rw [if_neg (fun h => hq h.2), if_neg (fun h => hq h.2), if_neg (fun h => hq h.2)]
      · have hiff : (lo ≤ owner k ∧ owner k < i) ↔ (lo ≤ owner k ∧ owner k < i + 1) := by omega
        rw [if_neg (fun h => hk h.1)]
        simp only [hiff]
  have hiff : (lo ≤ owner k ∧ owner k < max lo hi) ↔ (lo ≤ owner k ∧ owner k < hi) := by omega
  rw [hcells]
  simp only [hiff]

end FoldUp

/-! ## Searches -/

section Scan

variable {P : ε → Prop} {test : Int → Logged ε Bool} {hi lo : Int}

/-- The outcome of a descending search over `(lo, hi]`. -/
def FirstDown (hi lo : Int) (p : Int → Bool) : Option Int → Prop
  | some r => lo < r ∧ r ≤ hi ∧ p r = true ∧ ∀ i, r < i → i ≤ hi → p i = false
  | none => ∀ i, lo < i → i ≤ hi → p i = false

/-- The outcome of an ascending search over `[lo, hi)`. -/
def FirstUp (lo hi : Int) (p : Int → Bool) : Option Int → Prop
  | some r => lo ≤ r ∧ r < hi ∧ p r = true ∧ ∀ i, lo ≤ i → i < r → p i = false
  | none => ∀ i, lo ≤ i → i < hi → p i = false

theorem scanDown_spec (hi lo : Int) (test : Int → Logged ε Bool) :
    FirstDown hi lo (fun i => (test i).val) (scanDown hi lo test).val := by
  refine forDown_rule
    (fun i found => found = none ∧ ∀ j, i < j → j ≤ hi → (test j).val = false)
    (FirstDown hi lo fun i => (test i).val)
    ⟨rfl, fun j (h₁ : hi < j) h₂ => absurd h₁ (by omega)⟩ ?_ ?_
  · rintro i found hlo hhi ⟨rfl, hnone⟩
    cases htest : (test i).val with
    | true =>
        simp only [val_bind, htest, if_true, val_pure, continues_done]
        exact ⟨hlo, hhi, htest, hnone⟩
    | false =>
        simp only [val_bind, htest, Bool.false_eq_true, if_false, val_pure, continues_yield,
          true_and]
        intro j hj hjhi
        rcases eq_or_lt_of_le (show i ≤ j by omega) with rfl | hlt
        · exact htest
        · exact hnone j hlt hjhi
  · rintro found ⟨rfl, hnone⟩ i hi₁ hi₂
    exact hnone i (by omega) hi₂

theorem scanUp_spec (lo hi : Int) (test : Int → Logged ε Bool) :
    FirstUp lo hi (fun i => (test i).val) (scanUp lo hi test).val := by
  refine loop_rule_of_all (P := fun _ => True)
    (fun i found => found = none ∧ ∀ j, lo ≤ j → j < i → (test j).val = false)
    (FirstUp lo hi fun i => (test i).val)
    (all_true _) ⟨rfl, fun j h₁ (h₂ : j < lo) => absurd h₁ (by omega)⟩ ?_ ?_
  · rintro k hk found ⟨rfl, hnone⟩ -
    cases htest : (test (lo + k * 1)).val with
    | true =>
        simp only [val_bind, htest, if_true, val_pure, continues_done]
        exact ⟨by omega, by omega, htest, hnone⟩
    | false =>
        simp only [val_bind, htest, Bool.false_eq_true, if_false, val_pure, continues_yield,
          true_and]
        intro j hlo hj
        rcases eq_or_lt_of_le (show j ≤ lo + k * 1 by omega) with rfl | hlt
        · exact htest
        · exact hnone j hlo hlt
  · rintro found ⟨rfl, hnone⟩ i h₁ h₂
    exact hnone i h₁ (by omega)

/-- A descending search finds the greatest index that passes the test. -/
theorem firstDown_some_iff {p : Int → Bool} {r : Int} :
    FirstDown hi lo p (some r) ↔ IsGreatest {i | (lo < i ∧ i ≤ hi) ∧ p i = true} r := by
  constructor
  · rintro ⟨hlo, hhi, hr, hbefore⟩
    refine ⟨⟨⟨hlo, hhi⟩, hr⟩, fun i ⟨hi', hp⟩ => ?_⟩
    by_contra! hlt
    rw [hbefore i hlt hi'.2] at hp
    cases hp
  · rintro ⟨⟨⟨hlo, hhi⟩, hr⟩, hgreatest⟩
    refine ⟨hlo, hhi, hr, fun i hri hi' => ?_⟩
    by_contra hp
    exact hri.not_ge (hgreatest ⟨⟨hlo.trans hri, hi'⟩, by simpa using hp⟩)

theorem firstDown_none_iff {p : Int → Bool} :
    FirstDown hi lo p none ↔ {i | (lo < i ∧ i ≤ hi) ∧ p i = true} = ∅ := by
  simp [FirstDown, Set.eq_empty_iff_forall_notMem, and_imp]

/-- No index that passes the test lies before the outcome of a descending search. -/
theorem FirstDown.le_of_pass {p : Int → Bool} {found : Option Int} (h : FirstDown hi lo p found)
    {i : Int} (hlo : lo < i) (hhi : i ≤ hi) (hpass : p i = true) : ∃ r, found = some r ∧ i ≤ r := by
  cases found with
  | none => exact absurd (hpass.symm.trans (h i hlo hhi)) (by decide)
  | some r =>
      refine ⟨r, rfl, ?_⟩
      by_contra hlt
      exact absurd (hpass.symm.trans (h.2.2.2 i (not_le.mp hlt) hhi)) (by decide)

/-- An ascending search finds the least index that passes the test. -/
theorem firstUp_some_iff {p : Int → Bool} {r : Int} :
    FirstUp lo hi p (some r) ↔ IsLeast {i | (lo ≤ i ∧ i < hi) ∧ p i = true} r := by
  constructor
  · rintro ⟨hlo, hhi, hr, hbefore⟩
    refine ⟨⟨⟨hlo, hhi⟩, hr⟩, fun i ⟨hi', hp⟩ => ?_⟩
    by_contra! hlt
    rw [hbefore i hi'.1 hlt] at hp
    cases hp
  · rintro ⟨⟨⟨hlo, hhi⟩, hr⟩, hleast⟩
    refine ⟨hlo, hhi, hr, fun i hi' hir => ?_⟩
    by_contra hp
    exact hir.not_ge (hleast ⟨⟨hi', hir.trans hhi⟩, by simpa using hp⟩)

theorem firstUp_none_iff {p : Int → Bool} :
    FirstUp lo hi p none ↔ {i | (lo ≤ i ∧ i < hi) ∧ p i = true} = ∅ := by
  simp [FirstUp, Set.eq_empty_iff_forall_notMem, and_imp]

/-- The outcome of a descending search is determined by the tests. -/
theorem FirstDown.unique {p q : Int → Bool} {a b : Option Int} (ha : FirstDown hi lo p a)
    (hb : FirstDown hi lo q b) (hpq : ∀ i, lo < i → i ≤ hi → p i = q i) : a = b := by
  cases a with
  | none =>
      cases b with
      | none => rfl
      | some r =>
          obtain ⟨hlo, hhi, hr, -⟩ := hb
          have hthis := ha r hlo hhi
          simp [hpq r hlo hhi, hr] at hthis
  | some r =>
      obtain ⟨hlo, hhi, hr, hbefore⟩ := ha
      cases b with
      | none =>
          have hthis := hb r hlo hhi
          simp [← hpq r hlo hhi, hr] at hthis
      | some t =>
          obtain ⟨hlot, hhit, ht, hbeforet⟩ := hb
          -- the search that stops at the smaller index has failed at the larger one
          rcases lt_trichotomy r t with hlt | heq | hgt
          · have hthis := hbefore t hlt hhit
            simp [hpq t hlot hhit, ht] at hthis
          · rw [heq]
          · have hthis := hbeforet r hgt hhi
            simp [← hpq r hlo hhi, hr] at hthis

theorem scanDown_mem {r : Int} (h : (scanDown hi lo test).val = some r) :
    lo < r ∧ r ≤ hi ∧ (test r).val = true := by
  have hspec := scanDown_spec hi lo test
  rw [h] at hspec
  exact ⟨hspec.1, hspec.2.1, hspec.2.2.1⟩

/-- A descending search only depends on the tests of its range. -/
theorem scanDown_congr {test' : Int → Logged ε Bool}
    (h : ∀ i, lo < i → i ≤ hi → (test i).val = (test' i).val) :
    (scanDown hi lo test).val = (scanDown hi lo test').val :=
  (scanDown_spec hi lo test).unique (scanDown_spec hi lo test') h

theorem scanDown_eq_none_iff : (scanDown hi lo test).val = none ↔
    ∀ i, lo < i → i ≤ hi → (test i).val = false := by
  have hspec := scanDown_spec hi lo test
  constructor
  · intro hnone
    rwa [hnone] at hspec
  · intro hall
    exact hspec.unique (b := none) hall fun _ _ _ => rfl

theorem scanDown_isSome_iff :
    (scanDown hi lo test).val.isSome = true ↔ ∃ i, lo < i ∧ i ≤ hi ∧ (test i).val = true := by
  rw [← Option.ne_none_iff_isSome, ne_eq, scanDown_eq_none_iff]
  simp

/-- A search stops where another one does if, for each index from there on at which
the tests differ, an index before it passes both. -/
theorem FirstDown.transfer {p p' : Int → Bool} {r : Int} (h : FirstDown hi lo p (some r))
    (hdiff : ∀ i, r ≤ i → i ≤ hi → p i ≠ p' i → ∃ j, i < j ∧ j ≤ hi ∧ p j = true) :
    FirstDown hi lo p' (some r) := by
  obtain ⟨hlo, hr, htest, hbefore⟩ := h
  have hsame : ∀ i, r ≤ i → i ≤ hi → p i = p' i := by
    intro i hri hihi
    by_contra hne
    obtain ⟨j, hj, hjhi, hpass⟩ := hdiff i hri hihi hne
    exact absurd (hpass.symm.trans (hbefore j (hri.trans_lt hj) hjhi)) (by decide)
  refine ⟨hlo, hr, (hsame r le_rfl hr).symm.trans htest, fun i hri hihi => ?_⟩
  exact (hsame i hri.le hihi).symm.trans (hbefore i hri hihi)

/-- Two descending searches agree on what lies above a bound exactly if, for each
index above it at which the tests differ, an index before it passes both. -/
theorem scanDown_filter_eq_iff {test' : Int → Logged ε Bool} {q : Int → Bool}
    (hq : ∀ i j, i ≤ j → q i = true → q j = true) :
    (scanDown hi lo test).val.filter q = (scanDown hi lo test').val.filter q ↔
      ∀ i, lo < i → i ≤ hi → q i = true → (test i).val ≠ (test' i).val →
        ∃ j, i < j ∧ j ≤ hi ∧ (test j).val = true ∧ (test' j).val = true := by
  have ha := scanDown_spec hi lo test
  have hb := scanDown_spec hi lo test'
  generalize (scanDown hi lo test).val = a at ha ⊢
  generalize (scanDown hi lo test').val = b at hb ⊢
  constructor
  · intro heq i hlo hhi hqi hne
    -- the index that passes one of the tests is not before the outcome of its search
    have hfound : ∃ r, a = some r ∧ b = some r ∧ i ≤ r := by
      cases hpass : (test i).val with
      | true =>
          obtain ⟨r, rfl, hir⟩ := ha.le_of_pass hlo hhi hpass
          rw [Option.filter_some_pos (hq i r hir hqi)] at heq
          exact ⟨r, rfl, (Option.filter_eq_some_iff.mp heq.symm).1, hir⟩
      | false =>
          have hpass' : (test' i).val = true := by simpa [hpass] using hne
          obtain ⟨r, rfl, hir⟩ := hb.le_of_pass hlo hhi hpass'
          rw [Option.filter_some_pos (hq i r hir hqi)] at heq
          exact ⟨r, (Option.filter_eq_some_iff.mp heq).1, rfl, hir⟩
    obtain ⟨r, rfl, rfl, hir⟩ := hfound
    have hr : i ≠ r := by
      rintro rfl
      exact hne (ha.2.2.1.trans hb.2.2.1.symm)
    exact ⟨r, lt_of_le_of_ne hir hr, ha.2.1, ha.2.2.1, hb.2.2.1⟩
  · intro hdiff
    ext r
    simp only [Option.filter_eq_some_iff]
    constructor
    · rintro ⟨rfl, hqr⟩
      refine ⟨hb.unique (b := some r) (ha.transfer ?_) fun _ _ _ => rfl, hqr⟩
      intro i hri hihi hne
      obtain ⟨j, hj, hjhi, hpass, -⟩ := hdiff i (ha.1.trans_le hri) hihi (hq r i hri hqr) hne
      exact ⟨j, hj, hjhi, hpass⟩
    · rintro ⟨rfl, hqr⟩
      refine ⟨ha.unique (b := some r) (hb.transfer ?_) fun _ _ _ => rfl, hqr⟩
      intro i hri hihi hne
      obtain ⟨j, hj, hjhi, -, hpass⟩ := hdiff i (hb.1.trans_le hri) hihi (hq r i hri hqr) hne.symm
      exact ⟨j, hj, hjhi, hpass⟩

/-- A descending search in two parts: the farther part only runs when the nearer
one finds nothing. -/
theorem scanDown_split {m : Int} (hlo : lo ≤ m) (hhi : m ≤ hi) (test : Int → Logged ε Bool) :
    (scanDown hi lo test).val = (scanDown hi m test).val.or (scanDown m lo test).val := by
  refine (scanDown_spec hi lo test).unique ?_ fun _ _ _ => rfl
  have hnear := scanDown_spec hi m test
  have hfar := scanDown_spec m lo test
  generalize (scanDown hi m test).val = a at hnear ⊢
  generalize (scanDown m lo test).val = b at hfar ⊢
  cases a with
  | some r =>
      obtain ⟨h₁, h₂, htest, hbefore⟩ := hnear
      exact ⟨by omega, h₂, htest, hbefore⟩
  | none =>
      have hnone : ∀ i, m < i → i ≤ hi → (test i).val = false := hnear
      cases b with
      | some r =>
          obtain ⟨h₁, h₂, htest, hbefore⟩ := hfar
          refine ⟨h₁, by omega, htest, fun i hi₁ hi₂ => ?_⟩
          rcases Int.lt_or_le m i with hlt | hle
          · exact hnone i hlt hi₂
          · exact hbefore i hi₁ hle
      | none =>
          intro i hi₁ hi₂
          rcases Int.lt_or_le m i with hlt | hle
          · exact hnone i hlt hi₂
          · exact hfar i hi₁ hle

/-- A loop that leaves the state alone until a test holds, and then breaks, does what
it does at the row that the search for the test finds. -/
theorem forDown_scan (test : Int → Logged ε Bool) {s : σ}
    {body : Int → σ → Logged ε (ForInStep σ)} {act : Int → σ}
    (hbody : ∀ i, lo < i → i ≤ hi →
      (body i s).val = if (test i).val then .done (act i) else .yield s) :
    (forDown hi lo s body).val = (scanDown hi lo test).val.elim s act := by
  have hspec := scanDown_spec hi lo test
  refine forDown_rule (fun i t => t = s ∧ ∀ j, i < j → j ≤ hi → (test j).val = false)
    (fun t => t = (scanDown hi lo test).val.elim s act) ?_ ?_ ?_
  · exact ⟨rfl, fun j h₁ h₂ => absurd h₁ (by omega)⟩
  · rintro i t hlo hhi ⟨rfl, hnone⟩
    rw [hbody i hlo hhi]
    cases htest : (test i).val with
    | true =>
        -- the first row that passes is the one that the search finds
        have hfound : (scanDown hi lo test).val = some i :=
          hspec.unique (b := some i) ⟨hlo, hhi, htest, hnone⟩ fun _ _ _ => rfl
        rw [hfound]
        rfl
    | false =>
        refine ⟨rfl, fun j hj hj' => ?_⟩
        rcases eq_or_lt_of_le (show i ≤ j by omega) with rfl | hlt
        · exact htest
        · exact hnone j hlt hj'
  · rintro t ⟨rfl, hnone⟩
    have hfound : (scanDown hi lo test).val = none :=
      hspec.unique (b := none) (fun i h₁ h₂ => hnone i (by omega) h₂) fun _ _ _ => rfl
    rw [hfound]
    rfl

/-- A descending search makes the accesses of the tests down to the first that holds. -/
theorem all_scanDown_iff : All P (scanDown hi lo test) ↔ ∀ i, lo < i → i ≤ hi →
    (∀ k, i < k → k ≤ hi → (test k).val = false) → All P (test i) := by
  constructor
  · intro hall
    refine forDown_rule_of_all
      (fun i _ => ∀ j, i < j → j ≤ hi → (test j).val = false ∧ All P (test j))
      (fun _ => ∀ i, lo < i → i ≤ hi → (∀ k, i < k → k ≤ hi → (test k).val = false) →
        All P (test i)) hall (fun j h₁ h₂ => absurd h₁ (by omega)) ?_ ?_
    · intro i found hlo hhi hpassed hlog
      have hread : All P (test i) := by simpa using hlog
      cases htest : (test i).val with
      | true =>
          simp only [val_bind, htest, if_true, val_pure, continues_done]
          intro j hj hj' hfirst
          rcases lt_trichotomy j i with hlt | rfl | hgt
          · -- the search has stopped before it reaches this row
            rw [hfirst i hlt hhi] at htest
            cases htest
          · exact hread
          · exact (hpassed j hgt hj').2
      | false =>
          simp only [val_bind, htest, Bool.false_eq_true, if_false, val_pure, continues_yield]
          intro j hj hj'
          rcases eq_or_ne j i with rfl | hne
          · exact ⟨htest, hread⟩
          · exact hpassed j (by omega) hj'
    · intro found hpassed i hlo hhi _
      exact (hpassed i (by omega) hhi).2
  · intro htests
    refine all_forDown
      (fun i _ => ∀ k, i < k → k ≤ hi → (test k).val = false) (fun k h₁ h₂ => absurd h₁ (by omega)) ?_
    intro i found hlo hhi hpassed
    refine ⟨by simpa using htests i hlo hhi hpassed, ?_⟩
    cases htest : (test i).val with
    | true => simp [htest]
    | false =>
        simp only [val_bind, htest, Bool.false_eq_true, if_false, val_pure, continues_yield]
        intro k hk hk'
        rcases eq_or_ne k i with rfl | hne
        · exact htest
        · exact hpassed k (by omega) hk'

/-- A search that starts in range reads in range. -/
theorem all_scanDown (h : ∀ i, lo < i → i ≤ hi → All P (test i)) :
    All P (scanDown hi lo test) :=
  all_scanDown_iff.mpr fun i hlo hhi _ => h i hlo hhi

theorem all_scanUp {lo hi : Int} (h : ∀ i, lo ≤ i → i < hi → All P (test i)) :
    All P (scanUp lo hi test) := by
  refine all_loop (fun _ _ => True) trivial ?_
  intro k hk found _
  exact ⟨by simpa using h (lo + k * 1) (by omega) (by omega), continues_true _⟩

theorem scanDown_ensures (h : ∀ i, lo < i → i ≤ hi → All P (test i)) :
    Ensures P (fun found => ∀ r, found = some r → lo < r ∧ r ≤ hi ∧ (test r).val = true)
      (scanDown hi lo test) :=
  ⟨all_scanDown h, fun _ => scanDown_mem⟩

end Scan

end Imperative
