import SmartCar.FindLines.RowAccess
import SmartCar.FindLines.Unchanged

/-!
# The outcome of a bend

A bend redraws the centre line from a near row on, and stops at the row where the new
centre line meets the border. What it leaves behind is stated on the arrays alone: the
rows it has drawn, the row at which it stopped, and the rows it did not reach.
-/

namespace SmartCar

open Imperative Logged

/-- The loop of a bend, with the row at which it meets the border. -/
def bendTrace (meets : Int → Bool) (v hi lo : Int) (target : Findline1 → Int → Logged Access Int)
    (f : Findline1) : Logged Access (Findline1 × Option Int) :=
  forDown hi lo (f, none) fun i st => do
    let m ← target st.1 i
    if meets m then return .done (← st.1.storeMid i v, some i)
    else return .yield (← st.1.storeMid i m, st.2)

/-- A bend keeps the row it is handed unless it meets the border. -/
theorem bend_val (meets : Int → Bool) (v hi lo r : Int)
    (target : Findline1 → Int → Logged Access Int) (f : Findline1) :
    (bend meets v hi lo target f r).val = ((bendTrace meets v hi lo target f).val.1,
      (bendTrace meets v hi lo target f).val.2.getD r) := by
  unfold bend bendTrace
  refine forDown_map (s := (f, (none : Option Int))) (g := fun st => (st.1, st.2.getD r)) ?_
  rintro i ⟨g, found⟩
  simp only [val_bind, val_ite, val_pure, Findline1.storeMid_val]
  split
  next => rfl
  next => rfl

/-- A property of the value drawn on a row that only depends on the edges and on the
rows nearer to the car. -/
def RowStable (row : Findline1 → Int → Int → Prop) : Prop :=
  ∀ g i j m m', i ≤ j → row g j m → row (g.setMid i m') j m

/-- The arrays `g` after a bend over `(lo, hi]` of `f`, where `row` holds of the values it
draws and `found` is the row at which it met the border column `v`. -/
structure Bent (meets : Int → Bool) (v hi lo : Int) (row : Findline1 → Int → Int → Prop)
    (f g : Findline1) (found : Option Int) : Prop where
  edges : SameEdges f g
  drawn : ∀ j, found.getD lo < j → j ≤ hi → row g j (g.midline j) ∧ meets (g.midline j) = false
  met : ∀ k ∈ found, lo < k ∧ k ≤ hi ∧ g.midline k = v ∧ ∃ m, row g k m ∧ meets m = true
  ahead : ∀ j, j ≤ found.getD lo → j ∉ found → g.midline j = f.midline j
  behind : ∀ j, hi < j → g.midline j = f.midline j

section Bend

variable {meets : Int → Bool} {v hi lo r : Int} {row : Findline1 → Int → Int → Prop}
  {target : Findline1 → Int → Logged Access Int} {f : Findline1}

/-- The rows of `(i, hi]` have been drawn. -/
structure BendDrawn (meets : Int → Bool) (hi i : Int) (row : Findline1 → Int → Int → Prop)
    (f g : Findline1) : Prop where
  edges : SameEdges f g
  drawn : ∀ j, i < j → j ≤ hi → row g j (g.midline j) ∧ meets (g.midline j) = false
  rest : ∀ j, j ≤ i ∨ hi < j → g.midline j = f.midline j

theorem setMid_midline (g : Findline1) (i j m : Int) :
    (g.setMid i m).midline j = if j = i then m else g.midline j := by
  simp [Findline1.setMid, Function.update_apply]

theorem BendDrawn.step {g : Findline1} {i m : Int} (hstable : RowStable row)
    (h : BendDrawn meets hi i row f g) (hhi : i ≤ hi) (hrow : row g i m)
    (hmiss : meets m = false) : BendDrawn meets hi (i - 1) row f (g.setMid i m) where
  edges := h.edges.setMid i m
  drawn := by
    intro j hj hj'
    rcases eq_or_ne j i with rfl | hne
    · rw [setMid_midline, if_pos rfl]
      exact ⟨hstable g j j m m le_rfl hrow, hmiss⟩
    · obtain ⟨hdrawn, hmissed⟩ := h.drawn j (by omega) hj'
      rw [setMid_midline, if_neg hne]
      exact ⟨hstable g i j _ m (by omega) hdrawn, hmissed⟩
  rest := by
    intro j hj
    rw [setMid_midline, if_neg (by omega)]
    exact h.rest j (by omega)

theorem BendDrawn.stop {g : Findline1} {i m : Int} (hstable : RowStable row)
    (h : BendDrawn meets hi i row f g) (hlo : lo < i) (hhi : i ≤ hi) (hrow : row g i m)
    (hmeet : meets m = true) : Bent meets v hi lo row f (g.setMid i v) (some i) where
  edges := h.edges.setMid i v
  drawn := by
    intro j hj hj'
    rw [Option.getD_some] at hj
    obtain ⟨hdrawn, hmissed⟩ := h.drawn j hj hj'
    rw [setMid_midline, if_neg (by omega)]
    exact ⟨hstable g i j _ v hj.le hdrawn, hmissed⟩
  met := by
    rintro k ⟨⟩
    rw [setMid_midline, if_pos rfl]
    exact ⟨hlo, hhi, rfl, m, hstable g i i m v le_rfl hrow, hmeet⟩
  ahead := by
    intro j hj hne
    rw [Option.getD_some] at hj
    have hji : j ≠ i := fun h => hne (by rw [h]; rfl)
    rw [setMid_midline, if_neg hji]
    exact h.rest j (by omega)
  behind := by
    intro j hj
    rw [setMid_midline, if_neg (by omega)]
    exact h.rest j (by omega)

theorem bendTrace_spec (hstable : RowStable row)
    (hrow : ∀ g i, lo < i → i ≤ hi → SameEdges f g → (∀ j, j ≤ i → g.midline j = f.midline j) →
      row g i (target g i).val) :
    Bent meets v hi lo row f (bendTrace meets v hi lo target f).val.1
      (bendTrace meets v hi lo target f).val.2 := by
  refine forDown_rule
    (fun i (st : Findline1 × Option Int) => st.2 = none ∧ BendDrawn meets hi i row f st.1)
    (fun st => Bent meets v hi lo row f st.1 st.2) ?_ ?_ ?_
  · exact ⟨rfl, SameEdges.refl f, fun j h₁ h₂ => absurd h₁ (by omega), fun _ _ => rfl⟩
  · rintro i ⟨g, found⟩ hlo hhi ⟨hfound, hdrawn⟩
    have htarget := hrow g i hlo hhi hdrawn.edges fun j hj => hdrawn.rest j (Or.inl hj)
    simp only [val_bind, val_ite, val_pure, Findline1.storeMid_val]
    split
    next hmeet => exact hdrawn.stop hstable hlo hhi htarget hmeet
    next hmiss =>
      exact ⟨hfound, hdrawn.step hstable hhi htarget (by simpa using hmiss)⟩
  · rintro ⟨g, found⟩ ⟨hfound, hdrawn⟩
    simp only at hfound hdrawn
    subst hfound
    exact ⟨hdrawn.edges, fun j hj hj' => hdrawn.drawn j (by simp at hj; omega) hj',
      fun k hk => absurd hk (by simp), fun j hj _ => hdrawn.rest j (by simp at hj; omega),
      fun j hj => hdrawn.rest j (Or.inr hj)⟩

theorem bendTrace_bent : Bent meets v hi lo (fun _ _ _ => True) f
    (bendTrace meets v hi lo target f).val.1 (bendTrace meets v hi lo target f).val.2 :=
  bendTrace_spec (fun _ _ _ _ _ _ _ => trivial) fun _ _ _ _ _ _ => trivial

/-! ## The course of a bend -/

/-- A centre line drawn from row `hi` on, each value computed by `T` from the two rows nearer
to the car: what the last two of `n` rows hold. -/
def courseRows (T : Int → Int → Int → Int) (hi : Int) (a : Int → Int) : Nat → Int × Int
  | 0 => (a (hi + 1), a (hi + 2))
  | n + 1 =>
      let (x, y) := courseRows T hi a n
      (T (hi - n) x y, x)

/-- What row `i` holds if the centre line never meets a border. -/
def courseRow (T : Int → Int → Int → Int) (hi : Int) (a : Int → Int) (i : Int) : Int :=
  if hi < i then a i else (courseRows T hi a (hi + 1 - i).toNat).1

/-- Of the rows of `(lo, hi]`, `k` is the first one from the car on to meet the border. -/
structure FirstMeets (meets : Int → Bool) (hi lo : Int) (c : Int → Int) (k : Int) : Prop where
  far : lo < k
  near : k ≤ hi
  met : meets (c k) = true
  before : ∀ j, k < j → j ≤ hi → meets (c j) = false

section Course

variable {T : Int → Int → Int → Int} {a c : Int → Int} {i k k' : Int} {g : Findline1}
  {found : Option Int}

theorem courseRow_of_lt (h : hi < i) : courseRow T hi a i = a i := if_pos h

theorem courseRow_sub (n : Nat) : courseRow T hi a (hi + 1 - n) = (courseRows T hi a n).1 := by
  cases n with
  | zero => rw [courseRow_of_lt (by simp), Int.natCast_zero, sub_zero]; rfl
  | succ n =>
      rw [courseRow, if_neg (by push_cast; omega)]
      congr 2
      omega

theorem courseRow_step (h : i ≤ hi) : courseRow T hi a i =
    T i (courseRow T hi a (i + 1)) (courseRow T hi a (i + 2)) := by
  obtain ⟨n, rfl⟩ : ∃ n : Nat, i = hi - n := ⟨(hi - i).toNat, by omega⟩
  have hrow : courseRow T hi a (hi - n) = (courseRows T hi a (n + 1)).1 := by
    rw [← courseRow_sub]
    congr 1
    push_cast
    ring
  have hnear : courseRow T hi a (hi - n + 1) = (courseRows T hi a n).1 := by
    rw [← courseRow_sub]
    congr 1
    ring
  have hnearer : courseRow T hi a (hi - n + 2) = (courseRows T hi a n).2 := by
    cases n with
    | zero =>
        rw [Int.natCast_zero, sub_zero, courseRow_of_lt (by omega)]
        rfl
    | succ n =>
        rw [show hi - ((n + 1 : Nat) : Int) + 2 = hi + 1 - n by push_cast; ring, courseRow_sub]
        rfl
  rw [hrow, hnear, hnearer]
  rfl

theorem FirstMeets.unique (h : FirstMeets meets hi lo c k) (h' : FirstMeets meets hi lo c k') :
    k = k' := by
  rcases lt_trichotomy k k' with hlt | heq | hlt
  · exact absurd ((h.before k' hlt h'.near).symm.trans h'.met) Bool.noConfusion
  · exact heq
  · exact absurd ((h'.before k hlt h.near).symm.trans h.met) Bool.noConfusion

/-- As far as it has been drawn, the centre line follows its course. -/
theorem Bent.follows (h : Bent meets v hi lo
    (fun g j m => m = T j (g.midline (j + 1)) (g.midline (j + 2))) f g found) {j : Int}
    (hj : found.getD lo < j) : g.midline j = courseRow T hi f.midline j := by
  have hrows : ∀ i, i ≤ hi → ∀ j, i < j → found.getD lo < j →
      g.midline j = courseRow T hi f.midline j := by
    intro i hle
    induction i, hle using Int.leInductionDown with
    | base =>
        intro j hj _
        rw [h.behind j hj, courseRow_of_lt hj]
    | pred i hle ih =>
        intro j hj hlo
        rcases eq_or_ne j i with rfl | hne
        · rw [(h.drawn j hlo hle).1, ih (j + 1) (by omega) (by omega),
            ih (j + 2) (by omega) (by omega), courseRow_step hle]
        · exact ih j (by omega) hlo
  exact hrows (min hi (j - 1)) (min_le_left _ _) j (by omega) hj

/-- A bend whose rows are computed from the two rows before meets the border where its course
does. -/
theorem bendTrace_course {target : Findline1 → Int → Logged Access Int}
    (htarget : ∀ g i, SameEdges f g →
      (target g i).val = T i (g.midline (i + 1)) (g.midline (i + 2))) :
    (∀ k, (bendTrace meets v hi lo target f).val.2 = some k →
      FirstMeets meets hi lo (courseRow T hi f.midline) k) ∧
    ((bendTrace meets v hi lo target f).val.2 = none → ∀ j, lo < j → j ≤ hi →
      meets (courseRow T hi f.midline j) = false) := by
  have hbent : Bent meets v hi lo (fun g j m => m = T j (g.midline (j + 1)) (g.midline (j + 2))) f
      (bendTrace meets v hi lo target f).val.1 (bendTrace meets v hi lo target f).val.2 := by
    refine bendTrace_spec ?_ fun g i _ _ hsame _ => htarget g i hsame
    intro g i j m m' hij hm
    rw [setMid_midline, setMid_midline, if_neg (by omega), if_neg (by omega)]
    exact hm
  generalize (bendTrace meets v hi lo target f).val = drawn at hbent
  have hmiss : ∀ j, drawn.2.getD lo < j → j ≤ hi →
      meets (courseRow T hi f.midline j) = false := by
    intro j hlo hhi
    rw [← hbent.follows hlo]
    exact (hbent.drawn j hlo hhi).2
  constructor
  · intro k hk
    obtain ⟨hlo, hhi, -, m, hm, hmeets⟩ := hbent.met k hk
    rw [hk, Option.getD_some] at hmiss
    have hfollows : ∀ j, k < j → drawn.1.midline j = courseRow T hi f.midline j := fun j hj =>
      hbent.follows (by rw [hk]; exact hj)
    rw [hm, hfollows (k + 1) (by omega), hfollows (k + 2) (by omega)] at hmeets
    exact ⟨hlo, hhi, by rwa [courseRow_step hhi], hmiss⟩
  · intro hnone
    rwa [hnone] at hmiss

theorem bendTrace_eq_some_iff {target : Findline1 → Int → Logged Access Int}
    (htarget : ∀ g i, SameEdges f g →
      (target g i).val = T i (g.midline (i + 1)) (g.midline (i + 2))) :
    (bendTrace meets v hi lo target f).val.2 = some k ↔
      FirstMeets meets hi lo (courseRow T hi f.midline) k := by
  obtain ⟨hmet, hmissed⟩ := bendTrace_course (v := v) (f := f) htarget
  refine ⟨hmet k, fun hk => ?_⟩
  cases hfound : (bendTrace meets v hi lo target f).val.2 with
  | none => exact absurd ((hmissed hfound k hk.far hk.near).symm.trans hk.met) Bool.noConfusion
  | some k' => rw [(hmet k' hfound).unique hk]

theorem bendTrace_eq_none_iff {target : Findline1 → Int → Logged Access Int}
    (htarget : ∀ g i, SameEdges f g →
      (target g i).val = T i (g.midline (i + 1)) (g.midline (i + 2))) :
    (bendTrace meets v hi lo target f).val.2 = none ↔ ∀ j, lo < j → j ≤ hi →
      meets (courseRow T hi f.midline j) = false := by
  obtain ⟨hmet, hmissed⟩ := bendTrace_course (v := v) (f := f) htarget
  refine ⟨hmissed, fun hmiss => ?_⟩
  cases hfound : (bendTrace meets v hi lo target f).val.2 with
  | none => rfl
  | some k =>
      have hk := hmet k hfound
      exact absurd ((hmiss k hk.far hk.near).symm.trans hk.met) Bool.noConfusion

end Course

/-- A block fills from the row where its bend met the border, from the row it was handed if
that is not 0, or else from the far end. -/
theorem bendFill_val (toppoint : Int) : (bendFill meets v hi lo target toppoint f r).val =
    let q := (bendTrace meets v hi lo target f).val.2.getD r
    let q := if q = 0 then toppoint else q
    ((bendTrace meets v hi lo target f).val.1.filled 0 q v, q) := by
  simp only [bendFill, val_bind, val_pure, bend_val, fillBorder_val]

theorem leftBlock_f1 (s : Lines) : (leftBlock hi lo target s).val.f1 =
    (bendFill meetsLeft 0 hi lo target s.f2.toppoint s.f1 s.L).val.1 := rfl

theorem rightBlock_f1 (s : Lines) : (rightBlock hi lo target s).val.f1 =
    (bendFill meetsRight 159 hi lo target s.f2.toppoint s.f1 s.R).val.1 := rfl

end Bend

end SmartCar
