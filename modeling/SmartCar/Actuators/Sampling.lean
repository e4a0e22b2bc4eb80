import SmartCar.Actuators.Encoder

/-!
# Sequences of measurements

Calls of `encoder_measure_rpm` on an encoder of `encoder_create`, with the ticks
and the pulses between them. Which calls measure depends on their ticks and on
the contents of the fresh memory alone, so the measurements are `sample_time`
apart only as far as the caller keeps its calls apart.
-/

namespace SmartCar

open Imperative Logged

/-! ## Sequences of calls -/

/-- A call, with the ticks and the pulses since the call before. -/
structure EncoderCall where
  elapsed : Nat
  pulses : QtimerPin → Int16

/-- The state in which a call finds encoder and hardware. -/
def Measuring.elapse (clk : PitClock) (c : EncoderCall) (s : Measuring) : Measuring :=
  { s with
    now := s.now + c.elapsed
    hw :=
      { pit := fun ch => (s.hw.pit ch).count (c.elapsed * clk.perTick)
        cntr := fun phaseA => s.hw.cntr phaseA + c.pulses phaseA } }

/-- What a call found, what it left and what it accessed. -/
structure CallRecord where
  before : Measuring
  after : Measuring
  log : List EncoderAccess

def callRecord (clk : PitClock) (s : Measuring) : CallRecord :=
  ⟨s, (encoderMeasureRpm clk s).val.1, (encoderMeasureRpm clk s).log⟩

def callRecords (clk : PitClock) : Measuring → List EncoderCall → List CallRecord
  | _, [] => []
  | s, c :: calls =>
      let r := callRecord clk (s.elapse clk c)
      r :: callRecords clk r.after calls

namespace CallRecord

def tick (r : CallRecord) : Nat := r.before.now

/-- The call read and cleared a pulse counter and restarted a timer channel. -/
def Measures (r : CallRecord) : Prop :=
  ∃ phaseA ch, .qtimerQuadGet phaseA ∈ r.log ∧ .qtimerQuadClear phaseA ∈ r.log ∧
    .pitClose ch ∈ r.log ∧ .pitStart ch ∈ r.log

/-- The call left the counters, the timer and the speed as they were. -/
def Untouched (r : CallRecord) : Prop :=
  r.after.hw = r.before.hw ∧ r.after.encoder.rpm = r.before.encoder.rpm

end CallRecord

/-- Measurements are `sample_time` apart, a call before that changes nothing, and
no call after a measurement divides by 0. -/
structure RateLimited (sampleTime : Int32) (records : List CallRecord) : Prop where
  apart : records.Pairwise fun a b =>
    a.Measures → b.Measures → (a.tick : Int) + sampleTime.toInt ≤ b.tick
  early : records.Pairwise fun a b =>
    a.Measures → (b.tick : Int) < a.tick + sampleTime.toInt → b.Untouched
  divisor : 1 ≤ sampleTime.toInt → records.Pairwise fun a b =>
    a.Measures → ∀ ch ms, .pitGetMs ch ms ∈ b.log → ms ≠ 0

/-- The ticks of the calls. -/
def callTicks : Nat → List EncoderCall → List Nat
  | _, [] => []
  | now, c :: calls => (now + c.elapsed) :: callTicks (now + c.elapsed) calls

/-- Any two ticks at which the gate of `enc` is open are `sample_time` apart. -/
def Encoder.Paced (enc : Encoder) (ticks : List Nat) : Prop :=
  ticks.Pairwise fun t u => ¬ enc.Waits (rtTickGet t) → ¬ enc.Waits (rtTickGet u) →
    (t : Int) + enc.sampleTime.toInt ≤ u

instance (enc : Encoder) (ticks : List Nat) : Decidable (enc.Paced ticks) :=
  inferInstanceAs (Decidable (List.Pairwise _ _))

/-! ## One call -/

section Call

variable {clk : PitClock} {s : Measuring}

/-- A call either measures, with the gate open, or does nothing. -/
theorem callRecord_cases (clk : PitClock) (s : Measuring) :
    ((s.encoder.Waits (rtTickGet s.now) ∨ s.encoder.channel = none) ∧
        callRecord clk s = ⟨s, s, []⟩) ∨
      ∃ sign phaseA ch, ¬ s.encoder.Waits (rtTickGet s.now) ∧ s.encoder.channel = some ch ∧
        callRecord clk s =
          ⟨s, (measureOn clk sign phaseA ch s).val, (measureOn clk sign phaseA ch s).log⟩ := by
  by_cases hwaits : s.encoder.Waits (rtTickGet s.now)
  · left
    refine ⟨.inl hwaits, ?_⟩
    simp only [callRecord, encoderMeasureRpm, if_pos hwaits]
    rfl
  · simp only [callRecord, encoderMeasureRpm, if_neg hwaits, Encoder.channel]
    split
    next hone => exact .inr ⟨-1, .timer0C0, .ch1, hwaits, rfl, rfl⟩
    next hone =>
      split
      next htwo => exact .inr ⟨1, .timer2C2, .ch2, hwaits, rfl, rfl⟩
      next htwo => exact .inl ⟨.inr rfl, rfl⟩

theorem callRecord_now : (callRecord clk s).after.now = s.now := by
  obtain ⟨-, heq⟩ | ⟨sign, phaseA, ch, -, -, heq⟩ := callRecord_cases clk s
  · rw [heq]
  · rw [heq]
    rfl

theorem callRecord_settings : (callRecord clk s).after.encoder.settings = s.encoder.settings := by
  obtain ⟨-, heq⟩ | ⟨sign, phaseA, ch, -, -, heq⟩ := callRecord_cases clk s
  · rw [heq]
  · rw [heq]
    rfl

theorem callRecord_measures : (callRecord clk s).Measures ↔
    s.encoder.channel ≠ none ∧ ¬ s.encoder.Waits (rtTickGet s.now) := by
  obtain ⟨hidle, heq⟩ | ⟨sign, phaseA, ch, hopen, hch, heq⟩ := callRecord_cases clk s
  · rw [heq]
    constructor
    · rintro ⟨phaseA, ch, hget, -⟩
      cases hget
    · rintro ⟨hsome, hopen⟩
      exact absurd hidle (by simp [hsome, hopen])
  · rw [heq]
    refine iff_of_true ⟨phaseA, ch, ?_⟩ ⟨by simp [hch], hopen⟩
    simp [measureOn_spec clk sign phaseA ch s]

/-- A call that does not measure changes nothing and divides by nothing. -/
theorem callRecord_idle (h : ¬ (callRecord clk s).Measures) : callRecord clk s = ⟨s, s, []⟩ := by
  obtain ⟨-, heq⟩ | ⟨sign, phaseA, ch, hopen, hch, -⟩ := callRecord_cases clk s
  · exact heq
  · exact absurd (callRecord_measures.mpr ⟨by simp [hch], hopen⟩) h

end Call

/-! ## The timer between two measurements -/

section Timer

variable {clk : PitClock} {s : Measuring} {ch : PitEnum} {m : Nat}

/-- The channel was restarted at tick `m` and has been counting since. -/
structure CountingSince (clk : PitClock) (ch : PitEnum) (m : Nat) (s : Measuring) : Prop where
  ten : (s.hw.pit ch).ten = true
  le_now : m ≤ s.now
  cval : (s.hw.pit ch).tif = false →
    (s.hw.pit ch).cval.toNat + (s.now - m) * clk.perTick = 2 ^ 32 - 1

theorem CountingSince.elapse (h : CountingSince clk ch m s) (c : EncoderCall) :
    CountingSince clk ch m (s.elapse clk c) where
  ten := by simp [Measuring.elapse, PitChannel.count, h.ten]
  le_now := h.le_now.trans (Nat.le_add_right _ _)
  cval := by
    intro htif
    simp only [Measuring.elapse, PitChannel.count, h.ten, if_true, Bool.or_eq_false_iff,
      decide_eq_false_iff_not, not_lt] at htif ⊢
    have hcval := h.cval htif.1
    -- the counter has not run out, so the subtraction does not wrap
    have hsmall : c.elapsed * clk.perTick < 2 ^ 32 := htif.2.trans_lt (s.hw.pit ch).cval.toNat_lt
    have hcount : (UInt32.ofNat (c.elapsed * clk.perTick)).toNat = c.elapsed * clk.perTick :=
      UInt32.toNat_ofNat_of_lt' hsmall
    rw [UInt32.toNat_sub_of_le _ _ (by rw [UInt32.le_iff_toNat_le, hcount]; exact htif.2), hcount]
    have hsub : s.now + c.elapsed - m = (s.now - m) + c.elapsed := by
      have := h.le_now
      omega
    rw [hsub, Nat.add_mul]
    omega

private theorem toNat_max : (0xFFFFFFFF : UInt32).toNat = 2 ^ 32 - 1 := by decide

/-- The milliseconds since the restart, unless the counter has run out. -/
theorem CountingSince.pitGetMs (h : CountingSince clk ch m s) :
    ((s.hw.pit ch).pitGetMs clk).1 =
      if (s.hw.pit ch).tif then (2 ^ 32 - 1) / clk.perTick else s.now - m := by
  have hclk := clk.perTick_pos
  unfold PitChannel.pitGetMs PitChannel.pitGet PitClock.sourceClock
  split
  next htif =>
    rw [toNat_max, ← Nat.div_div_eq_div_mul, Nat.mul_div_cancel _ (by decide)]
  next htif =>
    have hcval := h.cval (by simpa using htif)
    have hle : (s.hw.pit ch).cval ≤ 0xFFFFFFFF := by
      rw [UInt32.le_iff_toNat_le]
      exact Nat.le_pred_of_lt (s.hw.pit ch).cval.toNat_lt
    have hcount : (0xFFFFFFFF - (s.hw.pit ch).cval).toNat = (s.now - m) * clk.perTick := by
      rw [UInt32.toNat_sub_of_le _ _ hle, toNat_max]
      omega
    rw [hcount, mul_assoc, mul_comm clk.perTick 1000]
    exact Nat.mul_div_cancel _ (by omega)

theorem CountingSince.pitGetMs_ne_zero (h : CountingSince clk ch m s) (hlater : m < s.now) :
    ((s.hw.pit ch).pitGetMs clk).1 ≠ 0 := by
  rw [h.pitGetMs]
  split
  · have hfits := clk.fits
    exact (Nat.div_pos (by omega) clk.perTick_pos).ne'
  · omega

/-- A measurement restarts the channel of its encoder. -/
theorem callRecord_counting (hch : s.encoder.channel = some ch)
    (hmeasures : (callRecord clk s).Measures) :
    CountingSince clk ch s.now (callRecord clk s).after := by
  obtain ⟨hidle, -⟩ | ⟨sign, phaseA, ch', -, hch', heq⟩ := callRecord_cases clk s
  · exact absurd hidle (by simpa [not_or] using (callRecord_measures.mp hmeasures).symm)
  · obtain rfl : ch' = ch := Option.some.inj (hch'.symm.trans hch)
    obtain ⟨-, hnow, -, hpit⟩ := measureOn_spec clk sign phaseA ch' s
    rw [heq]
    constructor
    · rw [hpit]
    · exact hnow.ge
    · intro _
      rw [hpit, hnow, Nat.sub_self, Nat.zero_mul]
      rfl

/-- A call later than the restart of the channel divides by a positive number. -/
theorem CountingSince.divisor (h : CountingSince clk ch m s) (hch : s.encoder.channel = some ch)
    (hlater : (callRecord clk s).Measures → m < s.now) {ch' : PitEnum} {ms : Nat}
    (hms : .pitGetMs ch' ms ∈ (callRecord clk s).log) : ms ≠ 0 := by
  by_cases hmeasures : (callRecord clk s).Measures
  · obtain ⟨-, heq⟩ | ⟨sign, phaseA, ch'', -, hch'', heq⟩ := callRecord_cases clk s
    · rw [heq] at hms
      cases hms
    · obtain rfl : ch'' = ch := Option.some.inj (hch''.symm.trans hch)
      rw [heq, (measureOn_spec clk sign phaseA ch'' s).1] at hms
      obtain ⟨rfl, rfl⟩ : ch' = ch'' ∧ ms = ((s.hw.pit ch'').pitGetMs clk).1 := by
        simpa using hms
      exact h.pitGetMs_ne_zero (hlater hmeasures)
  · rw [callRecord_idle hmeasures] at hms
    cases hms

end Timer

/-! ## Whole sequences -/

section Sequences

variable {clk : PitClock} {s : Measuring} {ch : PitEnum} {m : Nat}

/-- What holds of every single call of an encoder holds of all calls of a sequence. -/
theorem forall_callRecords {P : CallRecord → Prop} (settings : Int32 × Int32 × Int32)
    (hcall : ∀ s, s.encoder.settings = settings → P (callRecord clk s))
    (hs : s.encoder.settings = settings) (calls : List EncoderCall) :
    ∀ r ∈ callRecords clk s calls, P r := by
  induction calls generalizing s with
  | nil => simp [callRecords]
  | cons c calls ih =>
      rw [callRecords, List.forall_mem_cons]
      exact ⟨hcall _ hs, ih (callRecord_settings.trans hs)⟩

theorem map_tick_callRecords (clk : PitClock) (s : Measuring) (calls : List EncoderCall) :
    (callRecords clk s calls).map CallRecord.tick = callTicks s.now calls := by
  induction calls generalizing s with
  | nil => rfl
  | cons c calls ih =>
      rw [callRecords, callTicks, List.map_cons, ih, callRecord_now]
      rfl

/-- The calls that measure are those that find the gate open, a gate that the
calls do not move. -/
theorem measures_iff (clk : PitClock) (s : Measuring) (calls : List EncoderCall) :
    ∀ r ∈ callRecords clk s calls,
      (r.Measures ↔ s.encoder.channel ≠ none ∧ ¬ s.encoder.Waits (rtTickGet r.tick)) := by
  refine forall_callRecords s.encoder.settings (fun t ht => ?_) rfl calls
  rw [callRecord_measures, Encoder.channel_congr ht, Encoder.waits_congr ht]
  rfl

theorem untouched_of_not_measures (calls : List EncoderCall) :
    ∀ r ∈ callRecords clk s calls, ¬ r.Measures → r.Untouched := by
  refine forall_callRecords s.encoder.settings (fun t _ hidle => ?_) rfl calls
  rw [callRecord_idle hidle]
  exact ⟨rfl, rfl⟩

/-- After a restart of its channel an encoder divides by no 0 as long as each
measurement is later than the one before. -/
theorem CountingSince.divisors (h : CountingSince clk ch m s) (hch : s.encoder.channel = some ch)
    {calls : List EncoderCall}
    (hlater : ∀ r ∈ callRecords clk s calls, r.Measures → m < r.tick)
    (happart : (callRecords clk s calls).Pairwise fun a b =>
      a.Measures → b.Measures → a.tick < b.tick) :
    ∀ r ∈ callRecords clk s calls, ∀ ch' ms, .pitGetMs ch' ms ∈ r.log → ms ≠ 0 := by
  induction calls generalizing s m with
  | nil => simp [callRecords]
  | cons c calls ih =>
      rw [callRecords] at hlater happart ⊢
      rw [List.forall_mem_cons] at hlater ⊢
      rw [List.pairwise_cons] at happart
      have hfound : CountingSince clk ch m (s.elapse clk c) := h.elapse c
      have hch' : (callRecord clk (s.elapse clk c)).after.encoder.channel = some ch :=
        (Encoder.channel_congr callRecord_settings).trans hch
      refine ⟨fun ch' ms => hfound.divisor hch hlater.1, ?_⟩
      by_cases hmeasures : (callRecord clk (s.elapse clk c)).Measures
      · exact ih (callRecord_counting hch hmeasures) hch'
          (fun r hr => happart.1 r hr hmeasures) happart.2
      · have hkept : CountingSince clk ch m (callRecord clk (s.elapse clk c)).after := by
          rw [callRecord_idle hmeasures]
          exact hfound
        exact ih hkept hch' hlater.2 happart.2

/-- The same for the calls after each measurement of a sequence. -/
theorem divisors_of_apart {calls : List EncoderCall}
    (happart : (callRecords clk s calls).Pairwise fun a b =>
      a.Measures → b.Measures → a.tick < b.tick) :
    (callRecords clk s calls).Pairwise fun a b =>
      a.Measures → ∀ ch ms, .pitGetMs ch ms ∈ b.log → ms ≠ 0 := by
  induction calls generalizing s with
  | nil => simp [callRecords]
  | cons c calls ih =>
      rw [callRecords] at happart ⊢
      rw [List.pairwise_cons] at happart ⊢
      refine ⟨fun r hr hmeasures => ?_, ih happart.2⟩
      obtain ⟨ch, hch⟩ := Option.ne_none_iff_exists'.mp (callRecord_measures.mp hmeasures).1
      exact (callRecord_counting hch hmeasures).divisors
        ((Encoder.channel_congr callRecord_settings).trans hch)
        (fun r hr => happart.1 r hr hmeasures) happart.2 r hr

/-- Measurements are apart exactly if the caller keeps apart the calls that the
gate lets pass. -/
theorem apart_iff (clk : PitClock) (s : Measuring) (calls : List EncoderCall) :
    ((callRecords clk s calls).Pairwise fun a b => a.Measures → b.Measures →
        (a.tick : Int) + s.encoder.sampleTime.toInt ≤ b.tick) ↔
      s.encoder.channel = none ∨ s.encoder.Paced (callTicks s.now calls) := by
  have hiff := measures_iff clk s calls
  cases hch : s.encoder.channel with
  | none =>
      refine iff_of_true (List.Pairwise.imp_of_mem ?_ (List.pairwise_of_forall fun _ _ => trivial))
        (.inl rfl)
      exact fun ha _ _ hmeasures => absurd ((hiff _ ha).mp hmeasures).1 (by simp [hch])
  | some ch =>
      rw [Encoder.Paced, ← map_tick_callRecords clk, List.pairwise_map]
      have hopen : ∀ r ∈ callRecords clk s calls,
          (r.Measures ↔ ¬ s.encoder.Waits (rtTickGet r.tick)) := by
        intro r hr
        rw [hiff r hr, hch]
        simp
      simp only [reduceCtorEq, false_or]
      refine List.Pairwise.iff_of_mem fun ha hb => ?_
      rw [hopen _ ha, hopen _ hb]

/-- Measurements that are apart leave everything as it is in between. -/
theorem rateLimited_of_apart {calls : List EncoderCall} {sampleTime : Int32}
    (happart : (callRecords clk s calls).Pairwise fun a b => a.Measures → b.Measures →
      (a.tick : Int) + sampleTime.toInt ≤ b.tick) :
    RateLimited sampleTime (callRecords clk s calls) where
  apart := happart
  early := by
    refine List.Pairwise.imp_of_mem ?_ happart
    intro a b _ hb hgap hmeasures hearly
    refine untouched_of_not_measures calls b hb fun hb' => ?_
    exact absurd (hgap hmeasures hb') hearly.not_ge
  divisor := by
    intro hsample
    refine divisors_of_apart (happart.imp fun hgap ha hb => ?_)
    have hle := hgap ha hb
    omega

end Sequences

/-! ## Rate limits -/

/-- For an encoder that `encoder_create` returns, whatever was in its memory: the
calls are rate limited exactly if it has no counter or the caller keeps
`sample_time` ticks between any two calls outside the fixed window of its gate. -/
theorem encoder_rateLimited_iff (clk : PitClock) (fresh : Encoder) (index sampleTime : Int32)
    (now : Nat) (hw : EncoderHw) (calls : List EncoderCall) :
    RateLimited sampleTime
        (callRecords clk (encoderCreate fresh index sampleTime now hw) calls) ↔
      (index ≠ 1 ∧ index ≠ 2) ∨
        (encoderCreate fresh index sampleTime now hw).encoder.Paced (callTicks now calls) := by
  have happart := apart_iff clk (encoderCreate fresh index sampleTime now hw) calls
  rw [Encoder.channel_eq_none] at happart
  exact ⟨fun h => happart.mp h.apart, fun h => rateLimited_of_apart (happart.mpr h)⟩

def busClock : PitClock := ⟨75000, by decide, by decide⟩

def zeroedEncoder : Encoder := ⟨0, some 0, 0, 0⟩

def stoppedHw : EncoderHw := ⟨fun _ => ⟨false, 0xFFFFFFFF, false⟩, fun _ => 0⟩

/-- An encoder for samples of 30 ms, created on zeroed memory at tick 1000, that
is read twice at tick 1100. -/
theorem readTwice_not_limited : ¬ RateLimited 30
    (callRecords busClock (encoderCreate zeroedEncoder 1 30 1000 stoppedHw)
      [⟨100, fun _ => 0⟩, ⟨0, fun _ => 0⟩]) := by
  intro h
  have hpaced := (apart_iff _ (encoderCreate zeroedEncoder 1 30 1000 stoppedHw) _).mp h.apart
  revert hpaced
  decide

/-- Whatever the fresh memory holds, two calls at one tick outside the window
both measure. -/
theorem encoder_unlimited (clk : PitClock) (fresh : Encoder) {index sampleTime : Int32}
    (now : Nat) (hw : EncoderHw) (hindex : index = 1 ∨ index = 2) (hsample : 0 < sampleTime) :
    ∃ calls, ¬ RateLimited sampleTime
      (callRecords clk (encoderCreate fresh index sampleTime now hw) calls) := by
  set s := encoderCreate fresh index sampleTime now hw
  -- the tick right after the window
  let wait := (fresh.lastTime.toUInt32 + sampleTime.toUInt32 - rtTickGet now).toNat
  have hopen : ¬ s.encoder.Waits (rtTickGet (now + wait)) := by
    rw [Encoder.waits_iff (Int32.le_of_lt hsample)]
    have htick : rtTickGet (now + wait) = fresh.lastTime.toUInt32 + sampleTime.toUInt32 := by
      rw [rtTickGet, UInt32.ofNat_add, UInt32.ofNat_toNat, ← rtTickGet, UInt32.add_comm]
      exact UInt32.sub_add_cancel _ _
    change ¬ rtTickGet (now + wait) - fresh.lastTime.toUInt32 < sampleTime.toUInt32
    rw [htick, UInt32.add_comm, UInt32.add_sub_cancel]
    exact UInt32.lt_irrefl _
  refine ⟨[⟨wait, fun _ => 0⟩, ⟨0, fun _ => 0⟩], fun h => ?_⟩
  obtain hnone | hpaced := (apart_iff clk s _).mp h.apart
  · obtain ⟨hone, htwo⟩ := Encoder.channel_eq_none.mp hnone
    exact hindex.elim hone htwo
  · have hgap := (List.pairwise_pair.mp hpaced) hopen hopen
    have hpos : 0 < sampleTime.toInt := Int32.lt_iff_toInt_lt.mp hsample
    change ((now + wait : Nat) : Int) + sampleTime.toInt ≤ (now + wait + 0 : Nat) at hgap
    omega

section Delay

variable {gap now : Nat} {calls : List EncoderCall}

theorem le_of_mem_callTicks (hgap : ∀ c ∈ calls, gap ≤ c.elapsed) :
    ∀ t ∈ callTicks now calls, now + gap ≤ t := by
  induction calls generalizing now with
  | nil => simp [callTicks]
  | cons c calls ih =>
      rw [List.forall_mem_cons] at hgap
      rw [callTicks, List.forall_mem_cons]
      refine ⟨Nat.add_le_add_left hgap.1 now, fun t ht => ?_⟩
      exact (Nat.add_le_add_right (Nat.le_add_right _ _) _).trans (ih hgap.2 t ht)

/-- Calls that each wait `gap` ticks are pairwise `gap` ticks apart. -/
theorem pairwise_callTicks (hgap : ∀ c ∈ calls, gap ≤ c.elapsed) :
    (now :: callTicks now calls).Pairwise fun t u => t + gap ≤ u := by
  induction calls generalizing now with
  | nil => simp [callTicks]
  | cons c calls ih =>
      rw [List.pairwise_cons]
      exact ⟨le_of_mem_callTicks hgap, ih (List.forall_mem_cons.mp hgap).2⟩

end Delay

/-- A caller that waits `sample_time` between its calls, as `chassis_thread` does
with its delay of 50 ms and encoders for 30 ms, gets rate-limited measurements. -/
theorem rateLimited_of_delay (clk : PitClock) (s : Measuring) (first : EncoderCall)
    {calls : List EncoderCall}
    (hdelay : ∀ c ∈ calls, s.encoder.sampleTime.toInt ≤ c.elapsed) :
    RateLimited s.encoder.sampleTime (callRecords clk s (first :: calls)) := by
  refine rateLimited_of_apart ((apart_iff clk s _).mpr (.inr ?_))
  have hgap : ∀ c ∈ calls, s.encoder.sampleTime.toInt.toNat ≤ c.elapsed := by
    intro c hc
    have := hdelay c hc
    omega
  refine (pairwise_callTicks hgap).imp fun hle _ _ => ?_
  omega

end SmartCar
