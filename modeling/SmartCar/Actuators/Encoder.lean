import Mathlib.Algebra.Order.Ring.Rat
import Mathlib.Data.List.Pairwise
import Mathlib.Logic.Function.Basic
import SmartCar.Imperative.Logged

/-!
# Measuring the speed of a wheel

`encoder.c` with what it calls of `clock.c` and `zf_pit.c`. A measurement is
meant to wait until `sample_time` ticks have passed since the last one. But
`last_time` is set nowhere: `encoder_create` leaves in it what `rt_malloc` found
in memory, and `encoder_measure_rpm` only reads it. The gate is therefore closed
during one fixed window of ticks and open at every other tick, whatever has been
measured before.
-/

namespace SmartCar

open Imperative Logged

/-! ## The tick and the timer -/

/-- `rt_tick_get` when `now` ticks have passed since the start. -/
def rtTickGet (now : Nat) : UInt32 := UInt32.ofNat now

/-- `RT_TICK_PER_SECOND` is 1000. -/
def rtTickFromMillisecond (ms : Int32) : UInt32 :=
  if ms < 0 then 0xFFFFFFFF
  else (1000 * (ms / 1000)).toUInt32 + ((1000 * (ms % 1000) + 999) / 1000).toUInt32

/-- A clock of the periodic interrupt timer that counts the same time as the
tick: a whole number of counts passes in each tick. -/
structure PitClock where
  perTick : Nat
  perTick_pos : 0 < perTick
  fits : 1000 * perTick < 2 ^ 32

/-- `PIT_SOURCE_CLOCK` in hertz. -/
def PitClock.sourceClock (clk : PitClock) : Nat := 1000 * clk.perTick

/-- The registers of a channel with the period that `pit_start` sets: the enable
bit, the counter, which runs down from `0xFFFFFFFF`, and the flag of an expired
period. -/
structure PitChannel where
  ten : Bool
  cval : UInt32
  tif : Bool
deriving DecidableEq

namespace PitChannel

/-- The channel after `n` counts of its clock. -/
def count (n : Nat) (ch : PitChannel) : PitChannel :=
  if ch.ten then { ch with cval := ch.cval - UInt32.ofNat n, tif := ch.tif || ch.cval.toNat < n }
  else ch

/-- `pit_start`; enabling a channel that runs already does not reload its counter. -/
def pitStart (ch : PitChannel) : PitChannel :=
  if ch.ten then ch else { ch with ten := true, cval := 0xFFFFFFFF }

def pitClose (ch : PitChannel) : PitChannel := { ch with ten := false, tif := false }

def pitGet (ch : PitChannel) : UInt32 × PitChannel :=
  if ch.tif then (0xFFFFFFFF, { ch with tif := false }) else (0xFFFFFFFF - ch.cval, ch)

def pitGetMs (clk : PitClock) (ch : PitChannel) : Nat × PitChannel :=
  (ch.pitGet.1.toNat * 1000 / clk.sourceClock, ch.pitGet.2)

end PitChannel

/-! ## The encoder -/

/-- The channels that `encoder.c` uses. -/
inductive PitEnum where
  | ch1
  | ch2
deriving DecidableEq

/-- The counters that `encoder.c` uses, by the pin of phase A. -/
inductive QtimerPin where
  | timer0C0
  | timer2C2
deriving DecidableEq

structure Encoder where
  index : Int32
  /-- `none` is not a finite number. -/
  rpm : Option ℚ
  sampleTime : Int32
  lastTime : Int32

/-- The timer channels and the pulse counters. -/
structure EncoderHw where
  pit : PitEnum → PitChannel
  cntr : QtimerPin → Int16

/-- An encoder and its hardware after `now` ticks. -/
structure Measuring where
  now : Nat
  encoder : Encoder
  hw : EncoderHw

inductive EncoderAccess where
  | qtimerQuadGet (phaseA : QtimerPin)
  | qtimerQuadClear (phaseA : QtimerPin)
  | pitGetMs (ch : PitEnum) (ms : Nat)
  | pitClose (ch : PitEnum)
  | pitStart (ch : PitEnum)
deriving DecidableEq

def EncoderHw.pitStart (ch : PitEnum) (hw : EncoderHw) : EncoderHw :=
  { hw with pit := Function.update hw.pit ch (hw.pit ch).pitStart }

/-- `encoder_create` on the memory that `rt_malloc` returns. `qtimer_quad_init`
sets how a counter counts and leaves its value. -/
def encoderCreate (fresh : Encoder) (index sampleTime : Int32) (now : Nat) (hw : EncoderHw) :
    Measuring :=
  let hw := (hw.pitStart .ch1).pitStart .ch2
  { now
    encoder := { fresh with index, sampleTime, rpm := some 0 }
    hw := if index = 1 then hw.pitStart .ch1 else if index = 2 then hw.pitStart .ch2 else hw }

/-- `PULSE_REVOL` -/
def pulseRevol : Int := 512 * 68 / 30

/-- The assignment to `rpm` with the signed number of pulses. -/
def rpmOf (pulses : ℚ) (ms : Nat) : Option ℚ :=
  if ms = 0 then none else some (pulses * 1000 * 60 / ms / pulseRevol)

/-- The gate at the head of `encoder_measure_rpm`. -/
def Encoder.Waits (enc : Encoder) (tick : UInt32) : Prop :=
  tick - enc.lastTime.toUInt32 < rtTickFromMillisecond enc.sampleTime

instance (enc : Encoder) (tick : UInt32) : Decidable (enc.Waits tick) :=
  inferInstanceAs (Decidable (_ < _))

/-- A case of the switch in `encoder_measure_rpm`. -/
def measureOn (clk : PitClock) (sign : ℚ) (phaseA : QtimerPin) (ch : PitEnum) (s : Measuring) :
    Logged EncoderAccess Measuring := do
  let pulses ← read (.qtimerQuadGet phaseA) (s.hw.cntr phaseA)
  touch (.qtimerQuadClear phaseA)
  let (ms, channel) := (s.hw.pit ch).pitGetMs clk
  touch (.pitGetMs ch ms)
  touch (.pitClose ch)
  touch (.pitStart ch)
  return { s with
    encoder := { s.encoder with rpm := rpmOf (sign * pulses.toInt) ms }
    hw :=
      { pit := Function.update s.hw.pit ch channel.pitClose.pitStart
        cntr := Function.update s.hw.cntr phaseA 0 } }

/-- `encoder_measure_rpm` and the speed that it returns, `RT_EOK` if it waits. -/
def encoderMeasureRpm (clk : PitClock) (s : Measuring) :
    Logged EncoderAccess (Measuring × Option ℚ) :=
  if s.encoder.Waits (rtTickGet s.now) then
    return (s, some 0)
  else do
    let s ←
      if s.encoder.index = 1 then measureOn clk (-1) .timer0C0 .ch1 s
      else if s.encoder.index = 2 then measureOn clk 1 .timer2C2 .ch2 s
      else pure s
    return (s, s.encoder.rpm)

/-! ## The gate -/

/-- With a tick of one millisecond the conversion changes nothing. -/
theorem rtTickFromMillisecond_eq {ms : Int32} (h : 0 ≤ ms) :
    rtTickFromMillisecond ms = ms.toUInt32 := by
  have hms : 0 ≤ ms.toInt := Int32.le_iff_toInt_le.mp h
  have hlt := ms.toInt_lt
  rw [rtTickFromMillisecond, if_neg (Int32.not_lt.mpr h), ← Int32.toUInt32_add]
  congr 1
  apply Int32.toInt_inj.mp
  have hdiv : (ms / 1000).toInt = ms.toInt / 1000 := by
    rw [Int32.toInt_div_of_ne_right _ _ (by decide)]
    exact Int.tdiv_eq_ediv_of_nonneg hms
  have hmod : (ms % 1000).toInt = ms.toInt % 1000 := by
    rw [Int32.toInt_mod]
    exact Int.tmod_eq_emod_of_nonneg hms
  have hceil : ((1000 * (ms % 1000) + 999) / 1000).toInt = ms.toInt % 1000 := by
    rw [Int32.toInt_div_of_ne_right _ _ (by decide), Int32.toInt_add, Int32.toInt_mul, hmod]
    change ((((1000 : Int) * (ms.toInt % 1000)).bmod (2 ^ 32) + 999).bmod (2 ^ 32)).tdiv 1000 = _
    rw [Int.bmod_eq_of_le (n := 1000 * (ms.toInt % 1000)) (by omega) (by omega),
      Int.bmod_eq_of_le (by omega) (by omega), Int.tdiv_eq_ediv_of_nonneg (by omega)]
    omega
  rw [Int32.toInt_add, Int32.toInt_mul, hdiv, hceil]
  change (((1000 : Int) * (ms.toInt / 1000)).bmod (2 ^ 32) + ms.toInt % 1000).bmod (2 ^ 32) = _
  rw [Int.bmod_eq_of_le (n := 1000 * (ms.toInt / 1000)) (by omega) (by omega),
    Int.bmod_eq_of_le (by omega) (by omega)]
  omega

/-- The gate is closed for `sample_time` ticks from `last_time` on. -/
theorem Encoder.waits_iff {enc : Encoder} (h : 0 ≤ enc.sampleTime) (tick : UInt32) :
    enc.Waits tick ↔ tick - enc.lastTime.toUInt32 < enc.sampleTime.toUInt32 := by
  rw [Waits, rtTickFromMillisecond_eq h]

namespace Encoder

/-- What `encoder_create` leaves in an encoder for good. -/
def settings (enc : Encoder) : Int32 × Int32 × Int32 := (enc.index, enc.sampleTime, enc.lastTime)

/-- The timer channel of an encoder that has one. -/
def channel (enc : Encoder) : Option PitEnum :=
  if enc.index = 1 then some .ch1 else if enc.index = 2 then some .ch2 else none

theorem channel_eq_none {enc : Encoder} : enc.channel = none ↔ enc.index ≠ 1 ∧ enc.index ≠ 2 := by
  unfold channel
  grind

theorem waits_congr {enc enc' : Encoder} (h : enc.settings = enc'.settings) (tick : UInt32) :
    enc.Waits tick ↔ enc'.Waits tick := by
  simp only [settings, Prod.mk.injEq] at h
  simp [Waits, h]

theorem channel_congr {enc enc' : Encoder} (h : enc.settings = enc'.settings) :
    enc.channel = enc'.channel := by
  simp only [settings, Prod.mk.injEq] at h
  simp [channel, h]

end Encoder

/-- A measurement as the accesses that it makes and the state that it leaves. -/
theorem measureOn_spec (clk : PitClock) (sign : ℚ) (phaseA : QtimerPin) (ch : PitEnum)
    (s : Measuring) :
    (measureOn clk sign phaseA ch s).log =
        [.qtimerQuadGet phaseA, .qtimerQuadClear phaseA,
          .pitGetMs ch ((s.hw.pit ch).pitGetMs clk).1, .pitClose ch, .pitStart ch] ∧
      (measureOn clk sign phaseA ch s).val.now = s.now ∧
      (measureOn clk sign phaseA ch s).val.encoder.settings = s.encoder.settings ∧
      (measureOn clk sign phaseA ch s).val.hw.pit ch = ⟨true, 0xFFFFFFFF, false⟩ := by
  refine ⟨rfl, rfl, rfl, ?_⟩
  exact Function.update_self ..

end SmartCar
