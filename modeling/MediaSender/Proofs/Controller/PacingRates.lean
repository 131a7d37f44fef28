import MediaSender.Proofs.Guarded.Saturation
import MediaSender.Transport.Update

/-! # Rates of a pacing budget

A budget keeps bytes over a time window in place of rates.  The bytes are rounded to the nearest
one, and the rates that they stand for are truncated to whole bits per second.

* **Bytes.** What a rate carries in the window is off by half a byte at most
  (`DataRate.during_bounds`), and never too large for a word if the window has at most four seconds.
* **Rate.** The bytes give the rate back but for half a byte over the window, and for the bit that
  truncation may cost (`DataRate.abs_over_during_sub_le`).
* **Again.** Truncation costs less than a bit per second, which is half a byte in four seconds.  So
  up to there the rate that is given back carries the same bytes (`DataRate.during_over_during`). -/

namespace MediaSender

theorem roundToBytes_bounds {n : ℤ} (hn : 0 ≤ n) :
    roundToBytes n * 8000000 ≤ n + 4000000 ∧ n - 4000000 < roundToBytes n * 8000000 := by
  rw [roundToBytes, if_pos hn, Int.tdiv_eq_ediv_of_nonneg (by omega)]
  omega

namespace DataRate

section window

variable {r : DataRate} {window : TimeDelta}

theorem isFinite_window (hw : 0 < window) (hw' : window.raw ≤ 4000000) :
    window.isFinite = true := by
  have hw₀ : 0 < window.raw := hw
  rw [Quantity.isFinite_iff]
  omega

variable (hr : 0 ≤ r) (hr' : r.isFinite = true) (hw : 0 < window) (hw' : window.raw ≤ 4000000)

include hr hr' hw hw'

/-- What a rate carries is off by half a byte at most. -/
theorem during_bounds :
    (r.during window).isFinite = true ∧ 0 ≤ (r.during window).raw ∧
      (r.during window).raw * 8000000 ≤ r.raw * window.raw + 4000000 ∧
      r.raw * window.raw - 4000000 < (r.during window).raw * 8000000 := by
  have hr₀ : 0 ≤ r.raw := hr
  have hw₀ : 0 < window.raw := hw
  have hexact := saturates_during hr' (isFinite_window hw hw')
  rw [← Int.cast_mul, roundAway_div] at hexact
  have hprod : 0 ≤ r.raw * window.raw := mul_nonneg hr₀ hw₀.le
  obtain ⟨hupper, hlower⟩ := roundToBytes_bounds hprod
  -- in four seconds two bits per second make a byte
  have hfour : r.raw * window.raw ≤ r.raw * 4000000 := mul_le_mul_of_nonneg_left hw' hr₀
  have hr₁ := r.upper
  obtain ⟨hfinite, hraw⟩ := hexact.raw_eq (by omega) (by omega)
  rw [hraw]
  exact ⟨hfinite, by omega, hupper, hlower⟩

variable (hback : ((r.during window).over window).isFinite = true)

include hback

/-- The rate that the bytes stand for, truncated. -/
theorem over_during_bounds :
    ((r.during window).over window).raw * window.raw ≤ (r.during window).raw * 8000000 ∧
      (r.during window).raw * 8000000 <
        (((r.during window).over window).raw + 1) * window.raw := by
  have hw₀ : 0 < window.raw := hw
  obtain ⟨hfinite, hnonneg, -⟩ := during_bounds hr hr' hw hw'
  have hexact := DataSize.saturates_over hfinite (isFinite_window hw hw') hw₀.ne'
  rw [hexact.exact hback, DataSize.truncate_div, Int.tdiv_eq_ediv_of_nonneg (by omega)]
  exact ⟨Int.ediv_mul_le _ hw₀.ne', Int.lt_ediv_add_one_mul_self _ hw₀⟩

/-- The bytes give the rate back, but for half a byte over the window and the bit that truncation
may cost. -/
theorem abs_over_during_sub_le :
    |((r.during window).over window).raw - r.raw| ≤ ⌈(4000000 : ℚ) / window.raw⌉ := by
  have hw₀ : (0 : ℚ) < window.raw := Int.cast_pos.mpr hw
  obtain ⟨-, -, hupper, hlower⟩ := during_bounds hr hr' hw hw'
  obtain ⟨hupper', hlower'⟩ := over_during_bounds hr hr' hw hw' hback
  generalize ((r.during window).over window).raw = back at hupper' hlower' ⊢
  have hceil := Int.le_ceil ((4000000 : ℚ) / window.raw)
  rw [abs_le]
  constructor
  · have hless : ((r.raw - back - 1 : ℤ) : ℚ) < 4000000 / window.raw := by
      rw [lt_div_iff₀ hw₀]
      exact_mod_cast (by linarith : (r.raw - back - 1) * window.raw < 4000000)
    have hlt := Int.cast_lt.mp (hless.trans_le hceil)
    omega
  · have hmore : ((back - r.raw : ℤ) : ℚ) ≤ 4000000 / window.raw := by
      rw [le_div_iff₀ hw₀]
      exact_mod_cast (by linarith : (back - r.raw) * window.raw ≤ 4000000)
    exact Int.cast_le.mp (hmore.trans hceil)

/-- The rate that is given back carries the same bytes. -/
theorem during_over_during :
    ((r.during window).over window).during window = r.during window := by
  have hw₀ : 0 < window.raw := hw
  obtain ⟨-, hbytes, -⟩ := during_bounds hr hr' hw hw'
  obtain ⟨hupper, hlower⟩ := over_during_bounds hr hr' hw hw' hback
  have hnonneg : 0 ≤ (r.during window).over window := by
    have hprod : 0 < (((r.during window).over window).raw + 1) * window.raw := by omega
    exact Int.lt_add_one_iff.mp (pos_of_mul_pos_left hprod hw₀.le)
  obtain ⟨-, -, hupper', hlower'⟩ := during_bounds hnonneg hback hw hw'
  rw [add_one_mul] at hlower
  apply Quantity.ext
  omega

end window

end DataRate

namespace PacerBudget

/-- **A budget keeps its rates.**  For a window of at most four seconds and rates that are not
negative and not too large for a word, the rates that a budget reports are off by half a byte over
the window at most, in whole bits per second.  A budget made of the rates that it reports is the
same, up to its time. -/
theorem ofRates_keeps_rates (atTime atTime' : Timestamp) {data pad : DataRate}
    {window : TimeDelta} (hw : 0 < window) (hw' : window.raw ≤ 4000000)
    (hd : 0 ≤ data) (hd' : data.isFinite = true) (hp : 0 ≤ pad) (hp' : pad.isFinite = true)
    (hdata : (ofRates atTime data pad window).dataRate.isFinite = true)
    (hpad : (ofRates atTime data pad window).padRate.isFinite = true) :
    let b := ofRates atTime data pad window
    |b.dataRate.raw - data.raw| ≤ ⌈(4000000 : ℚ) / window.raw⌉ ∧
      |b.padRate.raw - pad.raw| ≤ ⌈(4000000 : ℚ) / window.raw⌉ ∧
      ofRates atTime' b.dataRate b.padRate b.timeWindow = { b with atTime := atTime' } := by
  have hdataWindow := DataRate.during_over_during hd hd' hw hw' hdata
  have hpadWindow := DataRate.during_over_during hp hp' hw hw' hpad
  refine ⟨DataRate.abs_over_during_sub_le hd hd' hw hw' hdata,
    DataRate.abs_over_during_sub_le hp hp' hw hw' hpad, ?_⟩
  unfold ofRates dataRate padRate
  rw [hdataWindow, hpadWindow]

/-- In four seconds 450001 bits per second make 225000 bytes and a half, so the budget reports one
bit per second more, which is as far off as it may be. -/
theorem ofRates_keeps_rates_of_half_byte :
    let b := ofRates 0 (.ofInt 450001) (.ofInt 3) (.ofSeconds 4)
    |b.dataRate.raw - 450001| = ⌈(4000000 : ℚ) / 4000000⌉ ∧
      |b.padRate.raw - 3| ≤ ⌈(4000000 : ℚ) / 4000000⌉ ∧
      ofRates .plusInfinity b.dataRate b.padRate b.timeWindow =
        { b with atTime := .plusInfinity } := by
  obtain ⟨-, hpad, hagain⟩ := ofRates_keeps_rates 0 .plusInfinity
    (by decide : 0 < TimeDelta.ofSeconds 4) (by decide)
    (by decide : 0 ≤ (.ofInt 450001 : DataRate)) (by decide)
    (by decide : 0 ≤ (.ofInt 3 : DataRate)) (by decide) (by decide) (by decide)
  refine ⟨?_, hpad, hagain⟩
  rw [div_self (by norm_num), Int.ceil_one]
  decide

end PacerBudget

end MediaSender
