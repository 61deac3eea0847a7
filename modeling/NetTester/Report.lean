import NetTester.Lines
import NetTester.PrintSize

namespace NetTester

namespace Size

/-- `operator/=` on the underlying `uint64_t`. -/
def div (size : Size) (n : Nat) : Size :=
  ⟨size.value / n, size.unitSystem, Nat.lt_of_le_of_lt (Nat.div_le_self _ _) size.bounded⟩

/-- `operator*=` on the underlying `uint64_t`: it wraps. -/
def mul (size : Size) (n : Nat) : Size := ⟨mul64 size.value n, size.unitSystem, mul64_lt _ _⟩

end Size

/-- Of a duration in microseconds. -/
def totalMilliseconds (ticks : Int) : Int := ticks.tdiv 1000

/-- A signed 64-bit operand beside an unsigned one. -/
def toUnsigned64 (n : Int) : Nat := (n % 2 ^ 64).toNat

/-- The duration counts microseconds; `none` is a special value such as `not_a_date_time`. -/
def computeBandwidth (bytesCount : Size) (duration : Option Int) : List Char :=
  match duration with
  | none => "undefined".toList
  | some ticks =>
    if totalMilliseconds ticks = 0 then "undefined".toList
    else
      insertSize ((bytesCount.div (toUnsigned64 (totalMilliseconds ticks))).mul 1000) ++ ['/', 's']

theorem computeBandwidth_some {ticks : Int} (h : totalMilliseconds ticks ≠ 0) (bytesCount : Size) :
    computeBandwidth bytesCount (some ticks) =
      insertSize ((bytesCount.div (toUnsigned64 (totalMilliseconds ticks))).mul 1000) ++
        ['/', 's'] :=
  if_neg h

def statisticsLines (startDate : List Char) (receivedBytesCount : Size)
    (receiveDuration : Option Int) (sentBytesCount : Size) (sendDuration : Option Int) :
    List (List Char) :=
  ["started: ".toList ++ startDate,
    "received_bytes_count: ".toList ++ insertSize receivedBytesCount,
    "receive_bandwidth: ".toList ++ computeBandwidth receivedBytesCount receiveDuration,
    "sent_bytes_count: ".toList ++ insertSize sentBytesCount,
    "send_bandwidth: ".toList ++ computeBandwidth sentBytesCount sendDuration]

/-- `operator<<` of the statistics, with the text of their date. -/
def insertStatistics (startDate : List Char) (receivedBytesCount : Size)
    (receiveDuration : Option Int) (sentBytesCount : Size) (sendDuration : Option Int) :
    List Char :=
  (statisticsLines startDate receivedBytesCount receiveDuration sentBytesCount
    sendDuration).flatMap (· ++ ['\n'])

theorem newline_insertSize (size : Size) : '\n' ∉ insertSize size := by
  intro member
  simpa using mem_insertSize member

theorem newline_computeBandwidth (bytesCount : Size) (duration : Option Int) :
    '\n' ∉ computeBandwidth bytesCount duration := by
  unfold computeBandwidth
  split
  next => decide
  next ticks =>
  split
  next => decide
  next => simp [newline_insertSize]

/-- Every rate of the report stands on a line of its own. -/
theorem lines_insertStatistics {startDate : List Char} (line : '\n' ∉ startDate)
    (receivedBytesCount : Size) (receiveDuration : Option Int) (sentBytesCount : Size)
    (sendDuration : Option Int) :
    lines '\n' (insertStatistics startDate receivedBytesCount receiveDuration sentBytesCount
        sendDuration) =
      statisticsLines startDate receivedBytesCount receiveDuration sentBytesCount
        sendDuration := by
  apply lines_flatMap
  simp [statisticsLines, line, newline_insertSize, newline_computeBandwidth]

/-- Within one byte a second below the average. -/
def RateWithinOne (n ms printed : Nat) : Prop :=
  ∃ r : ℤ, (printed : ℤ) = 8 * r ∧ (r : ℚ) ≤ 1000 * n / ms ∧ (1000 * n / ms : ℚ) < r + 1

theorem rateWithinOne_iff {n ms printed : Nat} :
    RateWithinOne n ms printed ↔ printed = 8 * (1000 * n / ms) := by
  have average : ⌊(1000 * n / ms : ℚ)⌋ = ((1000 * n / ms : Nat) : ℤ) := by
    have floor := Rat.floor_natCast_div_natCast (1000 * n) ms
    push_cast at floor ⊢
    exact floor
  unfold RateWithinOne
  simp only [← Int.floor_eq_iff, average]
  constructor
  · rintro ⟨r, same, rfl⟩
    omega
  · rintro rfl
    exact ⟨_, by push_cast; rfl, rfl⟩

theorem totalMilliseconds_mul (ms : Nat) : totalMilliseconds (1000 * ms) = ms := by
  exact Int.mul_tdiv_cancel_left _ (by decide)

theorem toUnsigned64_of_lt {n : Nat} (h : n < 2 ^ 64) : toUnsigned64 n = n := by
  unfold toUnsigned64
  omega

/-- What is printed for a whole number of milliseconds. -/
theorem parenthesised_computeBandwidth {bytesCount : Size} {ms : Nat} (positive : 0 < ms)
    (representable : 1000 * ms < 2 ^ 63) :
    parenthesised (computeBandwidth bytesCount (some (1000 * ms))) =
      8000 * (bytesCount.value / ms) % 2 ^ 64 := by
  have small : ms < 2 ^ 64 := by omega
  have nonzero : (ms : Int) ≠ 0 := by omega
  rw [computeBandwidth_some (by rwa [totalMilliseconds_mul]), totalMilliseconds_mul,
    toUnsigned64_of_lt small, parenthesised_insertSize]
  simp only [Size.bits, Size.mul, Size.div, mul64]
  omega

/-- The division comes before the multiplication, so the printed rate is near the average only
where no byte is lost in it and the product fits. -/
theorem computeBandwidth_within_iff (bytesCount : Size) {ms : Nat} (positive : 0 < ms)
    (representable : 1000 * ms < 2 ^ 63) :
    RateWithinOne bytesCount.value ms
        (parenthesised (computeBandwidth bytesCount (some (1000 * ms)))) ↔
      8000 * (bytesCount.value / ms) < 2 ^ 64 ∧ 1000 * (bytesCount.value % ms) < ms := by
  rw [rateWithinOne_iff, parenthesised_computeBandwidth positive representable]
  have split : 1000 * bytesCount.value / ms =
      1000 * (bytesCount.value / ms) + 1000 * (bytesCount.value % ms) / ms := by
    conv_lhs => rw [← Nat.div_add_mod bytesCount.value ms]
    rw [Nat.mul_add, Nat.mul_left_comm, Nat.mul_add_div positive]
  have lost : 1000 * (bytesCount.value % ms) / ms = 0 ↔ 1000 * (bytesCount.value % ms) < ms := by
    rw [Nat.div_eq_zero_iff]
    omega
  have small : 1000 * (bytesCount.value % ms) / ms < 1000 := by
    rw [Nat.div_lt_iff_lt_mul positive]
    have := Nat.mod_lt bytesCount.value positive
    omega
  rw [split, ← lost]
  generalize 1000 * (bytesCount.value % ms) / ms = t at small
  omega

/-- A thousand bytes in a second, and the bits of that rate. -/
theorem computeBandwidth_within_second :
    RateWithinOne 1000 1000
      (parenthesised (computeBandwidth ⟨1000, .iec, by decide⟩ (some (1000 * (1000 : Nat))))) :=
  (computeBandwidth_within_iff ⟨1000, .iec, by decide⟩ (by decide) (by decide)).mpr (by decide)

/-- One byte in two milliseconds is five hundred a second, and printed as none. -/
theorem computeBandwidth_lost_byte : ¬RateWithinOne 1 2
    (parenthesised (computeBandwidth ⟨1, .iec, by decide⟩ (some (1000 * (2 : Nat))))) := by
  rw [rateWithinOne_iff, parenthesised_computeBandwidth (by decide) (by decide)]
  decide

end NetTester
