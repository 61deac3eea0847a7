import NetTester.Regex
import NetTester.Size
import NetTester.Token

namespace NetTester

def decimalValue (digits : List Char) : Nat :=
  digits.foldl (fun n c => 10 * n + (c.toNat - 48)) 0

theorem decimalValue_toDigits (n : Nat) : decimalValue (Nat.toDigits 10 n) = n := by
  have value := Nat.ofDigitChars_ten_toDigits (n := n)
  rwa [Nat.ofDigitChars_eq_foldl] at value

theorem isDigit_of_mem_toDigits {n : Nat} : ∀ c ∈ Nat.toDigits 10 n, c.isDigit = true :=
  fun _ member => Nat.isDigit_of_mem_toDigits (by decide) (by decide) member

/-- `std::atoll` of a text of digits: it saturates. -/
def atoll (digits : List Char) : Nat := min (decimalValue digits) (2 ^ 63 - 1)

/-- `uint64_t` multiplication: it wraps. -/
def mul64 (a b : Nat) : Nat := a * b % 2 ^ 64

theorem mul64_lt (a b : Nat) : mul64 a b < 2 ^ 64 := Nat.mod_lt _ (by decide)

/-- `(\d+)\s*(scale)?(unit)`. -/
def sizeRegex (scale unit : Regex) : Regex :=
  .seq (.group 1 (Regex.plus (.char Char.isDigit)))
    (.seq (.many (.char isSpace)) (.seq (.opt (.group 2 scale)) (.group 3 unit)))

def iecLetters : List Char := ['K', 'M', 'G', 'T', 'P', 'E']

def siLetters : List Char := ['k', 'K', 'M', 'G', 'T', 'P', 'E']

def regexIec : Regex :=
  sizeRegex (.seq (.char iecLetters.contains) (.char (· == 'i')))
    (.alt (Regex.literal 'B' []) (Regex.literal 'b' ['i', 't']))

def regexSi : Regex :=
  sizeRegex (.char siLetters.contains)
    (.alt (Regex.literal 'B' []) (.alt (Regex.literal 'b' []) (Regex.literal 'b' ['i', 't'])))

/-- The labels of the `switch` over the scale, in their order. -/
def switchLabels : List (List Char) := [['E'], ['P'], ['T'], ['G'], ['M'], ['K', 'k']]

/-- No case of the `switch` ends with a `break`. -/
def multiplyFrom (factor : Nat) (letter : Char) (size : Nat) : Nat :=
  (switchLabels.dropWhile fun labels => !labels.contains letter).foldl
    (fun size _ => mul64 size factor) size

def UnitSystem.factor : UnitSystem → Nat
  | .si => 1000
  | .iec => 1024

def scaleSize (factor : Nat) (scale : Option (List Char)) (size : Nat) : Nat :=
  match scale with
  | some (letter :: _) => multiplyFrom factor letter size
  | _ => size

def parsedValue (factor : Nat) (m : Regex.Captures) : Nat :=
  let size := scaleSize factor (m.lookup 2) (atoll ((m.lookup 1).getD []))
  let unit := (m.lookup 3).getD []
  if unit = ['b', 'i', 't'] ∨ unit = ['b'] then size / 8 else size

theorem atoll_lt (digits : List Char) : atoll digits < 2 ^ 64 := by
  unfold atoll
  omega

theorem multiplyFrom_lt {factor size : Nat} {letter : Char} (h : size < 2 ^ 64) :
    multiplyFrom factor letter size < 2 ^ 64 := by
  unfold multiplyFrom
  induction switchLabels.dropWhile fun labels => !labels.contains letter generalizing size with
  | nil => exact h
  | cons labels others ih => exact ih (mul64_lt size factor)

theorem scaleSize_lt {factor size : Nat} {scale : Option (List Char)} (h : size < 2 ^ 64) :
    scaleSize factor scale size < 2 ^ 64 := by
  unfold scaleSize
  split
  next => exact multiplyFrom_lt h
  next => exact h

theorem parsedValue_lt (factor : Nat) (m : Regex.Captures) : parsedValue factor m < 2 ^ 64 := by
  have scaled : scaleSize factor (m.lookup 2) (atoll ((m.lookup 1).getD [])) < 2 ^ 64 :=
    scaleSize_lt (atoll_lt _)
  simp only [parsedValue]
  split <;> omega

def Size.ofCaptures (unitSystem : UnitSystem) (m : Regex.Captures) : Size :=
  ⟨parsedValue unitSystem.factor m, unitSystem, parsedValue_lt _ _⟩

def sizeError (s : List Char) : String :=
  "size '" ++ String.ofList s ++ "' doesn't match either \\d+\\s*([KMGTPE]i)?(B|bit)" ++
    " nor \\d+\\s*([kKMGTPE])?(B|b|bit)"

def parseSize (s : List Char) : Except String Size :=
  match Regex.regexMatch regexIec s with
  | some m => .ok (Size.ofCaptures .iec m)
  | none =>
    match Regex.regexMatch regexSi s with
    | some m => .ok (Size.ofCaptures .si m)
    | none => .error (sizeError s)

/-- `operator>>`, with what it leaves in the stream. Where no word is left, the stream fails. -/
def extractSize (stream : List Char) : Except String (Option (Size × List Char)) :=
  match token stream with
  | none => .ok none
  | some (s, rest) => (parseSize s).map fun size => some (size, rest)

end NetTester
