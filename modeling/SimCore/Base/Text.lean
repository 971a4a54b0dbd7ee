import Mathlib.Data.Rat.Floor
import Mathlib.Data.List.DropRight
import Mathlib.Algebra.Order.Field.Rat

/-!
# Strings, times and durations

The simulator keys its maps by strings built with `:`, normalises configuration words with
`strings.TrimSpace` and `strings.ToLower`, and measures simulation time in nanoseconds. This file
fixes the corresponding functions on `String`, `Int` and `ℚ`.

Floating-point quantities are exact rationals throughout the development.

## Main definitions

* `trimSpace`, `toLower`, `splitN2`: the string functions of the source
* `Time`, `msToDuration`, `wholeMsToDuration`, `durationToMs`, `secondsToDuration`,
  `durationToSeconds`: simulation time
-/

namespace SimCore

open List

/-! ### Strings -/

/-- White space as `unicode.IsSpace` has it. -/
def isSpace (c : Char) : Bool :=
  let n := c.toNat
  (9 ≤ n && n ≤ 13) || n == 32 || n == 0x85 || n == 0xA0 || n == 0x1680 ||
    (0x2000 ≤ n && n ≤ 0x200a) || n == 0x2028 || n == 0x2029 || n == 0x202f || n == 0x205f ||
    n == 0x3000

/-- `strings.TrimSpace`. -/
def trimSpace (s : String) : String :=
  String.ofList (((s.toList.dropWhile isSpace).reverse.dropWhile isSpace).reverse)

theorem toList_trimSpace (s : String) : (trimSpace s).toList =
    (s.toList.dropWhile isSpace).rdropWhile isSpace := by
  rw [trimSpace, String.toList_ofList, rdropWhile]

/-- White space around a text goes at once. -/
@[simp] theorem trimSpace_trimSpace (s : String) : trimSpace (trimSpace s) = trimSpace s := by
  refine String.toList_injective ?_
  rw [toList_trimSpace, toList_trimSpace]
  generalize s.toList = l
  have hl : ((l.dropWhile isSpace).rdropWhile isSpace).dropWhile isSpace =
      (l.dropWhile isSpace).rdropWhile isSpace := by
    rw [dropWhile_eq_self_iff]
    intro hp
    -- the first character is the one at which the spaces on the left end
    have hpre := rdropWhile_prefix isSpace (l := l.dropWhile isSpace)
    have hne : l.dropWhile isSpace ≠ [] := fun hn => by simp [hn] at hp
    have hh := head_dropWhile_not isSpace hne
    rw [hpre.getElem hp]
    simpa [head_eq_getElem] using hh
  rw [hl, rdropWhile_idempotent]

/-- Only white space is trimmed. -/
theorem mem_trimSpace {c : Char} (hc : isSpace c = false) (s : String) :
    c ∈ (trimSpace s).toList ↔ c ∈ s.toList := by
  have hd : ∀ l : List Char, c ∈ l.dropWhile isSpace ↔ c ∈ l := by
    intro l
    refine ⟨fun h => (dropWhile_sublist _).subset h, fun h => ?_⟩
    rw [← takeWhile_append_dropWhile (p := isSpace) (l := l), mem_append] at h
    refine h.resolve_left fun hm => ?_
    rw [mem_takeWhile_imp hm] at hc
    cases hc
  rw [toList_trimSpace, rdropWhile, mem_reverse, hd, mem_reverse, hd]

/-- `strings.ToLower`, on ASCII letters. -/
def toLower (s : String) : String :=
  String.ofList (s.toList.map Char.toLower)

/-- `strings.ToLower(strings.TrimSpace(s))`, the normal form of kinds, modes and policies. -/
def normWord (s : String) : String :=
  toLower (trimSpace s)

/-- `strings.EqualFold`, on ASCII letters. -/
def equalFold (s t : String) : Bool :=
  toLower s == toLower t

/-- `strings.SplitN(s, sep, 2)`: the parts before and after the first separator, if there is one. -/
def splitN2 (sep : Char) (s : String) : Option (String × String) :=
  if sep ∈ s.toList then
    some (String.ofList (s.toList.takeWhile (· ≠ sep)),
      String.ofList ((s.toList.dropWhile (· ≠ sep)).tail))
  else
    none

/-- `%q` on plain text. -/
def quote (s : String) : String :=
  "\"" ++ s ++ "\""

/-- `strconv.Atoi`: an optional sign and decimal digits, in the range of an `int`. -/
def atoi (s : String) : Option Int :=
  let parse (digits : List Char) (sign : Int) : Option Int :=
    let n := sign * (digits.foldl (fun n c => 10 * n + (c.toNat - 48)) 0 : Nat)
    if digits ≠ [] ∧ digits.all Char.isDigit = true ∧ -2 ^ 63 ≤ n ∧ n < 2 ^ 63 then some n else none
  match s.toList with
  | '-' :: digits => parse digits (-1)
  | '+' :: digits => parse digits 1
  | digits => parse digits 1

/-- `strconv.Itoa` on a non-negative number. -/
def itoa (n : Nat) : String :=
  String.ofList (Nat.toDigits 10 n)

theorem itoa_injective : Function.Injective itoa := by
  intro m n h
  have hd : Nat.toDigits 10 m = Nat.toDigits 10 n := by
    simpa [itoa] using congrArg String.toList h
  rw [← Nat.ofDigitChars_ten_toDigits (n := m), hd, Nat.ofDigitChars_ten_toDigits]

theorem dash_notMem_itoa (n : Nat) : '-' ∉ (itoa n).toList := by
  intro h
  have hd := Nat.isDigit_of_mem_toDigits (by decide) (by decide)
    (by simpa [itoa] using h : '-' ∈ Nat.toDigits 10 n)
  exact absurd hd (by decide)

/-- What follows the last occurrence of an element is determined. -/
theorem suffix_eq_of_append_eq {α : Type*} {a : α} {l₁ l₂ d₁ d₂ : List α} (h₁ : a ∉ d₁)
    (h₂ : a ∉ d₂) (h : l₁ ++ a :: d₁ = l₂ ++ a :: d₂) : d₁ = d₂ := by
  rcases append_eq_append_iff.1 h with ⟨m, hm, hd⟩ | ⟨m, hm, hd⟩
  · cases m with
    | nil => simpa using hd
    | cons =>
      obtain ⟨rfl, ht⟩ := cons.inj (hd.trans (cons_append ..))
      exact (h₁ (by rw [ht]; simp)).elim
  · cases m with
    | nil => simpa using hd.symm
    | cons =>
      obtain ⟨rfl, ht⟩ := cons.inj (hd.trans (cons_append ..))
      exact (h₂ (by rw [ht]; simp)).elim

/-- The number at the end of a name is determined. -/
theorem itoa_eq_of_append_eq {s t w : String} (hw : ∃ l, w.toList = l ++ ['-']) {m n : Nat}
    (h : s ++ w ++ itoa m = t ++ w ++ itoa n) : m = n := by
  obtain ⟨l, hl⟩ := hw
  have hli := congrArg String.toList h
  simp only [String.toList_append, hl, append_assoc, singleton_append] at hli
  rw [← append_assoc, ← append_assoc] at hli
  refine itoa_injective (String.toList_inj.1 ?_)
  exact suffix_eq_of_append_eq (dash_notMem_itoa m) (dash_notMem_itoa n) hli

/-! ### Machine integers -/

/-- The sum or product of two integers of the machine: the last 64 bits, with a sign. -/
def wrapInt64 (n : Int) : Int :=
  (n + 2 ^ 63) % 2 ^ 64 - 2 ^ 63

theorem wrapInt64_of_lt {n : Int} (h0 : 0 ≤ n) (h : n < 2 ^ 63) : wrapInt64 n = n := by
  unfold wrapInt64
  omega

/-- A sum that is too large wraps around to a negative number. -/
theorem wrapInt64_neg {n : Int} (h : 2 ^ 63 ≤ n) (h' : n < 2 ^ 64) : wrapInt64 n < 0 := by
  unfold wrapInt64
  omega

/-- Conversion of a floating-point number to an integer: truncation towards zero. -/
def truncate (q : ℚ) : Int :=
  Int.tdiv q.num q.den

/-- The conversion on the machine: a number out of range becomes the least integer, as on amd64. -/
def toInt64 (q : ℚ) : Int :=
  if -2 ^ 63 ≤ truncate q ∧ truncate q < 2 ^ 63 then truncate q else -2 ^ 63

theorem toInt64_intCast (n : Int) :
    toInt64 n = if -2 ^ 63 ≤ n ∧ n < 2 ^ 63 then n else -2 ^ 63 := by
  simp [toInt64, truncate]

theorem toInt64_lt (q : ℚ) : toInt64 q < 2 ^ 63 := by
  unfold toInt64
  split_ifs <;> omega

theorem toInt64_eq_truncate {q : ℚ} (h : 0 < toInt64 q) : toInt64 q = truncate q := by
  unfold toInt64 at h ⊢
  split_ifs at h ⊢
  · rfl
  · omega

/-! ### Times -/

/-- Simulation time, and durations, in nanoseconds. -/
abbrev Time := Int

/-- Nanoseconds in a millisecond. -/
def millisecond : Int := 1000000

/-- `time.Duration(ms * float64(time.Millisecond))`. -/
def msToDuration (ms : ℚ) : Int :=
  truncate (ms * millisecond)

/-- `time.Duration(ms) * time.Millisecond`: the fraction of a millisecond is lost. -/
def wholeMsToDuration (ms : ℚ) : Int :=
  truncate ms * millisecond

theorem truncate_nonneg {q : ℚ} (hq : 0 ≤ q) : 0 ≤ truncate q := by
  exact Int.tdiv_nonneg (Rat.num_nonneg.2 hq) (Int.natCast_nonneg _)

theorem msToDuration_nonneg {ms : ℚ} (hms : 0 ≤ ms) : 0 ≤ msToDuration ms :=
  truncate_nonneg (mul_nonneg hms (by norm_num [millisecond]))

theorem wholeMsToDuration_nonneg {ms : ℚ} (hms : 0 ≤ ms) : 0 ≤ wholeMsToDuration ms :=
  mul_nonneg (truncate_nonneg hms) (by norm_num [millisecond])

/-- `float64(d.Milliseconds())`. -/
def durationToMs (d : Int) : ℚ :=
  (Int.tdiv d millisecond : Int)

/-- Nanoseconds in a second. -/
def second : Int := 1000000000

/-- `time.Duration(seconds * float64(time.Second))`. -/
def secondsToDuration (seconds : ℚ) : Int :=
  truncate (seconds * second)

/-- `d.Seconds()`. -/
def durationToSeconds (d : Int) : ℚ :=
  d / second

/-- `math.Round`: halves are rounded away from zero. -/
def roundHalfAway (q : ℚ) : Int :=
  if q < 0 then -⌊-q + 1 / 2⌋ else ⌊q + 1 / 2⌋

theorem truncate_eq_floor {q : ℚ} (hq : 0 ≤ q) : truncate q = ⌊q⌋ := by
  rw [truncate, Int.tdiv_eq_ediv_of_nonneg (Rat.num_nonneg.2 hq), Rat.floor_def']

theorem truncate_le_of_pos {q : ℚ} (h : 0 < truncate q) : (truncate q : ℚ) ≤ q := by
  by_cases hq : 0 ≤ q
  · rw [truncate_eq_floor hq]
    exact Int.floor_le q
  · have hn := truncate_nonneg (q := -q) (by linarith)
    have hs : truncate (-q) = -truncate q := by simp [truncate]
    omega

theorem lt_one_of_truncate_nonpos {q : ℚ} (h : truncate q ≤ 0) : q < 1 := by
  by_contra hq
  rw [truncate_eq_floor (by linarith)] at h
  have := Int.le_floor.2 (show ((1 : Int) : ℚ) ≤ q by simpa using hq)
  omega

theorem secondsToDuration_nonneg {x : ℚ} (hx : 0 ≤ x) : 0 ≤ secondsToDuration x :=
  truncate_nonneg (mul_nonneg hx (by norm_num [second]))

@[simp] theorem durationToSeconds_mul_second (d : Int) : durationToSeconds d * second = d := by
  rw [durationToSeconds, div_mul_cancel₀]
  norm_num [second]

theorem durationToSeconds_pos {d : Int} : 0 < durationToSeconds d ↔ 0 < d := by
  have hp : (0 : ℚ) < second := by norm_num [second]
  rw [durationToSeconds, div_pos_iff_of_pos_right hp, Int.cast_pos]

theorem durationToSeconds_nonneg {d : Int} (hd : 0 ≤ d) : 0 ≤ durationToSeconds d := by
  unfold durationToSeconds second
  positivity

theorem durationToSeconds_sub (x y z : Int) :
    durationToSeconds (x - z) = durationToSeconds (x - y) + durationToSeconds (y - z) := by
  unfold durationToSeconds
  push_cast
  ring

/-- A whole number of nanoseconds within a duration is not lost by the conversion. -/
theorem le_secondsToDuration {d : Int} {x : ℚ} (hx : 0 ≤ x) (hd : durationToSeconds d ≤ x) :
    d ≤ secondsToDuration x := by
  have hp : (0 : ℚ) ≤ second := by norm_num [second]
  rw [secondsToDuration, truncate_eq_floor (mul_nonneg hx hp), Int.le_floor]
  calc (d : ℚ) = durationToSeconds d * second := (durationToSeconds_mul_second d).symm
    _ ≤ x * second := mul_le_mul_of_nonneg_right hd hp

theorem secondsToDuration_lt {d : Int} {x : ℚ} (hx : 0 ≤ x) (hd : x < durationToSeconds d) :
    secondsToDuration x < d := by
  have hp : (0 : ℚ) < second := by norm_num [second]
  rw [secondsToDuration, truncate_eq_floor (mul_nonneg hx hp.le), Int.floor_lt]
  calc x * second < durationToSeconds d * second := mul_lt_mul_of_pos_right hd hp
    _ = d := durationToSeconds_mul_second d

end SimCore
