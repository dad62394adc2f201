-- The two stream conversions of the frame header: `prepare_header_buffer_write`
-- prints the content size through a `std::stringstream` under `std::setw`, and
-- `get_header_buffer_content_length` reads it back with `operator>>`.
import Mathlib.Data.Nat.Digits
import Mathlib.Tactic.IntervalCases

namespace micro_tcp

/-! ## Printing -/

/-- `std::setw(w)` before a formatted output: the text right-justified to at least `w`
characters with the default fill `' '`. A longer text is printed whole. -/
def padLeft (w : Nat) (s : List Char) : List Char :=
  List.replicate (w - s.length) ' ' ++ s

/-- `std::copy` of `cs` through a `std::ostream_iterator<char>` into a stream under
`std::setw(w)`: the width pads the first character only, and is reset after it. -/
def printChars (w : Nat) : List Char → List Char
  | [] => []
  | c :: cs => padLeft w [c] ++ cs

/-- The digits `num_put` prints for a `std::size_t` with the default flags. -/
def decimal (n : Nat) : List Char := Nat.toDigits 10 n

theorem padLeft_length (w : Nat) (s : List Char) : (padLeft w s).length = max w s.length := by
  simp only [padLeft, List.length_append, List.length_replicate]
  omega

theorem toDigitsCore_append (f n : Nat) (ds : List Char) :
    Nat.toDigitsCore 10 f n ds = Nat.toDigitsCore 10 f n [] ++ ds := by
  induction f generalizing n ds with
  | zero => rfl
  | succ f ih =>
    simp only [Nat.toDigitsCore]
    split
    · rfl
    · rw [ih, ih _ [_], List.append_assoc, List.singleton_append]

theorem toDigitsCore_fuel (f g n : Nat) (ds : List Char) (hf : n < f) (hg : n < g) :
    Nat.toDigitsCore 10 f n ds = Nat.toDigitsCore 10 g n ds := by
  induction f generalizing g n ds with
  | zero => omega
  | succ f ih =>
    obtain ⟨g, rfl⟩ : ∃ g', g = g' + 1 := ⟨g - 1, by omega⟩
    simp only [Nat.toDigitsCore]
    split
    · rfl
    · exact ih g _ _ (by omega) (by omega)

/-- The last digit comes off the end. -/
theorem decimal_eq (n : Nat) :
    decimal n = (if n < 10 then [] else decimal (n / 10)) ++ [Nat.digitChar (n % 10)] := by
  have h : decimal n = if n / 10 = 0 then [Nat.digitChar (n % 10)]
      else Nat.toDigitsCore 10 n (n / 10) [Nat.digitChar (n % 10)] := rfl
  rw [h]
  split
  · rw [if_pos (by omega)]; rfl
  · rw [if_neg (by omega), toDigitsCore_append,
      toDigitsCore_fuel n (n / 10 + 1) _ _ (by omega) (by omega)]
    rfl

theorem digitChar_toNat (d : Nat) (h : d < 10) : (Nat.digitChar d).toNat = 48 + d := by
  interval_cases d <;> rfl

theorem digitChar_isDigit (d : Nat) (h : d < 10) : (Nat.digitChar d).isDigit = true := by
  interval_cases d <;> rfl

theorem isDigit_of_mem_decimal (n : Nat) : ∀ c ∈ decimal n, c.isDigit = true := by
  induction n using Nat.strong_induction_on with
  | _ n ih =>
    rw [decimal_eq]
    intro c hc
    rcases List.mem_append.1 hc with hc | hc
    · split at hc
      · simp at hc
      · exact ih (n / 10) (by omega) c hc
    · rw [List.mem_singleton.1 hc]
      exact digitChar_isDigit _ (Nat.mod_lt _ (by omega))

theorem decimal_ne_nil (n : Nat) : decimal n ≠ [] := by
  rw [decimal_eq]; simp

theorem decimal_length_le (n k : Nat) (hk : 1 ≤ k) (h : n < 10 ^ k) : (decimal n).length ≤ k := by
  induction k generalizing n with
  | zero => omega
  | succ k ih =>
    rw [decimal_eq]
    split
    · simp
    · have hk' : 1 ≤ k := by
        rcases k with _ | k
        · simp at h; omega
        · omega
      have := ih (n / 10) hk' (by rw [Nat.pow_succ] at h; omega)
      simp; omega

/-- `std::isspace` in the "C" locale: what the sentry of `operator>>` skips. -/
def isSpace (c : Char) : Bool :=
  c = ' ' || c = '\t' || c = '\n' || c = '\x0B' || c = '\x0C' || c = '\r'

/-- The largest `std::size_t` of a 64-bit target. -/
def sizeMax : Nat := 2 ^ 64 - 1

/-- The value of a string of decimal digits, most significant first. -/
def digitsValue (ds : List Char) : Nat :=
  ds.foldl (fun v c => 10 * v + (c.toNat - 48)) 0

/-- `operator>>` into a `std::size_t`, as libstdc++'s `num_get` reads an unsigned number in
base 10 (`strtoull`): the sentry skips white space, then an optional sign, then the digits
up to the first other character. No digit gives 0, a value past `sizeMax` gives `sizeMax`,
and a minus sign negates modulo 2^64. `none` when the sentry reaches the end of the
stream: then nothing is stored. -/
def extractSize (s : List Char) : Option Nat :=
  match s.dropWhile isSpace with
  | [] => none
  | c :: rest =>
    let v := digitsValue ((if c = '-' ∨ c = '+' then rest else c :: rest).takeWhile Char.isDigit)
    some (if sizeMax < v then sizeMax else if c = '-' then (2 ^ 64 - v) % 2 ^ 64 else v)

theorem digitsValue_append_one (ds : List Char) (c : Char) :
    digitsValue (ds ++ [c]) = 10 * digitsValue ds + (c.toNat - 48) := by
  simp [digitsValue, List.foldl_append]

theorem digitsValue_decimal (n : Nat) : digitsValue (decimal n) = n := by
  induction n using Nat.strong_induction_on with
  | _ n ih =>
    rw [decimal_eq, digitsValue_append_one, digitChar_toNat _ (Nat.mod_lt _ (by omega))]
    split
    · simp [digitsValue]; omega
    · rw [ih (n / 10) (by omega)]; omega

theorem extractSize_le (s : List Char) (v : Nat) (h : extractSize s = some v) : v ≤ sizeMax := by
  unfold extractSize at h
  split at h
  · cases h
  · simp only [Option.some.injEq] at h
    subst h
    unfold sizeMax
    split_ifs <;> omega

theorem isSpace_of_isDigit {c : Char} (h : c.isDigit = true) : isSpace c = false := by
  simp only [isSpace, Bool.or_eq_false_iff, decide_eq_false_iff_not]
  refine ⟨⟨⟨⟨⟨?_, ?_⟩, ?_⟩, ?_⟩, ?_⟩, ?_⟩ <;> rintro rfl <;> revert h <;> decide

theorem dropWhile_isSpace_replicate (k : Nat) (l : List Char) :
    (List.replicate k ' ' ++ l).dropWhile isSpace = l.dropWhile isSpace :=
  List.dropWhile_append_of_pos (fun a ha => by rw [List.eq_of_mem_replicate ha]; rfl)

/-- Blanks and then the digits of a `std::size_t` read back as that value. -/
theorem extractSize_spaces_decimal (k n : Nat) (hn : n ≤ sizeMax) :
    extractSize (List.replicate k ' ' ++ decimal n) = some n := by
  obtain ⟨c, rest, hcr⟩ := List.exists_cons_of_ne_nil (decimal_ne_nil n)
  have hdig := isDigit_of_mem_decimal n
  have hval := digitsValue_decimal n
  rw [hcr] at hdig hval
  have hc : c.isDigit = true := hdig c (List.mem_cons_self _ _)
  have hsign : ¬(c = '-' ∨ c = '+') := by rintro (rfl | rfl) <;> revert hc <;> decide
  unfold extractSize
  rw [dropWhile_isSpace_replicate, hcr,
    List.dropWhile_cons_of_neg (by rw [isSpace_of_isDigit hc]; decide)]
  simp only [if_neg hsign, List.takeWhile_eq_self_iff.2 hdig, hval, if_neg (Nat.not_lt.2 hn),
    if_neg (fun h => hsign (Or.inl h))]

/-- Printing blanks and digits one character at a time under `std::setw` only adds blanks. -/
theorem printChars_spaces_decimal (w k n : Nat) :
    ∃ j, printChars w (List.replicate k ' ' ++ decimal n) = List.replicate j ' ' ++ decimal n := by
  cases k with
  | zero =>
    obtain ⟨c, rest, hcr⟩ := List.exists_cons_of_ne_nil (decimal_ne_nil n)
    exact ⟨w - 1, by simp [hcr, printChars, padLeft]⟩
  | succ k =>
    refine ⟨w - 1 + 1 + k, ?_⟩
    show padLeft w [' '] ++ (List.replicate k ' ' ++ decimal n) = _
    simp only [padLeft, List.length_singleton, List.replicate_add, List.append_assoc]
    rfl

end micro_tcp
