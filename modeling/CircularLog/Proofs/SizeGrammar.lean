/-
What is a size on the command line: decimal digits and at most one letter behind them, if what they say together is a
number of 64 bits and not zero. Digits are read up to the bound of 64 bits and no further, which is enough: a number
that has reached it is refused with every unit.

- `Size.decimal`: what digits are worth, whatever their number; `Size.value_eq`: how much of that is read.
- `Size.Scale`, `Size.multiplier?_eq_some_iff`: the letters for a unit.
- `Size.Spells`: the grammar.
- `sizes_follow_grammar`: what follows the grammar is read, as the number that it says, and nothing else is.
-/
import CircularLog.Size
import Mathlib.Data.List.TakeWhile
import Mathlib.Data.Nat.Digits.Lemmas
import Mathlib.Tactic

namespace CircularLog

namespace Size

/-! ## Digits -/

/-- one of the ten ASCII digits -/
def Digit (c : Char) : Prop := '0' ≤ c ∧ c ≤ '9'

/-- how much decimal digits are worth, the last of them counting ones -/
def decimal (digits : List Char) : Nat := Nat.ofDigits 10 (digits.reverse.map fun c => c.toNat - '0'.toNat)

section Digits

variable {c : Char} {digits rest : List Char}

theorem isDigit_iff : c.isDigit = true ↔ Digit c := by
  simp only [Char.isDigit, Bool.and_eq_true, decide_eq_true_eq]
  exact Iff.rfl

theorem decimal_cons (c : Char) (rest : List Char) :
    decimal (c :: rest) = (c.toNat - '0'.toNat) * 10 ^ rest.length + decimal rest := by
  unfold decimal
  rw [List.reverse_cons, List.map_append, Nat.ofDigits_append, List.length_map, List.length_reverse, List.map_singleton,
    Nat.ofDigits_singleton]
  ring

/-- with a number that was read before, which is kept below the bound as well -/
theorem foldl_value (n : Nat) (digits : List Char) :
    digits.foldl (fun n c => min (10 * n + (c.toNat - '0'.toNat)) Word.bound) (min n Word.bound)
      = min (n * 10 ^ digits.length + decimal digits) Word.bound := by
  induction digits generalizing n with
  | nil => simp [decimal]
  | cons c rest ih =>
    have hcapped : min (10 * min n Word.bound + (c.toNat - '0'.toNat)) Word.bound
        = min (10 * n + (c.toNat - '0'.toNat)) Word.bound := by omega
    have hworth : (10 * n + (c.toNat - '0'.toNat)) * 10 ^ rest.length + decimal rest
        = n * 10 ^ (c :: rest).length + decimal (c :: rest) := by
      rw [decimal_cons, List.length_cons]
      ring
    rw [List.foldl_cons, hcapped, ih, hworth]

theorem value_eq (digits : List Char) : value digits = min (decimal digits) Word.bound := by
  have hread := foldl_value 0 digits
  rwa [Nat.zero_mul, Nat.zero_add, Nat.zero_min] at hread

end Digits

/-! ## Units -/

/-- what may stand behind the digits, and how many bytes it counts -/
inductive Scale : List Char → Nat → Prop where
  | none : Scale [] 1
  | bytes (c : Char) (h : c = 'b' ∨ c = 'B') : Scale [c] 1
  | kilo (c : Char) (h : c = 'k' ∨ c = 'K') : Scale [c] 1024
  | mega (c : Char) (h : c = 'm' ∨ c = 'M') : Scale [c] (1024 ^ 2)
  | giga (c : Char) (h : c = 'g' ∨ c = 'G') : Scale [c] (1024 ^ 3)

section Scale

variable {letters : List Char} {factor : Nat}

theorem multiplier?_eq_some_iff : multiplier? letters = some factor ↔ Scale letters factor := by
  constructor
  · intro h
    unfold multiplier? at h
    split at h
    all_goals cases h
    · exact .none
    · exact .bytes _ (.inl rfl)
    · exact .bytes _ (.inr rfl)
    · exact .kilo _ (.inl rfl)
    · exact .kilo _ (.inr rfl)
    · exact .mega _ (.inl rfl)
    · exact .mega _ (.inr rfl)
    · exact .giga _ (.inl rfl)
    · exact .giga _ (.inr rfl)
  · intro h
    cases h with
    | none => rfl
    | bytes c h => rcases h with rfl | rfl <;> rfl
    | kilo c h => rcases h with rfl | rfl <;> rfl
    | mega c h => rcases h with rfl | rfl <;> rfl
    | giga c h => rcases h with rfl | rfl <;> rfl

theorem Scale.pos (h : Scale letters factor) : 0 < factor := by
  cases h <;> norm_num

/-- the letters are none of the digits, so that these end where the letters begin -/
theorem Scale.no_digits (h : Scale letters factor) :
    letters.takeWhile Char.isDigit = [] ∧ letters.dropWhile Char.isDigit = letters := by
  cases h with
  | none => exact ⟨rfl, rfl⟩
  | bytes c h => rcases h with rfl | rfl <;> exact ⟨rfl, rfl⟩
  | kilo c h => rcases h with rfl | rfl <;> exact ⟨rfl, rfl⟩
  | mega c h => rcases h with rfl | rfl <;> exact ⟨rfl, rfl⟩
  | giga c h => rcases h with rfl | rfl <;> exact ⟨rfl, rfl⟩

end Scale

/-! ## The grammar -/

/-- the text is this size -/
structure Spells (text : String) (size : Nat) : Prop where
  parts : ∃ digits letters factor, text.toList = digits ++ letters ∧ digits ≠ [] ∧ (∀ c ∈ digits, Digit c)
    ∧ Scale letters factor ∧ size = decimal digits * factor
  pos : 1 ≤ size
  le : size ≤ 2 ^ 64 - 1

section Grammar

variable {text : String} {size n factor : Nat} {digits letters : List Char}

/-- a product is within 64 bits exactly if the one with the number that was read is, and it is the same then -/
theorem capped_iff (hfactor : 0 < factor) :
    ((0 < min n Word.bound * factor ∧ min n Word.bound * factor < Word.bound) ∧ min n Word.bound * factor = size)
      ↔ size = n * factor ∧ 1 ≤ size ∧ size ≤ 2 ^ 64 - 1 := by
  have hbound : Word.bound = 2 ^ 64 := by norm_num [Word.bound]
  rcases Nat.lt_or_ge n Word.bound with hfits | hlong
  · rw [Nat.min_eq_left hfits.le]
    omega
  · -- the number alone is too much
    have hread : Word.bound ≤ Word.bound * factor := Nat.le_mul_of_pos_right _ hfactor
    have hwhole : n ≤ n * factor := Nat.le_mul_of_pos_right _ hfactor
    rw [Nat.min_eq_right hlong]
    omega

/-- a text of digits and then a unit -/
theorem parse_eq_some_of_parts (htext : text.toList = digits ++ letters) (hdigits : ∀ c ∈ digits, Digit c)
    (hscale : Scale letters factor) :
    parse text = some size ↔ size = decimal digits * factor ∧ 1 ≤ size ∧ size ≤ 2 ^ 64 - 1 := by
  have hall : ∀ c ∈ digits, c.isDigit = true := fun c hc => isDigit_iff.2 (hdigits c hc)
  have htake : text.toList.takeWhile Char.isDigit = digits := by
    rw [htext, List.takeWhile_append_of_pos hall, hscale.no_digits.1, List.append_nil]
  have hdrop : text.toList.dropWhile Char.isDigit = letters := by
    rw [htext, List.dropWhile_append_of_pos hall, hscale.no_digits.2]
  have hfactor : multiplier? letters = some factor := multiplier?_eq_some_iff.2 hscale
  unfold parse
  simp only [htake, hdrop, hfactor, value_eq]
  rw [Option.ite_none_right_eq_some, Option.some.injEq]
  exact capped_iff hscale.pos

theorem parse_eq_some_iff : parse text = some size ↔ Spells text size := by
  constructor
  · intro h
    -- the text is cut where the first character is no digit
    have htext : text.toList = text.toList.takeWhile Char.isDigit ++ text.toList.dropWhile Char.isDigit :=
      List.takeWhile_append_dropWhile.symm
    have hdigits : ∀ c ∈ text.toList.takeWhile Char.isDigit, Digit c :=
      fun c hc => isDigit_iff.1 (List.mem_takeWhile_imp hc)
    cases hfactor : multiplier? (text.toList.dropWhile Char.isDigit) with
    | none =>
      unfold parse at h
      simp only [hfactor] at h
      cases h
    | some factor =>
      have hscale : Scale (text.toList.dropWhile Char.isDigit) factor := multiplier?_eq_some_iff.1 hfactor
      obtain ⟨hsize, hpos, hle⟩ := (parse_eq_some_of_parts htext hdigits hscale).1 h
      have hsome : text.toList.takeWhile Char.isDigit ≠ [] := by
        intro hnone
        rw [hnone] at hsize
        have hzero : size = 0 := hsize.trans (Nat.zero_mul factor)
        omega
      exact ⟨⟨_, _, factor, htext, hsome, hdigits, hscale, hsize⟩, hpos, hle⟩
  · rintro ⟨⟨digits, letters, factor, htext, -, hdigits, hscale, hsize⟩, hpos, hle⟩
    exact (parse_eq_some_of_parts htext hdigits hscale).2 ⟨hsize, hpos, hle⟩

end Grammar

end Size

/-- **The sizes are those of the grammar.** A text is read as a size exactly if it is digits, of which there is at least
one, and then nothing or one letter for a unit, and the number that they say is from 1 to `2 ^ 64 - 1`. It is read as
that number, and every other text is refused. -/
theorem sizes_follow_grammar (text : String) :
    (∀ size, Size.parse text = some size ↔ Size.Spells text size)
      ∧ (Size.parse text = none ↔ ¬∃ size, Size.Spells text size) := by
  refine ⟨fun size => Size.parse_eq_some_iff, ?_⟩
  simp only [← Size.parse_eq_some_iff, Option.eq_none_iff_forall_ne_some, not_exists, ne_eq]

/-- the first size that 64 bits do not hold is too much only because of its unit -/
example : Size.parse "17179869183g" = some (2 ^ 64 - 2 ^ 30) ∧ Size.parse "17179869184g" = none := by decide

/-- a sign, a digit of another script, and two letters -/
example : Size.parse "+5" = none ∧ Size.parse "\u0663k" = none ∧ Size.parse "1kb" = none := by decide

end CircularLog
