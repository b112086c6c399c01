/-
# IBANs

The checksum keeps the remainder modulo 97 of the number that an IBAN spells.  Two texts that differ
in one character, or by a swap of neighbours of one kind, spell numbers that differ by a product of
powers of ten, of 9 or of 99 with a difference below 26, none of which 97 divides.
-/

import Mathlib.Data.Nat.Digits.Defs
import Mathlib.Data.Nat.Prime.Int
import Mathlib.Tactic.LinearCombination
import Mathlib.Tactic.NormNum.Prime

namespace Finify.Wallets.Iban

/-! ## The service -/

/-- `[A-Z]`. -/
def isLetter (character : Char) : Bool := 65 ≤ character.toNat && character.toNat ≤ 90

/-- `\d`. -/
def isDigit (character : Char) : Bool := 48 ≤ character.toNat && character.toNat ≤ 57

/-- `/^[A-Z]{2}\d{2}[A-Z0-9]{11,30}$/`. -/
def isShape (iban : List Char) : Bool :=
  15 ≤ iban.length && iban.length ≤ 34 && (iban.take 2).all isLetter &&
    ((iban.drop 2).take 2).all isDigit &&
    (iban.drop 4).all fun character => isLetter character || isDigit character

/-- The digits that a character of the shape stands for. -/
def numeric (character : Char) : List ℕ :=
  if isDigit character then [character.toNat - 48]
  else (Nat.digits 10 (character.toNat - 55)).reverse

/-- `rearranged`. -/
def rearranged (iban : List Char) : List Char := iban.drop 4 ++ iban.take 4

/-- `validIbanChecksum` of a text of the shape. -/
def validIbanChecksum (iban : List Char) : Bool :=
  (rearranged iban).foldl
    (fun remainder character =>
      (numeric character).foldl (fun remainder digit => (remainder * 10 + digit) % 97) remainder)
    0 = 1

/-- `/^[A-Z]{6}[A-Z0-9]{2}(?:[A-Z0-9]{3})?$/`. -/
def isSwiftBic (swiftBic : List Char) : Bool :=
  (swiftBic.length = 8 || swiftBic.length = 11) && (swiftBic.take 6).all isLetter &&
    (swiftBic.drop 6).all fun character => isLetter character || isDigit character

/-- The test of an IBAN in `normalizeRouting`. -/
def accepts (iban : List Char) : Bool := isShape iban && validIbanChecksum iban

/-- `\s`. -/
def isBlank (character : Char) : Bool :=
  let code := character.toNat
  9 ≤ code && code ≤ 13 || code = 32 || code = 0xa0 || code = 0x1680 ||
    0x2000 ≤ code && code ≤ 0x200a || code = 0x2028 || code = 0x2029 || code = 0x202f ||
    code = 0x205f || code = 0x3000 || code = 0xfeff

/-- What `normalizeRouting` returns. -/
structure Routing where
  iban : Option (List Char)
  swiftBic : Option (List Char)
  deriving DecidableEq

/-- `normalizeRouting`. -/
def normalizeRouting (toUpperCase : List Char → List Char) (iban swiftBic : List Char) :
    Except String Routing :=
  let iban := toUpperCase (iban.filter fun character => !isBlank character)
  let swiftBic := toUpperCase (swiftBic.filter fun character => !isBlank character)
  if iban ≠ [] ∧ accepts iban = false then
    .error "IBAN is invalid"
  else if swiftBic ≠ [] ∧ isSwiftBic swiftBic = false then
    .error "SWIFT/BIC must contain 8 or 11 valid characters"
  else
    .ok
      { iban := if iban = [] then none else some iban
        swiftBic := if swiftBic = [] then none else some swiftBic }

/-! ## The number that a text spells -/

/-- The value of a character: of a digit, or of a letter from 10 for A to 35 for Z. -/
def worth (character : Char) : ℕ :=
  if isDigit character then character.toNat - 48 else character.toNat - 55

/-- The digits of a character's value: one for a digit, two for a letter. -/
def digitsOf (character : Char) : List ℕ :=
  if isDigit character then [worth character]
  else [worth character / 10, worth character % 10]

def spelled (text : List Char) : ℕ := Nat.ofDigits 10 (text.flatMap digitsOf).reverse

/-- Both characters are digits, or both are letters. -/
def SameKind (first second : Char) : Prop :=
  (isDigit first = true ∧ isDigit second = true) ∨
    (isLetter first = true ∧ isLetter second = true)

/-- The character may stand in an IBAN. -/
def IsLegal (character : Char) : Prop := isLetter character = true ∨ isDigit character = true

theorem isDigit_of_isLetter {character : Char} (hletter : isLetter character = true) :
    isDigit character = false := by
  simp only [isLetter, isDigit, Bool.and_eq_true, decide_eq_true_eq] at hletter ⊢
  simp only [Bool.and_eq_false_iff, decide_eq_false_iff_not]
  omega

theorem numeric_eq {character : Char} (hlegal : IsLegal character) :
    numeric character = digitsOf character := by
  unfold numeric digitsOf worth
  rcases hlegal with hletter | hdigit
  · rw [isDigit_of_isLetter hletter]
    simp only [isLetter, Bool.and_eq_true, decide_eq_true_eq] at hletter
    simp only [Bool.false_eq_true, if_false]
    generalize hvalue : character.toNat - 55 = value
    have hsmall : value / 10 / 10 = 0 := by omega
    rw [Nat.digits_def' (by norm_num) (by omega), Nat.digits_def' (by norm_num) (by omega), hsmall,
      Nat.digits_zero, Nat.mod_eq_of_lt (show value / 10 < 10 by omega)]
    rfl
  · rw [hdigit, if_pos rfl, if_pos rfl, if_pos rfl]

theorem spelled_append (first second : List Char) :
    spelled (first ++ second) =
      spelled second + 10 ^ (second.flatMap digitsOf).length * spelled first := by
  unfold spelled
  rw [List.flatMap_append, List.reverse_append, Nat.ofDigits_append, List.length_reverse]

theorem spelled_cons (character : Char) (rest : List Char) :
    spelled (character :: rest) =
      spelled rest + 10 ^ (rest.flatMap digitsOf).length * worth character := by
  have hone : spelled [character] = worth character := by
    unfold spelled digitsOf
    by_cases hdigit : isDigit character = true
    · simp [hdigit]
    · simp [hdigit, Nat.ofDigits_cons]
      omega
  rw [← List.singleton_append, spelled_append, hone]

/-! ## The loop keeps the remainder -/

theorem foldl_remainder (digits : List ℕ) (value : ℕ) :
    digits.foldl (fun remainder digit => (remainder * 10 + digit) % 97) (value % 97) =
      (Nat.ofDigits 10 digits.reverse + 10 ^ digits.length * value) % 97 := by
  induction digits generalizing value with
  | nil => simp
  | cons digit rest ih =>
    have hstep : (value % 97 * 10 + digit) % 97 = (value * 10 + digit) % 97 := by omega
    rw [List.foldl_cons, hstep, ih, List.reverse_cons, Nat.ofDigits_append,
      Nat.ofDigits_singleton, List.length_reverse, List.length_cons]
    congr 1
    ring

theorem legal_of_isShape {iban : List Char} (hshape : isShape iban = true) :
    ∀ character ∈ iban, IsLegal character := by
  intro character hmem
  simp only [isShape, Bool.and_eq_true, List.all_eq_true, Bool.or_eq_true] at hshape
  rw [← List.take_append_drop 2 iban, List.mem_append] at hmem
  rcases hmem with hmem | hmem
  · exact Or.inl (hshape.1.1.2 character hmem)
  · rw [← List.take_append_drop 2 (iban.drop 2), List.mem_append, List.drop_drop] at hmem
    rcases hmem with hmem | hmem
    · exact Or.inr (hshape.1.2 character hmem)
    · exact hshape.2 character hmem

theorem mem_rearranged {iban : List Char} {character : Char} :
    character ∈ rearranged iban ↔ character ∈ iban := by
  conv_rhs => rw [← List.take_append_drop 4 iban]
  rw [rearranged, List.mem_append, List.mem_append, or_comm]

theorem validIbanChecksum_iff {iban : List Char} (hshape : isShape iban = true) :
    validIbanChecksum iban = true ↔ spelled (rearranged iban) % 97 = 1 := by
  have hflat : (rearranged iban).flatMap numeric = (rearranged iban).flatMap digitsOf := by
    rw [List.flatMap_def, List.flatMap_def]
    congr 1
    apply List.map_congr_left
    intro character hmem
    exact numeric_eq (legal_of_isShape hshape character (mem_rearranged.mp hmem))
  have hloop := foldl_remainder ((rearranged iban).flatMap numeric) 0
  rw [Nat.zero_mod, Nat.mul_zero, Nat.add_zero, List.foldl_flatMap] at hloop
  rw [validIbanChecksum, hloop, hflat, decide_eq_true_iff, spelled]

/-! ## A slip of one character, or of two neighbours, moves the remainder -/

theorem worth_ne {first second : Char} (hkind : SameKind first second) (hne : first ≠ second) :
    ¬ (97 : ℤ) ∣ worth first - worth second := by
  have hcode : first.toNat ≠ second.toNat := fun heq => hne (Char.toNat_inj.mp heq)
  rcases hkind with ⟨hfirst, hsecond⟩ | ⟨hfirst, hsecond⟩
  · simp only [worth, hfirst, hsecond, if_true]
    simp only [isDigit, Bool.and_eq_true, decide_eq_true_eq] at hfirst hsecond
    omega
  · simp only [worth, isDigit_of_isLetter hfirst, isDigit_of_isLetter hsecond, Bool.false_eq_true,
      if_false]
    simp only [isLetter, Bool.and_eq_true, decide_eq_true_eq] at hfirst hsecond
    omega

theorem length_digitsOf {first second : Char} (hkind : SameKind first second) :
    (digitsOf first).length = (digitsOf second).length := by
  rcases hkind with ⟨hfirst, hsecond⟩ | ⟨hfirst, hsecond⟩
  · rw [digitsOf, digitsOf, hfirst, hsecond]
    rfl
  · rw [digitsOf, digitsOf, isDigit_of_isLetter hfirst, isDigit_of_isLetter hsecond]
    rfl

theorem digitsOf_length (character : Char) :
    (digitsOf character).length = 1 ∨ (digitsOf character).length = 2 := by
  unfold digitsOf
  by_cases hdigit : isDigit character = true
  · exact Or.inl (by rw [if_pos hdigit]; rfl)
  · exact Or.inr (by rw [if_neg hdigit]; rfl)

/-- 97 divides no power of ten times a number that it does not divide. -/
theorem not_dvd_shifted {value : ℤ} (hvalue : ¬ (97 : ℤ) ∣ value) (places : ℕ) :
    ¬ (97 : ℤ) ∣ 10 ^ places * value := by
  have hprime : Prime (97 : ℤ) := Nat.prime_iff_prime_int.mp (by norm_num)
  intro hdvd
  rcases hprime.dvd_or_dvd hdvd with hpower | hdvd
  · have hten : (97 : ℤ) ∣ 10 := hprime.dvd_of_dvd_pow hpower
    omega
  · exact hvalue hdvd

theorem remainder_ne {first second : ℕ} (hdvd : ¬ (97 : ℤ) ∣ first - second) :
    first % 97 ≠ second % 97 := by
  omega

theorem replaced_ne {left right : List Char} {first second : Char}
    (hkind : SameKind first second) (hne : first ≠ second) :
    spelled (left ++ first :: right) % 97 ≠ spelled (left ++ second :: right) % 97 := by
  apply remainder_ne
  have hdifference : ((spelled (left ++ first :: right) : ℕ) : ℤ) -
      (spelled (left ++ second :: right) : ℕ) =
        10 ^ (right.flatMap digitsOf).length * ((worth first : ℤ) - worth second) := by
    rw [spelled_append, spelled_append, spelled_cons, spelled_cons, List.flatMap_cons,
      List.flatMap_cons, List.length_append, List.length_append, length_digitsOf hkind]
    push_cast
    ring
  rw [hdifference]
  exact not_dvd_shifted (worth_ne hkind hne) _

/-- A swap multiplies the difference of the two values by 9 or by 99. -/
theorem swapped_ne {left right : List Char} {first second : Char}
    (hkind : SameKind first second) (hne : first ≠ second) :
    spelled (left ++ first :: second :: right) % 97 ≠
      spelled (left ++ second :: first :: right) % 97 := by
  apply remainder_ne
  have hdifference : ((spelled (left ++ first :: second :: right) : ℕ) : ℤ) -
      (spelled (left ++ second :: first :: right) : ℕ) =
        10 ^ (right.flatMap digitsOf).length *
          ((10 ^ (digitsOf second).length - 1) * ((worth first : ℤ) - worth second)) := by
    simp only [spelled_append, spelled_cons, List.flatMap_cons, List.length_append,
      length_digitsOf hkind]
    push_cast
    ring
  rw [hdifference]
  apply not_dvd_shifted
  have hworth := worth_ne hkind hne
  rcases digitsOf_length second with hlength | hlength
  · rw [hlength]
    omega
  · rw [hlength]
    omega

/-! ## The claim of the checksum -/

/-- Moving the first four characters keeps a character between fixed neighbours. -/
theorem rearranged_split (left right : List Char) :
    ∃ before after, ∀ character,
      rearranged (left ++ character :: right) = before ++ character :: after := by
  rcases Nat.lt_or_ge left.length 4 with hshort | hlong
  · obtain ⟨missing, hmissing⟩ : ∃ missing, 4 - left.length = missing + 1 :=
      ⟨3 - left.length, by omega⟩
    refine ⟨right.drop missing ++ left, right.take missing, fun character => ?_⟩
    rw [rearranged, List.drop_append, List.take_append, hmissing, List.drop_of_length_le hshort.le,
      List.take_of_length_le hshort.le, List.drop_succ_cons, List.take_succ_cons,
      List.nil_append, List.append_assoc]
  · refine ⟨left.drop 4, right ++ left.take 4, fun character => ?_⟩
    rw [rearranged, List.drop_append_of_le_length hlong, List.take_append_of_le_length hlong,
      List.append_assoc, List.cons_append]

/-- No two texts that are both accepted spell different remainders. -/
theorem accepts_eq_false {iban other : List Char} (haccepts : accepts iban = true)
    (hne : spelled (rearranged iban) % 97 ≠ spelled (rearranged other) % 97) :
    accepts other = false := by
  rw [Bool.eq_false_iff]
  intro hother
  rw [accepts, Bool.and_eq_true] at haccepts hother
  apply hne
  rw [(validIbanChecksum_iff haccepts.1).mp haccepts.2, (validIbanChecksum_iff hother.1).mp hother.2]

/-- The checksum of a text of the shape is the check of ISO 7064 on the number that it spells, so
that no accepted IBAN turns into another by one character of the same kind or by a swap of two
neighbours of one kind. -/
theorem checksum_detects {iban : List Char} (hshape : isShape iban = true) :
    (validIbanChecksum iban = true ↔ spelled (rearranged iban) % 97 = 1) ∧
      (accepts iban = true →
        (∀ (left right : List Char) (first second : Char), iban = left ++ first :: right →
          SameKind first second → first ≠ second →
            accepts (left ++ second :: right) = false) ∧
        (∀ (left right other : List Char) (first second : Char),
          rearranged iban = left ++ first :: second :: right →
            rearranged other = left ++ second :: first :: right →
              SameKind first second → first ≠ second → accepts other = false)) := by
  refine ⟨validIbanChecksum_iff hshape, fun haccepts => ⟨?replaced, ?swapped⟩⟩
  case replaced =>
    intro left right first second hiban hkind hne
    apply accepts_eq_false haccepts
    obtain ⟨before, after, hsplit⟩ := rearranged_split left right
    rw [hiban, hsplit, hsplit]
    exact replaced_ne hkind hne
  case swapped =>
    intro left right other first second hiban hother hkind hne
    apply accepts_eq_false haccepts
    rw [hiban, hother]
    exact swapped_ne hkind hne

/-- The IBAN of the standard's own example: accepted, and no longer so with its last digit, or with
its last two digits in the other order. -/
theorem checksum_detects_example :
    (validIbanChecksum "GB82WEST12345698765432".toList = true ↔
        spelled (rearranged "GB82WEST12345698765432".toList) % 97 = 1) ∧
      accepts "GB82WEST12345698765437".toList = false ∧
      accepts "GB82WEST12345698765423".toList = false := by
  have hall := checksum_detects
    (show isShape "GB82WEST12345698765432".toList = true by decide)
  have hrejects := hall.2 (by decide)
  exact ⟨hall.1,
    hrejects.1 "GB82WEST1234569876543".toList [] '2' '7' (by decide) (Or.inl (by decide))
      (by decide),
    hrejects.2 "WEST123456987654".toList "GB82".toList _ '3' '2' (by decide) (by decide)
      (Or.inl (by decide)) (by decide)⟩

end Finify.Wallets.Iban
