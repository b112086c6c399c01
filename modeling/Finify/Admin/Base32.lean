/-
# Secrets as text

A secret is stored as the base 32 text of its bytes.  The text groups the bits of the bytes by five
and fills the last group with zeros; reading it back gives the bits with those zeros behind them, of
which no further byte can be made.
-/

import Finify.Foundations.Numerals
import Mathlib.Data.List.DropRight

namespace Finify.Admin.Base32

open Foundations

/-! ## The service -/

/-- `BASE32_ALPHABET`. -/
def alphabet : List Char := "ABCDEFGHIJKLMNOPQRSTUVWXYZ234567".toList

/-- `toString(2)` of a natural number. -/
def binary (value : ℕ) : List Char := Nat.toDigits 2 value

/-- The number that a text begins with in base 2, or zero. -/
def leadingNumber (text : List Char) : ℕ :=
  (text.takeWhile fun character => character = '0' || character = '1').foldl
    (fun value character => 2 * value + if character = '1' then 1 else 0) 0

/-- `parseInt(text, 2)`, with zero where there is no number. -/
def parseInt : List Char → ℤ
  | '-' :: digits => - (leadingNumber digits : ℤ)
  | digits => leadingNumber digits

/-- An element of `Buffer.from(bytes)`. -/
def byteOf (value : ℤ) : UInt8 := UInt8.ofNat (value % 256).toNat

/-- `alphabet.indexOf(char).toString(2).padStart(5, '0')`. -/
def bitsOf (character : Char) : List Char :=
  padStart 5 '0'
    (match alphabet.findIdx? (· = character) with
      | some index => binary index
      | none => ['-', '1'])

/-- `byte.toString(2).padStart(8, '0')`. -/
def bitsOfByte (byte : UInt8) : List Char := padStart 8 '0' (binary byte.toNat)

/-- `base32`. -/
def base32 (buffer : List UInt8) : List Char :=
  let bits := buffer.flatMap bitsOfByte
  (slices 5 ((bits.length + 4) / 5) bits).flatMap fun slice =>
    match alphabet[(parseInt (padEnd 5 '0' slice)).toNat]? with
    | some character => [character]
    | none => "undefined".toList

/-- `value.replace(/=+$/, '')`. -/
def withoutPadding (value : List Char) : List Char := value.rdropWhile (· = '=')

/-- `base32Decode`. -/
def base32Decode (toUpperCase : List Char → List Char) (value : List Char) : List UInt8 :=
  let bits := (toUpperCase (withoutPadding value)).flatMap bitsOf
  (slices 8 (bits.length / 8) bits).map fun slice => byteOf (parseInt slice)

/-- `buffer.writeBigUInt64BE(BigInt(counter))` on eight bytes. -/
def counterBytes (counter : ℕ) : List UInt8 :=
  (List.range 8).map fun index => UInt8.ofNat (counter / 256 ^ (7 - index))

/-- `readUInt32BE`. -/
def readUInt32BE (buffer : List UInt8) (offset : ℕ) : Option ℕ :=
  match buffer.drop offset with
  | first :: second :: third :: fourth :: _ =>
    some (((first.toNat * 256 + second.toNat) * 256 + third.toNat) * 256 + fourth.toNat)
  | _ => none

/-- `totp`, where `hmac` is the digest of a key and a message. -/
def totp (toUpperCase : List Char → List Char) (hmac : List UInt8 → List UInt8 → List UInt8)
    (secret : List Char) (counter : ℕ) : Option (List Char) :=
  let digest := hmac (base32Decode toUpperCase secret) (counterBytes counter)
  let offset := (digest.getLastD 0).toNat &&& 0x0f
  (readUInt32BE digest offset).map fun word =>
    padStart 6 '0' (Nat.toDigits 10 ((word &&& 0x7fffffff) % 1000000))

/-! ## What an authenticator shows -/

/-- The number that four bytes from a place on spell, without its highest bit. -/
def truncated (digest : List UInt8) (place : ℕ) : Option ℕ :=
  match digest.drop place with
  | first :: second :: third :: fourth :: _ =>
    some (((first.toNat % 128 * 256 + second.toNat) * 256 + third.toNat) * 256 + fourth.toNat)
  | _ => none

/-- The last six digits of the number at the place that the last four bits of the digest name. -/
def authenticatorCode (hmac : List UInt8 → List UInt8 → List UInt8) (key : List UInt8)
    (counter : ℕ) : Option (List Char) :=
  let digest := hmac key (counterBytes counter)
  (truncated digest ((digest.getLastD 0).toNat % 16)).map (fixedDigits 10 6)

/-! ## Bits and numbers -/

section Bits

variable {text bits : List Char} {character : Char}

def IsBits (text : List Char) : Prop := ∀ character ∈ text, character = '0' ∨ character = '1'

theorem digitChar_isBit (value : ℕ) :
    Nat.digitChar (value % 2) = '0' ∨ Nat.digitChar (value % 2) = '1' := by
  rcases Nat.mod_two_eq_zero_or_one value with hzero | hone
  · rw [hzero]
    exact Or.inl rfl
  · rw [hone]
    exact Or.inr rfl

theorem isBits_fixedDigits (width value : ℕ) : IsBits (fixedDigits 2 width value) := by
  induction width generalizing value with
  | zero =>
    intro character hmem
    cases hmem
  | succ width ih =>
    intro character hmem
    rw [fixedDigits, List.mem_append, List.mem_singleton] at hmem
    rcases hmem with hmem | rfl
    · exact ih _ character hmem
    · exact digitChar_isBit value

theorem leadingNumber_of_isBits (hbits : IsBits text) :
    leadingNumber text =
      text.foldl (fun value character => 2 * value + if character = '1' then 1 else 0) 0 := by
  rw [leadingNumber, List.takeWhile_eq_self_iff.mpr]
  intro character hmem
  rcases hbits character hmem with rfl | rfl
  · rfl
  · rfl

theorem parseInt_of_isBits (hbits : IsBits text) : parseInt text = leadingNumber text := by
  unfold parseInt
  split
  · rename_i digits
    rcases hbits '-' List.mem_cons_self with h | h
    · cases h
    · cases h
  · rfl

theorem leadingNumber_concat (hbits : IsBits (bits ++ [character])) :
    leadingNumber (bits ++ [character]) =
      2 * leadingNumber bits + if character = '1' then 1 else 0 := by
  have hfirst : IsBits bits := fun other hmem => hbits other (List.mem_append_left _ hmem)
  rw [leadingNumber_of_isBits hbits, leadingNumber_of_isBits hfirst, List.foldl_append]
  rfl

/-- A numeral of a fixed width is read back. -/
theorem leadingNumber_fixedDigits {width value : ℕ} (hvalue : value < 2 ^ width) :
    leadingNumber (fixedDigits 2 width value) = value := by
  induction width generalizing value with
  | zero =>
    rw [Nat.pow_zero, Nat.lt_one_iff] at hvalue
    rw [hvalue]
    rfl
  | succ width ih =>
    rw [Nat.pow_succ] at hvalue
    have hbits := isBits_fixedDigits (width + 1) value
    rw [fixedDigits] at hbits ⊢
    rw [leadingNumber_concat hbits, ih (by omega)]
    rcases Nat.mod_two_eq_zero_or_one value with hzero | hone
    · rw [hzero, if_neg (by decide)]
      omega
    · rw [hone, if_pos (by decide)]
      omega

/-- Bits are the numeral of the number that they spell. -/
theorem fixedDigits_leadingNumber (hbits : IsBits bits) :
    leadingNumber bits < 2 ^ bits.length ∧
      fixedDigits 2 bits.length (leadingNumber bits) = bits := by
  induction bits using List.reverseRecOn with
  | nil => exact ⟨by decide, rfl⟩
  | append_singleton bits character ih =>
    have hfirst : IsBits bits := fun other hmem => hbits other (List.mem_append_left _ hmem)
    obtain ⟨hsmall, hnumeral⟩ := ih hfirst
    rw [leadingNumber_concat hbits, List.length_append, List.length_singleton, fixedDigits,
      Nat.pow_succ]
    rcases hbits character (List.mem_append_right _ List.mem_cons_self) with rfl | rfl
    · rw [if_neg (by decide), Nat.add_zero, Nat.mul_div_cancel_left _ (by decide),
        Nat.mul_mod_right, hnumeral]
      exact ⟨by omega, rfl⟩
    · rw [if_pos rfl, Nat.mul_add_div (by decide), Nat.mul_add_mod, Nat.div_eq_of_lt (by decide),
        Nat.add_zero (leadingNumber bits), hnumeral]
      exact ⟨by omega, rfl⟩

end Bits

/-! ## The text of bytes -/

section Text

variable {toUpperCase : List Char → List Char} {bytes : List UInt8} {text bits : List Char}

theorem bitsOfByte_eq (byte : UInt8) : bitsOfByte byte = fixedDigits 2 8 byte.toNat :=
  padStart_toDigits (by decide) byte.toNat_lt

theorem byteOf_bitsOfByte (byte : UInt8) : byteOf (parseInt (bitsOfByte byte)) = byte := by
  rw [bitsOfByte_eq, parseInt_of_isBits (isBits_fixedDigits _ _),
    leadingNumber_fixedDigits byte.toNat_lt, byteOf]
  have hsmall : ((byte.toNat : ℤ) % 256).toNat = byte.toNat := by
    have := byte.toNat_lt
    omega
  rw [hsmall, UInt8.ofNat_toNat]

/-- A character of the alphabet stands for the five bits of its place. -/
theorem bitsOf_alphabet : ∀ place < 32, ∃ character ∈ alphabet,
    alphabet[place]? = some character ∧ bitsOf character = fixedDigits 2 5 place := by
  have hany : ∀ place < 32, alphabet.any fun character =>
      alphabet[place]? = some character ∧ bitsOf character = fixedDigits 2 5 place := by
    decide
  simpa using hany

/-- The character of a group of five bits. -/
def symbol (group : List Char) : List Char :=
  match alphabet[(parseInt group).toNat]? with
  | some character => [character]
  | none => "undefined".toList

theorem flatMap_symbol {group : List Char} (hbits : IsBits group) (hlength : group.length = 5) :
    (∀ character ∈ symbol group, character ∈ alphabet) ∧
      (symbol group).flatMap bitsOf = group := by
  obtain ⟨hsmall, hnumeral⟩ := fixedDigits_leadingNumber hbits
  rw [hlength] at hsmall hnumeral
  obtain ⟨character, hmem, hplace, hgroup⟩ := bitsOf_alphabet _ hsmall
  have hsymbol : symbol group = [character] := by
    rw [symbol, parseInt_of_isBits hbits, Int.toNat_natCast, hplace]
  rw [hsymbol, List.flatMap_singleton, hgroup, hnumeral]
  exact ⟨fun other hother => List.mem_singleton.mp hother ▸ hmem, rfl⟩

theorem isBits_bytes (bytes : List UInt8) : IsBits (bytes.flatMap bitsOfByte) := by
  intro character hmem
  obtain ⟨byte, -, hmem⟩ := List.mem_flatMap.mp hmem
  rw [bitsOfByte_eq] at hmem
  exact isBits_fixedDigits _ _ character hmem

theorem length_bytes (bytes : List UInt8) :
    (bytes.flatMap bitsOfByte).length = bytes.length * 8 := by
  induction bytes with
  | nil => rfl
  | cons byte bytes ih =>
    rw [List.flatMap_cons, List.length_append, ih, bitsOfByte_eq, length_fixedDigits,
      List.length_cons, Nat.succ_mul, Nat.add_comm]

/-- The groups that `base32` makes. -/
def groups (bytes : List UInt8) : List (List Char) :=
  let bits := bytes.flatMap bitsOfByte
  (slices 5 ((bits.length + 4) / 5) bits).map (padEnd 5 '0')

theorem base32_eq (bytes : List UInt8) : base32 bytes = (groups bytes).flatMap symbol := by
  rw [base32, groups, List.flatMap_map]
  rfl

theorem groups_spec (bytes : List UInt8) :
    ∀ group ∈ groups bytes, IsBits group ∧ group.length = 5 := by
  intro group hmem
  obtain ⟨slice, hslice, rfl⟩ := List.mem_map.mp hmem
  obtain ⟨index, -, rfl⟩ := List.mem_map.mp hslice
  refine ⟨fun character hcharacter => ?_, length_padEnd (List.length_take_le _ _) '0'⟩
  rw [padEnd, List.mem_append] at hcharacter
  rcases hcharacter with hcharacter | hcharacter
  · exact isBits_bytes bytes character (List.mem_of_mem_drop (List.mem_of_mem_take hcharacter))
  · exact Or.inl (List.eq_of_mem_replicate hcharacter)

theorem flatMap_flatMap_symbol {list : List (List Char)}
    (hlist : ∀ group ∈ list, IsBits group ∧ group.length = 5) :
    (∀ character ∈ list.flatMap symbol, character ∈ alphabet) ∧
      (list.flatMap symbol).flatMap bitsOf = list.flatten := by
  induction list with
  | nil => exact ⟨fun _ hmem => (List.not_mem_nil hmem).elim, rfl⟩
  | cons group list ih =>
    obtain ⟨hbits, hlength⟩ := hlist group List.mem_cons_self
    obtain ⟨halphabet, hgroup⟩ := flatMap_symbol hbits hlength
    obtain ⟨hrest, hflatten⟩ := ih fun other hmem => hlist other (List.mem_cons_of_mem _ hmem)
    rw [List.flatMap_cons, List.flatMap_append, hgroup, hflatten, List.flatten_cons]
    refine ⟨fun character hmem => ?_, rfl⟩
    rcases List.mem_append.mp hmem with hmem | hmem
    · exact halphabet character hmem
    · exact hrest character hmem

/-- The characters of the text stand for the bits of the bytes and fewer than eight zeros. -/
theorem bits_base32 (bytes : List UInt8) :
    ∃ filled < 8, (base32 bytes).flatMap bitsOf =
      bytes.flatMap bitsOfByte ++ List.replicate filled '0' := by
  have hlength := length_bytes bytes
  refine ⟨(bytes.length * 8 + 4) / 5 * 5 - bytes.length * 8, by omega, ?_⟩
  rw [base32_eq, (flatMap_flatMap_symbol (groups_spec bytes)).2, groups, flatten_slices, hlength]
  · omega
  · omega

/-- Reading groups of eight bits with fewer than eight behind them gives the bytes. -/
theorem bytes_of_bits (bytes : List UInt8) {rest : List Char} (hrest : rest.length < 8) :
    let bits := bytes.flatMap bitsOfByte ++ rest
    (slices 8 (bits.length / 8) bits).map (fun slice => byteOf (parseInt slice)) = bytes := by
  intro bits
  have hcount : bits.length / 8 = bytes.length := by
    rw [List.length_append, length_bytes]
    omega
  have hwidth : ∀ byte ∈ bytes, (bitsOfByte byte).length = 8 := by
    intro byte _
    rw [bitsOfByte_eq, length_fixedDigits]
  rw [hcount, slices_flatMap hwidth, List.map_map]
  calc bytes.map ((fun slice => byteOf (parseInt slice)) ∘ bitsOfByte)
    _ = bytes.map id := List.map_congr_left fun byte _ => byteOf_bitsOfByte byte
    _ = bytes := List.map_id bytes

/-! ## Other cases and padding -/

theorem alphabet_toUpper {character : Char} (hupper : character.toUpper ∈ alphabet) :
    character.toNat < 128 ∧ character ≠ '=' := by
  have hplain : ∀ other ∈ alphabet, other.toNat < 128 ∧ other ≠ '=' := by
    have hall : alphabet.all fun other => other.toNat < 128 ∧ other ≠ '=' := by decide
    simpa using hall
  delta Char.toUpper at hupper
  split at hupper
  · rename_i hlower
    have hcode : 97 ≤ character.toNat ∧ character.toNat ≤ 122 := hlower
    refine ⟨by omega, fun heq => ?_⟩
    rw [heq] at hcode
    exact absurd hcode.1 (by decide)
  · exact hplain character hupper

theorem withoutPadding_append (hnone : ∀ character ∈ text, character ≠ '=') (padding : ℕ) :
    withoutPadding (text ++ List.replicate padding '=') = text := by
  induction padding with
  | zero =>
    rw [List.replicate_zero, List.append_nil, withoutPadding, List.rdropWhile_eq_self_iff]
    intro hne hlast
    exact hnone _ (List.getLast_mem hne) (of_decide_eq_true hlast)
  | succ padding ih =>
    rw [List.replicate_succ', ← List.append_assoc, withoutPadding,
      List.rdropWhile_concat_pos _ _ _ (by decide)]
    exact ih

/-! ## The codes of a stored secret -/

theorem truncated_eq (digest : List UInt8) (place : ℕ) :
    truncated digest place = (readUInt32BE digest place).map (· % 2 ^ 31) := by
  unfold truncated readUInt32BE
  split
  · rw [Option.map_some]
    congr 1
    rename_i first second third fourth rest _
    have hsecond := second.toNat_lt
    have hthird := third.toNat_lt
    have hfourth := fourth.toNat_lt
    omega
  · rfl

/-- The code of a text is the one of the bytes that it stands for. -/
theorem totp_eq (toUpperCase : List Char → List Char)
    (hmac : List UInt8 → List UInt8 → List UInt8) (secret : List Char) (counter : ℕ) :
    totp toUpperCase hmac secret counter =
      authenticatorCode hmac (base32Decode toUpperCase secret) counter := by
  have hnibble (value : ℕ) : value &&& 0x0f = value % 16 := Nat.and_two_pow_sub_one_eq_mod value 4
  have hword (value : ℕ) : value &&& 0x7fffffff = value % 2 ^ 31 :=
    Nat.and_two_pow_sub_one_eq_mod value 31
  simp only [totp, authenticatorCode, truncated_eq, hnibble, Option.map_map]
  congr 1
  funext word
  have hsmall : word % 2 ^ 31 % 1000000 < 10 ^ (5 + 1) := Nat.mod_lt _ (by decide)
  calc padStart 6 '0' (Nat.toDigits 10 ((word &&& 0x7fffffff) % 1000000))
    _ = padStart 6 '0' (Nat.toDigits 10 (word % 2 ^ 31 % 1000000)) := by rw [hword]
    _ = fixedDigits 10 6 (word % 2 ^ 31 % 1000000) := padStart_toDigits (by decide) hsmall
    _ = fixedDigits 10 6 (word % 2 ^ 31) := fixedDigits_mod 10 6 (word % 2 ^ 31)

/-- A secret is read back from its text, in capitals or not and with any padding, and the code
that is computed from the text is the one of the bytes. -/
theorem secret_survives
    (hascii : ∀ text : List Char, (∀ character ∈ text, character.toNat < 128) →
      toUpperCase text = text.map Char.toUpper)
    (bytes : List UInt8) (hcase : text.map Char.toUpper = base32 bytes) (padding : ℕ) :
    base32Decode toUpperCase (text ++ List.replicate padding '=') = bytes ∧
      ∀ (hmac : List UInt8 → List UInt8 → List UInt8) (counter : ℕ),
        totp toUpperCase hmac (text ++ List.replicate padding '=') counter =
          authenticatorCode hmac bytes counter := by
  have hletters : ∀ character ∈ text, character.toNat < 128 ∧ character ≠ '=' := by
    intro character hmem
    apply alphabet_toUpper
    apply (flatMap_flatMap_symbol (groups_spec bytes)).1
    rw [← base32_eq, ← hcase]
    exact List.mem_map_of_mem hmem
  have hdecode : base32Decode toUpperCase (text ++ List.replicate padding '=') = bytes := by
    obtain ⟨filled, hfilled, hbits⟩ := bits_base32 bytes
    rw [base32Decode, withoutPadding_append fun character hmem => (hletters character hmem).2,
      hascii text fun character hmem => (hletters character hmem).1, hcase, hbits]
    apply bytes_of_bits
    rw [List.length_replicate]
    exact hfilled
  refine ⟨hdecode, fun hmac counter => ?_⟩
  rw [totp_eq, hdecode]

/-- Five bytes in small letters and with padding. -/
theorem secret_survives_example :
    base32Decode (List.map Char.toUpper) ("jbswy3dp".toList ++ List.replicate 3 '=') =
        [72, 101, 108, 108, 111] ∧
      ∀ (hmac : List UInt8 → List UInt8 → List UInt8) (counter : ℕ),
        totp (List.map Char.toUpper) hmac ("jbswy3dp".toList ++ List.replicate 3 '=') counter =
          authenticatorCode hmac [72, 101, 108, 108, 111] counter :=
  secret_survives (fun _ _ => rfl) [72, 101, 108, 108, 111]
    (show "jbswy3dp".toList.map Char.toUpper = base32 [72, 101, 108, 108, 111] by decide) 3

end Text

end Finify.Admin.Base32
