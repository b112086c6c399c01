/-
# Canonical texts

The input of a step is remembered by a hash of its canonical text, in which the entries of every
object are sorted by the locale's order of their keys.  The order may call two different keys equal,
and a stable sort then leaves them as they came.
-/

import Finify.Foundations.JsonText
import Finify.Foundations.StableSort
import Mathlib.Data.List.Perm.Lattice

namespace Finify.Onboarding.CanonicalJson

open Foundations

variable {Number : Type}

/-- What the service takes from the language: the texts of numbers and the order of keys. -/
structure Language (Number : Type) where
  numberText : Number → Units
  localeCompare : Units → Units → ℤ

/-- A key is not behind another. -/
def Language.notBehind (language : Language Number) (first second : Units) : Prop :=
  language.localeCompare first second ≤ 0

instance (language : Language Number) : DecidableRel language.notBehind :=
  fun first second => inferInstanceAs (Decidable (language.localeCompare first second ≤ 0))

/-! ## The service -/

/-- `.sort(([a], [b]) => a.localeCompare(b))`, which is stable. -/
def sortByKey {V : Type} (language : Language Number) (entries : List (Units × V)) :
    List (Units × V) :=
  entries.insertionSort fun first second => language.notBehind first.1 second.1

mutual

/-- `canonicalJson`; the sort reads the keys alone, so the texts of the items are made before it. -/
def canonicalJson (language : Language Number) : Json Number → Units
  | .array items => 91 :: joined 44 (canonicalItems language items) ++ [93]
  | .object entries =>
    123 :: joined 44 ((sortByKey language (canonicalEntries language entries)).map
      fun entry => quoted entry.1 ++ 58 :: entry.2) ++ [125]
  | .null => printed language.numberText .null
  | .boolean value => printed language.numberText (.boolean value)
  | .number value => printed language.numberText (.number value)
  | .string value => printed language.numberText (.string value)

def canonicalItems (language : Language Number) : List (Json Number) → List Units
  | [] => []
  | item :: items => canonicalJson language item :: canonicalItems language items

def canonicalEntries (language : Language Number) :
    List (Units × Json Number) → List (Units × Units)
  | [] => []
  | (key, item) :: entries =>
    (key, canonicalJson language item) :: canonicalEntries language entries

end

/-! ## Values -/

def arrayIndex (key : Units) : Option ℕ :=
  let number := key.foldl (fun total unit => total * 10 + (unit.toNat - 48)) 0
  if key ≠ [] ∧ (key.all fun unit => 48 ≤ unit.toNat ∧ unit.toNat ≤ 57) ∧
      (key.head? = some 48 → key = [48]) ∧ number < 2 ^ 32 - 1 then
    some number
  else none

/-- The first key is enumerated before the second wherever both stand: array indices come first, in
ascending order. -/
def EnumeratedBefore (first second : Units) : Prop :=
  match arrayIndex first, arrayIndex second with
  | some number, some other => number < other
  | none, some _ => False
  | _, none => True

/-- Something holds of the keys of each object of a value. -/
inductive Everywhere (holds : List Units → Prop) : Json Number → Prop
  | null : Everywhere holds .null
  | boolean (value : Bool) : Everywhere holds (.boolean value)
  | number (value : Number) : Everywhere holds (.number value)
  | string (value : Units) : Everywhere holds (.string value)
  | array {items : List (Json Number)} (hitems : ∀ item ∈ items, Everywhere holds item) :
      Everywhere holds (.array items)
  | object {entries : List (Units × Json Number)} (hkeys : holds (entries.map Prod.fst))
      (hentries : ∀ entry ∈ entries, Everywhere holds entry.2) :
      Everywhere holds (.object entries)

/-- Objects have each key once, enumerated as the language does. -/
def IsValue (value : Json Number) : Prop :=
  Everywhere (fun keys => keys.Nodup ∧ keys.Pairwise EnumeratedBefore) value

/-- No object has two different keys that compare equal, array indices apart. -/
def TieFree (language : Language Number) (value : Json Number) : Prop :=
  Everywhere (fun keys => ∀ first ∈ keys, ∀ second ∈ keys, arrayIndex first = none →
    arrayIndex second = none → language.localeCompare first second = 0 → first = second) value

/-- Values that are equal up to the order of keys. -/
inductive Same : Json Number → Json Number → Prop
  | null : Same .null .null
  | boolean (value : Bool) : Same (.boolean value) (.boolean value)
  | number (value : Number) : Same (.number value) (.number value)
  | string (value : Units) : Same (.string value) (.string value)
  | array {items items' : List (Json Number)} (hlength : items.length = items'.length)
      (hitems : ∀ (index : ℕ) (item item' : Json Number), items[index]? = some item →
        items'[index]? = some item' → Same item item') : Same (.array items) (.array items')
  | object {entries entries' : List (Units × Json Number)}
      (hkeys : (entries.map Prod.fst).Perm (entries'.map Prod.fst))
      (hentries : ∀ (key : Units) (item item' : Json Number), (key, item) ∈ entries →
        (key, item') ∈ entries' → Same item item') : Same (.object entries) (.object entries')

/-- What is documented of the language: the texts of numbers are told apart, and keys are compared
by a total preorder. -/
structure Language.Documented (language : Language Number) : Prop where
  numbers : NumberTexts language.numberText
  sign (first second : Units) :
    0 < language.localeCompare first second ↔ language.localeCompare second first < 0
  transitive {first second third : Units} (hfirst : language.notBehind first second)
    (hsecond : language.notBehind second third) : language.notBehind first third

/-! ## The value whose text it is -/

/-- The value with the entries of each object sorted. -/
def arranged (language : Language Number) (value : Json Number) : Json Number :=
  value.reorder (sortByKey language)

variable {language : Language Number}

theorem canonicalItems_eq (items : List (Json Number)) :
    canonicalItems language items = items.map (canonicalJson language) := by
  induction items with
  | nil => rfl
  | cons item items ih => rw [canonicalItems, ih, List.map_cons]

theorem canonicalEntries_eq (entries : List (Units × Json Number)) :
    canonicalEntries language entries = entries.map (Prod.map id (canonicalJson language)) := by
  induction entries with
  | nil => rfl
  | cons entry entries ih => rw [canonicalEntries, ih, List.map_cons, Prod.map, id]

theorem arranged_array (items : List (Json Number)) :
    arranged language (.array items) = .array (items.map (arranged language)) :=
  reorder_array items

theorem arranged_object (entries : List (Units × Json Number)) :
    arranged language (.object entries) =
      .object (sortByKey language (entries.map (Prod.map id (arranged language)))) :=
  reorder_object entries

theorem map_sortByKey {V W : Type} (change : V → W) (entries : List (Units × V)) :
    (sortByKey language entries).map (Prod.map id change) =
      sortByKey language (entries.map (Prod.map id change)) :=
  List.map_insertionSort _ _ _ entries fun _ _ _ _ => Iff.rfl

theorem keys_sortByKey {V : Type} (entries : List (Units × V)) :
    (sortByKey language entries).map Prod.fst =
      (entries.map Prod.fst).insertionSort language.notBehind :=
  List.map_insertionSort _ _ _ entries fun _ _ _ _ => Iff.rfl

/-- The canonical text is the plain text of the arranged value. -/
theorem canonicalJson_eq_printed (value : Json Number) :
    canonicalJson language value = printed language.numberText (arranged language value) := by
  induction value using Json.induct with
  | null | boolean value | number value | string value => rfl
  | array items ih =>
    rw [canonicalJson, arranged_array, printed, canonicalItems_eq, printedItems_eq,
      List.map_map, List.map_congr_left ih]
    rfl
  | object entries ih =>
    have hitems : entries.map (Prod.map id (canonicalJson language)) =
        (entries.map (Prod.map id (arranged language))).map
          (Prod.map id (printed language.numberText)) := by
      rw [List.map_map]
      apply List.map_congr_left
      intro entry hentry
      exact Prod.ext rfl (ih entry hentry)
    rw [canonicalJson, arranged_object, printed, canonicalEntries_eq, printedEntries_eq, hitems,
      ← map_sortByKey, List.map_map]
    rfl

theorem canonicalJson_eq_iff (hlanguage : language.Documented) {first second : Json Number} :
    canonicalJson language first = canonicalJson language second ↔
      arranged language first = arranged language second := by
  rw [canonicalJson_eq_printed, canonicalJson_eq_printed]
  exact (printed_injective hlanguage.numbers).eq_iff

end Finify.Onboarding.CanonicalJson
