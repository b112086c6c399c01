/-
# Maps filled from lists

A map that is filled from a list keeps, under every key, the last item of the key, in the place
of the first.
-/

import Mathlib.Data.List.Induction
import Mathlib.Data.List.Nodup

namespace Finify.Foundations

universe u v w

variable {α : Type u} {κ : Type v} [DecidableEq κ] (key : α → κ)

def setEntry (entries : List α) (item : α) : List α :=
  if ∃ other ∈ entries, key other = key item then
    entries.map fun other => if key other = key item then item else other
  else entries ++ [item]

def entriesOf (items : List α) : List α := items.foldl (setEntry key) []

/-- The items that are the last ones of their keys. -/
def lastBy : List α → List α
  | [] => []
  | item :: rest =>
    if ∃ later ∈ rest, key later = key item then lastBy rest else item :: lastBy rest

section

variable {key}

/-- An item that comes last replaces those of its key. -/
theorem mem_setEntry {entries : List α} {item other : α} :
    other ∈ setEntry key entries item ↔ other = item ∨ other ∈ entries ∧ key other ≠ key item := by
  unfold setEntry
  split
  case isTrue hfound =>
    obtain ⟨found, hmem, hkey⟩ := hfound
    constructor
    · intro hother
      obtain ⟨old, hold, rfl⟩ := List.mem_map.mp hother
      split
      case isTrue => exact .inl rfl
      case isFalse hne => exact .inr ⟨hold, hne⟩
    · rintro (rfl | ⟨hother, hne⟩)
      · exact List.mem_map.mpr ⟨found, hmem, if_pos hkey⟩
      · exact List.mem_map.mpr ⟨other, hother, if_neg hne⟩
  case isFalse hnone =>
    rw [List.mem_append, List.mem_singleton]
    constructor
    · rintro (hother | rfl)
      · exact .inr ⟨hother, fun hkey => hnone ⟨other, hother, hkey⟩⟩
      · exact .inl rfl
    · rintro (rfl | ⟨hother, _⟩)
      · exact .inr rfl
      · exact .inl hother

/-- No two entries have the same key. -/
theorem nodup_setEntry {entries : List α} (hnodup : (entries.map key).Nodup) (item : α) :
    ((setEntry key entries item).map key).Nodup := by
  unfold setEntry
  split
  case isTrue =>
    have hkeys : (entries.map fun other => if key other = key item then item else other).map key =
        entries.map key := by
      rw [List.map_map]
      apply List.map_congr_left
      intro other _
      rw [Function.comp_apply]
      split
      case isTrue hkey => exact hkey.symm
      case isFalse => rfl
    rw [hkeys]
    exact hnodup
  case isFalse hnone =>
    rw [List.map_append, List.map_singleton, ← List.concat_eq_append]
    apply hnodup.concat
    intro hmem
    obtain ⟨other, hother, hkey⟩ := List.mem_map.mp hmem
    exact hnone ⟨other, hother, hkey⟩

theorem nodup_entriesOf (items : List α) : ((entriesOf key items).map key).Nodup := by
  unfold entriesOf
  induction items using List.reverseRecOn with
  | nil => exact List.nodup_nil
  | append_singleton items item ih =>
    rw [List.foldl_append]
    exact nodup_setEntry ih item

/-- Before a last item, the last ones are those of other keys. -/
theorem mem_lastBy_append {items : List α} {item other : α} :
    other ∈ lastBy key (items ++ [item]) ↔
      other = item ∨ other ∈ lastBy key items ∧ key other ≠ key item := by
  induction items with
  | nil => simp [lastBy]
  | cons first rest ih =>
    rw [List.cons_append, lastBy, lastBy]
    by_cases hlater : ∃ later ∈ rest, key later = key first
    case pos =>
      have hmore : ∃ later ∈ rest ++ [item], key later = key first := by
        obtain ⟨later, hmem, hkey⟩ := hlater
        exact ⟨later, List.mem_append_left _ hmem, hkey⟩
      rw [if_pos hlater, if_pos hmore, ih]
    case neg =>
      rw [if_neg hlater]
      by_cases hsame : key item = key first
      case pos =>
        have hmore : ∃ later ∈ rest ++ [item], key later = key first :=
          ⟨item, List.mem_append_right _ (List.mem_singleton_self _), hsame⟩
        rw [if_pos hmore, ih, List.mem_cons]
        constructor
        · exact Or.imp_right fun hrest => ⟨.inr hrest.1, hrest.2⟩
        · rintro (hitem | ⟨rfl | hrest, hne⟩)
          · exact .inl hitem
          · exact absurd hsame.symm hne
          · exact .inr ⟨hrest, hne⟩
      case neg =>
        have hnone : ¬ ∃ later ∈ rest ++ [item], key later = key first := by
          rintro ⟨later, hmem, hkey⟩
          rcases List.mem_append.mp hmem with hrest | hlast
          · exact hlater ⟨later, hrest, hkey⟩
          · exact hsame (List.mem_singleton.mp hlast ▸ hkey)
        rw [if_neg hnone, List.mem_cons, ih, List.mem_cons]
        constructor
        · rintro (rfl | hitem | ⟨hrest, hne⟩)
          · exact .inr ⟨.inl rfl, Ne.symm hsame⟩
          · exact .inl hitem
          · exact .inr ⟨.inr hrest, hne⟩
        · rintro (hitem | ⟨rfl | hrest, hne⟩)
          · exact .inr (.inl hitem)
          · exact .inl rfl
          · exact .inr (.inr ⟨hrest, hne⟩)

/-- Every key of the items is one of a last item. -/
theorem exists_mem_lastBy {items : List α} {k : κ} :
    (∃ item ∈ lastBy key items, key item = k) ↔ ∃ item ∈ items, key item = k := by
  induction items with
  | nil => rfl
  | cons item rest ih =>
    rw [lastBy]
    split
    case isTrue hlater =>
      rw [ih]
      constructor
      · rintro ⟨found, hfound, hkey⟩
        exact ⟨found, List.mem_cons_of_mem _ hfound, hkey⟩
      · rintro ⟨found, hfound, hkey⟩
        rcases List.mem_cons.mp hfound with rfl | hrest
        · obtain ⟨later, hmem, hsame⟩ := hlater
          exact ⟨later, hmem, hsame.trans hkey⟩
        · exact ⟨found, hrest, hkey⟩
    case isFalse =>
      simp only [List.exists_mem_cons_iff, ih]

/-- The entries are the last items of the keys. -/
theorem mem_entriesOf {items : List α} {item : α} :
    item ∈ entriesOf key items ↔ item ∈ lastBy key items := by
  unfold entriesOf
  induction items using List.reverseRecOn with
  | nil => rfl
  | append_singleton items last ih =>
    rw [List.foldl_append, List.foldl_cons, List.foldl_nil, mem_setEntry, mem_lastBy_append, ih]

omit [DecidableEq κ] in
/-- Keys are kept when every item is made into another one of its key. -/
theorem map_key_of_mapM {β : Type w} (key : α → κ) (key' : β → κ) {make : α → Option β}
    (hkey : ∀ item made, make item = some made → key' made = key item) {items : List α}
    {all : List β} (hall : items.mapM make = some all) : all.map key' = items.map key := by
  induction items generalizing all with
  | nil =>
    cases hall
    rfl
  | cons item rest ih =>
    rw [List.mapM_cons] at hall
    obtain ⟨made, hmade, hrest⟩ := Option.bind_eq_some_iff.mp hall
    obtain ⟨others, hothers, hsame⟩ := Option.bind_eq_some_iff.mp hrest
    cases hsame
    rw [List.map_cons, List.map_cons, hkey item made hmade, ih hothers]

/-- What is made of the last items is the last that is made of a key. -/
theorem lastBy_mapM {β : Type w} (key : α → κ) (key' : β → κ) {make : α → Option β}
    (hkey : ∀ item made, make item = some made → key' made = key item) {items : List α}
    {all : List β} (hall : items.mapM make = some all) :
    (lastBy key items).mapM make = some (lastBy key' all) := by
  induction items generalizing all with
  | nil =>
    cases hall
    rfl
  | cons item rest ih =>
    rw [List.mapM_cons] at hall
    obtain ⟨made, hmade, hrest⟩ := Option.bind_eq_some_iff.mp hall
    obtain ⟨others, hothers, hsame⟩ := Option.bind_eq_some_iff.mp hrest
    cases hsame
    have hlater : (∃ later ∈ others, key' later = key' made) ↔
        ∃ later ∈ rest, key later = key item := by
      rw [← List.mem_map, ← List.mem_map, map_key_of_mapM key key' hkey hothers, hkey item made hmade]
    rw [lastBy, lastBy]
    by_cases hmore : ∃ later ∈ rest, key later = key item
    case pos =>
      rw [if_pos hmore, if_pos (hlater.mpr hmore)]
      exact ih hothers
    case neg =>
      rw [if_neg hmore, if_neg fun hfound => hmore (hlater.mp hfound), List.mapM_cons, hmade,
        ih hothers]
      rfl

end

end Finify.Foundations
