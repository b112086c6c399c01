/-
# Registers without gaps

A register lists keys in a linear order and marks some of them closed.  It has no gap when
every key from its first row up to a closed one is closed.  Closing the next key in line
keeps it so, and a key that is in line for one party stays in line when another closes a key
that is.
-/

import Mathlib.Order.SuccPred.Basic

namespace Finify.Foundations

universe u

/-- The keys with a row, and those among them that are closed. -/
@[ext] structure Register (α : Type u) where
  rows : Set α
  closed : Set α
  subset : closed ⊆ rows

namespace Register

variable {α : Type u}

/-- Give a key a row. -/
def enter (register : Register α) (key : α) : Register α where
  rows := insert key register.rows
  closed := register.closed
  subset := register.subset.trans (Set.subset_insert _ _)

def close (register : Register α) (key : α) : Register α where
  rows := insert key register.rows
  closed := insert key register.closed
  subset := Set.insert_subset_insert register.subset

@[simp] theorem mem_rows_enter {register : Register α} {key other : α} :
    other ∈ (register.enter key).rows ↔ other = key ∨ other ∈ register.rows := Iff.rfl

@[simp] theorem mem_closed_enter {register : Register α} {key other : α} :
    other ∈ (register.enter key).closed ↔ other ∈ register.closed := Iff.rfl

@[simp] theorem mem_rows_close {register : Register α} {key other : α} :
    other ∈ (register.close key).rows ↔ other = key ∨ other ∈ register.rows := Iff.rfl

@[simp] theorem mem_closed_close {register : Register α} {key other : α} :
    other ∈ (register.close key).closed ↔ other = key ∨ other ∈ register.closed := Iff.rfl

variable [LinearOrder α]

def Started (register : Register α) (key : α) : Prop := ∃ first ∈ register.rows, first ≤ key

/-- From the first row up to a closed key every key is closed. -/
def Gapless (register : Register α) : Prop :=
  ∀ last ∈ register.closed, ∀ key < last, register.Started key → key ∈ register.closed

/-- Closing the key leaves no gap: all before it is closed, and nothing after it unless it is
closed itself. -/
structure InLine (register : Register α) (key : α) : Prop where
  before : ∀ earlier < key, register.Started earlier → earlier ∈ register.closed
  after : key ∉ register.closed → ∀ last ∈ register.closed, last ≤ key

variable {register : Register α} {key other : α}

theorem Started.mono (hstarted : register.Started key) (hle : key ≤ other) :
    register.Started other := by
  obtain ⟨first, hrow, hfirst⟩ := hstarted
  exact ⟨first, hrow, hfirst.trans hle⟩

theorem Started.of_mem (hrow : key ∈ register.rows) : register.Started key :=
  ⟨key, hrow, le_rfl⟩

theorem Started.enter (hstarted : register.Started key) (added : α) :
    (register.enter added).Started key := by
  obtain ⟨first, hrow, hfirst⟩ := hstarted
  exact ⟨first, .inr hrow, hfirst⟩

theorem Started.close (hstarted : register.Started key) (added : α) :
    (register.close added).Started key := by
  obtain ⟨first, hrow, hfirst⟩ := hstarted
  exact ⟨first, .inr hrow, hfirst⟩

/-- Where a new row begins the register, it begins it from there on. -/
theorem started_insert {grown : Register α} (hrows : grown.rows = insert other register.rows)
    (hstarted : grown.Started key) : other ≤ key ∨ register.Started key := by
  obtain ⟨first, hrow, hfirst⟩ := hstarted
  rw [hrows] at hrow
  cases hrow with
  | inl hnew => exact .inl (hnew ▸ hfirst)
  | inr hold => exact .inr ⟨first, hold, hfirst⟩

/-- A row that begins nothing before a closed key makes no gap. -/
theorem Gapless.enter (hgapless : register.Gapless)
    (hfree : register.Started other ∨ ∀ last ∈ register.closed, last ≤ other) :
    (register.enter other).Gapless := by
  intro last hlast key hkey hstarted
  rcases started_insert rfl hstarted with hnew | hold
  · cases hfree with
    | inl hbegun => exact hgapless last hlast key hkey (hbegun.mono hnew)
    | inr hnone => exact absurd (hkey.trans_le (hnone last hlast)) (not_lt.mpr hnew)
  · exact hgapless last hlast key hkey hold

/-- Closing what is in line makes no gap. -/
theorem Gapless.close (hgapless : register.Gapless) (hline : register.InLine other) :
    (register.close other).Gapless := by
  intro last hlast key hkey hstarted
  by_cases hsame : key = other
  · exact .inl hsame
  · right
    rcases hlast with rfl | hclosed
    · rcases started_insert rfl hstarted with hnew | hold
      · exact absurd hkey (not_lt.mpr hnew)
      · exact hline.before key hkey hold
    · rcases started_insert rfl hstarted with hnew | hold
      · -- the key lies strictly between the one in line and a closed one
        have hother : other ∈ register.closed := by
          by_contra hopen
          exact absurd (hkey.trans_le (hline.after hopen last hclosed)) (not_lt.mpr hnew)
        exact hgapless last hclosed key hkey ((Started.of_mem (register.subset hother)).mono hnew)
      · exact hgapless last hclosed key hkey hold

/-- What is in line stays there when a row is entered that begins nothing before it. -/
theorem InLine.enter (hline : register.InLine key)
    (hfree : register.Started other ∨ key ≤ other) : (register.enter other).InLine key := by
  constructor
  · intro earlier hearlier hstarted
    rcases started_insert rfl hstarted with hnew | hold
    · cases hfree with
      | inl hbegun => exact hline.before earlier hearlier (hbegun.mono hnew)
      | inr hle => exact absurd (hearlier.trans_le hle) (not_lt.mpr hnew)
    · exact hline.before earlier hearlier hold
  · exact hline.after

/-- What is in line stays there when another key in line is closed, if the register has begun
by both. -/
theorem InLine.close (hline : register.InLine key) (hother : register.InLine other)
    (hbegun : key = other ∨ register.Started (min key other)) :
    (register.close other).InLine key := by
  rcases hbegun with rfl | hbegun
  · constructor
    · intro earlier hearlier hstarted
      rcases started_insert rfl hstarted with hnew | hold
      · exact absurd hearlier (not_lt.mpr hnew)
      · exact .inr (hline.before earlier hearlier hold)
    · exact fun hopen => absurd (.inl rfl) hopen
  · constructor
    · intro earlier hearlier hstarted
      right
      apply hline.before earlier hearlier
      rcases started_insert rfl hstarted with hnew | hold
      · exact (hbegun.mono (min_le_right _ _)).mono hnew
      · exact hold
    · intro hopen last hlast
      rcases hlast with rfl | hclosed
      · by_contra hlater
        rw [not_le] at hlater
        apply hopen
        exact .inr (hother.before key hlater (hbegun.mono (min_le_left _ _)))
      · exact hline.after (fun hkey => hopen (.inr hkey)) last hclosed

/-- The key after the last closed one is in line. -/
theorem Gapless.inLine_succ [SuccOrder α] [NoMaxOrder α] (hgapless : register.Gapless)
    (hclosed : key ∈ register.closed) : register.InLine (Order.succ key) := by
  constructor
  · intro earlier hearlier hstarted
    rcases (Order.lt_succ_iff.mp hearlier).eq_or_lt with rfl | hlt
    · exact hclosed
    · exact hgapless key hclosed earlier hlt hstarted
  · intro hopen last hlast
    by_contra hlater
    rw [not_le] at hlater
    apply hopen
    exact hgapless last hlast _ hlater
      ((Started.of_mem (register.subset hclosed)).mono (Order.le_succ key))

/-- The first row of a register is in line when it is not closed. -/
theorem Gapless.inLine_first (hgapless : register.Gapless) (hrow : key ∈ register.rows)
    (hopen : key ∉ register.closed) (hfirst : ∀ earlier < key, ¬ register.Started earlier) :
    register.InLine key := by
  constructor
  · exact fun earlier hearlier hstarted => absurd hstarted (hfirst earlier hearlier)
  · intro _ last hlast
    by_contra hlater
    rw [not_le] at hlater
    exact hopen (hgapless last hlast key hlater (.of_mem hrow))

/-- Any key is in line before the register has begun. -/
theorem inLine_of_not_started (hbegun : ¬ register.Started key)
    (hnone : ∀ last ∈ register.closed, last ≤ key) : register.InLine key :=
  ⟨fun _ hearlier hstarted => absurd (hstarted.mono hearlier.le) hbegun, fun _ => hnone⟩

end Register

end Finify.Foundations
