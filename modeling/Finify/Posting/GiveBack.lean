/-
# Lines that give entries back

Reversals and refunds post, for every entry they undo, the line with the other
side on the same wallet.  The debits of the original are undone first, so all
credits of such a posting come before all its debits.
-/

import Finify.Posting.Decision

namespace Finify.Posting

open Finify.Foundations

theorem Entry.giveBack_side_eq_debit {entry : Entry} {currency : String} :
    (entry.giveBack currency).side = .debit ↔ entry.debit = 0 := by
  have := entry.debit_nonneg
  unfold Entry.giveBack
  by_cases hdebit : 0 < entry.debit
  · simp [hdebit, hdebit.ne']
  · simp [hdebit]
    omega

theorem Entry.giveBack_debit (entry : Entry) (currency : String) :
    (if (entry.giveBack currency).side = .debit then (entry.giveBack currency).amount else 0) =
      ((entry.credit : ℤ) : Amount) := by
  unfold Entry.giveBack
  by_cases hdebit : 0 < entry.debit
  · have hcredit := entry.debit_or_credit_zero.resolve_left hdebit.ne'
    simp [hdebit, hcredit]
  · simp [hdebit]

theorem Entry.giveBack_credit (entry : Entry) (currency : String) :
    (if (entry.giveBack currency).side = .credit then (entry.giveBack currency).amount else 0) =
      ((entry.debit : ℤ) : Amount) := by
  unfold Entry.giveBack
  by_cases hdebit : 0 < entry.debit
  · simp [hdebit]
  · have hzero : entry.debit = 0 := le_antisymm (not_lt.mp hdebit) entry.debit_nonneg
    simp [hzero]

section Totals

variable (currency : Entry → String)

theorem sideTotal_debit_giveBack (entries : List Entry) :
    sideTotal .debit (entries.map fun entry => entry.giveBack (currency entry)) =
      ((entries.map Entry.credit).sum : ℤ) := by
  induction entries with
  | nil => rfl
  | cons entry rest ih =>
    rw [List.map_cons, sideTotal_cons, ih, Entry.giveBack_debit]
    simp

theorem sideTotal_credit_giveBack (entries : List Entry) :
    sideTotal .credit (entries.map fun entry => entry.giveBack (currency entry)) =
      ((entries.map Entry.debit).sum : ℤ) := by
  induction entries with
  | nil => rfl
  | cons entry rest ih =>
    rw [List.map_cons, sideTotal_cons, ih, Entry.giveBack_credit]
    simp

/-- On one wallet, a posting that gives entries back debits what they credited. -/
theorem walletTotal_debit_giveBack (wallet : ℤ) (entries : List Entry) :
    walletTotal .debit wallet (entries.map fun entry => entry.giveBack (currency entry)) =
      (accountTotal Entry.credit wallet entries : ℤ) := by
  rw [walletTotal, List.filter_map, sideTotal_debit_giveBack]
  rfl

theorem walletTotal_credit_giveBack (wallet : ℤ) (entries : List Entry) :
    walletTotal .credit wallet (entries.map fun entry => entry.giveBack (currency entry)) =
      (accountTotal Entry.debit wallet entries : ℤ) := by
  rw [walletTotal, List.filter_map, sideTotal_credit_giveBack]
  rfl

end Totals

/-- Once a debit has been posted, only debits follow. -/
def CreditsFirst (lines : List Line) : Prop :=
  lines.Pairwise fun earlier later => earlier.side = .debit → later.side = .debit

theorem debits_last_of_recorded {header : Header} {numbered : List (Line × ℕ)}
    {entries : List Entry} (hrecorded : List.Forall₂ (RecordedBy header) numbered entries)
    (horder : CreditsFirst (numbered.map Prod.fst)) :
    entries.Pairwise fun earlier later => 0 < earlier.debit → later.credit = 0 := by
  unfold CreditsFirst at horder
  induction hrecorded with
  | nil => exact .nil
  | @cons n entry numbered entries hrecord hrest ih =>
    rw [List.map_cons, List.pairwise_cons] at horder
    refine .cons ?_ (ih horder.2)
    intro later hlater hdebit
    obtain ⟨m, hm, hrecord'⟩ := exists_line_of_recorded hrest hlater
    have hside : n.1.side = .debit := by
      by_contra hcredit
      have hzero := hrecord.debit
      rw [if_neg hcredit] at hzero
      have : entry.debit = 0 := by exact_mod_cast hzero
      omega
    have hlaterSide := horder.1 m.1 (List.mem_map_of_mem hm) hside
    have hzero := hrecord'.credit
    rw [hlaterSide, if_neg (by decide)] at hzero
    exact_mod_cast hzero

theorem giveBackOrder_sorted (posted : List (Journal × Entry)) :
    (giveBackOrder posted).Pairwise fun first second => giveBackKey first ≤ giveBackKey second :=
  List.pairwise_insertionSort _ posted

theorem debit_first_of_key_le {first second : Journal × Entry}
    (hkey : giveBackKey first ≤ giveBackKey second) (hfirst : first.2.debit = 0) :
    second.2.debit = 0 := by
  by_contra hsecond
  have hpositive : 0 < second.2.debit := lt_of_le_of_ne second.2.debit_nonneg (Ne.symm hsecond)
  simp [giveBackKey, Prod.Lex.toLex_le_toLex, hfirst, hpositive] at hkey

theorem creditsFirst_giveBackOrder (posted : List (Journal × Entry)) (currency : Entry → String) :
    CreditsFirst (((giveBackOrder posted).map Prod.snd).map
      fun entry => entry.giveBack (currency entry)) := by
  unfold CreditsFirst
  rw [List.pairwise_map, List.pairwise_map]
  refine (giveBackOrder_sorted posted).imp fun hkey hearlier => ?_
  rw [Entry.giveBack_side_eq_debit] at hearlier ⊢
  exact debit_first_of_key_le hkey hearlier

end Finify.Posting
