/-
# Configurations tile the calendar

In every run of interleaved calls the active configurations of an entity and currency follow
each other without overlap or gap, the last one open.  So a date has one applicable
configuration at most, and the close, the journal trigger and `activeCurrencies` find it.
-/

import Finify.Eod.Configurations
import Finify.Foundations.Transition

namespace Finify.Eod.Configurations

open Finify.Foundations

/-! ## The claim about configurations -/

/-- The active configurations of an entity and currency neither overlap nor leave a gap after
the earliest. -/
structure Tiled (rows : List Row) (key : String × String) : Prop where
  single : ∀ date, (applicable rows key date).length ≤ 1
  gapless : ∀ row ∈ activeRows rows key, ∀ date, row.effectiveFrom ≤ date →
    applicable rows key date ≠ []

/-- Whoever looks for the configuration of a date finds the one that is applicable. -/
structure Agreed (rows : List Row) : Prop where
  close : ∀ entity currency date,
    (closeConfiguration rows entity currency date).toList = applicable rows (entity, currency) date
  journal : ∀ entity currency date, entity ≠ "" →
    (journalConfiguration rows (some entity) currency date).toList =
      applicable rows (entity, currency.toUpper) date
  active : ∀ entity currency date,
    (activeCurrencies rows entity date).filter (fun row => row.currency = currency) =
      applicable rows (entity, currency) date

/-- The event ends a call with success. -/
def Event.isCommit : Event → Bool
  | .commit _ => true
  | _ => false

def Event.isOther : Event → Bool
  | .others _ => true
  | _ => false

/-- Nothing is under way, and each entity and currency has one open configuration at most. -/
structure Opening (state : State) : Prop where
  calls : state.calls = []
  single : state.configurations.rows.Pairwise fun first second => first.key ≠ second.key
  opened : ∀ row ∈ state.configurations.rows, row.isActive = true ∧ row.effectiveTo = none

/-! ## From tiles to lookups -/

section

variable {rows : List Row} {key : String × String}

theorem length_applicable (rows : List Row) (key : String × String) (date : Date) :
    (applicable rows key date).length =
      ((activeRows rows key).map Row.span).countP fun span => span.Covers date := by
  rw [applicable, ← List.countP_eq_length_filter, List.countP_map]
  rfl

/-- Spans that tile make the configurations tile. -/
theorem tiled_of_tiles (htiles : Tiles ((activeRows rows key).map Row.span)) : Tiled rows key := by
  cases hrows : activeRows rows key with
  | nil =>
    constructor
    · intro date
      rw [length_applicable, hrows]
      exact Nat.zero_le 1
    · intro row hrow
      rw [hrows] at hrow
      cases hrow
  | cons first others =>
    rw [hrows, List.map_cons] at htiles
    have hcount : ∀ date, (applicable rows key date).length =
        if first.effectiveFrom ≤ date then 1 else 0 := by
      intro date
      rw [length_applicable, hrows, List.map_cons, htiles.countP_covers]
      rfl
    constructor
    · intro date
      rw [hcount]
      split
      · exact le_rfl
      · exact Nat.zero_le 1
    · intro row hrow date hdate hnone
      have hzero := hcount date
      rw [hnone, List.length_nil] at hzero
      have hbefore : ¬ first.effectiveFrom ≤ date := by
        intro hle
        rw [if_pos hle] at hzero
        cases hzero
      -- no span of the tiles begins before the first
      have hlate := htiles.first_le (Row.span row) (by
        rw [hrows] at hrow
        rw [← List.map_cons]
        exact List.mem_map_of_mem hrow)
      exact hbefore (le_trans hlate hdate)

/-- The latest of at most one row is that row. -/
theorem toList_latest {found : List Row} (hsingle : found.length ≤ 1) :
    (latest Row.effectiveFrom found).toList = found := by
  cases found with
  | nil => rfl
  | cons row rest =>
    cases rest with
    | nil => rfl
    | cons other others =>
      simp at hsingle

/-- What the lookups select is what is applicable. -/
theorem filter_eq_applicable (rows : List Row) (entity currency : String) (date : Date) :
    (rows.filter fun row => row.reportingEntity = entity ∧ row.currency = currency ∧
        row.isActive ∧ row.effectiveFrom ≤ date ∧ ∀ last ∈ row.effectiveTo, date ≤ last) =
      applicable rows (entity, currency) date := by
  rw [applicable, activeRows, List.filter_filter]
  apply List.filter_congr
  intro row _
  rw [Bool.eq_iff_iff]
  simp only [Bool.and_eq_true, decide_eq_true_eq]
  simp only [Row.key, Row.span, Span.Covers, Prod.mk.injEq]
  tauto

/-- Where the configurations tile, the lookups agree. -/
theorem agreed_of_tiled (htiled : ∀ key, Tiled rows key) : Agreed rows := by
  constructor
  · intro entity currency date
    rw [closeConfiguration, filter_eq_applicable]
    exact toList_latest ((htiled _).single date)
  · intro entity currency date hentity
    have hnamed : ((some entity).filter fun entity => entity ≠ "").getD "FINIFY_UK" = entity := by
      rw [Option.filter_some, if_pos (decide_eq_true hentity)]
      rfl
    rw [journalConfiguration, hnamed, filter_eq_applicable]
    exact toList_latest ((htiled _).single date)
  · intro entity currency date
    have hperm : ((activeCurrencies rows entity date).filter fun row => row.currency = currency).Perm
        (applicable rows (entity, currency) date) := by
      rw [← filter_eq_applicable, activeCurrencies]
      have hsplit : (rows.filter fun row => row.reportingEntity = entity ∧ row.currency = currency ∧
          row.isActive ∧ row.effectiveFrom ≤ date ∧ ∀ last ∈ row.effectiveTo, date ≤ last) =
            (rows.filter fun row => row.reportingEntity = entity ∧ row.isActive ∧
              row.effectiveFrom ≤ date ∧ ∀ last ∈ row.effectiveTo, date ≤ last).filter
                fun row => row.currency = currency := by
        rw [List.filter_filter]
        apply List.filter_congr
        intro row _
        rw [Bool.eq_iff_iff]
        simp only [Bool.and_eq_true, decide_eq_true_eq]
        tauto
      rw [hsplit]
      exact (List.mergeSort_perm _ _).filter _
    -- lists of at most one row that are permutations of each other are equal
    have hsingle := (htiled (entity, currency)).single date
    cases hrows : applicable rows (entity, currency) date with
    | nil =>
      rw [hrows] at hperm
      exact hperm.eq_nil
    | cons row rest =>
      rw [hrows] at hperm hsingle
      cases rest with
      | nil => exact List.perm_singleton.mp hperm
      | cons other others => simp at hsingle

end

/-! ## What the transactions keep -/

/-- Two calls under way exclude each other: they have not closed the same row, and not both
inserted for one key. -/
def Exclusive (host : Host) (first second : Call) : Prop :=
  (∀ id, first.closed = some id → second.closed ≠ some id) ∧
    (first.hasInserted = true → second.hasInserted = true → first.key host ≠ second.key host)

/-- What a call under way relies on: the row that its update has found is one of its key, the
row it has closed is open for all others and begins before the new one, and if it has closed
none before its insert there is none. -/
structure Founded (host : Host) (rows : List Row) (call : Call) : Prop where
  matched : ∀ id, call.phase = .matched (some id) → ∃ row ∈ rows,
    row.id = id ∧ row.key = call.key host
  closed : ∀ id, call.closed = some id → ∃ row ∈ activeRows rows (call.key host),
    row.id = id ∧ row.effectiveTo = none ∧
      ∃ date ∈ call.effectiveFrom, row.effectiveFrom < date
  fresh : call.phase = .inserted none → activeRows rows (call.key host) = []

/-- The invariant of the runs. -/
structure Kept (host : Host) (state : State) : Prop where
  tiles : ∀ key, Tiles ((activeRows state.configurations.rows key).map Row.span)
  founded : ∀ call ∈ state.calls, Founded host state.configurations.rows call
  exclusive : state.calls.Pairwise (Exclusive host)

section

variable {host : Host} {state after : State} {call : Call} {rows : List Row}
  {key : String × String}

theorem Exclusive.symm {first second : Call} (hexclusive : Exclusive host first second) :
    Exclusive host second first :=
  ⟨fun id hsecond hfirst => hexclusive.1 id hfirst hsecond,
    fun hsecond hfirst hkey => hexclusive.2 hfirst hsecond hkey.symm⟩

/-- A call that has neither closed nor inserted anything excludes nothing. -/
theorem Exclusive.of_idle {first second : Call} (hclosed : first.closed = none)
    (hinserted : first.hasInserted = false) : Exclusive host first second := by
  constructor
  · intro id hid
    rw [hclosed] at hid
    cases hid
  · intro htrue
    rw [hinserted] at htrue
    cases htrue

/-- A call that goes on keeps the invariant when it still relies on what is so, and excludes
the others. -/
theorem Kept.put (hkept : Kept host state) (call : Call) {next : Option Call}
    (hfounded : ∀ further ∈ next, Founded host state.configurations.rows further)
    (hexclusive : ∀ further ∈ next, ∀ other ∈ state.calls.erase call,
      Exclusive host further other) : Kept host (state.put call next) := by
  have hrest : (state.calls.erase call).Pairwise (Exclusive host) :=
    hkept.exclusive.sublist List.erase_sublist
  constructor
  · exact hkept.tiles
  · intro other hother
    cases List.mem_append.mp hother with
    | inl hnew => exact hfounded other (Option.mem_toList.mp hnew)
    | inr hold => exact hkept.founded other (List.mem_of_mem_erase hold)
  · show (next.toList ++ state.calls.erase call).Pairwise _
    cases next with
    | none => exact hrest
    | some further =>
      exact List.pairwise_cons.mpr ⟨fun other hother => hexclusive further rfl other hother, hrest⟩

/-- A call that ends keeps the invariant. -/
theorem Kept.drop (hkept : Kept host state) (call : Call) : Kept host (state.put call none) :=
  hkept.put call (fun _ hnone => by cases hnone) fun _ hnone => by cases hnone

/-- A call that goes on without having closed or inserted keeps the invariant. -/
theorem Kept.goOn (hkept : Kept host state) (call : Call) {further : Call}
    (hclosed : further.closed = none) (hinserted : further.hasInserted = false)
    (hmatched : ∀ id, further.phase = .matched (some id) →
      ∃ row ∈ state.configurations.rows, row.id = id ∧ row.key = further.key host) :
    Kept host (state.put call (some further)) := by
  apply hkept.put call
  · intro other hother
    cases hother
    constructor
    · exact hmatched
    · intro id hid
      rw [hclosed] at hid
      cases hid
    · intro hphase
      rw [Call.hasInserted, hphase] at hinserted
      cases hinserted
  · intro other hother _ _
    cases hother
    exact .of_idle hclosed hinserted

/-- Where spans tile, an open row is the last. -/
theorem eq_append_of_open (htiles : Tiles (rows.map Row.span)) {row : Row} (hrow : row ∈ rows)
    (hopen : row.effectiveTo = none) : ∃ earlier, rows = earlier ++ [row] := by
  induction rows using List.reverseRecOn with
  | nil => cases hrow
  | append_singleton earlier final _ =>
    rw [List.map_append, List.map_singleton] at htiles
    obtain ⟨_, hclosed⟩ := htiles.last_open
    cases List.mem_append.mp hrow with
    | inl hearlier => exact absurd hopen (hclosed row.span (List.mem_map_of_mem hearlier))
    | inr hfinal => exact ⟨earlier, by rw [List.mem_singleton.mp hfinal]⟩

/-- Where spans tile and no row is open, there is no row. -/
theorem eq_nil_of_none_open (htiles : Tiles (rows.map Row.span))
    (hnone : rows.find? (fun row => row.effectiveTo = none) = none) : rows = [] := by
  induction rows using List.reverseRecOn with
  | nil => rfl
  | append_singleton earlier final _ =>
    rw [List.map_append, List.map_singleton] at htiles
    have hopen := htiles.last_open.1
    have hclosed := List.find?_eq_none.mp hnone final (by simp)
    exact absurd (decide_eq_true hopen) hclosed

theorem mem_of_openRow {row : Row} (hfind : state.openRow key = some row) :
    row ∈ activeRows state.configurations.rows key ∧ row.effectiveTo = none :=
  ⟨List.mem_of_find?_eq_some hfind, by simpa using List.find?_some hfind⟩

/-! ## The statements of a call -/

theorem Kept.lockWallet (hkept : Kept host state) (hstep : state.lockWallet call = some after) :
    Kept host after := by
  unfold State.lockWallet at hstep
  split at hstep
  · split at hstep
    · cases hstep
      exact hkept.goOn call rfl rfl fun _ hmatched => by cases hmatched
    · cases hstep
      exact hkept.drop call
  · cases hstep

theorem Kept.lockCurrency (hkept : Kept host state) {today : Date}
    (hstep : state.lockCurrency host call today = some after) : Kept host after := by
  unfold State.lockCurrency at hstep
  split at hstep
  · obtain ⟨_, hstep⟩ := Option.ite_none_left_eq_some.mp hstep
    split at hstep
    · cases hstep
      exact hkept.goOn call rfl rfl fun _ hmatched => by cases hmatched
    · cases hstep
      exact hkept.drop call
  · cases hstep

theorem Kept.matchOpen (hkept : Kept host state) (hstep : state.matchOpen host call = some after) :
    Kept host after := by
  unfold State.matchOpen at hstep
  split at hstep
  · cases hstep
    apply hkept.goOn call rfl rfl
    intro id hmatched
    obtain ⟨row, hfind, rfl⟩ := Option.map_eq_some_iff.mp (Phase.matched.inj hmatched)
    obtain ⟨hrow, hkey⟩ := List.mem_filter.mp (mem_of_openRow hfind).1
    exact ⟨row, hrow, rfl, (of_decide_eq_true hkey).1⟩
  · cases hstep

theorem Kept.examine (hkept : Kept host state) {today : Date}
    {administrators : List Administrator} {walletTypes : List ℕ} {identifier : ℕ → ℤ}
    (hstep : state.examine host call today administrators walletTypes identifier = some after) :
    Kept host after := by
  unfold State.examine at hstep
  split at hstep
  · split at hstep
    · cases hstep
      exact hkept.goOn call rfl rfl fun _ hmatched => by cases hmatched
    · cases hstep
      exact hkept.drop call
  · cases hstep

/-- The update of `create` closes the open row of its key, which no other call has. -/
theorem Kept.closeOpen (hkept : Kept host state) (hcall : call ∈ state.calls)
    (hstep : state.closeOpen call = some after) : Kept host after := by
  unfold State.closeOpen at hstep
  split at hstep
  case h_1 =>
    cases hstep
    exact hkept.goOn call rfl rfl fun _ hmatched => by cases hmatched
  case h_2 id hphase =>
    split at hstep
    · cases hstep
    case isFalse hfree =>
      split at hstep
      case h_2 =>
        cases hstep
        exact hkept.drop call
      case h_1 row date hfind hdate =>
        split at hstep
        case isFalse =>
          cases hstep
          exact hkept.goOn call rfl rfl fun _ hmatched => by cases hmatched
        case isTrue hopen =>
          split at hstep
          case isFalse =>
            cases hstep
            exact hkept.drop call
          case isTrue hbefore =>
            cases hstep
            obtain ⟨hrow, hid⟩ := Log.find?_eq_some.mp hfind
            obtain ⟨found, hfound, hfoundId, hkey⟩ := (hkept.founded call hcall).matched id hphase
            have hsame : found = row :=
              state.configurations.eq_of_serial_eq hfound hrow (hfoundId.trans hid.symm)
            subst hsame
            apply hkept.put call
            · intro further hfurther
              cases hfurther
              constructor
              · intro _ hmatched
                cases hmatched
              · intro other hother
                have hsame : id = other := Option.some.inj hother
                subst hsame
                refine ⟨found, ?_, hid, hopen.2, date, hdate, Int.lt_of_le_sub_one hbefore⟩
                exact List.mem_filter.mpr ⟨hfound, decide_eq_true ⟨hkey, hopen.1⟩⟩
              · intro hinserted
                cases hinserted
            · intro further hfurther other hother
              cases hfurther
              constructor
              · intro held hheld hotherHeld
                have hsame : id = held := Option.some.inj hheld
                rw [← hsame] at hotherHeld
                exact hfree ⟨other, List.mem_of_mem_erase hother, hotherHeld⟩
              · intro hinserted
                cases hinserted
  case h_3 => cases hstep

/-- The insert goes through only where the unique index allows it. -/
theorem Kept.insert (hkept : Kept host state) (hcall : call ∈ state.calls)
    (hstep : state.insert host call = some after) : Kept host after := by
  unfold State.insert at hstep
  split at hstep
  case h_1 =>
    cases hstep
    exact hkept.drop call
  case h_3 => cases hstep
  case h_2 target date hphase hdate =>
    split at hstep
    · cases hstep
    case isFalse hfree =>
      split at hstep
      case isFalse =>
        cases hstep
        exact hkept.drop call
      case isTrue hunique =>
        cases hstep
        have hclosed : call.closed = target := by
          rw [Call.closed, hphase]
        have hfounded := hkept.founded call hcall
        apply hkept.put call
        · intro further hfurther
          cases hfurther
          constructor
          · intro _ hmatched
            cases hmatched
          · intro id hid
            exact hfounded.closed id (hclosed.trans hid)
          · intro hnone
            have htarget : target = none := Phase.inserted.inj hnone
            subst htarget
            -- an open row would have to be the one that the call has closed
            apply eq_nil_of_none_open (hkept.tiles _)
            cases hopen : state.openRow (call.key host) with
            | none => exact hopen
            | some row =>
              have hother := hunique.1 row hopen
              cases hother
        · intro further hfurther other hother
          cases hfurther
          constructor
          · intro id hid
            have hexclusive := (List.pairwise_cons.mp ((List.perm_cons_erase hcall).pairwise_iff
              Exclusive.symm |>.mp hkept.exclusive)).1 other hother
            exact hexclusive.1 id (hclosed.trans hid)
          · intro _ hinserted hkey
            exact hfree ⟨other, hother, hkey.symm, .inl hinserted⟩

/-! ## The commit -/

/-- What the commit of a call does to a row that was there. -/
def ended (target : Option ℕ) (date : Date) (row : Row) : Row :=
  if target = some row.id then row.endBefore date else row

theorem ended_of_ne {target : Option ℕ} (date : Date) {row : Row} (hne : target ≠ some row.id) :
    ended target date row = row :=
  if_neg hne

theorem id_ended (target : Option ℕ) (date : Date) (row : Row) :
    (ended target date row).id = row.id ∧ (ended target date row).key = row.key := by
  unfold ended
  split
  · exact ⟨rfl, rfl⟩
  · exact ⟨rfl, rfl⟩

theorem rows_written (target : Option ℕ) (date : Date) :
    (state.written host call target date).rows =
      state.configurations.rows.map (ended target date) ++
        [call.row host date state.configurations.next] := by
  cases target with
  | none =>
    have hsame : state.configurations.rows.map (ended none date) = state.configurations.rows := by
      conv_rhs => rw [← List.map_id state.configurations.rows]
      apply List.map_congr_left
      intro row _
      exact ended_of_ne _ (fun hnone => by cases hnone)
    rw [hsame]
    rfl
  | some id =>
    show state.configurations.rows.map _ ++ _ = _
    apply congrArg (· ++ [call.row host date state.configurations.next])
    apply List.map_congr_left
    intro row _
    simp only [ended, Option.some.injEq, eq_comm]

/-- The row of a call is an active one of its key, open from its date on. -/
theorem row_spec (host : Host) (call : Call) (date : Date) (id : ℕ) :
    (call.row host date id).key = call.key host ∧ (call.row host date id).isActive = true ∧
      (call.row host date id).span = ⟨date, none⟩ := by
  unfold Call.row Call.key
  split
  · exact ⟨rfl, rfl, rfl⟩
  · exact ⟨rfl, rfl, rfl⟩

theorem activeRows_written (hfounded : Founded host state.configurations.rows call)
    {target : Option ℕ} (hclosed : call.closed = target) (date : Date) (key : String × String) :
    activeRows (state.written host call target date).rows key =
      (activeRows state.configurations.rows key).map (ended target date) ++
        if call.key host = key then [call.row host date state.configurations.next] else [] := by
  obtain ⟨hkey, hactive, _⟩ := row_spec host call date state.configurations.next
  have hkept : ∀ row ∈ state.configurations.rows,
      (ended target date row).isActive = row.isActive := by
    intro row hrow
    by_cases htarget : target = some row.id
    · obtain ⟨found, hfound, hid, _⟩ := hfounded.closed row.id (hclosed.trans htarget)
      obtain ⟨hmem, hfits⟩ := List.mem_filter.mp hfound
      rw [state.configurations.eq_of_serial_eq hmem hrow hid] at hfits
      rw [ended, if_pos htarget]
      exact (of_decide_eq_true hfits).2.symm
    · rw [ended_of_ne date htarget]
  rw [activeRows, rows_written, List.filter_append, List.filter_map, activeRows]
  congr 1
  · apply congrArg (List.map (ended target date))
    apply List.filter_congr
    intro row hrow
    rw [Function.comp_apply, (id_ended target date row).2, hkept row hrow]
  · by_cases hsame : call.key host = key
    · rw [if_pos hsame, List.filter_cons_of_pos, List.filter_nil]
      exact decide_eq_true ⟨hkey.trans hsame, hactive⟩
    · rw [if_neg hsame, List.filter_cons_of_neg, List.filter_nil]
      simp [hkey, hsame]

/-- Only rows of the key of a call end with its commit. -/
theorem map_ended_of_ne (hfounded : Founded host state.configurations.rows call)
    {target : Option ℕ} (hclosed : call.closed = target) (date : Date)
    (hne : call.key host ≠ key) :
    (activeRows state.configurations.rows key).map (ended target date) =
      activeRows state.configurations.rows key := by
  conv_rhs => rw [← List.map_id (activeRows state.configurations.rows key)]
  apply List.map_congr_left
  intro row hrow
  apply ended_of_ne
  intro htarget
  obtain ⟨found, hfound, hid, _⟩ := hfounded.closed row.id (hclosed.trans htarget)
  obtain ⟨hmem, hfits⟩ := List.mem_filter.mp hfound
  obtain ⟨hrowMem, hrowFits⟩ := List.mem_filter.mp hrow
  rw [state.configurations.eq_of_serial_eq hmem hrowMem hid] at hfits
  exact hne ((of_decide_eq_true hfits).1.symm.trans (of_decide_eq_true hrowFits).1)

/-- A commit keeps the spans of every key tiling. -/
theorem tiles_written (hkept : Kept host state) (hcall : call ∈ state.calls) {target : Option ℕ}
    (hphase : call.phase = .inserted target) {date : Date} (hdate : call.effectiveFrom = some date)
    (key : String × String) :
    Tiles ((activeRows (state.written host call target date).rows key).map Row.span) := by
  have hclosed : call.closed = target := by
    rw [Call.closed, hphase]
  have hfounded := hkept.founded call hcall
  rw [activeRows_written hfounded hclosed]
  by_cases hkey : call.key host = key
  · subst hkey
    rw [if_pos rfl, List.map_append, List.map_singleton, (row_spec host call date _).2.2]
    cases htarget : target with
    | none =>
      subst htarget
      rw [hfounded.fresh hphase]
      exact rfl
    | some id =>
      subst htarget
      obtain ⟨row, hrow, hid, hopen, first, hfirst, hbefore⟩ := hfounded.closed id hclosed
      have hsame : first = date := Option.some.inj (hfirst.symm.trans hdate)
      subst hsame
      have htiles := hkept.tiles (call.key host)
      obtain ⟨earlier, hrows⟩ := eq_append_of_open htiles hrow hopen
      -- the earlier rows have other numbers
      have hothers : earlier.map (ended (some id) first) = earlier := by
        conv_rhs => rw [← List.map_id earlier]
        apply List.map_congr_left
        intro other hother
        apply ended_of_ne
        intro htarget
        have hmem : other ∈ activeRows state.configurations.rows (call.key host) := by
          rw [hrows]
          exact List.mem_append_left _ hother
        have hequal : other = row := state.configurations.eq_of_serial_eq
          (List.mem_filter.mp hmem).1 (List.mem_filter.mp hrow).1
          ((Option.some.inj htarget).symm.trans hid.symm)
        rw [hrows, List.map_append, List.map_singleton] at htiles
        exact htiles.last_open.2 row.span (List.mem_map_of_mem (hequal ▸ hother)) hopen
      rw [hrows, List.map_append, List.map_singleton] at htiles
      rw [hrows, List.map_append, hothers, List.map_singleton, List.map_append,
        List.map_singleton, ended, if_pos (by rw [hid]), List.append_assoc]
      exact htiles.extend hbefore
  · rw [if_neg hkey, List.append_nil, map_ended_of_ne hfounded hclosed date hkey]
    exact hkept.tiles key

/-- A commit keeps the invariant. -/
theorem Kept.commit (hkept : Kept host state) (hcall : call ∈ state.calls)
    (hstep : state.commit host call = some after) : Kept host after := by
  unfold State.commit at hstep
  split at hstep
  case h_2 => cases hstep
  case h_1 target date hphase hdate =>
    cases hstep
    have hclosed : call.closed = target := by
      rw [Call.closed, hphase]
    have hinserted : call.hasInserted = true := by
      rw [Call.hasInserted, hphase]
    have hfounded := hkept.founded call hcall
    have hothers : ∀ other ∈ state.calls.erase call, Exclusive host call other :=
      (List.pairwise_cons.mp ((List.perm_cons_erase hcall).pairwise_iff
        Exclusive.symm |>.mp hkept.exclusive)).1
    constructor
    · exact tiles_written hkept hcall hphase hdate
    · intro other hother
      have hmem : other ∈ state.calls.erase call := hother
      have hexclusive := hothers other hmem
      have hotherFounded := hkept.founded other (List.mem_of_mem_erase hmem)
      show Founded host (state.written host call target date).rows other
      constructor
      · intro id hmatched
        obtain ⟨row, hrow, hid, hkey⟩ := hotherFounded.matched id hmatched
        refine ⟨ended target date row, ?_, (id_ended _ _ _).1.trans hid,
          (id_ended _ _ _).2.trans hkey⟩
        rw [rows_written]
        exact List.mem_append_left _ (List.mem_map_of_mem hrow)
      · intro id hid
        obtain ⟨row, hrow, hrowId, hopen, hbefore⟩ := hotherFounded.closed id hid
        have hne : target ≠ some row.id := by
          intro htarget
          rw [hrowId] at htarget
          exact hexclusive.1 id (hclosed.trans htarget) hid
        refine ⟨row, ?_, hrowId, hopen, hbefore⟩
        rw [activeRows_written hfounded hclosed]
        apply List.mem_append_left
        rw [← ended_of_ne date hne]
        exact List.mem_map_of_mem hrow
      · intro hnone
        have hkey : call.key host ≠ other.key host := by
          apply hexclusive.2 hinserted
          rw [Call.hasInserted, hnone]
        rw [activeRows_written hfounded hclosed, if_neg hkey, List.append_nil,
          hotherFounded.fresh hnone]
        rfl
    · exact hkept.exclusive.sublist List.erase_sublist

/-! ## Steps -/

/-- A call that begins keeps the invariant. -/
theorem Kept.begin (hkept : Kept host state) (request : Request) :
    Kept host { state with calls := { request := request } :: state.calls } := by
  constructor
  · exact hkept.tiles
  · intro call hcall
    cases List.mem_cons.mp hcall with
    | inl hnew =>
      rw [hnew]
      constructor
      · intro _ hmatched
        cases hmatched
      · intro _ hclosed
        cases hclosed
      · intro hinserted
        cases hinserted
    | inr hold => exact hkept.founded call hold
  · exact List.pairwise_cons.mpr ⟨fun _ _ => .of_idle rfl rfl, hkept.exclusive⟩

/-- Every event keeps the invariant. -/
theorem Kept.step {event : Event} (hkept : Kept host state)
    (hstep : step host state event = some after) : Kept host after := by
  cases event with
  | create dto | provision dto =>
    simp only [Configurations.step] at hstep
    split at hstep
    · cases hstep
      exact hkept.begin _
    · cases hstep
      exact hkept
  | lockWallet call => exact hkept.lockWallet (Option.ite_none_right_eq_some.mp hstep).2
  | lockCurrency call today => exact hkept.lockCurrency (Option.ite_none_right_eq_some.mp hstep).2
  | matchOpen call => exact hkept.matchOpen (Option.ite_none_right_eq_some.mp hstep).2
  | closeOpen call =>
    obtain ⟨hcall, hclose⟩ := Option.ite_none_right_eq_some.mp hstep
    exact hkept.closeOpen hcall hclose
  | examine call today administrators walletTypes identifier =>
    exact hkept.examine (Option.ite_none_right_eq_some.mp hstep).2
  | insert call =>
    obtain ⟨hcall, hinsert⟩ := Option.ite_none_right_eq_some.mp hstep
    exact hkept.insert hcall hinsert
  | commit call =>
    obtain ⟨hcall, hcommit⟩ := Option.ite_none_right_eq_some.mp hstep
    exact hkept.commit hcall hcommit
  | fail call =>
    obtain ⟨_, hfail⟩ := Option.ite_none_right_eq_some.mp hstep
    cases hfail
    exact hkept.drop call
  | others wallets =>
    cases hstep
    exact ⟨hkept.tiles, hkept.founded, hkept.exclusive⟩

/-- Only a commit changes the tables, and it ends its call with success. -/
theorem unchanged_step {event : Event} (hstep : Configurations.step host state event = some after)
    (hcommit : event.isCommit = false) (hother : event.isOther = false) :
    after.configurations = state.configurations ∧ after.wallets = state.wallets := by
  cases event with
  | create dto | provision dto =>
    simp only [Configurations.step] at hstep
    split at hstep <;> cases hstep <;> exact ⟨rfl, rfl⟩
  | lockWallet call =>
    have hlock := (Option.ite_none_right_eq_some.mp hstep).2
    unfold State.lockWallet at hlock
    repeat' split at hlock
    all_goals first
      | cases hlock; exact ⟨rfl, rfl⟩
      | cases hlock
  | lockCurrency call today =>
    have hlock := (Option.ite_none_right_eq_some.mp hstep).2
    unfold State.lockCurrency at hlock
    repeat' split at hlock
    all_goals first
      | cases hlock; exact ⟨rfl, rfl⟩
      | cases hlock
  | matchOpen call =>
    have hmatch := (Option.ite_none_right_eq_some.mp hstep).2
    unfold State.matchOpen at hmatch
    repeat' split at hmatch
    all_goals first
      | cases hmatch; exact ⟨rfl, rfl⟩
      | cases hmatch
  | closeOpen call =>
    have hclose := (Option.ite_none_right_eq_some.mp hstep).2
    unfold State.closeOpen at hclose
    repeat' split at hclose
    all_goals first
      | cases hclose; exact ⟨rfl, rfl⟩
      | cases hclose
  | examine call today administrators walletTypes identifier =>
    have hexamine := (Option.ite_none_right_eq_some.mp hstep).2
    unfold State.examine at hexamine
    repeat' split at hexamine
    all_goals first
      | cases hexamine; exact ⟨rfl, rfl⟩
      | cases hexamine
  | insert call =>
    have hinsert := (Option.ite_none_right_eq_some.mp hstep).2
    unfold State.insert at hinsert
    repeat' split at hinsert
    all_goals first
      | cases hinsert; exact ⟨rfl, rfl⟩
      | cases hinsert
  | commit call => cases hcommit
  | fail call =>
    obtain ⟨_, hfail⟩ := Option.ite_none_right_eq_some.mp hstep
    cases hfail
    exact ⟨rfl, rfl⟩
  | others wallets => cases hother

theorem Opening.kept (hopening : Opening state) : Kept host state := by
  constructor
  · intro key
    have hsingle : (activeRows state.configurations.rows key).length ≤ 1 := by
      by_contra hmany
      obtain ⟨first, second, rest, hrows⟩ : ∃ first second rest,
          activeRows state.configurations.rows key = first :: second :: rest := by
        cases hrows : activeRows state.configurations.rows key with
        | nil => simp [hrows] at hmany
        | cons first rest =>
          cases rest with
          | nil => simp [hrows] at hmany
          | cons second rest => exact ⟨first, second, rest, rfl⟩
      have hpairwise := hopening.single.filter fun row => row.key = key ∧ row.isActive
      rw [show state.configurations.rows.filter (fun row => row.key = key ∧ row.isActive) = _ from
        hrows] at hpairwise
      have hkey : ∀ row ∈ activeRows state.configurations.rows key, row.key = key :=
        fun row hrow => (of_decide_eq_true (List.mem_filter.mp hrow).2).1
      apply (List.pairwise_cons.mp hpairwise).1 second List.mem_cons_self
      rw [hkey first (by rw [hrows]; simp), hkey second (by rw [hrows]; simp)]
    cases hrows : activeRows state.configurations.rows key with
    | nil => exact trivial
    | cons row rest =>
      rw [hrows] at hsingle
      cases rest with
      | nil =>
        have hmem : row ∈ activeRows state.configurations.rows key := by
          rw [hrows]
          exact List.mem_cons_self
        exact (hopening.opened row (List.mem_filter.mp hmem).1).2
      | cons other others => simp at hsingle
  · intro call hcall
    rw [hopening.calls] at hcall
    cases hcall
  · rw [hopening.calls]
    exact List.Pairwise.nil

end

/-! ## Runs -/

/-- In every run of interleaved calls the active configurations of every entity and currency
tile the calendar, all lookups of a date agree, and only calls that commit change anything. -/
theorem configurations_tile (host : Host) {start state : State} (hopening : Opening start)
    (hrun : Reaches (step host) start state) :
    (∀ key, Tiled state.configurations.rows key) ∧ Agreed state.configurations.rows ∧
      ∀ event after, step host state event = some after → event.isCommit = false →
        event.isOther = false → after.configurations = state.configurations ∧
          after.wallets = state.wallets := by
  have hkept : Kept host state := by
    apply Reaches.preserves (Kept host) _ hrun hopening.kept
    intro before event after hkept hstep
    exact hkept.step hstep
  have htiled : ∀ key, Tiled state.configurations.rows key :=
    fun key => tiled_of_tiles (hkept.tiles key)
  exact ⟨htiled, agreed_of_tiled htiled, fun _ _ => unchanged_step⟩

/-- A host that knows every zone and currency and leaves texts as they are. -/
def plainHost : Host where
  knowsTimeZone _ := true
  knowsCurrency _ := true
  trim text := text
  toLowerCase text := text
  lower text := text
  isTime _ := true

/-- No configuration yet, and a safeguarding wallet in pounds. -/
def unconfigured : State where
  configurations := .empty
  wallets := [
    { walletMsisdn := 110, walletCode := 110, amount := 0, createdBy := "SYSTEM", status := 0,
      isDefault := false, currency := "GBP", ownerMsisdn := 110, ownerType := "SYSTEM",
      walletPurpose := "SAFEGUARDING" }]

theorem unconfigured_opening : Opening unconfigured := by
  constructor
  · rfl
  · exact List.Pairwise.nil
  · intro row hrow
    cases hrow

def poundsFrom (date : Date) : CreateAccountingConfigDto :=
  { currency := "GBP", masterWallet := 110, effectiveFrom := some date, maker := "maker.user",
    checker := "checker.user" }

/-- A call of `create` with nothing in between, which closes the given row. -/
def createAlone (dto : CreateAccountingConfigDto) (target : Option ℕ) : List Event :=
  [.create dto, .lockWallet { request := .create dto },
    .matchOpen { request := .create dto, phase := .locked },
    .closeOpen { request := .create dto, phase := .matched target },
    .insert { request := .create dto, phase := .ready target },
    .commit { request := .create dto, phase := .inserted target }]

/-- Two configurations one after the other, and a third that would begin with the second and
fails, tile the calendar. -/
theorem configurations_tile_pounds :
    ∃ state, Reaches (step plainHost) unconfigured state ∧
      state.configurations.rows.map Row.span = [⟨1, some 4⟩, ⟨5, none⟩] ∧
      ((∀ key, Tiled state.configurations.rows key) ∧ Agreed state.configurations.rows ∧
        ∀ event after, step plainHost state event = some after → event.isCommit = false →
          event.isOther = false → after.configurations = state.configurations ∧
            after.wallets = state.wallets) := by
  have hany : (runInputs (step plainHost) unconfigured (createAlone (poundsFrom 1) none ++
      createAlone (poundsFrom 5) (some 1) ++ (createAlone (poundsFrom 5) (some 2)).take 4)).any
        (fun state => state.configurations.rows.map Row.span = [⟨1, some 4⟩, ⟨5, none⟩]) := by
    decide +kernel
  obtain ⟨state, hrun, hfacts⟩ := (Option.any_eq_true _ _).mp hany
  have hspans := of_decide_eq_true hfacts
  have hreach := Reaches.of_runInputs hrun
  exact ⟨state, hreach, hspans, configurations_tile plainHost unconfigured_opening hreach⟩

end Finify.Eod.Configurations
