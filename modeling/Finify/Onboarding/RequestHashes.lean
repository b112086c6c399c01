/-
# Canonical texts and equal values

Equal texts come from values that are equal up to the order of keys.  The converse holds for a value
exactly if none of its objects has two keys, other than array indices, that the locale calls equal:
those keep the order in which they came.
-/

import Finify.Onboarding.CanonicalJson

namespace Finify.Onboarding.CanonicalJson

open Foundations

variable {Number : Type} {language : Language Number}

/-! ## The order of keys -/

theorem Language.Documented.total (hlanguage : language.Documented) :
    Std.Total language.notBehind := by
  refine ⟨fun first second => ?_⟩
  rcases le_or_gt (language.localeCompare first second) 0 with hle | hgt
  · exact Or.inl hle
  · exact Or.inr ((hlanguage.sign first second).mp hgt).le

/-- Keys of which neither is behind the other compare equal. -/
theorem Language.Documented.tie (hlanguage : language.Documented) {first second : Units}
    (hforth : language.notBehind first second) (hback : language.notBehind second first) :
    language.localeCompare first second = 0 := by
  refine le_antisymm hforth (not_lt.mp fun hlt => ?_)
  exact absurd ((hlanguage.sign second first).mpr hlt) (not_lt.mpr hback)

theorem Language.Documented.tie_symm (hlanguage : language.Documented) {first second : Units}
    (htie : language.localeCompare first second = 0) :
    language.localeCompare second first = 0 := by
  have hforth : language.notBehind first second := htie.le
  refine le_antisymm (not_lt.mp fun hgt => ?_) (not_lt.mp fun hlt => ?_)
  · exact absurd ((hlanguage.sign second first).mp hgt) (by rw [htie]; exact lt_irrefl 0)
  · exact absurd ((hlanguage.sign first second).mpr hlt) (by rw [htie]; exact lt_irrefl 0)

theorem EnumeratedBefore.antisymm {first second : Units}
    (hforth : EnumeratedBefore first second) (hback : EnumeratedBefore second first) :
    arrayIndex first = none ∧ arrayIndex second = none := by
  unfold EnumeratedBefore at hforth hback
  cases hfirst : arrayIndex first with
  | none =>
    cases hsecond : arrayIndex second with
    | none => exact ⟨rfl, rfl⟩
    | some number =>
      rw [hfirst, hsecond] at hforth
      exact hforth.elim
  | some number =>
    cases hsecond : arrayIndex second with
    | none =>
      rw [hfirst, hsecond] at hback
      exact hback.elim
    | some other =>
      rw [hfirst, hsecond] at hforth hback
      exact absurd hforth (Nat.lt_asymm hback)

/-! ## Equal texts -/

theorem mem_arranged {entries : List (Units × Json Number)} {key : Units} {item : Json Number}
    (hmem : (key, item) ∈ entries) :
    (key, arranged language item) ∈ sortByKey language
      (entries.map (Prod.map id (arranged language))) :=
  (List.mem_insertionSort _).mpr (List.mem_map.mpr ⟨(key, item), hmem, rfl⟩)

theorem keys_arranged (entries : List (Units × Json Number)) :
    (sortByKey language (entries.map (Prod.map id (arranged language)))).map Prod.fst =
      (entries.map Prod.fst).insertionSort language.notBehind := by
  rw [keys_sortByKey, List.map_map]
  rfl

/-- One key has one value. -/
theorem value_unique {V : Type} {entries : List (Units × V)} {key : Units} {item item' : V}
    (hnodup : (entries.map Prod.fst).Nodup) (hitem : (key, item) ∈ entries)
    (hitem' : (key, item') ∈ entries) : item = item' :=
  (Prod.mk.inj (List.inj_on_of_nodup_map hnodup hitem hitem' rfl)).2

theorem same_of_arranged_eq {first second : Json Number} (hvalue : IsValue first)
    (heq : arranged language first = arranged language second) : Same first second := by
  induction first using Json.induct generalizing second with
  | null =>
    cases second with
    | null => exact .null
    | boolean value | number value | string value | array items | object entries => cases heq
  | boolean value =>
    cases second with
    | boolean value' => cases heq; exact .boolean value
    | null | number value | string value | array items | object entries => cases heq
  | number value =>
    cases second with
    | number value' => cases heq; exact .number value
    | null | boolean value | string value | array items | object entries => cases heq
  | string value =>
    cases second with
    | string value' => cases heq; exact .string value
    | null | boolean value | number value | array items | object entries => cases heq
  | array items ih =>
    cases second with
    | array items' =>
      rw [arranged_array, arranged_array] at heq
      have hmaps := Json.array.inj heq
      cases hvalue with
      | array hitems =>
        refine .array (by simpa using congrArg List.length hmaps) ?_
        intro index item item' hitem hitem'
        have hmem := List.mem_of_getElem? hitem
        apply ih item hmem (hitems item hmem)
        have hindex := congrArg (·[index]?) hmaps
        simpa [hitem, hitem'] using hindex
    | null | boolean value | number value | string value | object entries => cases heq
  | object entries ih =>
    cases second with
    | object entries' =>
      rw [arranged_object, arranged_object] at heq
      have hsorted := Json.object.inj heq
      cases hvalue with
      | object hkeys hentries =>
        have hkeysorted : (entries.map Prod.fst).insertionSort language.notBehind =
            (entries'.map Prod.fst).insertionSort language.notBehind := by
          rw [← keys_arranged, ← keys_arranged, hsorted]
        refine .object ?keys ?items
        case keys =>
          refine (List.perm_insertionSort language.notBehind _).symm.trans ?_
          rw [hkeysorted]
          exact List.perm_insertionSort language.notBehind _
        case items =>
          intro key item item' hitem hitem'
          apply ih (key, item) hitem (hentries (key, item) hitem)
          refine @value_unique _ (sortByKey language
            (entries.map (Prod.map id (arranged language)))) _ _ _ ?_ (mem_arranged hitem) ?_
          · rw [keys_arranged]
            exact (List.perm_insertionSort _ _).nodup_iff.mpr hkeys.1
          · rw [hsorted]
            exact mem_arranged hitem'
    | null | boolean value | number value | string value | array items => cases heq

/-! ## Equal values without ties -/

theorem notBehind_total (hlanguage : language.Documented) {V : Type} :
    Std.Total fun first second : Units × V => language.notBehind first.1 second.1 :=
  ⟨fun first second => hlanguage.total.total first.1 second.1⟩

theorem notBehind_trans (hlanguage : language.Documented) {V : Type} :
    IsTrans (Units × V) fun first second => language.notBehind first.1 second.1 :=
  ⟨fun _ _ _ hfirst hsecond => hlanguage.transitive hfirst hsecond⟩

/-- Entries with the same keys and the same value at each are sorted alike if their keys are
enumerated and do not tie. -/
theorem sortByKey_eq (hlanguage : language.Documented) {V : Type}
    {entries entries' : List (Units × V)}
    (hkeys : (entries.map Prod.fst).Perm (entries'.map Prod.fst))
    (hentries : ∀ key item item', (key, item) ∈ entries → (key, item') ∈ entries' → item = item')
    (hnodup : (entries.map Prod.fst).Nodup)
    (hfirst : (entries.map Prod.fst).Pairwise EnumeratedBefore)
    (hsecond : (entries'.map Prod.fst).Pairwise EnumeratedBefore)
    (htie : ∀ first ∈ entries.map Prod.fst, ∀ second ∈ entries.map Prod.fst,
      arrayIndex first = none → arrayIndex second = none →
        language.localeCompare first second = 0 → first = second) :
    sortByKey language entries = sortByKey language entries' := by
  have hnodup' : (entries'.map Prod.fst).Nodup := hkeys.nodup_iff.mp hnodup
  have hperm : entries.Perm entries' := by
    rw [List.perm_ext_iff_of_nodup hnodup.of_map hnodup'.of_map]
    rintro ⟨key, item⟩
    constructor
    · intro hmem
      obtain ⟨⟨key', item'⟩, hmem', hkey⟩ := List.mem_map.mp
        (hkeys.mem_iff.mp (List.mem_map.mpr ⟨(key, item), hmem, rfl⟩))
      cases hkey
      rw [hentries key item item' hmem hmem']
      exact hmem'
    · intro hmem
      obtain ⟨⟨key', item'⟩, hmem', hkey⟩ := List.mem_map.mp
        (hkeys.mem_iff.mpr (List.mem_map.mpr ⟨(key, item), hmem, rfl⟩))
      cases hkey
      rw [← hentries key item' item hmem' hmem]
      exact hmem'
  have htotal := notBehind_total hlanguage (V := V)
  have htrans := notBehind_trans hlanguage (V := V)
  refine @insertionSort_eq _ _ _ _ (fun first second => EnumeratedBefore first.1 second.1) _ _ _
    hperm
    hnodup.of_map (List.pairwise_map.mp hfirst) (List.pairwise_map.mp hsecond) ?_
  rintro ⟨key, item⟩ hmem ⟨key', item'⟩ hmem' hforth hback hbefore hafter
  obtain ⟨hindex, hindex'⟩ := EnumeratedBefore.antisymm hbefore hafter
  have hkey := htie key (List.mem_map.mpr ⟨_, hmem, rfl⟩) key' (List.mem_map.mpr ⟨_, hmem', rfl⟩)
    hindex hindex' (hlanguage.tie hforth hback)
  cases hkey
  rw [value_unique hnodup hmem hmem']

theorem arranged_eq_of_same (hlanguage : language.Documented) {first second : Json Number}
    (hfirst : IsValue first) (hsecond : IsValue second) (htie : TieFree language first)
    (hsame : Same first second) : arranged language first = arranged language second := by
  induction hsame with
  | null | boolean value | number value | string value => rfl
  | @array items items' hlength hitems ih =>
    cases hfirst with
    | array hitemsFirst =>
    cases hsecond with
    | array hitemsSecond =>
    cases htie with
    | array hitemsTie =>
      rw [arranged_array, arranged_array]
      congr 1
      apply List.ext_getElem
      · rw [List.length_map, List.length_map, hlength]
      · intro index hindex hindex'
        rw [List.getElem_map, List.getElem_map]
        rw [List.length_map] at hindex hindex'
        exact ih index items[index] items'[index] (List.getElem?_eq_getElem hindex)
          (List.getElem?_eq_getElem hindex') (hitemsFirst _ (List.getElem_mem hindex))
          (hitemsSecond _ (List.getElem_mem hindex')) (hitemsTie _ (List.getElem_mem hindex))
  | @object entries entries' hkeys hentries ih =>
    cases hfirst with
    | object hkeysFirst hentriesFirst =>
    cases hsecond with
    | object hkeysSecond hentriesSecond =>
    cases htie with
    | object hkeysTie hentriesTie =>
      have hfst (entries : List (Units × Json Number)) :
          (entries.map (Prod.map id (arranged language))).map Prod.fst =
            entries.map Prod.fst := by
        rw [List.map_map]
        rfl
      rw [arranged_object, arranged_object]
      congr 1
      apply sortByKey_eq hlanguage
      · rw [hfst, hfst]
        exact hkeys
      · intro key item item' hmem hmem'
        obtain ⟨⟨key, old⟩, hold, hpair⟩ := List.mem_map.mp hmem
        obtain ⟨⟨key', old'⟩, hold', hpair'⟩ := List.mem_map.mp hmem'
        cases hpair
        cases hpair'
        exact ih key old old' hold hold' (hentriesFirst _ hold) (hentriesSecond _ hold')
          (hentriesTie _ hold)
      · rw [hfst]
        exact hkeysFirst.1
      · rw [hfst]
        exact hkeysFirst.2
      · rw [hfst]
        exact hkeysSecond.2
      · rw [hfst]
        exact hkeysTie

/-! ## Ties leave a trace -/

/-- The other order: array indices first, then the other keys from the last to the first. -/
def turnAround {V : Type} (key : V → Units) (list : List V) : List V :=
  list.filter (fun entry => (arrayIndex (key entry)).isSome) ++
    (list.filter fun entry => !(arrayIndex (key entry)).isSome).reverse

theorem turnAround_perm {V : Type} (key : V → Units) (list : List V) :
    (turnAround key list).Perm list :=
  ((List.reverse_perm _).append_left _).trans
    (List.filter_append_perm (fun entry => (arrayIndex (key entry)).isSome) list)

theorem keys_turnAround {V : Type} (entries : List (Units × V)) :
    (turnAround Prod.fst entries).map Prod.fst = turnAround id (entries.map Prod.fst) := by
  rw [turnAround, turnAround, List.map_append, List.map_reverse, List.filter_map, List.filter_map]
  rfl

theorem enumerated_turnAround {keys : List Units} (hkeys : keys.Pairwise EnumeratedBefore) :
    (turnAround id keys).Pairwise EnumeratedBefore := by
  have hlater (first : Units) {second : Units}
      (hmem : second ∈ (keys.filter fun key => !(arrayIndex key).isSome).reverse) :
      EnumeratedBefore first second := by
    have hnone : arrayIndex second = none := by
      simpa using (List.mem_filter.mp (List.mem_reverse.mp hmem)).2
    unfold EnumeratedBefore
    rw [hnone]
    cases arrayIndex first <;> trivial
  refine List.pairwise_append.mpr ⟨hkeys.sublist List.filter_sublist, ?_, ?_⟩
  · exact List.pairwise_of_forall_mem_list fun first _ second hsecond => hlater first hsecond
  · exact fun first _ second hsecond => hlater first hsecond

theorem swapped_turnAround {keys : List Units} {first second : Units}
    (hpair : [first, second].Sublist keys) (hfirst : arrayIndex first = none)
    (hsecond : arrayIndex second = none) : [second, first].Sublist (turnAround id keys) := by
  have hfiltered := (hpair.filter fun key => !(arrayIndex key).isSome).reverse
  simp only [List.filter_cons, hfirst, hsecond, Option.isSome_none, Bool.not_false, if_true,
    List.filter_nil, List.reverse_cons, List.reverse_nil, List.nil_append,
    List.cons_append] at hfiltered
  exact hfiltered.trans (List.sublist_append_right _ _)

/-- The value with the other order in each object. -/
def turned (value : Json Number) : Json Number := value.reorder (turnAround Prod.fst)

theorem turned_array (items : List (Json Number)) :
    turned (.array items) = .array (items.map turned) :=
  reorder_array items

theorem turned_object (entries : List (Units × Json Number)) :
    turned (.object entries) =
      .object (turnAround Prod.fst (entries.map (Prod.map id turned))) :=
  reorder_object entries

theorem keys_turned (entries : List (Units × Json Number)) :
    (turnAround Prod.fst (entries.map (Prod.map id turned))).map Prod.fst =
      turnAround id (entries.map Prod.fst) := by
  rw [keys_turnAround, List.map_map]
  rfl

theorem mem_turned {entries : List (Units × Json Number)} {key : Units} {item : Json Number} :
    (key, item) ∈ turnAround Prod.fst (entries.map (Prod.map id turned)) ↔
      ∃ old, (key, old) ∈ entries ∧ turned old = item := by
  rw [(turnAround_perm _ _).mem_iff, List.mem_map]
  constructor
  · rintro ⟨⟨key', old⟩, hmem, heq⟩
    cases heq
    exact ⟨old, hmem, rfl⟩
  · rintro ⟨old, hmem, rfl⟩
    exact ⟨(key, old), hmem, rfl⟩

theorem isValue_turned {value : Json Number} (hvalue : IsValue value) : IsValue (turned value) := by
  induction hvalue with
  | null => exact .null
  | boolean value => exact .boolean value
  | number value => exact .number value
  | string value => exact .string value
  | array hitems ih =>
    rw [turned_array]
    exact .array (List.forall_mem_map.mpr ih)
  | object hkeys hentries ih =>
    rw [turned_object]
    refine .object ?_ ?_
    · rw [keys_turned]
      exact ⟨(turnAround_perm id _).nodup_iff.mpr hkeys.1, enumerated_turnAround hkeys.2⟩
    · rintro ⟨key, item⟩ hmem
      obtain ⟨old, hold, rfl⟩ := mem_turned.mp hmem
      exact ih (key, old) hold

theorem same_turned {value : Json Number} (hvalue : IsValue value) : Same value (turned value) := by
  induction hvalue with
  | null => exact .null
  | boolean value => exact .boolean value
  | number value => exact .number value
  | string value => exact .string value
  | array hitems ih =>
    rw [turned_array]
    refine .array (List.length_map _).symm fun index item item' hitem hitem' => ?_
    rw [List.getElem?_map, hitem, Option.map_some, Option.some.injEq] at hitem'
    rw [← hitem']
    exact ih item (List.mem_of_getElem? hitem)
  | object hkeys hentries ih =>
    rw [turned_object]
    refine .object ?_ fun key item item' hitem hitem' => ?_
    · rw [keys_turned]
      exact (turnAround_perm id _).symm
    · obtain ⟨old, hold, rfl⟩ := mem_turned.mp hitem'
      rw [← value_unique hkeys.1 hitem hold]
      exact ih (key, item) hitem

/-- A value that is arranged like its turned one has no ties. -/
theorem tieFree_of_turned (hlanguage : language.Documented) {value : Json Number}
    (hvalue : IsValue value) (heq : arranged language value = arranged language (turned value)) :
    TieFree language value := by
  induction hvalue with
  | null => exact .null
  | boolean value => exact .boolean value
  | number value => exact .number value
  | string value => exact .string value
  | array hitems ih =>
    rw [turned_array, arranged_array, arranged_array, List.map_map] at heq
    exact .array fun item hmem =>
      ih item hmem (List.map_inj_left.mp (Json.array.inj heq) item hmem)
  | @object entries hkeys hentries ih =>
    rw [turned_object, arranged_object, arranged_object] at heq
    have hsorted := Json.object.inj heq
    have hkeysorted : (entries.map Prod.fst).insertionSort language.notBehind =
        (turnAround id (entries.map Prod.fst)).insertionSort language.notBehind := by
      rw [← keys_arranged, hsorted, keys_arranged, keys_turned]
    refine .object ?keys ?items
    case keys =>
      intro first hfirst second hsecond hindex hindex' htie
      have hback := hlanguage.tie_symm htie
      by_contra hne
      rcases sublist_pair_or hfirst hsecond hne with hpair | hpair
      · exact insertionSort_ne hkeys.1 hpair (swapped_turnAround hpair hindex hindex') htie.le
          hback.le hkeysorted
      · exact insertionSort_ne hkeys.1 hpair (swapped_turnAround hpair hindex' hindex) hback.le
          htie.le hkeysorted
    case items =>
      rintro ⟨key, item⟩ hmem
      apply ih (key, item) hmem
      refine @value_unique _ (sortByKey language
        (entries.map (Prod.map id (arranged language)))) _ _ _ ?_ (mem_arranged hmem) ?_
      · rw [keys_arranged]
        exact (List.perm_insertionSort _ _).nodup_iff.mpr hkeys.1
      · rw [hsorted]
        exact mem_arranged (mem_turned.mpr ⟨item, hmem, rfl⟩)

/-- Equal texts come from values that are equal up to the order of keys, and the texts that equal
that of a value are exactly those of such values if and only if the value has no ties. -/
theorem canonicalJson_decides_iff (hlanguage : language.Documented) {value : Json Number}
    (hvalue : IsValue value) :
    (∀ other, canonicalJson language value = canonicalJson language other → Same value other) ∧
      ((∀ other, IsValue other →
        (canonicalJson language value = canonicalJson language other ↔ Same value other)) ↔
          TieFree language value) := by
  simp only [canonicalJson_eq_iff hlanguage]
  refine ⟨fun other => same_of_arranged_eq hvalue, fun hdecides => ?_, fun htie other hother => ?_⟩
  · exact tieFree_of_turned hlanguage hvalue
      ((hdecides _ (isValue_turned hvalue)).mpr (same_turned hvalue))
  · exact ⟨same_of_arranged_eq hvalue, arranged_eq_of_same hlanguage hvalue hother htie⟩

/-! ## Two spellings of one letter -/

/-- A letter with an accent behind it as one unit. -/
def composed : Units → Units
  | 101 :: 769 :: rest => 233 :: composed rest
  | unit :: rest => unit :: composed rest
  | [] => []

/-- Digits as numbers, and keys by their composed units. -/
def digitsLanguage : Language (Fin 10) where
  numberText digit := [.ofNat (48 + digit.val)]
  localeCompare first second :=
    let weight (key : Units) : ℤ :=
      (composed key).foldl (fun total unit => total * 65537 + unit.toNat + 1) 0
    weight first - weight second

theorem digitsLanguage_documented : digitsLanguage.Documented where
  numbers := ⟨by unfold Function.Injective; decide, by decide,
    fun digit => List.forall_mem_singleton.mpr (by revert digit; decide)⟩
  sign first second := by
    simp only [digitsLanguage]
    omega
  transitive hfirst hsecond := by
    simp only [Language.notBehind, digitsLanguage] at hfirst hsecond ⊢
    omega

/-- An object with two spellings of one key, in one order and in the other. -/
def twoSpellings (first second : Units) : Json (Fin 10) :=
  .object [(first, .boolean true), (second, .boolean true)]

theorem twoSpellings_isValue {first second : Units} (hfirst : arrayIndex first = none)
    (hsecond : arrayIndex second = none) (hne : first ≠ second) :
    IsValue (twoSpellings first second) := by
  refine .object ⟨by simpa [twoSpellings] using hne, ?_⟩ ?_
  · simp [EnumeratedBefore, hfirst, hsecond]
  · simp only [List.forall_mem_cons, List.not_mem_nil, false_imp_iff, implies_true, and_true]
    exact ⟨.boolean true, .boolean true⟩

/-- The two orders of one request have different texts. -/
theorem canonicalJson_keeps_order : digitsLanguage.Documented ∧
    IsValue (twoSpellings [233] [101, 769]) ∧ IsValue (twoSpellings [101, 769] [233]) ∧
      ¬ (canonicalJson digitsLanguage (twoSpellings [233] [101, 769]) =
          canonicalJson digitsLanguage (twoSpellings [101, 769] [233]) ↔
        Same (twoSpellings [233] [101, 769]) (twoSpellings [101, 769] [233])) := by
  refine ⟨digitsLanguage_documented, twoSpellings_isValue (by decide) (by decide) (by decide),
    twoSpellings_isValue (by decide) (by decide) (by decide), fun hiff => ?_⟩
  refine absurd (hiff.mpr (.object (by decide) fun key item item' hitem hitem' => ?_))
    (by decide)
  simp only [List.mem_cons, Prod.mk.injEq, List.not_mem_nil, or_false] at hitem hitem'
  have htrue : item = .boolean true ∧ item' = .boolean true :=
    ⟨hitem.elim And.right And.right, hitem'.elim And.right And.right⟩
  rw [htrue.1, htrue.2]
  exact .boolean true

/-- Two keys that do not tie. -/
theorem canonicalJson_decides_example :
    (∀ other, canonicalJson digitsLanguage (twoSpellings [97] [98]) =
        canonicalJson digitsLanguage other → Same (twoSpellings [97] [98]) other) ∧
      ((∀ other, IsValue other → (canonicalJson digitsLanguage (twoSpellings [97] [98]) =
        canonicalJson digitsLanguage other ↔ Same (twoSpellings [97] [98]) other)) ↔
          TieFree digitsLanguage (twoSpellings [97] [98])) :=
  canonicalJson_decides_iff digitsLanguage_documented
    (twoSpellings_isValue (by decide) (by decide) (by decide))

end Finify.Onboarding.CanonicalJson
