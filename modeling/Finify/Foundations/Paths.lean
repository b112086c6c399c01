/-
# Trees of named entries

A node of a tree holds entries by name, and a path of names leads from node to node.  A write at a
path opens the nodes on its way and makes those that are missing.  Writes at paths of which none
leads through another do not see each other, so that their order leaves no trace.
-/

import Mathlib.Data.List.Infix

namespace Finify.Foundations

variable {Key V : Type}

/-! ## Entries -/

section Entries

variable [DecidableEq Key] {key other : Key} {value : V} {list : List (Key × V)}

/-- The first entry by a name. -/
def named? (key : Key) (list : List (Key × V)) : Option V :=
  (list.find? fun entry => entry.1 = key).map Prod.snd

/-- The entry by a name is set, in its place or behind the others. -/
def assign (key : Key) (value : V) : List (Key × V) → List (Key × V)
  | [] => [(key, value)]
  | entry :: rest => if entry.1 = key then (key, value) :: rest else entry :: assign key value rest

theorem named?_nil : named? key ([] : List (Key × V)) = none :=
  rfl

theorem named?_cons (entry : Key × V) (rest : List (Key × V)) :
    named? key (entry :: rest) = if entry.1 = key then some entry.2 else named? key rest := by
  unfold named?
  rw [List.find?_cons]
  by_cases hkey : entry.1 = key <;> simp [hkey]

theorem named?_assign_self : named? key (assign key value list) = some value := by
  induction list with
  | nil => rw [assign, named?_cons, if_pos rfl]
  | cons entry rest ih =>
    rw [assign]
    split_ifs with hkey
    · rw [named?_cons, if_pos rfl]
    · rw [named?_cons, if_neg hkey, ih]

theorem named?_assign_of_ne (hne : other ≠ key) :
    named? other (assign key value list) = named? other list := by
  induction list with
  | nil => rw [assign, named?_cons, if_neg hne.symm]
  | cons entry rest ih =>
    rw [assign]
    split_ifs with hkey
    · rw [named?_cons, named?_cons, if_neg hne.symm, if_neg (hkey ▸ hne.symm)]
    · rw [named?_cons, named?_cons, ih]

end Entries

/-! ## Paths -/

/-- Which values are nodes, and what entries they hold. -/
structure Nodes (Key V : Type) where
  entries : V → Option (List (Key × V))
  node : List (Key × V) → V
  entries_node : ∀ list, entries (node list) = some list

namespace Nodes

variable [DecidableEq Key] (nodes : Nodes Key V)

/-- The value that a path leads to. -/
def at? (value : V) : List Key → Option V
  | [] => some value
  | key :: rest => ((nodes.entries value).bind (named? key)).bind fun found => at? found rest

/-- The entries of a value that is found, none where it is no node. -/
def opened (found : Option V) : List (Key × V) := (found.bind nodes.entries).getD []

/-- A value is set at a path. -/
def write (value : V) : List Key → List (Key × V) → List (Key × V)
  | [], list => list
  | [key], list => assign key value list
  | key :: next :: rest, list =>
    assign key (nodes.node (write value (next :: rest) (nodes.opened (named? key list)))) list

variable {nodes} {value found : V} {list first second : List (Key × V)} {path parts rest : List Key}

theorem at?_node_cons (key : Key) :
    nodes.at? (nodes.node list) (key :: rest) =
      (named? key list).bind fun found => nodes.at? found rest := by
  rw [at?, nodes.entries_node, Option.bind_some]

theorem at?_opened (key : Key) (found : Option V) :
    nodes.at? (nodes.node (nodes.opened found)) (key :: rest) =
      found.bind fun value => nodes.at? value (key :: rest) := by
  rw [at?_node_cons, opened]
  cases found with
  | none => rfl
  | some value =>
    rw [Option.bind_some, Option.bind_some, at?]
    cases nodes.entries value with
    | none => rfl
    | some entries => rfl

theorem write_cons (key : Key) (hrest : rest ≠ []) :
    nodes.write value (key :: rest) list =
      assign key (nodes.node (nodes.write value rest (nodes.opened (named? key list)))) list := by
  cases rest with
  | nil => exact absurd rfl hrest
  | cons next rest => rfl

/-- What is set at a path stands there, with all that is below it. -/
theorem at?_write_append (hparts : parts ≠ []) :
    nodes.at? (nodes.node (nodes.write value parts list)) (parts ++ rest) =
      nodes.at? value rest := by
  induction parts generalizing list with
  | nil => exact absurd rfl hparts
  | cons key parts ih =>
    rw [List.cons_append, at?_node_cons]
    by_cases hend : parts = []
    · rw [hend, write, named?_assign_self, Option.bind_some, List.nil_append]
    · rw [write_cons key hend, named?_assign_self, Option.bind_some, ih hend]

/-- On the way to where a value is set stand nodes. -/
theorem at?_write_of_prefix (hbegins : path <+: parts) (hne : path ≠ parts) :
    ∃ inner, nodes.at? (nodes.node (nodes.write value parts list)) path =
      some (nodes.node inner) := by
  induction path generalizing parts list with
  | nil => exact ⟨_, rfl⟩
  | cons key path ih =>
    obtain ⟨behind, rfl⟩ := hbegins
    rw [List.cons_append] at hne ⊢
    have hbehind : path ≠ path ++ behind := fun h => hne (congrArg (key :: ·) h)
    have hmore : path ++ behind ≠ [] := by
      rintro hnil
      rw [List.append_eq_nil_iff] at hnil
      exact hbehind (by rw [hnil.1, hnil.2]; rfl)
    rw [write_cons key hmore, at?_node_cons, named?_assign_self, Option.bind_some]
    exact ih (List.prefix_append path behind) hbehind

/-- What neither leads to where a value is set nor through it stays. -/
theorem at?_write_of_apart (habove : ¬ path <+: parts) (hbelow : ¬ parts <+: path) :
    nodes.at? (nodes.node (nodes.write value parts list)) path =
      nodes.at? (nodes.node list) path := by
  induction parts generalizing path list with
  | nil => exact absurd List.nil_prefix hbelow
  | cons key parts ih =>
    cases path with
    | nil => exact absurd List.nil_prefix habove
    | cons name path =>
      rw [at?_node_cons, at?_node_cons]
      by_cases hname : name = key
      · rw [hname] at habove hbelow ⊢
        have habove' : ¬ path <+: parts := fun h =>
          habove (List.cons_prefix_cons.mpr ⟨rfl, h⟩)
        have hbelow' : ¬ parts <+: path := fun h =>
          hbelow (List.cons_prefix_cons.mpr ⟨rfl, h⟩)
        have hparts : parts ≠ [] := fun h => hbelow' (h ▸ List.nil_prefix)
        rw [write_cons key hparts, named?_assign_self, Option.bind_some, ih habove' hbelow']
        cases path with
        | nil => exact absurd List.nil_prefix habove'
        | cons next path => exact at?_opened next _
      · have hsame : named? name (nodes.write value (key :: parts) list) =
            named? name list := by
          cases parts with
          | nil => exact named?_assign_of_ne hname
          | cons next parts => exact named?_assign_of_ne hname
        rw [hsame]

/-! ## Writes that do not meet -/

/-- Neither of two paths leads through the other. -/
def Apart (first second : List Key) : Prop := ¬ first <+: second ∧ ¬ second <+: first

/-- The entries hold what was written at the paths, and nothing else. -/
structure Written (nodes : Nodes Key V) (writes : List (List Key × V)) (list : List (Key × V)) :
    Prop where
  placed : ∀ write ∈ writes, ∀ rest,
    nodes.at? (nodes.node list) (write.1 ++ rest) = nodes.at? write.2 rest
  opened : ∀ write ∈ writes, ∀ path, path <+: write.1 → path ≠ write.1 →
    ∃ inner, nodes.at? (nodes.node list) path = some (nodes.node inner)
  nothing : ∀ path, path ≠ [] → (∀ write ∈ writes, Apart write.1 path) →
    nodes.at? (nodes.node list) path = none

theorem Written.nil : nodes.Written [] [] where
  placed := by simp
  opened := by simp
  nothing := by
    intro path hpath _
    cases path with
    | nil => exact absurd rfl hpath
    | cons key path => rw [at?_node_cons, named?_nil, Option.bind_none]

/-- A write at a path that is apart from the earlier ones. -/
theorem Written.write {writes : List (List Key × V)} (hwritten : nodes.Written writes list)
    (hparts : parts ≠ []) (hapart : ∀ write ∈ writes, Apart write.1 parts) :
    nodes.Written ((parts, value) :: writes) (nodes.write value parts list) where
  placed := by
    intro write hmem rest
    rcases List.mem_cons.mp hmem with rfl | hmem
    · exact at?_write_append hparts
    · have happ := hapart write hmem
      rw [at?_write_of_apart, hwritten.placed write hmem rest]
      · exact fun h => happ.1 ((List.prefix_append write.1 rest).trans h)
      · intro h
        rcases List.prefix_or_prefix_of_prefix h (List.prefix_append write.1 rest) with h | h
        · exact happ.2 h
        · exact happ.1 h
  opened := by
    intro write hmem path hbegins hne
    by_cases habove : path <+: parts
    · apply at?_write_of_prefix habove
      rintro rfl
      rcases List.mem_cons.mp hmem with rfl | hmem
      · exact hne rfl
      · exact (hapart write hmem).2 hbegins
    · rcases List.mem_cons.mp hmem with rfl | hmem
      · exact absurd hbegins habove
      · rw [at?_write_of_apart habove fun h => (hapart write hmem).2 (h.trans hbegins)]
        exact hwritten.opened write hmem path hbegins hne
  nothing := by
    intro path hpath hall
    have hfirst := hall (parts, value) List.mem_cons_self
    rw [at?_write_of_apart hfirst.2 hfirst.1]
    exact hwritten.nothing path hpath fun write hmem => hall write (List.mem_cons_of_mem _ hmem)

/-- Both are missing, both are nodes, or they are the same. -/
def Alike (nodes : Nodes Key V) (first second : Option V) : Prop :=
  first = second ∨
    ∃ left right, first = some (nodes.node left) ∧ second = some (nodes.node right)

/-- The same stands at every path, in whatever order the entries stand. -/
def Same (nodes : Nodes Key V) (first second : List (Key × V)) : Prop :=
  ∀ path, nodes.Alike (nodes.at? (nodes.node first) path) (nodes.at? (nodes.node second) path)

/-- The same writes leave the same. -/
theorem Written.same {writes others : List (List Key × V)} (hfirst : nodes.Written writes first)
    (hsecond : nodes.Written others second) (hmem : ∀ write, write ∈ writes ↔ write ∈ others) :
    nodes.Same first second := by
  intro path
  by_cases hbelow : ∃ write ∈ writes, write.1 <+: path
  · obtain ⟨write, hwrite, rest, rfl⟩ := hbelow
    left
    rw [hfirst.placed write hwrite, hsecond.placed write ((hmem write).mp hwrite)]
  · by_cases habove : ∃ write ∈ writes, path <+: write.1
    · obtain ⟨write, hwrite, hbegins⟩ := habove
      have hne : path ≠ write.1 := fun h => hbelow ⟨write, hwrite, h ▸ List.prefix_rfl⟩
      obtain ⟨left, hleft⟩ := hfirst.opened write hwrite path hbegins hne
      obtain ⟨right, hright⟩ := hsecond.opened write ((hmem write).mp hwrite) path hbegins hne
      exact Or.inr ⟨left, right, hleft, hright⟩
    · by_cases hnil : path = []
      · rw [hnil]
        exact Or.inr ⟨first, second, rfl, rfl⟩
      · have hapart : ∀ write ∈ writes, Apart write.1 path := fun write hwrite =>
          ⟨fun h => hbelow ⟨write, hwrite, h⟩, fun h => habove ⟨write, hwrite, h⟩⟩
        left
        rw [hfirst.nothing path hnil hapart,
          hsecond.nothing path hnil fun write hwrite => hapart write ((hmem write).mpr hwrite)]

end Nodes

end Finify.Foundations
