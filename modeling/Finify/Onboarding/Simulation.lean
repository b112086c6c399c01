/-
# Simulating a journey

`OnboardingService.simulate` walks through a version with an outcome for each node, and stops at
an END, at a node that it has seen or where no transition leads on.  The engine takes one
transition at a time, by an outcome that a caller reports.
-/

import Finify.Foundations.StableSort
import Finify.Onboarding.Progress
import Finify.Onboarding.Publishing
import Mathlib.Data.List.Perm.Subperm

namespace Finify.Onboarding

open Finify.Foundations

/-- An entry of `trace`. -/
structure Visit where
  nodeKey : String
  nodeType : NodeType
  outcome : Option String := none
  deriving DecidableEq

/-- What `simulate` returns; a graph that is not valid has no answer to `completed`. -/
structure Simulation where
  validation : Bool × List Issue
  completed : Option Bool
  trace : List Visit
  deriving DecidableEq

section

variable (graph : Graph) (outcomes : String → Option String)

/-- `outgoing`. -/
def Graph.outgoing (key : String) : List Transition :=
  (graph.transitions.filter fun edge => edge.source = key).insertionSort
    fun first second => first.priority ≤ second.priority

/-- `selected`: the transition of the requested outcome, of SUCCESS, or the first. -/
def Graph.selected (key : String) : Option Transition :=
  ((((outcomes key).filter fun requested => requested ≠ "").bind fun requested =>
      (graph.outgoing key).find? fun edge => edge.outcome = requested).or
    ((graph.outgoing key).find? fun edge => edge.outcome = "SUCCESS")).or
      (graph.outgoing key).head?

/-- The loop; it begins at most once more than there are nodes. -/
def Graph.walk : ℕ → List String → Option Node → List Visit
  | 0, _, _ => []
  | _ + 1, _, none => []
  | n + 1, visited, some current =>
    if current.type = .finish ∨ current.key ∈ visited then
      [{ nodeKey := current.key, nodeType := current.type }]
    else
      match graph.selected outcomes current.key with
      | none => [{ nodeKey := current.key, nodeType := current.type }]
      | some edge =>
        { nodeKey := current.key, nodeType := current.type, outcome := some edge.outcome } ::
          Graph.walk n (current.key :: visited) (graph.node? edge.target)

/-- The last node is an END. -/
def completed (trace : List Visit) : Bool :=
  trace.getLast?.any fun visit => visit.nodeType = .finish

/-- `simulate`. -/
def simulate : Simulation :=
  let validation := validateGraph graph
  if validation.1 then
    let trace := graph.walk outcomes (graph.nodes.length + 1) [] (graph.nodes.find? Node.entry)
    { validation := validation, completed := some (completed trace), trace := trace }
  else { validation := validation, completed := none, trace := [] }

def Graph.LeadsTo (here there : Node) : Prop :=
  ∃ edge, graph.selected outcomes here.key = some edge ∧ graph.node? edge.target = some there

/-- One entry follows another by the transition that the engine takes on its outcome. -/
def Graph.Follows (here there : Visit) : Prop :=
  ∃ edge, graph.selected outcomes here.nodeKey = some edge ∧ here.outcome = some edge.outcome ∧
    graph.next? here.nodeKey edge.outcome.toUpper = some edge ∧ there.nodeKey = edge.target

/-- A trace is the walk from a node: every entry but the last reports an outcome, and it is
completed exactly when the choice leads to an END after any number of steps. -/
structure Graph.Walked (current : Node) (trace : List Visit) : Prop where
  head : ∃ visit, trace.head? = some visit ∧ visit.nodeKey = current.key ∧
    visit.nodeType = current.type
  follows : trace.IsChain (graph.Follows outcomes)
  last : ∀ visit ∈ trace.getLast?, visit.outcome = none
  completes : completed trace ↔ ∃ finish, finish.type = .finish ∧
    Relation.ReflTransGen (graph.LeadsTo outcomes) current finish

end

variable {graph : Graph} {outcomes : String → Option String}

/-- The engine takes the first transition of an outcome. -/
theorem Graph.next?_eq (key outcome : String) :
    graph.next? key outcome = (graph.outgoing key).find? fun edge => edge.outcome = outcome := by
  rw [Graph.outgoing, find?_insertionSort, List.filter_filter]
  simp only [Graph.next?, earliest, Bool.decide_and, Bool.and_comm]

/-- The engine takes the selected transition on its outcome. -/
theorem Graph.next?_of_selected {key : String} {edge : Transition}
    (hselected : graph.selected outcomes key = some edge) :
    graph.next? key edge.outcome = some edge := by
  rw [Graph.next?_eq]
  have hfound : ∀ outcome, ((graph.outgoing key).find? fun edge => edge.outcome = outcome) =
      some edge → ((graph.outgoing key).find? fun other => other.outcome = edge.outcome) =
        some edge := by
    intro outcome hfind
    have houtcome := List.find?_some hfind
    rw [of_decide_eq_true houtcome]
    exact hfind
  rcases Option.or_eq_some_iff.mp hselected with hnamed | ⟨_, hfirst⟩
  · rcases Option.or_eq_some_iff.mp hnamed with hrequested | ⟨_, hsuccess⟩
    · obtain ⟨requested, _, hfind⟩ := Option.bind_eq_some_iff.mp hrequested
      exact hfound requested hfind
    · exact hfound "SUCCESS" hsuccess
  · obtain ⟨rest, hrest⟩ := List.head?_eq_some_iff.mp hfirst
    simp [hrest]

/-- A selected transition begins at its node. -/
theorem Graph.selected_mem {key : String} {edge : Transition}
    (hselected : graph.selected outcomes key = some edge) :
    edge ∈ graph.transitions ∧ edge.source = key := by
  obtain ⟨hmem, hfacts⟩ :=
    List.mem_filter.mp (earliest_mem (Graph.next?_of_selected hselected))
  exact ⟨hmem, (of_decide_eq_true hfacts).1⟩

/-- What the loop has seen: each visited node leads to a visited one or to the current one. -/
structure Graph.Seen (graph : Graph) (outcomes : String → Option String) (visited : List String)
    (current : Node) : Prop where
  nodup : visited.Nodup
  known : visited ⊆ graph.keys
  leads : ∀ node : Node, node.key ∈ visited → ∀ there, graph.LeadsTo outcomes node there →
    there.key ∈ visited ∨ there = current
  ends : ∀ node ∈ graph.nodes, node.key ∈ visited → node.type ≠ .finish

/-- The choice leads to nodes of the graph. -/
theorem Graph.LeadsTo.mem {here there : Node} (hleads : graph.LeadsTo outcomes here there) :
    there ∈ graph.nodes := by
  obtain ⟨_, _, hthere⟩ := hleads
  exact List.mem_of_find?_eq_some hthere

/-- A walk that stops at a node. -/
theorem Graph.walked_singleton {current : Node}
    (hstops : current.type = .finish ↔ ∃ finish, finish.type = .finish ∧
      Relation.ReflTransGen (graph.LeadsTo outcomes) current finish) :
    graph.Walked outcomes current [{ nodeKey := current.key, nodeType := current.type }] where
  head := ⟨_, rfl, rfl, rfl⟩
  follows := .singleton _
  last := by simp
  completes := by simpa [completed] using hstops

/-- No END is reached within a set of nodes that the choice does not leave. -/
theorem Graph.Seen.not_reaches {visited : List String} {current finish : Node}
    (hseen : graph.Seen outcomes visited current) (hcurrent : current ∈ graph.nodes)
    (hagain : current.key ∈ visited)
    (hreaches : Relation.ReflTransGen (graph.LeadsTo outcomes) current finish) :
    finish.type ≠ .finish := by
  have hinside : finish.key ∈ visited ∧ finish ∈ graph.nodes := by
    induction hreaches with
    | refl => exact ⟨hagain, hcurrent⟩
    | tail _ hlast ih =>
      refine ⟨?_, hlast.mem⟩
      rcases hseen.leads _ ih.1 _ hlast with hvisited | hsame
      · exact hvisited
      · rw [hsame]
        exact hagain
  exact hseen.ends _ hinside.2 hinside.1

/-- The walk from a node, whatever has been seen before. -/
theorem Graph.Sound.walked (hsound : graph.Sound)
    (hupper : ∀ edge ∈ graph.transitions, edge.outcome.toUpper = edge.outcome) {n : ℕ}
    {visited : List String} {current : Node} (hseen : graph.Seen outcomes visited current)
    (hcurrent : current ∈ graph.nodes) (hlength : visited.length + n = graph.nodes.length + 1) :
    graph.Walked outcomes current (graph.walk outcomes n visited (some current)) := by
  induction n generalizing visited current with
  | zero =>
    have hshort := (hseen.nodup.subperm hseen.known).length_le
    rw [Graph.keys, List.length_map] at hshort
    omega
  | succ n ih =>
    unfold Graph.walk
    by_cases htype : current.type = .finish
    · rw [if_pos (Or.inl htype)]
      exact Graph.walked_singleton (iff_of_true htype ⟨current, htype, .refl⟩)
    by_cases hagain : current.key ∈ visited
    · rw [if_pos (Or.inr hagain)]
      refine Graph.walked_singleton (iff_of_false htype ?_)
      intro hreached
      obtain ⟨finish, hfinish, hreaches⟩ := hreached
      exact hseen.not_reaches hcurrent hagain hreaches hfinish
    rw [if_neg (not_or.mpr ⟨htype, hagain⟩)]
    have hstep : ∀ finish : Node, finish.type = .finish →
        Relation.ReflTransGen (graph.LeadsTo outcomes) current finish →
          ∃ there, graph.LeadsTo outcomes current there ∧
            Relation.ReflTransGen (graph.LeadsTo outcomes) there finish := by
      intro finish hfinish hreaches
      rcases Relation.ReflTransGen.cases_head hreaches with hsame | hfirst
      · exact absurd (hsame ▸ hfinish) htype
      · exact hfirst
    cases hselected : graph.selected outcomes current.key with
    | none =>
      refine Graph.walked_singleton (iff_of_false htype ?_)
      intro hreached
      obtain ⟨finish, hfinish, hreaches⟩ := hreached
      obtain ⟨_, ⟨edge, hedge, _⟩, _⟩ := hstep finish hfinish hreaches
      cases hselected.symm.trans hedge
    | some edge =>
      obtain ⟨hmem, _⟩ := Graph.selected_mem hselected
      obtain ⟨target, htarget, hkey⟩ := List.mem_map.mp (hsound.known edge hmem).2.1
      have hnode : graph.node? edge.target = some target :=
        hkey ▸ Services.node?_of_mem hsound htarget
      have hunique : ∀ there, graph.LeadsTo outcomes current there → there = target := by
        intro there hleads
        obtain ⟨other, hother, hthere⟩ := hleads
        rw [hselected] at hother
        cases hother
        exact Option.some.inj (hthere.symm.trans hnode)
      have hnext : graph.Seen outcomes (current.key :: visited) target := by
        constructor
        · exact List.nodup_cons.mpr ⟨hagain, hseen.nodup⟩
        · exact List.cons_subset.mpr ⟨List.mem_map_of_mem hcurrent, hseen.known⟩
        · intro node hnode there hleads
          rcases List.mem_cons.mp hnode with hsame | hold
          · unfold Graph.LeadsTo at hleads
            rw [hsame] at hleads
            exact Or.inr (hunique there hleads)
          · rcases hseen.leads node hold there hleads with hvisited | hnow
            · exact Or.inl (List.mem_cons_of_mem _ hvisited)
            · exact Or.inl (hnow ▸ List.mem_cons_self)
        · intro node hnode hkey
          rcases List.mem_cons.mp hkey with hsame | hold
          · rw [List.inj_on_of_nodup_map hsound.nodup hnode hcurrent hsame]
            exact htype
          · exact hseen.ends node hnode hold
      dsimp only
      rw [hnode]
      obtain ⟨⟨visit, hhead, hvisit, _⟩, hfollows, hlast, hcompletes⟩ :=
        ih hnext htarget (by simp only [List.length_cons]; omega)
      obtain ⟨rest, hrest⟩ := List.head?_eq_some_iff.mp hhead
      rw [hrest] at hfollows hlast hcompletes ⊢
      constructor
      · exact ⟨_, rfl, rfl, rfl⟩
      · refine List.isChain_cons_cons.mpr ⟨⟨edge, hselected, rfl, ?_, ?_⟩, hfollows⟩
        · rw [hupper edge hmem]
          exact Graph.next?_of_selected hselected
        · rw [hvisit, hkey]
      · exact hlast
      · refine Iff.trans hcompletes (exists_congr fun finish => and_congr_right fun hfinish => ?_)
        constructor
        · exact fun hreaches => hreaches.head ⟨edge, hselected, hnode⟩
        · intro hreaches
          obtain ⟨there, hleads, hrest⟩ := hstep finish hfinish hreaches
          rw [← hunique there hleads]
          exact hrest

theorem Graph.length_walk_le (n : ℕ) (visited : List String) (current : Option Node) :
    (graph.walk outcomes n visited current).length ≤ n := by
  induction n generalizing visited current with
  | zero => exact le_refl _
  | succ n ih =>
    cases current with
    | none => exact Nat.zero_le _
    | some current =>
      unfold Graph.walk
      split
      · exact Nat.succ_le_succ (Nat.zero_le _)
      · split
        · exact Nat.succ_le_succ (Nat.zero_le _)
        · exact Nat.succ_le_succ (ih _ _)

/-- For every accepted version and all outcomes the simulation ends with a walk from START, in
which the engine takes the same transitions and which is completed exactly when the choice leads
to an END at all. -/
theorem simulate_walks (graph : Graph) (outcomes : String → Option String)
    (haccepted : Accepted (Publishing.stored graph)) :
    ∃ entry, (Publishing.stored graph).entries = [entry] ∧ entry.type = .start ∧
      (simulate (Publishing.stored graph) outcomes).trace.length ≤ graph.nodes.length + 1 ∧
      (Publishing.stored graph).Walked outcomes entry
        (simulate (Publishing.stored graph) outcomes).trace ∧
      (simulate (Publishing.stored graph) outcomes).completed =
        some (completed (simulate (Publishing.stored graph) outcomes).trace) := by
  have hsound := haccepted.sound
  obtain ⟨entry, hentries, htype⟩ := hsound.entry
  have hentry : entry ∈ (Publishing.stored graph).entries := hentries ▸ List.mem_singleton_self _
  have hfind : (Publishing.stored graph).nodes.find? Node.entry = some entry := by
    rw [← List.head?_filter]
    exact congrArg List.head? hentries
  have hseen : (Publishing.stored graph).Seen outcomes [] entry :=
    ⟨List.nodup_nil, List.nil_subset _, by simp, by simp⟩
  have hupper : ∀ edge ∈ (Publishing.stored graph).transitions,
      edge.outcome.toUpper = edge.outcome := by
    intro edge hedge
    obtain ⟨given, _, hgiven⟩ := List.mem_map.mp hedge
    rw [← hgiven]
    exact toUpper_toUpper _
  have hvalid : (validateGraph (Publishing.stored graph)).1 = true := haccepted
  use entry, hentries, htype
  simp only [simulate, if_pos hvalid, hfind]
  exact ⟨Graph.length_walk_le _ _ _, hsound.walked hupper hseen (List.mem_of_mem_filter hentry)
    (Nat.zero_add _), trivial⟩

/-- The walk through a graph with a dead end, in which the case is rejected. -/
theorem simulate_walks_deadEnd : ∃ entry,
    (Publishing.stored deadEnd).entries = [entry] ∧ entry.type = .start ∧
      (simulate (Publishing.stored deadEnd) fun _ => some "REJECTED").trace.length ≤ 5 ∧
      (Publishing.stored deadEnd).Walked (fun _ => some "REJECTED") entry
        (simulate (Publishing.stored deadEnd) fun _ => some "REJECTED").trace ∧
      (simulate (Publishing.stored deadEnd) fun _ => some "REJECTED").completed = some (completed
        (simulate (Publishing.stored deadEnd) fun _ => some "REJECTED").trace) :=
  simulate_walks deadEnd _ (by decide)

end Finify.Onboarding
