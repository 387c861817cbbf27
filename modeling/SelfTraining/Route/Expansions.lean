import SelfTraining.Route.SearchRuns

/-!
How often a node is expanded.

The visited flags are set in the second loop of `AddNeighbors`, after all roads of the node
have been asked. So two roads can offer one node, which then stands twice in the neighbors
list and twice on the open list, and is expanded twice. Where no expansion of a run is
offered a node twice, each node of the run is processed once.
-/

namespace SelfTraining.Route.RoutePlanner

open SelfTraining.Distance SelfTraining.Order SelfTraining.Steps

variable {K : Type*}

/-- No node stands twice on the open list or in a neighbors list. -/
structure NoRepeats (s : Search K) : Prop where
  openList : s.openList.Nodup
  neighbors : ∀ i, (s.sNodes i).neighbors.Nodup

/-- The node that `AddNeighbors` is called for. -/
def Loop.expands : Loop K → Option ℕ
  | .head _ c => some c
  | .found _ _ => none

variable [CommRing K] [LinearOrder K] [IsStrictOrderedRing K]

/-- No two roads of the node about to be expanded offer the same node; a road counts as
often as the node occurs in it. -/
def OffersDiffer (p : RoutePlanner K) : Loop K → Prop
  | .head s c => (p.picks s c).Nodup
  | .found _ _ => True

/-- Nothing is repeated where the loop stands, nor after the expansion that comes next. -/
def NothingTwice (p : RoutePlanner K) : Loop K → Prop
  | .head s c => NoRepeats s ∧ NoRepeats (p.addNeighbors s c)
  | .found s _ => NoRepeats s

/-- Each node is processed once in a run through these loop states. -/
structure ProcessedOnce (p : RoutePlanner K) (states : List (Loop K)) : Prop where
  nothingTwice : ∀ l ∈ states, NothingTwice p l
  once : (states.filterMap Loop.expands).Nodup
  expansions : (states.filterMap Loop.expands).length ≤ p.model.nodes.length

variable {p : RoutePlanner K}

/-- What a run has kept where no expansion was offered a node twice: the current node and
those on the open list are still to be expanded. -/
structure Single (past : List (Loop K)) (l : Loop K) : Prop where
  noRepeats : NoRepeats l.search
  current : l.node ∉ l.search.openList
  waiting : ∀ x, x = l.node ∨ x ∈ l.search.openList →
    (l.search.sNodes x).neighbors = [] ∧ x ∉ past.filterMap Loop.expands
  expanded : ∀ x ∈ past.filterMap Loop.expands, (l.search.sNodes x).visited
  once : (past.filterMap Loop.expands).Nodup

lemma single_init : Single [] (.head p.init p.startNode) where
  noRepeats := by
    refine ⟨by simp [Loop.search, init, fresh], fun i => ?_⟩
    simp [Loop.search, init_sNodes]
  current := by simp [Loop.search, init, fresh]
  waiting x _ := by simp [Loop.search, init_sNodes]
  expanded x hx := by simp at hx
  once := List.nodup_nil

section Expand

variable {s : Search K} {depth : ℕ → ℕ} {c : ℕ} {past : List (Loop K)}

lemma Tree.neighbors_of_unvisited (ht : p.Tree s depth) {i : ℕ}
    (hi : (s.sNodes i).visited = false) : (s.sNodes i).neighbors = [] := by
  refine List.eq_nil_iff_forall_not_mem.mpr fun j hj => ?_
  have := (ht.child i j hj).parent_visited
  simp [hi] at this

lemma Single.allNeighbors (hs : Single past (.head s c)) : p.allNeighbors s c = p.picks s c := by
  have hnil : (s.sNodes c).neighbors = [] := (hs.waiting c (.inl rfl)).1
  simp [RoutePlanner.allNeighbors, hnil]

lemma Single.noRepeats_expand (ht : p.Tree s depth) (hs : Single past (.head s c))
    (hp : (p.picks s c).Nodup) : NoRepeats (p.addNeighbors s c) where
  openList := by
    rw [addNeighbors_openList, hs.allNeighbors]
    refine List.nodup_append.mpr ⟨hs.noRepeats.openList, hp, fun x hx y hy => ?_⟩
    rintro rfl
    have hv := (ht.open_visited x hx).1
    simp [(of_mem_picks hy).2.1] at hv
  neighbors i := by
    rw [addNeighbors_neighbors]
    split
    · rwa [hs.allNeighbors]
    · exact hs.noRepeats.neighbors i

lemma Single.waiting_expand (ht : p.Tree s depth) (hc : (s.sNodes c).visited)
    (hs : Single past (.head s c)) {x : ℕ} (hx : x ∈ (p.addNeighbors s c).openList) :
    ((p.addNeighbors s c).sNodes x).neighbors = [] ∧
      x ∉ (past ++ [Loop.head s c]).filterMap Loop.expands := by
  rw [addNeighbors_openList, hs.allNeighbors, List.mem_append] at hx
  have hxc : x ≠ c := by
    rintro rfl
    rcases hx with hx | hx
    · exact hs.current hx
    · simp [(of_mem_picks hx).2.1] at hc
  have hold : (s.sNodes x).neighbors = [] ∧ x ∉ past.filterMap Loop.expands := by
    rcases hx with hx | hx
    · exact hs.waiting x (.inr hx)
    · have hv := (of_mem_picks hx).2.1
      refine ⟨ht.neighbors_of_unvisited hv, fun h => ?_⟩
      have := hs.expanded x h
      simp [Loop.search, hv] at this
  refine ⟨?_, ?_⟩
  · rw [addNeighbors_neighbors, if_neg hxc]
    exact hold.1
  · rw [List.filterMap_append, List.mem_append, not_or]
    exact ⟨hold.2, by simpa [Loop.expands] using hxc⟩

lemma Single.next (ht : p.Tree s depth) (hc : (s.sNodes c).visited)
    (hs : Single past (.head s c)) (hp : (p.picks s c).Nodup) {l : Loop K}
    (hnext : NextNode (p.addNeighbors s c) l.node l.search) :
    Single (past ++ [.head s c]) l := by
  obtain ⟨hs', hperm⟩ := hnext.perm
  have hnr := hs.noRepeats_expand ht hp
  have hnodup := List.nodup_cons.mp (hperm.nodup_iff.mpr hnr.openList)
  have hpast : (past ++ [Loop.head s c]).filterMap Loop.expands =
      past.filterMap Loop.expands ++ [c] := by simp [Loop.expands]
  refine ⟨⟨hnodup.2, fun i => ?_⟩, hnodup.1, fun x hx => ?_, fun x hx => ?_, ?_⟩
  · rw [hs']
    exact hnr.neighbors i
  · rw [hs']
    exact hs.waiting_expand ht hc (hperm.mem_iff.mp (List.mem_cons.mpr hx))
  · rw [hs']
    refine (ht.expand_visited c x).mpr (.inl ?_)
    rw [hpast, List.mem_append] at hx
    rcases hx with hx | hx
    · exact hs.expanded x hx
    · rwa [List.mem_singleton.mp hx]
  · rw [hpast]
    refine List.nodup_append.mpr ⟨hs.once, List.nodup_singleton c, fun x hx y hy => ?_⟩
    obtain rfl : y = c := List.mem_singleton.mp hy
    rintro rfl
    exact (hs.waiting x (.inl rfl)).2 hx

end Expand

/-- **The step.** A pass that is offered no node twice keeps every node single. -/
lemma Single.pass {past : List (Loop K)} {u v : Loop K} (hu : p.Reached u)
    (hs : Single past u) (hp : OffersDiffer p u) (h : p.Pass u v) : Single (past ++ [u]) v := by
  obtain ⟨s, c, depth, rfl, ht, hc, hnext⟩ := hu.popped h
  exact hs.next ht hc hp hnext

/-- **The run.** Where no expansion is offered a node twice, every node is single. -/
lemma RunTo.single {past : List (Loop K)} {l : Loop K} (h : p.RunTo past l)
    (hp : ∀ u ∈ past, OffersDiffer p u) : Single past l := by
  induction h with
  | nil => exact single_init
  | snoc hrun hstep ih =>
    obtain ⟨rfl, hpass⟩ := hstep
    have hs := ih fun u hu => hp u (List.mem_append.mpr (.inl hu))
    exact hs.pass (RunTo.reached hrun) (hp _ (by simp)) hpass

lemma RunTo.reached_of_mem {past : List (Loop K)} {l : Loop K} (h : p.RunTo past l) :
    ∀ u ∈ past ++ [l], p.Reached u := by
  induction h with
  | nil =>
    intro u hu
    obtain rfl := List.mem_singleton.mp hu
    exact .refl
  | @snoc past e v w hrun hstep ih =>
    obtain ⟨rfl, hpass⟩ := hstep
    intro u hu
    rcases List.mem_append.mp hu with hu | hu
    · exact ih u hu
    · obtain rfl := List.mem_singleton.mp hu
      exact (RunTo.reached hrun).tail hpass

lemma RunTo.before {past after : List (Loop K)} {u l : Loop K}
    (h : p.RunTo (past ++ u :: after) l) : p.RunTo past u := by
  obtain ⟨t, t', hrun, rfl, -⟩ := Trace.step_at h
  exact hrun

lemma Single.nothingTwice {past : List (Loop K)} {l : Loop K} (hl : p.Reached l)
    (hs : Single past l) (hp : OffersDiffer p l) : NothingTwice p l := by
  obtain ⟨depth, ht, hc⟩ := hl.tree
  cases l with
  | head s c => exact ⟨hs.noRepeats, Single.noRepeats_expand ht hs hp⟩
  | found s n => exact hs.noRepeats

omit [CommRing K] [LinearOrder K] [IsStrictOrderedRing K] in
lemma Single.once_all {past : List (Loop K)} {l : Loop K} (hs : Single past l) :
    ((past ++ [l]).filterMap Loop.expands).Nodup := by
  rw [List.filterMap_append]
  cases l with
  | head s c =>
    refine List.nodup_append.mpr ⟨hs.once, by simp [Loop.expands], fun x hx y hy => ?_⟩
    obtain rfl : y = c := by simpa [Loop.expands] using hy
    rintro rfl
    exact (hs.waiting x (.inl rfl)).2 hx
  | found s n =>
    rw [show [Loop.found s n].filterMap Loop.expands = [] from rfl, List.append_nil]
    exact hs.once

lemma RunTo.expands_lt {past : List (Loop K)} {l : Loop K} (h : p.RunTo past l) :
    (past ++ [l]).filterMap Loop.expands ⊆ List.range p.model.nodes.length := by
  intro x hx
  obtain ⟨u, hu, hux⟩ := List.mem_filterMap.mp hx
  obtain ⟨depth, ht, hc⟩ := (h.reached_of_mem u hu).tree
  cases u with
  | head s c =>
    obtain rfl : c = x := by simpa [Loop.expands] using hux
    exact List.mem_range.mpr (ht.visited_lt c hc)
  | found s n => cases hux

lemma NothingTwice.offersDiffer {l : Loop K} (hl : p.Reached l) (h : NothingTwice p l) :
    OffersDiffer p l := by
  obtain ⟨depth, ht, hc⟩ := hl.tree
  cases l with
  | head s c =>
    have hn := h.2.neighbors c
    rw [p.addNeighbors_neighbors s c, if_pos rfl] at hn
    exact (List.nodup_append.mp hn).2.1
  | found s n => trivial

/-- **Each node is processed once** along a run exactly where no expansion of the run, the
one to come included, is offered a node twice. -/
theorem processed_once_iff (p : RoutePlanner K) {past : List (Loop K)} {l : Loop K}
    (h : p.RunTo past l) :
    ProcessedOnce p (past ++ [l]) ↔ ∀ u ∈ past ++ [l], OffersDiffer p u := by
  constructor
  · intro honce u hu
    exact (honce.nothingTwice u hu).offersDiffer (h.reached_of_mem u hu)
  · intro hp
    have hs : Single past l := h.single fun u hu => hp u (List.mem_append.mpr (.inl hu))
    have hnodup := hs.once_all
    refine ⟨fun u hu => ?_, hnodup, ?_⟩
    · rcases List.mem_append.mp hu with hmem | hmem
      · obtain ⟨before, after, rfl⟩ := List.append_of_mem hmem
        refine (h.before.single fun w hw => hp w ?_).nothingTwice (h.reached_of_mem u hu) (hp u hu)
        simp [hw]
      · obtain rfl := List.mem_singleton.mp hmem
        exact hs.nothingTwice h.reached (hp u hu)
    · have hlen := (hnodup.subperm h.expands_lt).length_le
      rwa [List.length_range] at hlen

/-- Up to the second loop head. -/
theorem processed_once_iff_detour : ∃ s, detour.Pass (.head detour.init 0) (.head s 1) ∧
    ProcessedOnce detour [.head detour.init 0, .head s 1] := by
  obtain ⟨s, hpass, -, -, hpicks⟩ := detour_second
  have hrun : detour.RunTo ([] ++ [.head detour.init 0]) (.head s 1) := .snoc .nil ⟨rfl, hpass⟩
  refine ⟨s, hpass, (processed_once_iff detour hrun).mpr fun u hu => ?_⟩
  obtain rfl | rfl : u = .head detour.init 0 ∨ u = .head s 1 := by simpa using hu
  · change (detour.picks detour.init 0).Nodup
    decide
  · change (detour.picks s 1).Nodup
    rw [hpicks]
    exact List.nodup_singleton 3

/-- Two nodes, and two roads through both. -/
def twoRoads : RoutePlanner ℤ where
  model := {
    nodes := [⟨0, 0⟩, ⟨1, 0⟩]
    ways := [⟨[0, 1]⟩, ⟨[0, 1]⟩]
    roads := [⟨0, .residential⟩, ⟨1, .primary⟩]
    metricScale := 1
    ways_in_range := by decide
    roads_in_range := by decide }
  metric := taxicab ℤ
  startNode := 0
  endNode := 1
  start_lt := by decide
  end_lt := by decide
  floatMax := 1000

/-- The first expansion puts the node `1` on the open list twice. -/
theorem twoRoads_repeats : ¬ ∀ past l, twoRoads.RunTo past l →
    ProcessedOnce twoRoads (past ++ [l]) := by
  intro h
  have hrun := h [] _ .nil
  have hopen := (hrun.nothingTwice (.head twoRoads.init 0) (by simp [twoRoads])).2.openList
  have hlist : (twoRoads.addNeighbors twoRoads.init 0).openList = [1, 1] := by decide
  rw [hlist] at hopen
  simp at hopen

end SelfTraining.Route.RoutePlanner
