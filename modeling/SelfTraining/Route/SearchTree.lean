import SelfTraining.Route.RoutePlanner

/-!
The tree that the parent pointers form.

A node enters one neighbors list only, when it is first visited, and every later turn of
the loop over that list writes the same values into it again. So the parents of the visited
nodes form a tree rooted at the start node. The depth in that tree is carried as a function
beside the state; a visited node lies less deep than there are visited nodes, since each
expansion that goes deeper visits a node.
-/

namespace SelfTraining.Route.RoutePlanner

open SelfTraining.Distance SelfTraining.Order SelfTraining.Steps

variable {K : Type*} [CommRing K] [LinearOrder K] [IsStrictOrderedRing K]
variable (p : RoutePlanner K)

/-- The visited nodes of the map. -/
def visitedSet (s : Search K) : Finset ℕ :=
  (Finset.range p.model.nodes.length).filter fun i => (s.sNodes i).visited

/-- `i` hangs below `c`: what being in a neighbors list means. -/
structure Child (s : Search K) (depth : ℕ → ℕ) (c i : ℕ) : Prop where
  parent_visited : (s.sNodes c).visited
  visited : (s.sNodes i).visited
  not_start : i ≠ p.startNode
  parent : (s.sNodes i).parent = some c
  gValue : (s.sNodes i).gValue = (s.sNodes c).gValue + p.distance c i
  hValue : (s.sNodes i).hValue = p.calculateHValue i
  onRoad : OnRoad p.model.toModel c i
  depth : depth i = depth c + 1

/-- The search tree. -/
structure Tree (s : Search K) (depth : ℕ → ℕ) : Prop where
  start_visited : (s.sNodes p.startNode).visited
  start_parent : (s.sNodes p.startNode).parent = none
  start_gValue : (s.sNodes p.startNode).gValue = 0
  start_depth : depth p.startNode = 0
  unvisited : ∀ i, (s.sNodes i).visited = false → (s.sNodes i).parent = none
  child : ∀ c, ∀ i ∈ (s.sNodes c).neighbors, p.Child s depth c i
  listed : ∀ i, (s.sNodes i).visited → i ≠ p.startNode → ∃ c, i ∈ (s.sNodes c).neighbors
  open_visited : ∀ i ∈ s.openList, (s.sNodes i).visited ∧ i ≠ p.startNode
  depth_lt : ∀ i, (s.sNodes i).visited → depth i < (p.visitedSet s).card
  visited_lt : ∀ i, (s.sNodes i).visited → i < p.model.nodes.length

variable {p}

lemma mem_visitedSet {s : Search K} {depth : ℕ → ℕ} (ht : p.Tree s depth) {i : ℕ} :
    i ∈ p.visitedSet s ↔ (s.sNodes i).visited := by
  simp only [visitedSet, Finset.mem_filter, Finset.mem_range, and_iff_right_iff_imp]
  exact ht.visited_lt i

lemma Tree.depth_lt_length {s : Search K} {depth : ℕ → ℕ} (ht : p.Tree s depth) {i : ℕ}
    (hi : (s.sNodes i).visited) : depth i < p.model.nodes.length := by
  have h : (p.visitedSet s).card ≤ p.model.nodes.length :=
    (Finset.card_filter_le _ _).trans_eq (Finset.card_range _)
  exact (ht.depth_lt i hi).trans_le h

lemma Tree.exists_parent {s : Search K} {depth : ℕ → ℕ} (ht : p.Tree s depth) {i : ℕ}
    (hi : (s.sNodes i).visited) (hs : i ≠ p.startNode) : ∃ c, p.Child s depth c i := by
  obtain ⟨c, hc⟩ := ht.listed i hi hs
  exact ⟨c, ht.child c i hc⟩

/-! ### The start -/

lemma init_sNodes (i : ℕ) : p.init.sNodes i =
    ⟨none, p.floatMax, 0, decide (i = p.startNode), []⟩ := by
  by_cases h : i = p.startNode
  · subst h; simp [init, fresh]
  · simp [init, fresh, write_of_ne _ _ h, h]

lemma tree_init : p.Tree p.init fun _ => 0 where
  start_visited := by simp [init_sNodes]
  start_parent := by simp [init_sNodes]
  start_gValue := by simp [init_sNodes]
  start_depth := rfl
  unvisited i _ := by simp [init_sNodes]
  child c i hi := by simp [init_sNodes] at hi
  listed i hi hs := by simp [init_sNodes, hs] at hi
  open_visited i hi := by simp [init, fresh] at hi
  depth_lt i _ := by
    refine Finset.card_pos.mpr ⟨p.startNode, ?_⟩
    simp [visitedSet, init_sNodes, p.start_lt]
  visited_lt i hi := by
    have h : i = p.startNode := by simpa [init_sNodes] using hi
    exact h ▸ p.start_lt

/-! ### One expansion -/

section Expand

variable {s : Search K} {depth : ℕ → ℕ} {c : ℕ}

lemma of_mem_picks {i : ℕ} (hi : i ∈ p.picks s c) :
    p.distance c i ≠ 0 ∧ (s.sNodes i).visited = false ∧ OnRoad p.model.toModel c i ∧
      i < p.model.nodes.length := by
  obtain ⟨r, hr, hf⟩ := List.mem_filterMap.mp hi
  obtain ⟨hmem, hd, hv⟩ := p.findNeighbor_some hf
  obtain ⟨hroad, htype, hc⟩ := (mem_nodeToRoad _ _ _).mp hr
  exact ⟨hd, hv, ⟨r, hroad, htype, hc, hmem⟩, p.model.lt_of_mem hmem⟩

lemma mem_allNeighbors {i : ℕ} :
    i ∈ p.allNeighbors s c ↔ i ∈ (s.sNodes c).neighbors ∨ i ∈ p.picks s c := by
  simp [allNeighbors]

/-- A node is never its own neighbor: an old neighbor lies one deeper, a new one is
unvisited. -/
lemma Tree.not_mem_allNeighbors (ht : p.Tree s depth) (hc : (s.sNodes c).visited) :
    c ∉ p.allNeighbors s c := by
  intro h
  rcases mem_allNeighbors.mp h with h | h
  · have := (ht.child c c h).depth
    omega
  · have := (of_mem_picks h).2.1
    simp [hc] at this

lemma addNeighbors_of_unvisited (hc : (s.sNodes c).visited = true) {i : ℕ}
    (hi : ((p.addNeighbors s c).sNodes i).visited = false) :
    (p.addNeighbors s c).sNodes i = s.sNodes i := by
  have hnot : ¬ ((s.sNodes i).visited = true ∨ i ∈ p.allNeighbors s c) := by
    rw [← addNeighbors_visited, hi]
    exact Bool.false_ne_true
  have hic : i ≠ c := by
    rintro rfl
    exact hnot (.inl hc)
  have hnode := p.addNeighbors_sNodes s c i
  rw [if_neg fun h => hnot (.inr h), if_neg hic] at hnode
  exact hnode

lemma Tree.expand_visited (ht : p.Tree s depth) (c i : ℕ) :
    ((p.addNeighbors s c).sNodes i).visited = true ↔
      (s.sNodes i).visited = true ∨ i ∈ p.picks s c := by
  rw [addNeighbors_visited, mem_allNeighbors]
  constructor
  · rintro (h | hold | hnew)
    · exact .inl h
    · exact .inl (ht.child c i hold).visited
    · exact .inr hnew
  · rintro (h | hnew)
    · exact .inl h
    · exact .inr (.inr hnew)

/-- **Nothing is overwritten.** An expansion leaves the parent, the
`g_value` and the `h_value` of every visited node as they are. -/
theorem Tree.expand_keeps (ht : p.Tree s depth) (c : ℕ) {i : ℕ}
    (hi : (s.sNodes i).visited) :
    ((p.addNeighbors s c).sNodes i).parent = (s.sNodes i).parent ∧
    ((p.addNeighbors s c).sNodes i).gValue = (s.sNodes i).gValue ∧
    ((p.addNeighbors s c).sNodes i).hValue = (s.sNodes i).hValue := by
  rw [addNeighbors_sNodes]
  split
  · rename_i h
    rcases mem_allNeighbors.mp h with h | h
    · have hch := ht.child c i h
      exact ⟨hch.parent.symm, hch.gValue.symm, hch.hValue.symm⟩
    · have := (of_mem_picks h).2.1
      simp [hi] at this
  · exact ⟨rfl, rfl, rfl⟩

/-- The depths after the expansion of `c`. -/
def deeper (p : RoutePlanner K) (s : Search K) (depth : ℕ → ℕ) (c i : ℕ) : ℕ :=
  if i ∈ p.picks s c then depth c + 1 else depth i

lemma deeper_of_visited {i : ℕ} (hi : (s.sNodes i).visited) :
    deeper p s depth c i = depth i := by
  have h : i ∉ p.picks s c := fun h => by
    have := (of_mem_picks h).2.1
    simp [hi] at this
  simp [deeper, h]

lemma Tree.expand_child_old (ht : p.Tree s depth) (c : ℕ) {d i : ℕ}
    (h : i ∈ (s.sNodes d).neighbors) :
    p.Child (p.addNeighbors s c) (deeper p s depth c) d i := by
  have hch := ht.child d i h
  obtain ⟨hpar, hg, hh⟩ := ht.expand_keeps c hch.visited
  obtain ⟨-, hgd, -⟩ := ht.expand_keeps c hch.parent_visited
  exact {
    parent_visited := (ht.expand_visited c d).mpr (.inl hch.parent_visited)
    visited := (ht.expand_visited c i).mpr (.inl hch.visited)
    not_start := hch.not_start
    parent := hpar.trans hch.parent
    gValue := by rw [hg, hgd, hch.gValue]
    hValue := hh.trans hch.hValue
    onRoad := hch.onRoad
    depth := by
      rw [deeper_of_visited hch.visited, deeper_of_visited hch.parent_visited, hch.depth] }

lemma Tree.expand_child_new (ht : p.Tree s depth) (hc : (s.sNodes c).visited) {i : ℕ}
    (h : i ∈ p.picks s c) : p.Child (p.addNeighbors s c) (deeper p s depth c) c i := by
  obtain ⟨-, hv, hroad, -⟩ := of_mem_picks h
  have hi : i ∈ p.allNeighbors s c := mem_allNeighbors.mpr (.inr h)
  have hs := p.addNeighbors_sNodes s c i
  rw [if_pos hi] at hs
  exact {
    parent_visited := (ht.expand_visited c c).mpr (.inl hc)
    visited := by rw [hs]
    not_start := by
      rintro rfl
      simp [ht.start_visited] at hv
    parent := by rw [hs]
    gValue := by rw [hs, (ht.expand_keeps c hc).2.1]
    hValue := by rw [hs]
    onRoad := hroad
    depth := by rw [deeper_of_visited hc]; simp [deeper, h] }

lemma Tree.expand_child (ht : p.Tree s depth) (hc : (s.sNodes c).visited) {i : ℕ}
    (h : i ∈ p.allNeighbors s c) : p.Child (p.addNeighbors s c) (deeper p s depth c) c i := by
  rcases mem_allNeighbors.mp h with h | h
  · exact ht.expand_child_old c h
  · exact ht.expand_child_new hc h

lemma Tree.expand_visitedSet (ht : p.Tree s depth) {i : ℕ} :
    i ∈ p.visitedSet (p.addNeighbors s c) ↔ i ∈ p.visitedSet s ∨ i ∈ p.picks s c := by
  simp only [visitedSet, Finset.mem_filter, Finset.mem_range, ht.expand_visited]
  constructor
  · rintro ⟨hlt, h | h⟩
    · exact .inl ⟨hlt, h⟩
    · exact .inr h
  · rintro (⟨hlt, h⟩ | h)
    · exact ⟨hlt, .inl h⟩
    · exact ⟨(of_mem_picks h).2.2.2, .inr h⟩

/-- A node's depth stays below the number of visited nodes: a new one lies one deeper than `c`,
and is itself one more visited node. -/
lemma Tree.expand_depth_lt (ht : p.Tree s depth) (hc : (s.sNodes c).visited) {i : ℕ}
    (hi : ((p.addNeighbors s c).sNodes i).visited) :
    deeper p s depth c i < (p.visitedSet (p.addNeighbors s c)).card := by
  have hsub : p.visitedSet s ⊆ p.visitedSet (p.addNeighbors s c) :=
    fun j hj => ht.expand_visitedSet.mpr (.inl hj)
  rcases (ht.expand_visited c i).mp hi with h | h
  · rw [deeper_of_visited h]
    exact (ht.depth_lt i h).trans_le (Finset.card_le_card hsub)
  · have hnew : i ∉ p.visitedSet s := by
      simp [mem_visitedSet ht, (of_mem_picks h).2.1]
    have hss : p.visitedSet s ⊂ p.visitedSet (p.addNeighbors s c) :=
      Finset.ssubset_iff_subset_ne.mpr ⟨hsub, fun he =>
        hnew (he ▸ ht.expand_visitedSet.mpr (.inr h))⟩
    have h1 := Finset.card_lt_card hss
    have h2 := ht.depth_lt c hc
    simp only [deeper, h, if_true]
    omega

/-- **The step of the tree.** Expanding a visited node keeps the search tree. -/
theorem Tree.expand (ht : p.Tree s depth) (hc : (s.sNodes c).visited) :
    p.Tree (p.addNeighbors s c) (deeper p s depth c) where
  start_visited := (ht.expand_visited c _).mpr (.inl ht.start_visited)
  start_parent := (ht.expand_keeps c ht.start_visited).1.trans ht.start_parent
  start_gValue := (ht.expand_keeps c ht.start_visited).2.1.trans ht.start_gValue
  start_depth := (deeper_of_visited ht.start_visited).trans ht.start_depth
  unvisited i hi := by
    have hnode := addNeighbors_of_unvisited hc hi
    rw [hnode] at hi ⊢
    exact ht.unvisited i hi
  child d i hi := by
    rw [addNeighbors_neighbors] at hi
    split at hi
    · rename_i hdc; subst hdc
      exact ht.expand_child hc hi
    · exact ht.expand_child_old c hi
  listed i hi hs := by
    rcases (ht.expand_visited c i).mp hi with h | h
    · obtain ⟨d, hd⟩ := ht.listed i h hs
      refine ⟨d, ?_⟩
      rw [addNeighbors_neighbors]
      split
      · rename_i hdc; subst hdc; exact mem_allNeighbors.mpr (.inl hd)
      · exact hd
    · refine ⟨c, ?_⟩
      rw [addNeighbors_neighbors, if_pos rfl]
      exact mem_allNeighbors.mpr (.inr h)
  open_visited i hi := by
    rw [addNeighbors_openList, List.mem_append] at hi
    rcases hi with hi | hi
    · obtain ⟨hv, hs⟩ := ht.open_visited i hi
      exact ⟨(ht.expand_visited c i).mpr (.inl hv), hs⟩
    · have hch := ht.expand_child hc hi
      exact ⟨hch.visited, hch.not_start⟩
  depth_lt i hi := ht.expand_depth_lt hc hi
  visited_lt i hi := by
    rcases (ht.expand_visited c i).mp hi with h | h
    · exact ht.visited_lt i h
    · exact (of_mem_picks h).2.2.2

end Expand

/-! ### Every run -/

lemma Tree.nextNode {s s' : Search K} {depth : ℕ → ℕ} {n : ℕ} (ht : p.Tree s depth)
    (h : NextNode s n s') : p.Tree s' depth ∧ (s'.sNodes n).visited ∧ n ≠ p.startNode := by
  obtain ⟨hs, hperm⟩ := h.perm
  have hmem : ∀ i, i = n ∨ i ∈ s'.openList → i ∈ s.openList := fun i hi =>
    hperm.mem_iff.mp (List.mem_cons.mpr hi)
  obtain ⟨l, hl, rfl⟩ := h
  obtain ⟨hv, hne⟩ := ht.open_visited n (hmem n (.inl rfl))
  exact ⟨{ ht with
    child := fun c i hi => { ht.child c i hi with }
    open_visited := fun i hi => ht.open_visited i (hmem i (.inr hi)) }, hv, hne⟩

/-- The search state where the loop stands. -/
def Loop.search : Loop K → Search K
  | .head s _ => s
  | .found s _ => s

/-- The node the loop stands at. -/
def Loop.node : Loop K → ℕ
  | .head _ c => c
  | .found _ n => n

lemma Pass.popped {u v : Loop K} (h : p.Pass u v) :
    ∃ s c, u = .head s c ∧ NextNode (p.addNeighbors s c) v.node v.search := by
  cases h with
  | again hnext _ => exact ⟨_, _, rfl, hnext⟩
  | found hnext _ => exact ⟨_, _, rfl, hnext⟩

lemma exists_pass_iff {s : Search K} {c : ℕ} :
    (∃ v, p.Pass (.head s c) v) ↔ (p.addNeighbors s c).openList ≠ [] := by
  constructor
  · rintro ⟨v, h⟩
    obtain ⟨s, c, heq, hnext⟩ := h.popped
    cases heq
    exact List.ne_nil_of_mem (hnext.perm.2.mem_iff.mp List.mem_cons_self)
  · intro hne
    obtain ⟨n, s', hnext⟩ := exists_nextNode hne
    by_cases hd : p.distance n p.endNode = 0
    · exact ⟨_, .found hnext hd⟩
    · exact ⟨_, .again hnext hd⟩

/-- **The search tree.** Wherever a run stands, the parents form a tree, and the current
node is in it. -/
theorem Reached.tree {l : Loop K} (h : p.Reached l) :
    ∃ depth, p.Tree l.search depth ∧ (l.search.sNodes l.node).visited := by
  refine Reaches.invariant (I := fun l : Loop K => ∃ depth, p.Tree l.search depth ∧
    (l.search.sNodes l.node).visited) h ⟨_, tree_init, tree_init.start_visited⟩ ?_
  rintro u v ⟨depth, ht, hc⟩ hstep
  obtain ⟨s, c, rfl, hnext⟩ := hstep.popped
  obtain ⟨ht', hv, -⟩ := (ht.expand hc).nextNode hnext
  exact ⟨_, ht', hv⟩

lemma Reached.popped {u v : Loop K} (hu : p.Reached u) (h : p.Pass u v) :
    ∃ s c depth, u = .head s c ∧ p.Tree s depth ∧ (s.sNodes c).visited ∧
      NextNode (p.addNeighbors s c) v.node v.search := by
  obtain ⟨depth, ht, hc⟩ := hu.tree
  obtain ⟨s, c, rfl, hnext⟩ := h.popped
  exact ⟨s, c, depth, rfl, ht, hc, hnext⟩

lemma Stops.last {s : Search K} {n : ℕ} (h : p.Stops s n) :
    ∃ t c, p.Reached (.head t c) ∧ NextNode (p.addNeighbors t c) n s ∧
      p.distance n p.endNode = 0 := by
  rcases Relation.ReflTransGen.cases_tail h with h | ⟨l, hl, hpass⟩
  · cases h
  · cases hpass with
    | found hnext hd => exact ⟨_, _, hl, hnext, hd⟩

end SelfTraining.Route.RoutePlanner
