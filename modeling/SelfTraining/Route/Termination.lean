import SelfTraining.Route.Validity

/-!
The search comes to an end.

An expansion looks at each road of its node once and takes one node from it, so a road is
left half visited again and again. What keeps the search alive is that such a road always
has a node on the open list. What brings it to an end is that an expansion replaces one
entry of the open list by entries one level deeper in a tree no deeper than the map is
large, however often an entry is repeated.
-/

namespace SelfTraining.Route.RoutePlanner

open SelfTraining.Distance SelfTraining.Steps

variable {K : Type*} [CommRing K] [LinearOrder K] [IsStrictOrderedRing K]
variable {p : RoutePlanner K}

lemma eq_of_pos_eq (hpos : p.model.nodes.Nodup) {i j : ℕ} (hi : i < p.model.nodes.length)
    (hj : j < p.model.nodes.length) (h : p.pos i = p.pos j) : i = j := by
  unfold pos at h
  rw [List.getD_eq_getElem _ _ hi, List.getD_eq_getElem _ _ hj] at h
  exact (List.Nodup.getElem_inj_iff hpos).mp h

lemma eq_of_distance_eq (hpos : p.model.nodes.Nodup) {i j : ℕ} (hi : i < p.model.nodes.length)
    (hj : j < p.model.nodes.length) (h : p.distance i j = 0) : i = j :=
  eq_of_pos_eq hpos hi hj (pos_eq_of_distance h)

/-! ### The frontier -/

/-- Every road with a visited and an unvisited node has a node in `pending`. -/
def Frontier (p : RoutePlanner K) (s : Search K) (pending : List ℕ) : Prop :=
  ∀ r ∈ p.model.roads, r.type ≠ .footway → ∀ u ∈ p.model.wayNodes r.way,
    ∀ v ∈ p.model.wayNodes r.way, (s.sNodes u).visited → (s.sNodes v).visited = false →
      ∃ x ∈ pending, x ∈ p.model.wayNodes r.way

lemma frontier_init : Frontier p p.init (p.startNode :: p.init.openList) := by
  intro r _ _ u hu v _ hvu _
  have h : u = p.startNode := by simpa [init_sNodes] using hvu
  exact ⟨u, by simp [h], hu⟩

lemma exists_pick (hpos : p.model.nodes.Nodup) {s : Search K} {depth : ℕ → ℕ}
    (ht : p.Tree s depth) {c v : ℕ} {r : Road} (hc : (s.sNodes c).visited)
    (hr : r ∈ p.model.roads) (htype : r.type ≠ .footway) (hcr : c ∈ p.model.wayNodes r.way)
    (hvr : v ∈ p.model.wayNodes r.way) (hv : (s.sNodes v).visited = false) :
    ∃ x ∈ p.picks s c, x ∈ p.model.wayNodes r.way := by
  have hne : p.distance c v ≠ 0 := by
    intro h
    have := eq_of_distance_eq hpos (ht.visited_lt c hc) (p.model.lt_of_mem hvr) h
    subst this
    simp [hc] at hv
  obtain ⟨x, hx⟩ := p.exists_findNeighbor hvr hne hv
  exact ⟨x, List.mem_filterMap.mpr ⟨r, (mem_nodeToRoad _ _ _).mpr ⟨hr, htype, hcr⟩, hx⟩,
    (p.findNeighbor_some hx).1⟩

/-- **The frontier step.** After an expansion the open list alone is the frontier. -/
lemma Frontier.expand (hpos : p.model.nodes.Nodup) {s : Search K} {depth : ℕ → ℕ} {c : ℕ}
    (ht : p.Tree s depth) (hc : (s.sNodes c).visited)
    (hf : Frontier p s (c :: s.openList)) :
    Frontier p (p.addNeighbors s c) (p.addNeighbors s c).openList := by
  intro r hr htype u hu v hv hvu hvv
  rw [addNeighbors_openList]
  have hvv' : (s.sNodes v).visited = false := by
    rwa [addNeighbors_of_unvisited hc hvv] at hvv
  have hpick : ∀ x ∈ p.picks s c, x ∈ s.openList ++ p.allNeighbors s c := fun x hx =>
    List.mem_append.mpr (.inr (mem_allNeighbors.mpr (.inr hx)))
  rcases (ht.expand_visited c u).mp hvu with h | h
  · obtain ⟨x, hx, hxr⟩ := hf r hr htype u hu v hv h hvv'
    rcases List.mem_cons.mp hx with rfl | hx
    · obtain ⟨y, hy, hyr⟩ := exists_pick hpos ht hc hr htype hxr hv hvv'
      exact ⟨y, hpick y hy, hyr⟩
    · exact ⟨x, List.mem_append.mpr (.inl hx), hxr⟩
  · exact ⟨u, hpick u h, hu⟩

/-! ### The loop head -/

/-- What holds at the loop head before the end node is found. -/
structure Alive (p : RoutePlanner K) (depth : ℕ → ℕ) (s : Search K) (c : ℕ) : Prop where
  tree : p.Tree s depth
  current_visited : (s.sNodes c).visited
  current_ne : c ≠ p.endNode
  frontier : Frontier p s (c :: s.openList)
  end_open : (s.sNodes p.endNode).visited → p.endNode ∈ s.openList

/-- How much of the tree may still hang below the entries of a list. -/
def rank (p : RoutePlanner K) (depth : ℕ → ℕ) (l : List ℕ) : Multiset ℕ :=
  (l : Multiset ℕ).map fun i => p.model.nodes.length - depth i

section Alive

variable {depth : ℕ → ℕ} {s : Search K} {c : ℕ}

/-- **The rank goes down.** The popped entry makes room for entries one level deeper. -/
lemma Tree.rank_below {s' : Search K} {n : ℕ} (ht : p.Tree s depth)
    (hc : (s.sNodes c).visited) (hnext : NextNode (p.addNeighbors s c) n s') :
    Below (rank p (deeper p s depth c) (n :: s'.openList)) (rank p depth (c :: s.openList)) := by
  have hperm : ((n :: s'.openList : List ℕ) : Multiset ℕ) =
      (s.openList : Multiset ℕ) + (p.allNeighbors s c : Multiset ℕ) := by
    rw [Multiset.coe_eq_coe.mpr hnext.perm.2, addNeighbors_openList, Multiset.coe_add]
  have hold : (s.openList : Multiset ℕ).map
        (fun i => p.model.nodes.length - deeper p s depth c i) =
      (s.openList : Multiset ℕ).map fun i => p.model.nodes.length - depth i := by
    refine Multiset.map_congr rfl fun i hi => ?_
    rw [deeper_of_visited (ht.open_visited i (by simpa using hi)).1]
  unfold rank
  rw [hperm, Multiset.map_add, hold, ← Multiset.cons_coe, Multiset.map_cons]
  refine below_of_replace fun b hb => ?_
  obtain ⟨i, hi, rfl⟩ := Multiset.mem_map.mp hb
  have hch : deeper p s depth c i = depth c + 1 := by
    rw [(ht.expand_child hc (Multiset.mem_coe.mp hi)).depth, deeper_of_visited hc]
  have := ht.depth_lt_length hc
  omega

lemma Alive.end_open_expand (ha : Alive p depth s c)
    (he : ((p.addNeighbors s c).sNodes p.endNode).visited) :
    p.endNode ∈ (p.addNeighbors s c).openList := by
  rw [addNeighbors_openList, List.mem_append]
  rcases (ha.tree.expand_visited c _).mp he with h | h
  · exact .inl (ha.end_open h)
  · exact .inr (mem_allNeighbors.mpr (.inr h))

/-- **No empty open list.** While the end node is connected and not yet found, an expansion
leaves something to pop. -/
theorem Alive.openList_ne_nil (hpos : p.model.nodes.Nodup)
    (hconn : Relation.ReflTransGen (OnRoad p.model.toModel) p.startNode p.endNode)
    (ha : Alive p depth s c) : (p.addNeighbors s c).openList ≠ [] := by
  have ht := ha.tree.expand ha.current_visited
  by_cases he : ((p.addNeighbors s c).sNodes p.endNode).visited
  · exact List.ne_nil_of_mem (ha.end_open_expand he)
  · obtain ⟨u, v, ⟨r, hr, htype, hur, hvr⟩, hu, hv⟩ := Reaches.exists_exit
      (P := fun i => ((p.addNeighbors s c).sNodes i).visited = true) hconn ht.start_visited he
    obtain ⟨x, hx, -⟩ := (ha.frontier.expand hpos ha.tree ha.current_visited) r hr htype
      u hur v hvr hu (by simpa using hv)
    exact List.ne_nil_of_mem hx

lemma Alive.again {s' : Search K} {n : ℕ} (hpos : p.model.nodes.Nodup)
    (ha : Alive p depth s c) (hnext : NextNode (p.addNeighbors s c) n s')
    (hd : p.distance n p.endNode ≠ 0) : Alive p (deeper p s depth c) s' n := by
  obtain ⟨ht, hv, -⟩ := (ha.tree.expand ha.current_visited).nextNode hnext
  obtain ⟨hs, hperm⟩ := hnext.perm
  have hne : n ≠ p.endNode := by
    rintro rfl
    exact hd (p.metric.dist_self _)
  refine ⟨ht, hv, hne, ?_, ?_⟩
  · intro r hr htype u hu v hv' hvu hvv
    rw [hs] at hvu hvv
    obtain ⟨x, hx, hxr⟩ := (ha.frontier.expand hpos ha.tree ha.current_visited)
      r hr htype u hu v hv' hvu hvv
    exact ⟨x, hperm.mem_iff.mpr hx, hxr⟩
  · intro he
    rw [hs] at he
    have hmem := hperm.mem_iff.mpr (ha.end_open_expand he)
    exact (List.mem_cons.mp hmem).resolve_left hne.symm

end Alive

/-- What is kept of where the loop stands, with its rank. -/
def Sound (p : RoutePlanner K) (m : Multiset ℕ) : Loop K → Prop
  | .head s c => ∃ depth, Alive p depth s c ∧ m = rank p depth (c :: s.openList)
  | .found _ n => n = p.endNode

lemma Alive.init (hne : p.startNode ≠ p.endNode) :
    Alive p (fun _ => 0) p.init p.startNode where
  tree := tree_init
  current_visited := tree_init.start_visited
  current_ne := hne
  frontier := frontier_init
  end_open h := by simp [init_sNodes, hne.symm] at h

lemma Sound.pass (hpos : p.model.nodes.Nodup) {m : Multiset ℕ} {u v : Loop K}
    (hu : Sound p m u) (h : p.Pass u v) : ∃ m', Below m' m ∧ Sound p m' v := by
  cases h with
  | again hnext hd =>
    obtain ⟨depth, ha, rfl⟩ := hu
    exact ⟨_, ha.tree.rank_below ha.current_visited hnext, _, ha.again hpos hnext hd, rfl⟩
  | found hnext hd =>
    obtain ⟨depth, ha, rfl⟩ := hu
    obtain ⟨ht, hv, -⟩ := (ha.tree.expand ha.current_visited).nextNode hnext
    exact ⟨_, ha.tree.rank_below ha.current_visited hnext,
      eq_of_distance_eq hpos (ht.visited_lt _ hv) p.end_lt hd⟩

/-- **Every run comes to an end**, whatever the map and the two ends are: with a node found
at the end, or with an expansion that leaves nothing to pop. -/
theorem search_ends (p : RoutePlanner K) :
    Ends p.Pass (fun l => (∃ s n, l = .found s n) ∨
      ∃ s c, l = .head s c ∧ (p.addNeighbors s c).openList = [])
      (.head p.init p.startNode) := by
  refine Ends.of_rank below_wf (I := fun m l => ∃ depth, p.Tree l.search depth ∧
    (l.search.sNodes l.node).visited ∧ m = rank p depth (l.node :: l.search.openList)) ?_
    ⟨_, tree_init, tree_init.start_visited, rfl⟩
  rintro m l ⟨depth, ht, hc, rfl⟩
  cases l with
  | found s n => exact .inl (.inl ⟨s, n, rfl⟩)
  | head s c =>
    by_cases hnil : (p.addNeighbors s c).openList = []
    · exact .inl (.inr ⟨s, c, rfl, hnil⟩)
    · refine .inr ⟨exists_pass_iff.mpr hnil, fun v hv => ?_⟩
      obtain ⟨s, c, heq, hnext⟩ := hv.popped
      cases heq
      obtain ⟨ht', hv', -⟩ := (Tree.expand ht hc).nextNode hnext
      exact ⟨_, Tree.rank_below ht hc hnext, _, ht', hv', rfl⟩

lemma search_finds (hpos : p.model.nodes.Nodup) (hne : p.startNode ≠ p.endNode)
    (hconn : Relation.ReflTransGen (OnRoad p.model.toModel) p.startNode p.endNode) :
    Ends p.Pass (fun l => ∃ s, l = .found s p.endNode) (.head p.init p.startNode) := by
  have h0 : Sound p _ (.head p.init p.startNode) := ⟨_, Alive.init hne, rfl⟩
  refine Ends.of_rank below_wf (I := Sound p) ?_ h0
  intro m l hl
  cases l with
  | found s n =>
    obtain rfl : n = p.endNode := hl
    exact .inl ⟨s, rfl⟩
  | head s c =>
    refine .inr ⟨?_, fun v hv => hl.pass hpos hv⟩
    obtain ⟨depth, ha, -⟩ := hl
    exact exists_pass_iff.mpr (ha.openList_ne_nil hpos hconn)

/-- **Search completeness and termination.** On a map whose nodes have distinct positions,
with an end node that the roads connect to a different start node: whatever the sort does
with ties, the loop stops after finitely many passes with the end node found, and it never
asks for the back of an empty open list. -/
theorem search_terminates (p : RoutePlanner K) (hpos : p.model.nodes.Nodup)
    (hne : p.startNode ≠ p.endNode)
    (hconn : Relation.ReflTransGen (OnRoad p.model.toModel) p.startNode p.endNode) :
    Ends p.Pass (fun l => ∃ s, l = .found s p.endNode) (.head p.init p.startNode) ∧
    ∀ s c, p.Reached (.head s c) → (p.addNeighbors s c).openList ≠ [] := by
  refine ⟨search_finds hpos hne hconn, fun s c h => ?_⟩
  have hsound : ∃ m, Sound p m (.head s c) := by
    refine Reaches.invariant (I := fun l => ∃ m, Sound p m l) h ⟨_, _, Alive.init hne, rfl⟩ ?_
    rintro u v ⟨m, hu⟩ huv
    obtain ⟨m', -, hv⟩ := hu.pass hpos huv
    exact ⟨m', hv⟩
  obtain ⟨m, depth, ha, -⟩ := hsound
  exact ha.openList_ne_nil hpos hconn

/-- The ends of the map `detour` are joined by way of the nodes `1` and `3`. -/
theorem search_terminates_detour :
    Ends detour.Pass (fun l => ∃ s, l = .found s 4) (.head detour.init 0) := by
  have hconn : Relation.ReflTransGen (OnRoad detour.model.toModel) 0 4 :=
    List.relationReflTransGen_of_exists_isChain_cons [1, 3, 4] (by decide) rfl
  exact (search_terminates detour (by decide) (by decide) hconn).1

end SelfTraining.Route.RoutePlanner
