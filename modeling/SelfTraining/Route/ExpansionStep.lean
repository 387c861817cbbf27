import SelfTraining.Route.Validity

/-!
What one expansion does, in any state that searches on a model come to.

`AddNeighbors` asks the roads of a node one after the other, and each offers the first of its
nearest nodes that are not visited and lie elsewhere. Then it writes to all neighbors of the node,
the new ones and the old ones. The old ones are visited already: whichever planners have been at
work, the neighbors of a node are visited as soon as it has them.
-/

namespace SelfTraining.Route

open SelfTraining.Order SelfTraining.Steps

/-! ### The roads of a node -/

section Roads

variable {K : Type*} (m : Model K) (c : ℕ)

/-- A road as often as its way runs through the node, unless it is a footway. -/
def occurrences (r : Road) : List Road :=
  if r.type ≠ .footway then List.replicate ((m.wayNodes r.way).count c) r else []

/-- The roads through a node, one for each time that the node occurs in a road. -/
def roadsThrough : List Road := m.roads.flatMap (occurrences m c)

lemma foldl_pushRoad (r : Road) (l : List ℕ) (table : ℕ → List Road) :
    l.foldl (pushRoad r) table c = table c ++ List.replicate (l.count c) r := by
  induction l generalizing table with
  | nil => simp
  | cons a l ih =>
    rw [List.foldl_cons, ih]
    by_cases h : c = a
    · subst h
      rw [List.count_cons_self, Nat.add_comm, List.replicate_add]
      simp [pushRoad]
    · rw [List.count_cons_of_ne (Ne.symm h)]
      simp [pushRoad, h]

lemma pushNodes_eq (table : ℕ → List Road) (r : Road) :
    pushNodes m table r c = table c ++ occurrences m c r := by
  unfold pushNodes occurrences
  split_ifs
  · exact foldl_pushRoad c r _ table
  · simp

/-- **The table of the constructor** has the roads through each node. -/
theorem createNodeToRoadHashmap_eq : createNodeToRoadHashmap m c = roadsThrough m c := by
  have key : ∀ (l : List Road) (table : ℕ → List Road),
      l.foldl (pushNodes m) table c = table c ++ l.flatMap (occurrences m c) := by
    intro l
    induction l with
    | nil => simp
    | cons r l ih =>
      intro table
      rw [List.foldl_cons, ih, pushNodes_eq, List.flatMap_cons, List.append_assoc]
  rw [createNodeToRoadHashmap, key, roadsThrough, List.nil_append]

end Roads

variable {K : Type*} [CommRing K] [LinearOrder K] [IsStrictOrderedRing K]

namespace RoutePlanner

/-! ### What a road offers -/

section Offers

variable (p : RoutePlanner K) (s : Search K) (c : ℕ)

/-- A node that is not visited and does not lie where `c` lies. -/
def Candidate (n : ℕ) : Prop := (s.sNodes n).visited = false ∧ p.distance c n ≠ 0

/-- What a way offers to the node `c`: the first of its nearest candidates, in the order of the
way, and nothing if it has none. -/
inductive Offers (way : List ℕ) : Option ℕ → Prop where
  | nothing : (∀ n ∈ way, ¬ p.Candidate s c n) → Offers way none
  | first {before after : List ℕ} {n : ℕ} : way = before ++ n :: after → p.Candidate s c n →
      (∀ x ∈ before, p.Candidate s c x → p.distance c n < p.distance c x) →
      (∀ x ∈ after, p.Candidate s c x → p.distance c n ≤ p.distance c x) → Offers way (some n)

variable {p s c}

lemma candidate_iff {n : ℕ} : p.Candidate s c n ↔
    (decide (p.distance c n ≠ 0) && !(s.sNodes n).visited) = true := by
  unfold Candidate
  rw [Bool.and_eq_true, decide_eq_true_eq, Bool.not_eq_true', and_comm]

/-- **`FindNeighbor`** finds what the way offers. -/
theorem offers_iff {way : List ℕ} {o : Option ℕ} :
    p.Offers s c way o ↔ p.findNeighbor s c way = o := by
  constructor
  · intro h
    cases h with
    | nothing hnone =>
      cases hfind : p.findNeighbor s c way with
      | none => rfl
      | some n =>
        obtain ⟨hmem, hd, hv⟩ := p.findNeighbor_some hfind
        exact absurd ⟨hv, hd⟩ (hnone n hmem)
    | first hway hn hbefore hafter =>
      exact firstMin_eq_some_iff.mpr ⟨_, _, hway, candidate_iff.mp hn,
        fun x hx hok => hbefore x hx (candidate_iff.mpr hok),
        fun x hx hok => hafter x hx (candidate_iff.mpr hok)⟩
  · rintro rfl
    cases hfind : p.findNeighbor s c way with
    | none => exact .nothing fun n hn h => not_ok_of_firstMin hfind n hn (candidate_iff.mp h)
    | some n =>
      obtain ⟨before, after, hway, hok, hbefore, hafter⟩ := firstMin_eq_some_iff.mp hfind
      exact .first hway (candidate_iff.mpr hok)
        (fun x hx hx' => hbefore x hx (candidate_iff.mp hx'))
        fun x hx hx' => hafter x hx (candidate_iff.mp hx')

end Offers

/-! ### States of a search -/

/-- What planners on one model come to, in whatever order they start, expand nodes and pop nodes,
and whichever takes over from which. -/
inductive SearchState (m : RouteModel K) : Search K → Prop where
  | fresh {p : RoutePlanner K} : p.model = m → SearchState m p.fresh
  | newPlanner {s : Search K} : SearchState m s → SearchState m ⟨s.sNodes, []⟩
  | start {p : RoutePlanner K} {s : Search K} : p.model = m → SearchState m s →
      SearchState m (s.write p.startNode { s.sNodes p.startNode with visited := true })
  | addNeighbors {p : RoutePlanner K} {s : Search K} (c : ℕ) : p.model = m →
      SearchState m s → SearchState m (p.addNeighbors s c)
  | nextNode {s s' : Search K} {n : ℕ} : SearchState m s → NextNode s n s' → SearchState m s'

lemma SearchState.run {p : RoutePlanner K} {l l' : Loop K} (hl : SearchState p.model l.search)
    (h : Reaches p.Pass l l') : SearchState p.model l'.search := by
  induction h with
  | refl => exact hl
  | tail _ hpass ih =>
    cases hpass with
    | again hnext _ => exact .nextNode (.addNeighbors _ rfl ih) hnext
    | found hnext _ => exact .nextNode (.addNeighbors _ rfl ih) hnext

lemma Reached.searchState {p : RoutePlanner K} {l : Loop K} (h : p.Reached l) :
    SearchState p.model l.search :=
  SearchState.run (.start rfl (.fresh rfl)) h

/-- The neighbors that a node has are visited. -/
def NeighborsVisited (s : Search K) : Prop :=
  ∀ i, ∀ j ∈ (s.sNodes i).neighbors, (s.sNodes j).visited = true

section Visited

variable {s : Search K}

lemma NeighborsVisited.addNeighbors (h : NeighborsVisited s) (p : RoutePlanner K) (c : ℕ) :
    NeighborsVisited (p.addNeighbors s c) := by
  intro i j hj
  rw [addNeighbors_neighbors] at hj
  rw [addNeighbors_visited]
  split_ifs at hj
  · exact .inr hj
  · exact .inl (h i j hj)

omit [CommRing K] [LinearOrder K] [IsStrictOrderedRing K] in
lemma NeighborsVisited.start (h : NeighborsVisited s) (n : ℕ) :
    NeighborsVisited (s.write n { s.sNodes n with visited := true }) := by
  have hneighbors : ∀ i, ((s.write n { s.sNodes n with visited := true }).sNodes i).neighbors =
      (s.sNodes i).neighbors := by
    intro i
    by_cases hi : i = n
    · subst hi; simp
    · rw [write_of_ne _ _ hi]
  intro i j hj
  rw [hneighbors] at hj
  by_cases hjn : j = n
  · subst hjn; simp
  · rw [write_of_ne _ _ hjn]
    exact h i j hj

/-- **The invariant.** In every state of a search the neighbors of a node are visited. -/
theorem SearchState.neighborsVisited {m : RouteModel K} (h : SearchState m s) :
    NeighborsVisited s := by
  induction h with
  | fresh _ => simp [NeighborsVisited, RoutePlanner.fresh]
  | newPlanner _ ih => exact ih
  | start _ _ ih => exact ih.start _
  | addNeighbors c _ _ ih => exact ih.addNeighbors _ c
  | nextNode _ hnext ih =>
    unfold NeighborsVisited
    rw [hnext.perm.1]
    exact ih

end Visited

/-! ### The step -/

/-- The expansion of `c` leads from `s` to `s'`: each road through `c` has been asked for a node,
and those offered, which are `picks`, are visited now and stand with the old neighbors on the open
list. These nodes have got their values from `c`, and nothing else is written. -/
structure Expands (p : RoutePlanner K) (s : Search K) (c : ℕ) (picks : List ℕ) (s' : Search K) :
    Prop where
  offered : ∃ offers, List.Forall₂ (fun r o => p.Offers s c (p.model.wayNodes r.way) o)
    (roadsThrough p.model.toModel c) offers ∧ picks = offers.reduceOption
  newlyVisited : ∀ i, (s.sNodes i).visited = false ∧ (s'.sNodes i).visited = true ↔ i ∈ picks
  staysVisited : ∀ i, (s.sNodes i).visited = true → (s'.sNodes i).visited = true
  openList : s'.openList = s.openList ++ ((s.sNodes c).neighbors ++ picks)
  values : ∀ i ∈ (s.sNodes c).neighbors ++ picks, (s'.sNodes i).parent = some c ∧
    (s'.sNodes i).gValue = (s.sNodes c).gValue + p.distance c i ∧
    (s'.sNodes i).hValue = p.calculateHValue i
  otherValues : ∀ i, i ∉ (s.sNodes c).neighbors ++ picks →
    (s'.sNodes i).parent = (s.sNodes i).parent ∧ (s'.sNodes i).gValue = (s.sNodes i).gValue ∧
    (s'.sNodes i).hValue = (s.sNodes i).hValue
  neighbors : (s'.sNodes c).neighbors = (s.sNodes c).neighbors ++ picks
  otherNeighbors : ∀ i, i ≠ c → (s'.sNodes i).neighbors = (s.sNodes i).neighbors

lemma exists_offers (p : RoutePlanner K) (s : Search K) (c : ℕ) :
    ∃ offers, List.Forall₂ (fun r o => p.Offers s c (p.model.wayNodes r.way) o)
      (roadsThrough p.model.toModel c) offers ∧ p.picks s c = offers.reduceOption := by
  refine ⟨(roadsThrough p.model.toModel c).map
    fun r => p.findNeighbor s c (p.model.wayNodes r.way), ?_, ?_⟩
  · rw [List.forall₂_map_right_iff, List.forall₂_same]
    exact fun r _ => offers_iff.mpr rfl
  · rw [picks, createNodeToRoadHashmap_eq]
    change _ = List.filterMap id _
    rw [List.filterMap_map]
    rfl

/-- **Expansion step.** In every state of a search, the expansion of a node visits just what the
roads through it offer, and writes only what follows from that. -/
theorem expansion_step (p : RoutePlanner K) {s : Search K} (hs : SearchState p.model s) (c : ℕ) :
    ∃ picks, p.Expands s c picks (p.addNeighbors s c) := by
  have hpicks : ∀ i ∈ p.picks s c, (s.sNodes i).visited = false := fun i hi => (of_mem_picks hi).2.1
  refine ⟨p.picks s c, p.exists_offers s c, fun i => ?_, fun i hi => ?_,
    p.addNeighbors_openList s c, fun i hi => ?_, fun i hi => ?_, ?_, fun i hi => ?_⟩
  · rw [addNeighbors_visited, mem_allNeighbors]
    constructor
    · rintro ⟨hnot, hvisited | hold | hnew⟩
      · rw [hnot] at hvisited
        cases hvisited
      · rw [hs.neighborsVisited c i hold] at hnot
        cases hnot
      · exact hnew
    · exact fun hnew => ⟨hpicks i hnew, .inr (.inr hnew)⟩
  · exact (p.addNeighbors_visited s c i).mpr (.inl hi)
  · have hnode := (p.addNeighbors_sNodes s c i).trans (if_pos hi)
    simp [hnode]
  · have hnode := (p.addNeighbors_sNodes s c i).trans (if_neg hi)
    simp [hnode]
  · rw [addNeighbors_neighbors, if_pos rfl]
    rfl
  · rw [addNeighbors_neighbors, if_neg hi]

/-- From the left end of the line. -/
theorem expansion_step_detour :
    ∃ picks, detour.Expands detour.init 0 picks (detour.addNeighbors detour.init 0) :=
  expansion_step detour (.start rfl (.fresh rfl)) 0

end RoutePlanner

end SelfTraining.Route
