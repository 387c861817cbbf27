import SelfTraining.Route.Model
import SelfTraining.Lib.Steps
import SelfTraining.Lib.Order

/-!
The search of the route planner, on the nodes it shares with the model.

`NextNode` sorts the open list with a comparison that leaves ties open, so it is a relation
between the search before and the search after; a pass of the `do`-`while` loop is a step
between loop heads. `aStarSearch` runs the loop with one particular sort.
-/

namespace SelfTraining.Route

open SelfTraining.Distance SelfTraining.Order SelfTraining.Steps

/-- What a search writes into a node; the coordinates stay those of the model. -/
structure SNode (K : Type*) where
  parent : Option ℕ
  hValue : K
  gValue : K
  visited : Bool
  neighbors : List ℕ

/-- A planner on a model: its two ends are nodes of the map. -/
structure RoutePlanner (K : Type*) [CommRing K] [LinearOrder K] [IsStrictOrderedRing K] where
  model : RouteModel K
  metric : Metric (Node K) K
  startNode : ℕ
  endNode : ℕ
  start_lt : startNode < model.nodes.length
  end_lt : endNode < model.nodes.length
  /-- `std::numeric_limits<float>::max()`, the first value of every `h_value`. -/
  floatMax : K

/-- The nodes and the open list. -/
structure Search (K : Type*) where
  sNodes : ℕ → SNode K
  openList : List ℕ

/-- Write to one node. -/
def Search.write {K : Type*} (s : Search K) (i : ℕ) (n : SNode K) : Search K :=
  ⟨Function.update s.sNodes i n, s.openList⟩

section Write

variable {K : Type*} (s : Search K) {i j : ℕ} (n m : SNode K)

@[simp] lemma write_openList : (s.write i n).openList = s.openList := rfl
@[simp] lemma write_self : (s.write i n).sNodes i = n := by simp [Search.write]
lemma write_of_ne (h : j ≠ i) : (s.write i n).sNodes j = s.sNodes j := by
  simp [Search.write, h]
@[simp] lemma write_write : (s.write i n).write i m = s.write i m := by simp [Search.write]
@[simp] lemma write_sNodes_self : s.write i (s.sNodes i) = s := by simp [Search.write]

end Write

variable {K : Type*} [CommRing K] [LinearOrder K] [IsStrictOrderedRing K]

namespace RoutePlanner

variable (p : RoutePlanner K)

def pos (i : ℕ) : Node K := p.model.nodes.getD i ⟨0, 0⟩

def distance (i j : ℕ) : K := p.metric.dist (p.pos i) (p.pos j)

def calculateHValue (i : ℕ) : K := p.distance i p.endNode

/-- The model as its constructor leaves it. -/
def fresh : Search K := ⟨fun _ => ⟨none, p.floatMax, 0, false, []⟩, []⟩

/-! ### Expanding a node -/

def findNeighbor (s : Search K) (c : ℕ) (nodeIndices : List ℕ) : Option ℕ :=
  firstMin (fun i => decide (p.distance c i ≠ 0) && !(s.sNodes i).visited) (p.distance c)
    nodeIndices

/-- `this->neighbors.emplace_back(new_neighbor)`. -/
def pushNeighbor (s : Search K) (c n : ℕ) : Search K :=
  s.write c { s.sNodes c with neighbors := (s.sNodes c).neighbors ++ [n] }

/-- One turn of the loop over the roads of a node. -/
def tryRoad (c : ℕ) (s : Search K) (r : Road) : Search K :=
  match p.findNeighbor s c (p.model.wayNodes r.way) with
  | some n => pushNeighbor s c n
  | none => s

def findNeighbors (s : Search K) (c : ℕ) : Search K :=
  (createNodeToRoadHashmap p.model.toModel c).foldl (p.tryRoad c) s

/-- One turn of the loop over the neighbors of the current node. -/
def addNeighbor (c : ℕ) (s : Search K) (n : ℕ) : Search K :=
  { s.write n { s.sNodes n with
      parent := some c
      hValue := p.calculateHValue n
      gValue := (s.sNodes c).gValue + p.distance c n
      visited := true } with
    openList := s.openList ++ [n] }

def addNeighbors (s : Search K) (c : ℕ) : Search K :=
  ((p.findNeighbors s c).sNodes c).neighbors.foldl (p.addNeighbor c) (p.findNeighbors s c)

/-! ### Choosing the next node -/

/-- The sum the open list is sorted by. -/
def fValue (s : Search K) (i : ℕ) : K := (s.sNodes i).hValue + (s.sNodes i).gValue

/-- `compare`: a larger sum goes first. -/
def compare (s : Search K) (a b : ℕ) : Bool := decide (fValue s b < fValue s a)

/-- Sort, take the back, pop it. On an empty open list there is no outcome. -/
def NextNode (s : Search K) (n : ℕ) (s' : Search K) : Prop :=
  ∃ l, Sorts (compare s) s.openList (l ++ [n]) ∧ s' = { s with openList := l }

/-! ### The loop -/

/-- Where the loop stands: at its head with a current node, or out of it. -/
inductive Loop (K : Type*) where
  | head (s : Search K) (current : ℕ)
  | found (s : Search K) (n : ℕ)

/-- One pass of the `do`-`while` loop. -/
inductive Pass : Loop K → Loop K → Prop where
  | again {s s' : Search K} {c n : ℕ} : NextNode (p.addNeighbors s c) n s' →
      p.distance n p.endNode ≠ 0 → Pass (.head s c) (.head s' n)
  | found {s s' : Search K} {c n : ℕ} : NextNode (p.addNeighbors s c) n s' →
      p.distance n p.endNode = 0 → Pass (.head s c) (.found s' n)

/-- `current_node->visited = true` on the start node. -/
def init : Search K :=
  p.fresh.write p.startNode { p.fresh.sNodes p.startNode with visited := true }

/-- Where a run of the search on a fresh model can come to. -/
def Reached (l : Loop K) : Prop := Reaches p.Pass (.head p.init p.startNode) l

/-- The search stops at the node `n`, leaving the nodes and the open list in `s`. -/
def Stops (s : Search K) (n : ℕ) : Prop := p.Reached (.found s n)

/-! ### The final path -/

/-- The loop that follows the parents; `none` when `fuel` turns do not end it. -/
def parentWalk (s : Search K) : ℕ → ℕ → List ℕ → K → Option (List ℕ × K)
  | 0, _, _, _ => none
  | fuel + 1, c, path, dist =>
    match (s.sNodes c).parent with
    | none => some (path, dist)
    | some q => parentWalk s fuel q (c :: path) (dist + p.distance c q)

/-- The path, and the distance that `GetDistance` returns afterwards. -/
def constructFinalPath (s : Search K) (fuel c : ℕ) : Option (List ℕ × K) :=
  match p.parentWalk s fuel c [] 0 with
  | none => none
  | some (path, dist) => some (p.startNode :: path, dist * p.model.metricScale)

/-! ### One sort among those allowed -/

def nextNode (s : Search K) : Option (ℕ × Search K) :=
  match (s.openList.insertionSort fun a b => fValue s b ≤ fValue s a).getLast? with
  | none => none
  | some n => some (n, { s with
      openList := (s.openList.insertionSort fun a b => fValue s b ≤ fValue s a).dropLast })

def aStarSearch : ℕ → Search K → ℕ → Option (Search K × ℕ)
  | 0, _, _ => none
  | fuel + 1, s, c =>
    match nextNode (p.addNeighbors s c) with
    | none => none
    | some (n, s') =>
      if p.distance n p.endNode = 0 then some (s', n) else aStarSearch fuel s' n

omit [IsStrictOrderedRing K] in
lemma nextNode_sound {s s' : Search K} {n : ℕ} (h : nextNode s = some (n, s')) :
    NextNode s n s' := by
  unfold nextNode at h
  cases hl : (s.openList.insertionSort fun a b => fValue s b ≤ fValue s a).getLast? with
  | none => simp [hl] at h
  | some m =>
    simp only [hl, Option.some.injEq, Prod.mk.injEq] at h
    obtain ⟨rfl, rfl⟩ := h
    refine ⟨_, ?_, rfl⟩
    rw [List.dropLast_append_getLast? m hl]
    exact insertionSort_sorts (fValue s) s.openList

/-- The search with this sort is a run of the search. -/
theorem aStarSearch_reaches {fuel : ℕ} {s s' : Search K} {c n : ℕ}
    (h : p.aStarSearch fuel s c = some (s', n)) :
    Reaches p.Pass (.head s c) (.found s' n) := by
  induction fuel generalizing s c with
  | zero => simp [aStarSearch] at h
  | succ fuel ih =>
    cases hn : nextNode (p.addNeighbors s c) with
    | none => simp [aStarSearch, hn] at h
    | some r =>
      obtain ⟨m, t⟩ := r
      have hnext := nextNode_sound hn
      simp only [aStarSearch, hn] at h
      by_cases hd : p.distance m p.endNode = 0
      · simp only [hd, if_true, Option.some.injEq, Prod.mk.injEq] at h
        obtain ⟨rfl, rfl⟩ := h
        exact .single (.found hnext hd)
      · simp only [hd, if_false] at h
        exact .head (.again hnext hd) (ih h)

/-! ### What the pieces do -/

/-- The nodes that the roads of `c` offer, one for each road that has one to offer. -/
def picks (s : Search K) (c : ℕ) : List ℕ :=
  (createNodeToRoadHashmap p.model.toModel c).filterMap
    fun r => p.findNeighbor s c (p.model.wayNodes r.way)

/-- The neighbors list of `c` after `FindNeighbors`. -/
def allNeighbors (s : Search K) (c : ℕ) : List ℕ := (s.sNodes c).neighbors ++ p.picks s c

lemma findNeighbor_some {s : Search K} {c n : ℕ} {l : List ℕ}
    (h : p.findNeighbor s c l = some n) :
    n ∈ l ∧ p.distance c n ≠ 0 ∧ (s.sNodes n).visited = false := by
  obtain ⟨hmem, hok, -⟩ := firstMin_some h
  simp only [Bool.and_eq_true, decide_eq_true_eq, Bool.not_eq_true'] at hok
  exact ⟨hmem, hok⟩

lemma exists_findNeighbor {s : Search K} {c n : ℕ} {l : List ℕ} (hn : n ∈ l)
    (hd : p.distance c n ≠ 0) (hv : (s.sNodes n).visited = false) :
    ∃ m, p.findNeighbor s c l = some m :=
  exists_firstMin hn (by simp [hd, hv])

lemma findNeighbor_congr {s t : Search K} (h : ∀ i, (s.sNodes i).visited = (t.sNodes i).visited)
    (c : ℕ) (l : List ℕ) : p.findNeighbor s c l = p.findNeighbor t c l := by
  unfold findNeighbor
  simp only [h]

lemma foldl_tryRoad (c : ℕ) (l : List Road) (s : Search K) :
    l.foldl (p.tryRoad c) s = s.write c
      { s.sNodes c with
        neighbors := (s.sNodes c).neighbors ++
          l.filterMap fun r => p.findNeighbor s c (p.model.wayNodes r.way) } := by
  induction l generalizing s with
  | nil =>
    simp only [List.foldl_nil, List.filterMap_nil, List.append_nil]
    exact (write_sNodes_self s).symm
  | cons r l ih =>
    rw [List.foldl_cons, ih]
    cases hf : p.findNeighbor s c (p.model.wayNodes r.way) with
    | none => simp [tryRoad, hf]
    | some n =>
      have hvis : ∀ i, ((pushNeighbor s c n).sNodes i).visited = (s.sNodes i).visited := by
        intro i
        by_cases hi : i = c
        · subst hi; simp [pushNeighbor]
        · simp [pushNeighbor, write_of_ne _ _ hi]
      simp only [tryRoad, hf, p.findNeighbor_congr hvis, List.filterMap_cons]
      simp [pushNeighbor]

lemma findNeighbors_eq (s : Search K) (c : ℕ) :
    p.findNeighbors s c = s.write c { s.sNodes c with neighbors := p.allNeighbors s c } :=
  p.foldl_tryRoad c _ s

/-- What the second loop writes. The cost of the current node stays as it is, even if that node is
among its own neighbors. -/
lemma foldl_addNeighbor (c : ℕ) (l : List ℕ) (s : Search K) :
    (l.foldl (p.addNeighbor c) s).openList = s.openList ++ l ∧
    ∀ i, (l.foldl (p.addNeighbor c) s).sNodes i =
      if i ∈ l then
        { s.sNodes i with
          parent := some c
          hValue := p.calculateHValue i
          gValue := (s.sNodes c).gValue + p.distance c i
          visited := true }
      else s.sNodes i := by
  induction l generalizing s with
  | nil => simp
  | cons n l ih =>
    obtain ⟨ho, hn⟩ := ih (p.addNeighbor c s n)
    rw [List.foldl_cons]
    refine ⟨by rw [ho]; simp [addNeighbor], fun i => ?_⟩
    have hg : ((p.addNeighbor c s n).sNodes c).gValue = (s.sNodes c).gValue := by
      by_cases hcn : c = n
      · subst hcn
        simp [addNeighbor, distance]
      · exact congrArg SNode.gValue (write_of_ne _ _ hcn)
    rw [hn i, hg]
    by_cases hi : i = n
    · subst hi
      simp [addNeighbor]
    · have hni : (p.addNeighbor c s n).sNodes i = s.sNodes i := write_of_ne _ _ hi
      simp [hni, hi]

lemma findNeighbors_sNodes (s : Search K) (c i : ℕ) : (p.findNeighbors s c).sNodes i =
    { s.sNodes i with
      neighbors := if i = c then p.allNeighbors s c else (s.sNodes i).neighbors } := by
  rw [p.findNeighbors_eq]
  by_cases hi : i = c
  · subst hi; simp
  · simp [hi, write_of_ne _ _ hi]

lemma addNeighbors_openList (s : Search K) (c : ℕ) :
    (p.addNeighbors s c).openList = s.openList ++ p.allNeighbors s c := by
  unfold addNeighbors
  rw [(p.foldl_addNeighbor c _ _).1, p.findNeighbors_eq, write_self, write_openList]

/-- **One expansion.** -/
theorem addNeighbors_sNodes (s : Search K) (c i : ℕ) : (p.addNeighbors s c).sNodes i =
    if i ∈ p.allNeighbors s c then
      { parent := some c
        hValue := p.calculateHValue i
        gValue := (s.sNodes c).gValue + p.distance c i
        visited := true
        neighbors := if i = c then p.allNeighbors s c else (s.sNodes i).neighbors }
    else { s.sNodes i with
      neighbors := if i = c then p.allNeighbors s c else (s.sNodes i).neighbors } := by
  unfold addNeighbors
  rw [(p.foldl_addNeighbor c _ _).2 i]
  simp [findNeighbors_sNodes]

lemma addNeighbors_visited (s : Search K) (c i : ℕ) :
    ((p.addNeighbors s c).sNodes i).visited = true ↔
      (s.sNodes i).visited = true ∨ i ∈ p.allNeighbors s c := by
  rw [addNeighbors_sNodes]
  by_cases hi : i ∈ p.allNeighbors s c <;> simp [hi]

lemma addNeighbors_neighbors (s : Search K) (c i : ℕ) :
    ((p.addNeighbors s c).sNodes i).neighbors =
      if i = c then p.allNeighbors s c else (s.sNodes i).neighbors := by
  rw [addNeighbors_sNodes]
  by_cases hi : i ∈ p.allNeighbors s c <;> simp [hi]

omit [IsStrictOrderedRing K] in
lemma NextNode.perm {s s' : Search K} {n : ℕ} (h : NextNode s n s') :
    s'.sNodes = s.sNodes ∧ (n :: s'.openList).Perm s.openList := by
  obtain ⟨l, hl, rfl⟩ := h
  exact ⟨rfl, (List.perm_append_singleton n l).symm.trans hl.1⟩

omit [IsStrictOrderedRing K] in
lemma NextNode.least {s s' : Search K} {n : ℕ} (h : NextNode s n s') :
    ∀ x ∈ s.openList, fValue s n ≤ fValue s x := by
  obtain ⟨l, hl, rfl⟩ := h
  exact Sorts.last_le (fValue s) hl

omit [IsStrictOrderedRing K] in
lemma exists_nextNode {s : Search K} (h : s.openList ≠ []) : ∃ n s', NextNode s n s' := by
  obtain ⟨r, hr⟩ : ∃ r, nextNode s = some r := by
    unfold nextNode
    cases hl : (s.openList.insertionSort fun a b => fValue s b ≤ fValue s a).getLast? with
    | none =>
      rw [List.getLast?_eq_none_iff] at hl
      have hlen := List.length_insertionSort (fun a b => fValue s b ≤ fValue s a) s.openList
      rw [hl] at hlen
      exact absurd (List.length_eq_zero_iff.mp hlen.symm) h
    | some n => exact ⟨_, rfl⟩
  exact ⟨r.1, r.2, nextNode_sound hr⟩

end RoutePlanner

end SelfTraining.Route
