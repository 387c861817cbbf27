import SelfTraining.Route.SearchRuns
import SelfTraining.Route.Termination

/-!
A second search on one model.

What a search writes into the nodes outlasts its planner, and a later planner clears nothing
of it. Its search goes as on a fresh model for as long as it does not miss what the first
one has taken: it starts at a node that was not visited, and on every road it looks at, the
nearest node it has not visited itself was not visited by the first search either. The
comparison forgets what the first search left behind.
-/

namespace SelfTraining.Route.RoutePlanner

open SelfTraining.Distance SelfTraining.Order SelfTraining.Steps

variable {K : Type*} [CommRing K] [LinearOrder K] [IsStrictOrderedRing K]

/-- Two planners on one model. -/
structure OneModel (p q : RoutePlanner K) : Prop where
  model : q.model = p.model
  metric : q.metric = p.metric
  floatMax : q.floatMax = p.floatMax

section Second

variable (q : RoutePlanner K)

/-- `AStarSearch` begins on nodes that an earlier search has left; the open list is the
planner's own. -/
def resume (left : Search K) : Search K :=
  Search.write ⟨left.sNodes, []⟩ q.startNode { left.sNodes q.startNode with visited := true }

/-- Every run of the search on a fresh model stops. -/
def Succeeds : Prop := Ends q.Pass (fun l => ∃ s n, l = .found s n) (.head q.init q.startNode)

/-- Where the search has stopped, it yields a path and a distance that a search on a fresh
model can yield. -/
def YieldsFresh (s : Search K) (n : ℕ) : Prop :=
  ∃ path dist, (∀ fuel, q.model.nodes.length ≤ fuel →
      q.constructFinalPath s fuel n = some (path, dist)) ∧
    ∃ s₀ n₀, q.Stops s₀ n₀ ∧ ∀ fuel, q.model.nodes.length ≤ fuel →
      q.constructFinalPath s₀ fuel n₀ = some (path, dist)

/-- The search of `q` after any search of `p` on the same model: every run of it stops, and
yields what a search on a fresh model can yield. -/
def IndependentOf (p : RoutePlanner K) : Prop :=
  ∀ left m, p.Stops left m →
    Ends q.Pass (fun l => ∃ s n, l = .found s n ∧ q.YieldsFresh s n)
      (.head (q.resume left) q.startNode)

/-- The nodes that the earlier search has visited, as a fresh model has them. -/
def forget (left s : Search K) : Search K :=
  ⟨fun i => if (left.sNodes i).visited then q.fresh.sNodes i else s.sNodes i, s.openList⟩

/-- On every road of the node about to be expanded, the nearest node that this search has
not visited is not one that the earlier search has visited. -/
def Undisturbed (left : Search K) : Loop K → Prop
  | .head s c => ∀ r ∈ createNodeToRoadHashmap q.model.toModel c, ∀ m,
      q.findNeighbor (q.forget left s) c (q.model.wayNodes r.way) = some m →
        (left.sNodes m).visited = false
  | .found _ _ => True

end Second

variable {q : RoutePlanner K} {left : Search K}

/-! ### What a search leaves -/

lemma Reached.untouched {p : RoutePlanner K} {l : Loop K} (h : p.Reached l) :
    ∀ i, (l.search.sNodes i).visited = false → l.search.sNodes i = p.fresh.sNodes i := by
  induction h with
  | refl =>
    intro i hi
    have hs : i ≠ p.startNode := by
      rintro rfl
      simp [Loop.search, init_sNodes] at hi
    exact write_of_ne _ _ hs
  | @tail u v hreach hpass ih =>
    obtain ⟨s, c, depth, rfl, ht, hc, hnext⟩ := Reached.popped hreach hpass
    intro i hi
    rw [hnext.perm.1] at hi ⊢
    have hnode := addNeighbors_of_unvisited hc hi
    rw [hnode] at hi ⊢
    exact ih i hi

/-! ### One expansion -/

@[simp] lemma forget_openList (s : Search K) : (q.forget left s).openList = s.openList := rfl

lemma forget_of_left {s : Search K} {i : ℕ} (h : (left.sNodes i).visited = true) :
    (q.forget left s).sNodes i = q.fresh.sNodes i := if_pos h

lemma forget_of_not_left {s : Search K} {i : ℕ} (h : (left.sNodes i).visited = false) :
    (q.forget left s).sNodes i = s.sNodes i := by simp [forget, h]

lemma not_left_of_visited {s : Search K} {i : ℕ}
    (h : ((q.forget left s).sNodes i).visited = true) : (left.sNodes i).visited = false := by
  by_contra hleft
  rw [forget_of_left (by simpa using hleft)] at h
  simp [fresh] at h

/-- What the earlier search has visited counts as visited. -/
def LeftVisited (left s : Search K) : Prop :=
  ∀ i, (left.sNodes i).visited = true → (s.sNodes i).visited = true

section Expand

variable {s : Search K} {depth : ℕ → ℕ} {c : ℕ}

lemma picks_forget (hvis : LeftVisited left s) (hu : Undisturbed q left (.head s c)) :
    q.picks s c = q.picks (q.forget left s) c := by
  unfold picks
  refine List.filterMap_congr fun r hr => ?_
  refine firstMin_of_fewer (fun x hx => ?_) fun m hm => ?_
  · simp only [Bool.and_eq_true, Bool.not_eq_true', decide_eq_true_eq] at hx ⊢
    refine ⟨hx.1, ?_⟩
    rw [forget_of_not_left]
    · exact hx.2
    · by_contra h
      have := hvis x (by simpa using h)
      simp [hx.2] at this
  · have hleft := hu r hr m hm
    obtain ⟨-, hd, hv⟩ := q.findNeighbor_some hm
    rw [forget_of_not_left hleft] at hv
    simp [hd, hv]

lemma allNeighbors_forget (hvis : LeftVisited left s) (hc : (left.sNodes c).visited = false)
    (hu : Undisturbed q left (.head s c)) :
    q.allNeighbors s c = q.allNeighbors (q.forget left s) c := by
  unfold allNeighbors
  rw [picks_forget hvis hu, forget_of_not_left hc]

lemma not_left_of_allNeighbors (ht : q.Tree (q.forget left s) depth)
    (hu : Undisturbed q left (.head s c)) {i : ℕ}
    (hi : i ∈ q.allNeighbors (q.forget left s) c) : (left.sNodes i).visited = false := by
  rcases mem_allNeighbors.mp hi with h | h
  · exact not_left_of_visited (ht.child c i h).visited
  · obtain ⟨r, hr, hf⟩ := List.mem_filterMap.mp h
    exact hu r hr i hf

lemma LeftVisited.addNeighbors (hvis : LeftVisited left s) :
    LeftVisited left (q.addNeighbors s c) :=
  fun i hi => (q.addNeighbors_visited s c i).mpr (.inl (hvis i hi))

/-- **The step of the comparison.** An undisturbed expansion is that on a fresh model. -/
lemma addNeighbors_forget (ht : q.Tree (q.forget left s) depth)
    (hcv : ((q.forget left s).sNodes c).visited = true) (hvis : LeftVisited left s)
    (hu : Undisturbed q left (.head s c)) :
    q.addNeighbors (q.forget left s) c = q.forget left (q.addNeighbors s c) ∧
      LeftVisited left (q.addNeighbors s c) := by
  have hc := not_left_of_visited hcv
  have hall := allNeighbors_forget hvis hc hu
  refine ⟨?_, hvis.addNeighbors⟩
  have hext : ∀ i, (q.addNeighbors (q.forget left s) c).sNodes i =
      (q.forget left (q.addNeighbors s c)).sNodes i := by
    intro i
    rw [addNeighbors_sNodes]
    by_cases hi : (left.sNodes i).visited = true
    · have hmem : i ∉ q.allNeighbors (q.forget left s) c := fun h => by
        have := not_left_of_allNeighbors ht hu h
        simp [hi] at this
      have hic : i ≠ c := by
        rintro rfl
        simp [hi] at hc
      rw [if_neg hmem, if_neg hic, forget_of_left hi, forget_of_left hi]
    · have hi : (left.sNodes i).visited = false := by simpa using hi
      rw [forget_of_not_left hi, forget_of_not_left hi, forget_of_not_left hc,
        addNeighbors_sNodes, hall]
  have hlist : (q.addNeighbors (q.forget left s) c).openList =
      (q.addNeighbors s c).openList := by
    rw [addNeighbors_openList, addNeighbors_openList, hall, forget_openList]
  calc q.addNeighbors (q.forget left s) c
      = ⟨(q.addNeighbors (q.forget left s) c).sNodes,
          (q.addNeighbors (q.forget left s) c).openList⟩ := rfl
    _ = ⟨(q.forget left (q.addNeighbors s c)).sNodes, (q.addNeighbors s c).openList⟩ := by
        rw [funext hext, hlist]
    _ = q.forget left (q.addNeighbors s c) := rfl

lemma nextNode_forget {t t' : Search K} {n : ℕ}
    (hopen : ∀ i ∈ t.openList, (left.sNodes i).visited = false) (h : NextNode t n t') :
    NextNode (q.forget left t) n (q.forget left t') := by
  obtain ⟨l, hsort, rfl⟩ := h
  refine ⟨l, hsort.congr fun a ha b hb => ?_, rfl⟩
  unfold compare fValue
  rw [forget_of_not_left (hopen a ha), forget_of_not_left (hopen b hb)]

end Expand

/-! ### A whole run -/

/-- The loop state without what the earlier search has left. -/
def Loop.forget (q : RoutePlanner K) (left : Search K) : Loop K → Loop K
  | .head s c => .head (q.forget left s) c
  | .found s n => .found (q.forget left s) n

/-- A loop state of the second search beside the one of a search on a fresh model. -/
structure Beside (q : RoutePlanner K) (left : Search K) (l₀ l : Loop K) : Prop where
  reached : q.Reached l₀
  forget : l₀ = l.forget q left
  leftVisited : LeftVisited left l.search

lemma beside_init (hfresh : ∀ i, (left.sNodes i).visited = false →
      left.sNodes i = q.fresh.sNodes i)
    (hstart : (left.sNodes q.startNode).visited = false) :
    Beside q left (.head q.init q.startNode) (.head (q.resume left) q.startNode) where
  reached := .refl
  forget := by
    have hext : ∀ i, q.init.sNodes i = (q.forget left (q.resume left)).sNodes i := by
      intro i
      by_cases hi : i = q.startNode
      · subst hi
        rw [forget_of_not_left hstart]
        simp [init, resume, hfresh _ hstart]
      · have hinit : q.init.sNodes i = q.fresh.sNodes i := write_of_ne _ _ hi
        have hres : (q.resume left).sNodes i = left.sNodes i := write_of_ne _ _ hi
        rw [hinit]
        by_cases hleft : (left.sNodes i).visited = true
        · rw [forget_of_left hleft]
        · have hleft : (left.sNodes i).visited = false := by simpa using hleft
          rw [forget_of_not_left hleft, hres, hfresh i hleft]
    change Loop.head ⟨q.init.sNodes, []⟩ q.startNode = _
    rw [funext hext]
    rfl
  leftVisited i hi := by
    have hne : i ≠ q.startNode := by
      rintro rfl
      simp [hstart] at hi
    have hres : (q.resume left).sNodes i = left.sNodes i := write_of_ne _ _ hne
    exact hres ▸ hi

lemma Beside.pass {l₀ l l' : Loop K} (hb : Beside q left l₀ l) (hu : Undisturbed q left l)
    (h : q.Pass l l') : ∃ l₀', q.Pass l₀ l₀' ∧ Beside q left l₀' l' := by
  obtain ⟨hreach, rfl, hvis⟩ := hb
  obtain ⟨depth, ht, hc⟩ := hreach.tree
  have key : ∀ {s s' : Search K} {c n : ℕ}, q.Tree (q.forget left s) depth →
      ((q.forget left s).sNodes c).visited = true → LeftVisited left s →
      Undisturbed q left (.head s c) → NextNode (q.addNeighbors s c) n s' →
        NextNode (q.addNeighbors (q.forget left s) c) n (q.forget left s') ∧
          LeftVisited left s' := by
    intro s s' c n ht hc hvis hu hnext
    obtain ⟨heq, hvis'⟩ := addNeighbors_forget ht hc hvis hu
    refine ⟨?_, fun i hi => ?_⟩
    · rw [heq]
      refine nextNode_forget (fun i hi => ?_) hnext
      have hopen : i ∈ (q.addNeighbors (q.forget left s) c).openList := by rwa [heq]
      have hv := ((ht.expand hc).open_visited i hopen).1
      rw [heq] at hv
      exact not_left_of_visited hv
    · rw [hnext.perm.1]
      exact hvis' i hi
  cases h with
  | again hnext hd =>
    obtain ⟨hnext', hvis'⟩ := key ht hc hvis hu hnext
    exact ⟨_, .again hnext' hd, hreach.tail (.again hnext' hd), rfl, hvis'⟩
  | found hnext hd =>
    obtain ⟨hnext', hvis'⟩ := key ht hc hvis hu hnext
    exact ⟨_, .found hnext' hd, hreach.tail (.found hnext' hd), rfl, hvis'⟩

lemma Beside.progress {l₀ l : Loop K} (hb : Beside q left l₀ l) (hu : Undisturbed q left l)
    (h : ∃ l₀', q.Pass l₀ l₀') : ∃ l', q.Pass l l' := by
  obtain ⟨hreach, rfl, hvis⟩ := hb
  cases l with
  | found s n =>
    obtain ⟨l₀', hpass⟩ := h
    cases hpass
  | head s c =>
    obtain ⟨depth, ht, hc⟩ := hreach.tree
    have heq := (addNeighbors_forget (q := q) (c := c) ht hc hvis hu).1
    have hne := exists_pass_iff.mp h
    rw [heq] at hne
    exact exists_pass_iff.mpr hne

lemma parentWalk_forget {s : Search K} {depth : ℕ → ℕ} (ht : q.Tree (q.forget left s) depth)
    (fuel : ℕ) {i : ℕ} (hi : ((q.forget left s).sNodes i).visited = true) (path : List ℕ)
    (dist : K) :
    q.parentWalk s fuel i path dist = q.parentWalk (q.forget left s) fuel i path dist := by
  induction fuel generalizing i path dist with
  | zero => rfl
  | succ fuel ih =>
    have hnode := forget_of_not_left (q := q) (s := s) (not_left_of_visited hi)
    simp only [parentWalk, hnode]
    by_cases hs : i = q.startNode
    · subst hs
      have hnone := ht.start_parent
      rw [hnode] at hnone
      simp [hnone]
    · obtain ⟨c, hch⟩ := ht.exists_parent hi hs
      have hpar := hch.parent
      rw [hnode] at hpar
      simp only [hpar]
      exact ih hch.parent_visited _ _

lemma Beside.yieldsFresh {l₀ : Loop K} {s : Search K} {n : ℕ}
    (hb : Beside q left l₀ (.found s n)) : q.YieldsFresh s n := by
  obtain ⟨hreach, rfl, -⟩ := hb
  have hstops : q.Stops (q.forget left s) n := hreach
  obtain ⟨depth, ht, hn⟩ := Reached.tree hstops
  change q.Tree (q.forget left s) depth at ht
  change ((q.forget left s).sNodes n).visited = true at hn
  obtain ⟨l, hbranch⟩ := ht.exists_branch hn
  have hfinal : ∀ fuel, q.model.nodes.length ≤ fuel →
      q.constructFinalPath (q.forget left s) fuel n = some (q.startNode :: l,
        pathLen q.distance (q.startNode :: l) * q.model.metricScale) := fun fuel hfuel =>
    hbranch.constructFinalPath ((ht.depth_lt_length hn).trans_le hfuel)
  refine ⟨_, _, fun fuel hfuel => ?_, q.forget left s, n, hstops, hfinal⟩
  rw [← hfinal fuel hfuel]
  unfold constructFinalPath
  rw [parentWalk_forget ht fuel hn]

lemma OneModel.fresh {p : RoutePlanner K} (h : OneModel p q) : q.fresh = p.fresh := by
  unfold RoutePlanner.fresh
  rw [h.floatMax]

lemma OneModel.beside_init {p : RoutePlanner K} {m : ℕ} (h : OneModel p q)
    (hleft : p.Stops left m) (hstart : (left.sNodes q.startNode).visited = false) :
    Beside q left (.head q.init q.startNode) (.head (q.resume left) q.startNode) := by
  refine RoutePlanner.beside_init (fun i hi => ?_) hstart
  rw [h.fresh]
  exact Reached.untouched hleft i hi

lemma Beside.found {l₀ l : Loop K} (hb : Beside q left l₀ l) (h : ∃ s n, l₀ = .found s n) :
    ∃ s n, l = .found s n ∧ q.YieldsFresh s n := by
  obtain ⟨s₀, n₀, rfl⟩ := h
  cases l with
  | head s c => cases hb.forget
  | found s n => exact ⟨s, n, rfl, hb.yieldsFresh⟩

/-- Where no expansion is disturbed, every run stops with what a fresh model yields. -/
lemma Beside.ends {l₀ l : Loop K} (hb : Beside q left l₀ l)
    (hsucc : Ends q.Pass (fun l => ∃ s n, l = .found s n) l₀)
    (hall : ∀ l', Reaches q.Pass l l' → Undisturbed q left l') :
    Ends q.Pass (fun l => ∃ s n, l = .found s n ∧ q.YieldsFresh s n) l := by
  refine hsucc.simulate (R := fun u₀ u => Beside q left u₀ u ∧ Reaches q.Pass l u)
    (fun u₀ u hu h => hu.1.found h) ?_ ⟨hb, .refl⟩
  rintro u₀ u ⟨hu, hreach⟩ hex
  have hund := hall u hreach
  refine .inr ⟨hu.progress hund hex, fun v hv => ?_⟩
  obtain ⟨v₀, hpass, hv₀⟩ := hu.pass hund hv
  exact ⟨v₀, hpass, hv₀, hreach.tail hv⟩

/-- **A second search** on one model, after a first one that has not visited its start. A run
of it comes to an expansion that is disturbed, or it stops and yields a path and a distance
that a search on a fresh model can yield. Where no expansion of any run is disturbed, every
run stops and yields these. -/
theorem second_search {p q : RoutePlanner K} (hone : OneModel p q) (hsucc : Succeeds q)
    {left : Search K} {m : ℕ} (hleft : p.Stops left m)
    (hstart : (left.sNodes q.startNode).visited = false) :
    Ends (fun u v => Undisturbed q left u ∧ q.Pass u v)
      (fun l => (∃ s n, l = .found s n ∧ q.YieldsFresh s n) ∨ ¬ Undisturbed q left l)
      (.head (q.resume left) q.startNode) ∧
    ((∀ l, Reaches q.Pass (.head (q.resume left) q.startNode) l → Undisturbed q left l) →
      Ends q.Pass (fun l => ∃ s n, l = .found s n ∧ q.YieldsFresh s n)
        (.head (q.resume left) q.startNode)) := by
  have hinit := hone.beside_init hleft hstart
  refine ⟨?_, fun hall => hinit.ends hsucc hall⟩
  refine hsucc.simulate (R := Beside q left) (fun l₀ l hb h => .inl (hb.found h)) ?_ hinit
  intro l₀ l hb hex
  by_cases hu : Undisturbed q left l
  · refine .inr ⟨?_, fun l' hl' => hb.pass hu hl'.2⟩
    obtain ⟨l', hl'⟩ := hb.progress hu hex
    exact ⟨l', hu, hl'⟩
  · exact .inl (.inr hu)

/-! ### Searches in different parts of the map -/

/-- What a search visits, the roads connect with its start. -/
lemma Reached.connected {p : RoutePlanner K} {l : Loop K} (h : p.Reached l) {i : ℕ}
    (hi : (l.search.sNodes i).visited) :
    Relation.ReflTransGen (OnRoad p.model.toModel) p.startNode i := by
  obtain ⟨depth, ht, -⟩ := h.tree
  obtain ⟨b, hb⟩ := ht.exists_branch hi
  exact List.relationReflTransGen_of_exists_isChain_cons b hb.roads
    (by simpa [List.getLast?_eq_some_getLast] using hb.last)

omit [CommRing K] [LinearOrder K] [IsStrictOrderedRing K] in
lemma connected_symm {m : Model K} {i j : ℕ} (h : Relation.ReflTransGen (OnRoad m) i j) :
    Relation.ReflTransGen (OnRoad m) j i := by
  induction h with
  | refl => exact .refl
  | tail _ hstep ih => exact .head hstep.symm ih

lemma Beside.undisturbed {p : RoutePlanner K} (hone : OneModel p q) {m : ℕ}
    (hleft : p.Stops left m)
    (hsep : ¬ Relation.ReflTransGen (OnRoad p.model.toModel) p.startNode q.startNode)
    {l₀ l : Loop K} (hb : Beside q left l₀ l) : Undisturbed q left l := by
  obtain ⟨hreach, rfl, -⟩ := hb
  cases l with
  | found s n => trivial
  | head s c =>
    intro r hr x hx
    by_contra hv
    obtain ⟨depth, -, hc⟩ := hreach.tree
    have hstart := hreach.connected hc
    have hxv : (left.sNodes x).visited = true := by simpa using hv
    have hend := Reached.connected hleft hxv
    obtain ⟨hroad, htype, hcr⟩ := (mem_nodeToRoad _ _ _).mp hr
    have hstep : OnRoad q.model.toModel x c :=
      ⟨r, hroad, htype, (q.findNeighbor_some hx).1, hcr⟩
    rw [hone.model] at hstart hstep
    exact hsep ((hend.tail hstep).trans (connected_symm hstart))

/-- **Separate searches are independent.** Where no roads connect the two start nodes, the
second search yields what it could yield on a fresh model. -/
theorem independent_of_unconnected {p q : RoutePlanner K} (hone : OneModel p q)
    (hsucc : Succeeds q)
    (hsep : ¬ Relation.ReflTransGen (OnRoad p.model.toModel) p.startNode q.startNode) :
    q.IndependentOf p := by
  intro left m hleft
  have hstart : (left.sNodes q.startNode).visited = false := by
    by_contra hv
    have hsv : (left.sNodes q.startNode).visited = true := by simpa using hv
    exact hsep (Reached.connected hleft hsv)
  have hinit := hone.beside_init hleft hstart
  refine hinit.ends hsucc fun l hl => ?_
  have hbeside : ∃ l₀, Beside q left l₀ l := by
    refine Reaches.invariant (I := fun l => ∃ l₀, Beside q left l₀ l) hl ⟨_, hinit⟩ ?_
    rintro u v ⟨u₀, hu⟩ huv
    obtain ⟨v₀, -, hv⟩ := hu.pass (hu.undisturbed hone hleft hsep) huv
    exact ⟨v₀, hv⟩
  obtain ⟨l₀, hb⟩ := hbeside
  exact hb.undisturbed hone hleft hsep

/-! ### There and back -/

/-- Two nodes and a road between them. -/
def there : RoutePlanner ℤ where
  model := {
    nodes := [⟨0, 0⟩, ⟨1, 0⟩]
    ways := [⟨[0, 1]⟩]
    roads := [⟨0, .residential⟩]
    metricScale := 1
    ways_in_range := by decide
    roads_in_range := by decide }
  metric := taxicab ℤ
  startNode := 0
  endNode := 1
  start_lt := by decide
  end_lt := by decide
  floatMax := 1000

/-- The way back. -/
def back : RoutePlanner ℤ :=
  { there with
    startNode := 1
    endNode := 0
    start_lt := by decide
    end_lt := by decide }

lemma succeeds_of_connected {p : RoutePlanner K} (hpos : p.model.nodes.Nodup)
    (hne : p.startNode ≠ p.endNode)
    (hconn : Relation.ReflTransGen (OnRoad p.model.toModel) p.startNode p.endNode) :
    Succeeds p :=
  (search_finds hpos hne hconn).of_reaches fun _ _ h => ⟨_, _, h.choose_spec⟩

/-- After the way there has visited both nodes, the search for the way back finds none to
visit and asks for the back of an empty open list. -/
theorem back_not_independent : Succeeds there ∧ Succeeds back ∧ ¬ back.IndependentOf there := by
  have hthere : OnRoad there.model.toModel 0 1 := by decide
  have hback : OnRoad back.model.toModel 1 0 := by decide
  refine ⟨succeeds_of_connected (by decide) (by decide) (.single hthere),
    succeeds_of_connected (by decide) (by decide) (.single hback), fun h => ?_⟩
  have hrun : (there.aStarSearch 1 there.init 0).map
      (fun r => (r.2, (back.addNeighbors (back.resume r.1) 1).openList)) = some (1, []) := by
    decide
  obtain ⟨⟨left, m⟩, hstar, hobs⟩ := Option.map_eq_some_iff.mp hrun
  obtain ⟨rfl, hopen⟩ := Prod.mk.inj hobs
  cases h left 1 (there.aStarSearch_reaches hstar) with
  | done hq =>
    obtain ⟨s, n, hq, -⟩ := hq
    cases hq
  | move hex _ => exact exists_pass_iff.mp hex hopen

/-- Two roads that do not meet, and a search on each. -/
def apart : RoutePlanner ℤ where
  model := {
    nodes := [⟨0, 0⟩, ⟨1, 0⟩, ⟨2, 0⟩, ⟨3, 0⟩]
    ways := [⟨[0, 1]⟩, ⟨[2, 3]⟩]
    roads := [⟨0, .residential⟩, ⟨1, .residential⟩]
    metricScale := 1
    ways_in_range := by decide
    roads_in_range := by decide }
  metric := taxicab ℤ
  startNode := 0
  endNode := 1
  start_lt := by decide
  end_lt := by decide
  floatMax := 1000

/-- The other search. -/
def apartToo : RoutePlanner ℤ :=
  { apart with
    startNode := 2
    endNode := 3
    start_lt := by decide
    end_lt := by decide }

theorem second_search_apart : ∃ left, apart.Stops left 1 ∧
    Ends (fun u v => Undisturbed apartToo left u ∧ apartToo.Pass u v)
      (fun l => (∃ s n, l = .found s n ∧ apartToo.YieldsFresh s n) ∨
        ¬ Undisturbed apartToo left l) (.head (apartToo.resume left) 2) := by
  have hrun : (apart.aStarSearch 1 apart.init 0).map
      (fun r => (r.2, (r.1.sNodes 2).visited)) = some (1, false) := by decide
  obtain ⟨⟨left, m⟩, hstar, hobs⟩ := Option.map_eq_some_iff.mp hrun
  obtain ⟨rfl, hstart⟩ := Prod.mk.inj hobs
  have hroad : OnRoad apartToo.model.toModel 2 3 := by decide
  have hstops : apart.Stops left 1 := apart.aStarSearch_reaches hstar
  exact ⟨left, hstops, (second_search (p := apart) (q := apartToo) ⟨rfl, rfl, rfl⟩
    (succeeds_of_connected (by decide) (by decide) (.single hroad)) hstops hstart).1⟩

end SelfTraining.Route.RoutePlanner
