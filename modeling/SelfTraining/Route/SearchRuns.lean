import SelfTraining.Route.Validity

/-!
The search tree and the priorities along a run.

A run is kept with the loop states it has passed. What the search tree says of the fields
of the nodes holds at every loop head, and from there on no write changes a visited node.
The heuristic is consistent, so an expansion offers nothing cheaper than the node expanded.
-/

namespace SelfTraining.Route.RoutePlanner

open SelfTraining.Distance SelfTraining.Order SelfTraining.Steps

variable {K : Type*} [CommRing K] [LinearOrder K] [IsStrictOrderedRing K]

/-- A run of the search on a fresh model up to a loop state, after those it has passed. -/
def RunTo (p : RoutePlanner K) : List (Loop K) → Loop K → Prop :=
  Trace (fun e u v => e = u ∧ p.Pass u v) (.head p.init p.startNode)

variable {p : RoutePlanner K}

lemma RunTo.reached {past : List (Loop K)} {l : Loop K} (h : p.RunTo past l) : p.Reached l := by
  induction h with
  | nil => exact .refl
  | snoc _ hstep ih => exact .tail ih hstep.2

lemma Reached.exists_run {l : Loop K} (h : p.Reached l) : ∃ past, p.RunTo past l := by
  induction h with
  | refl => exact ⟨[], .nil⟩
  | tail _ hpass ih =>
    obtain ⟨past, hrun⟩ := ih
    exact ⟨_, .snoc hrun ⟨rfl, hpass⟩⟩

/-! ### What is written stays -/

/-- The visited nodes of `s` are visited in `t`, with the same parent and values. -/
def Keeps (s t : Search K) : Prop :=
  ∀ i, (s.sNodes i).visited → (t.sNodes i).visited ∧
    (t.sNodes i).parent = (s.sNodes i).parent ∧
    (t.sNodes i).gValue = (s.sNodes i).gValue ∧
    (t.sNodes i).hValue = (s.sNodes i).hValue

omit [CommRing K] [LinearOrder K] [IsStrictOrderedRing K] in
lemma Keeps.refl (s : Search K) : Keeps s s := fun _ hi => ⟨hi, rfl, rfl, rfl⟩

omit [CommRing K] [LinearOrder K] [IsStrictOrderedRing K] in
lemma Keeps.trans {s t u : Search K} (h : Keeps s t) (h' : Keeps t u) : Keeps s u := by
  intro i hi
  obtain ⟨hv, hp, hg, hh⟩ := h i hi
  obtain ⟨hv', hp', hg', hh'⟩ := h' i hv
  exact ⟨hv', hp'.trans hp, hg'.trans hg, hh'.trans hh⟩

section Expand

variable {s : Search K} {depth : ℕ → ℕ} {c : ℕ}

lemma Tree.keeps_turns (ht : p.Tree s depth) (hc : (s.sNodes c).visited) {l : List ℕ}
    (hl : l <+: p.allNeighbors s c) :
    Keeps s (l.foldl (p.addNeighbor c) (p.findNeighbors s c)) := by
  have hcl : c ∉ l := fun h => ht.not_mem_allNeighbors hc (hl.subset h)
  obtain ⟨-, hn⟩ := p.foldl_addNeighbor c l (p.findNeighbors s c)
  intro i hi
  rw [hn i, p.findNeighbors_sNodes s c i, p.findNeighbors_sNodes s c c]
  by_cases hil : i ∈ l
  · have hic : i ≠ c := by rintro rfl; exact hcl hil
    -- a visited node of the list is an old child, and is written the values it has
    rcases mem_allNeighbors.mp (hl.subset hil) with hold | hnew
    · have hch := ht.child c i hold
      simp [hil, hic, hch.parent, hch.gValue, hch.hValue]
    · have := (of_mem_picks hnew).2.1
      simp [hi] at this
  · by_cases hic : i = c
    · subst hic; simpa [hil] using hi
    · simpa [hil, hic] using hi

lemma Tree.keeps_expand (ht : p.Tree s depth) (hc : (s.sNodes c).visited) :
    Keeps s (p.addNeighbors s c) := by
  have h := ht.keeps_turns hc (List.prefix_refl _)
  have hall : ((p.findNeighbors s c).sNodes c).neighbors = p.allNeighbors s c := by
    rw [p.findNeighbors_eq, write_self]
  unfold addNeighbors
  rwa [hall]

end Expand

/-- **A pass keeps** what the visited nodes hold. -/
lemma Pass.keeps {u v : Loop K} (hu : p.Reached u) (h : p.Pass u v) :
    Keeps u.search v.search := by
  obtain ⟨s, c, depth, rfl, ht, hc, hnext⟩ := hu.popped h
  refine (ht.keeps_expand hc).trans fun i hi => ?_
  rw [hnext.perm.1]
  exact ⟨hi, rfl, rfl, rfl⟩

lemma Reached.keeps {u v : Loop K} (hu : p.Reached u) (h : Reaches p.Pass u v) :
    Keeps u.search v.search := by
  induction h with
  | refl => exact .refl _
  | tail huv hpass ih => exact ih.trans (hpass.keeps (hu.trans huv))

/-! ### The tree, told by the fields of the nodes -/

/-- The fields of the nodes form a search tree. -/
structure IsSearchTree (p : RoutePlanner K) (s : Search K) : Prop where
  start_parent : (s.sNodes p.startNode).parent = none
  start_gValue : (s.sNodes p.startNode).gValue = 0
  visited : ∀ n, (s.sNodes n).visited → n ≠ p.startNode → ∃ q,
    (s.sNodes n).parent = some q ∧ (s.sNodes q).visited ∧ OnRoad p.model.toModel q n ∧
      (s.sNodes n).gValue = (s.sNodes q).gValue + p.distance q n ∧
      (s.sNodes n).hValue = p.distance n p.endNode
  ancestors : ∀ n, (s.sNodes n).visited → ∃ l,
    (n :: l).IsChain (fun a b => (s.sNodes a).parent = some b) ∧
      (n :: l).getLast? = some p.startNode ∧ (n :: l).Nodup
  openList : ∀ n ∈ s.openList, (s.sNodes n).visited ∧ n ≠ p.startNode
  unvisited : ∀ n, (s.sNodes n).visited = false →
    (s.sNodes n).parent = none ∧ ∀ c, n ∉ (s.sNodes c).neighbors

lemma Tree.exists_ancestors {s : Search K} {depth : ℕ → ℕ} (ht : p.Tree s depth) {n : ℕ}
    (hn : (s.sNodes n).visited) : ∃ l,
      (n :: l).IsChain (fun a b => (s.sNodes a).parent = some b) ∧
        (n :: l).getLast? = some p.startNode ∧ (n :: l).Pairwise fun a b => depth b < depth a := by
  induction hd : depth n using Nat.strong_induction_on generalizing n with
  | _ d ih =>
    by_cases hs : n = p.startNode
    · subst hs
      exact ⟨[], .singleton _, rfl, List.pairwise_singleton _ _⟩
    · obtain ⟨q, hch⟩ := ht.exists_parent hn hs
      have hlt := hch.depth
      obtain ⟨l, hchain, hlast, hpair⟩ := ih (depth q) (by omega) hch.parent_visited rfl
      refine ⟨q :: l, .cons_cons hch.parent hchain, by rwa [List.getLast?_cons_cons], ?_⟩
      refine List.pairwise_cons.mpr ⟨fun b hb => ?_, hpair⟩
      rcases List.mem_cons.mp hb with rfl | hb
      · omega
      · have := (List.pairwise_cons.mp hpair).1 b hb
        omega

lemma Tree.isSearchTree {s : Search K} {depth : ℕ → ℕ} (ht : p.Tree s depth) :
    IsSearchTree p s where
  start_parent := ht.start_parent
  start_gValue := ht.start_gValue
  visited n hn hs := by
    obtain ⟨q, hch⟩ := ht.exists_parent hn hs
    exact ⟨q, hch.parent, hch.parent_visited, hch.onRoad, hch.gValue, hch.hValue⟩
  ancestors n hn := by
    obtain ⟨l, hchain, hlast, hpair⟩ := ht.exists_ancestors hn
    refine ⟨l, hchain, hlast, hpair.imp fun {a b} hab => ?_⟩
    rintro rfl
    exact lt_irrefl _ hab
  openList := ht.open_visited
  unvisited n hn := by
    refine ⟨ht.unvisited n hn, fun c hc => ?_⟩
    have := (ht.child c n hc).visited
    simp [hn] at this

/-- **The search-tree invariant.** At every loop head the fields of the nodes form a search
tree; from there on, no pass, and no turn of the loop over the neighbors within one, changes
the parent, the `g_value` or the `h_value` of a visited node. -/
theorem search_tree_invariant (p : RoutePlanner K) {s : Search K} {c : ℕ}
    (h : p.Reached (.head s c)) :
    IsSearchTree p s ∧
    (∀ l, Reaches p.Pass (.head s c) l → Keeps s l.search) ∧
    ∀ s' c', Reaches p.Pass (.head s c) (.head s' c') →
      ∀ l, l <+: ((p.findNeighbors s' c').sNodes c').neighbors →
        Keeps s (l.foldl (p.addNeighbor c') (p.findNeighbors s' c')) := by
  obtain ⟨depth, ht, -⟩ := h.tree
  refine ⟨Tree.isSearchTree ht, fun l hl => h.keeps hl, fun s' c' h' l hl => ?_⟩
  obtain ⟨depth', ht', hc'⟩ := Reached.tree (h.trans h')
  rw [p.findNeighbors_eq, write_self] at hl
  have hkeeps : Keeps s s' := h.keeps h'
  exact hkeeps.trans (Tree.keeps_turns ht' hc' hl)

/-- From the second loop head on. -/
theorem search_tree_invariant_detour : ∃ s, detour.Pass (.head detour.init 0) (.head s 1) ∧
    IsSearchTree detour s ∧ ∀ l, Reaches detour.Pass (.head s 1) l →
      (l.search.sNodes 1).visited = true ∧ (l.search.sNodes 1).parent = some 0 ∧
        (l.search.sNodes 1).gValue = 10 := by
  obtain ⟨s, hpass, hparent, hg, -⟩ := detour_second
  have hreached : detour.Reached (.head s 1) := .single hpass
  obtain ⟨htree, hkeeps, -⟩ := search_tree_invariant detour hreached
  have hv : (s.sNodes 1).visited = true := by
    by_contra hn
    have hnone := (htree.unvisited 1 (by simpa using hn)).1
    simp [hparent] at hnone
  refine ⟨s, hpass, htree, fun l hl => ?_⟩
  obtain ⟨hv', hparent', hg', -⟩ := hkeeps l hl 1 hv
  exact ⟨hv', hparent'.trans hparent, hg'.trans hg⟩

/-! ### Priorities -/

/-- The value of the node that the loop stands at. -/
def Loop.value (l : Loop K) : K := fValue l.search l.node

omit [LinearOrder K] [IsStrictOrderedRing K] in
lemma fValue_of_keeps {s t : Search K} (h : Keeps s t) {i : ℕ} (hi : (s.sNodes i).visited) :
    fValue t i = fValue s i := by
  obtain ⟨-, -, hg, hh⟩ := h i hi
  unfold fValue
  rw [hg, hh]

/-- **Consistency.** The straight line to the end is no longer by way of a child. -/
lemma Child.fValue_le {s : Search K} {depth : ℕ → ℕ} {c i : ℕ} (hch : p.Child s depth c i)
    (hc : (s.sNodes c).hValue = p.distance c p.endNode) : fValue s c ≤ fValue s i := by
  have htri : p.distance c p.endNode ≤ p.distance c i + p.distance i p.endNode :=
    p.metric.triangle _ _ _
  unfold fValue
  rw [hc, hch.hValue, hch.gValue]
  unfold calculateHValue
  linarith

/-- What is known of the priorities where the loop stands: nothing on the open list is
cheaper than the node returned last, unless none was returned. -/
structure Ordered (p : RoutePlanner K) (l : Loop K) : Prop where
  hValue : (l.search.sNodes l.node).hValue = p.distance l.node p.endNode
  openList : ∀ x ∈ l.search.openList, l.value ≤ fValue l.search x

lemma Ordered.expand {s : Search K} {c : ℕ} {depth : ℕ → ℕ} (ht : p.Tree s depth)
    (hc : (s.sNodes c).visited) (ho : Ordered p (.head s c)) {x : ℕ}
    (hx : x ∈ (p.addNeighbors s c).openList) :
    (Loop.head s c).value ≤ fValue (p.addNeighbors s c) x := by
  have hkeeps := ht.keeps_expand hc
  rw [addNeighbors_openList, List.mem_append] at hx
  rcases hx with hx | hx
  · rw [fValue_of_keeps hkeeps (ht.open_visited x hx).1]
    exact ho.openList x hx
  · have hcv : fValue (p.addNeighbors s c) c = (Loop.head s c).value :=
      fValue_of_keeps hkeeps hc
    rw [← hcv]
    exact (ht.expand_child hc hx).fValue_le ((hkeeps c hc).2.2.2.trans ho.hValue)

lemma Pass.ordered {u v : Loop K} (hu : p.Reached u) (h : p.Pass u v) : Ordered p v := by
  obtain ⟨s, c, depth, rfl, ht, hc, hnext⟩ := hu.popped h
  obtain ⟨ht', hv, hne⟩ := (ht.expand hc).nextNode hnext
  obtain ⟨q, hch⟩ := ht'.exists_parent hv hne
  refine ⟨hch.hValue, fun x hx => ?_⟩
  obtain ⟨hs, hperm⟩ := hnext.perm
  have hle := hnext.least x (hperm.mem_iff.mp (List.mem_cons_of_mem _ hx))
  unfold Loop.value fValue at hle ⊢
  rwa [hs]

/-- **Two calls of `NextNode` in a row** return values in order. -/
lemma Pass.value_le {u v : Loop K} (hu : p.Reached u) (ho : Ordered p u) (h : p.Pass u v) :
    u.value ≤ v.value := by
  obtain ⟨s, c, depth, rfl, ht, hc, hnext⟩ := hu.popped h
  obtain ⟨hs, hperm⟩ := hnext.perm
  have hle := ho.expand ht hc (hperm.mem_iff.mp List.mem_cons_self)
  unfold Loop.value fValue at hle ⊢
  rwa [hs]

lemma RunTo.values {past : List (Loop K)} {l : Loop K} (h : p.RunTo past l) :
    (past = [] ∨ Ordered p l) ∧
      (((past ++ [l]).tail.map Loop.value).Pairwise (· ≤ ·)) ∧
      ∀ x ∈ ((past ++ [l]).tail.map Loop.value), x ≤ l.value := by
  induction h with
  | nil => exact ⟨.inl rfl, by simp, by simp⟩
  | @snoc past e u v hrun hstep ih =>
    obtain ⟨rfl, hpass⟩ := hstep
    obtain ⟨hord, hpair, hle⟩ := ih
    have hreach : p.Reached e := RunTo.reached hrun
    have htail : (past ++ [e] ++ [v]).tail = (past ++ [e]).tail ++ [v] := by
      cases past <;> rfl
    have hall : ∀ x ∈ (past ++ [e]).tail.map Loop.value, x ≤ v.value := by
      intro x hx
      rcases hord with rfl | hord
      · simp at hx
      · exact (hle x hx).trans (hpass.value_le hreach hord)
    refine ⟨.inr (hpass.ordered hreach), ?_, ?_⟩
    · rw [htail, List.map_append, List.pairwise_append]
      refine ⟨hpair, List.pairwise_singleton _ _, fun x hx y hy => ?_⟩
      obtain rfl : y = v.value := by simpa using hy
      exact hall x hx
    · intro x hx
      rw [htail, List.map_append, List.mem_append] at hx
      rcases hx with hx | hx
      · exact hall x hx
      · obtain rfl : x = v.value := by simpa using hx
        exact le_rfl

/-- **Priorities never decrease.** Along every run the values of the nodes that `NextNode`
has returned are in order, and no entry left on the open list has a value below that of the
node returned last. -/
theorem priorities_ordered (p : RoutePlanner K) {past : List (Loop K)} {l : Loop K}
    (h : p.RunTo past l) :
    ((past ++ [l]).tail.map Loop.value).Pairwise (· ≤ ·) ∧
      (past ≠ [] → ∀ x ∈ l.search.openList, l.value ≤ fValue l.search x) := by
  obtain ⟨hord, hpair, -⟩ := h.values
  exact ⟨hpair, fun hne => (hord.resolve_left hne).openList⟩

theorem priorities_ordered_detour : ∃ past s, detour.RunTo past (.found s 4) ∧
    ((past ++ [Loop.found s 4]).tail.map Loop.value).Pairwise (· ≤ ·) := by
  obtain ⟨s, hs, -⟩ := detour_stops
  obtain ⟨past, hrun⟩ := Reached.exists_run hs
  exact ⟨past, s, hrun, (priorities_ordered detour hrun).1⟩

end SelfTraining.Route.RoutePlanner
