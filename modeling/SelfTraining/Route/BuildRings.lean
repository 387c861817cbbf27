import SelfTraining.Route.RingAssembly

/-!
`BuildRings` on a whole multipolygon, as long as the ways stay where they are: what it leaves of
the outer and of the inner list, and when it leaves no open way behind.
-/

namespace SelfTraining.Route

open SelfTraining.Parity

lemma filter_open_eq (mWays : List Way) (nums : List ℤ) :
    (nums.filter fun i => !isClosed (wayAt mWays i)) =
      (openPositions mWays nums).map fun j => nums.getD j (-1) := by
  have h := congrArg (List.filter fun i => !isClosed (wayAt mWays i))
    (map_getD_range nums (-1)).symm
  rwa [List.filter_map] at h

lemma standing_init (mWays : List Way) (nums : List ℤ) :
    Standing mWays nums mWays.length (openPositions mWays nums) []
      { closed := nums.filter fun i => isClosed (wayAt mWays i)
        left := nums.filter fun i => !isClosed (wayAt mWays i)
        mWays := mWays } where
  left := filter_open_eq mWays nums
  closed := by simp
  ways := by simp
  ring k qs h := by simp at h
  used := by simp

lemma processUnmoved_spec (mWays : List Way) (nums : List ℤ)
    (hne : ∀ i ∈ nums, (wayAt mWays i).nodes ≠ []) :
    ∃ r pos rings, processUnmoved mWays nums = .ok r ∧
      Standing mWays nums mWays.length pos rings r ∧ mWays <+: r.mWays ∧
      (EvenLeft mWays nums (openPositions mWays nums) → pos = []) := by
  refine processLoopUnmoved_spec hne _ (standing_init mWays nums) ?_
  exact (List.length_filter_le _ _).trans_lt (by simp)

lemma processLoopUnmoved_grow {ways : List Way} {fuel : ℕ} {st r : Processed}
    (h : processLoopUnmoved ways fuel st = .ok r) : st.mWays <+: r.mWays := by
  induction fuel generalizing st with
  | zero => simp [processLoopUnmoved] at h
  | succ fuel ih =>
    rw [processLoopUnmoved] at h
    split at h
    · cases h; exact List.prefix_rfl
    · split at h
      · cases h
      · split at h
        · cases h; exact List.prefix_rfl
        · exact (List.prefix_append _ _).trans (ih h)

lemma nodes_ne_nil {w : Way} (h : isClosed w = true) : w.nodes ≠ [] := by
  intro hnil
  simp [isClosed, hnil] at h

lemma wayAt_grow {ways ways' : List Way} (h : ways <+: ways') {i : ℤ}
    (hi : (wayAt ways i).nodes ≠ []) : wayAt ways' i = wayAt ways i := by
  obtain ⟨new, rfl⟩ := h
  exact wayAt_append hi

section Members

variable {ways ways' : List Way} {nums : List ℤ}

lemma nodesAt_congr (h : ∀ i ∈ nums, wayAt ways' i = wayAt ways i) (j : ℕ)
    (hj : j < nums.length) : nodesAt nums ways' j = nodesAt nums ways j := by
  unfold nodesAt
  rw [h _ (getD_mem hj _)]

lemma openPositions_congr (h : ∀ i ∈ nums, wayAt ways' i = wayAt ways i) :
    openPositions ways' nums = openPositions ways nums := by
  refine List.filter_congr fun j hj => ?_
  rw [h _ (getD_mem (List.mem_range.mp hj) _)]

lemma Assembled.congr {base : ℕ} {after : List Way} {result : List ℤ}
    {rings : List (List (ℕ × Bool))} (h : ∀ i ∈ nums, wayAt ways' i = wayAt ways i)
    (ha : Assembled ways' nums base after result rings) :
    Assembled ways nums base after result rings where
  result_eq := by
    rw [ha.result_eq]
    congr 1
    exact List.filter_congr fun i hi => by rw [h i hi]
  ring k qs hk := by
    have hr := ha.ring k qs hk
    have hlt : ∀ q ∈ qs, q.1 < nums.length := by
      intro q hq
      have hmem := ha.members q.1 (List.mem_map.mpr
        ⟨q, List.mem_flatten.mpr ⟨qs, List.mem_of_getElem? hk, hq⟩, rfl⟩)
      exact List.mem_range.mp (List.mem_filter.mp hmem).1
    have hor : ∀ q ∈ qs, oriented (nodesAt nums ways') q = oriented (nodesAt nums ways) q := by
      intro q hq
      unfold oriented
      rw [nodesAt_congr h q.1 (hlt q hq)]
    refine ⟨hr.ne_nil, ?_, ?_, hr.closed⟩
    · exact hr.linked.imp_of_mem_imp fun a b ha hb hab => by rw [← hor a ha, ← hor b hb, hab]
    · rw [hr.nodes]
      exact List.flatMap_congr hor
  once := ha.once
  members i hi := openPositions_congr h ▸ ha.members i hi

lemma Assembled.grow {base : ℕ} {after after' : List Way} {result : List ℤ}
    {rings : List (List (ℕ × Bool))} (h : after <+: after')
    (ha : Assembled ways nums base after result rings) :
    Assembled ways nums base after' result rings := by
  refine { ha with ring := fun k qs hk => ?_ }
  have hr := ha.ring k qs hk
  rwa [wayAt_grow h (nodes_ne_nil hr.closed)]

lemma Assembled.closed {base : ℕ} {after : List Way} {result : List ℤ}
    {rings : List (List (ℕ × Bool))} (ha : Assembled ways nums base after result rings)
    (hpre : ways <+: after) : ∀ i ∈ result, isClosed (wayAt after i) = true := by
  intro i hi
  rw [ha.result_eq, List.mem_append] at hi
  rcases hi with hi | hi
  · have hcl := (List.mem_filter.mp hi).2
    rwa [wayAt_grow hpre (nodes_ne_nil hcl)]
  · obtain ⟨k, hk, rfl⟩ := List.mem_map.mp hi
    have hk := List.mem_range.mp hk
    exact (ha.ring k rings[k] (List.getElem?_eq_getElem hk)).closed

end Members

/-- What `BuildRings` is to make of a multipolygon. Each list holds its closed members in their
order and after them new ways, numbered on from the ways there were; each new way is a closed
chain of open members, forward or reversed, and no position is used twice. All ways of each list
are closed, and the ways there were are unchanged. -/
def RingsMade (mWays : List Way) (mp : Multipolygon) (after : List Way) (mp' : Multipolygon) :
    Prop :=
  ∃ outerRings innerRings, mWays <+: after ∧
    after.length = mWays.length + outerRings.length + innerRings.length ∧
    Assembled mWays mp.outer mWays.length after mp'.outer outerRings ∧
    Assembled mWays mp.inner (mWays.length + outerRings.length) after mp'.inner innerRings ∧
    ∀ i ∈ mp'.outer ++ mp'.inner, isClosed (wayAt after i) = true

/-- **Ring assembly**, as long as the ways stay where they are: it comes to an end without a
fault when every member has a node. -/
theorem buildRingsUnmoved_spec (mWays : List Way) (mp : Multipolygon)
    (hne : ∀ i ∈ mp.outer ++ mp.inner, (wayAt mWays i).nodes ≠ []) :
    ∃ after mp', buildRingsUnmoved mWays mp = .ok (after, mp') ∧ RingsMade mWays mp after mp' := by
  obtain ⟨r₁, pos₁, rings₁, hrun₁, hst₁, hpre₁, -⟩ :=
    processUnmoved_spec mWays mp.outer fun i hi => hne i (by simp [hi])
  have hinner : ∀ i ∈ mp.inner, wayAt r₁.mWays i = wayAt mWays i :=
    fun i hi => wayAt_grow hpre₁ (hne i (by simp [hi]))
  obtain ⟨r₂, pos₂, rings₂, hrun₂, hst₂, hpre₂, -⟩ :=
    processUnmoved_spec r₁.mWays mp.inner fun i hi => by
      rw [hinner i hi]
      exact hne i (by simp [hi])
  have houter := hst₁.assembled.grow hpre₂
  have hinner' := hst₂.assembled.congr hinner
  rw [hst₁.ways] at hinner'
  refine ⟨r₂.mWays, ⟨r₁.closed, r₂.closed⟩, ?_, rings₁, rings₂, hpre₁.trans hpre₂, ?_, houter,
    hinner', ?_⟩
  · simp only [buildRingsUnmoved, hrun₁, hrun₂]
  · rw [hst₂.ways, hst₁.ways]
  · intro i hi
    rcases List.mem_append.mp hi with hi | hi
    · exact houter.closed (hpre₁.trans hpre₂) i hi
    · exact hinner'.closed (hpre₁.trans hpre₂) i hi

/-! ### Nothing is lost -/

/-- The open members of a list have two nodes or more, and every node is an end of an even
number of them. -/
structure EvenMembers (mWays : List Way) (nums : List ℤ) : Prop where
  size : ∀ i ∈ nums, isClosed (wayAt mWays i) = false → 2 ≤ (wayAt mWays i).nodes.length
  even : ∀ v : ℕ, Even ((nums.filter fun i => !isClosed (wayAt mWays i)).countP fun i =>
    (wayAt mWays i).nodes.head? == some v || (wayAt mWays i).nodes.getLast? == some v)

/-- Every position of an open member is used by exactly one ring, and the loop was left
because no open way was left. -/
def AllUsed (mWays : List Way) (nums : List ℤ) (base : ℕ) (r : Processed) : Prop :=
  r.left = [] ∧ ∃ rings, Assembled mWays nums base r.mWays r.closed rings ∧
    (rings.flatten.map Prod.fst).Perm (openPositions mWays nums)

lemma EvenMembers.ne_nil {mWays : List Way} {nums : List ℤ} (h : EvenMembers mWays nums) :
    ∀ i ∈ nums, (wayAt mWays i).nodes ≠ [] := by
  intro i hi hnil
  have hopen : isClosed (wayAt mWays i) = false := by simp [isClosed, hnil]
  have := h.size i hi hopen
  simp [hnil] at this

lemma EvenMembers.congr {ways ways' : List Way} {nums : List ℤ}
    (h : ∀ i ∈ nums, wayAt ways' i = wayAt ways i) (he : EvenMembers ways nums) :
    EvenMembers ways' nums where
  size i hi := by rw [h i hi]; exact he.size i hi
  even v := by
    have hf : (nums.filter fun i => !isClosed (wayAt ways' i)) =
        nums.filter fun i => !isClosed (wayAt ways i) :=
      List.filter_congr fun i hi => by rw [h i hi]
    rw [hf]
    have hc := he.even v
    rwa [List.countP_congr (q := fun i => (wayAt ways i).nodes.head? == some v ||
      (wayAt ways i).nodes.getLast? == some v) fun i hi => by
        rw [h i (List.mem_filter.mp hi).1]]

/-- An open way has two different ends, so it is counted once at each. -/
lemma endsAt_open {w : Way} {a b : ℕ} (hsize : 2 ≤ w.nodes.length) (hopen : isClosed w = false)
    (ha : w.nodes.head? = some a) (hb : w.nodes.getLast? = some b) (v : ℕ) :
    endsAt v (a, b) =
      if w.nodes.head? == some v || w.nodes.getLast? == some v then 1 else 0 := by
  have hab : a ≠ b := by
    rintro rfl
    simp [isClosed, ha, hb] at hopen
    omega
  unfold endsAt
  by_cases h1 : a = v
  · subst h1; simp [ha, hab.symm]
  · by_cases h2 : b = v
    · subst h2; simp [ha, hb, h1]
    · simp [ha, hb, h1, h2]

lemma degree_eq_countP {α : Type*} (f : α → ℕ × ℕ) (q : α → Bool) (v : ℕ) (l : List α)
    (h : ∀ i ∈ l, endsAt v (f i) = if q i then 1 else 0) :
    degree (l.map f) v = l.countP q := by
  induction l with
  | nil => rfl
  | cons a l ih =>
    rw [List.map_cons, degree_cons, h a (by simp), ih fun i hi => h i (by simp [hi]),
      List.countP_cons, add_comm]

lemma EvenMembers.evenLeft {mWays : List Way} {nums : List ℤ} (h : EvenMembers mWays nums) :
    EvenLeft mWays nums (openPositions mWays nums) := by
  have hmem : ∀ j ∈ openPositions mWays nums, nums.getD j (-1) ∈ nums ∧
      isClosed (wayAt mWays (nums.getD j (-1))) = false := by
    intro j hj
    obtain ⟨hlt, ho⟩ := List.mem_filter.mp hj
    exact ⟨getD_mem (List.mem_range.mp hlt) _, by simpa using ho⟩
  refine ⟨fun j hj => h.size _ (hmem j hj).1 (hmem j hj).2, fun v => ?_⟩
  rw [degree_eq_countP _ (fun j => (nodesAt nums mWays j).head? == some v ||
    (nodesAt nums mWays j).getLast? == some v)]
  · have hev := h.even v
    rw [filter_open_eq, List.countP_map] at hev
    exact hev
  · intro j hj
    obtain ⟨hj1, hj2⟩ := hmem j hj
    obtain ⟨a, b, ha, hb⟩ := ends_of_ne (h.ne_nil _ hj1)
    rw [waysEnds_eq (W := nodesAt nums mWays) ha hb]
    exact endsAt_open (h.size _ hj1 hj2) hj2 ha hb v

/-- As long as the ways stay where they are, all open members of such a list are used. -/
lemma EvenMembers.unmoved {mWays : List Way} {nums : List ℤ} (h : EvenMembers mWays nums) :
    ∃ r, processUnmoved mWays nums = .ok r ∧ AllUsed mWays nums mWays.length r := by
  obtain ⟨r, pos, rings, hrun, hst, -, hpos⟩ := processUnmoved_spec mWays nums h.ne_nil
  obtain rfl := hpos h.evenLeft
  refine ⟨r, hrun, by simpa using hst.left, rings, hst.assembled, ?_⟩
  simpa using hst.used

end SelfTraining.Route
