import SelfTraining.Route.RingSearch

/-!
What `BuildRings` leaves behind.

The members of a list are told apart by their position in it. The loop of `process` works
on a vector that shrinks, so beside it goes the list of the positions that its entries had
at first. Each turn takes the positions of one ring off that list.
-/

namespace SelfTraining.Route

open SelfTraining.Parity

section Defs

variable (mWays : List Way) (nums : List ℤ)

/-- The positions of the open members of a list. -/
def openPositions : List ℕ :=
  (List.range nums.length).filter fun i => !isClosed (wayAt mWays (nums.getD i (-1)))

/-- `w` is put together from the pieces `qs` of a list. -/
structure RingOf (qs : List (ℕ × Bool)) (w : Way) : Prop where
  ne_nil : qs ≠ []
  linked : Linked (nodesAt nums mWays) qs
  nodes : w.nodes = qs.flatMap (oriented (nodesAt nums mWays))
  closed : isClosed w = true

/-- The list `result` is what becomes of the list `nums`: its closed members, and after
them the ways from number `base` on, one for each of the `rings`. -/
structure Assembled (base : ℕ) (after : List Way) (result : List ℤ)
    (rings : List (List (ℕ × Bool))) : Prop where
  result_eq : result = (nums.filter fun i => isClosed (wayAt mWays i)) ++
    (List.range rings.length).map fun k => ((base + k : ℕ) : ℤ)
  ring : ∀ k qs, rings[k]? = some qs → RingOf mWays nums qs (wayAt after (base + k : ℕ))
  once : (rings.flatten.map Prod.fst).Nodup
  members : ∀ i ∈ rings.flatten.map Prod.fst, i ∈ openPositions mWays nums

end Defs

/-! ### Ways by their numbers -/

@[simp] lemma wayAt_natCast (ways : List Way) (n : ℕ) : wayAt ways (n : ℤ) = ways.getD n ⟨[]⟩ :=
  rfl

lemma lt_of_wayAt {ways : List Way} {i : ℤ} (h : (wayAt ways i).nodes ≠ []) :
    ∃ n : ℕ, i = n ∧ n < ways.length := by
  cases i with
  | ofNat n =>
    refine ⟨n, rfl, ?_⟩
    by_contra hn
    refine h ?_
    change (ways.getD n ⟨[]⟩).nodes = []
    rw [List.getD_eq_default _ _ (not_lt.mp hn)]
  | negSucc n => exact absurd rfl h

lemma wayAt_append {ways new : List Way} {i : ℤ} (h : (wayAt ways i).nodes ≠ []) :
    wayAt (ways ++ new) i = wayAt ways i := by
  obtain ⟨n, rfl, hn⟩ := lt_of_wayAt h
  rw [wayAt_natCast, wayAt_natCast, List.getD_append _ _ _ _ hn]

lemma getD_mem {α : Type*} {l : List α} {i : ℕ} (h : i < l.length) (d : α) :
    l.getD i d ∈ l := by
  rw [List.getD_eq_getElem _ _ h]
  exact List.getElem_mem h

lemma map_getD_range {α : Type*} (l : List α) (d : α) :
    (List.range l.length).map (fun i => l.getD i d) = l := by
  refine List.ext_getElem (by simp) fun i h1 h2 => ?_
  rw [List.getElem_map, List.getElem_range, List.getD_eq_getElem _ _ h2]

/-! ### The loop of `process` -/

/-- Where the loop stands: `pos` are the positions of the ways left, `rings` the rings
built so far. -/
structure Standing (mWays : List Way) (nums : List ℤ) (base : ℕ) (pos : List ℕ)
    (rings : List (List (ℕ × Bool))) (st : Processed) : Prop where
  left : st.left = pos.map fun i => nums.getD i (-1)
  closed : st.closed = (nums.filter fun i => isClosed (wayAt mWays i)) ++
    (List.range rings.length).map fun k => ((base + k : ℕ) : ℤ)
  ways : st.mWays.length = base + rings.length
  ring : ∀ k qs, rings[k]? = some qs → RingOf mWays nums qs (wayAt st.mWays (base + k : ℕ))
  used : (rings.flatten.map Prod.fst ++ pos).Perm (openPositions mWays nums)

lemma Standing.assembled {mWays : List Way} {nums : List ℤ} {base : ℕ} {pos : List ℕ}
    {rings : List (List (ℕ × Bool))} {st : Processed}
    (h : Standing mWays nums base pos rings st) :
    Assembled mWays nums base st.mWays st.closed rings where
  result_eq := h.closed
  ring := h.ring
  once := by
    have hnd : (openPositions mWays nums).Nodup := List.nodup_range.filter _
    exact (List.nodup_append.mp (h.used.nodup_iff.mpr hnd)).1
  members i hi := h.used.mem_iff.mp (List.mem_append.mpr (.inl hi))

section Loop

variable {mWays : List Way} {nums : List ℤ} {base : ℕ} {pos : List ℕ}
variable {rings : List (List (ℕ × Bool))} {st : Processed}

lemma Standing.pos_lt (h : Standing mWays nums base pos rings st) {i : ℕ} (hi : i ∈ pos) :
    i < nums.length := by
  have := h.used.mem_iff.mp (List.mem_append.mpr (.inr hi))
  exact List.mem_range.mp (List.mem_filter.mp this).1

lemma Standing.length_left (h : Standing mWays nums base pos rings st) :
    st.left.length = pos.length := by simp [h.left]

lemma Standing.nodesAt_left (h : Standing mWays nums base pos rings st) {j : ℕ}
    (hj : j < pos.length) : nodesAt st.left mWays j = nodesAt nums mWays (pos.getD j 0) := by
  unfold nodesAt
  rw [h.left, List.getD_eq_getElem _ _ (by simpa using hj), List.getElem_map,
    List.getD_eq_getElem pos _ hj]

lemma Standing.nodesAt_ne_nil (h : Standing mWays nums base pos rings st)
    (hne : ∀ i ∈ nums, (wayAt mWays i).nodes ≠ []) {j : ℕ} (hj : j < pos.length) :
    nodesAt st.left mWays j ≠ [] := by
  rw [h.nodesAt_left hj]
  exact hne _ (getD_mem (h.pos_lt (getD_mem hj 0)) _)

/-- A piece of the shrunken vector as a piece of the list. -/
def toMember (pos : List ℕ) (q : ℕ × Bool) : ℕ × Bool := (pos.getD q.1 0, q.2)

lemma Standing.oriented_toMember (h : Standing mWays nums base pos rings st) {q : ℕ × Bool}
    (hq : q.1 < pos.length) : oriented (nodesAt nums mWays) (toMember pos q) =
      oriented (nodesAt st.left mWays) q := by
  unfold oriented
  rw [h.nodesAt_left hq]
  rfl

lemma Standing.ringOf (h : Standing mWays nums base pos rings st)
    (hne : ∀ i ∈ nums, (wayAt mWays i).nodes ≠ []) {qs : List (ℕ × Bool)} {used : List Bool}
    {nodes : List ℕ}
    (hext : Extends (nodesAt st.left mWays) (List.replicate pos.length false) [] qs used nodes)
    (hcl : ClosedNodes nodes) : RingOf mWays nums (qs.map (toMember pos)) ⟨nodes⟩ := by
  have hlt : ∀ q ∈ qs, q.1 < pos.length := by
    simpa using hext.mem_unused
  have hW : ∀ i < (List.replicate pos.length false).length, nodesAt st.left mWays i ≠ [] := by
    intro i hi
    exact h.nodesAt_ne_nil hne (by simpa using hi)
  have hnodes := hext.nodes_eq
  refine ⟨?_, ?_, ?_, ?_⟩
  · intro hnil
    rw [List.map_eq_nil_iff.mp hnil] at hnodes
    simp [hnodes, ClosedNodes] at hcl
  · have hlink := hext.linked fun i hi => hW i (List.getElem?_eq_some_iff.mp hi).1
    unfold Linked at hlink ⊢
    rw [List.isChain_map]
    refine hlink.imp_of_mem_imp fun a b ha hb hab => ?_
    rw [h.oriented_toMember (hlt a ha), h.oriented_toMember (hlt b hb), hab]
  · rw [List.flatMap_map, hnodes, List.nil_append]
    refine List.flatMap_congr fun q hq => ?_
    exact (h.oriented_toMember (hlt q hq)).symm
  · unfold isClosed
    simp only [Bool.and_eq_true, decide_eq_true_eq, beq_iff_eq]
    exact hcl

lemma Standing.erase (h : Standing mWays nums base pos rings st)
    (hne : ∀ i ∈ nums, (wayAt mWays i).nodes ≠ []) {used : List Bool}
    (hlen : used.length = pos.length) :
    (((List.range st.left.length).map fun i =>
        if used.getD i false then (-1 : ℤ) else st.left.getD i (-1)).filter
          fun v => !decide (v < 0)) =
      ((unused used).map fun j => pos.getD j 0).map fun i => nums.getD i (-1) := by
  have hget : ∀ j < pos.length, st.left.getD j (-1) = nums.getD (pos.getD j 0) (-1) := by
    intro j hj
    rw [h.left, List.getD_eq_getElem _ _ (by simpa using hj), List.getElem_map,
      List.getD_eq_getElem pos _ hj]
  rw [List.filter_map, h.length_left]
  have hfilter : (List.range pos.length).filter ((fun v => !decide (v < 0)) ∘ fun i =>
      if used.getD i false then (-1 : ℤ) else st.left.getD i (-1)) = unused used := by
    unfold unused
    rw [hlen]
    refine List.filter_congr fun j hj => ?_
    have hj := List.mem_range.mp hj
    have hju : j < used.length := hlen ▸ hj
    obtain ⟨n, hn, -⟩ := lt_of_wayAt (hne _ (getD_mem (h.pos_lt (getD_mem hj 0)) (-1)))
    rw [Function.comp_apply, List.getD_eq_getElem used _ hju, List.getD_eq_getElem used _ hju,
      hget j hj, hn]
    cases used[j] <;> simp
  rw [hfilter, List.map_map]
  refine List.map_congr_left fun j hj => ?_
  have hjp : j < pos.length := hlen ▸ lt_of_mem_unused hj
  rw [List.getD_eq_getElem?_getD, mem_unused.mp hj, Function.comp_apply, hget j hjp]
  rfl

/-- **One turn of the loop.** A ring found takes its positions off those left. -/
lemma Standing.turn (h : Standing mWays nums base pos rings st)
    (hne : ∀ i ∈ nums, (wayAt mWays i).nodes ≠ []) {qs : List (ℕ × Bool)} {used : List Bool}
    {nodes : List ℕ}
    (hext : Extends (nodesAt st.left mWays) (List.replicate pos.length false) [] qs used nodes)
    (hcl : ClosedNodes nodes) :
    Standing mWays nums base ((unused used).map fun j => pos.getD j 0)
      (rings ++ [qs.map (toMember pos)])
      { closed := st.closed ++ [(st.mWays.length : ℤ)]
        left := ((List.range st.left.length).map fun i =>
          if used.getD i false then (-1 : ℤ) else st.left.getD i (-1)).filter
            fun v => !decide (v < 0)
        mWays := st.mWays ++ [⟨nodes⟩] } := by
  have hlen : used.length = pos.length := by simpa using hext.length_used
  have hring := h.ringOf hne hext hcl
  refine ⟨h.erase hne hlen, ?_, ?_, ?_, ?_⟩
  · simp only [h.closed, h.ways, List.length_append, List.length_singleton, List.range_succ,
      List.map_append, List.map_cons, List.map_nil, List.append_assoc]
  · simp [h.ways, add_assoc]
  · intro k qs' hk
    rcases lt_trichotomy k rings.length with hlt | rfl | hgt
    · rw [List.getElem?_append_left hlt] at hk
      have hr := h.ring k qs' hk
      rw [wayAt_natCast] at hr ⊢
      rwa [List.getD_append _ _ _ _ (by rw [h.ways]; omega)]
    · have hq : qs.map (toMember pos) = qs' := by simpa using hk
      rw [wayAt_natCast, ← h.ways, List.getD_append_right _ _ _ _ le_rfl]
      simpa [← hq] using hring
    · rw [List.getElem?_eq_none (by simpa using hgt)] at hk
      cases hk
  · have hperm : pos.Perm ((qs.map (toMember pos)).map Prod.fst ++
        (unused used).map fun j => pos.getD j 0) := by
      have hu := hext.unused_perm.map fun j => pos.getD j 0
      rw [unused_replicate, map_getD_range, List.map_append, List.map_map] at hu
      rw [List.map_map]
      exact hu
    rw [List.flatten_append, List.map_append, List.append_assoc]
    have := hperm.symm.append_left (rings.flatten.map Prod.fst)
    simpa using this.trans h.used

/-- The degrees of what is left of the members are even. -/
def EvenLeft (mWays : List Way) (nums : List ℤ) (pos : List ℕ) : Prop :=
  (∀ i ∈ pos, 1 < (nodesAt nums mWays i).length) ∧
    EvenDegrees (pos.map (waysEnds (nodesAt nums mWays)))

lemma Standing.map_waysEnds (h : Standing mWays nums base pos rings st) {l : List ℕ}
    (hl : ∀ j ∈ l, j < pos.length) :
    (l.map fun j => pos.getD j 0).map (waysEnds (nodesAt nums mWays)) =
      l.map (waysEnds (nodesAt st.left mWays)) := by
  rw [List.map_map]
  refine List.map_congr_left fun j hj => ?_
  simp only [Function.comp_apply, waysEnds, h.nodesAt_left (hl j hj)]

lemma Standing.unusedEnds_fresh (h : Standing mWays nums base pos rings st) :
    unusedEnds (nodesAt st.left mWays) (List.replicate pos.length false) =
      pos.map (waysEnds (nodesAt nums mWays)) := by
  unfold unusedEnds
  rw [unused_replicate, ← h.map_waysEnds fun j hj => List.mem_range.mp hj, map_getD_range]

lemma Standing.evenLeft (h : Standing mWays nums base pos rings st)
    (hne : ∀ i ∈ nums, (wayAt mWays i).nodes ≠ []) {qs : List (ℕ × Bool)} {used : List Bool}
    {nodes : List ℕ}
    (hext : Extends (nodesAt st.left mWays) (List.replicate pos.length false) [] qs used nodes)
    (hcl : ClosedNodes nodes) (heven : EvenLeft mWays nums pos) :
    EvenLeft mWays nums ((unused used).map fun j => pos.getD j 0) := by
  have hlen : used.length = pos.length := by simpa using hext.length_used
  have hlt : ∀ j ∈ unused used, j < pos.length := fun j hj => hlen ▸ lt_of_mem_unused hj
  constructor
  · intro i hi
    obtain ⟨j, hj, rfl⟩ := List.mem_map.mp hi
    exact heven.1 _ (getD_mem (hlt j hj) _)
  · rw [h.map_waysEnds hlt]
    refine hext.even (fun i hi => h.nodesAt_ne_nil hne (by simpa using hi)) hcl ?_
    rw [h.unusedEnds_fresh]
    exact heven.2

/-- **No turn is in vain.** Ways of even degrees hold a ring. -/
lemma Standing.exists_ring (h : Standing mWays nums base pos rings st) (hpos : pos ≠ [])
    (heven : EvenLeft mWays nums pos) : ∃ used nodes,
      trackRec st.left mWays (st.left.length + 1) (List.replicate st.left.length false) [] =
        .ok ⟨true, used, nodes⟩ := by
  have hleft := h.length_left
  have hW : ∀ i < st.left.length, 1 < (nodesAt st.left mWays i).length := by
    intro i hi
    rw [h.nodesAt_left (hleft ▸ hi)]
    exact heven.1 _ (getD_mem (hleft ▸ hi) _)
  have hWne : ∀ i < st.left.length, nodesAt st.left mWays i ≠ [] := by
    intro i hi hnil
    have := hW i hi
    simp [hnil] at this
  obtain ⟨n, hn⟩ : ∃ n, st.left.length = n + 1 :=
    ⟨st.left.length - 1, by have := List.length_pos_iff.mpr hpos; omega⟩
  have hu : (List.replicate st.left.length false)[0]? = some false := by simp [hn]
  have h0 : 0 < st.left.length := by omega
  obtain ⟨a, b, ha, hb⟩ := ends_of_ne (hWne 0 h0)
  have hev : EvenDegrees (unusedEnds (nodesAt st.left mWays)
      (List.replicate st.left.length false)) := by
    rw [hleft, h.unusedEnds_fresh]
    exact heven.2
  have hbal := hev.balanced ((unused_perm hu).map (waysEnds (nodesAt st.left mWays)))
  rw [waysEnds_eq ha hb] at hbal
  obtain ⟨used, nodes, hr⟩ := trackRec_found hWne st.left.length
    ((List.replicate st.left.length false).set 0 true) (nodesAt st.left mWays 0)
    (by simp) (by have := count_set_used hu; simp at this; omega) (hW 0 h0) ha hb hbal
  refine ⟨used, nodes, ?_⟩
  have hrange : List.range st.left.length = 0 :: (List.range n).map Nat.succ := by
    rw [hn, List.range_succ_eq_map]
  have h0u : (List.replicate st.left.length false).getD 0 true = false := by simp [hn]
  change tryFirst st.left mWays (trackRec st.left mWays st.left.length)
    (List.range st.left.length) (List.replicate st.left.length false) [] = _
  rw [hrange]
  simp only [tryFirst, h0u, hr, Bool.false_eq_true, if_false]

/-- **The loop.** It ends with the members accounted for, and with none left when their
degrees were even. -/
theorem processLoopUnmoved_spec (hne : ∀ i ∈ nums, (wayAt mWays i).nodes ≠ []) (fuel : ℕ)
    (h : Standing mWays nums base pos rings st) (hfuel : pos.length < fuel) :
    ∃ r pos' rings', processLoopUnmoved mWays fuel st = .ok r ∧
      Standing mWays nums base pos' rings' r ∧ st.mWays <+: r.mWays ∧
      (EvenLeft mWays nums pos → pos' = []) := by
  induction fuel generalizing st pos rings with
  | zero => omega
  | succ fuel ih =>
    have hleft := h.length_left
    by_cases hnil : st.left = []
    · have hpos : pos = [] := List.length_eq_zero_iff.mp (by rw [← hleft, hnil]; rfl)
      exact ⟨st, pos, rings, by simp [processLoopUnmoved, hnil], h, List.prefix_rfl, fun _ => hpos⟩
    have hW : ∀ i < st.left.length, nodesAt st.left mWays i ≠ [] :=
      fun i hi => h.nodesAt_ne_nil hne (hleft ▸ hi)
    obtain ⟨⟨found, used, nodes⟩, hr, hout⟩ := trackRec_spec hW (st.left.length + 1)
      (List.replicate st.left.length false) [] (by simp)
    cases found with
    | false =>
      obtain ⟨-, rfl⟩ := hout.restored rfl
      refine ⟨st, pos, rings, by simp [processLoopUnmoved, track, hnil, hr], h, List.prefix_rfl,
        fun heven => ?_⟩
      by_contra hpos
      obtain ⟨used', nodes', hr'⟩ := h.exists_ring hpos heven
      rw [hr] at hr'
      simp at hr'
    | true =>
      obtain ⟨⟨qs, hext⟩, hcl⟩ := hout.extended rfl
      rw [hleft] at hext
      change Extends _ _ [] qs used nodes at hext
      change ClosedNodes nodes at hcl
      have hnodes : nodes ≠ [] := by rintro rfl; simp [ClosedNodes] at hcl
      have hturn := h.turn hne hext hcl
      have hlt : ((unused used).map fun j => pos.getD j 0).length < fuel := by
        have hlen := hext.unused_perm.length_eq
        have hqs : qs ≠ [] := by
          rintro rfl
          exact hnodes (by simpa using hext.nodes_eq)
        have hq := List.length_pos_iff.mpr hqs
        simp only [unused_replicate, List.length_range, List.length_append,
          List.length_map] at hlen ⊢
        omega
      obtain ⟨r, pos', rings', hrun, hst, hpre, heven'⟩ := ih hturn hlt
      refine ⟨r, pos', rings', ?_, hst, (List.prefix_append _ _).trans hpre,
        fun heven => heven' (h.evenLeft hne hext hcl heven)⟩
      simp only [processLoopUnmoved, track, hnil, hr, hnodes, if_false]
      exact hrun

end Loop

end SelfTraining.Route
