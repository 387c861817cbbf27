import Mathlib.Data.List.Cycle
import SelfTraining.Route.RingAssembly

/-!
The search for one ring finds one whenever there is one.

A ring may be read from any of its ways and in either direction, so one of them is taken
forward; the search tries every way forward as the first. From there it tries every way
that goes on, and a branch that fails leaves the buffers as they were, so that the next one
starts from the same place.
-/

namespace SelfTraining.Route

/-- A ring through ways at some of the positions: distinct positions, each way forward or in
reverse, that chain end to start and come back to the first node. -/
structure RingThrough (W : ℕ → List ℕ) (allowed : ℕ → Prop) (qs : List (ℕ × Bool)) : Prop where
  ne_nil : qs ≠ []
  positions : ∀ q ∈ qs, allowed q.1
  distinct : (qs.map Prod.fst).Nodup
  linked : Linked W qs
  closed : ClosedNodes (qs.flatMap (oriented W))

lemma RingThrough.imp {W : ℕ → List ℕ} {allowed allowed' : ℕ → Prop} {qs : List (ℕ × Bool)}
    (h : RingThrough W allowed qs) (himp : ∀ i, allowed i → allowed' i) :
    RingThrough W allowed' qs :=
  { h with positions := fun q hq => himp q.1 (h.positions q hq) }

/-! ### Rings read from another way -/

section Rings

variable {W : ℕ → List ℕ} {allowed : ℕ → Prop} {q : ℕ × Bool} {qs : List (ℕ × Bool)}

/-- The second piece begins where the first one ends. -/
def Joins (W : ℕ → List ℕ) (a b : ℕ × Bool) : Prop :=
  (oriented W a).getLast? = (oriented W b).head?

/-- A piece in the other direction. -/
def turned (q : ℕ × Bool) : ℕ × Bool := (q.1, !q.2)

lemma oriented_turned : oriented W (turned q) = (oriented W q).reverse := by
  unfold oriented turned
  cases q.2 <;> simp

lemma joins_turned {a b : ℕ × Bool} : Joins W (turned b) (turned a) ↔ Joins W a b := by
  unfold Joins
  rw [oriented_turned, oriented_turned, List.getLast?_reverse, List.head?_reverse]
  exact eq_comm

lemma length_flatMap_oriented (qs : List (ℕ × Bool)) :
    (qs.flatMap (oriented W)).length = (qs.map fun q => (W q.1).length).sum := by
  induction qs with
  | nil => rfl
  | cons q qs ih =>
    have hlen : (oriented W q).length = (W q.1).length := by
      unfold oriented
      split <;> simp
    rw [List.flatMap_cons, List.length_append, ih, hlen, List.map_cons, List.sum_cons]

/-- Pieces that follow each other round in a circle, with more than one node. -/
structure Round (W : ℕ → List ℕ) (allowed : ℕ → Prop) (qs : List (ℕ × Bool)) : Prop where
  positions : ∀ q ∈ qs, allowed q.1
  distinct : (qs.map Prod.fst).Nodup
  chain : Cycle.Chain (Joins W) (qs : Cycle (ℕ × Bool))
  size : 1 < (qs.map fun q => (W q.1).length).sum

lemma ringThrough_cons_iff (hW : ∀ i, allowed i → W i ≠ []) :
    RingThrough W allowed (q :: qs) ↔ Round W allowed (q :: qs) := by
  have hends : (∀ x ∈ q :: qs, allowed x.1) →
      (Linked W (q :: qs) ∧
        ((q :: qs).flatMap (oriented W)).head? = ((q :: qs).flatMap (oriented W)).getLast? ↔
      Cycle.Chain (Joins W) ((q :: qs : List _) : Cycle (ℕ × Bool))) := by
    intro hpos
    obtain ⟨l, z, hz⟩ : ∃ l z, q :: qs = l ++ [z] :=
      ⟨_, _, (List.dropLast_append_getLast (List.cons_ne_nil q qs)).symm⟩
    have hzmem : z ∈ q :: qs := hz ▸ List.mem_append_right l (by simp)
    have hqne := oriented_ne_nil (W := W) (hW q.1 (hpos q (by simp)))
    have hzne := oriented_ne_nil (W := W) (hW z.1 (hpos z hzmem))
    have hhead : ((q :: qs).flatMap (oriented W)).head? = (oriented W q).head? := by
      rw [List.flatMap_cons, List.head?_append_of_ne_nil _ hqne]
    have hlast : ((q :: qs).flatMap (oriented W)).getLast? = (oriented W z).getLast? := by
      rw [hz, List.flatMap_append, List.flatMap_singleton, getLast?_append_of_ne hzne]
    rw [hhead, hlast, Cycle.chain_coe_cons, ← List.cons_append, List.isChain_append]
    refine and_congr Iff.rfl ⟨fun h => ⟨.singleton q, fun x hx y hy => ?_⟩, fun h => ?_⟩
    · obtain rfl : z = x := by simpa [hz] using hx
      obtain rfl : q = y := by simpa using hy
      exact h.symm
    · exact (h.2 z (by simp [hz]) q (by simp)).symm
  constructor
  · intro h
    refine ⟨h.positions, h.distinct, (hends h.positions).mp ⟨h.linked, h.closed.2⟩, ?_⟩
    rw [← length_flatMap_oriented]
    exact h.closed.1
  · intro h
    obtain ⟨hlink, hclosed⟩ := (hends h.positions).mpr h.chain
    refine ⟨List.cons_ne_nil q qs, h.positions, h.distinct, hlink, ?_, hclosed⟩
    rw [length_flatMap_oriented]
    exact h.size

lemma Round.rotate {l₁ l₂ : List (ℕ × Bool)} (h : Round W allowed (l₁ ++ l₂)) :
    Round W allowed (l₂ ++ l₁) := by
  have hperm : (l₂ ++ l₁).Perm (l₁ ++ l₂) := List.perm_append_comm
  refine ⟨fun q hq => h.positions q (hperm.mem_iff.mp hq),
    (hperm.map Prod.fst).nodup_iff.mpr h.distinct, ?_, ?_⟩
  · have heq : ((l₂ ++ l₁ : List _) : Cycle (ℕ × Bool)) = (l₁ ++ l₂ : List _) :=
      Cycle.coe_eq_coe.mpr List.isRotated_append
    rw [heq]
    exact h.chain
  · rw [(hperm.map _).sum_eq]
    exact h.size

lemma Round.turn (h : Round W allowed qs) : Round W allowed (qs.reverse.map turned) := by
  have hfst : (qs.reverse.map turned).map Prod.fst = (qs.map Prod.fst).reverse := by
    rw [List.map_map, ← List.map_reverse]
    rfl
  refine ⟨fun q hq => ?_, ?_, ?_, ?_⟩
  · obtain ⟨x, hx, rfl⟩ := List.mem_map.mp hq
    exact h.positions x (List.mem_reverse.mp hx)
  · rw [hfst]
    exact List.nodup_reverse.mpr h.distinct
  · cases qs with
    | nil => simp
    | cons q qs =>
      have hchain := h.chain
      rw [Cycle.chain_coe_cons] at hchain
      have heq : ((q :: qs).reverse.map turned : Cycle (ℕ × Bool)) =
          (turned q :: qs.reverse.map turned : List _) := by
        rw [List.reverse_cons, List.map_append, List.map_singleton, Cycle.coe_cons_eq_coe_append]
      have hlist : turned q :: (qs.reverse.map turned ++ [turned q]) =
          ((q :: (qs ++ [q])).reverse).map turned := by simp
      rw [heq, Cycle.chain_coe_cons, hlist, List.isChain_map, List.isChain_reverse]
      exact hchain.imp fun a b hab => joins_turned.mpr hab
  · have hsum : (qs.reverse.map turned).map (fun q => (W q.1).length) =
        (qs.map fun q => (W q.1).length).reverse := by
      rw [List.map_map, ← List.map_reverse]
      rfl
    rw [hsum, List.sum_reverse]
    exact h.size

/-- **A forward start.** Where there is a round, there is one whose first way is taken
forward. -/
lemma Round.exists_forward (h : Round W allowed qs) (hne : qs ≠ []) :
    ∃ i qs', Round W allowed ((i, false) :: qs') := by
  by_cases hfwd : ∃ q ∈ qs, q.2 = false
  · obtain ⟨⟨i, b⟩, hq, hb⟩ := hfwd
    obtain rfl : b = false := hb
    obtain ⟨l₁, l₂, rfl⟩ := List.append_of_mem hq
    exact ⟨i, l₂ ++ l₁, h.rotate⟩
  · have hturn := h.turn
    have hne' : qs.reverse.map turned ≠ [] := by simpa using hne
    obtain ⟨q, l, hl⟩ := List.exists_cons_of_ne_nil hne'
    rw [hl] at hturn
    have hq : q ∈ qs.reverse.map turned := hl ▸ List.mem_cons_self
    obtain ⟨x, hx, rfl⟩ := List.mem_map.mp hq
    have hx2 : x.2 = true := by
      by_contra hf
      exact hfwd ⟨x, List.mem_reverse.mp hx, by simpa using hf⟩
    refine ⟨x.1, l, ?_⟩
    simpa [turned, hx2] using hturn

lemma exists_extends (used : List Bool) (nodes : List ℕ) (qs : List (ℕ × Bool))
    (hne : ∀ q ∈ qs, W q.1 ≠ []) (hunused : ∀ q ∈ qs, used[q.1]? = some false)
    (hnodup : (qs.map Prod.fst).Nodup) (hlink : Linked W qs)
    (hhead : nodes = [] ∨ ∀ q, qs.head? = some q → (oriented W q).head? = nodes.getLast?) :
    ∃ used', Extends W used nodes qs used' (nodes ++ qs.flatMap (oriented W)) := by
  induction qs generalizing used nodes with
  | nil => exact ⟨used, by simpa using Extends.done used nodes⟩
  | cons q qs ih =>
    obtain ⟨hq, hnodup⟩ := List.nodup_cons.mp hnodup
    have hqne := oriented_ne_nil (W := W) (q := q) (hne q (by simp))
    have hrest : ∀ x ∈ qs, (used.set q.1 true)[x.1]? = some false := by
      intro x hx
      have hxq : x.1 ≠ q.1 := fun h => hq (h ▸ List.mem_map_of_mem hx)
      exact getElem?_set_used.mpr ⟨hxq, hunused x (by simp [hx])⟩
    have hnext : nodes ++ oriented W q = [] ∨
        ∀ x, qs.head? = some x → (oriented W x).head? = (nodes ++ oriented W q).getLast? := by
      refine .inr fun x hx => ?_
      rw [getLast?_append_of_ne hqne]
      obtain ⟨l, rfl⟩ : ∃ l, qs = x :: l := by
        cases qs with
        | nil => cases hx
        | cons y l => exact ⟨l, by simpa using hx⟩
      exact (List.isChain_cons_cons.mp hlink).1.symm
    obtain ⟨used', hext⟩ := ih (used.set q.1 true) (nodes ++ oriented W q)
      (fun x hx => hne x (by simp [hx])) hrest hnodup (List.IsChain.tail hlink) hnext
    refine ⟨used', ?_⟩
    have hnodes : nodes ++ (q :: qs).flatMap (oriented W) =
        (nodes ++ oriented W q) ++ qs.flatMap (oriented W) := by simp
    rw [hnodes]
    exact .step (hunused q (by simp)) (hhead.imp id fun h => h q rfl) hext

end Rings

/-! ### Every branch that leads to a ring is taken -/

section Complete

variable {openWays : List ℤ} {ways : List Way}

/-- A piece that goes on from `tail` is the one the search tries for its way: a way that
goes on both ways round has a single node. -/
lemma oriented_nextPiece_eq {W : ℕ → List ℕ} {q : ℕ × Bool} {tail : ℕ}
    (hopen : ¬ ClosedNodes (W q.1)) (hhead : (oriented W q).head? = some tail) :
    GoesOn W tail q.1 ∧ oriented W (nextPiece W tail q.1) = oriented W q := by
  obtain ⟨i, rev⟩ := q
  cases rev with
  | false =>
    have hW : (W i).head? = some tail := by simpa [oriented] using hhead
    refine ⟨.inl hW, ?_⟩
    rw [oriented_nextPiece hW, if_pos rfl]
    rfl
  | true =>
    have hW : (W i).getLast? = some tail := by simpa [oriented] using hhead
    refine ⟨.inr hW, ?_⟩
    have hne : W i ≠ [] := by
      intro hnil
      simp [hnil] at hW
    obtain ⟨wayHead, -, hh, -⟩ := ends_of_ne hne
    rw [oriented_nextPiece hh]
    change _ = (W i).reverse
    split
    · rename_i hht
      have hsize : ¬ 1 < (W i).length := fun h => hopen ⟨h, by rw [hh, hW, hht]⟩
      obtain ⟨a, ha⟩ : ∃ a, W i = [a] := by
        refine List.length_eq_one_iff.mp ?_
        have := List.length_pos_iff.mpr hne
        omega
      simp [ha]
    · rfl

/-- The ways at the unused positions have nodes, and none is closed by itself. -/
structure Filled (openWays : List ℤ) (ways : List Way) (used : List Bool) : Prop where
  length : used.length = openWays.length
  ne_nil : ∀ i, used[i]? = some false → nodesAt openWays ways i ≠ []
  unclosed : ∀ i, used[i]? = some false → ¬ ClosedNodes (nodesAt openWays ways i)

lemma Filled.use {used : List Bool} (h : Filled openWays ways used) (i : ℕ) :
    Filled openWays ways (used.set i true) where
  length := by simpa using h.length
  ne_nil j hj := h.ne_nil j (getElem?_set_used.mp hj).2
  unclosed j hj := h.unclosed j (getElem?_set_used.mp hj).2

lemma Filled.calls {used : List Bool} (h : Filled openWays ways used) {fuel : ℕ}
    (hfuel : used.count false < fuel + 1) :
    Calls openWays ways (trackRec openWays ways fuel) used := by
  intro i nodes hu _
  have hcount := count_set_used hu
  exact trackRec_filled fuel _ nodes (fun j _ hj => (h.use i).ne_nil j hj) (by omega)

lemma Filled.lt {used : List Bool} (h : Filled openWays ways used) {i : ℕ}
    (hu : used[i]? = some false) : i < openWays.length :=
  h.length ▸ (List.getElem?_eq_some_iff.mp hu).1

/-- **Completeness.** Where pieces of unused ways would close the nodes, a call closes them. -/
lemma trackRec_complete (fuel : ℕ) {used used' : List Bool} {nodes nodes' : List ℕ}
    {qs : List (ℕ × Bool)} (hf : Filled openWays ways used) (hfuel : used.count false < fuel)
    (hne : nodes ≠ []) (hext : Extends (nodesAt openWays ways) used nodes qs used' nodes')
    (hcl : ClosedNodes nodes') :
    ∃ used'' nodes'', trackRec openWays ways fuel used nodes = .ok ⟨true, used'', nodes''⟩ := by
  induction fuel generalizing used nodes qs with
  | zero => omega
  | succ fuel ih =>
    by_cases hclosed : ClosedNodes nodes
    · exact ⟨used, nodes, trackRec_closed hclosed⟩
    obtain ⟨-, tail, -, hl⟩ := ends_of_ne hne
    rw [trackRec_on hl hclosed]
    refine tryNext_succeeds (hf.calls hfuel) _ (fun i _ hu => hf.ne_nil i hu) ?_
    cases hext with
    | done => exact absurd hcl hclosed
    | @step _ _ _ _ q qs hu hlink hext =>
      have hhead : (oriented (nodesAt openWays ways) q).head? = some tail :=
        (hlink.resolve_left hne).trans hl
      obtain ⟨hgo, hpiece⟩ := oriented_nextPiece_eq (hf.unclosed q.1 hu) hhead
      refine ⟨q.1, List.mem_range.mpr (hf.lt hu), hu, hgo, ?_⟩
      unfold branch
      rw [hpiece]
      have hcount := count_set_used hu
      exact ih (hf.use q.1) (by omega) (by simp [hne]) hext

lemma trackRec_finds {fuel : ℕ} {used : List Bool} {qs : List (ℕ × Bool)}
    (hf : Filled openWays ways used) (hfuel : used.count false < fuel)
    (hring : RingThrough (nodesAt openWays ways) (fun i => used[i]? = some false) qs) :
    ∃ used' nodes', trackRec openWays ways fuel used [] = .ok ⟨true, used', nodes'⟩ := by
  obtain ⟨q, l, rfl⟩ := List.exists_cons_of_ne_nil hring.ne_nil
  obtain ⟨i, rest, hround⟩ :=
    ((ringThrough_cons_iff hf.ne_nil).mp hring).exists_forward (List.cons_ne_nil q l)
  have hr := (ringThrough_cons_iff hf.ne_nil).mpr hround
  obtain ⟨used', hext⟩ := exists_extends used [] ((i, false) :: rest)
    (fun x hx => hf.ne_nil x.1 (hr.positions x hx)) hr.positions hr.distinct hr.linked (.inl rfl)
  rw [List.nil_append] at hext
  obtain ⟨fuel, rfl⟩ : ∃ k, fuel = k + 1 := ⟨fuel - 1, by omega⟩
  change ∃ used' nodes', tryFirst openWays ways (trackRec openWays ways fuel)
    (List.range openWays.length) used [] = _
  refine tryFirst_succeeds (hf.calls hfuel) _ (fun j _ hu => hf.ne_nil j hu) ?_
  cases hext with
  | step hu _ hext =>
    refine ⟨i, List.mem_range.mpr (hf.lt hu), hu, ?_⟩
    have hcount : (used.set i true).count false + 1 = used.count false := count_set_used hu
    exact trackRec_complete fuel (hf.use i) (by omega) (hf.ne_nil i hu)
      (by simpa [oriented] using hext) hr.closed

end Complete

/-! ### The rings that are found -/

section Sound

variable {W : ℕ → List ℕ} {used used' : List Bool} {nodes' : List ℕ} {qs : List (ℕ × Bool)}

lemma Extends.ringThrough (hW : ∀ i : ℕ, used[i]? = some false → W i ≠ [])
    (h : Extends W used [] qs used' nodes') (hcl : ClosedNodes nodes') :
    RingThrough W (fun i => used[i]? = some false) qs where
  ne_nil := by
    rintro rfl
    have := h.nodes_eq
    simp [ClosedNodes, this] at hcl
  positions q hq := by
    refine Route.mem_unused.mp (h.unused_perm.mem_iff.mpr (List.mem_append_left _ ?_))
    exact List.mem_map_of_mem hq
  distinct := (List.nodup_append.mp (h.unused_perm.nodup_iff.mp (nodup_unused used))).1
  linked := h.linked hW
  closed := by
    have hnodes := h.nodes_eq
    rw [List.nil_append] at hnodes
    rwa [← hnodes]

lemma Extends.used_iff {nodes : List ℕ} (h : Extends W used nodes qs used' nodes') {i : ℕ}
    (hi : used[i]? = some false) : used'.getD i false = true ↔ i ∈ qs.map Prod.fst := by
  have hperm := h.unused_perm
  have hmem := hperm.mem_iff.mp (Route.mem_unused.mpr hi)
  have hnodup := List.nodup_append.mp (hperm.nodup_iff.mp (nodup_unused used))
  have hlt : i < used'.length := by
    rw [h.length_used]
    exact (List.getElem?_eq_some_iff.mp hi).1
  have hunused : i ∈ unused used' ↔ used'.getD i false = false := by
    rw [Route.mem_unused, List.getD_eq_getElem _ _ hlt, List.getElem?_eq_getElem hlt]
    simp
  constructor
  · intro hu
    refine (List.mem_append.mp hmem).resolve_right fun hn => ?_
    rw [hunused.mp hn] at hu
    cases hu
  · intro hq
    by_contra hn
    exact hnodup.2.2 i hq i (hunused.mpr (by simpa using hn)) rfl

end Sound

/-- The open ways with the ways of a ring set to `-1`. -/
def setUsed (openWays : List ℤ) (qs : List (ℕ × Bool)) : List ℤ :=
  openWays.mapIdx fun i w => if i ∈ qs.map Prod.fst then -1 else w

lemma closedNodes_iff {w : Way} : ClosedNodes w.nodes ↔ isClosed w = true := by
  simp [ClosedNodes, isClosed]

lemma unused_fresh {n i : ℕ} : (List.replicate n false)[i]? = some false ↔ i < n := by
  simp [List.getElem?_replicate]

lemma filled_fresh {openWays : List ℤ} {ways : List Way}
    (hne : ∀ i ∈ openWays, (wayAt ways i).nodes ≠ [])
    (hopen : ∀ i ∈ openWays, isClosed (wayAt ways i) = false) :
    Filled openWays ways (List.replicate openWays.length false) where
  length := by simp
  ne_nil i hi := hne _ (getD_mem (unused_fresh.mp hi) _)
  unclosed i hi hcl := by
    have := hopen _ (getD_mem (unused_fresh.mp hi) (-1))
    rw [closedNodes_iff.mp hcl] at this
    cases this

lemma marks_eq {openWays : List ℤ} {W : ℕ → List ℕ} {used : List Bool} {nodes : List ℕ}
    {qs : List (ℕ × Bool)}
    (h : Extends W (List.replicate openWays.length false) [] qs used nodes) :
    ((List.range openWays.length).map fun i =>
      if used.getD i false then -1 else openWays.getD i (-1)) = setUsed openWays qs := by
  refine List.ext_getElem (by simp [setUsed]) fun i h1 h2 => ?_
  have hi : i < openWays.length := by simpa using h1
  have hiff := h.used_iff (unused_fresh.mpr hi)
  simp only [setUsed, List.getElem_map, List.getElem_range, List.getElem_mapIdx]
  by_cases hq : i ∈ qs.map Prod.fst
  · rw [if_pos (hiff.mpr hq), if_pos hq]
  · rw [if_neg (fun hu => hq (hiff.mp hu)), if_neg hq, List.getD_eq_getElem _ _ hi]

/-- **The search for a ring is exact.** Among open ways that have nodes and are not closed by
themselves, `Track` finds nodes exactly when there is a ring through some of them. What it
finds are the nodes of such a ring, whose positions it sets to `-1`; else it leaves the open
ways as they were. -/
theorem track_exact (openWays : List ℤ) (ways : List Way)
    (hne : ∀ i ∈ openWays, (wayAt ways i).nodes ≠ [])
    (hopen : ∀ i ∈ openWays, isClosed (wayAt ways i) = false) :
    ∃ nodes left, track openWays ways = .ok (nodes, left) ∧
      (nodes ≠ [] ↔ ∃ qs, RingThrough (nodesAt openWays ways) (· < openWays.length) qs) ∧
      (nodes ≠ [] → ∃ qs, RingThrough (nodesAt openWays ways) (· < openWays.length) qs ∧
        nodes = qs.flatMap (oriented (nodesAt openWays ways)) ∧ left = setUsed openWays qs) ∧
      (nodes = [] → left = openWays) := by
  have hf := filled_fresh hne hopen
  have hfuel : (List.replicate openWays.length false).count false < openWays.length + 1 := by simp
  obtain ⟨⟨found, used, nodes⟩, hr, hout⟩ :=
    trackRec_filled _ _ [] (fun i _ hi => hf.ne_nil i hi) hfuel
  cases found with
  | true =>
    obtain ⟨⟨qs, hext⟩, hcl⟩ := hout.extended rfl
    have hring : RingThrough (nodesAt openWays ways) (· < openWays.length) qs :=
      (hext.ringThrough hf.ne_nil hcl).imp fun i hi => unused_fresh.mp hi
    have hnodes : nodes ≠ [] := by
      rintro rfl
      simp [ClosedNodes] at hcl
    refine ⟨nodes, _, by simp only [track, hr], iff_of_true hnodes ⟨qs, hring⟩,
      fun _ => ⟨qs, hring, by simpa using hext.nodes_eq, marks_eq hext⟩, fun h => absurd h hnodes⟩
  | false =>
    obtain ⟨rfl, rfl⟩ := hout.restored rfl
    refine ⟨[], openWays, by simp only [track, hr], iff_of_false (by simp) ?_, by simp,
      fun _ => rfl⟩
    rintro ⟨qs, hring⟩
    obtain ⟨used', nodes', hfound⟩ :=
      trackRec_finds hf hfuel (hring.imp fun i hi => unused_fresh.mpr hi)
    rw [hr] at hfound
    cases hfound

/-- Three ways, of which the second and the third make a ring, the third in reverse. -/
def threeWays : List Way := [⟨[7, 8]⟩, ⟨[1, 2]⟩, ⟨[1, 3, 2]⟩]

theorem track_exact_threeWays : ∃ qs, RingThrough (nodesAt [0, 1, 2] threeWays) (· < 3) qs ∧
    setUsed [0, 1, 2] qs = [0, -1, -1] := by
  obtain ⟨nodes, left, htrack, -, hfound, -⟩ :=
    track_exact [0, 1, 2] threeWays (by decide) (by decide)
  have hrun : track [0, 1, 2] threeWays = .ok ([1, 2, 2, 3, 1], [0, -1, -1]) := by decide
  rw [hrun] at htrack
  cases htrack
  obtain ⟨qs, hring, -, hleft⟩ := hfound (by simp)
  exact ⟨qs, hring, hleft.symm⟩

end SelfTraining.Route
