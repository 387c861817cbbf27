import SelfTraining.Route.Features
import SelfTraining.Route.RingExact
import SelfTraining.Route.IndexIntegrity

/-!
The areas of a loaded map, and the ways that are made for them.

Whatever the members of a relation are: if the map is loaded, each list of a water or a landuse
holds its closed members and after them ways that were made for it, and every way made is a ring
that stands in exactly one list of exactly one area.
-/

namespace SelfTraining.Route

open SelfTraining.Order

variable {K F : Type*}

/-! ### What a list becomes -/

/-- Numbers from `base` on. -/
def numbered (base n : ℕ) : List ℤ := (List.range' base n).map fun k : ℕ => (k : ℤ)

lemma numbered_append (base n k : ℕ) :
    numbered base n ++ numbered (base + n) k = numbered base (n + k) := by
  rw [numbered, numbered, ← List.map_append, List.range'_append_1, numbered]

/-- The way is a ring through nodes of open members of the list. -/
structure RingOn (ways : List Way) (members : List ℤ) (k : ℤ) : Prop where
  closed : isClosed (wayAt ways k) = true
  nodes : ∀ v ∈ (wayAt ways k).nodes, ∃ i ∈ members,
    isClosed (wayAt ways i) = false ∧ v ∈ (wayAt ways i).nodes

/-- The list is left with its closed members, and after them come rings. -/
structure Ringed (ways : List Way) (members made result : List ℤ) : Prop where
  result_eq : result = (members.filter fun i => isClosed (wayAt ways i)) ++ made
  rings : ∀ k ∈ made, RingOn ways members k

/-- The numbers in both lists of an area. -/
def Multipolygon.parts (mp : Multipolygon) : List ℤ := mp.outer ++ mp.inner

/-- The area after `BuildRings`, with the ways made for it. -/
def RingedArea (ways : List Way) (mp : Multipolygon) (made : List ℤ) (mp' : Multipolygon) : Prop :=
  ∃ outer inner, made = outer ++ inner ∧ Ringed ways mp.outer outer mp'.outer ∧
    Ringed ways mp.inner inner mp'.inner

/-! ### More ways -/

section Grow

variable {ways after : List Way}

lemma wayAt_grown (h : ways <+: after) {i : ℤ} (hi : 0 ≤ i ∧ i < (ways.length : ℤ)) :
    wayAt after i = wayAt ways i := by
  obtain ⟨new, rfl⟩ := h
  obtain ⟨n, rfl⟩ := Int.eq_ofNat_of_zero_le hi.1
  have hn : n < ways.length := by omega
  rw [wayAt_natCast, wayAt_natCast, List.getD_append _ _ _ _ hn]

lemma RingOn.grow (h : ways <+: after) {members : List ℤ} {k : ℤ} (hr : RingOn ways members k) :
    RingOn after members k := by
  have hk := wayAt_grow h (nodes_ne_nil hr.closed)
  refine ⟨hk ▸ hr.closed, fun v hv => ?_⟩
  obtain ⟨i, hi, hopen, hv⟩ := hr.nodes v (hk ▸ hv)
  have hw := wayAt_grow h (List.ne_nil_of_mem hv)
  exact ⟨i, hi, hw ▸ hopen, hw ▸ hv⟩

lemma Ringed.grow (h : ways <+: after) {members made result : List ℤ}
    (hmembers : ∀ i ∈ members, 0 ≤ i ∧ i < (ways.length : ℤ))
    (hr : Ringed ways members made result) : Ringed after members made result := by
  refine ⟨?_, fun k hk => (hr.rings k hk).grow h⟩
  rw [hr.result_eq]
  congr 1
  exact List.filter_congr fun i hi => by rw [wayAt_grown h (hmembers i hi)]

lemma RingedArea.grow (h : ways <+: after) {mp mp' : Multipolygon} {made : List ℤ}
    (hmp : mp.InRange ways.length) (hr : RingedArea ways mp made mp') :
    RingedArea after mp made mp' := by
  obtain ⟨outer, inner, hmade, houter, hinner⟩ := hr
  exact ⟨outer, inner, hmade,
    houter.grow h fun i hi => hmp i (List.mem_append_left _ hi),
    hinner.grow h fun i hi => hmp i (List.mem_append_right _ hi)⟩

end Grow

/-! ### `BuildRings` -/

lemma track_ring {openWays : List ℤ} {ways : List Way} {newNodes : List ℕ} {left : List ℤ}
    (h : track openWays ways = .ok (newNodes, left)) :
    (newNodes ≠ [] → isClosed ⟨newNodes⟩ = true ∧
      ∀ v ∈ newNodes, ∃ i ∈ openWays, v ∈ (wayAt ways i).nodes) ∧
    ∀ i ∈ left, 0 ≤ i → i ∈ openWays := by
  unfold track at h
  split at h
  · cases h
  · rename_i used nodes hrun
    cases h
    obtain ⟨⟨qs, hext⟩, hcl⟩ := (trackRec_sound _ _ _ _ hrun).extended rfl
    refine ⟨fun _ => ⟨closedNodes_iff.mp hcl, fun v hv => ?_⟩, fun i hi h0 => ?_⟩
    · have hnodes := hext.nodes_eq
      change newNodes = _ at hnodes
      rw [hnodes, List.nil_append, List.mem_flatMap] at hv
      obtain ⟨q, hq, hv⟩ := hv
      have hlt : q.1 < openWays.length := by simpa using hext.mem_unused q hq
      refine ⟨_, getD_mem hlt (-1), ?_⟩
      unfold oriented at hv
      split at hv
      · exact List.mem_reverse.mp hv
      · exact hv
    · obtain ⟨j, hj, rfl⟩ := List.mem_map.mp hi
      by_cases hused : used.getD j false = true
      · rw [if_pos hused] at h0
        omega
      · rw [if_neg hused]
        exact getD_mem (List.mem_range.mp hj) _
  · rename_i used nodes hrun
    cases h
    have hempty := ((trackRec_sound _ _ _ _ hrun).restored rfl).2
    exact ⟨fun hne => absurd hempty hne, fun i hi _ => hi⟩

/-- **The loop of `process`**: each turn that goes on makes a ring. -/
lemma processStoredLoop_rings {g : Growth} {ways : List Way} {pointer fuel : ℕ}
    {st r : Processed} {s s' : Storage} (hways : ways <+: st.mWays)
    (hopen : ∀ i ∈ st.left, isClosed (wayAt ways i) = false)
    (h : processStoredLoop g ways pointer fuel st s = .ok (r, s')) :
    ∃ n, r.mWays.length = st.mWays.length + n ∧ st.mWays <+: r.mWays ∧
      r.closed = st.closed ++ numbered st.mWays.length n ∧
      ∀ k ∈ numbered st.mWays.length n, RingOn r.mWays st.left k := by
  induction fuel generalizing st s with
  | zero => cases h
  | succ fuel ih =>
    have hdone : ∀ left, ∃ n, st.mWays.length = st.mWays.length + n ∧ st.mWays <+: st.mWays ∧
        ({ st with left := left } : Processed).closed =
          st.closed ++ numbered st.mWays.length n ∧
        ∀ k ∈ numbered st.mWays.length n, RingOn st.mWays st.left k := by
      intro left
      exact ⟨0, by simp, List.prefix_rfl, by simp [numbered], by simp [numbered]⟩
    rw [processStoredLoop] at h
    split_ifs at h with hleft hepoch
    · cases h
      exact hdone _
    · split at h
      · cases h
      · rename_i newNodes left htrack
        obtain ⟨hring, hkept⟩ := track_ring htrack
        split_ifs at h with hnodes
        · cases h
          exact hdone left
        · obtain ⟨hclosed, hon⟩ := hring hnodes
          have hrest : ∀ i ∈ left.filter (fun v => !decide (v < 0)), i ∈ st.left := by
            intro i hi
            obtain ⟨hi, h0⟩ := List.mem_filter.mp hi
            exact hkept i hi (by simpa using h0)
          obtain ⟨n, hlength, hgrown, hresult, hrings⟩ := ih
            (hways.trans (List.prefix_append _ _)) (fun i hi => hopen i (hrest i hi)) h
          simp only [List.length_append, List.length_singleton] at hlength hresult hrings
          have hnumbered : numbered st.mWays.length (n + 1) =
              (st.mWays.length : ℤ) :: numbered (st.mWays.length + 1) n := by
            simp [numbered, List.range'_succ]
          refine ⟨n + 1, by omega, (List.prefix_append _ _).trans hgrown, ?_, ?_⟩
          · rw [hresult, hnumbered, List.append_assoc]
            rfl
          · intro k hk
            rw [hnumbered] at hk
            rcases List.mem_cons.mp hk with rfl | hk
            · -- the ring of this turn
              have hnew : wayAt r.mWays (st.mWays.length : ℤ) = ⟨newNodes⟩ := by
                rw [wayAt_grown hgrown (by simp), wayAt_natCast,
                  List.getD_append_right _ _ _ _ le_rfl]
                simp
              refine ⟨hnew ▸ hclosed, fun v hv => ?_⟩
              rw [hnew] at hv
              obtain ⟨i, hi, hv⟩ := hon v hv
              have hsame := wayAt_grow ((hways.trans (List.prefix_append _ _)).trans hgrown)
                (List.ne_nil_of_mem hv)
              exact ⟨i, hi, hsame ▸ hopen i hi, hsame ▸ hv⟩
            · obtain ⟨hc, hv⟩ := hrings k hk
              exact ⟨hc, fun v hv' => by
                obtain ⟨i, hi, hrest'⟩ := hv v hv'
                exact ⟨i, hrest i hi, hrest'⟩⟩

lemma processStored_ringed {g : Growth} {mWays : List Way} {nums : List ℤ} {r : Processed}
    {s s' : Storage} (hnums : ∀ i ∈ nums, 0 ≤ i ∧ i < (mWays.length : ℤ))
    (h : processStored g mWays s nums = .ok (r, s')) :
    ∃ n, r.mWays.length = mWays.length + n ∧ mWays <+: r.mWays ∧
      Ringed r.mWays nums (numbered mWays.length n) r.closed := by
  have hopen : ∀ i ∈ nums.filter (fun i => !isClosed (wayAt mWays i)),
      isClosed (wayAt mWays i) = false := fun i hi => by simpa using (List.mem_filter.mp hi).2
  obtain ⟨n, hlength, hgrown, hresult, hrings⟩ :=
    @processStoredLoop_rings g mWays s.epoch _ _ r s s' List.prefix_rfl hopen h
  refine ⟨n, hlength, hgrown, ?_, fun k hk => ⟨(hrings k hk).closed, fun v hv => ?_⟩⟩
  · rw [hresult]
    congr 1
    exact List.filter_congr fun i hi => by rw [wayAt_grown hgrown (hnums i hi)]
  · obtain ⟨i, hi, hrest⟩ := (hrings k hk).nodes v hv
    exact ⟨i, (List.mem_filter.mp hi).1, hrest⟩

/-- **`BuildRings`** leaves the area with rings, and makes no other ways. -/
lemma buildRingsStored_ringed {g : Growth} {mWays after : List Way} {s s' : Storage}
    {mp mp' : Multipolygon} (hmp : mp.InRange mWays.length)
    (h : buildRingsStored g mWays s mp = .ok (after, s', mp')) :
    ∃ n, after.length = mWays.length + n ∧ mWays <+: after ∧
      RingedArea after mp (numbered mWays.length n) mp' := by
  have houterNums : ∀ i ∈ mp.outer, 0 ≤ i ∧ i < (mWays.length : ℤ) :=
    fun i hi => hmp i (List.mem_append_left _ hi)
  have hinnerNums : ∀ i ∈ mp.inner, 0 ≤ i ∧ i < (mWays.length : ℤ) :=
    fun i hi => hmp i (List.mem_append_right _ hi)
  unfold buildRingsStored at h
  split at h
  · cases h
  · rename_i outer s₁ houter
    split at h
    · cases h
    · rename_i inner s₂ hinner
      cases h
      obtain ⟨n₁, hlength₁, hgrown₁, hring₁⟩ := processStored_ringed houterNums houter
      obtain ⟨n₂, hlength₂, hgrown₂, hring₂⟩ := processStored_ringed
        (fun i hi => by have := hinnerNums i hi; omega) hinner
      refine ⟨n₁ + n₂, by omega, hgrown₁.trans hgrown₂, numbered mWays.length n₁,
        numbered (mWays.length + n₁) n₂, ?_,
        hring₁.grow hgrown₂ fun i hi => by have := houterNums i hi; omega, hlength₁ ▸ hring₂⟩
      rw [numbered_append]

/-! ### The relations -/

/-- The numbers from `base` on in some areas. -/
def ringNumbers (base : ℕ) (waters : List Multipolygon) (landuses : List Landuse) : List ℤ :=
  (waters.flatMap Multipolygon.parts ++ landuses.flatMap fun l => l.parts).filter
    fun k => (base : ℤ) ≤ k

/-- The areas after `BuildRings`, one for each water and each landuse of the relations; `made` are
the ways made for them. -/
structure AreasBuilt (base : ℕ) (ways : List Way) (cs : List Committed)
    (waters : List Multipolygon) (landuses : List Landuse) (made : List ℤ) : Prop where
  ofWaters : List.Forall₂ (fun mp mp' => ∃ made, RingedArea ways mp made mp')
    (cs.filterMap Committed.asWater) waters
  ofLanduses : List.Forall₂ (fun l l' => l'.type = l.type ∧
    ∃ made, RingedArea ways l.toMultipolygon made l'.toMultipolygon)
    (cs.filterMap Committed.asLanduse) landuses
  once : (ringNumbers base waters landuses).Perm made

/-- What committing areas adds to a map. -/
structure Commits (base : ℕ) (m l : MapModel K) (cs : List Committed) : Prop where
  grown : m.ways <+: l.ways
  roads : l.roads = m.roads
  railways : l.railways = m.railways
  leisures : l.leisures = m.leisures
  buildings : l.buildings = m.buildings ++ cs.filterMap Committed.asBuilding
  areas : ∃ waters landuses, l.waters = m.waters ++ waters ∧
    l.landuses = m.landuses ++ landuses ∧ AreasBuilt base l.ways cs waters landuses
      (numbered m.ways.length (l.ways.length - m.ways.length))

lemma RingedArea.filter_parts {ways : List Way} {mp mp' : Multipolygon} {made : List ℤ}
    {base : ℕ} (h : RingedArea ways mp made mp') (hmp : mp.InRange base)
    (hmade : ∀ k ∈ made, (base : ℤ) ≤ k) :
    mp'.parts.filter (fun k => (base : ℤ) ≤ k) = made := by
  obtain ⟨outer, inner, rfl, houter, hinner⟩ := h
  have hold : ∀ members : List ℤ, (∀ i ∈ members, i ∈ mp.outer ++ mp.inner) →
      (members.filter fun i => isClosed (wayAt ways i)).filter (fun k => (base : ℤ) ≤ k) = [] := by
    intro members hsub
    refine List.filter_eq_nil_iff.mpr fun k hk => ?_
    have hrange := hmp k (hsub k (List.mem_filter.mp hk).1)
    simp only [decide_eq_true_eq]
    omega
  have hnew : ∀ l : List ℤ, (∀ k ∈ l, k ∈ outer ++ inner) →
      l.filter (fun k => (base : ℤ) ≤ k) = l :=
    fun l hsub => List.filter_eq_self.mpr fun k hk => decide_eq_true (hmade k (hsub k hk))
  unfold Multipolygon.parts
  rw [houter.result_eq, hinner.result_eq, List.filter_append, List.filter_append,
    List.filter_append, hold _ fun i hi => List.mem_append_left _ hi,
    hold _ fun i hi => List.mem_append_right _ hi,
    hnew _ fun k hk => List.mem_append_left _ hk, hnew _ fun k hk => List.mem_append_right _ hk]
  rfl

lemma le_of_mem_numbered {base n : ℕ} {k : ℤ} (h : k ∈ numbered base n) : (base : ℤ) ≤ k := by
  obtain ⟨j, hj, rfl⟩ := List.mem_map.mp h
  have hle := (List.mem_range'_1.mp hj).1
  omega

section Commit

variable {g : Growth} {base : ℕ}

lemma Commits.cons_kept {m m₁ l : MapModel K} {c : Committed} {cs : List Committed}
    (h : Commits base m₁ l cs) (hways : m₁.ways = m.ways) (hroads : m₁.roads = m.roads)
    (hrailways : m₁.railways = m.railways) (hleisures : m₁.leisures = m.leisures)
    (hbuildings : m₁.buildings = m.buildings ++ c.asBuilding.toList)
    (hwaters : m₁.waters = m.waters) (hlanduses : m₁.landuses = m.landuses)
    (hwater : c.asWater = none) (hlanduse : c.asLanduse = none) :
    Commits base m l (c :: cs) := by
  obtain ⟨waters, landuses, hw, hl, hbuilt⟩ := h.areas
  refine ⟨hways ▸ h.grown, h.roads.trans hroads, h.railways.trans hrailways,
    h.leisures.trans hleisures, ?_, waters, landuses, hwaters ▸ hw, hlanduses ▸ hl, ?_⟩
  · rw [h.buildings, hbuildings, List.append_assoc]
    cases hc : c.asBuilding <;> simp [hc]
  · refine ⟨?_, ?_, hways ▸ hbuilt.once⟩
    · rw [List.filterMap_cons_none hwater]
      exact hbuilt.ofWaters
    · rw [List.filterMap_cons_none hlanduse]
      exact hbuilt.ofLanduses

lemma buildRingsStored_spec_of_grown {mWays after ways : List Way} {s s' : Storage}
    {mp mp' : Multipolygon} (hmp : mp.InRange base) (hbase : base ≤ mWays.length)
    (h : buildRingsStored g mWays s mp = .ok (after, s', mp')) (hgrown : after <+: ways) :
    (∃ made, RingedArea ways mp made mp') ∧
      numbered mWays.length (ways.length - mWays.length) =
        (mp'.parts.filter fun k => (base : ℤ) ≤ k) ++
          numbered after.length (ways.length - after.length) := by
  obtain ⟨n, hlength, -, hring⟩ := buildRingsStored_ringed (hmp.mono hbase) h
  have hle := hgrown.length_le
  refine ⟨⟨_, hring.grow hgrown (hmp.mono (by omega))⟩, ?_⟩
  have hmade : ∀ k ∈ numbered mWays.length n, (base : ℤ) ≤ k := by
    intro k hk
    have := le_of_mem_numbered hk
    omega
  rw [hring.filter_parts hmp hmade, hlength, numbered_append]
  congr 1
  omega

/-- **Committing the relations.** -/
lemma commitAll_commits {cs : List Committed} {m l : MapModel K}
    (hcs : ∀ c ∈ cs, c.InRange base) (hbase : base ≤ m.ways.length)
    (h : commitAll g m cs = .ok l) : Commits base m l cs := by
  induction cs generalizing m with
  | nil =>
    cases h
    refine ⟨List.prefix_rfl, rfl, rfl, rfl, by simp, [], [], by simp, by simp, .nil, .nil, ?_⟩
    simp [ringNumbers, numbered]
  | cons c cs ih =>
    rw [commitAll] at h
    split at h
    · cases h
    rename_i m₁ hm₁
    have hgrown₁ := commit_grow hm₁
    have hrest := ih (fun c hc => hcs c (List.mem_cons_of_mem _ hc))
      (hbase.trans hgrown₁.length_le) h
    have hc := hcs c List.mem_cons_self
    cases c with
    | nothing =>
      cases hm₁
      exact hrest.cons_kept rfl rfl rfl rfl (by simp [Committed.asBuilding]) rfl rfl rfl rfl
    | building mp =>
      cases hm₁
      exact hrest.cons_kept rfl rfl rfl rfl rfl rfl rfl rfl rfl
    | water mp =>
      rw [commit] at hm₁
      split at hm₁
      · cases hm₁
      rename_i after s' mp' hrun
      cases hm₁
      obtain ⟨hgrown, hroads, hrailways, hleisures, hbuildings, waters, landuses, hw, hl, hbuilt⟩ :=
        hrest
      obtain ⟨hringed, hsplit⟩ := buildRingsStored_spec_of_grown hc hbase hrun hgrown
      refine ⟨hgrown₁.trans hgrown, hroads, hrailways, hleisures, hbuildings, mp' :: waters,
        landuses, by rw [hw, List.append_assoc]; rfl, hl, .cons hringed hbuilt.ofWaters,
        hbuilt.ofLanduses, ?_⟩
      rw [hsplit, ringNumbers, List.flatMap_cons, List.append_assoc, List.filter_append]
      exact hbuilt.once.append_left _
    | landuse mp type =>
      rw [commit] at hm₁
      split at hm₁
      · cases hm₁
      rename_i after s' mp' hrun
      cases hm₁
      obtain ⟨hgrown, hroads, hrailways, hleisures, hbuildings, waters, landuses, hw, hl, hbuilt⟩ :=
        hrest
      obtain ⟨hringed, hsplit⟩ := buildRingsStored_spec_of_grown hc hbase hrun hgrown
      refine ⟨hgrown₁.trans hgrown, hroads, hrailways, hleisures, hbuildings, waters,
        ⟨mp', type⟩ :: landuses, hw, by rw [hl, List.append_assoc]; rfl, hbuilt.ofWaters,
        .cons ⟨rfl, hringed⟩ hbuilt.ofLanduses, ?_⟩
      rw [hsplit, ringNumbers, List.flatMap_cons]
      -- the landuse comes behind the waters
      refine (List.Perm.filter _ (List.perm_append_comm_assoc _ _ _)).trans ?_
      rw [List.filter_append]
      exact hbuilt.once.append_left _

end Commit

/-! ### The whole map -/

section Document

variable (a : Arithmetic K F) (doc : List XmlNode) (bounds : XmlNode)

/-- The map that a document describes. -/
structure Described (m : MapModel K) : Prop where
  nodes : m.nodes = (selectNodes doc "node").map (a.placed bounds)
  ways : (selectNodes doc "way").map (wayOf (numOf (selectNodes doc "node"))) <+: m.ways
  roads : Sorts (fun r s => decide (r.type.toNat < s.type.toNat)) (roadsOf doc) m.roads
  railways : m.railways = featuresOf doc fun k f => if f = .railway then some ⟨k⟩ else none
  leisures : m.leisures = featuresOf doc fun k f => if f = .leisure then some (single k) else none
  buildings : m.buildings =
    (featuresOf doc fun k f => if f = .building then some (single k) else none) ++
      (areasOf doc).filterMap Committed.asBuilding
  areas : ∃ waters landuses,
    m.waters = (featuresOf doc fun k f => if f = .water then some (single k) else none) ++ waters ∧
    m.landuses = featuresOf doc Feature.asLanduse ++ landuses ∧
    AreasBuilt (selectNodes doc "way").length m.ways (areasOf doc) waters landuses
      (numbered (selectNodes doc "way").length
        (m.ways.length - (selectNodes doc "way").length))

variable {a doc bounds} {g : Growth}

lemma readWays_length : (readWays a g doc bounds).model.ways.length =
    (selectNodes doc "way").length := by
  rw [readWays_ways, List.length_map]

lemma numOf_numbers (elements : List XmlNode) : Numbers (numOf elements) elements.length := by
  intro id k hk
  obtain ⟨e, he, rfl⟩ := Option.map_eq_some_iff.mp hk
  obtain ⟨he, -⟩ := List.mem_filter.mp (List.mem_of_getLast? he)
  have hlt := (List.mem_zipIdx' he).1
  exact hlt

lemma areasOf_inRange : ∀ c ∈ areasOf doc, c.InRange (selectNodes doc "way").length := by
  rw [← readRelations_eq]
  intro c hc
  obtain ⟨relation, -, rfl⟩ := List.mem_map.mp hc
  exact readRelation_inRange (numOf_numbers _) _ (by simp [Multipolygon.InRange])

/-- **A map holds what its document describes.** Whatever the document, if a map is constructed
from it, then its vectors hold the nodes, ways, roads, railways and areas that the elements
and their tags describe, in the order of the document; `BuildRings` leaves each water and each
landuse of a relation with its closed ways and rings through open members, and every way
made is a ring of exactly one list of one area. -/
theorem map_of_document {more : List XmlNode} {m : MapModel K}
    (hbounds : selectNodes doc "bounds" = bounds :: more) (hm : Constructs a g doc m) :
    Described a doc bounds m := by
  obtain ⟨l, hl, roads, hsort, rfl⟩ := hm
  have hcommits := loadData_commits hbounds hl
  rw [readWays_idToNum, readRelations_eq] at hcommits
  have hread := readWays_read a g doc bounds
  obtain ⟨hgrown, hroads, hrailways, hleisures, hbuildings, waters, landuses, hw, hl', hbuilt⟩ :=
    commitAll_commits areasOf_inRange readWays_length.ge hcommits
  have hbase := loadData_base hbounds hl
  have hnodes : l.nodes = (selectNodes doc "node").map a.position := congrArg Prod.fst hbase
  exact {
    nodes := by
      change l.nodes.map (a.adjust l) = _
      rw [hnodes, List.map_map, adjust_base hbase]
      rfl
    ways := readWays_ways a g doc bounds ▸ hgrown
    roads := (hroads.trans hread.roads) ▸ hsort
    railways := hrailways.trans hread.railways
    leisures := hleisures.trans hread.leisures
    buildings := hbuildings.trans (by rw [hread.buildings])
    areas := ⟨waters, landuses, hw.trans (by rw [hread.waters]),
      hl'.trans (by rw [hread.landuses]), readWays_length ▸ hbuilt⟩ }

end Document

/-- The village has one street, and one pond of its second and its third way. -/
theorem map_of_document_village : ∃ m, Constructs exactArithmetic doubling village m ∧
    m.roads = [⟨0, .residential⟩] ∧ m.buildings = [] ∧
    ∃ pond made, m.waters = [pond] ∧ RingedArea m.ways ⟨[1, 2], []⟩ made pond := by
  obtain ⟨m, hm⟩ := exists_village
  have hdoc := map_of_document rfl hm
  have hroads : roadsOf village = [⟨0, .residential⟩] := by decide
  have hareas : areasOf village = [.water ⟨[1, 2], []⟩] := rfl
  obtain ⟨waters, landuses, hw, -, hbuilt⟩ := hdoc.areas
  have hnone : (featuresOf village fun k f => if f = .water then some (single k) else none) = [] :=
    by decide
  rw [hnone, List.nil_append] at hw
  have hponds := hbuilt.ofWaters
  rw [hareas] at hponds
  cases hponds with
  | cons hpond hrest =>
    obtain ⟨made, hpond⟩ := hpond
    cases hrest with
    | nil =>
      refine ⟨m, hm, List.perm_singleton.mp (hroads ▸ hdoc.roads.1), ?_, _, made, hw, hpond⟩
      rw [hdoc.buildings, hareas]
      decide

end SelfTraining.Route
