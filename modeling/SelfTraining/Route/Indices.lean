import SelfTraining.Route.LoadData

/-!
Every number stored in a loaded map names something.

The invariant is kept by each turn of each pass: a number is stored either as that of the
element just appended, or because a map of ids gave it, and those only give numbers of
elements that are there. `BuildRings` appends ways made of the nodes of ways there were.
-/

namespace SelfTraining.Route

variable {K F : Type*}

/-- The numbers of a multipolygon name some of `n` ways. -/
def Multipolygon.InRange (n : ℕ) (mp : Multipolygon) : Prop :=
  ∀ i ∈ mp.outer ++ mp.inner, 0 ≤ i ∧ i < (n : ℤ)

instance (n : ℕ) (mp : Multipolygon) : Decidable (mp.InRange n) :=
  inferInstanceAs (Decidable (∀ i ∈ mp.outer ++ mp.inner, _))

/-- The numbers stored in a map are in range. -/
structure Indexed (m : MapModel K) : Prop where
  ways : ∀ w ∈ m.ways, ∀ i ∈ w.nodes, i < m.nodes.length
  roads : ∀ r ∈ m.roads, r.way < m.ways.length
  railways : ∀ r ∈ m.railways, r.way < m.ways.length
  buildings : ∀ mp ∈ m.buildings, mp.InRange m.ways.length
  leisures : ∀ mp ∈ m.leisures, mp.InRange m.ways.length
  waters : ∀ mp ∈ m.waters, mp.InRange m.ways.length
  landuses : ∀ l ∈ m.landuses, l.toMultipolygon.InRange m.ways.length

/-- What a loading map keeps: its numbers are in range and its ways in their storage. -/
structure Kept (m : MapModel K) : Prop where
  indexed : Indexed m
  stored : m.ways.length ≤ m.storage.capacity

/-- A map of ids gives numbers below `n` only. -/
def Numbers (idToNum : String → Option ℕ) (n : ℕ) : Prop :=
  ∀ id i, idToNum id = some i → i < n

lemma Numbers.mono {f : String → Option ℕ} {n k : ℕ} (h : Numbers f n) (hle : n ≤ k) :
    Numbers f k :=
  fun id i hi => (h id i hi).trans_le hle

lemma Numbers.update {f : String → Option ℕ} {n : ℕ} (h : Numbers f n) (id : String) :
    Numbers (Function.update f id (some n)) (n + 1) := by
  intro id' i hi
  by_cases hid : id' = id
  · subst hid
    rw [Function.update_self] at hi
    cases hi
    exact Nat.lt_succ_self n
  · rw [Function.update_of_ne hid] at hi
    exact (h id' i hi).trans (Nat.lt_succ_self n)

lemma Multipolygon.InRange.mono {mp : Multipolygon} {n k : ℕ} (h : mp.InRange n)
    (hle : n ≤ k) : mp.InRange k := by
  intro i hi
  have := h i hi
  omega

lemma Multipolygon.inRange_singleton {w n : ℕ} (h : w < n) :
    Multipolygon.InRange n ⟨[(w : ℤ)], []⟩ := by
  intro i hi
  obtain rfl : i = (w : ℤ) := by simpa using hi
  omega

lemma mem_append_singleton {α : Type*} {P : α → Prop} {l : List α} {a : α}
    (hl : ∀ x ∈ l, P x) (ha : P a) : ∀ x ∈ l ++ [a], P x := by
  intro x hx
  rcases List.mem_append.mp hx with hx | hx
  · exact hl x hx
  · rwa [List.mem_singleton.mp hx]

lemma Indexed.withWays {m : MapModel K} (h : Indexed m) {ways : List Way} (s : Storage)
    (hle : m.ways.length ≤ ways.length) (hways : ∀ w ∈ ways, ∀ i ∈ w.nodes, i < m.nodes.length) :
    Indexed { m with ways := ways, storage := s } where
  ways := hways
  roads r hr := (h.roads r hr).trans_le hle
  railways r hr := (h.railways r hr).trans_le hle
  buildings mp hmp := (h.buildings mp hmp).mono hle
  leisures mp hmp := (h.leisures mp hmp).mono hle
  waters mp hmp := (h.waters mp hmp).mono hle
  landuses l hl := (h.landuses l hl).mono hle

/-! ### The nodes -/

lemma readNode_kept (a : Arithmetic K F) {p : Reading K} (node : XmlNode)
    (h : Kept p.model ∧ Numbers p.idToNum p.model.nodes.length) :
    Kept (readNode a p node).model ∧
      Numbers (readNode a p node).idToNum (readNode a p node).model.nodes.length := by
  obtain ⟨⟨hidx, hst⟩, hnum⟩ := h
  refine ⟨⟨{ hidx with ways := ?_ }, hst⟩, ?_⟩
  · intro w hw i hi
    have := hidx.ways w hw i hi
    simp only [readNode, List.length_append, List.length_singleton]
    omega
  · simpa [readNode] using hnum.update (node.asString "id")

lemma readBounds_kept (a : Arithmetic K F) (bounds : XmlNode) : Kept (readBounds a bounds) where
  indexed := by constructor <;> simp [readBounds]
  stored := by simp [readBounds]

/-- **The node pass**: the ids name nodes. -/
lemma readNodes_kept (a : Arithmetic K F) (doc : List XmlNode) (bounds : XmlNode) :
    Kept (readNodes a doc bounds).model ∧
      Numbers (readNodes a doc bounds).idToNum (readNodes a doc bounds).model.nodes.length := by
  refine List.foldlRecOn (motive := fun p : Reading K =>
    Kept p.model ∧ Numbers p.idToNum p.model.nodes.length) _ _ ?_ fun p h node _ => ?_
  · exact ⟨readBounds_kept a bounds, fun id i hi => by cases hi⟩
  · exact readNode_kept a node h

/-! ### The ways -/

/-- What the children of a way leave alone. -/
structure SameSizes (m m' : MapModel K) : Prop where
  nodes : m'.nodes = m.nodes
  ways : m'.ways.length = m.ways.length
  storage : m'.storage = m.storage

lemma SameSizes.refl (m : MapModel K) : SameSizes m m := ⟨rfl, rfl, rfl⟩

lemma SameSizes.trans {m₁ m₂ m₃ : MapModel K} (h : SameSizes m₁ m₂) (h' : SameSizes m₂ m₃) :
    SameSizes m₁ m₃ :=
  ⟨h'.nodes.trans h.nodes, h'.ways.trans h.ways, h'.storage.trans h.storage⟩

section WayChildren

variable {m : MapModel K} {wayNum : ℕ}

lemma pushWayNode_kept {i : ℕ} (h : Indexed m) (hi : i < m.nodes.length) :
    Indexed (pushWayNode wayNum i m) ∧ SameSizes m (pushWayNode wayNum i m) := by
  have hsame : SameSizes m (pushWayNode wayNum i m) :=
    ⟨rfl, by simp [pushWayNode], rfl⟩
  refine ⟨h.withWays m.storage hsame.ways.ge ?_, hsame⟩
  intro w hw j hj
  obtain ⟨k, hk, rfl⟩ := List.getElem_of_mem hw
  rw [List.getElem_modify] at hj
  have hk : k < m.ways.length := by simpa using hk
  split at hj
  · rcases List.mem_append.mp hj with hj | hj
    · exact h.ways _ (List.getElem_mem hk) j hj
    · rwa [List.mem_singleton.mp hj]
  · exact h.ways _ (List.getElem_mem hk) j hj

lemma readRoadTag_kept (category type : String) (h : Indexed m) (hw : wayNum < m.ways.length) :
    Indexed (readRoadTag wayNum category type m) ∧
      SameSizes m (readRoadTag wayNum category type m) := by
  unfold readRoadTag
  split_ifs
  · exact ⟨{ h with roads := mem_append_singleton h.roads hw }, ⟨rfl, rfl, rfl⟩⟩
  · exact ⟨h, .refl m⟩
  · exact ⟨h, .refl m⟩

lemma readAreaTag_kept (category type : String) (h : Indexed m) (hw : wayNum < m.ways.length) :
    Indexed (readAreaTag wayNum category type m) ∧
      SameSizes m (readAreaTag wayNum category type m) := by
  have hmp := Multipolygon.inRange_singleton hw
  unfold readAreaTag
  split_ifs
  · exact ⟨{ h with railways := mem_append_singleton h.railways hw }, ⟨rfl, rfl, rfl⟩⟩
  · exact ⟨{ h with buildings := mem_append_singleton h.buildings hmp }, ⟨rfl, rfl, rfl⟩⟩
  · exact ⟨{ h with leisures := mem_append_singleton h.leisures hmp }, ⟨rfl, rfl, rfl⟩⟩
  · exact ⟨{ h with waters := mem_append_singleton h.waters hmp }, ⟨rfl, rfl, rfl⟩⟩
  · exact ⟨{ h with landuses := mem_append_singleton h.landuses hmp }, ⟨rfl, rfl, rfl⟩⟩
  · exact ⟨h, .refl m⟩
  · exact ⟨h, .refl m⟩

lemma readWayChild_kept {nodeIdToNum : String → Option ℕ} (child : XmlNode) (h : Indexed m)
    (hnum : Numbers nodeIdToNum m.nodes.length) (hw : wayNum < m.ways.length) :
    Indexed (readWayChild nodeIdToNum wayNum m child) ∧
      SameSizes m (readWayChild nodeIdToNum wayNum m child) := by
  unfold readWayChild
  split_ifs
  · split
    · rename_i i hi
      exact pushWayNode_kept h (hnum _ i hi)
    · exact ⟨h, .refl m⟩
  · obtain ⟨hroad, hsame⟩ := readRoadTag_kept (child.asString "k") (child.asString "v") h hw
    obtain ⟨harea, hsame'⟩ := readAreaTag_kept (child.asString "k") (child.asString "v") hroad
      (hsame.ways ▸ hw)
    exact ⟨harea, hsame.trans hsame'⟩
  · exact ⟨h, .refl m⟩

lemma foldl_readWayChild_kept {nodeIdToNum : String → Option ℕ} (children : List XmlNode)
    (h : Indexed m) (hnum : Numbers nodeIdToNum m.nodes.length) (hw : wayNum < m.ways.length) :
    Indexed (children.foldl (readWayChild nodeIdToNum wayNum) m) ∧
      SameSizes m (children.foldl (readWayChild nodeIdToNum wayNum) m) := by
  induction children generalizing m with
  | nil => exact ⟨h, .refl m⟩
  | cons child children ih =>
    obtain ⟨hidx, hsame⟩ := readWayChild_kept child h hnum hw
    obtain ⟨hidx', hsame'⟩ := ih hidx (by rwa [hsame.nodes]) (by rwa [hsame.ways])
    exact ⟨hidx', hsame.trans hsame'⟩

end WayChildren

lemma readWay_kept (g : Growth) {nodeIdToNum : String → Option ℕ} {p : Reading K}
    (way : XmlNode) (h : Kept p.model) (hways : Numbers p.idToNum p.model.ways.length)
    (hnum : Numbers nodeIdToNum p.model.nodes.length) :
    Kept (readWay g nodeIdToNum p way).model ∧
      Numbers (readWay g nodeIdToNum p way).idToNum
        (readWay g nodeIdToNum p way).model.ways.length ∧
      (readWay g nodeIdToNum p way).model.nodes = p.model.nodes := by
  have hnew : Indexed { p.model with
      ways := p.model.ways ++ [⟨[]⟩]
      storage := g.emplaceBack p.model.ways.length p.model.storage } :=
    h.indexed.withWays _ (by simp) (mem_append_singleton h.indexed.ways (by simp))
  have hlt : p.model.ways.length < (p.model.ways ++ [Way.mk []]).length := by simp
  obtain ⟨hidx, hsame⟩ := foldl_readWayChild_kept way.children hnew hnum hlt
  have hlen : (readWay g nodeIdToNum p way).model.ways.length = p.model.ways.length + 1 := by
    simpa [readWay] using hsame.ways
  refine ⟨⟨hidx, ?_⟩, ?_, hsame.nodes⟩
  · have hst : (readWay g nodeIdToNum p way).model.storage =
        g.emplaceBack p.model.ways.length p.model.storage := hsame.storage
    rw [hlen, hst]
    exact g.size_le h.stored
  · rw [hlen]
    exact hways.update (way.asString "id")

/-- **The way pass**: the ids name ways, and the nodes of every way are there. -/
lemma readWays_kept (a : Arithmetic K F) (g : Growth) (doc : List XmlNode) (bounds : XmlNode) :
    Kept (readWays a g doc bounds).model ∧
      Numbers (readWays a g doc bounds).idToNum (readWays a g doc bounds).model.ways.length := by
  obtain ⟨hkept, hnum⟩ := readNodes_kept a doc bounds
  have hrun : (Kept (readWays a g doc bounds).model ∧
      Numbers (readWays a g doc bounds).idToNum (readWays a g doc bounds).model.ways.length) ∧
      (readWays a g doc bounds).model.nodes = (readNodes a doc bounds).model.nodes := by
    refine List.foldlRecOn (motive := fun p : Reading K =>
      (Kept p.model ∧ Numbers p.idToNum p.model.ways.length) ∧
        p.model.nodes = (readNodes a doc bounds).model.nodes) _ _ ?_ fun p h way _ => ?_
    · exact ⟨⟨hkept, fun id i hi => by cases hi⟩, rfl⟩
    · obtain ⟨⟨hp, hways⟩, hnodes⟩ := h
      obtain ⟨hp', hways', hnodes'⟩ := readWay_kept g way hp hways (by rwa [hnodes])
      exact ⟨⟨hp', hways'⟩, hnodes'.trans hnodes⟩
  exact hrun.1

/-! ### The relations -/

/-- What a relation commits, in whichever vector, names some of `n` ways. -/
def Committed.InRange (n : ℕ) : Committed → Prop
  | nothing => True
  | building mp | water mp | landuse mp _ => mp.InRange n

lemma Multipolygon.InRange.pushOuter {mp : Multipolygon} {n w : ℕ} (h : mp.InRange n)
    (hw : w < n) : Multipolygon.InRange n { mp with outer := mp.outer ++ [(w : ℤ)] } := by
  intro i hi
  simp only [List.mem_append, List.mem_singleton] at hi
  rcases hi with (hi | rfl) | hi
  · exact h i (List.mem_append_left _ hi)
  · omega
  · exact h i (List.mem_append_right _ hi)

lemma Multipolygon.InRange.pushInner {mp : Multipolygon} {n w : ℕ} (h : mp.InRange n)
    (hw : w < n) : Multipolygon.InRange n { mp with inner := mp.inner ++ [(w : ℤ)] } := by
  intro i hi
  simp only [List.mem_append, List.mem_singleton] at hi
  rcases hi with hi | hi | rfl
  · exact h i (List.mem_append_left _ hi)
  · exact h i (List.mem_append_right _ hi)
  · omega

/-- **What a relation reads**: its members are ways that the way pass has numbered. -/
lemma readRelation_inRange {wayIdToNum : String → Option ℕ} {n : ℕ}
    (hnum : Numbers wayIdToNum n) (children : List XmlNode) {mp : Multipolygon}
    (h : mp.InRange n) : (readRelation wayIdToNum children mp).InRange n := by
  induction children generalizing mp with
  | nil => exact trivial
  | cons child children ih =>
    rw [readRelation]
    by_cases hmember : child.name = "member"
    · rw [if_pos hmember]
      by_cases hway : child.asString "type" = "way"
      · rw [if_pos hway]
        cases hid : wayIdToNum (child.asString "ref") with
        | none => exact ih h
        | some wayNum =>
          have hlt := hnum _ wayNum hid
          by_cases hrole : child.asString "role" = "outer"
          · simp only [hrole, if_true]
            exact ih (h.pushOuter hlt)
          · simp only [hrole, if_false]
            exact ih (h.pushInner hlt)
      · rw [if_neg hway]
        exact ih h
    · rw [if_neg hmember]
      by_cases htag : child.name = "tag"
      · rw [if_pos htag]
        split_ifs
        · exact h
        · exact h
        · exact h
        · exact trivial
        · exact ih h
      · rw [if_neg htag]
        exact ih h

/-! ### Rings -/

/-- The open members of a multipolygon have nodes. -/
def OpenWaysHaveNodes (ways : List Way) (mp : Multipolygon) : Prop :=
  ∀ i ∈ mp.outer ++ mp.inner, isClosed (wayAt ways i) = false → (wayAt ways i).nodes ≠ []

instance (ways : List Way) (mp : Multipolygon) : Decidable (OpenWaysHaveNodes ways mp) :=
  inferInstanceAs (Decidable (∀ i ∈ mp.outer ++ mp.inner, _))

lemma OpenWaysHaveNodes.ne_nil {ways after : List Way} {mp : Multipolygon}
    (h : OpenWaysHaveNodes ways mp) (hpre : ways <+: after) :
    ∀ i ∈ mp.outer ++ mp.inner, (wayAt after i).nodes ≠ [] := by
  intro i hi
  have hne : (wayAt ways i).nodes ≠ [] := by
    cases hcl : isClosed (wayAt ways i) with
    | true => exact nodes_ne_nil hcl
    | false => exact h i hi hcl
  rwa [wayAt_grow hpre hne]

lemma wayAt_nodes_lt {ways : List Way} {n : ℕ} (h : ∀ w ∈ ways, ∀ i ∈ w.nodes, i < n)
    (k : ℤ) : ∀ i ∈ (wayAt ways k).nodes, i < n := by
  intro i hi
  obtain ⟨j, rfl, hj⟩ := lt_of_wayAt (List.ne_nil_of_mem hi)
  rw [wayAt_natCast, List.getD_eq_getElem _ _ hj] at hi
  exact h _ (List.getElem_mem hj) i hi

lemma RingOf.nodes_lt {mWays : List Way} {nums : List ℤ} {qs : List (ℕ × Bool)} {w : Way}
    {n : ℕ} (hr : RingOf mWays nums qs w) (h : ∀ w ∈ mWays, ∀ i ∈ w.nodes, i < n) :
    ∀ i ∈ w.nodes, i < n := by
  intro i hi
  rw [hr.nodes, List.mem_flatMap] at hi
  obtain ⟨q, -, hi⟩ := hi
  unfold oriented at hi
  refine wayAt_nodes_lt h (nums.getD q.1 (-1)) i ?_
  split at hi
  · exact List.mem_reverse.mp hi
  · exact hi

section Assembled

variable {mWays after : List Way} {nums result : List ℤ} {base n : ℕ}
  {rings : List (List (ℕ × Bool))}

lemma Assembled.result_inRange (ha : Assembled mWays nums base after result rings)
    (hnums : ∀ i ∈ nums, 0 ≤ i ∧ i < (n : ℤ)) (hn : n ≤ after.length)
    (hlen : base + rings.length ≤ after.length) :
    ∀ i ∈ result, 0 ≤ i ∧ i < (after.length : ℤ) := by
  intro i hi
  rw [ha.result_eq, List.mem_append] at hi
  rcases hi with hi | hi
  · have := hnums i (List.mem_filter.mp hi).1
    omega
  · obtain ⟨k, hk, rfl⟩ := List.mem_map.mp hi
    have := List.mem_range.mp hk
    omega

lemma Assembled.ring_nodes_lt (ha : Assembled mWays nums base after result rings)
    (h : ∀ w ∈ mWays, ∀ i ∈ w.nodes, i < n) {k : ℕ} (hk : k < rings.length) :
    ∀ i ∈ (after.getD (base + k) ⟨[]⟩).nodes, i < n :=
  (ha.ring k rings[k] (List.getElem?_eq_getElem hk)).nodes_lt h

end Assembled

/-- **Ring building keeps the numbers in range**, those of the ways it appends too. -/
lemma buildRingsUnmoved_inRange {mWays : List Way} {mp : Multipolygon} {n : ℕ}
    (hne : ∀ i ∈ mp.outer ++ mp.inner, (wayAt mWays i).nodes ≠ [])
    (hways : ∀ w ∈ mWays, ∀ i ∈ w.nodes, i < n) (hmp : mp.InRange mWays.length) :
    ∃ after mp', buildRingsUnmoved mWays mp = .ok (after, mp') ∧ mWays <+: after ∧
      (∀ w ∈ after, ∀ i ∈ w.nodes, i < n) ∧ mp'.InRange after.length := by
  obtain ⟨after, mp', hrun, outerRings, innerRings, hpre, hlen, houter, hinner, -⟩ :=
    buildRingsUnmoved_spec mWays mp hne
  have hle := hpre.length_le
  refine ⟨after, mp', hrun, hpre, ?_, ?_⟩
  · intro w hw
    obtain ⟨j, hj, rfl⟩ := List.getElem_of_mem hw
    by_cases hold : j < mWays.length
    · rw [← hpre.getElem hold]
      exact hways _ (List.getElem_mem hold)
    · rw [← List.getD_eq_getElem after ⟨[]⟩ hj]
      by_cases hout : j < mWays.length + outerRings.length
      · have hr := houter.ring_nodes_lt hways (k := j - mWays.length) (by omega)
        rwa [show mWays.length + (j - mWays.length) = j by omega] at hr
      · have hr := hinner.ring_nodes_lt hways
          (k := j - (mWays.length + outerRings.length)) (by omega)
        rwa [show mWays.length + outerRings.length + (j - (mWays.length + outerRings.length)) = j
          by omega] at hr
  · intro i hi
    rcases List.mem_append.mp hi with hi | hi
    · exact houter.result_inRange (fun j hj => hmp j (List.mem_append_left _ hj)) hle
        (by omega) i hi
    · exact hinner.result_inRange (fun j hj => hmp j (List.mem_append_right _ hj)) hle
        (by omega) i hi

/-! ### Committing the relations -/

/-- The open ways that a relation hands to `BuildRings` have nodes. -/
def Committed.OpenWaysHaveNodes (ways : List Way) : Committed → Prop
  | nothing | building _ => True
  | water mp | landuse mp _ => Route.OpenWaysHaveNodes ways mp

instance (ways : List Way) (c : Committed) : Decidable (c.OpenWaysHaveNodes ways) :=
  match c with
  | .nothing | .building _ => inferInstanceAs (Decidable True)
  | .water mp | .landuse mp _ => inferInstanceAs (Decidable (OpenWaysHaveNodes ways mp))

/-- The rings that a relation hands on fit into the storage of the ways. -/
def Committed.RingsFit (g : Growth) (m : MapModel K) : Committed → Prop
  | nothing | building _ => True
  | water mp | landuse mp _ => Route.RingsFit g m.ways m.storage mp

/-- In each relation, when its turn comes, the rings fit. -/
def AllRingsFit (g : Growth) : MapModel K → List Committed → Prop
  | _, [] => True
  | m, c :: cs => c.RingsFit g m ∧ ∀ m', commit g m c = .ok m' → AllRingsFit g m' cs

/-- A map while the relations are committed: `ways` are those of the way pass. -/
structure Committing (ways : List Way) (m : MapModel K) : Prop extends Kept m where
  grown : ways <+: m.ways

lemma buildRingsStored_kept (g : Growth) {ways : List Way} {m : MapModel K} {mp : Multipolygon}
    (h : Committing ways m) (hmp : mp.InRange ways.length) (hopen : OpenWaysHaveNodes ways mp) :
    (RingsFit g m.ways m.storage mp ∧ ∃ after s mp',
      buildRingsStored g m.ways m.storage mp = .ok (after, s, mp') ∧
      Committing ways { m with ways := after, storage := s } ∧ mp'.InRange after.length) ∨
    (¬ RingsFit g m.ways m.storage mp ∧
      buildRingsStored g m.ways m.storage mp = .error .danglingPointer) := by
  obtain ⟨after, mp', hrun, hpre, hafter, hmp'⟩ :=
    buildRingsUnmoved_inRange (hopen.ne_nil h.grown) h.indexed.ways (hmp.mono h.grown.length_le)
  rcases buildRingsStored_spec g h.stored hrun with ⟨hfit, s, hs, hrun'⟩ | hno
  · exact .inl ⟨hfit, after, s, mp', hrun',
      ⟨⟨h.indexed.withWays s hpre.length_le hafter, hs⟩, h.grown.trans hpre⟩, hmp'⟩
  · exact .inr hno

lemma commit_spec (g : Growth) {ways : List Way} {m : MapModel K} {c : Committed}
    (h : Committing ways m) (hrange : c.InRange ways.length)
    (hopen : c.OpenWaysHaveNodes ways) :
    (c.RingsFit g m ∧ ∃ m', commit g m c = .ok m' ∧ Committing ways m') ∨
    (¬ c.RingsFit g m ∧ commit g m c = .error .danglingPointer) := by
  cases c with
  | nothing => exact .inl ⟨trivial, m, rfl, h⟩
  | building mp =>
    have hmp := Multipolygon.InRange.mono hrange h.grown.length_le
    exact .inl ⟨trivial, _, rfl, ⟨⟨{ h.indexed with
      buildings := mem_append_singleton h.indexed.buildings hmp }, h.stored⟩, h.grown⟩⟩
  | water mp =>
    rcases buildRingsStored_kept g h hrange hopen with
      ⟨hfit, after, s, mp', hrun, h', hmp'⟩ | ⟨hno, hrun⟩
    · refine .inl ⟨hfit, { m with ways := after, storage := s, waters := m.waters ++ [mp'] },
        by simp only [commit, hrun], ⟨⟨?_, h'.stored⟩, h'.grown⟩⟩
      exact { h'.indexed with waters := mem_append_singleton h'.indexed.waters hmp' }
    · exact .inr ⟨hno, by simp only [commit, hrun]⟩
  | landuse mp type =>
    rcases buildRingsStored_kept g h hrange hopen with
      ⟨hfit, after, s, mp', hrun, h', hmp'⟩ | ⟨hno, hrun⟩
    · refine .inl ⟨hfit,
        { m with ways := after, storage := s, landuses := m.landuses ++ [⟨mp', type⟩] },
        by simp only [commit, hrun], ⟨⟨?_, h'.stored⟩, h'.grown⟩⟩
      exact { h'.indexed with landuses := mem_append_singleton h'.indexed.landuses hmp' }
    · exact .inr ⟨hno, by simp only [commit, hrun]⟩

lemma commitAll_spec (g : Growth) {ways : List Way} {m : MapModel K} {cs : List Committed}
    (h : Committing ways m) (hrange : ∀ c ∈ cs, c.InRange ways.length)
    (hopen : ∀ c ∈ cs, c.OpenWaysHaveNodes ways) :
    (AllRingsFit g m cs ∧ ∃ m', commitAll g m cs = .ok m' ∧ Committing ways m') ∨
    (¬ AllRingsFit g m cs ∧ commitAll g m cs = .error .danglingPointer) := by
  induction cs generalizing m with
  | nil => exact .inl ⟨trivial, m, rfl, h⟩
  | cons c cs ih =>
    rw [commitAll]
    rcases commit_spec g h (hrange c (by simp)) (hopen c (by simp)) with
      ⟨hfit, m', hrun, h'⟩ | ⟨hno, hrun⟩
    · simp only [hrun]
      rcases ih h' (fun c hc => hrange c (by simp [hc])) (fun c hc => hopen c (by simp [hc]))
        with ⟨hfits, hend⟩ | ⟨hno, hend⟩
      · refine .inl ⟨⟨hfit, fun m'' hm'' => ?_⟩, hend⟩
        rw [hrun] at hm''
        cases hm''
        exact hfits
      · exact .inr ⟨fun hall => hno (hall.2 m' hrun), hend⟩
    · exact .inr ⟨fun hall => hno hall.1, by simp only [hrun]⟩

/-! ### The whole of `LoadData` -/

section Load

variable (a : Arithmetic K F) (g : Growth) (doc : List XmlNode) (bounds : XmlNode)

/-- Every open way handed to `BuildRings` has a node. -/
def HandedWaysHaveNodes : Prop :=
  ∀ c ∈ readRelations (readWays a g doc bounds).idToNum doc,
    c.OpenWaysHaveNodes (readWays a g doc bounds).model.ways

instance : Decidable (HandedWaysHaveNodes a g doc bounds) :=
  inferInstanceAs (Decidable (∀ c ∈ readRelations _ _, _))

/-- Every ring fits into the storage of `m_Ways` that it is built in. -/
def RingsHaveRoom : Prop :=
  AllRingsFit g (readWays a g doc bounds).model
    (readRelations (readWays a g doc bounds).idToNum doc)

variable {a g doc bounds}

/-- **A document with bounds is loaded when the rings have room, and its numbers are then in
range.** -/
lemma loadData_spec {more : List XmlNode} (hbounds : selectNodes doc "bounds" = bounds :: more)
    (hopen : HandedWaysHaveNodes a g doc bounds) :
    (RingsHaveRoom a g doc bounds ∧ ∃ l, loadData a g doc = .ok l ∧
      Committing (readWays a g doc bounds).model.ways l) ∨
    (¬ RingsHaveRoom a g doc bounds ∧ loadData a g doc = .error .danglingPointer) := by
  obtain ⟨hkept, hnum⟩ := readWays_kept a g doc bounds
  have hrange : ∀ c ∈ readRelations (readWays a g doc bounds).idToNum doc,
      c.InRange (readWays a g doc bounds).model.ways.length := by
    intro c hc
    obtain ⟨relation, -, rfl⟩ := List.mem_map.mp hc
    exact readRelation_inRange hnum _ (by simp [Multipolygon.InRange])
  simp only [loadData, hbounds]
  exact commitAll_spec g ⟨hkept, List.prefix_rfl⟩ hrange hopen

end Load

end SelfTraining.Route
