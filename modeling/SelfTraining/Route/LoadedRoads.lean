import SelfTraining.Route.Indices

/-!
What a loaded map has of its document: the nodes at their places, and for every way the
nodes its `nd` children name and the roads its tags make. The relations add ways and areas
and leave both as they are.
-/

namespace SelfTraining.Route

variable {K F : Type*}

/-- The node that an `nd` child names. -/
def refNode (nodeIdToNum : String → Option ℕ) (child : XmlNode) : Option ℕ :=
  if child.name = "nd" then nodeIdToNum (child.asString "ref") else none

/-- The type of the road that a child of a way makes it. -/
def roadType (child : XmlNode) : Option RoadType :=
  if child.name = "tag" ∧ child.asString "k" = "highway" ∧
      string2RoadType (child.asString "v") ≠ .invalid then
    some (string2RoadType (child.asString "v"))
  else none

/-- The way of an element. -/
def wayOf (nodeIdToNum : String → Option ℕ) (way : XmlNode) : Way :=
  ⟨way.children.filterMap (refNode nodeIdToNum)⟩

/-! ### One way -/

lemma modify_append_singleton {α : Type*} (l : List α) (x : α) (f : α → α) :
    (l ++ [x]).modify l.length f = l ++ [f x] := by
  induction l with
  | nil => rfl
  | cons y l ih => simpa using ih

@[simp] lemma readAreaTag_ways (wayNum : ℕ) (category type : String) (m : MapModel K) :
    (readAreaTag wayNum category type m).ways = m.ways := by
  unfold readAreaTag
  split_ifs <;> rfl

@[simp] lemma readAreaTag_roads (wayNum : ℕ) (category type : String) (m : MapModel K) :
    (readAreaTag wayNum category type m).roads = m.roads := by
  unfold readAreaTag
  split_ifs <;> rfl

lemma readWayChild_ways {f : String → Option ℕ} {m : MapModel K} {ways : List Way}
    {nodes : List ℕ} (child : XmlNode) (h : m.ways = ways ++ [⟨nodes⟩]) :
    (readWayChild f ways.length m child).ways =
      ways ++ [⟨nodes ++ (refNode f child).toList⟩] := by
  unfold readWayChild refNode
  by_cases hnd : child.name = "nd"
  · rw [if_pos hnd, if_pos hnd]
    cases f (child.asString "ref") with
    | none => simpa using h
    | some i => simp [pushWayNode, h, modify_append_singleton]
  · rw [if_neg hnd, if_neg hnd]
    split_ifs
    · rw [readAreaTag_ways]
      unfold readRoadTag
      split_ifs <;> simpa using h
    · simpa using h

lemma readWayChild_roads {f : String → Option ℕ} {wayNum : ℕ} {m : MapModel K}
    (child : XmlNode) : (readWayChild f wayNum m child).roads =
      m.roads ++ ((roadType child).map (Road.mk wayNum)).toList := by
  unfold readWayChild roadType
  by_cases hnd : child.name = "nd"
  · rw [if_pos hnd, if_neg (by simp [hnd])]
    cases f (child.asString "ref") <;> simp [pushWayNode]
  · rw [if_neg hnd]
    by_cases htag : child.name = "tag"
    · rw [if_pos htag, readAreaTag_roads]
      unfold readRoadTag
      by_cases hway : child.asString "k" = "highway"
      · by_cases htype : string2RoadType (child.asString "v") = .invalid <;>
          simp [htag, hway, htype]
      · simp [hway]
    · simp [htag]

lemma foldl_readWayChild {f : String → Option ℕ} {m : MapModel K} {ways : List Way}
    {nodes : List ℕ} (children : List XmlNode) (h : m.ways = ways ++ [⟨nodes⟩]) :
    (children.foldl (readWayChild f ways.length) m).ways =
      ways ++ [⟨nodes ++ children.filterMap (refNode f)⟩] ∧
    (children.foldl (readWayChild f ways.length) m).roads =
      m.roads ++ (children.filterMap roadType).map (Road.mk ways.length) := by
  induction children generalizing m nodes with
  | nil => simp [h]
  | cons child children ih =>
    obtain ⟨hways, hroads⟩ := ih (readWayChild_ways child h)
    rw [List.foldl_cons, hways, hroads, readWayChild_roads]
    constructor
    · cases hr : refNode f child <;> simp [hr]
    · cases hr : roadType child <;> simp [hr]

/-! ### All ways -/

section Ways

variable (g : Growth) (f : String → Option ℕ)

lemma readWay_reads (p : Reading K) (way : XmlNode) :
    (readWay g f p way).model.ways = p.model.ways ++ [wayOf f way] ∧
    (readWay g f p way).model.roads = p.model.roads ++
      (way.children.filterMap roadType).map (Road.mk p.model.ways.length) :=
  foldl_readWayChild (m := { p.model with
    ways := p.model.ways ++ [⟨[]⟩]
    storage := g.emplaceBack p.model.ways.length p.model.storage }) way.children rfl

/-- **The way pass** reads a way from each element, in their order, and makes it a road once
for each tag that says so. -/
lemma foldl_readWay (p : Reading K) (hways : p.model.ways = []) (hroads : p.model.roads = [])
    (elements : List XmlNode) :
    (elements.foldl (readWay g f) p).model.ways = elements.map (wayOf f) ∧
    ∀ r, r ∈ (elements.foldl (readWay g f) p).model.roads ↔
      ∃ way, elements[r.way]? = some way ∧ r.type ∈ way.children.filterMap roadType := by
  induction elements using List.reverseRecOn with
  | nil => simp [hways, hroads]
  | append_singleton elements way ih =>
    obtain ⟨ihways, ihroads⟩ := ih
    rw [List.foldl_concat]
    obtain ⟨hw, hr⟩ := readWay_reads g f (elements.foldl (readWay g f) p) way
    refine ⟨by rw [hw, ihways, List.map_append, List.map_singleton], fun r => ?_⟩
    rw [hr, List.mem_append, ihroads, ihways, List.length_map, List.mem_map]
    constructor
    · rintro (⟨w, hw, ht⟩ | ⟨t, ht, rfl⟩)
      · obtain ⟨hlt, -⟩ := List.getElem?_eq_some_iff.mp hw
        exact ⟨w, by rwa [List.getElem?_append_left hlt], ht⟩
      · exact ⟨way, by simp, ht⟩
    · rintro ⟨w, hw, ht⟩
      rcases lt_trichotomy r.way elements.length with hlt | heq | hgt
      · exact .inl ⟨w, by rwa [List.getElem?_append_left hlt] at hw, ht⟩
      · rw [heq, List.getElem?_concat_length] at hw
        cases hw
        exact .inr ⟨r.type, ht, by rw [← heq]⟩
      · rw [List.getElem?_eq_none (by simp; omega)] at hw
        cases hw

end Ways

/-! ### What later passes leave alone -/

/-- The nodes and the bounds of a map. -/
def MapModel.base (m : MapModel K) : List (Node K) × K × K × K × K :=
  (m.nodes, m.minLat, m.maxLat, m.minLon, m.maxLon)

lemma readRoadTag_base (wayNum : ℕ) (category type : String) (m : MapModel K) :
    (readRoadTag wayNum category type m).base = m.base := by
  unfold readRoadTag
  split_ifs <;> rfl

lemma readAreaTag_base (wayNum : ℕ) (category type : String) (m : MapModel K) :
    (readAreaTag wayNum category type m).base = m.base := by
  unfold readAreaTag
  split_ifs <;> rfl

lemma readWayChild_base (f : String → Option ℕ) (wayNum : ℕ) (m : MapModel K)
    (child : XmlNode) : (readWayChild f wayNum m child).base = m.base := by
  unfold readWayChild
  split_ifs
  · split <;> rfl
  · rw [readAreaTag_base, readRoadTag_base]
  · rfl

lemma readWay_base (g : Growth) (f : String → Option ℕ) (p : Reading K) (way : XmlNode) :
    (readWay g f p way).model.base = p.model.base := by
  refine List.foldlRecOn (motive := fun m : MapModel K => m.base = p.model.base) _ _ rfl ?_
  intro m hm child _
  rw [readWayChild_base, hm]

lemma commit_base {g : Growth} {m m' : MapModel K} {c : Committed}
    (h : commit g m c = .ok m') : m'.base = m.base ∧ m'.roads = m.roads := by
  cases c with
  | nothing => cases h; exact ⟨rfl, rfl⟩
  | building mp => cases h; exact ⟨rfl, rfl⟩
  | water mp =>
    rw [commit] at h
    split at h
    · cases h
    · cases h; exact ⟨rfl, rfl⟩
  | landuse mp type =>
    rw [commit] at h
    split at h
    · cases h
    · cases h; exact ⟨rfl, rfl⟩

lemma commit_grow {g : Growth} {m m' : MapModel K} {c : Committed}
    (h : commit g m c = .ok m') : m.ways <+: m'.ways := by
  cases c with
  | nothing => cases h; exact List.prefix_rfl
  | building mp => cases h; exact List.prefix_rfl
  | water mp =>
    rw [commit] at h
    split at h
    · cases h
    · rename_i hrun
      cases h
      exact buildRingsStored_grow hrun
  | landuse mp type =>
    rw [commit] at h
    split at h
    · cases h
    · rename_i hrun
      cases h
      exact buildRingsStored_grow hrun

lemma commitAll_grow {g : Growth} {cs : List Committed} {m m' : MapModel K}
    (h : commitAll g m cs = .ok m') : m.ways <+: m'.ways := by
  induction cs generalizing m with
  | nil => cases h; exact List.prefix_rfl
  | cons c cs ih =>
    rw [commitAll] at h
    split at h
    · cases h
    · rename_i m₁ hm₁
      exact (commit_grow hm₁).trans (ih h)

lemma commitAll_base {g : Growth} {cs : List Committed} {m m' : MapModel K}
    (h : commitAll g m cs = .ok m') : m'.base = m.base ∧ m'.roads = m.roads := by
  induction cs generalizing m with
  | nil => cases h; exact ⟨rfl, rfl⟩
  | cons c cs ih =>
    rw [commitAll] at h
    split at h
    · cases h
    · rename_i m₁ hm₁
      obtain ⟨hbase, hroads⟩ := commit_base hm₁
      obtain ⟨hbase', hroads'⟩ := ih h
      exact ⟨hbase'.trans hbase, hroads'.trans hroads⟩

/-! ### The loaded map -/

/-- Every road has a way, which runs through nodes that are there. -/
def RoadsInRange (m : Model K) : Prop :=
  ∀ r ∈ m.roads, r.way < m.ways.length ∧ ∀ i ∈ m.wayNodes r.way, i < m.nodes.length

lemma wayNodes_grow {m m' : Model K} (h : m.ways <+: m'.ways) {k : ℕ} (hk : k < m.ways.length) :
    m'.wayNodes k = m.wayNodes k := by
  obtain ⟨new, hnew⟩ := h
  rw [Model.wayNodes, Model.wayNodes, ← hnew, List.getD_append _ _ _ _ hk]

section Load

variable (a : Arithmetic K F) (g : Growth) (doc : List XmlNode) (bounds : XmlNode)

lemma readNodes_reads : (readNodes a doc bounds).model =
    { readBounds a bounds with nodes := (selectNodes doc "node").map a.position } := by
  unfold readNodes
  induction selectNodes doc "node" using List.reverseRecOn with
  | nil => rfl
  | append_singleton nodes node ih =>
    rw [List.foldl_concat, readNode, ih, List.map_append]
    rfl

lemma readWays_base : (readWays a g doc bounds).model.base =
    (readNodes a doc bounds).model.base := by
  refine List.foldlRecOn (motive := fun p : Reading K =>
    p.model.base = (readNodes a doc bounds).model.base) _ _ rfl ?_
  intro p hp way _
  rw [readWay_base, hp]

/-- Where a node of the document comes to lie. -/
def Arithmetic.placed (node : XmlNode) : Node K :=
  a.adjust (readBounds a bounds) (a.position node)

/-- The way elements that some road other than a footway runs along. -/
def nonFootways : List XmlNode :=
  (selectNodes doc "way").filter fun way =>
    (way.children.filterMap roadType).any fun type => decide (type ≠ .footway)

variable {a g doc bounds}

lemma adjust_base {m m' : MapModel K} (h : m'.base = m.base) : a.adjust m' = a.adjust m := by
  simp only [MapModel.base, Prod.mk.injEq] at h
  obtain ⟨-, h1, h2, h3, h4⟩ := h
  funext node
  simp only [Arithmetic.adjust, Arithmetic.metricScale, h1, h2, h3, h4]

section Loaded

variable {more : List XmlNode} {l : MapModel K}
  (hbounds : selectNodes doc "bounds" = bounds :: more) (hl : loadData a g doc = .ok l)

include hbounds hl

lemma loadData_commits : commitAll g (readWays a g doc bounds).model
    (readRelations (readWays a g doc bounds).idToNum doc) = .ok l := by
  rwa [loadData, hbounds] at hl

lemma loadData_base : l.base = MapModel.base
    { readBounds a bounds with nodes := (selectNodes doc "node").map a.position } := by
  rw [(commitAll_base (loadData_commits hbounds hl)).1, readWays_base, readNodes_reads]

lemma mem_loadData_roads (r : Road) : r ∈ l.roads ↔
    ∃ way, (selectNodes doc "way")[r.way]? = some way ∧
      r.type ∈ way.children.filterMap roadType := by
  have hread := readNodes_reads a doc bounds
  rw [(commitAll_base (loadData_commits hbounds hl)).2]
  exact (foldl_readWay g (readNodes a doc bounds).idToNum
    ⟨(readNodes a doc bounds).model, fun _ => none⟩ (by rw [hread]; rfl) (by rw [hread]; rfl)
    (selectNodes doc "way")).2 r

lemma loadData_wayNodes {k : ℕ} {way : XmlNode} (hway : (selectNodes doc "way")[k]? = some way) :
    l.toModel.wayNodes k = (wayOf (readNodes a doc bounds).idToNum way).nodes := by
  have hread := readNodes_reads a doc bounds
  have hget : (readWays a g doc bounds).model.ways[k]? =
      some (wayOf (readNodes a doc bounds).idToNum way) := by
    rw [readWays, (foldl_readWay g _ _ (by rw [hread]; rfl) (by rw [hread]; rfl) _).1,
      List.getElem?_map, hway]
    rfl
  obtain ⟨hlt, -⟩ := List.getElem?_eq_some_iff.mp hget
  rw [wayNodes_grow (commitAll_grow (loadData_commits hbounds hl)) hlt, Model.wayNodes,
    List.getD_eq_getElem?_getD, hget]
  rfl

lemma loadData_roadsInRange : RoadsInRange l.toModel := by
  have hcommits := loadData_commits hbounds hl
  obtain ⟨⟨hindexed, -⟩, -⟩ := readWays_kept a g doc bounds
  obtain ⟨hbase, hroads⟩ := commitAll_base hcommits
  have hgrown := commitAll_grow hcommits
  have hnodes : l.nodes = (readWays a g doc bounds).model.nodes := congrArg Prod.fst hbase
  intro r hr
  rw [hroads] at hr
  have hway := hindexed.roads r hr
  refine ⟨hway.trans_le hgrown.length_le, fun i hi => ?_⟩
  rw [wayNodes_grow hgrown hway, Model.wayNodes, List.getD_eq_getElem _ _ hway] at hi
  rw [hnodes]
  exact hindexed.ways _ (List.getElem_mem hway) i hi

end Loaded

/-- **A constructed map has the nodes of its document**, and through a node there is a road
other than a footway just when an element says so. -/
lemma Constructs.reads {more : List XmlNode} {m : MapModel K}
    (hbounds : selectNodes doc "bounds" = bounds :: more) (h : Constructs a g doc m) :
    m.nodes = (selectNodes doc "node").map (a.placed bounds) ∧
    ∀ i, (∃ r ∈ m.roads, r.type ≠ .footway ∧ i ∈ m.wayNodes r.way) ↔
      ∃ way ∈ nonFootways doc, i ∈ (wayOf (readNodes a doc bounds).idToNum way).nodes := by
  obtain ⟨l, hl, roads, hsort, rfl⟩ := h
  have hbase := loadData_base hbounds hl
  have hmem : ∀ r, r ∈ roads ↔ ∃ way, (selectNodes doc "way")[r.way]? = some way ∧
      r.type ∈ way.children.filterMap roadType :=
    fun r => hsort.1.mem_iff.trans (mem_loadData_roads hbounds hl r)
  refine ⟨?_, fun i => ⟨?_, ?_⟩⟩
  · have hnodes : l.nodes = (selectNodes doc "node").map a.position := congrArg Prod.fst hbase
    change l.nodes.map (a.adjust l) = _
    rw [hnodes, List.map_map, adjust_base hbase]
    rfl
  · rintro ⟨r, hr, htype, hi⟩
    obtain ⟨way, hway, ht⟩ := (hmem r).mp hr
    refine ⟨way, ?_, loadData_wayNodes hbounds hl hway ▸ hi⟩
    refine List.mem_filter.mpr ⟨List.mem_of_getElem? hway, List.any_eq_true.mpr ?_⟩
    exact ⟨r.type, ht, decide_eq_true htype⟩
  · rintro ⟨way, hway, hi⟩
    obtain ⟨hway, hany⟩ := List.mem_filter.mp hway
    obtain ⟨t, ht, htype⟩ := List.any_eq_true.mp hany
    obtain ⟨k, hk⟩ := List.mem_iff_getElem?.mp hway
    exact ⟨⟨k, t⟩, (hmem _).mpr ⟨way, hk, ht⟩, of_decide_eq_true htype,
      loadData_wayNodes hbounds hl hk ▸ hi⟩

/-- **The roads of a constructed map are in range**, whatever ways its document has. -/
lemma Constructs.roadsInRange {m : MapModel K} (h : Constructs a g doc m) :
    RoadsInRange m.toModel := by
  obtain ⟨l, hl, roads, hsort, rfl⟩ := h
  obtain ⟨bounds, more, hbounds⟩ : ∃ bounds more, selectNodes doc "bounds" = bounds :: more := by
    cases hbounds : selectNodes doc "bounds" with
    | nil =>
      rw [loadData, hbounds] at hl
      cases hl
    | cons bounds more => exact ⟨bounds, more, rfl⟩
  intro r hr
  obtain ⟨hway, hnodes⟩ := loadData_roadsInRange hbounds hl r (hsort.1.mem_iff.mp hr)
  refine ⟨hway, fun i hi => ?_⟩
  simpa [Arithmetic.adjustCoordinates] using hnodes i hi

end Load

end SelfTraining.Route
