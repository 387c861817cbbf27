import SelfTraining.Route.LoadedRoads

/-!
All that a map takes over from its document.

The way pass fills one vector for each kind of feature, from the tags of the ways; the relations
add areas behind them, and for some of these `BuildRings` adds ways. Here the finished map is
told in terms of the document alone: by the places of its elements, by their tags, and by the
members that a relation lists before the tag it is taken up at.
-/

namespace SelfTraining.Route

open SelfTraining.Order

variable {K F : Type*}

/-! ### The document -/

/-- The place of the last element with this id. -/
def numOf (elements : List XmlNode) (id : String) : Option ℕ :=
  (elements.zipIdx.filter fun e => e.1.asString "id" = id).getLast?.map Prod.snd

/-- What a tag makes of a way, roads apart. -/
inductive Feature
  | railway | building | leisure | water | landuse (type : LanduseType)
  deriving DecidableEq

def featureOf (category type : String) : Option Feature :=
  if category = "railway" then some .railway
  else if category = "building" then some .building
  else if category = "natural" then
    if type = "water" then some .water
    else if type ∈ ["wood", "tree_row", "scrub", "grassland"] then some .leisure
    else none
  else if category = "leisure" ∨ (category = "landcover" ∧ type = "grass") then some .leisure
  else if category = "landuse" ∧ string2LanduseType type ≠ .invalid then
    some (.landuse (string2LanduseType type))
  else none

/-- The feature that a child of a way makes it. -/
def tagFeature (child : XmlNode) : Option Feature :=
  if child.name = "tag" then featureOf (child.asString "k") (child.asString "v") else none

/-- What the tags of the ways make of the document, way by way and tag by tag. -/
def featuresOf {α : Type*} (doc : List XmlNode) (pick : ℕ → Feature → Option α) : List α :=
  (selectNodes doc "way").zipIdx.flatMap fun w =>
    (w.1.children.filterMap tagFeature).filterMap (pick w.2)

/-- The roads that the tags of the ways make. -/
def roadsOf (doc : List XmlNode) : List Road :=
  (selectNodes doc "way").zipIdx.flatMap fun w =>
    (w.1.children.filterMap roadType).map (Road.mk w.2)

/-- An area that is bounded by one way. -/
def single (k : ℕ) : Multipolygon := ⟨[(k : ℤ)], []⟩

/-- The landuse of one way. -/
def Feature.asLanduse (k : ℕ) : Feature → Option Landuse
  | landuse type => some ⟨single k, type⟩
  | _ => none

/-- The tag at which a relation is taken up, or given up. -/
def decides (child : XmlNode) : Bool :=
  child.name = "tag" ∧ (child.asString "k" = "building" ∨
    (child.asString "k" = "natural" ∧ child.asString "v" = "water") ∨
    child.asString "k" = "landuse")

/-- A member that is a way of the document, and whether it is an outer one. -/
def memberOf (numbers : String → Option ℕ) (child : XmlNode) : Option (Bool × ℤ) :=
  if child.name = "member" ∧ child.asString "type" = "way" then
    (numbers (child.asString "ref")).map fun k =>
      (decide (child.asString "role" = "outer"), (k : ℤ))
  else none

/-- The multipolygon of some members. -/
def polygonOf (members : List (Bool × ℤ)) : Multipolygon where
  outer := (members.filter Prod.fst).map Prod.snd
  inner := (members.filter fun e => !e.1).map Prod.snd

/-- What a tag makes of a multipolygon. -/
def committedAs (mp : Multipolygon) (tag : XmlNode) : Committed :=
  if tag.asString "k" = "building" then .building mp
  else if tag.asString "k" = "natural" then .water mp
  else if string2LanduseType (tag.asString "v") = .invalid then .nothing
  else .landuse mp (string2LanduseType (tag.asString "v"))

/-- The area of a relation: its members before the first tag that decides. -/
def areaOf (numbers : String → Option ℕ) (relation : XmlNode) : Committed :=
  match relation.children.find? decides with
  | none => .nothing
  | some tag => committedAs (polygonOf
      ((relation.children.takeWhile fun child => !decides child).filterMap (memberOf numbers))) tag

/-- The areas of the relations. -/
def areasOf (doc : List XmlNode) : List Committed :=
  (selectNodes doc "relation").map (areaOf (numOf (selectNodes doc "way")))

namespace Committed

def asBuilding : Committed → Option Multipolygon
  | building mp => some mp
  | _ => none

def asWater : Committed → Option Multipolygon
  | water mp => some mp
  | _ => none

def asLanduse : Committed → Option Landuse
  | landuse mp type => some ⟨mp, type⟩
  | _ => none

end Committed

/-! ### Ids -/

lemma numOf_concat (elements : List XmlNode) (e : XmlNode) :
    numOf (elements ++ [e]) =
      Function.update (numOf elements) (e.asString "id") (some elements.length) := by
  funext id
  unfold numOf
  rw [List.zipIdx_append, List.filter_append]
  by_cases h : id = e.asString "id"
  · subst h
    simp
  · rw [Function.update_of_ne h]
    simp [Ne.symm h]

lemma readNodes_idToNum (a : Arithmetic K F) (doc : List XmlNode) (bounds : XmlNode) :
    (readNodes a doc bounds).idToNum = numOf (selectNodes doc "node") := by
  have hfold : ∀ elements : List XmlNode,
      (elements.foldl (readNode a) ⟨readBounds a bounds, fun _ => none⟩).idToNum =
        numOf elements ∧
      (elements.foldl (readNode a) ⟨readBounds a bounds, fun _ => none⟩).model.nodes.length =
        elements.length := by
    intro elements
    induction elements using List.reverseRecOn with
    | nil => exact ⟨rfl, rfl⟩
    | append_singleton elements e ih =>
      obtain ⟨hid, hlength⟩ := ih
      rw [List.foldl_concat, numOf_concat]
      constructor
      · rw [readNode, hid, hlength]
      · simp [readNode, hlength]
  exact (hfold _).1

lemma readWays_idToNum (a : Arithmetic K F) (g : Growth) (doc : List XmlNode)
    (bounds : XmlNode) :
    (readWays a g doc bounds).idToNum = numOf (selectNodes doc "way") := by
  have hread := readNodes_reads a doc bounds
  unfold readWays
  induction selectNodes doc "way" using List.reverseRecOn with
  | nil => rfl
  | append_singleton elements e ih =>
    have hways := (foldl_readWay g (readNodes a doc bounds).idToNum
      ⟨(readNodes a doc bounds).model, fun _ => none⟩ (by rw [hread]; rfl) (by rw [hread]; rfl)
      elements).1
    rw [List.foldl_concat, numOf_concat, readWay, ih, hways, List.length_map]

/-! ### Relations -/

section Relations

variable {numbers : String → Option ℕ}

lemma readRelation_eq (children : List XmlNode) (mp : Multipolygon) :
    readRelation numbers children mp =
      match children.find? decides with
      | none => .nothing
      | some tag => committedAs
          (let rest := polygonOf ((children.takeWhile fun child => !decides child).filterMap
            (memberOf numbers))
          ⟨mp.outer ++ rest.outer, mp.inner ++ rest.inner⟩) tag := by
  induction children generalizing mp with
  | nil => rfl
  | cons child children ih =>
    by_cases hd : decides child = true
    · -- the loop breaks here
      rw [List.find?_cons_of_pos hd, List.takeWhile_cons_of_neg (by simp [hd])]
      simp only [decides, decide_eq_true_eq] at hd
      obtain ⟨htag, hk⟩ := hd
      rw [readRelation, if_neg (by simp [htag]), if_pos htag]
      simp only [List.filterMap_nil, polygonOf, List.filter_nil, List.map_nil, List.append_nil]
      unfold committedAs
      rcases hk with hk | ⟨hk, hv⟩ | hk
      · simp [hk]
      · simp [hk, hv]
      · by_cases hinvalid : string2LanduseType (child.asString "v") = .invalid <;>
          simp [hk, hinvalid]
    · rw [List.find?_cons_of_neg hd, List.takeWhile_cons_of_pos (by simpa using hd)]
      by_cases hmember : child.name = "member"
      · rw [readRelation, if_pos hmember]
        by_cases hway : child.asString "type" = "way"
        · rw [if_pos hway]
          cases hnum : numbers (child.asString "ref") with
          | none => simp [memberOf, hnum, ih]
          | some k =>
            by_cases hrole : child.asString "role" = "outer" <;>
              simp [memberOf, hmember, hway, hnum, hrole, ih, polygonOf]
        · simp [memberOf, hway, ih]
      · have hskip : readRelation numbers (child :: children) mp =
            readRelation numbers children mp := by
          rw [readRelation, if_neg hmember]
          by_cases htag : child.name = "tag"
          · simp only [decides, htag, true_and, decide_eq_true_eq, not_or] at hd
            rw [if_pos htag, if_neg hd.1, if_neg hd.2.1, if_neg hd.2.2]
          · rw [if_neg htag]
        simp [hskip, memberOf, hmember, ih]

lemma readRelations_eq (doc : List XmlNode) :
    readRelations (numOf (selectNodes doc "way")) doc = areasOf doc := by
  refine List.map_congr_left fun relation _ => ?_
  rw [readRelation_eq, areaOf]
  cases relation.children.find? decides <;> rfl

end Relations

/-! ### The way pass, one vector at a time -/

variable (K F) in
/-- A vector of the map that the way pass fills: each child of a way adds what it picks. -/
structure Layer (α : Type*) where
  get : MapModel K → List α
  pick : ℕ → XmlNode → Option α
  child : ∀ f k m c, get (readWayChild f k m c) = get m ++ (pick k c).toList
  way : ∀ (m : MapModel K) ways storage, get { m with ways := ways, storage := storage } = get m
  start : ∀ (a : Arithmetic K F) bounds nodes,
    get { readBounds a bounds with nodes := nodes } = []

namespace Layer

variable {α : Type*} (L : Layer K F α)

/-- What the document has for the vector, way by way and child by child. -/
def ofDocument (doc : List XmlNode) : List α :=
  (selectNodes doc "way").zipIdx.flatMap fun w => w.1.children.filterMap (L.pick w.2)

lemma children (f : String → Option ℕ) (k : ℕ) (m : MapModel K) (children : List XmlNode) :
    L.get (children.foldl (readWayChild f k) m) = L.get m ++ children.filterMap (L.pick k) := by
  induction children generalizing m with
  | nil => simp
  | cons c children ih =>
    rw [List.foldl_cons, ih, L.child]
    cases hp : L.pick k c <;> simp [hp]

/-- **The way pass** fills a vector from the document. -/
lemma readWays (a : Arithmetic K F) (g : Growth) (doc : List XmlNode) (bounds : XmlNode) :
    L.get (Route.readWays a g doc bounds).model = L.ofDocument doc := by
  have hread := readNodes_reads a doc bounds
  unfold Route.readWays ofDocument
  induction selectNodes doc "way" using List.reverseRecOn with
  | nil =>
    rw [List.foldl_nil, hread]
    exact L.start a bounds _
  | append_singleton elements e ih =>
    have hways := (foldl_readWay g (readNodes a doc bounds).idToNum
      ⟨(readNodes a doc bounds).model, fun _ => none⟩ (by rw [hread]; rfl) (by rw [hread]; rfl)
      elements).1
    rw [List.foldl_concat, readWay, L.children, L.way, ih, hways, List.length_map,
      List.zipIdx_append, List.flatMap_append]
    simp

end Layer

section Tags

variable (wayNum : ℕ) (category type : String) (m : MapModel K)

/-- The map with the feature of a way in its vector. -/
def addFeature (wayNum : ℕ) (m : MapModel K) : Feature → MapModel K
  | .railway => { m with railways := m.railways ++ [⟨wayNum⟩] }
  | .building => { m with buildings := m.buildings ++ [single wayNum] }
  | .leisure => { m with leisures := m.leisures ++ [single wayNum] }
  | .water => { m with waters := m.waters ++ [single wayNum] }
  | .landuse type => { m with landuses := m.landuses ++ [⟨single wayNum, type⟩] }

lemma readAreaTag_eq : readAreaTag wayNum category type m =
    (featureOf category type).elim m (addFeature wayNum m) := by
  unfold readAreaTag featureOf
  by_cases hrail : category = "railway"
  · simp [hrail, addFeature]
  by_cases hbuild : category = "building"
  · simp [hbuild, addFeature, single]
  by_cases hnat : category = "natural"
  · by_cases hwater : type = "water"
    · simp [hnat, hwater, addFeature, single]
    · by_cases hwood : type ∈ ["wood", "tree_row", "scrub", "grassland"]
      · simp only [List.mem_cons, List.not_mem_nil, or_false] at hwood
        simp [hnat, hwater, hwood, addFeature, single]
      · simp only [List.mem_cons, List.not_mem_nil, or_false] at hwood
        simp [hnat, hwater, hwood]
  by_cases hleisure : category = "leisure" ∨ (category = "landcover" ∧ type = "grass")
  · simp [hrail, hbuild, hnat, hleisure, addFeature, single]
  · rw [not_or] at hleisure
    obtain ⟨hleisure, hcover⟩ := hleisure
    by_cases hland : category = "landuse"
    · by_cases hinvalid : string2LanduseType type = .invalid <;>
        simp [hland, hinvalid, addFeature, single]
    · simp [hrail, hbuild, hnat, hleisure, hcover, hland]

end Tags

/-- A vector of features, in which nothing else is put. -/
def Layer.ofFeatures {α : Type*} (get : MapModel K → List α) (pick : ℕ → Feature → Option α)
    (feature : ∀ k m f, get (addFeature k m f) = get m ++ (pick k f).toList)
    (roads : ∀ (m : MapModel K) roads, get { m with roads := roads } = get m)
    (way : ∀ (m : MapModel K) ways storage,
      get { m with ways := ways, storage := storage } = get m)
    (start : ∀ (a : Arithmetic K F) bounds nodes,
      get { readBounds a bounds with nodes := nodes } = []) : Layer K F α where
  get := get
  pick k child := (tagFeature child).bind (pick k)
  child f k m c := by
    unfold readWayChild tagFeature
    by_cases hnd : c.name = "nd"
    · rw [if_pos hnd, if_neg (by simp [hnd])]
      cases f (c.asString "ref") with
      | none => simp
      | some i => simpa [pushWayNode] using way m _ m.storage
    · rw [if_neg hnd]
      by_cases htag : c.name = "tag"
      · rw [if_pos htag, if_pos htag, readAreaTag_eq]
        have hroad : get (readRoadTag k (c.asString "k") (c.asString "v") m) = get m := by
          unfold readRoadTag
          split_ifs
          · exact roads m _
          · rfl
          · rfl
        cases featureOf (c.asString "k") (c.asString "v") with
        | none => simp [hroad]
        | some feature' => simp [feature, hroad]
      · simp [htag]
  way := way
  start := start

lemma Layer.ofDocument_ofFeatures {α : Type*} {get : MapModel K → List α}
    {pick : ℕ → Feature → Option α} {feature roads way start} (doc : List XmlNode) :
    (Layer.ofFeatures (F := F) get pick feature roads way start).ofDocument doc =
      featuresOf doc pick := by
  unfold Layer.ofDocument featuresOf
  refine List.flatMap_congr fun w _ => ?_
  rw [List.filterMap_filterMap]
  rfl

variable (K F) in
def roadLayer : Layer K F Road where
  get m := m.roads
  pick k child := (roadType child).map (Road.mk k)
  child _ _ _ c := readWayChild_roads c
  way _ _ _ := rfl
  start _ _ _ := rfl

variable (K F) in
def railwayLayer : Layer K F Railway :=
  .ofFeatures (fun m => m.railways) (fun k f => if f = .railway then some ⟨k⟩ else none)
    (by intro k m f; cases f <;> simp [addFeature]) (fun _ _ => rfl) (fun _ _ _ => rfl)
    (fun _ _ _ => rfl)

variable (K F) in
def buildingLayer : Layer K F Multipolygon :=
  .ofFeatures (fun m => m.buildings) (fun k f => if f = .building then some (single k) else none)
    (by intro k m f; cases f <;> simp [addFeature]) (fun _ _ => rfl) (fun _ _ _ => rfl)
    (fun _ _ _ => rfl)

variable (K F) in
def leisureLayer : Layer K F Multipolygon :=
  .ofFeatures (fun m => m.leisures) (fun k f => if f = .leisure then some (single k) else none)
    (by intro k m f; cases f <;> simp [addFeature]) (fun _ _ => rfl) (fun _ _ _ => rfl)
    (fun _ _ _ => rfl)

variable (K F) in
def waterLayer : Layer K F Multipolygon :=
  .ofFeatures (fun m => m.waters) (fun k f => if f = .water then some (single k) else none)
    (by intro k m f; cases f <;> simp [addFeature]) (fun _ _ => rfl) (fun _ _ _ => rfl)
    (fun _ _ _ => rfl)

variable (K F) in
def landuseLayer : Layer K F Landuse :=
  .ofFeatures (fun m => m.landuses) Feature.asLanduse
    (by intro k m f; cases f <;> simp [addFeature, Feature.asLanduse]) (fun _ _ => rfl)
    (fun _ _ _ => rfl) (fun _ _ _ => rfl)

section Read

variable (a : Arithmetic K F) (g : Growth) (doc : List XmlNode) (bounds : XmlNode)

/-- What the map has of its ways when they have been read. -/
structure WaysRead (doc : List XmlNode) (m : MapModel K) : Prop where
  roads : m.roads = roadsOf doc
  railways : m.railways = featuresOf doc fun k f => if f = .railway then some ⟨k⟩ else none
  buildings : m.buildings =
    featuresOf doc fun k f => if f = .building then some (single k) else none
  leisures : m.leisures = featuresOf doc fun k f => if f = .leisure then some (single k) else none
  waters : m.waters = featuresOf doc fun k f => if f = .water then some (single k) else none
  landuses : m.landuses = featuresOf doc Feature.asLanduse

lemma readWays_read : WaysRead doc (readWays a g doc bounds).model where
  roads := by
    refine ((roadLayer K F).readWays a g doc bounds).trans ?_
    refine List.flatMap_congr fun w _ => ?_
    rw [List.map_filterMap]
    rfl
  railways := ((railwayLayer K F).readWays a g doc bounds).trans (Layer.ofDocument_ofFeatures doc)
  buildings := ((buildingLayer K F).readWays a g doc bounds).trans (Layer.ofDocument_ofFeatures doc)
  leisures := ((leisureLayer K F).readWays a g doc bounds).trans (Layer.ofDocument_ofFeatures doc)
  waters := ((waterLayer K F).readWays a g doc bounds).trans (Layer.ofDocument_ofFeatures doc)
  landuses := ((landuseLayer K F).readWays a g doc bounds).trans (Layer.ofDocument_ofFeatures doc)

lemma readWays_ways : (readWays a g doc bounds).model.ways =
    (selectNodes doc "way").map (wayOf (numOf (selectNodes doc "node"))) := by
  have hread := readNodes_reads a doc bounds
  rw [← readNodes_idToNum a doc bounds]
  exact (foldl_readWay g _ ⟨(readNodes a doc bounds).model, fun _ => none⟩
    (by rw [hread]; rfl) (by rw [hread]; rfl) _).1

end Read

end SelfTraining.Route
