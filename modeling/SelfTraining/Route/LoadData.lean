import SelfTraining.Route.WayStorage
import SelfTraining.Lib.Order

/-!
Loading a map: the document tree, the passes of `LoadData` over its nodes, ways and
relations, and the constructor of `Model`.

Each pass gives the elements it reads numbers, by the place they get in a vector, and looks
up the ids of the elements that came before. An id that comes twice names the later element,
and an id that is not there is passed over.
-/

namespace SelfTraining.Route

open SelfTraining.Order

/-! ### The document -/

/-- A node of the document tree; a text is one without a name. -/
inductive XmlNode
  | mk (name : String) (attributes : List (String × String)) (children : List XmlNode)

namespace XmlNode

def name : XmlNode → String
  | mk n _ _ => n

def children : XmlNode → List XmlNode
  | mk _ _ c => c

/-- `attribute(key).as_string()`. -/
def asString (key : String) : XmlNode → String
  | mk _ a _ => (a.lookup key).getD ""

end XmlNode

/-- `select_nodes("/osm/...")`. -/
def selectNodes (doc : List XmlNode) (name : String) : List XmlNode :=
  (doc.filter fun root => root.name = "osm").flatMap fun osm =>
    osm.children.filter fun node => node.name = name

/-! ### The map -/

/-- The arithmetic of `double` and of `float`; nothing is assumed of it. -/
structure Arithmetic (K F : Type*) where
  atof : String → K
  literal : ℚ → K
  add : K → K → K
  sub : K → K → K
  mul : K → K → K
  div : K → K → K
  min : K → K → K
  log : K → K
  tan : K → K
  sqrt : K → K
  pow : K → K → K
  toFloat : K → F
  less : F → F → Bool
  equal : F → F → Bool
  zero : F
  floatMax : F

structure Railway where
  way : ℕ
  deriving DecidableEq

inductive LanduseType
  | invalid | commercial | construction | grass | forest | industrial | railway | residential
  deriving DecidableEq

structure Landuse extends Multipolygon where
  type : LanduseType
  deriving DecidableEq

/-- All members of `Model`, with the storage of `m_Ways`. -/
structure MapModel (K : Type*) extends Model K where
  storage : Storage
  railways : List Railway
  buildings : List Multipolygon
  leisures : List Multipolygon
  waters : List Multipolygon
  landuses : List Landuse
  minLat : K
  maxLat : K
  minLon : K
  maxLon : K

def string2RoadType (type : String) : RoadType :=
  if type = "motorway" then .motorway
  else if type = "trunk" then .trunk
  else if type = "primary" then .primary
  else if type = "secondary" then .secondary
  else if type = "tertiary" then .tertiary
  else if type = "residential" then .residential
  else if type = "living_street" then .residential
  else if type = "service" then .service
  else if type = "unclassified" then .unclassified
  else if type = "footway" then .footway
  else if type = "bridleway" then .footway
  else if type = "steps" then .footway
  else if type = "path" then .footway
  else if type = "pedestrian" then .footway
  else .invalid

def string2LanduseType (type : String) : LanduseType :=
  if type = "commercial" then .commercial
  else if type = "construction" then .construction
  else if type = "grass" then .grass
  else if type = "forest" then .forest
  else if type = "industrial" then .industrial
  else if type = "railway" then .railway
  else if type = "residential" then .residential
  else .invalid

/-! ### The passes -/

/-- The map so far, and the numbers of the ids read in a pass. -/
structure Reading (K : Type*) where
  model : MapModel K
  idToNum : String → Option ℕ

variable {K F : Type*}

/-- The members as their initializers leave them, and the bounds. -/
def readBounds (a : Arithmetic K F) (bounds : XmlNode) : MapModel K where
  nodes := []
  ways := []
  roads := []
  metricScale := a.literal 1
  storage := ⟨0, 0⟩
  railways := []
  buildings := []
  leisures := []
  waters := []
  landuses := []
  minLat := a.atof (bounds.asString "minlat")
  maxLat := a.atof (bounds.asString "maxlat")
  minLon := a.atof (bounds.asString "minlon")
  maxLon := a.atof (bounds.asString "maxlon")

/-- A node with the coordinates of the document. -/
def Arithmetic.position (a : Arithmetic K F) (node : XmlNode) : Node K :=
  ⟨a.atof (node.asString "lon"), a.atof (node.asString "lat")⟩

def readNode (a : Arithmetic K F) (p : Reading K) (node : XmlNode) : Reading K where
  model := { p.model with nodes := p.model.nodes ++ [a.position node] }
  idToNum := Function.update p.idToNum (node.asString "id") (some p.model.nodes.length)

/-- `new_way.nodes.emplace_back(...)`, where `new_way` is the last way. -/
def pushWayNode (wayNum i : ℕ) (m : MapModel K) : MapModel K :=
  { m with ways := m.ways.modify wayNum fun w => ⟨w.nodes ++ [i]⟩ }

/-- What a tag of a way adds, after the roads. -/
def readAreaTag (wayNum : ℕ) (category type : String) (m : MapModel K) : MapModel K :=
  if category = "railway" then { m with railways := m.railways ++ [⟨wayNum⟩] }
  else if category = "building" then
    { m with buildings := m.buildings ++ [⟨[(wayNum : ℤ)], []⟩] }
  else if category = "leisure" ∨
      (category = "natural" ∧
        (type = "wood" ∨ type = "tree_row" ∨ type = "scrub" ∨ type = "grassland")) ∨
      (category = "landcover" ∧ type = "grass") then
    { m with leisures := m.leisures ++ [⟨[(wayNum : ℤ)], []⟩] }
  else if category = "natural" ∧ type = "water" then
    { m with waters := m.waters ++ [⟨[(wayNum : ℤ)], []⟩] }
  else if category = "landuse" then
    if string2LanduseType type ≠ .invalid then
      { m with landuses := m.landuses ++ [⟨⟨[(wayNum : ℤ)], []⟩, string2LanduseType type⟩] }
    else m
  else m

def readRoadTag (wayNum : ℕ) (category type : String) (m : MapModel K) : MapModel K :=
  if category = "highway" then
    if string2RoadType type ≠ .invalid then
      { m with roads := m.roads ++ [⟨wayNum, string2RoadType type⟩] }
    else m
  else m

/-- One turn of the loop over the children of a way. -/
def readWayChild (nodeIdToNum : String → Option ℕ) (wayNum : ℕ) (m : MapModel K)
    (child : XmlNode) : MapModel K :=
  if child.name = "nd" then
    match nodeIdToNum (child.asString "ref") with
    | some i => pushWayNode wayNum i m
    | none => m
  else if child.name = "tag" then
    readAreaTag wayNum (child.asString "k") (child.asString "v")
      (readRoadTag wayNum (child.asString "k") (child.asString "v") m)
  else m

def readWay (g : Growth) (nodeIdToNum : String → Option ℕ) (p : Reading K) (way : XmlNode) :
    Reading K where
  model := way.children.foldl (readWayChild nodeIdToNum p.model.ways.length)
    { p.model with
      ways := p.model.ways ++ [⟨[]⟩]
      storage := g.emplaceBack p.model.ways.length p.model.storage }
  idToNum := Function.update p.idToNum (way.asString "id") (some p.model.ways.length)

/-- The multipolygon that a relation commits, and to which vector. -/
inductive Committed
  | nothing
  | building (mp : Multipolygon)
  | water (mp : Multipolygon)
  | landuse (mp : Multipolygon) (type : LanduseType)

/-- The loop over the children of a relation up to the tag it breaks at, with the local
vectors `outer` and `inner`. -/
def readRelation (wayIdToNum : String → Option ℕ) : List XmlNode → Multipolygon → Committed
  | [], _ => .nothing
  | child :: children, mp =>
    if child.name = "member" then
      if child.asString "type" = "way" then
        match wayIdToNum (child.asString "ref") with
        | none => readRelation wayIdToNum children mp
        | some wayNum =>
          if child.asString "role" = "outer" then
            readRelation wayIdToNum children { mp with outer := mp.outer ++ [(wayNum : ℤ)] }
          else
            readRelation wayIdToNum children { mp with inner := mp.inner ++ [(wayNum : ℤ)] }
      else readRelation wayIdToNum children mp
    else if child.name = "tag" then
      if child.asString "k" = "building" then .building mp
      else if child.asString "k" = "natural" ∧ child.asString "v" = "water" then .water mp
      else if child.asString "k" = "landuse" then
        if string2LanduseType (child.asString "v") ≠ .invalid then
          .landuse mp (string2LanduseType (child.asString "v"))
        else .nothing
      else readRelation wayIdToNum children mp
    else readRelation wayIdToNum children mp

/-- `commit`, and `BuildRings` on a water or a landuse. -/
def commit (g : Growth) (m : MapModel K) : Committed → Except LoadFault (MapModel K)
  | .nothing => .ok m
  | .building mp => .ok { m with buildings := m.buildings ++ [mp] }
  | .water mp =>
    match buildRingsStored g m.ways m.storage mp with
    | .error e => .error e
    | .ok (ways, storage, mp') =>
      .ok { m with ways := ways, storage := storage, waters := m.waters ++ [mp'] }
  | .landuse mp type =>
    match buildRingsStored g m.ways m.storage mp with
    | .error e => .error e
    | .ok (ways, storage, mp') =>
      .ok { m with ways := ways, storage := storage, landuses := m.landuses ++ [⟨mp', type⟩] }

def commitAll (g : Growth) : MapModel K → List Committed → Except LoadFault (MapModel K)
  | m, [] => .ok m
  | m, c :: cs =>
    match commit g m c with
    | .error e => .error e
    | .ok m' => commitAll g m' cs

/-! ### `LoadData` and the constructor -/

def readNodes (a : Arithmetic K F) (doc : List XmlNode) (bounds : XmlNode) : Reading K :=
  (selectNodes doc "node").foldl (readNode a) ⟨readBounds a bounds, fun _ => none⟩

def readWays (a : Arithmetic K F) (g : Growth) (doc : List XmlNode) (bounds : XmlNode) :
    Reading K :=
  (selectNodes doc "way").foldl (readWay g (readNodes a doc bounds).idToNum)
    ⟨(readNodes a doc bounds).model, fun _ => none⟩

def readRelations (wayIdToNum : String → Option ℕ) (doc : List XmlNode) : List Committed :=
  (selectNodes doc "relation").map fun relation =>
    readRelation wayIdToNum relation.children ⟨[], []⟩

def loadData (a : Arithmetic K F) (g : Growth) (doc : List XmlNode) :
    Except LoadFault (MapModel K) :=
  match selectNodes doc "bounds" with
  | [] => .error .boundsNotDefined
  | bounds :: _ =>
    commitAll g (readWays a g doc bounds).model
      (readRelations (readWays a g doc bounds).idToNum doc)

namespace Arithmetic

variable (a : Arithmetic K F)

def pi : K := a.literal 3.14159265358979323846264338327950288

def degToRad : K := a.div (a.mul (a.literal 2) a.pi) (a.literal 360)

def earthRadius : K := a.literal 6378137

def lat2ym (lat : K) : K :=
  a.mul (a.div (a.log (a.tan (a.add (a.div (a.mul lat a.degToRad) (a.literal 2))
    (a.div a.pi (a.literal 4))))) (a.literal 2)) a.earthRadius

def lon2xm (lon : K) : K := a.mul (a.div (a.mul lon a.degToRad) (a.literal 2)) a.earthRadius

/-- `m_MetricScale`. -/
def metricScale (m : MapModel K) : K :=
  a.min (a.sub (a.lon2xm m.maxLon) (a.lon2xm m.minLon))
    (a.sub (a.lat2ym m.maxLat) (a.lat2ym m.minLat))

/-- The coordinates of a node on the map, whose bounds give the scale. -/
def adjust (m : MapModel K) (node : Node K) : Node K where
  x := a.div (a.sub (a.lon2xm node.x) (a.lon2xm m.minLon)) (a.metricScale m)
  y := a.div (a.sub (a.lat2ym node.y) (a.lat2ym m.minLat)) (a.metricScale m)

def adjustCoordinates (m : MapModel K) : MapModel K :=
  { m with metricScale := a.metricScale m, nodes := m.nodes.map (a.adjust m) }

/-- `distance`, a `float`. -/
def distance (p q : Node K) : F :=
  a.toFloat (a.sqrt (a.add (a.pow (a.sub p.x q.x) (a.literal 2))
    (a.pow (a.sub p.y q.y) (a.literal 2))))

end Arithmetic

/-- The number of a road type in its enumeration. -/
def RoadType.toNat : RoadType → ℕ
  | .invalid => 0
  | .unclassified => 1
  | .service => 2
  | .residential => 3
  | .tertiary => 4
  | .secondary => 5
  | .primary => 6
  | .trunk => 7
  | .motorway => 8
  | .footway => 9

/-- An outcome of the constructor: the roads are sorted, and `std::sort` is free in how it
orders roads of one type. -/
def Constructs (a : Arithmetic K F) (g : Growth) (doc : List XmlNode) (m : MapModel K) : Prop :=
  ∃ l, loadData a g doc = .ok l ∧ ∃ roads,
    Sorts (fun r s => decide (r.type.toNat < s.type.toNat)) l.roads roads ∧
    m = { a.adjustCoordinates l with roads := roads }

end SelfTraining.Route
