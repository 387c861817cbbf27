import Mathlib.Analysis.SpecialFunctions.Log.Basic
import Mathlib.Analysis.SpecialFunctions.Pow.Real
import Mathlib.Analysis.SpecialFunctions.Trigonometric.Basic
import SelfTraining.Route.Lookups

/-!
Index integrity of a map: what is loaded and what is looked up in it.
-/

namespace SelfTraining.Route

open SelfTraining.Order SelfTraining.Lookup

variable {K F : Type*}

/-- A map whose numbers are in range, as the searches take it. -/
def Indexed.routeModel {m : MapModel K} (h : Indexed m) : RouteModel K :=
  { m.toModel with ways_in_range := h.ways, roads_in_range := h.roads }

/-- The lookups of the searches and of the renderer that no query decides. -/
structure LookupsInRange (a : Arithmetic K F) (m : MapModel K) : Prop where
  table : (nodeToRoad m.toModel).isSome
  neighbors : ∀ visited this, (findNeighborsIn a.distance (fun d => a.equal d a.zero) a.less
    visited m.toModel this).isSome
  roads : ∀ r ∈ m.roads, (pathOf m r.way).isSome
  railways : ∀ r ∈ m.railways, (pathOf m r.way).isSome
  areas : ∀ mp ∈ m.buildings ++ m.leisures ++ m.waters ++
    m.landuses.map Landuse.toMultipolygon, (pathFromMP m mp).isSome

section Paths

variable {m : MapModel K} (h : Indexed m)

include h

lemma Indexed.pathFromWay_isSome {way : Way} (hway : way ∈ m.ways) :
    (pathFromWay m.nodes way).isSome := by
  refine mapM_isSome fun i hi => ?_
  rw [List.getElem?_eq_getElem (h.ways way hway i hi)]
  rfl

lemma Indexed.pathOf_isSome {w : ℕ} (hw : w < m.ways.length) : (pathOf m w).isSome := by
  rw [pathOf, List.getElem?_eq_getElem hw]
  exact h.pathFromWay_isSome (List.getElem_mem hw)

lemma Indexed.pathFromMP_isSome {mp : Multipolygon} (hmp : mp.InRange m.ways.length) :
    (pathFromMP m mp).isSome := by
  rw [pathFromMP, Option.isSome_map]
  refine mapM_isSome fun i hi => ?_
  obtain ⟨way, hway⟩ := Option.isSome_iff_exists.mp ((elementAt_isSome m.ways i).mpr (hmp i hi))
  rw [hway]
  exact h.pathFromWay_isSome (mem_of_elementAt hway)

lemma Indexed.lookupsInRange (a : Arithmetic K F) : LookupsInRange a m where
  table := Option.isSome_iff_exists.mpr ⟨_, nodeToRoad_eq h.routeModel.roadsInRange⟩
  neighbors visited this := findNeighborsIn_isSome h.routeModel.roadsInRange this
  roads r hr := h.pathOf_isSome (h.roads r hr)
  railways r hr := h.pathOf_isSome (h.railways r hr)
  areas mp hmp := by
    refine h.pathFromMP_isSome ?_
    simp only [List.mem_append, List.mem_map] at hmp
    rcases hmp with ((hmp | hmp) | hmp) | ⟨l, hl, rfl⟩
    · exact h.buildings mp hmp
    · exact h.leisures mp hmp
    · exact h.waters mp hmp
    · exact h.landuses l hl

end Paths

/-! ### From the loaded map to the constructed one -/

section Construct

variable {a : Arithmetic K F} {g : Growth} {doc : List XmlNode} {bounds : XmlNode}

lemma Indexed.construct {l : MapModel K} (h : Indexed l) {roads : List Road}
    (hroads : roads.Perm l.roads) : Indexed { a.adjustCoordinates l with roads := roads } where
  ways w hw i hi := by
    have := h.ways w hw i hi
    simpa [Arithmetic.adjustCoordinates] using this
  roads r hr := h.roads r (hroads.mem_iff.mp hr)
  railways := h.railways
  buildings := h.buildings
  leisures := h.leisures
  waters := h.waters
  landuses := h.landuses

lemma exists_constructs {l : MapModel K} (h : loadData a g doc = .ok l) :
    ∃ m, Constructs a g doc m := by
  have hsort := insertionSort_sorts (fun r : Road => OrderDual.toDual r.type.toNat) l.roads
  exact ⟨_, l, h, _, hsort, rfl⟩

/-- **Every constructed map is in range**, and so are the lookups in it. -/
lemma Constructs.indexed {more : List XmlNode} {m : MapModel K}
    (hbounds : selectNodes doc "bounds" = bounds :: more)
    (hopen : HandedWaysHaveNodes a g doc bounds) (h : Constructs a g doc m) : Indexed m := by
  obtain ⟨l, hl, roads, hsort, rfl⟩ := h
  rcases loadData_spec hbounds hopen with ⟨-, l', hl', hkept⟩ | ⟨-, herr⟩
  · rw [hl] at hl'
    cases hl'
    exact hkept.indexed.construct hsort.1
  · rw [hl] at herr
    cases herr

end Construct

/-! ### The result -/

section Integrity

variable (a : Arithmetic K F) (g : Growth) (doc : List XmlNode) (input : Node K)

/-- The document is loaded with its numbers in range; a map constructed from it has one node
for each node of the model; and all lookups in it are in range, those of `FindClosestNode`
whatever its `closest_idx` holds at first. -/
structure IndexIntegrity : Prop where
  loaded : ∃ l, loadData a g doc = .ok l ∧ Indexed l
  indexed : ∀ m, Constructs a g doc m → Indexed m
  nodes : ∀ m, Constructs a g doc m → (sNodes m.toModel).length = m.nodes.length
  lookups : ∀ m, Constructs a g doc m → LookupsInRange a m
  closest : ∀ m, Constructs a g doc m → ∀ garbage,
    (findClosestNode a m.toModel input garbage).isSome

/-- Some way element that is a road other than a footway runs through a node element that is
nearer to the query point than the largest `float`. -/
def NearElement (bounds : XmlNode) : Prop :=
  ∃ way ∈ nonFootways doc, ∃ i ∈ (wayOf (readNodes a doc bounds).idToNum way).nodes,
    ∃ node, (selectNodes doc "node")[i]? = some node ∧
      a.less (a.distance input (a.placed bounds node)) a.floatMax = true

variable {a g doc input} {bounds : XmlNode} {more : List XmlNode}

lemma nearOnRoad_iff {m : MapModel K} (hbounds : selectNodes doc "bounds" = bounds :: more)
    (h : Constructs a g doc m) :
    (∃ r ∈ m.roads, NearOnRoad a input m.toModel r) ↔ NearElement a doc input bounds := by
  obtain ⟨hnodes, hroads⟩ := h.reads hbounds
  have hnear : ∀ i, Near a input m.toModel i ↔ ∃ node, (selectNodes doc "node")[i]? = some node ∧
      a.less (a.distance input (a.placed bounds node)) a.floatMax = true := by
    intro i
    rw [Near, hnodes, List.getElem?_map]
    simp
  constructor
  · rintro ⟨r, hr, htype, i, hi, hni⟩
    obtain ⟨way, hway, hi'⟩ := (hroads i).mp ⟨r, hr, htype, hi⟩
    exact ⟨way, hway, i, hi', (hnear i).mp hni⟩
  · rintro ⟨way, hway, i, hi, hni⟩
    obtain ⟨r, hr, htype, hi'⟩ := (hroads i).mpr ⟨way, hway, hi⟩
    exact ⟨r, hr, htype, i, hi', (hnear i).mpr hni⟩

/-- **Index integrity.** For every document with bounds whose open ways handed to
`BuildRings` have nodes: whatever is constructed has all its numbers and lookups in range but
those of `FindClosestNode`. The whole of it holds for a query exactly when every ring has
room in the storage it is built in, and some road other than a footway is near the query. -/
theorem index_integrity_iff (hbounds : selectNodes doc "bounds" = bounds :: more)
    (hopen : HandedWaysHaveNodes a g doc bounds) :
    (∀ m, Constructs a g doc m → Indexed m ∧ (sNodes m.toModel).length = m.nodes.length ∧
      LookupsInRange a m) ∧
    (IndexIntegrity a g doc input ↔
      RingsHaveRoom a g doc bounds ∧ NearElement a doc input bounds) := by
  have hindexed : ∀ m, Constructs a g doc m → Indexed m :=
    fun m hm => hm.indexed hbounds hopen
  have hclosest : ∀ m, Constructs a g doc m → ∀ garbage,
      (findClosestNode a m.toModel input garbage).isSome ↔
        NearElement a doc input bounds ∨ (0 ≤ garbage ∧ garbage < (m.nodes.length : ℤ)) := by
    intro m hm garbage
    rw [← nearOnRoad_iff hbounds hm]
    exact findClosestNode_isSome a input hm.roadsInRange garbage
  refine ⟨fun m hm => ⟨hindexed m hm, length_sNodes _, (hindexed m hm).lookupsInRange a⟩, ?_⟩
  rcases loadData_spec hbounds hopen with ⟨hroom, l, hl, hkept⟩ | ⟨hno, herr⟩
  · constructor
    · intro h
      obtain ⟨m, hm⟩ := exists_constructs hl
      have hsome := (hclosest m hm (-1)).mp (h.closest m hm (-1))
      exact ⟨hroom, hsome.resolve_right (by omega)⟩
    · rintro ⟨-, hnear⟩
      exact ⟨⟨l, hl, hkept.indexed⟩, hindexed, fun m _ => length_sNodes _,
        fun m hm => (hindexed m hm).lookupsInRange a,
        fun m hm garbage => (hclosest m hm garbage).mpr (.inl hnear)⟩
  · constructor
    · intro h
      obtain ⟨l, hl, -⟩ := h.loaded
      rw [herr] at hl
      cases hl
    · exact fun h => absurd h.1 hno

end Integrity

/-! ### Maps on which it holds and fails -/

section Examples

/-- The arithmetic without rounding, for coordinates that are natural numbers. -/
noncomputable def exactArithmetic : Arithmetic ℝ ℝ where
  atof s := (s.toNat?.getD 0 : ℕ)
  literal q := q
  add := (· + ·)
  sub := (· - ·)
  mul := (· * ·)
  div := (· / ·)
  min := min
  log := Real.log
  tan := Real.tan
  sqrt := Real.sqrt
  pow x y := x ^ y
  toFloat := id
  less x y := decide (x < y)
  equal x y := decide (x = y)
  zero := 0
  floatMax := (2 - 2⁻¹ ^ 23) * 2 ^ 127

/-- A full vector doubles. -/
def doubling : Growth where
  next n := if n = 0 then 1 else 2 * n
  lt_next n := by split <;> omega

def unitBounds : XmlNode :=
  .mk "bounds" [("minlat", "0"), ("minlon", "0"), ("maxlat", "1"), ("maxlon", "1")] []

def element (name : String) (attributes : List (String × String)) : XmlNode :=
  .mk name attributes []

/-- A street along the bounds, and a pond between two paths from one of its ends. -/
def village : List XmlNode :=
  [.mk "osm" [] [
    unitBounds,
    element "node" [("id", "1"), ("lat", "0"), ("lon", "0")],
    element "node" [("id", "2"), ("lat", "1"), ("lon", "0")],
    .mk "way" [("id", "3")] [element "nd" [("ref", "1")], element "nd" [("ref", "2")],
      element "tag" [("k", "highway"), ("v", "residential")]],
    .mk "way" [("id", "4")] [element "nd" [("ref", "1")], element "nd" [("ref", "2")]],
    .mk "way" [("id", "5")] [element "nd" [("ref", "1")], element "nd" [("ref", "2")]],
    .mk "relation" [("id", "6")] [
      element "member" [("type", "way"), ("ref", "4"), ("role", "outer")],
      element "member" [("type", "way"), ("ref", "5"), ("role", "outer")],
      element "tag" [("k", "natural"), ("v", "water")]]]]

lemma village_room : RingsHaveRoom exactArithmetic doubling village unitBounds := by
  have hrun : processUnmoved [⟨[0, 1]⟩, ⟨[0, 1]⟩, ⟨[0, 1]⟩] [1, 2] =
      .ok ⟨[3], [], [⟨[0, 1]⟩, ⟨[0, 1]⟩, ⟨[0, 1]⟩, ⟨[0, 1, 1, 0]⟩]⟩ := by decide
  refine ⟨fun outer houter => ?_, fun _ _ => trivial⟩
  change processUnmoved [⟨[0, 1]⟩, ⟨[0, 1]⟩, ⟨[0, 1]⟩] [1, 2] = .ok outer at houter
  rw [hrun] at houter
  cases houter
  refine ⟨.inl (by decide), fun s₁ hs₁ inner hinner => ?_⟩
  cases hinner
  cases hs₁
  exact .inl (by decide)

lemma placed_origin : exactArithmetic.placed unitBounds
    (element "node" [("id", "1"), ("lat", "0"), ("lon", "0")]) = ⟨0, 0⟩ := by
  have hzero : ∀ u w : ℝ, (u - u) / w = 0 := fun u w => by rw [sub_self, zero_div]
  exact congrArg₂ Node.mk (hzero _ _) (hzero _ _)

lemma village_near : NearElement exactArithmetic village ⟨0, 0⟩ unitBounds := by
  refine ⟨_, List.mem_cons_self, 0, by decide, _, rfl, ?_⟩
  rw [placed_origin]
  simp [exactArithmetic, Arithmetic.distance]
  norm_num

lemma exists_village : ∃ m, Constructs exactArithmetic doubling village m := by
  have hbounds : selectNodes village "bounds" = [unitBounds] := rfl
  have hopen : HandedWaysHaveNodes exactArithmetic doubling village unitBounds := by decide
  rcases loadData_spec hbounds hopen with ⟨-, l, hl, -⟩ | ⟨hno, -⟩
  · exact exists_constructs hl
  · exact absurd village_room hno

theorem index_integrity_iff_village :
    IndexIntegrity exactArithmetic doubling village ⟨0, 0⟩ := by
  have hbounds : selectNodes village "bounds" = [unitBounds] := rfl
  exact (index_integrity_iff hbounds (by decide)).2.mpr ⟨village_room, village_near⟩

/-- A map of one footpath. -/
def park : List XmlNode :=
  [.mk "osm" [] [
    unitBounds,
    element "node" [("id", "1"), ("lat", "0"), ("lon", "0")],
    element "node" [("id", "2"), ("lat", "1"), ("lon", "1")],
    .mk "way" [("id", "3")] [element "nd" [("ref", "1")], element "nd" [("ref", "2")],
      element "tag" [("k", "highway"), ("v", "footway")]]]]

lemma park_isSome_iff {m : MapModel ℝ} (hm : Constructs exactArithmetic doubling park m)
    (input : Node ℝ) (garbage : ℤ) :
    (findClosestNode exactArithmetic m.toModel input garbage).isSome ↔
      0 ≤ garbage ∧ garbage < (m.nodes.length : ℤ) := by
  have hbounds : selectNodes park "bounds" = [unitBounds] := rfl
  have hnone : ¬ ∃ r ∈ m.roads, NearOnRoad exactArithmetic input m.toModel r := by
    intro hnear
    obtain ⟨way, hway, -⟩ := (nearOnRoad_iff hbounds hm).mp hnear
    exact absurd hway List.not_mem_nil
  rw [findClosestNode_isSome exactArithmetic input hm.roadsInRange]
  exact or_iff_right hnone

lemma exists_park : ∃ m, Constructs exactArithmetic doubling park m :=
  exists_constructs (l := (readWays exactArithmetic doubling park unitBounds).model) rfl

/-- The park is loaded, but no node of it is taken. -/
theorem park_closest_out_of_range :
    HandedWaysHaveNodes exactArithmetic doubling park unitBounds ∧
    ∃ m, Constructs exactArithmetic doubling park m ∧
      findClosestNode exactArithmetic m.toModel ⟨1 / 10, 1 / 10⟩ (-1) = none := by
  obtain ⟨m, hm⟩ := exists_park
  refine ⟨by decide, m, hm, ?_⟩
  rw [← Option.not_isSome_iff_eq_none, park_isSome_iff hm]
  omega

/-- Two rings in one relation, with four ways in storage for four: the first ring moves the
ways, and the second is looked for through the old pointer. -/
def lakes : List XmlNode :=
  [.mk "osm" [] [
    unitBounds,
    element "node" [("id", "1")], element "node" [("id", "2")],
    element "node" [("id", "3")], element "node" [("id", "4")],
    .mk "way" [("id", "5")] [element "nd" [("ref", "1")], element "nd" [("ref", "2")]],
    .mk "way" [("id", "6")] [element "nd" [("ref", "2")], element "nd" [("ref", "1")]],
    .mk "way" [("id", "7")] [element "nd" [("ref", "3")], element "nd" [("ref", "4")]],
    .mk "way" [("id", "8")] [element "nd" [("ref", "4")], element "nd" [("ref", "3")]],
    .mk "relation" [("id", "9")] [
      element "member" [("type", "way"), ("ref", "5"), ("role", "outer")],
      element "member" [("type", "way"), ("ref", "6"), ("role", "outer")],
      element "member" [("type", "way"), ("ref", "7"), ("role", "outer")],
      element "member" [("type", "way"), ("ref", "8"), ("role", "outer")],
      element "tag" [("k", "natural"), ("v", "water")]]]]

example : loadData exactArithmetic doubling lakes = .error .danglingPointer := rfl

end Examples

end SelfTraining.Route
