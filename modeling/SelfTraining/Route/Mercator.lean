import Mathlib
import SelfTraining.Route.IndexIntegrity

/-!
The projection of a map.

`AdjustCoordinates` projects the nodes of the document, moves the lower left corner of the bounds
to the origin and divides by the shorter side of the bounds. Over exact real numbers the result
is similar to the projected document, and `m_MetricScale` is the factor between the two.
-/

namespace SelfTraining.Route

open SelfTraining.Distance

/-- The arithmetic of the real numbers; how the document writes them is left open. -/
structure OverReals (a : Arithmetic ℝ ℝ) : Prop where
  literal : ∀ q, a.literal q = q
  add : a.add = (· + ·)
  sub : a.sub = (· - ·)
  mul : a.mul = (· * ·)
  div : a.div = (· / ·)
  min : a.min = min
  log : a.log = Real.log
  tan : a.tan = Real.tan

/-- A node of the document in the projection, before it is moved and scaled. -/
def Arithmetic.projected {K F : Type*} (a : Arithmetic K F) (node : Node K) : Node K :=
  ⟨a.lon2xm node.x, a.lat2ym node.y⟩

namespace OverReals

variable {a : Arithmetic ℝ ℝ} (h : OverReals a)

include h

lemma lon2xm_eq (lon : ℝ) : a.lon2xm lon = lon * (a.degToRad / 2 * 6378137) := by
  simp only [Arithmetic.lon2xm, Arithmetic.earthRadius, h.mul, h.div, h.literal]
  push_cast
  ring

lemma lat2ym_eq (lat : ℝ) : a.lat2ym lat =
    Real.log (Real.tan ((lat / 360 + 1 / 4) * a.pi)) / 2 * 6378137 := by
  have harg : lat * (2 * a.pi / 360) / 2 + a.pi / 4 = (lat / 360 + 1 / 4) * a.pi := by ring
  simp only [Arithmetic.lat2ym, Arithmetic.earthRadius, Arithmetic.degToRad, h.mul, h.div, h.add,
    h.log, h.tan, h.literal]
  push_cast
  rw [harg]

lemma pi_bounds : 3.1415 < a.pi ∧ a.pi < 3.1416 := by
  rw [Arithmetic.pi, h.literal]
  norm_num

lemma degToRad_pos : 0 < a.degToRad := by
  have hpi := h.pi_bounds.1
  simp only [Arithmetic.degToRad, h.mul, h.div, h.literal]
  push_cast
  linarith

lemma lon2xm_strictMono : StrictMono a.lon2xm := by
  have hd := h.degToRad_pos
  intro u v huv
  rw [h.lon2xm_eq, h.lon2xm_eq]
  exact mul_lt_mul_of_pos_right huv (by positivity)

lemma angle_mem {lat : ℝ} (hlat : lat ∈ Set.Icc (-89 : ℝ) 89) :
    (lat / 360 + 1 / 4) * a.pi ∈ Set.Ioo 0 (Real.pi / 2) := by
  obtain ⟨hlow, hhigh⟩ := hlat
  obtain ⟨hpi, hpi'⟩ := h.pi_bounds
  have hreal := Real.pi_gt_d4
  constructor
  · have hpos : 0 < lat / 360 + 1 / 4 := by linarith
    positivity
  · have hle : lat / 360 + 1 / 4 ≤ 179 / 360 := by linarith
    calc (lat / 360 + 1 / 4) * a.pi ≤ 179 / 360 * a.pi := by gcongr
      _ ≤ 179 / 360 * 3.1416 := by gcongr
      _ < Real.pi / 2 := by linarith

lemma lat2ym_strictMonoOn : StrictMonoOn a.lat2ym (Set.Icc (-89) 89) := by
  intro u hu v hv huv
  obtain ⟨hu0, hu1⟩ := h.angle_mem hu
  obtain ⟨hv0, hv1⟩ := h.angle_mem hv
  have hpi := h.pi_bounds.1
  have hangle : (u / 360 + 1 / 4) * a.pi < (v / 360 + 1 / 4) * a.pi :=
    mul_lt_mul_of_pos_right (by linarith) (by linarith)
  have htan := Real.tan_lt_tan_of_nonneg_of_lt_pi_div_two hu0.le hv1 hangle
  have hpos := Real.tan_pos_of_pos_of_lt_pi_div_two hu0 hu1
  have hlog := Real.log_lt_log hpos htan
  rw [h.lat2ym_eq, h.lat2ym_eq]
  linarith

end OverReals

/-! ### The bounds -/

/-- The bounds have an inside, which keeps away from the poles. -/
structure ProperBounds (m : MapModel ℝ) : Prop where
  lon : m.minLon < m.maxLon
  lat : m.minLat < m.maxLat
  south : -89 ≤ m.minLat
  north : m.maxLat ≤ 89

/-- The node lies within the bounds, in the coordinates of the document. -/
def InBounds (m : MapModel ℝ) (node : Node ℝ) : Prop :=
  node.x ∈ Set.Icc m.minLon m.maxLon ∧ node.y ∈ Set.Icc m.minLat m.maxLat

namespace ProperBounds

variable {a : Arithmetic ℝ ℝ} (h : OverReals a) {m : MapModel ℝ} (hb : ProperBounds m)

include h hb

lemma lat2ym_lt : a.lat2ym m.minLat < a.lat2ym m.maxLat :=
  h.lat2ym_strictMonoOn ⟨hb.south, hb.lat.le.trans hb.north⟩
    ⟨hb.south.trans hb.lat.le, hb.north⟩ hb.lat

omit hb in
lemma metricScale_eq_min : a.metricScale m =
    min (a.lon2xm m.maxLon - a.lon2xm m.minLon) (a.lat2ym m.maxLat - a.lat2ym m.minLat) := by
  simp only [Arithmetic.metricScale, h.min, h.sub]

lemma metricScale_pos : 0 < a.metricScale m := by
  rw [metricScale_eq_min h]
  exact lt_min (sub_pos.mpr (h.lon2xm_strictMono hb.lon)) (sub_pos.mpr (hb.lat2ym_lt h))

omit hb in
lemma adjust_eq (node : Node ℝ) : a.adjust m node =
    ⟨(a.lon2xm node.x - a.lon2xm m.minLon) / a.metricScale m,
      (a.lat2ym node.y - a.lat2ym m.minLat) / a.metricScale m⟩ := by
  simp only [Arithmetic.adjust, h.sub, h.div]

lemma scale_dist (p q : Node ℝ) :
    a.metricScale m * euclid.dist (a.adjust m p) (a.adjust m q) =
      euclid.dist (a.projected p) (a.projected q) := by
  have hpos := hb.metricScale_pos h
  have hscale : ∀ u v w : ℝ, u / a.metricScale m = v → w = u ^ 2 →
      w = a.metricScale m ^ 2 * v ^ 2 := by
    rintro u v w rfl rfl
    field_simp
  rw [adjust_eq h, adjust_eq h]
  simp only [euclid, Arithmetic.projected]
  rw [← Real.sqrt_sq hpos.le, ← Real.sqrt_mul (sq_nonneg _), Real.sqrt_sq hpos.le, mul_add]
  congr 2
  · refine (hscale (a.lon2xm p.x - a.lon2xm q.x) _ _ ?_ rfl).symm
    ring
  · refine (hscale (a.lat2ym p.y - a.lat2ym q.y) _ _ ?_ rfl).symm
    ring

lemma inBounds_iff {node : Node ℝ} (hlat : node.y ∈ Set.Icc (-89 : ℝ) 89) :
    InBounds m node ↔
      (a.adjust m node).x ∈ Set.Icc 0
        ((a.lon2xm m.maxLon - a.lon2xm m.minLon) / a.metricScale m) ∧
      (a.adjust m node).y ∈ Set.Icc 0
        ((a.lat2ym m.maxLat - a.lat2ym m.minLat) / a.metricScale m) := by
  have hpos := hb.metricScale_pos h
  have hmin : m.minLat ∈ Set.Icc (-89 : ℝ) 89 := ⟨hb.south, hb.lat.le.trans hb.north⟩
  have hmax : m.maxLat ∈ Set.Icc (-89 : ℝ) 89 := ⟨hb.south.trans hb.lat.le, hb.north⟩
  rw [adjust_eq h]
  simp only [Set.mem_Icc, InBounds, div_le_div_iff_of_pos_right hpos, sub_le_sub_iff_right,
    h.lon2xm_strictMono.le_iff_le, h.lat2ym_strictMonoOn.le_iff_le hlat hmax,
    le_div_iff₀ hpos, zero_mul, sub_nonneg, h.lat2ym_strictMonoOn.le_iff_le hmin hlat]

end ProperBounds

/-! ### The map -/

lemma metricScale_eq {K F : Type*} {a : Arithmetic K F} {g : Growth} {doc : List XmlNode}
    {bounds : XmlNode} {more : List XmlNode} {m : MapModel K}
    (hbounds : selectNodes doc "bounds" = bounds :: more) (hm : Constructs a g doc m) :
    m.metricScale = a.metricScale (readBounds a bounds) := by
  obtain ⟨l, hl, roads, hsort, rfl⟩ := hm
  have hbase := loadData_base hbounds hl
  simp only [MapModel.base, Prod.mk.injEq] at hbase
  obtain ⟨-, h1, h2, h3, h4⟩ := hbase
  change a.metricScale l = _
  simp only [Arithmetic.metricScale, h1, h2, h3, h4]

lemma mul_pathLen {ι : Type*} {c : ℝ} {v w : ι → ι → ℝ} (hvw : ∀ i j, c * v i j = w i j)
    (path : List ι) : c * pathLen v path = pathLen w path := by
  induction path with
  | nil => simp [pathLen]
  | cons i path ih =>
    cases path with
    | nil => simp
    | cons j path => rw [pathLen_cons_cons, pathLen_cons_cons, mul_add, hvw, ih]

/-- **A map is similar to its projected document.** Over real numbers, and for bounds that have
an inside away from the poles: the scale of a constructed map is positive; the length of each
sequence of nodes, in this scale, is its length in the projection, whatever the bounds are; and
the nodes within the bounds are those in a box at the origin whose shorter side is one. -/
theorem map_similar {a : Arithmetic ℝ ℝ} (h : OverReals a) {g : Growth} {doc : List XmlNode}
    {bounds : XmlNode} {more : List XmlNode} {m : MapModel ℝ}
    (hbounds : selectNodes doc "bounds" = bounds :: more) (hm : Constructs a g doc m)
    (hb : ProperBounds (readBounds a bounds)) :
    0 < m.metricScale ∧
    m.nodes = (selectNodes doc "node").map (a.placed bounds) ∧
    (∀ path : List XmlNode,
      m.metricScale * pathLen (fun u v => euclid.dist (a.placed bounds u) (a.placed bounds v))
        path =
      pathLen (fun u v => euclid.dist (a.projected (a.position u)) (a.projected (a.position v)))
        path) ∧
    ∃ width height, min width height = 1 ∧ ∀ node : XmlNode,
      (a.position node).y ∈ Set.Icc (-89 : ℝ) 89 →
      (InBounds (readBounds a bounds) (a.position node) ↔
        (a.placed bounds node).x ∈ Set.Icc 0 width ∧
          (a.placed bounds node).y ∈ Set.Icc 0 height) := by
  have hscale : m.metricScale = a.metricScale (readBounds a bounds) := metricScale_eq hbounds hm
  have hpos := hb.metricScale_pos h
  refine ⟨hscale ▸ hpos, (hm.reads hbounds).1, fun path => ?_, _, _, ?_,
    fun node hlat => hb.inBounds_iff h hlat⟩
  · rw [hscale]
    exact mul_pathLen (fun u v => hb.scale_dist h _ _) path
  · rw [min_div_div_right hpos.le, ← ProperBounds.metricScale_eq_min h, div_self hpos.ne']

/-! ### The village -/

lemma exactArithmetic_overReals : OverReals exactArithmetic where
  literal _ := rfl
  add := rfl
  sub := rfl
  mul := rfl
  div := rfl
  min := rfl
  log := rfl
  tan := rfl

lemma atof_zero : exactArithmetic.atof "0" = 0 := by
  have h : "0".toNat?.getD 0 = 0 := by rw [show "0" = Nat.repr 0 by rfl, Nat.toNat?_repr]; rfl
  exact (congrArg (fun n : ℕ => (n : ℝ)) h).trans Nat.cast_zero

lemma atof_one : exactArithmetic.atof "1" = 1 := by
  have h : "1".toNat?.getD 0 = 1 := by rw [show "1" = Nat.repr 1 by rfl, Nat.toNat?_repr]; rfl
  exact (congrArg (fun n : ℕ => (n : ℝ)) h).trans Nat.cast_one

lemma unitBounds_proper : ProperBounds (readBounds exactArithmetic unitBounds) := by
  have hlow : ∀ key, unitBounds.asString key = "0" →
      exactArithmetic.atof (unitBounds.asString key) = 0 := fun key h => h ▸ atof_zero
  have hhigh : ∀ key, unitBounds.asString key = "1" →
      exactArithmetic.atof (unitBounds.asString key) = 1 := fun key h => h ▸ atof_one
  constructor <;> simp only [readBounds, hlow "minlat" rfl, hlow "minlon" rfl,
    hhigh "maxlat" rfl, hhigh "maxlon" rfl] <;> norm_num

theorem map_similar_village : ∃ m, Constructs exactArithmetic doubling village m ∧
    0 < m.metricScale ∧
    m.nodes = (selectNodes village "node").map (exactArithmetic.placed unitBounds) := by
  obtain ⟨m, hm⟩ := exists_village
  obtain ⟨hpos, hnodes, -⟩ := map_similar exactArithmetic_overReals rfl hm unitBounds_proper
  exact ⟨m, hm, hpos, hnodes⟩

end SelfTraining.Route
