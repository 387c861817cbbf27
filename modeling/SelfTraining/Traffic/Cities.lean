import SelfTraining.Lib.Lookup
import SelfTraining.Traffic.Journey

/-!
The two cities of the simulator, and the ways of their vehicles.

Objects are numbered in the order in which they are constructed. An intersection takes two
numbers, for itself and for its traffic light.
-/

namespace SelfTraining.Traffic

open Steps

/-! ### Creating the traffic objects -/

/-- A vehicle with its first street and destination. -/
structure Start where
  vehicle : Id
  street : Id
  destination : Id
  deriving DecidableEq

/-- The vectors of `main`, with the next number in `_idCnt`. -/
structure TrafficObjects where
  idCnt : ℕ
  intersections : List Id
  streets : List Id
  vehicles : List Start
  network : Network

namespace TrafficObjects

def empty : TrafficObjects := ⟨0, [], [], [], .unbuilt 0⟩

def pushIntersections : ℕ → TrafficObjects → TrafficObjects
  | 0, o => o
  | n + 1, o => pushIntersections n
    { o with intersections := o.intersections ++ [o.idCnt], idCnt := o.idCnt + 2 }

def pushStreet (o : TrafficObjects) : TrafficObjects :=
  { o with streets := o.streets ++ [o.idCnt], idCnt := o.idCnt + 1 }

/-- The calls of both setters of a street; `none` where `at` throws. -/
def connect (o : TrafficObjects) (ns nIn nOut : ℕ) : Option TrafficObjects := do
  let street ← o.streets[ns]?
  let i ← o.intersections[nIn]?
  let j ← o.intersections[nOut]?
  return { o with network := (o.network.setInIntersection street i).setOutIntersection street j }

/-- The loop over the vehicles from `nv` on, each with the destination at the index given. -/
def pushVehicles (destination : ℕ → ℕ) (nv : ℕ) : ℕ → TrafficObjects → Option TrafficObjects
  | 0, o => some o
  | n + 1, o => do
    let street ← o.streets[nv]?
    let i ← o.intersections[destination nv]?
    pushVehicles destination (nv + 1) n
      { o with vehicles := o.vehicles ++ [⟨o.idCnt, street, i⟩], idCnt := o.idCnt + 1 }

end TrafficObjects

/-- An `int` where it is compared with a `size_t`. -/
def sizeOfInt (n : ℤ) : ℕ := (n % 2 ^ 64).toNat

open TrafficObjects in
def createTrafficObjects_Paris (nVehicles : ℤ) : Option TrafficObjects := do
  let o := pushIntersections 9 empty
  let o ← (List.range 8).foldlM (fun o ns => o.pushStreet.connect ns ns 8) o
  pushVehicles (fun _ => 8) 0 (sizeOfInt nVehicles) o

open TrafficObjects in
def createTrafficObjects_NYC (nVehicles : ℤ) : Option TrafficObjects := do
  let o := pushIntersections 6 empty
  let o := (List.range 7).foldl (fun o _ => o.pushStreet) o
  let o ← o.connect 0 0 1
  let o ← o.connect 1 1 2
  let o ← o.connect 2 2 3
  let o ← o.connect 3 3 4
  let o ← o.connect 4 4 5
  let o ← o.connect 5 5 0
  let o ← o.connect 6 0 3
  pushVehicles (fun nv => nv) 0 (sizeOfInt nVehicles) o

/-! ### What is created -/

/-- The numbers of `n` objects of one kind that are constructed one after the other. -/
def ids (first width n : ℕ) : List Id := (List.range n).map fun k => first + width * k

@[simp] lemma length_ids (first width n : ℕ) : (ids first width n).length = n := by simp [ids]

lemma getD_ids {first width n k : ℕ} (hk : k < n) :
    (ids first width n).getD k 0 = first + width * k := by
  simp [ids, hk]

lemma ids_succ (first width n : ℕ) :
    ids first width (n + 1) = ids first width n ++ [first + width * n] := by
  simp [ids, List.range_succ]

/-- Eight streets that lead from a square each to the central plaza. -/
def paris : Layout where
  spans := (List.range 8).map fun n => ⟨18 + n, 2 * n, 16⟩
  nodup := by decide
  ends_ne := by decide

/-- A ring of six streets and one across. -/
def nyc : Layout where
  spans := [⟨12, 0, 2⟩, ⟨13, 2, 4⟩, ⟨14, 4, 6⟩, ⟨15, 6, 8⟩, ⟨16, 8, 10⟩, ⟨17, 10, 0⟩, ⟨18, 0, 6⟩]
  nodup := by decide
  ends_ne := by decide

namespace TrafficObjects

/-- The vehicles from `nv` on, as long as there are a street and a destination for each. -/
def starts (o : TrafficObjects) (destination : ℕ → ℕ) (nv n : ℕ) : List Start :=
  (List.range n).map fun k => ⟨o.idCnt + k, o.streets.getD (nv + k) 0,
    o.intersections.getD (destination (nv + k)) 0⟩

/-- The loop comes to its end exactly when `at` never throws. -/
lemma pushVehicles_eq_some {destination : ℕ → ℕ} {nv n : ℕ} {o o' : TrafficObjects} :
    pushVehicles destination nv n o = some o' ↔
      (∀ k < n, nv + k < o.streets.length ∧ destination (nv + k) < o.intersections.length) ∧
      o' = { o with
        vehicles := o.vehicles ++ o.starts destination nv n
        idCnt := o.idCnt + n } := by
  induction n generalizing nv o with
  | zero => simp [pushVehicles, starts, eq_comm]
  | succ n ih =>
    by_cases hnv : nv < o.streets.length ∧ destination nv < o.intersections.length
    · obtain ⟨hs, hd⟩ := hnv
      simp only [pushVehicles, List.getElem?_eq_getElem hs, List.getElem?_eq_getElem hd,
        Option.bind_eq_bind, Option.bind_some, ih]
      refine and_congr ?_ (Eq.congr_right ?_)
      · constructor
        · intro h k hk
          cases k with
          | zero => exact ⟨hs, hd⟩
          | succ k => simpa [Nat.add_right_comm, Nat.add_assoc] using h k (by omega)
        · intro h k hk
          simpa [Nat.add_right_comm, Nat.add_assoc] using h (k + 1) (by omega)
      · simp only [TrafficObjects.mk.injEq, and_true, true_and]
        refine ⟨by omega, ?_⟩
        simp only [starts, List.range_succ_eq_map, List.map_cons, List.map_map, List.append_assoc,
          List.singleton_append, Nat.add_zero, List.getD_eq_getElem?_getD,
          List.getElem?_eq_getElem hs, List.getElem?_eq_getElem hd, Option.getD_some]
        congr 2
        refine List.map_congr_left fun k _ => ?_
        have hid : o.idCnt + 1 + k = o.idCnt + (k + 1) := by omega
        have hat : nv + 1 + k = nv + (k + 1) := by omega
        simp [hid, hat]
    · have hnone : pushVehicles destination nv (n + 1) o = none := by
        rw [not_and_or, not_lt, not_lt] at hnv
        rcases hnv with h | h
        · simp [pushVehicles, h]
        · cases hs : o.streets[nv]? <;> simp [pushVehicles, hs, h]
      rw [hnone]
      simp only [reduceCtorEq, false_iff, not_and]
      exact fun h => absurd (h 0 (by omega)) hnv

end TrafficObjects

namespace TrafficObjects

/-- A street with both ends, in the vectors of the objects. -/
def settersAt (o : TrafficObjects) (ns nIn nOut : ℕ) : List Setter :=
  [⟨.inIntersection, o.streets.getD ns 0, o.intersections.getD nIn 0⟩,
    ⟨.outIntersection, o.streets.getD ns 0, o.intersections.getD nOut 0⟩]

lemma connect_eq {o : TrafficObjects} {cs : List Setter} (ho : o.network = .build 0 cs)
    {ns nIn nOut : ℕ} (hs : ns < o.streets.length) (hi : nIn < o.intersections.length)
    (hj : nOut < o.intersections.length) : o.connect ns nIn nOut =
      some { o with network := .build 0 (cs ++ o.settersAt ns nIn nOut) } := by
  simp only [connect, List.getElem?_eq_getElem hs, List.getElem?_eq_getElem hi,
    List.getElem?_eq_getElem hj, Option.bind_eq_bind, Option.bind_some, settersAt,
    List.getD_eq_getElem?_getD, Option.getD_some, ho]
  simp [Network.build, Network.call]

lemma connects_eq (ends : List (ℕ × ℕ × ℕ)) {o : TrafficObjects} {cs : List Setter}
    (ho : o.network = .build 0 cs) (h : ∀ x ∈ ends, x.1 < o.streets.length ∧
      x.2.1 < o.intersections.length ∧ x.2.2 < o.intersections.length) :
    ends.foldlM (fun o x => o.connect x.1 x.2.1 x.2.2) o =
      some { o with
        network := .build 0 (cs ++ ends.flatMap fun x => o.settersAt x.1 x.2.1 x.2.2) } := by
  induction ends generalizing o cs with
  | nil => simp [← ho]
  | cons x ends ih =>
    obtain ⟨hs, hi, hj⟩ := h x (by simp)
    rw [List.foldlM_cons, connect_eq ho hs hi hj, Option.bind_eq_bind, Option.bind_some]
    refine (ih rfl fun y hy => ?_).trans ?_
    · exact h y (by simp [hy])
    · simp [settersAt]

lemma paris_streets {m : ℕ} (hm : m ≤ 8) :
    (List.range m).foldlM (fun o ns => o.pushStreet.connect ns ns 8) (pushIntersections 9 empty) =
      some ⟨18 + m, ids 0 2 9, ids 18 1 m, [],
        .build 0 ((List.range m).flatMap fun n =>
          [⟨.inIntersection, 18 + n, 2 * n⟩, ⟨.outIntersection, 18 + n, 16⟩])⟩ := by
  induction m with
  | zero => rfl
  | succ m ih =>
    have hlast : ids 18 1 m ++ [18 + m] = ids 18 1 (m + 1) := by rw [ids_succ, one_mul]
    rw [List.range_succ, List.foldlM_append, ih (by omega), Option.bind_eq_bind, Option.bind_some,
      List.foldlM_cons, pushStreet]
    simp only [hlast]
    rw [connect_eq rfl (by simp) (by simp; omega) (by simp)]
    simp only [settersAt, getD_ids (Nat.lt_succ_self m), getD_ids (show m < 9 by omega),
      getD_ids (show 8 < 9 by omega)]
    simp [Nat.add_assoc, List.flatMap_append]

end TrafficObjects

lemma createTrafficObjects_Paris_eq (n : ℤ) : createTrafficObjects_Paris n =
    TrafficObjects.pushVehicles (fun _ => 8) 0 (sizeOfInt n)
      ⟨26, ids 0 2 9, ids 18 1 8, [], .build 0 paris.setters⟩ := by
  rw [createTrafficObjects_Paris, TrafficObjects.paris_streets (le_refl 8)]
  rfl

lemma createTrafficObjects_NYC_eq (n : ℤ) : createTrafficObjects_NYC n =
    TrafficObjects.pushVehicles (fun nv => nv) 0 (sizeOfInt n)
      ⟨19, ids 0 2 6, ids 12 1 7, [], .build 0 nyc.setters⟩ := by
  let o : TrafficObjects := ⟨19, ids 0 2 6, ids 12 1 7, [], .build 0 []⟩
  let ends : List (ℕ × ℕ × ℕ) :=
    [(0, 0, 1), (1, 1, 2), (2, 2, 3), (3, 3, 4), (4, 4, 5), (5, 5, 0), (6, 0, 3)]
  have hloop : createTrafficObjects_NYC n =
      (ends.foldlM (fun (o : TrafficObjects) x => o.connect x.1 x.2.1 x.2.2) o).bind
        (TrafficObjects.pushVehicles (fun nv => nv) 0 (sizeOfInt n)) := by
    simp only [createTrafficObjects_NYC, ends, List.foldlM_cons, List.foldlM_nil]
    rfl
  rw [hloop, TrafficObjects.connects_eq ends rfl (by decide)]
  rfl

lemma pushVehicles_ids {destination : ℕ → ℕ} {cnt width first m k bound : ℕ} {net : Network}
    (hbound : ∀ n, n < k ∧ destination n < m ↔ n < bound) (n : ℕ) (o : TrafficObjects) :
    TrafficObjects.pushVehicles destination 0 n ⟨cnt, ids 0 width m, ids first 1 k, [], net⟩ =
      some o ↔ n ≤ bound ∧ o = ⟨cnt + n, ids 0 width m, ids first 1 k,
        (List.range n).map fun v => ⟨cnt + v, first + v, width * destination v⟩, net⟩ := by
  rw [TrafficObjects.pushVehicles_eq_some]
  have hall : (∀ v < n, 0 + v < (ids first 1 k).length ∧
      destination (0 + v) < (ids 0 width m).length) ↔ n ≤ bound := by
    simp only [length_ids, Nat.zero_add, hbound]
    constructor
    · intro h
      by_contra hlt
      exact absurd (h bound (by omega)) (lt_irrefl _)
    · intro h v hv
      omega
  refine (and_congr_left' hall).trans (and_congr_right fun hle => ?_)
  have hstarts : (TrafficObjects.mk cnt (ids 0 width m) (ids first 1 k) [] net).starts
      destination 0 n =
        (List.range n).map fun v => ⟨cnt + v, first + v, width * destination v⟩ := by
    refine List.map_congr_left fun (v : ℕ) hv => ?_
    obtain ⟨hk, hm⟩ := (hbound v).mpr ((List.mem_range.mp hv).trans_le hle)
    rw [Nat.zero_add]
    simp only [getD_ids hk, getD_ids hm, one_mul, Nat.zero_add]
  rw [hstarts, List.nil_append]

lemma createTrafficObjects_Paris_eq_some {n : ℤ} {o : TrafficObjects} :
    createTrafficObjects_Paris n = some o ↔ sizeOfInt n ≤ 8 ∧
      o = ⟨26 + sizeOfInt n, ids 0 2 9, ids 18 1 8,
        (List.range (sizeOfInt n)).map fun v => ⟨26 + v, 18 + v, 16⟩, .build 0 paris.setters⟩ := by
  rw [createTrafficObjects_Paris_eq]
  exact pushVehicles_ids (by simp) _ o

lemma createTrafficObjects_NYC_eq_some {n : ℤ} {o : TrafficObjects} :
    createTrafficObjects_NYC n = some o ↔ sizeOfInt n ≤ 6 ∧
      o = ⟨19 + sizeOfInt n, ids 0 2 6, ids 12 1 7,
        (List.range (sizeOfInt n)).map fun v => ⟨19 + v, 12 + v, 2 * v⟩, .build 0 nyc.setters⟩ := by
  rw [createTrafficObjects_NYC_eq]
  exact pushVehicles_ids (by omega) _ o

lemma sizeOfInt_le {n : ℤ} {k : ℕ} (hlo : -2 ^ 31 ≤ n) (hhi : n < 2 ^ 31) (hk : k < 2 ^ 31) :
    sizeOfInt n ≤ k ↔ 0 ≤ n ∧ n ≤ k := by
  unfold sizeOfInt
  omega

/-- What a city has been created as: every number given out once, the streets of its map between
its intersections, and the vehicles asked for, each at the start of a street of its own and
towards one of its ends. -/
structure Created (layout : Layout) (destination : ℕ → ℕ) (o : TrafficObjects) (n : ℤ) : Prop where
  numbered : o.intersections.flatMap (fun i => [i, i + 1]) ++ o.streets ++
    o.vehicles.map Start.vehicle = List.range o.idCnt
  network : o.network = .build 0 layout.setters
  streets : layout.spans.map Span.street = o.streets
  ends : ∀ x ∈ layout.spans, x.inEnd ∈ o.intersections ∧ x.outEnd ∈ o.intersections
  all : (o.vehicles.length : ℤ) = n
  apart : (o.vehicles.map Start.street).Nodup
  starts : ∀ k x, o.vehicles[k]? = some x → o.streets[k]? = some x.street ∧
    o.intersections[destination k]? = some x.destination
  meets : ∀ x ∈ o.vehicles, layout.Meets x.street x.destination

lemma sizeOfInt_eq {n : ℤ} (hlo : 0 ≤ n) (hhi : n < 2 ^ 31) : (sizeOfInt n : ℤ) = n := by
  unfold sizeOfInt
  omega

lemma paris_spans : paris.spans.map Span.street = ids 18 1 8 ∧
    ∀ x ∈ paris.spans, x.inEnd ∈ ids 0 2 9 ∧ x.outEnd ∈ ids 0 2 9 := by
  decide

lemma nyc_spans : nyc.spans.map Span.street = ids 12 1 7 ∧
    ∀ x ∈ nyc.spans, x.inEnd ∈ ids 0 2 6 ∧ x.outEnd ∈ ids 0 2 6 := by
  decide

lemma getElem?_ids {first width n k : ℕ} (hk : k < n) :
    (ids first width n)[k]? = some (first + width * k) := by
  simp [ids, hk]

lemma of_getElem?_starts {f : ℕ → Start} {n k : ℕ} {x : Start}
    (h : ((List.range n).map f)[k]? = some x) : k < n ∧ f k = x := by
  by_cases hk : k < n
  · exact ⟨hk, by simpa [hk] using h⟩
  · simp [hk] at h

lemma created_paris {n : ℤ} (hlo : 0 ≤ n) (hhi : n ≤ 8) {o : TrafficObjects}
    (ho : createTrafficObjects_Paris n = some o) : Created paris (fun _ => 8) o n := by
  obtain ⟨hle, rfl⟩ := createTrafficObjects_Paris_eq_some.mp ho
  refine ⟨?_, rfl, paris_spans.1, paris_spans.2, ?_, ?_, fun k x hx => ?_, fun x hx => ?_⟩
  · have hobjects : (ids 0 2 9).flatMap (fun i => [i, i + 1]) ++ ids 18 1 8 = List.range 26 := by
      decide
    rw [hobjects, List.range_add, List.map_map]
    rfl
  · simpa using sizeOfInt_eq hlo (by omega)
  · rw [List.map_map]
    exact List.nodup_range.map fun _ _ h => Nat.add_left_cancel h
  · obtain ⟨hk, rfl⟩ := of_getElem?_starts hx
    exact ⟨(getElem?_ids (hk.trans_le hle)).trans (by simp), getElem?_ids (by omega)⟩
  · obtain ⟨k, hk, rfl⟩ := List.mem_map.mp hx
    have hk : k < 8 := (List.mem_range.mp hk).trans_le hle
    exact ⟨⟨18 + k, 2 * k, 16⟩, List.mem_map.mpr ⟨k, List.mem_range.mpr hk, rfl⟩, rfl, .inr rfl⟩

lemma created_nyc {n : ℤ} (hlo : 0 ≤ n) (hhi : n ≤ 6) {o : TrafficObjects}
    (ho : createTrafficObjects_NYC n = some o) : Created nyc (fun nv => nv) o n := by
  obtain ⟨hle, rfl⟩ := createTrafficObjects_NYC_eq_some.mp ho
  refine ⟨?_, rfl, nyc_spans.1, nyc_spans.2, ?_, ?_, fun k x hx => ?_, fun x hx => ?_⟩
  · have hobjects : (ids 0 2 6).flatMap (fun i => [i, i + 1]) ++ ids 12 1 7 = List.range 19 := by
      decide
    rw [hobjects, List.range_add, List.map_map]
    rfl
  · simpa using sizeOfInt_eq hlo (by omega)
  · rw [List.map_map]
    exact List.nodup_range.map fun _ _ h => Nat.add_left_cancel h
  · obtain ⟨hk, rfl⟩ := of_getElem?_starts hx
    exact ⟨(getElem?_ids (by omega)).trans (by simp),
      (getElem?_ids (hk.trans_le hle)).trans (by simp)⟩
  · obtain ⟨k, hk, rfl⟩ := List.mem_map.mp hx
    have hk : k < 6 := (List.mem_range.mp hk).trans_le hle
    have hends : ∀ k < 6, ∃ x ∈ nyc.spans, x.street = 12 + k ∧ x.inEnd = 2 * k := by decide
    obtain ⟨x, hx, hstreet, hend⟩ := hends k hk
    exact ⟨x, hx, hstreet, .inl hend⟩

/-- **The cities that can be created.** For an `int` number of vehicles `at` never throws exactly
when there are at most as many vehicles as streets, and in New York as intersections. Then
no two objects have the same number, lights included, the streets are those of the map, and
every vehicle starts on a street of its own towards one of its ends. -/
theorem cities_created {n : ℤ} (hlo : -2 ^ 31 ≤ n) (hhi : n < 2 ^ 31) :
    ((createTrafficObjects_Paris n).isSome ↔ 0 ≤ n ∧ n ≤ 8) ∧
      ((createTrafficObjects_NYC n).isSome ↔ 0 ≤ n ∧ n ≤ 6) ∧
      ∀ o, (createTrafficObjects_Paris n = some o → Created paris (fun _ => 8) o n) ∧
        (createTrafficObjects_NYC n = some o → Created nyc (fun nv => nv) o n) := by
  have hparis : (createTrafficObjects_Paris n).isSome ↔ 0 ≤ n ∧ n ≤ 8 := by
    rw [Option.isSome_iff_exists]
    simpa [createTrafficObjects_Paris_eq_some] using sizeOfInt_le hlo hhi (show 8 < 2 ^ 31 by omega)
  have hnyc : (createTrafficObjects_NYC n).isSome ↔ 0 ≤ n ∧ n ≤ 6 := by
    rw [Option.isSome_iff_exists]
    simpa [createTrafficObjects_NYC_eq_some] using sizeOfInt_le hlo hhi (show 6 < 2 ^ 31 by omega)
  refine ⟨hparis, hnyc, fun o => ⟨fun ho => ?_, fun ho => ?_⟩⟩
  · obtain ⟨h0, h8⟩ := hparis.mp (ho ▸ rfl)
    exact created_paris h0 h8 ho
  · obtain ⟨h0, h6⟩ := hnyc.mp (ho ▸ rfl)
    exact created_nyc h0 h6 ho

/-- The six vehicles of `main` are created. -/
theorem cities_created_six : (createTrafficObjects_Paris 6).isSome ∧
    (createTrafficObjects_NYC 6).isSome ∧ ¬ (createTrafficObjects_NYC 7).isSome := by
  obtain ⟨hparis, hnyc, -⟩ := cities_created (n := 6) (by decide) (by decide)
  obtain ⟨-, hseven, -⟩ := cities_created (n := 7) (by decide) (by decide)
  exact ⟨hparis.mpr (by decide), hnyc.mpr (by decide), fun h => absurd (hseven.mp h) (by decide)⟩

/-! ### Ways in Paris -/

lemma paris_meets {street i : ℕ} :
    paris.Meets street i ↔ ∃ k < 8, street = 18 + k ∧ (i = 2 * k ∨ i = 16) := by
  simp only [Layout.Meets, paris, List.mem_map, List.mem_range, exists_exists_and_eq_and]
  refine exists_congr fun k => and_congr_right fun _ => ?_
  rw [eq_comm, eq_comm (a := 2 * k), eq_comm (a := 16)]

lemma paris_joins {street i j : ℕ} : paris.Joins street i j ↔
    ∃ k < 8, street = 18 + k ∧ (i = 2 * k ∧ j = 16 ∨ i = 16 ∧ j = 2 * k) := by
  simp only [Layout.Joins, paris, List.mem_map, List.mem_range, exists_exists_and_eq_and]
  refine exists_congr fun k => and_congr_right fun _ => ?_
  constructor
  · rintro ⟨rfl, ⟨rfl, rfl⟩ | ⟨rfl, rfl⟩⟩
    · exact ⟨rfl, .inl ⟨rfl, rfl⟩⟩
    · exact ⟨rfl, .inr ⟨rfl, rfl⟩⟩
  · rintro ⟨rfl, ⟨rfl, rfl⟩ | ⟨rfl, rfl⟩⟩
    · exact ⟨rfl, .inl ⟨rfl, rfl⟩⟩
    · exact ⟨rfl, .inr ⟨rfl, rfl⟩⟩

/-- At the plaza a vehicle never turns back. -/
lemma paris_turn_plaza {k next far : ℕ} (hk : k < 8)
    (h : paris.Turn (18 + k) 16 next far) : ∃ m < 8, m ≠ k ∧ next = 18 + m ∧ far = 2 * m := by
  obtain ⟨m, hm, rfl, hends⟩ := paris_joins.mp h.new
  refine ⟨m, hm, ?_, rfl, by omega⟩
  rintro rfl
  -- there is another street at the plaza
  obtain ⟨other, hother, hne⟩ : ∃ other < 8, other ≠ m := ⟨if m = 0 then 1 else 0, by
    split <;> omega, by split <;> omega⟩
  exact hne (Nat.add_left_cancel
    (h.back rfl (18 + other) (paris_meets.mpr ⟨other, hother, rfl, .inr rfl⟩)))

lemma paris_turn_square {street k next far : ℕ} (hk : k < 8)
    (h : paris.Turn street (2 * k) next far) : next = 18 + k ∧ far = 16 := by
  obtain ⟨m, hm, rfl, hends⟩ := paris_joins.mp h.new
  omega

/-- Where a way in Paris has come to, and what it has crossed: to the plaza and to a square in
turn, and never to the same square twice running. -/
inductive ParisWay (k : ℕ) : List Id → Id → Id → Prop where
  | toPlaza {squares : List ℕ} {m : ℕ} (hm : m < 8) (hlast : (k :: squares).getLast? = some m)
      (hchain : (k :: squares).IsChain (· ≠ ·)) (hsquares : ∀ n ∈ squares, n < 8) :
    ParisWay k (squares.flatMap fun n => [16, 2 * n]) (18 + m) 16
  | toSquare {squares : List ℕ} {m : ℕ} (hm : m < 8)
      (hchain : (k :: squares ++ [m]).IsChain (· ≠ ·)) (hsquares : ∀ n ∈ squares, n < 8) :
    ParisWay k (squares.flatMap (fun n => [16, 2 * n]) ++ [16]) (18 + m) (2 * m)

/-- **One turn.** -/
lemma ParisWay.turn {k : ℕ} {crossed : List Id} {street i next far : Id}
    (h : ParisWay k crossed street i) (hturn : paris.Turn street i next far) :
    ParisWay k (crossed ++ [i]) next far := by
  cases h with
  | toPlaza hm hlast hchain hsquares =>
    obtain ⟨n, hn, hne, rfl, rfl⟩ := paris_turn_plaza hm hturn
    refine .toSquare hn ?_ hsquares
    refine hchain.append (List.isChain_singleton n) fun a ha b hb => ?_
    obtain rfl : n = b := by simpa using hb
    obtain rfl : a = _ := Option.mem_unique ha hlast
    exact hne.symm
  | @toSquare squares m hm hchain hsquares =>
    obtain ⟨rfl, rfl⟩ := paris_turn_square hm hturn
    have hcrossed : squares.flatMap (fun n => [16, 2 * n]) ++ [16] ++ [2 * m] =
        (squares ++ [m]).flatMap fun n => [16, 2 * n] := by
      rw [List.flatMap_append, List.append_assoc]
      rfl
    have hlast : (k :: (squares ++ [m])).getLast? = some m := by
      rw [← List.cons_append, List.getLast?_concat]
    rw [hcrossed]
    refine .toPlaza hm hlast hchain fun n hn => ?_
    rcases List.mem_append.mp hn with hn | hn
    · exact hsquares n hn
    · exact List.mem_singleton.mp hn ▸ hm

lemma parisWay_of_way {k : ℕ} (hk : k < 8) {crossed : List Id} {street i : Id}
    (h : paris.Way (18 + k) 16 crossed street i) : ParisWay k crossed street i := by
  induction h with
  | nil =>
    have hstart : ParisWay k (([] : List ℕ).flatMap fun n => [16, 2 * n]) (18 + k) 16 :=
      .toPlaza hk rfl (List.isChain_singleton k) (by simp)
    exact hstart
  | turn _ hturn ih => exact ih.turn hturn

/-! ### Runs in the cities -/

namespace TrafficObjects

variable {R : Type} [Double R]

def findStart (o : TrafficObjects) (v : Id) : Option Start := o.vehicles.find? (·.vehicle = v)

lemma findStart_of_mem {o : TrafficObjects} (ho : (o.vehicles.map Start.vehicle).Nodup) {x : Start}
    (hx : x ∈ o.vehicles) : o.findStart x.vehicle = some x :=
  Lookup.find?_of_nodup ho hx

/-- The state in which `main` launches the threads. -/
def simulate (o : TrafficObjects) : State R :=
  init (fun v => ((o.findStart v).map Start.street).getD 0)
    (fun v => ((o.findStart v).map Start.destination).getD 0)

end TrafficObjects

lemma paris_vehicles_nodup {n : ℤ} {o : TrafficObjects}
    (ho : createTrafficObjects_Paris n = some o) : (o.vehicles.map Start.vehicle).Nodup := by
  obtain ⟨-, rfl⟩ := createTrafficObjects_Paris_eq_some.mp ho
  rw [List.map_map]
  exact List.nodup_range.map fun _ _ h => Nat.add_left_cancel h

/-- **Ways in Paris.** In every run with any number of vehicles for which the city can be created,
a vehicle, whose first destination is the plaza, crosses the plaza, a square, the plaza, a square
and so on; it never comes back to the square it has come from, by the same street, without
having been at another. -/
theorem paris_itinerary {R : Type} [Double R] {n : ℤ} {o : TrafficObjects}
    (ho : createTrafficObjects_Paris n = some o) {x : Start} (hx : x ∈ o.vehicles)
    {es : List Event} {s : State R} (h : Trace (Step o.network) o.simulate es s) :
    o.intersections[8]? = some x.destination ∧ ∃ squares : List Id,
      (o.network.getInIntersection x.street :: squares).IsChain (· ≠ ·) ∧
      (∀ i ∈ squares, i ∈ o.intersections ∧ i ≠ x.destination) ∧
      (es.filterMap (Event.leftAt x.vehicle) = squares.flatMap (fun i => [x.destination, i]) ∨
        es.filterMap (Event.leftAt x.vehicle) =
          squares.flatMap (fun i => [x.destination, i]) ++ [x.destination]) := by
  have hstart := o.findStart_of_mem (paris_vehicles_nodup ho) hx
  obtain ⟨hle, rfl⟩ := createTrafficObjects_Paris_eq_some.mp ho
  obtain ⟨k, hk, rfl⟩ := List.mem_map.mp hx
  have hk : k < 8 := (List.mem_range.mp hk).trans_le hle
  have hspan : ⟨18 + k, 2 * k, 16⟩ ∈ paris.spans :=
    List.mem_map.mpr ⟨k, List.mem_range.mpr hk, rfl⟩
  obtain ⟨j, hjourney, -⟩ := shows_of_run (v := 26 + k) (.refl _)
    (by simpa [hstart] using paris_meets.mpr ⟨k, hk, rfl, .inr rfl⟩) h
  have hway := way_of_journey hjourney
  simp only [filterMap_leftAt_of, hstart, Option.map_some, Option.getD_some] at hway
  have hhome : (Network.build 0 paris.setters).getInIntersection (18 + k) = 2 * k :=
    (ends_build (.refl _) hspan).1
  refine ⟨getElem?_ids (by omega), ?_⟩
  dsimp only
  rw [hhome]
  -- the squares, from their places in the vector
  have hsquares : ∀ {squares : List ℕ}, (∀ n ∈ squares, n < 8) →
      ∀ i ∈ squares.map (2 * ·), i ∈ ids 0 2 9 ∧ i ≠ 16 := by
    intro squares hlt i hi
    obtain ⟨m, hm, rfl⟩ := List.mem_map.mp hi
    have hm := hlt m hm
    have hne : 2 * m ≠ 16 := by omega
    exact ⟨List.mem_map.mpr ⟨m, List.mem_range.mpr (by omega), Nat.zero_add _⟩, hne⟩
  have hchain : ∀ {squares : List ℕ}, (k :: squares).IsChain (· ≠ ·) →
      ((2 * k) :: squares.map (2 * ·)).IsChain (· ≠ ·) := by
    intro squares h
    rw [← List.map_cons (f := fun m : ℕ => 2 * m), List.isChain_map]
    exact h.imp fun _ _ hne heq => hne (Nat.eq_of_mul_eq_mul_left Nat.two_pos heq)
  generalize es.filterMap (Event.leftAt (26 + k)) = crossed at hway ⊢
  obtain ⟨street, destination, calls, leg⟩ := j
  cases parisWay_of_way hk hway with
  | @toPlaza squares m hm hlast hc hlt =>
    exact ⟨squares.map (2 * ·), hchain hc, hsquares hlt, .inl (by simp [List.flatMap_map])⟩
  | @toSquare squares m hm hc hlt =>
    refine ⟨squares.map (2 * ·), hchain (List.IsChain.left_of_append hc), hsquares hlt,
      .inr (by simp [List.flatMap_map])⟩

/-- The vehicle is let in where it waits, finds its light green, passes and goes on. -/
def passes (i : Id) : List Thread :=
  .replicate 4 (.processVehicleQueue i) ++ [.cycleThroughPhases i] ++
    .replicate 8 (.drive 27 3000 0)

/-- To the plaza, on to the first square, and back to the plaza. -/
def overPlaza : List Thread :=
  .replicate 6 (.drive 27 3000 0) ++ passes 16 ++ .replicate 4 (.drive 27 3000 0) ++ passes 0 ++
    .replicate 4 (.drive 27 3000 0) ++ passes 16

/-- The second of six vehicles crosses the plaza, a square that it has not come from, and the
plaza again. -/
theorem paris_itinerary_plaza : ∃ o, createTrafficObjects_Paris 6 = some o ∧ ∃ es s,
    Trace (Step o.network) (o.simulate : State ℚ) es s ∧
      es.filterMap (Event.leftAt 27) = [16, 0, 16] ∧ o.network.getInIntersection 19 = 2 ∧
      ∃ squares : List Id, (o.network.getInIntersection 19 :: squares).IsChain (· ≠ ·) ∧
        (es.filterMap (Event.leftAt 27) = squares.flatMap (fun i => [16, i]) ∨
          es.filterMap (Event.leftAt 27) = squares.flatMap (fun i => [16, i]) ++ [16]) := by
  obtain ⟨o, ho⟩ : ∃ o, createTrafficObjects_Paris 6 = some o := Option.isSome_iff_exists.mp rfl
  have hplay : (createTrafficObjects_Paris 6).bind (fun o =>
      (play o.network (o.simulate : State ℚ) overPlaza).map fun run =>
        (run.1.filterMap (Event.leftAt 27), o.network.getInIntersection 19)) =
          some ([16, 0, 16], 2) := by
    decide +kernel
  rw [ho, Option.bind_some] at hplay
  obtain ⟨⟨es, s⟩, hrun, hes⟩ := Option.map_eq_some_iff.mp hplay
  obtain ⟨hleft, hhome⟩ := Prod.mk.injEq .. ▸ hes
  have hx : ⟨27, 19, 16⟩ ∈ o.vehicles := by
    obtain ⟨-, rfl⟩ := createTrafficObjects_Paris_eq_some.mp ho
    decide
  obtain ⟨-, squares, hchain, -, hcrossed⟩ := paris_itinerary ho hx (play_trace hrun)
  exact ⟨o, ho, es, s, play_trace hrun, hleft, hhome, squares, hchain, hcrossed⟩

end SelfTraining.Traffic
