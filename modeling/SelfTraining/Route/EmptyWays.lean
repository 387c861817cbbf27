import SelfTraining.Route.RingExact

/-!
Open ways without nodes in the search for a ring.

`TrackRec` asks every unused way it passes for its ends, unless it has no nodes collected
yet. So while a way without nodes is unused no branch fails: the walk takes the first way
that goes on until it is back, or comes to the way without nodes, which is a fault. Ways
without nodes in front of all others are taken first, and are a fault only when the search
comes back to them.
-/

namespace SelfTraining.Route

/-! ### Which open ways are tolerated -/

/-- The walk that takes, of the ways at the positions `avail`, always the first that goes
on comes back to where it began. -/
inductive WalkCloses (W : ℕ → List ℕ) : List ℕ → List ℕ → Prop where
  | back {avail nodes : List ℕ} : ClosedNodes nodes → WalkCloses W avail nodes
  | on {avail nodes : List ℕ} {tail i : ℕ} : nodes.getLast? = some tail →
      avail.find? (fun j => decide (GoesOn W tail j)) = some i →
      WalkCloses W (avail.erase i) (nodes ++ oriented W (nextPiece W tail i)) →
      WalkCloses W avail nodes

/-- The first of `n` ways that has nodes. -/
structure FirstFilled (n : ℕ) (W : ℕ → List ℕ) (k : ℕ) : Prop where
  lt : k < n
  ne_nil : W k ≠ []
  before : ∀ i < k, W i = []

/-- The first of `n` ways after `k` that has none. -/
structure NextEmpty (n : ℕ) (W : ℕ → List ℕ) (k e : ℕ) : Prop where
  lt : e < n
  after : k < e
  nil : W e = []
  between : ∀ i, k < i → i < e → W i ≠ []

/-- `n` open ways that `TrackRec` gets through. -/
structure Tolerable (n : ℕ) (W : ℕ → List ℕ) : Prop where
  /-- The walk from the first way that has nodes is back before it comes to one that has
  none. -/
  walk : ∀ k e, FirstFilled n W k → NextEmpty n W k e →
    WalkCloses W ((List.range e).filter fun i => decide (k < i)) (W k)
  /-- Ways without nodes that only stand in front of the others are not come back to. -/
  ring : ∀ k, FirstFilled n W k → 0 < k → (∀ i < n, k < i → W i ≠ []) →
    ∃ qs, RingThrough W (fun i => k ≤ i ∧ i < n) qs

lemma FirstFilled.eq {n k k' : ℕ} {W : ℕ → List ℕ} (h : FirstFilled n W k)
    (h' : FirstFilled n W k') : k = k' := by
  rcases lt_trichotomy k k' with hlt | rfl | hlt
  · exact absurd (h'.before k hlt) h.ne_nil
  · rfl
  · exact absurd (h.before k' hlt) h'.ne_nil

lemma NextEmpty.eq {n k e e' : ℕ} {W : ℕ → List ℕ} (h : NextEmpty n W k e)
    (h' : NextEmpty n W k e') : e = e' := by
  rcases lt_trichotomy e e' with hlt | rfl | hlt
  · exact absurd h.nil (h'.between e h.after hlt)
  · rfl
  · exact absurd h'.nil (h.between e' h'.after hlt)

lemma exists_firstFilled {n i : ℕ} {W : ℕ → List ℕ} (hi : i < n) (h : W i ≠ []) :
    ∃ k, FirstFilled n W k := by
  have hex : ∃ i, i < n ∧ W i ≠ [] := ⟨i, hi, h⟩
  refine ⟨Nat.find hex, (Nat.find_spec hex).1, (Nat.find_spec hex).2, fun j hj => ?_⟩
  by_contra hne
  exact Nat.find_min hex hj ⟨hj.trans (Nat.find_spec hex).1, hne⟩

lemma exists_nextEmpty {n k i : ℕ} {W : ℕ → List ℕ} (hi : i < n) (hk : k < i) (h : W i = []) :
    ∃ e, NextEmpty n W k e := by
  have hex : ∃ i, i < n ∧ k < i ∧ W i = [] := ⟨i, hi, hk, h⟩
  obtain ⟨hlt, hafter, hnil⟩ := Nat.find_spec hex
  refine ⟨Nat.find hex, hlt, hafter, hnil, fun j hkj hj hne => ?_⟩
  exact Nat.find_min hex hj ⟨hj.trans hlt, hkj, hne⟩

/-! ### No branch fails before a way without nodes -/

/-- A call that finds a ring if `closes`, and is a fault if not. -/
def FindsOrFaults (closes : Prop) (r : Except Fault Tracked) : Prop :=
  (closes ∧ ∃ used nodes, r = .ok ⟨true, used, nodes⟩) ∨ (¬ closes ∧ r = .error .emptyVector)

/-- A call that returns if `tolerable`, and asks for an end that is not there if not. -/
def ReturnsOrFaults {α : Type} (tolerable : Prop) (r : Except Fault α) : Prop :=
  (tolerable ∧ ∃ x, r = .ok x) ∨ (¬ tolerable ∧ r = .error .emptyVector)

lemma FindsOrFaults.returns {closes tolerable : Prop} {r : Except Fault Tracked}
    (h : FindsOrFaults closes r) (hiff : closes ↔ tolerable) : ReturnsOrFaults tolerable r := by
  rcases h with ⟨hc, used, nodes, hr⟩ | ⟨hc, hr⟩
  · exact .inl ⟨hiff.mp hc, _, hr⟩
  · exact .inr ⟨fun ht => hc (hiff.mpr ht), hr⟩

section Walk

variable {openWays : List ℤ} {ways : List Way} {closes : Prop}
variable {rec : List Bool → List ℕ → Except Fault Tracked}
variable {used : List Bool} {nodes : List ℕ} {tail i e : ℕ}

lemma FindsOrFaults.next {is : List ℕ} (hu : used[i]? = some false)
    (hgo : GoesOn (nodesAt openWays ways) tail i)
    (h : FindsOrFaults closes (branch openWays ways rec tail used nodes i)) :
    FindsOrFaults closes (tryNext openWays ways rec tail (i :: is) used nodes) := by
  rcases h with ⟨hc, used', nodes', hr⟩ | ⟨hc, hr⟩
  · exact .inl ⟨hc, used', nodes', tryNext_found hu hgo hr⟩
  · exact .inr ⟨hc, tryNext_error hu hgo hr⟩

lemma FindsOrFaults.first {is : List ℕ} (hu : used[i]? = some false)
    (h : FindsOrFaults closes (rec (used.set i true) (nodesAt openWays ways i))) :
    FindsOrFaults closes (tryFirst openWays ways rec (i :: is) used []) := by
  rcases h with ⟨hc, used', nodes', hr⟩ | ⟨hc, hr⟩
  · exact .inl ⟨hc, used', nodes', tryFirst_found hu hr⟩
  · exact .inr ⟨hc, tryFirst_error hu hr⟩

lemma tryNext_skip {is js : List ℕ} (h : ∀ i ∈ is, used[i]? = some false →
      nodesAt openWays ways i ≠ [] ∧ ¬ GoesOn (nodesAt openWays ways) tail i) :
    tryNext openWays ways rec tail (is ++ js) used nodes =
      tryNext openWays ways rec tail js used nodes := by
  induction is with
  | nil => rfl
  | cons i is ih =>
    have ih := ih fun j hj => h j (by simp [hj])
    rw [List.cons_append]
    by_cases hu : used[i]? = some false
    · obtain ⟨hne, hgo⟩ := h i (by simp) hu
      rw [tryNext_pass hne hgo]
      exact ih
    · rw [tryNext_used hu]
      exact ih

lemma tryFirst_skip {is js : List ℕ} (h : ∀ i ∈ is, used[i]? ≠ some false) :
    tryFirst openWays ways rec (is ++ js) used nodes =
      tryFirst openWays ways rec js used nodes := by
  induction is with
  | nil => rfl
  | cons i is ih =>
    rw [List.cons_append, tryFirst_used (h i (by simp))]
    exact ih fun j hj => h j (by simp [hj])

/-- The positions before `e` whose ways are unused. -/
def unusedBefore (used : List Bool) (e : ℕ) : List ℕ :=
  (List.range e).filter fun i => decide (used[i]? = some false)

lemma unusedBefore_set : unusedBefore (used.set i true) e = (unusedBefore used e).erase i := by
  unfold unusedBefore
  rw [(List.nodup_range.filter _).erase_eq_filter, List.filter_filter]
  refine List.filter_congr fun j _ => ?_
  rw [Bool.eq_iff_iff]
  simp [getElem?_set_used]

lemma not_of_find? {p : ℕ → Bool} {j : ℕ} (h : (unusedBefore used e).find? p = some i)
    (hj : j < i) (hu : used[j]? = some false) : p j = false := by
  obtain ⟨-, before, after, hsplit, hbefore⟩ := List.find?_eq_some_iff_append.mp h
  have hi : i ∈ unusedBefore used e := hsplit ▸ by simp
  have hie := List.mem_range.mp (List.mem_filter.mp hi).1
  have hmem : j ∈ unusedBefore used e :=
    List.mem_filter.mpr ⟨List.mem_range.mpr (hj.trans hie), by simpa using hu⟩
  have hsorted : (unusedBefore used e).Pairwise (· < ·) := List.pairwise_lt_range.filter _
  rw [hsplit] at hmem hsorted
  rcases List.mem_append.mp hmem with hmem | hmem
  · simpa using hbefore j hmem
  · have hle : i ≤ j := by
      rcases List.mem_cons.mp hmem with rfl | hmem
      · exact le_rfl
      · exact (List.rel_of_pairwise_cons (List.pairwise_append.mp hsorted).2.1 hmem).le
    omega

lemma range_split {n : ℕ} (h : e < n) : ∃ rest, List.range n = List.range e ++ e :: rest := by
  obtain ⟨m, rfl⟩ : ∃ m, n = e + (m + 1) := ⟨n - e - 1, by omega⟩
  refine ⟨(List.range m).map fun j => e + (j + 1), ?_⟩
  rw [List.range_add, List.range_succ_eq_map, List.map_cons, List.map_map]
  rfl

lemma not_walkCloses {W : ℕ → List ℕ} {avail : List ℕ} (hclosed : ¬ ClosedNodes nodes)
    (hl : nodes.getLast? = some tail)
    (hnone : avail.find? (fun j => decide (GoesOn W tail j)) = none) :
    ¬ WalkCloses W avail nodes := by
  rintro (hc | ⟨hl', hfind, -⟩)
  · exact hclosed hc
  · obtain rfl : tail = _ := Option.some.inj (hl.symm.trans hl')
    rw [hnone] at hfind
    cases hfind

lemma walkCloses_on_iff {W : ℕ → List ℕ} {avail : List ℕ} (hclosed : ¬ ClosedNodes nodes)
    (hl : nodes.getLast? = some tail)
    (hfind : avail.find? (fun j => decide (GoesOn W tail j)) = some i) :
    WalkCloses W avail nodes ↔
      WalkCloses W (avail.erase i) (nodes ++ oriented W (nextPiece W tail i)) := by
  refine ⟨?_, .on hl hfind⟩
  rintro (hc | ⟨hl', hfind', h⟩)
  · exact absurd hc hclosed
  · obtain rfl : tail = _ := Option.some.inj (hl.symm.trans hl')
    obtain rfl : i = _ := Option.some.inj (hfind.symm.trans hfind')
    exact h

/-- **The walk before a way without nodes.** With a way without nodes unused, a call finds a
ring when the walk closes, and is a fault when it does not. -/
theorem trackRec_walk (fuel : ℕ) (he : used[e]? = some false) (hlt : e < openWays.length)
    (hnil : nodesAt openWays ways e = [])
    (hbefore : ∀ i < e, used[i]? = some false → nodesAt openWays ways i ≠ [])
    (hfuel : used.count false < fuel) (hne : nodes ≠ []) :
    FindsOrFaults (WalkCloses (nodesAt openWays ways) (unusedBefore used e) nodes)
      (trackRec openWays ways fuel used nodes) := by
  induction fuel generalizing used nodes with
  | zero => omega
  | succ fuel ih =>
    by_cases hclosed : ClosedNodes nodes
    · exact .inl ⟨.back hclosed, used, nodes, trackRec_closed hclosed⟩
    obtain ⟨-, tail, -, hl⟩ := ends_of_ne hne
    rw [trackRec_on hl hclosed]
    cases hfind : (unusedBefore used e).find? fun j =>
      decide (GoesOn (nodesAt openWays ways) tail j) with
    | none =>
      obtain ⟨rest, hrange⟩ := range_split hlt
      refine .inr ⟨not_walkCloses hclosed hl hfind, ?_⟩
      rw [hrange, tryNext_skip, tryNext_empty he hnil]
      intro i hi hu
      have hnot := List.find?_eq_none.mp hfind i (List.mem_filter.mpr ⟨hi, by simpa using hu⟩)
      exact ⟨hbefore i (List.mem_range.mp hi) hu, by simpa using hnot⟩
    | some i =>
      have hgo : GoesOn (nodesAt openWays ways) tail i := by simpa using List.find?_some hfind
      obtain ⟨hie, hu⟩ := List.mem_filter.mp (List.mem_of_find?_eq_some hfind)
      have hie := List.mem_range.mp hie
      have hu : used[i]? = some false := by simpa using hu
      -- the ways before it are used or do not go on
      obtain ⟨rest, hrange⟩ := range_split (hie.trans hlt)
      rw [hrange, tryNext_skip, walkCloses_on_iff hclosed hl hfind, ← unusedBefore_set]
      · have hcount := count_set_used hu
        refine .next hu hgo (ih ?_ ?_ (by omega) (by simp [hne]))
        · exact getElem?_set_used.mpr ⟨hie.ne', he⟩
        · exact fun j hj hju => hbefore j hj (getElem?_set_used.mp hju).2
      · intro j hj hju
        have hji := List.mem_range.mp hj
        exact ⟨hbefore j (hji.trans hie) hju, by simpa using not_of_find? hfind hji hju⟩

end Walk

/-! ### Ways without nodes in front -/

section Front

variable {openWays : List ℤ} {ways : List Way} {used : List Bool} {k : ℕ}

/-- The unused positions are those from `k` on. -/
structure UnusedFrom (n : ℕ) (used : List Bool) (k : ℕ) : Prop where
  length : used.length = n
  unused_iff : ∀ i : ℕ, used[i]? = some false ↔ k ≤ i ∧ i < n

lemma UnusedFrom.use {n : ℕ} (h : UnusedFrom n used k) :
    UnusedFrom n (used.set k true) (k + 1) where
  length := by simpa using h.length
  unused_iff i := by
    rw [getElem?_set_used, h.unused_iff i]
    omega

lemma unusedFrom_fresh (n : ℕ) : UnusedFrom n (List.replicate n false) 0 where
  length := by simp
  unused_iff i := by
    rw [unused_fresh]
    omega

lemma UnusedFrom.unusedBefore {n e : ℕ} (h : UnusedFrom n used k) (he : e ≤ n) :
    unusedBefore used e = (List.range e).filter fun i => decide (k ≤ i) := by
  refine List.filter_congr fun i hi => ?_
  have hie := List.mem_range.mp hi
  rw [Bool.eq_iff_iff, decide_eq_true_eq, decide_eq_true_eq, h.unused_iff i]
  omega

lemma trackRec_front (ways : List Way) (fuel : ℕ) (hu : UnusedFrom openWays.length used k)
    (hk : k < openWays.length) : ∃ rest, List.range openWays.length = List.range k ++ k :: rest ∧
      trackRec openWays ways (fuel + 1) used [] =
        tryFirst openWays ways (trackRec openWays ways fuel) (k :: rest) used [] := by
  obtain ⟨rest, hrange⟩ := range_split hk
  refine ⟨rest, hrange, ?_⟩
  change tryFirst openWays ways (trackRec openWays ways fuel) _ used [] = _
  rw [hrange, tryFirst_skip]
  intro i hi hui
  have := (hu.unused_iff i).mp hui
  have := List.mem_range.mp hi
  omega

lemma trackRec_passes {closes : Prop} (hlt : k < openWays.length)
    (hfront : ∀ i < k, nodesAt openWays ways i = [])
    (hrest : ∀ fuel used, UnusedFrom openWays.length used k → used.count false < fuel →
      FindsOrFaults closes (trackRec openWays ways fuel used []))
    {j : ℕ} (hj : j ≤ k) (fuel : ℕ) (used : List Bool) (hu : UnusedFrom openWays.length used j)
    (hfuel : used.count false < fuel) :
    FindsOrFaults closes (trackRec openWays ways fuel used []) := by
  induction hj using Nat.decreasingInduction generalizing fuel used with
  | self => exact hrest fuel used hu hfuel
  | of_succ j hj ih =>
    obtain ⟨fuel, rfl⟩ : ∃ f, fuel = f + 1 := ⟨fuel - 1, by omega⟩
    have hj' : used[j]? = some false := (hu.unused_iff j).mpr ⟨le_rfl, hj.trans hlt⟩
    have hcount := count_set_used hj'
    obtain ⟨rest, -, hfirst⟩ := trackRec_front ways fuel hu (hj.trans hlt)
    rw [hfirst]
    refine .first hj' ?_
    rw [hfront j hj]
    exact ih fuel _ hu.use (by omega)

/-- Where a way without nodes comes after it, the first way that has nodes decides. -/
lemma trackRec_decides {e : ℕ} (hk : FirstFilled openWays.length (nodesAt openWays ways) k)
    (he : NextEmpty openWays.length (nodesAt openWays ways) k e) (fuel : ℕ) (used : List Bool)
    (hu : UnusedFrom openWays.length used k) (hfuel : used.count false < fuel) :
    FindsOrFaults (WalkCloses (nodesAt openWays ways)
        ((List.range e).filter fun i => decide (k < i)) (nodesAt openWays ways k))
      (trackRec openWays ways fuel used []) := by
  obtain ⟨fuel, rfl⟩ : ∃ f, fuel = f + 1 := ⟨fuel - 1, by omega⟩
  have hk' : used[k]? = some false := (hu.unused_iff k).mpr ⟨le_rfl, hk.lt⟩
  have hcount := count_set_used hk'
  obtain ⟨rest, -, hfirst⟩ := trackRec_front ways fuel hu hk.lt
  rw [hfirst]
  refine .first hk' ?_
  have hwalk := trackRec_walk (e := e) fuel ((hu.use.unused_iff e).mpr ⟨he.after, he.lt⟩) he.lt
    he.nil (fun i hi hui => he.between i ((hu.use.unused_iff i).mp hui).1 hi) (by omega) hk.ne_nil
  rwa [hu.use.unusedBefore he.lt.le] at hwalk

lemma walkCloses_nil {W : ℕ → List ℕ} {nodes : List ℕ} :
    WalkCloses W [] nodes ↔ ClosedNodes nodes := by
  refine ⟨?_, .back⟩
  rintro (h | ⟨-, hfind, -⟩)
  · exact h
  · cases hfind

lemma trackRec_fails {n : ℕ} (hu : UnusedFrom n used k) {fuel : ℕ}
    (hfill : ∀ i, k ≤ i → i < n → nodesAt openWays ways i ≠ [])
    (hring : ¬ ∃ qs, RingThrough (nodesAt openWays ways) (fun i => k ≤ i ∧ i < n) qs)
    (hfuel : used.count false < fuel) :
    trackRec openWays ways fuel used [] = .ok ⟨false, used, []⟩ := by
  have hne : ∀ i : ℕ, used[i]? = some false → nodesAt openWays ways i ≠ [] := fun i hi =>
    hfill i ((hu.unused_iff i).mp hi).1 ((hu.unused_iff i).mp hi).2
  obtain ⟨⟨found, used', nodes'⟩, hr, hout⟩ :=
    trackRec_filled fuel used [] (fun i _ hi => hne i hi) hfuel
  cases found with
  | false =>
    obtain ⟨rfl, rfl⟩ := hout.restored rfl
    exact hr
  | true =>
    obtain ⟨⟨qs, hext⟩, hcl⟩ := hout.extended rfl
    exact absurd ⟨qs, (hext.ringThrough hne hcl).imp fun i hi => (hu.unused_iff i).mp hi⟩ hring

/-- Without a ring the search comes back to the last of the ways in front, and takes it for
one that may go on. -/
lemma trackRec_comesBack {j : ℕ}
    (hk : FirstFilled openWays.length (nodesAt openWays ways) (j + 1))
    (hopen : ¬ ClosedNodes (nodesAt openWays ways (j + 1)))
    (hfill : ∀ i < openWays.length, j + 1 < i → nodesAt openWays ways i ≠ [])
    (hring : ¬ ∃ qs, RingThrough (nodesAt openWays ways)
      (fun i => j + 1 ≤ i ∧ i < openWays.length) qs) (fuel : ℕ) (used : List Bool)
    (hu : UnusedFrom openWays.length used j) (hfuel : used.count false < fuel) :
    FindsOrFaults False (trackRec openWays ways fuel used []) := by
  obtain ⟨fuel, rfl⟩ : ∃ f, fuel = f + 1 := ⟨fuel - 1, by omega⟩
  have hlt : j < openWays.length := Nat.lt_of_succ_lt hk.lt
  have hj : used[j]? = some false := (hu.unused_iff j).mpr ⟨le_rfl, hlt⟩
  have hj' : used[j + 1]? = some false := (hu.unused_iff _).mpr ⟨by omega, hk.lt⟩
  have hcount := count_set_used hj
  have hcount' := count_set_used hj'
  obtain ⟨rest, hrange, hfirst⟩ := trackRec_front ways fuel hu hlt
  obtain ⟨rest', hrange'⟩ := range_split hk.lt
  obtain rfl : rest = (j + 1) :: rest' := by
    rw [hrange', List.range_succ, List.append_assoc] at hrange
    simpa using hrange.symm
  have hfail : trackRec openWays ways fuel (used.set j true) (nodesAt openWays ways j) =
      .ok ⟨false, used.set j true, []⟩ := by
    rw [hk.before j (by omega)]
    refine trackRec_fails hu.use (fun i hi hin => ?_) hring (by omega)
    rcases hi.eq_or_lt with rfl | hi
    · exact hk.ne_nil
    · exact hfill i hin hi
  rw [hfirst, tryFirst_failed hj hfail]
  -- the next way is tried while the one before it is unused
  have hused : ∀ i < j, (used.set (j + 1) true)[i]? ≠ some false := by
    intro i hi hui
    have := (hu.unused_iff i).mp (getElem?_set_used.mp hui).2
    omega
  have hwalk := trackRec_walk (e := j) fuel (getElem?_set_used.mpr ⟨by omega, hj⟩) hlt
    (hk.before j (by omega)) (fun i hi hui => absurd hui (hused i hi)) (by omega) hk.ne_nil
  have hnone : unusedBefore (used.set (j + 1) true) j = [] :=
    List.filter_eq_nil_iff.mpr fun i hi => by simpa using hused i (List.mem_range.mp hi)
  rw [hnone, walkCloses_nil, eq_false hopen] at hwalk
  exact .first hj' hwalk

lemma trackRec_empty (hnil : ∀ i : ℕ, nodesAt openWays ways i = []) (fuel : ℕ) (used : List Bool)
    (hfuel : used.count false < fuel) :
    trackRec openWays ways fuel used [] = .ok ⟨false, used, []⟩ := by
  induction fuel generalizing used with
  | zero => omega
  | succ fuel ih =>
    change tryFirst openWays ways (trackRec openWays ways fuel) _ used [] = _
    induction List.range openWays.length with
    | nil => rfl
    | cons i is ih' =>
      by_cases hu : used[i]? = some false
      · have hcount := count_set_used hu
        rw [tryFirst_failed hu (by rw [hnil i]; exact ih _ (by omega))]
        exact ih'
      · rw [tryFirst_used hu]
        exact ih'

end Front

/-! ### A whole search -/

section Search

variable {openWays : List ℤ} {ways : List Way} {k : ℕ}

lemma nodesAt_of_le {i : ℕ} (h : openWays.length ≤ i) : nodesAt openWays ways i = [] := by
  unfold nodesAt
  rw [List.getD_eq_default _ _ h]
  rfl

lemma tolerable_iff_walkCloses {n e : ℕ} {W : ℕ → List ℕ} (hk : FirstFilled n W k)
    (he : NextEmpty n W k e) :
    WalkCloses W ((List.range e).filter fun i => decide (k < i)) (W k) ↔ Tolerable n W := by
  refine ⟨fun hc => ⟨fun k' e' hk' he' => ?_, fun k' hk' _ hfill => ?_⟩,
    fun ht => ht.walk k e hk he⟩
  · obtain rfl := hk.eq hk'
    obtain rfl := he.eq he'
    exact hc
  · obtain rfl := hk.eq hk'
    exact absurd he.nil (hfill e he.lt he.after)

lemma tolerable_iff_ring {n : ℕ} {W : ℕ → List ℕ} (hk : FirstFilled n W k) (hpos : 0 < k)
    (hfill : ∀ i < n, k < i → W i ≠ []) :
    (∃ qs, RingThrough W (fun i => k ≤ i ∧ i < n) qs) ↔ Tolerable n W := by
  refine ⟨fun hring => ⟨fun k' e hk' he => ?_, fun k' hk' _ _ => ?_⟩,
    fun ht => ht.ring k hk hpos hfill⟩
  · obtain rfl := hk.eq hk'
    exact absurd he.nil (hfill e he.lt he.after)
  · obtain rfl := hk.eq hk'
    exact hring

/-- With all ways without nodes in front, the search faults when it finds no ring. -/
lemma trackRec_inFront (hopen : ∀ i < openWays.length, ¬ ClosedNodes (nodesAt openWays ways i))
    (hk : FirstFilled openWays.length (nodesAt openWays ways) k) (hpos : 0 < k)
    (hfill : ∀ i < openWays.length, k < i → nodesAt openWays ways i ≠ []) (fuel : ℕ)
    (used : List Bool) (hu : UnusedFrom openWays.length used 0)
    (hfuel : used.count false < fuel) :
    FindsOrFaults (∃ qs, RingThrough (nodesAt openWays ways)
      (fun i => k ≤ i ∧ i < openWays.length) qs) (trackRec openWays ways fuel used []) := by
  by_cases hring : ∃ qs, RingThrough (nodesAt openWays ways)
      (fun i => k ≤ i ∧ i < openWays.length) qs
  · refine trackRec_passes hk.lt hk.before (fun fuel used hu hfuel => .inl ⟨hring, ?_⟩) k.zero_le
      fuel used hu hfuel
    have hf : Filled openWays ways used := by
      refine ⟨hu.length, fun i hi => ?_, fun i hi => hopen i ((hu.unused_iff i).mp hi).2⟩
      obtain ⟨hki, hin⟩ := (hu.unused_iff i).mp hi
      rcases hki.eq_or_lt with rfl | hki
      · exact hk.ne_nil
      · exact hfill i hin hki
    obtain ⟨qs, hqs⟩ := hring
    exact trackRec_finds hf hfuel (hqs.imp fun i hi => (hu.unused_iff i).mpr hi)
  · obtain ⟨j, rfl⟩ : ∃ j, k = j + 1 := ⟨k - 1, by omega⟩
    rw [eq_false hring]
    exact trackRec_passes (Nat.lt_of_succ_lt hk.lt) (fun i hi => hk.before i (by omega))
      (trackRec_comesBack hk (hopen _ hk.lt) hfill hring) j.zero_le fuel used hu hfuel

lemma tolerable_of_filled {n : ℕ} {W : ℕ → List ℕ} (hfill : ∀ i < n, W i ≠ []) :
    Tolerable n W where
  walk _ e _ he := absurd he.nil (hfill e he.lt)
  ring _ hk hpos _ := absurd (hk.before 0 hpos) (hfill 0 (hpos.trans hk.lt))

lemma tolerable_of_empty {n : ℕ} {W : ℕ → List ℕ} (hnone : ¬ ∃ k, FirstFilled n W k) :
    Tolerable n W where
  walk _ _ hk _ := absurd ⟨_, hk⟩ hnone
  ring _ hk _ _ := absurd ⟨_, hk⟩ hnone

/-- **Ways without nodes in the search for a ring.** A search among open ways that are not
closed by themselves comes to an end if it tolerates the ways without nodes among them, and
asks one of them for its ends if it does not. -/
theorem trackRec_tolerable
    (hopen : ∀ i < openWays.length, ¬ ClosedNodes (nodesAt openWays ways i)) :
    ReturnsOrFaults (Tolerable openWays.length (nodesAt openWays ways))
      (trackRec openWays ways (openWays.length + 1)
        (List.replicate openWays.length false) []) := by
  have hfuel : (List.replicate openWays.length false).count false < openWays.length + 1 := by simp
  have hfresh := unusedFrom_fresh openWays.length
  by_cases hfilled : ∃ k, FirstFilled openWays.length (nodesAt openWays ways) k
  · obtain ⟨k, hk⟩ := hfilled
    by_cases hempty : ∃ e, NextEmpty openWays.length (nodesAt openWays ways) k e
    · obtain ⟨e, he⟩ := hempty
      exact (trackRec_passes hk.lt hk.before (trackRec_decides hk he) k.zero_le _ _ hfresh
        hfuel).returns (tolerable_iff_walkCloses hk he)
    have hfill : ∀ i < openWays.length, k < i → nodesAt openWays ways i ≠ [] :=
      fun i hi hki hnil => hempty (exists_nextEmpty hi hki hnil)
    rcases k.eq_zero_or_pos with rfl | hpos
    · -- all ways have nodes
      have hall : ∀ i < openWays.length, nodesAt openWays ways i ≠ [] := by
        intro i hi
        rcases i.eq_zero_or_pos with rfl | hi0
        · exact hk.ne_nil
        · exact hfill i hi hi0
      obtain ⟨r, hr, -⟩ := trackRec_spec hall _ _ [] hfuel
      exact .inl ⟨tolerable_of_filled hall, r, hr⟩
    · exact (trackRec_inFront hopen hk hpos hfill _ _ hfresh hfuel).returns
        (tolerable_iff_ring hk hpos hfill)
  · have hnil : ∀ i : ℕ, nodesAt openWays ways i = [] := by
      intro i
      rcases Nat.lt_or_ge i openWays.length with hi | hi
      · by_contra hne
        exact hfilled (exists_firstFilled hi hne)
      · exact nodesAt_of_le hi
    exact .inl ⟨tolerable_of_empty hfilled, _, trackRec_empty hnil _ _ hfuel⟩

/-- The same of `Track`. -/
theorem track_tolerable (hopen : ∀ i ∈ openWays, isClosed (wayAt ways i) = false) :
    ReturnsOrFaults (Tolerable openWays.length (nodesAt openWays ways)) (track openWays ways) := by
  have hunclosed : ∀ i < openWays.length, ¬ ClosedNodes (nodesAt openWays ways i) := by
    intro i hi hcl
    have hfalse := hopen _ (getD_mem hi (-1))
    rw [closedNodes_iff.mp hcl] at hfalse
    cases hfalse
  unfold track
  rcases trackRec_tolerable hunclosed with ⟨ht, ⟨found, used, nodes⟩, hr⟩ | ⟨ht, hr⟩
  · rw [hr]
    cases found with
    | true => exact .inl ⟨ht, _, rfl⟩
    | false => exact .inl ⟨ht, _, rfl⟩
  · rw [hr]
    exact .inr ⟨ht, rfl⟩

lemma length_filter_setUsed_lt {qs : List (ℕ × Bool)} (hqs : qs ≠ [])
    (hlt : ∀ q ∈ qs, q.1 < openWays.length) :
    ((setUsed openWays qs).filter fun v => !decide (v < 0)).length < openWays.length := by
  obtain ⟨q, l, rfl⟩ := List.exists_cons_of_ne_nil hqs
  have hq := hlt q List.mem_cons_self
  have hmark : (-1 : ℤ) ∈ setUsed openWays (q :: l) :=
    List.mem_iff_getElem.mpr ⟨q.1, by simpa [setUsed] using hq, by simp [setUsed]⟩
  have hlen : (setUsed openWays (q :: l)).length = openWays.length := by simp [setUsed]
  rw [← hlen]
  exact List.length_filter_lt_length_iff_exists.mpr ⟨-1, hmark, by decide⟩

lemma mem_of_filter_setUsed {qs : List (ℕ × Bool)} {v : ℤ}
    (hv : v ∈ (setUsed openWays qs).filter fun v => !decide (v < 0)) : v ∈ openWays := by
  obtain ⟨hmem, hpos⟩ := List.mem_filter.mp hv
  obtain ⟨i, hi, rfl⟩ := List.mem_iff_getElem.mp hmem
  have hlt : i < openWays.length := by simpa [setUsed] using hi
  simp only [setUsed, List.getElem_mapIdx] at hpos ⊢
  split at hpos
  · exact absurd hpos (by decide)
  · rename_i hq
    rw [if_neg hq]
    exact List.getElem_mem hlt

lemma track_takes {nodes : List ℕ} {left : List ℤ} (h : track openWays ways = .ok (nodes, left))
    (hne : nodes ≠ []) : (left.filter fun v => !decide (v < 0)).length < openWays.length ∧
      ∀ v ∈ left.filter fun v => !decide (v < 0), v ∈ openWays := by
  unfold track at h
  cases hr : trackRec openWays ways (openWays.length + 1)
      (List.replicate openWays.length false) [] with
  | error e =>
    rw [hr] at h
    cases h
  | ok r =>
    obtain ⟨found, used, nodes'⟩ := r
    have hout := trackRec_sound _ _ _ _ hr
    rw [hr] at h
    cases found with
    | false =>
      cases h
      exact absurd (hout.restored rfl).2 hne
    | true =>
      cases h
      obtain ⟨⟨qs, hext⟩, hcl⟩ := hout.extended rfl
      rw [marks_eq hext]
      have hqs : qs ≠ [] := by
        rintro rfl
        exact hne (by simpa using hext.nodes_eq)
      have hlt : ∀ q ∈ qs, q.1 < openWays.length := fun q hq => by
        simpa using hext.mem_unused q hq
      exact ⟨length_filter_setUsed_lt hqs hlt, fun v hv => mem_of_filter_setUsed hv⟩

end Search

end SelfTraining.Route
