import SelfTraining.Route.EmptyWays
import SelfTraining.Route.IndexIntegrity

/-!
The calls of `Track` that loading a map makes.

Each is made with a pointer that was taken when its list was begun, and among open ways that
may have no nodes. The faults of a run are those of its calls: a pointer that points at
nothing, or open ways that are not tolerated. Which it is, and when, is asked call by call.
-/

namespace SelfTraining.Route

/-- A call of `Track`: its open ways, the ways that its pointer was taken to, the epoch in
which it was taken, and `m_Ways` with its storage when the call is made. -/
structure TrackCall where
  openWays : List ℤ
  ways : List Way
  pointer : ℕ
  mWays : List Way
  storage : Storage
  deriving DecidableEq

namespace TrackCall

def Current (c : TrackCall) : Prop := c.pointer = c.storage.epoch

instance (c : TrackCall) : Decidable c.Current := inferInstanceAs (Decidable (_ = _))

/-- The pointer is of the current epoch, and each way it was taken to is the one stored. -/
structure ReadsStored (c : TrackCall) : Prop where
  current : c.Current
  stored : ∀ i : ℕ, i < c.ways.length → wayAt c.mWays i = wayAt c.ways i

def Tolerable (c : TrackCall) : Prop :=
  Route.Tolerable c.openWays.length (nodesAt c.openWays c.ways)

end TrackCall

/-! ### The calls of a run -/

/-- The calls of the loop of `process`; none comes after one that is a fault. -/
def processLoopCalls (g : Growth) (ways : List Way) (pointer : ℕ) :
    ℕ → Processed → Storage → List TrackCall
  | 0, _, _ => []
  | fuel + 1, st, s =>
    if st.left = [] then []
    else ⟨st.left, ways, pointer, st.mWays, s⟩ ::
      if s.epoch ≠ pointer then []
      else
        match track st.left ways with
        | .error _ => []
        | .ok (newNodes, left) =>
          if newNodes = [] then []
          else processLoopCalls g ways pointer fuel
            { closed := st.closed ++ [(st.mWays.length : ℤ)]
              left := left.filter fun v => !decide (v < 0)
              mWays := st.mWays ++ [⟨newNodes⟩] }
            (g.emplaceBack st.mWays.length s)

def processCalls (g : Growth) (mWays : List Way) (s : Storage) (waysNums : List ℤ) :
    List TrackCall :=
  processLoopCalls g mWays s.epoch (waysNums.length + 1)
    { closed := waysNums.filter fun i => isClosed (wayAt mWays i)
      left := waysNums.filter fun i => !isClosed (wayAt mWays i)
      mWays := mWays } s

/-- What a result is followed by, if it is one. -/
def callsAfter {α : Type*} (r : Except LoadFault α) (next : α → List TrackCall) :
    List TrackCall :=
  match r with
  | .error _ => []
  | .ok x => next x

def buildRingsCalls (g : Growth) (mWays : List Way) (s : Storage) (mp : Multipolygon) :
    List TrackCall :=
  processCalls g mWays s mp.outer ++ callsAfter (processStored g mWays s mp.outer)
    fun outer => processCalls g outer.1.mWays outer.2 mp.inner

section Load

variable {K F : Type*}

def commitCalls (g : Growth) (m : MapModel K) : Committed → List TrackCall
  | .nothing => []
  | .building _ => []
  | .water mp => buildRingsCalls g m.ways m.storage mp
  | .landuse mp _ => buildRingsCalls g m.ways m.storage mp

def commitAllCalls (g : Growth) : MapModel K → List Committed → List TrackCall
  | _, [] => []
  | m, c :: cs => commitCalls g m c ++ callsAfter (commit g m c) fun m' => commitAllCalls g m' cs

def loadDataCalls (a : Arithmetic K F) (g : Growth) (doc : List XmlNode) : List TrackCall :=
  match selectNodes doc "bounds" with
  | [] => []
  | bounds :: _ =>
    commitAllCalls g (readWays a g doc bounds).model
      (readRelations (readWays a g doc bounds).idToNum doc)

end Load

/-! ### The faults of a run are those of its calls -/

/-- What a run comes to, told from its calls of `Track`. -/
structure Accounts {α : Type*} (calls : List TrackCall) (r : Except LoadFault α) : Prop where
  dangling : r = .error .danglingPointer ↔ ∃ c ∈ calls, ¬ c.Current
  empty : r = .error (.ring .emptyVector) ↔ ∃ c ∈ calls, c.Current ∧ ¬ c.Tolerable
  ends : r ≠ .error (.ring .outOfFuel)

section Accounts

variable {α β : Type*} {calls : List TrackCall} {r : Except LoadFault α}

lemma Accounts.ok (x : α) : Accounts [] (.ok x : Except LoadFault α) where
  dangling := iff_of_false nofun (by simp)
  empty := iff_of_false nofun (by simp)
  ends := nofun

lemma Accounts.bind {next : α → List TrackCall} {r' : Except LoadFault β} (h : Accounts calls r)
    (herror : ∀ e, r = .error e → r' = .error e) (hok : ∀ x, r = .ok x → Accounts (next x) r') :
    Accounts (calls ++ callsAfter r next) r' := by
  cases r with
  | error e =>
    rw [callsAfter, List.append_nil, herror e rfl]
    exact ⟨by simpa using h.dangling, by simpa using h.empty, by simpa using h.ends⟩
  | ok x =>
    have hok := hok x rfl
    have hcurrent : ∀ c ∈ calls, c.Current := fun c hc => by
      by_contra hn
      exact absurd (h.dangling.mpr ⟨c, hc, hn⟩) nofun
    have htolerable : ∀ c ∈ calls, c.Tolerable := fun c hc => by
      by_contra hn
      exact absurd (h.empty.mpr ⟨c, hc, hcurrent c hc, hn⟩) nofun
    refine ⟨hok.dangling.trans ⟨?_, ?_⟩, hok.empty.trans ⟨?_, ?_⟩, hok.ends⟩
    · rintro ⟨c, hc, hn⟩
      exact ⟨c, List.mem_append_right _ hc, hn⟩
    · rintro ⟨c, hc, hn⟩
      exact ⟨c, (List.mem_append.mp hc).resolve_left fun hc => hn (hcurrent c hc), hn⟩
    · rintro ⟨c, hc, hn⟩
      exact ⟨c, List.mem_append_right _ hc, hn⟩
    · rintro ⟨c, hc, hcur, hn⟩
      exact ⟨c, (List.mem_append.mp hc).resolve_left fun hc => hn (htolerable c hc), hcur, hn⟩

lemma Accounts.of_eq {r' : Except LoadFault β} (h : Accounts calls r)
    (herror : ∀ e, r = .error e → r' = .error e) (hok : ∀ x, r = .ok x → ∃ y, r' = .ok y) :
    Accounts calls r' := by
  have hbind : Accounts (calls ++ callsAfter r fun _ => []) r' := h.bind herror fun x hx => by
    obtain ⟨y, hy⟩ := hok x hx
    rw [hy]
    exact .ok y
  cases r with
  | error e => rwa [callsAfter, List.append_nil] at hbind
  | ok x => rwa [callsAfter, List.append_nil] at hbind

lemma Accounts.cons {c : TrackCall} (hcur : c.Current) (ht : c.Tolerable) (h : Accounts calls r) :
    Accounts (c :: calls) r where
  dangling := by simpa [hcur] using h.dangling
  empty := by simpa [ht] using h.empty
  ends := h.ends

lemma Accounts.stale {c : TrackCall} (hn : ¬ c.Current) :
    Accounts [c] (.error .danglingPointer : Except LoadFault α) where
  dangling := iff_of_true rfl ⟨c, by simp, hn⟩
  empty := iff_of_false nofun (by simp [hn])
  ends := nofun

lemma Accounts.intolerable {c : TrackCall} (hcur : c.Current) (hn : ¬ c.Tolerable) :
    Accounts [c] (.error (.ring .emptyVector) : Except LoadFault α) where
  dangling := iff_of_false nofun (by simp [hcur])
  empty := iff_of_true rfl ⟨c, by simp, hcur, hn⟩
  ends := nofun

end Accounts

section Process

variable {g : Growth}

lemma processLoop_accounts {ways : List Way} {pointer fuel : ℕ} {st : Processed} {s : Storage}
    (hopen : ∀ i ∈ st.left, isClosed (wayAt ways i) = false) (hfuel : st.left.length < fuel) :
    Accounts (processLoopCalls g ways pointer fuel st s)
      (processStoredLoop g ways pointer fuel st s) := by
  induction fuel generalizing st s with
  | zero => omega
  | succ fuel ih =>
    rw [processLoopCalls, processStoredLoop]
    by_cases hleft : st.left = []
    · rw [if_pos hleft, if_pos hleft]
      exact .ok _
    rw [if_neg hleft, if_neg hleft]
    by_cases hcur : s.epoch = pointer
    swap
    · rw [if_pos hcur, if_pos hcur]
      exact .stale fun h => hcur h.symm
    rw [if_neg (by simpa using hcur), if_neg (by simpa using hcur)]
    rcases track_tolerable hopen with ⟨ht, ⟨newNodes, left⟩, htrack⟩ | ⟨ht, htrack⟩
    · simp only [htrack]
      by_cases hnil : newNodes = []
      · rw [if_pos hnil, if_pos hnil]
        exact .cons hcur.symm ht (.ok _)
      · rw [if_neg hnil, if_neg hnil]
        obtain ⟨hshorter, hmem⟩ := track_takes htrack hnil
        exact .cons hcur.symm ht (ih (fun i hi => hopen i (hmem i hi))
          (hshorter.trans_le (Nat.lt_succ_iff.mp hfuel)))
    · simp only [htrack]
      exact .intolerable hcur.symm ht

lemma process_accounts (mWays : List Way) (s : Storage) (nums : List ℤ) :
    Accounts (processCalls g mWays s nums) (processStored g mWays s nums) := by
  refine processLoop_accounts (fun i hi => ?_) ?_
  · simpa using (List.mem_filter.mp hi).2
  · exact (List.length_filter_le _ _).trans_lt (by simp)

lemma buildRings_accounts (mWays : List Way) (s : Storage) (mp : Multipolygon) :
    Accounts (buildRingsCalls g mWays s mp) (buildRingsStored g mWays s mp) := by
  refine (process_accounts mWays s mp.outer).bind (fun e he => ?_) fun outer houter => ?_
  · simp only [buildRingsStored, he]
  · refine (process_accounts outer.1.mWays outer.2 mp.inner).of_eq (fun e he => ?_)
      fun inner hinner => ?_
    · simp only [buildRingsStored, houter, he]
    · exact ⟨_, by simp only [buildRingsStored, houter, hinner]; rfl⟩

variable {K F : Type*}

lemma commit_accounts (m : MapModel K) (c : Committed) :
    Accounts (commitCalls g m c) (commit g m c) := by
  cases c with
  | nothing => exact .ok _
  | building mp => exact .ok _
  | water mp =>
    refine (buildRings_accounts m.ways m.storage mp).of_eq (fun e he => ?_) fun x hx => ?_
    · simp only [commit, he]
    · exact ⟨_, by simp only [commit, hx]; rfl⟩
  | landuse mp type =>
    refine (buildRings_accounts m.ways m.storage mp).of_eq (fun e he => ?_) fun x hx => ?_
    · simp only [commit, he]
    · exact ⟨_, by simp only [commit, hx]; rfl⟩

lemma commitAll_accounts (m : MapModel K) (cs : List Committed) :
    Accounts (commitAllCalls g m cs) (commitAll g m cs) := by
  induction cs generalizing m with
  | nil => exact .ok m
  | cons c cs ih =>
    refine (commit_accounts m c).bind (fun e he => ?_) fun m' hm' => ?_
    · simp only [commitAll, he]
    · simp only [commitAll, hm']
      exact ih m'

lemma loadData_accounts (a : Arithmetic K F) (g : Growth) (doc : List XmlNode) :
    Accounts (loadDataCalls a g doc) (loadData a g doc) := by
  unfold loadDataCalls loadData
  cases selectNodes doc "bounds" with
  | nil => exact ⟨iff_of_false nofun (by simp), iff_of_false nofun (by simp), nofun⟩
  | cons bounds more => exact commitAll_accounts _ _

/-- **Ways without nodes in a map.** Whatever document is loaded, the rings come to an end,
and the end of an empty list of nodes is asked for exactly when some call of `Track` through
a current pointer is made among open ways that are not tolerated. -/
theorem empty_ways_tolerated_iff (a : Arithmetic K F) (g : Growth) (doc : List XmlNode) :
    loadData a g doc ≠ .error (.ring .outOfFuel) ∧
    (loadData a g doc ≠ .error (.ring .emptyVector) ↔
      ∀ c ∈ loadDataCalls a g doc, c.Current → c.Tolerable) := by
  have h := loadData_accounts a g doc
  refine ⟨h.ends, ?_⟩
  rw [Ne, h.empty]
  push Not
  rfl

end Process

/-- A pond between a path and a way of which no node is on the map. -/
def ruins : List XmlNode :=
  [.mk "osm" [] [
    unitBounds,
    element "node" [("id", "1")], element "node" [("id", "2")],
    .mk "way" [("id", "3")] [element "nd" [("ref", "1")], element "nd" [("ref", "2")]],
    .mk "way" [("id", "4")] [element "nd" [("ref", "8")], element "nd" [("ref", "9")]],
    .mk "relation" [("id", "5")] [
      element "member" [("type", "way"), ("ref", "3"), ("role", "outer")],
      element "member" [("type", "way"), ("ref", "4"), ("role", "outer")],
      element "tag" [("k", "natural"), ("v", "water")]]]]

/-- After the path the way without nodes is asked for its ends. -/
theorem ruins_ask_empty_way :
    loadData exactArithmetic doubling ruins = .error (.ring .emptyVector) := rfl

/-! ### Through which pointer the calls read -/

/-- How often `process` calls `Track` for the open ways `left`, as long as `ways` stay where
they are. -/
def trackCount (ways : List Way) : ℕ → List ℤ → ℕ
  | 0, _ => 0
  | fuel + 1, left =>
    if left = [] then 0
    else
      match track left ways with
      | .error _ => 1
      | .ok (newNodes, left') =>
        if newNodes = [] then 1
        else trackCount ways fuel (left'.filter fun v => !decide (v < 0)) + 1

/-- There is room for the rings of a list that come before its last call of `Track`. -/
def HasRoom (capacity : ℕ) (mWays : List Way) (waysNums : List ℤ) : Prop :=
  mWays.length + trackCount mWays (waysNums.length + 1)
    (waysNums.filter fun i => !isClosed (wayAt mWays i)) ≤ capacity + 1

section Pointer

variable {g : Growth} {ways : List Way} {pointer fuel : ℕ} {st : Processed} {s : Storage}

lemma processLoopCalls_stored (h : ways <+: st.mWays) :
    ∀ c ∈ processLoopCalls g ways pointer fuel st s, c.ways <+: c.mWays := by
  induction fuel generalizing st s with
  | zero => simp [processLoopCalls]
  | succ fuel ih =>
    intro c hc
    rw [processLoopCalls] at hc
    by_cases hleft : st.left = []
    · rw [if_pos hleft] at hc
      cases hc
    rw [if_neg hleft] at hc
    rcases List.mem_cons.mp hc with rfl | hc
    · exact h
    by_cases hcur : s.epoch ≠ pointer
    · rw [if_pos hcur] at hc
      cases hc
    rw [if_neg hcur] at hc
    cases htrack : track st.left ways with
    | error e =>
      simp only [htrack] at hc
      cases hc
    | ok out =>
      obtain ⟨newNodes, left⟩ := out
      simp only [htrack] at hc
      by_cases hnil : newNodes = []
      · rw [if_pos hnil] at hc
        cases hc
      · rw [if_neg hnil] at hc
        exact ih (h.trans (List.prefix_append _ _)) c hc

/-- Through a pointer that does not hold any more no call may be made. -/
lemma processLoopCalls_stale (h : s.epoch ≠ pointer) :
    (∀ c ∈ processLoopCalls g ways pointer fuel st s, c.Current) ↔
      trackCount ways fuel st.left = 0 := by
  cases fuel with
  | zero => exact iff_of_true (by simp [processLoopCalls]) rfl
  | succ fuel =>
    rw [processLoopCalls, trackCount]
    by_cases hleft : st.left = []
    · rw [if_pos hleft, if_pos hleft]
      exact iff_of_true (by simp) rfl
    rw [if_neg hleft, if_neg hleft, if_pos h]
    refine iff_of_false (fun hcur => h (hcur _ List.mem_cons_self).symm) ?_
    cases track st.left ways with
    | error e => exact one_ne_zero
    | ok out =>
      by_cases hnil : out.1 = []
      · simp only [if_pos hnil]
        exact one_ne_zero
      · simp only [if_neg hnil]
        omega

/-- **The pointer of a list.** It is current in all calls exactly when there is room for the
rings that come before the last of them. -/
lemma processLoopCalls_current (hcap : st.mWays.length ≤ s.capacity) :
    (∀ c ∈ processLoopCalls g ways s.epoch fuel st s, c.Current) ↔
      st.mWays.length + trackCount ways fuel st.left ≤ s.capacity + 1 := by
  induction fuel generalizing st with
  | zero =>
    refine iff_of_true (by simp [processLoopCalls]) ?_
    rw [trackCount]
    omega
  | succ fuel ih =>
    rw [processLoopCalls, trackCount]
    by_cases hleft : st.left = []
    · rw [if_pos hleft, if_pos hleft]
      exact iff_of_true (by simp) (by omega)
    rw [if_neg hleft, if_neg hleft, if_neg (by simp), List.forall_mem_cons]
    refine (and_iff_right (rfl : s.epoch = s.epoch)).trans ?_
    cases htrack : track st.left ways with
    | error e => exact iff_of_true (by simp) (by simpa using hcap)
    | ok out =>
      obtain ⟨newNodes, left⟩ := out
      by_cases hnil : newNodes = []
      · simp only [if_pos hnil]
        exact iff_of_true (by simp) (by simpa using hcap)
      simp only [if_neg hnil]
      rcases hcap.eq_or_lt with hfull | hroom
      · -- the ring moves the ways to new storage
        rw [hfull, g.emplaceBack_full, processLoopCalls_stale (by simp)]
        dsimp only
        omega
      · rw [g.emplaceBack_room hroom, ih (by simpa using hroom)]
        simp only [List.length_append, List.length_singleton]
        omega

lemma processCalls_readsStored {mWays : List Way} {nums : List ℤ}
    (hcap : mWays.length ≤ s.capacity) :
    (∀ c ∈ processCalls g mWays s nums, c.ReadsStored) ↔ HasRoom s.capacity mWays nums := by
  have hcurrent : (∀ c ∈ processCalls g mWays s nums, c.Current) ↔
      HasRoom s.capacity mWays nums := processLoopCalls_current hcap
  rw [← hcurrent]
  refine forall₂_congr fun c hc => ⟨fun h => h.current, fun h => ⟨h, fun i hi => ?_⟩⟩
  have hprefix : c.ways <+: c.mWays := by
    refine processLoopCalls_stored ?_ c hc
    exact List.prefix_rfl
  obtain ⟨new, hnew⟩ := hprefix
  rw [wayAt_natCast, wayAt_natCast, ← hnew, List.getD_append _ _ _ _ hi]

lemma processStoredLoop_capacity {r : Processed} {s' : Storage}
    (hcap : st.mWays.length ≤ s.capacity)
    (h : processStoredLoop g ways pointer fuel st s = .ok (r, s')) :
    r.mWays.length ≤ s'.capacity := by
  induction fuel generalizing st s with
  | zero => cases h
  | succ fuel ih =>
    rw [processStoredLoop] at h
    by_cases hleft : st.left = []
    · rw [if_pos hleft] at h
      cases h
      exact hcap
    rw [if_neg hleft] at h
    by_cases hcur : s.epoch ≠ pointer
    · rw [if_pos hcur] at h
      cases h
    rw [if_neg hcur] at h
    cases htrack : track st.left ways with
    | error e =>
      simp only [htrack] at h
      cases h
    | ok out =>
      obtain ⟨newNodes, left⟩ := out
      simp only [htrack] at h
      by_cases hnil : newNodes = []
      · rw [if_pos hnil] at h
        cases h
        exact hcap
      · rw [if_neg hnil] at h
        refine ih ?_ h
        simpa using g.size_le hcap

/-- **Every way that is read is the way stored**, in all calls that `BuildRings` makes of
`Track`, exactly when each of its two lists, as it is begun, has room for the rings that
come before its last call. -/
theorem calls_read_stored_iff (g : Growth) {mWays : List Way} {s : Storage}
    (hcap : mWays.length ≤ s.capacity) (mp : Multipolygon) :
    (∀ c ∈ buildRingsCalls g mWays s mp, c.ReadsStored) ↔
      HasRoom s.capacity mWays mp.outer ∧
      ∀ outer s₁, processStored g mWays s mp.outer = .ok (outer, s₁) →
        HasRoom s₁.capacity outer.mWays mp.inner := by
  unfold buildRingsCalls
  rw [List.forall_mem_append, processCalls_readsStored hcap]
  refine and_congr_right fun _ => ?_
  cases houter : processStored g mWays s mp.outer with
  | error e => exact iff_of_true (by simp [callsAfter]) nofun
  | ok out =>
    obtain ⟨outer, s₁⟩ := out
    refine (processCalls_readsStored (processStoredLoop_capacity hcap houter)).trans ?_
    refine ⟨fun h outer' s₁' heq => ?_, fun h => h outer s₁ rfl⟩
    cases heq
    exact h

end Pointer

/-- Four ways that make two rings. -/
def fourWays : List Way := [⟨[0, 1]⟩, ⟨[1, 0]⟩, ⟨[2, 3]⟩, ⟨[3, 2]⟩]

theorem calls_read_stored_iff_room :
    (buildRingsCalls doubling fourWays ⟨8, 0⟩ ⟨[0, 1], [2, 3]⟩).length = 2 ∧
      ∀ c ∈ buildRingsCalls doubling fourWays ⟨8, 0⟩ ⟨[0, 1], [2, 3]⟩, c.ReadsStored := by
  refine ⟨by decide, (calls_read_stored_iff doubling (by decide) ⟨[0, 1], [2, 3]⟩).mpr ⟨?_, ?_⟩⟩
  · unfold HasRoom
    decide
  · intro outer s₁ h
    cases h
    unfold HasRoom
    decide

/-- In storage for four, the second ring is looked for through the pointer to the old one. -/
theorem fourWays_stale :
    ¬ ∀ c ∈ buildRingsCalls doubling fourWays ⟨4, 0⟩ ⟨[0, 1, 2, 3], []⟩, c.ReadsStored := by
  intro h
  have hcurrent : ∀ c ∈ buildRingsCalls doubling fourWays ⟨4, 0⟩ ⟨[0, 1, 2, 3], []⟩,
      c.Current := fun c hc => (h c hc).current
  revert hcurrent
  decide

end SelfTraining.Route
