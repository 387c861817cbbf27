import SelfTraining.Route.BuildRings

/-!
`BuildRings` on the storage of `m_Ways`.

`process` takes the pointer `ways` once for a list and appends to `m_Ways` while it goes on
to use it. An `emplace_back` that finds the vector full moves it to new storage, and from
then on the pointer points at nothing: a call of `Track` with it is a fault. When the rings
of a list fit into the storage there is, all goes as if the ways could not move.
-/

namespace SelfTraining.Route

/-- What ends the construction of a map. -/
inductive LoadFault
  | boundsNotDefined | ring (fault : Fault) | danglingPointer
  deriving DecidableEq

/-- The capacity that a full vector is given. -/
structure Growth where
  next : ℕ → ℕ
  lt_next : ∀ n, n < next n

/-- The storage of a vector; with every move to a new one the epoch changes. -/
structure Storage where
  capacity : ℕ
  epoch : ℕ
  deriving DecidableEq

/-- The storage after an `emplace_back` to a vector of that size. -/
def Growth.emplaceBack (g : Growth) (size : ℕ) (s : Storage) : Storage :=
  if size = s.capacity then ⟨g.next s.capacity, s.epoch + 1⟩ else s

lemma Growth.emplaceBack_full (g : Growth) (s : Storage) :
    g.emplaceBack s.capacity s = ⟨g.next s.capacity, s.epoch + 1⟩ := if_pos rfl

lemma Growth.emplaceBack_room (g : Growth) {size : ℕ} {s : Storage} (h : size < s.capacity) :
    g.emplaceBack size s = s := if_neg h.ne

lemma Growth.size_le (g : Growth) {size : ℕ} {s : Storage} (h : size ≤ s.capacity) :
    size + 1 ≤ (g.emplaceBack size s).capacity := by
  rcases h.eq_or_lt with rfl | h
  · rw [g.emplaceBack_full]
    exact g.lt_next s.capacity
  · rw [g.emplaceBack_room h]
    exact h

/-- The loop of `process` on the storage; `pointer` is the epoch in which `ways` was taken. -/
def processStoredLoop (g : Growth) (ways : List Way) (pointer : ℕ) :
    ℕ → Processed → Storage → Except LoadFault (Processed × Storage)
  | 0, _, _ => .error (.ring .outOfFuel)
  | fuel + 1, st, s =>
    if st.left = [] then .ok (st, s)
    else if s.epoch ≠ pointer then .error .danglingPointer
    else
      match track st.left ways with
      | .error e => .error (.ring e)
      | .ok (newNodes, left) =>
        if newNodes = [] then .ok ({ st with left := left }, s)
        else processStoredLoop g ways pointer fuel
          { closed := st.closed ++ [(st.mWays.length : ℤ)]
            left := left.filter fun v => !decide (v < 0)
            mWays := st.mWays ++ [⟨newNodes⟩] }
          (g.emplaceBack st.mWays.length s)

def processStored (g : Growth) (mWays : List Way) (s : Storage) (waysNums : List ℤ) :
    Except LoadFault (Processed × Storage) :=
  processStoredLoop g mWays s.epoch (waysNums.length + 1)
    { closed := waysNums.filter fun i => isClosed (wayAt mWays i)
      left := waysNums.filter fun i => !isClosed (wayAt mWays i)
      mWays := mWays } s

/-- The ways, their storage and the multipolygon after `BuildRings`. -/
def buildRingsStored (g : Growth) (mWays : List Way) (s : Storage) (mp : Multipolygon) :
    Except LoadFault (List Way × Storage × Multipolygon) :=
  match processStored g mWays s mp.outer with
  | .error e => .error e
  | .ok (outer, s₁) =>
    match processStored g outer.mWays s₁ mp.inner with
    | .error e => .error e
    | .ok (inner, s₂) => .ok (inner.mWays, s₂, ⟨outer.closed, inner.closed⟩)

lemma processStoredLoop_grow {g : Growth} {ways : List Way} {pointer fuel : ℕ}
    {st r : Processed} {s s' : Storage}
    (h : processStoredLoop g ways pointer fuel st s = .ok (r, s')) : st.mWays <+: r.mWays := by
  induction fuel generalizing st s with
  | zero => cases h
  | succ fuel ih =>
    rw [processStoredLoop] at h
    split_ifs at h
    · cases h
      exact List.prefix_rfl
    · split at h
      · cases h
      · split_ifs at h
        · cases h
          exact List.prefix_rfl
        · exact (List.prefix_append _ _).trans (ih h)

lemma processStored_grow {g : Growth} {mWays : List Way} {nums : List ℤ} {r : Processed}
    {s s' : Storage} (h : processStored g mWays s nums = .ok (r, s')) : mWays <+: r.mWays := by
  unfold processStored at h
  exact processStoredLoop_grow h

lemma buildRingsStored_grow {g : Growth} {mWays after : List Way} {s s' : Storage}
    {mp mp' : Multipolygon} (h : buildRingsStored g mWays s mp = .ok (after, s', mp')) :
    mWays <+: after := by
  unfold buildRingsStored at h
  split at h
  · cases h
  · rename_i outer s₁ houter
    split at h
    · cases h
    · rename_i inner s₂ hinner
      cases h
      exact (processStored_grow houter).trans (processStored_grow hinner)

/-! ### When the pointer holds -/

/-- The rings of a list fit into a capacity; one that uses up the open ways may be one too
many, since no call of `Track` comes after it. -/
def Fits (capacity : ℕ) (r : Processed) : Prop :=
  r.mWays.length ≤ capacity ∨ (r.mWays.length = capacity + 1 ∧ r.left = [])

instance (capacity : ℕ) (r : Processed) : Decidable (Fits capacity r) :=
  inferInstanceAs (Decidable (_ ∨ _))

lemma track_length {openWays : List ℤ} {ways : List Way} {newNodes : List ℕ} {left : List ℤ}
    (h : track openWays ways = .ok (newNodes, left)) : left.length = openWays.length := by
  unfold track at h
  split at h
  · cases h
  · cases h; simp
  · cases h; rfl

lemma processLoopUnmoved_left {ways : List Way} {fuel : ℕ} {st r : Processed} (hleft : st.left ≠ [])
    (h : processLoopUnmoved ways fuel st = .ok r) :
    r.left ≠ [] ∨ st.mWays.length < r.mWays.length := by
  cases fuel with
  | zero => cases h
  | succ fuel =>
    rw [processLoopUnmoved, if_neg hleft] at h
    split at h
    · cases h
    · rename_i newNodes left htrack
      split at h
      · cases h
        refine .inl fun hnil => hleft ?_
        have hlen := track_length htrack
        rw [show left = [] from hnil] at hlen
        exact List.length_eq_zero_iff.mp hlen.symm
      · have hgrow := (processLoopUnmoved_grow h).length_le
        simp only [List.length_append, List.length_singleton] at hgrow
        exact .inr hgrow

/-- Through a pointer that does not hold the loop can only be left. -/
lemma processStoredLoop_stale (g : Growth) {ways : List Way} {pointer fuel : ℕ}
    {st r : Processed} {s : Storage} (hstale : s.epoch ≠ pointer)
    (h : processLoopUnmoved ways fuel st = .ok r) :
    (st.left = [] ∧ r = st ∧ processStoredLoop g ways pointer fuel st s = .ok (st, s)) ∨
    ((r.left ≠ [] ∨ st.mWays.length < r.mWays.length) ∧
      processStoredLoop g ways pointer fuel st s = .error .danglingPointer) := by
  cases fuel with
  | zero => cases h
  | succ fuel =>
    rw [processStoredLoop]
    by_cases hdone : st.left = []
    · rw [processLoopUnmoved, if_pos hdone] at h
      cases h
      exact .inl ⟨hdone, rfl, if_pos hdone⟩
    · rw [if_neg hdone, if_pos hstale]
      exact .inr ⟨processLoopUnmoved_left hdone h, rfl⟩

/-- Where the last ring was one too many, the vector has moved, and the loop must be done. -/
lemma processStoredLoop_full (g : Growth) {ways : List Way} {fuel : ℕ} {st r : Processed}
    {s : Storage} (hfull : st.mWays.length = s.capacity + 1)
    (h : processLoopUnmoved ways fuel st = .ok r) :
    (Fits s.capacity r ∧ ∃ s', r.mWays.length ≤ s'.capacity ∧
      processStoredLoop g ways s.epoch fuel st (g.emplaceBack s.capacity s) = .ok (r, s')) ∨
    (¬ Fits s.capacity r ∧ processStoredLoop g ways s.epoch fuel st
      (g.emplaceBack s.capacity s) = .error .danglingPointer) := by
  have hstale : (⟨g.next s.capacity, s.epoch + 1⟩ : Storage).epoch ≠ s.epoch :=
    Nat.succ_ne_self _
  rw [g.emplaceBack_full]
  rcases processStoredLoop_stale g hstale h with ⟨hdone, rfl, hrun⟩ | ⟨hmore, hrun⟩
  · refine .inl ⟨.inr ⟨hfull, hdone⟩, _, ?_, hrun⟩
    rw [hfull]
    exact g.lt_next s.capacity
  · refine .inr ⟨?_, hrun⟩
    have hgrow := (processLoopUnmoved_grow h).length_le
    rintro (hle | ⟨heq, hempty⟩)
    · omega
    · rcases hmore with hopen | hlonger
      · exact hopen hempty
      · omega

/-- **The loop on the storage.** It comes to what the loop comes to, as long as that fits;
else `Track` is called with a pointer that points at nothing. -/
lemma processStoredLoop_spec (g : Growth) {ways : List Way} {fuel : ℕ} {st r : Processed}
    {s : Storage} (hcap : st.mWays.length ≤ s.capacity)
    (h : processLoopUnmoved ways fuel st = .ok r) :
    (Fits s.capacity r ∧ ∃ s', r.mWays.length ≤ s'.capacity ∧
      processStoredLoop g ways s.epoch fuel st s = .ok (r, s')) ∨
    (¬ Fits s.capacity r ∧
      processStoredLoop g ways s.epoch fuel st s = .error .danglingPointer) := by
  induction fuel generalizing st with
  | zero => cases h
  | succ fuel ih =>
    rw [processLoopUnmoved] at h
    rw [processStoredLoop]
    by_cases hleft : st.left = []
    · rw [if_pos hleft] at h ⊢
      cases h
      exact .inl ⟨.inl hcap, s, hcap, rfl⟩
    rw [if_neg hleft] at h ⊢
    rw [if_neg (by simp)]
    cases htrack : track st.left ways with
    | error e =>
      simp only [htrack] at h
      cases h
    | ok out =>
      obtain ⟨newNodes, left⟩ := out
      simp only [htrack] at h ⊢
      by_cases hnil : newNodes = []
      · rw [if_pos hnil] at h ⊢
        cases h
        exact .inl ⟨.inl hcap, s, hcap, rfl⟩
      rw [if_neg hnil] at h ⊢
      rcases hcap.eq_or_lt with hfull | hroom
      · -- The vector is full: the ring goes into new storage.
        rw [hfull] at h ⊢
        exact processStoredLoop_full g (by simp [hfull]) h
      · rw [g.emplaceBack_room hroom]
        exact ih (by simpa using hroom) h

lemma processStored_spec (g : Growth) {mWays : List Way} {nums : List ℤ} {r : Processed}
    {s : Storage} (hcap : mWays.length ≤ s.capacity) (h : processUnmoved mWays nums = .ok r) :
    (Fits s.capacity r ∧ ∃ s', r.mWays.length ≤ s'.capacity ∧
      processStored g mWays s nums = .ok (r, s')) ∨
    (¬ Fits s.capacity r ∧ processStored g mWays s nums = .error .danglingPointer) :=
  processStoredLoop_spec g hcap h

/-- What `BuildRings` asks of the storage: the rings of the outer list fit, and then those
of the inner list into what the outer one leaves. -/
def RingsFit (g : Growth) (mWays : List Way) (s : Storage) (mp : Multipolygon) : Prop :=
  ∀ outer, processUnmoved mWays mp.outer = .ok outer → Fits s.capacity outer ∧
    ∀ s₁, processStored g mWays s mp.outer = .ok (outer, s₁) →
      ∀ inner, processUnmoved outer.mWays mp.inner = .ok inner → Fits s₁.capacity inner

/-- **`BuildRings` on the storage**: it does what `BuildRings` does exactly when the rings
fit, and is a fault when they do not. -/
theorem buildRingsStored_spec (g : Growth) {mWays after : List Way} {mp mp' : Multipolygon}
    {s : Storage} (hcap : mWays.length ≤ s.capacity)
    (h : buildRingsUnmoved mWays mp = .ok (after, mp')) :
    (RingsFit g mWays s mp ∧ ∃ s', after.length ≤ s'.capacity ∧
      buildRingsStored g mWays s mp = .ok (after, s', mp')) ∨
    (¬ RingsFit g mWays s mp ∧
      buildRingsStored g mWays s mp = .error .danglingPointer) := by
  unfold buildRingsUnmoved at h
  split at h
  · cases h
  · rename_i outer houter
    split at h
    · cases h
    · rename_i inner hinner
      cases h
      unfold buildRingsStored
      rcases processStored_spec g hcap houter with ⟨hfit₁, s₁, hcap₁, hrun₁⟩ | ⟨hno₁, hrun₁⟩
      · rcases processStored_spec g hcap₁ hinner with ⟨hfit₂, s₂, hcap₂, hrun₂⟩ | ⟨hno₂, hrun₂⟩
        · refine .inl ⟨?_, s₂, hcap₂, by simp only [hrun₁, hrun₂]⟩
          intro outer' houter'
          obtain rfl : outer = outer' := by rw [houter] at houter'; cases houter'; rfl
          refine ⟨hfit₁, fun s₁' hs₁' inner' hinner' => ?_⟩
          rw [hrun₁] at hs₁'
          rw [hinner] at hinner'
          cases hs₁'; cases hinner'
          exact hfit₂
        · refine .inr ⟨fun hfit => hno₂ ?_, by simp only [hrun₁, hrun₂]⟩
          exact (hfit outer houter).2 s₁ hrun₁ inner hinner
      · exact .inr ⟨fun hfit => hno₁ (hfit outer houter).1, by simp only [hrun₁]⟩

end SelfTraining.Route
