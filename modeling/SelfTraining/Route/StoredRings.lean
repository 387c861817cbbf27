import SelfTraining.Route.TrackCalls

/-!
What becomes of the rings on the storage of `m_Ways`.

A list that has room for its rings is treated as if the ways stayed where they are. In one that
has none, `Track` is called through a pointer to the storage that the vector has left, and
nothing can be said about what it reads.
-/

namespace SelfTraining.Route

section

variable {g : Growth} {mWays : List Way} {s : Storage} {nums : List ℤ} {mp : Multipolygon}

/-! ### A list and its room -/

lemma processCalls_current (hcap : mWays.length ≤ s.capacity) :
    (∀ c ∈ processCalls g mWays s nums, c.Current) ↔ HasRoom s.capacity mWays nums :=
  processLoopCalls_current hcap

lemma processStored_dangling (hcap : mWays.length ≤ s.capacity) :
    processStored g mWays s nums = .error .danglingPointer ↔ ¬ HasRoom s.capacity mWays nums :=
  calc processStored g mWays s nums = .error .danglingPointer
    _ ↔ ∃ c ∈ processCalls g mWays s nums, ¬ c.Current := (process_accounts mWays s nums).dangling
    _ ↔ ¬ ∀ c ∈ processCalls g mWays s nums, c.Current := by
      push Not
      rfl
    _ ↔ ¬ HasRoom s.capacity mWays nums := not_congr (processCalls_current hcap)

lemma processStored_of_unmoved (hcap : mWays.length ≤ s.capacity) {r : Processed}
    (h : processUnmoved mWays nums = .ok r) : HasRoom s.capacity mWays nums ↔
      ∃ s', r.mWays.length ≤ s'.capacity ∧ processStored g mWays s nums = .ok (r, s') := by
  rcases processStored_spec g hcap h with ⟨-, s', hcap', hrun⟩ | ⟨-, hrun⟩
  · refine iff_of_true ?_ ⟨s', hcap', hrun⟩
    by_contra hno
    rw [(processStored_dangling hcap).mpr hno] at hrun
    cases hrun
  · refine iff_of_false ((processStored_dangling hcap).mp hrun) ?_
    rintro ⟨s', -, hrun'⟩
    rw [hrun] at hrun'
    cases hrun'

lemma processStoredLoop_ne_bounds {ways : List Way} {pointer fuel : ℕ} {st : Processed} :
    processStoredLoop g ways pointer fuel st s ≠ .error .boundsNotDefined := by
  induction fuel generalizing st s with
  | zero => simp [processStoredLoop]
  | succ fuel ih =>
    rw [processStoredLoop]
    cases htrack : track st.left ways with
    | error e =>
      dsimp only
      split_ifs
      all_goals simp
    | ok tracked =>
      obtain ⟨newNodes, left⟩ := tracked
      dsimp only
      split_ifs
      · simp
      · simp
      · simp
      · exact ih

lemma processStored_ok_iff (hcap : mWays.length ≤ s.capacity) :
    (∃ r s', processStored g mWays s nums = .ok (r, s')) ↔
      (∀ c ∈ processCalls g mWays s nums, c.Tolerable) ∧ HasRoom s.capacity mWays nums := by
  have h := process_accounts (g := g) mWays s nums
  rw [← processCalls_current (g := g) hcap]
  constructor
  · rintro ⟨r, s', hrun⟩
    have hcurrent : ∀ c ∈ processCalls g mWays s nums, c.Current := by
      intro c hc
      by_contra hn
      rw [h.dangling.mpr ⟨c, hc, hn⟩] at hrun
      cases hrun
    refine ⟨fun c hc => ?_, hcurrent⟩
    by_contra hn
    rw [h.empty.mpr ⟨c, hc, hcurrent c hc, hn⟩] at hrun
    cases hrun
  · rintro ⟨htolerable, hcurrent⟩
    cases hrun : processStored g mWays s nums with
    | ok x => exact ⟨x.1, x.2, rfl⟩
    | error e =>
      exfalso
      cases e with
      | boundsNotDefined => exact processStoredLoop_ne_bounds hrun
      | danglingPointer =>
        obtain ⟨c, hc, hn⟩ := h.dangling.mp hrun
        exact hn (hcurrent c hc)
      | ring fault =>
        cases fault with
        | emptyVector =>
          obtain ⟨c, hc, -, hn⟩ := h.empty.mp hrun
          exact hn (htolerable c hc)
        | outOfFuel => exact h.ends hrun

/-! ### Both lists -/

/-- Each list has room for its rings when it is begun. -/
def ListsHaveRoom (g : Growth) (mWays : List Way) (s : Storage) (mp : Multipolygon) : Prop :=
  HasRoom s.capacity mWays mp.outer ∧
    ∀ outer s₁, processStored g mWays s mp.outer = .ok (outer, s₁) →
      HasRoom s₁.capacity outer.mWays mp.inner

lemma buildRingsCalls_current (hcap : mWays.length ≤ s.capacity) :
    (∀ c ∈ buildRingsCalls g mWays s mp, c.Current) ↔ ListsHaveRoom g mWays s mp := by
  unfold buildRingsCalls ListsHaveRoom
  rw [List.forall_mem_append, processCalls_current hcap]
  refine and_congr_right fun _ => ?_
  cases houter : processStored g mWays s mp.outer with
  | error e => exact iff_of_true (by simp [callsAfter]) nofun
  | ok out =>
    obtain ⟨outer, s₁⟩ := out
    refine (processCalls_current (processStoredLoop_capacity hcap houter)).trans ?_
    refine ⟨fun h outer' s₁' heq => ?_, fun h => h outer s₁ rfl⟩
    cases heq
    exact h

lemma buildRingsStored_dangling (hcap : mWays.length ≤ s.capacity) :
    buildRingsStored g mWays s mp = .error .danglingPointer ↔ ¬ ListsHaveRoom g mWays s mp :=
  calc buildRingsStored g mWays s mp = .error .danglingPointer
    _ ↔ ∃ c ∈ buildRingsCalls g mWays s mp, ¬ c.Current :=
      (buildRings_accounts mWays s mp).dangling
    _ ↔ ¬ ∀ c ∈ buildRingsCalls g mWays s mp, c.Current := by
      push Not
      rfl
    _ ↔ ¬ ListsHaveRoom g mWays s mp := not_congr (buildRingsCalls_current hcap)

/-- **When ring assembly is sound.** Where every member has a node, `BuildRings` comes to its end
and makes what it is to make of the two lists, if and only if each of them has room for the rings
that come before its last call of `Track`. -/
theorem rings_made_iff (g : Growth) (hcap : mWays.length ≤ s.capacity) (mp : Multipolygon)
    (hne : ∀ i ∈ mp.outer ++ mp.inner, (wayAt mWays i).nodes ≠ []) :
    (∃ after s' mp', buildRingsStored g mWays s mp = .ok (after, s', mp') ∧
      RingsMade mWays mp after mp') ↔ ListsHaveRoom g mWays s mp := by
  obtain ⟨after, mp', hrun, hmade⟩ := buildRingsUnmoved_spec mWays mp hne
  rcases buildRingsStored_spec g hcap hrun with ⟨-, s', -, hstored⟩ | ⟨-, hstored⟩
  · refine iff_of_true ⟨after, s', mp', hstored, hmade⟩ ?_
    by_contra hno
    rw [(buildRingsStored_dangling hcap).mpr hno] at hstored
    cases hstored
  · refine iff_of_false ?_ ((buildRingsStored_dangling hcap).mp hstored)
    rintro ⟨after, s', mp', hok, -⟩
    rw [hstored] at hok
    cases hok

/-! ### Nothing is lost -/

/-- The loop over the outer list uses up its open members. -/
def OuterUsed (g : Growth) (mWays : List Way) (s : Storage) (mp : Multipolygon) : Prop :=
  ∃ outer s₁, processStored g mWays s mp.outer = .ok (outer, s₁) ∧
    AllUsed mWays mp.outer mWays.length outer

/-- The loop over the inner list is come to, and uses up its open members. -/
def InnerUsed (g : Growth) (mWays : List Way) (s : Storage) (mp : Multipolygon) : Prop :=
  ∃ outer s₁ inner s₂, processStored g mWays s mp.outer = .ok (outer, s₁) ∧
    processStored g outer.mWays s₁ mp.inner = .ok (inner, s₂) ∧
    AllUsed mWays mp.inner outer.mWays.length inner

lemma EvenMembers.processStored_iff (h : EvenMembers mWays nums)
    (hcap : mWays.length ≤ s.capacity) :
    (∃ r s', processStored g mWays s nums = .ok (r, s') ∧ AllUsed mWays nums mWays.length r) ↔
      HasRoom s.capacity mWays nums := by
  obtain ⟨r, hr, hused⟩ := h.unmoved
  rw [processStored_of_unmoved (g := g) hcap hr]
  constructor
  · rintro ⟨r', s', hrun, -⟩
    rcases processStored_spec g hcap hr with ⟨-, s'', hcap', hrun'⟩ | ⟨-, hrun'⟩
    · exact ⟨s'', hcap', hrun'⟩
    · rw [hrun] at hrun'
      cases hrun'
  · rintro ⟨s', -, hrun⟩
    exact ⟨r, s', hrun, hused⟩

/-- The members of the inner list are what they were before the outer one was gone through. -/
lemma allUsed_grown {outer inner : Processed} (h : EvenMembers mWays mp.inner)
    (hpre : mWays <+: outer.mWays) :
    AllUsed outer.mWays mp.inner outer.mWays.length inner ↔
      AllUsed mWays mp.inner outer.mWays.length inner := by
  have hcongr : ∀ i ∈ mp.inner, wayAt outer.mWays i = wayAt mWays i :=
    fun i hi => wayAt_grow hpre (h.ne_nil i hi)
  unfold AllUsed
  rw [openPositions_congr hcongr]
  refine and_congr_right fun _ => exists_congr fun rings => and_congr_left fun _ => ?_
  exact ⟨fun ha => ha.congr hcongr, fun ha => ha.congr fun i hi => (hcongr i hi).symm⟩

/-- **When ring assembly loses nothing.** Where the open members of the outer list are even, they
are all used if and only if the list has room for its rings. Where those of the inner list are,
they are if and only if both lists have room and, before the inner one, every search among the
open ways of the outer one gets along with the ways without nodes. -/
theorem even_members_used_iff (g : Growth) (hcap : mWays.length ≤ s.capacity)
    (mp : Multipolygon) :
    (EvenMembers mWays mp.outer →
      (OuterUsed g mWays s mp ↔ HasRoom s.capacity mWays mp.outer)) ∧
    (EvenMembers mWays mp.inner →
      (InnerUsed g mWays s mp ↔
        (∀ c ∈ processCalls g mWays s mp.outer, c.Tolerable) ∧ ListsHaveRoom g mWays s mp)) := by
  refine ⟨fun h => h.processStored_iff hcap, fun h => ?_⟩
  unfold ListsHaveRoom
  rw [← and_assoc, ← processStored_ok_iff hcap]
  have hinner : ∀ outer s₁, processStored g mWays s mp.outer = .ok (outer, s₁) →
      ((∃ inner s₂, processStored g outer.mWays s₁ mp.inner = .ok (inner, s₂) ∧
        AllUsed mWays mp.inner outer.mWays.length inner) ↔
      HasRoom s₁.capacity outer.mWays mp.inner) := by
    intro outer s₁ houter
    have hpre := processStored_grow houter
    have heven : EvenMembers outer.mWays mp.inner :=
      h.congr fun i hi => wayAt_grow hpre (h.ne_nil i hi)
    rw [← heven.processStored_iff (processStoredLoop_capacity hcap houter)]
    exact exists₂_congr fun inner s₂ => and_congr_right fun _ => (allUsed_grown h hpre).symm
  constructor
  · rintro ⟨outer, s₁, inner, s₂, houter, hrun, hused⟩
    refine ⟨⟨outer, s₁, houter⟩, fun outer' s₁' houter' => ?_⟩
    rw [houter] at houter'
    cases houter'
    exact (hinner outer s₁ houter).mp ⟨inner, s₂, hrun, hused⟩
  · rintro ⟨⟨outer, s₁, houter⟩, hroom⟩
    obtain ⟨inner, s₂, hrun, hused⟩ := (hinner outer s₁ houter).mpr (hroom outer s₁ houter)
    exact ⟨outer, s₁, inner, s₂, houter, hrun, hused⟩

end

/-! ### Four ways -/

lemma even_fourWays : EvenMembers fourWays [0, 1, 2, 3] where
  size := by decide
  even v := by
    change Even (List.countP _ [0, 1, 2, 3])
    rcases v with _ | _ | _ | _ | v
    · decide
    · decide
    · decide
    · decide
    · rw [List.countP_eq_zero.mpr (by simp [fourWays, wayAt])]
      exact Even.zero

/-- Storage for five is enough for the two rings of the four ways, since nothing comes after the
second. -/
theorem rings_made_iff_room : ∃ after s' mp',
    buildRingsStored doubling fourWays ⟨5, 0⟩ ⟨[0, 1, 2, 3], []⟩ = .ok (after, s', mp') ∧
      RingsMade fourWays ⟨[0, 1, 2, 3], []⟩ after mp' := by
  refine (rings_made_iff doubling (by decide) _ (by decide)).mpr ⟨?_, fun outer s₁ h => ?_⟩
  · unfold HasRoom
    decide
  · cases h
    unfold HasRoom
    decide

/-- In storage for four `BuildRings` does not come to its end. -/
theorem rings_not_made : ¬ ∀ (mWays : List Way) (s : Storage) (mp : Multipolygon),
    mWays.length ≤ s.capacity →
    (∀ i ∈ mp.outer ++ mp.inner, (wayAt mWays i).nodes ≠ []) →
    ∃ after s' mp', buildRingsStored doubling mWays s mp = .ok (after, s', mp') ∧
      RingsMade mWays mp after mp' := by
  intro h
  obtain ⟨after, s', mp', hrun, -⟩ :=
    h fourWays ⟨4, 0⟩ ⟨[0, 1, 2, 3], []⟩ (by decide) (by decide)
  have hstored : buildRingsStored doubling fourWays ⟨4, 0⟩ ⟨[0, 1, 2, 3], []⟩ =
      .error .danglingPointer := rfl
  rw [hstored] at hrun
  cases hrun

theorem even_members_used_iff_room :
    OuterUsed doubling fourWays ⟨5, 0⟩ ⟨[0, 1, 2, 3], []⟩ ∧
      InnerUsed doubling fourWays ⟨5, 0⟩ ⟨[0], [0, 1, 2, 3]⟩ := by
  constructor
  · refine ((even_members_used_iff doubling (by decide) _).1 even_fourWays).mpr ?_
    unfold HasRoom
    decide
  · refine ((even_members_used_iff doubling (by decide) _).2 even_fourWays).mpr ⟨?_, ?_, ?_⟩
    · intro c hc
      have hcalls : processCalls doubling fourWays ⟨5, 0⟩ [0] =
        [⟨[0], fourWays, 0, fourWays, ⟨5, 0⟩⟩] := rfl
      obtain rfl := List.mem_singleton.mp (hcalls ▸ hc)
      exact tolerable_of_filled (by decide)
    · unfold HasRoom
      decide
    · intro outer s₁ h
      cases h
      unfold HasRoom
      decide

/-- In storage for four the loop over the four ways does not come to its end. -/
theorem even_members_not_used : ¬ ∀ (mWays : List Way) (s : Storage) (mp : Multipolygon),
    mWays.length ≤ s.capacity →
    (EvenMembers mWays mp.outer → OuterUsed doubling mWays s mp) ∧
      (EvenMembers mWays mp.inner → InnerUsed doubling mWays s mp) := by
  intro h
  obtain ⟨outer, s₁, hrun, -⟩ :=
    (h fourWays ⟨4, 0⟩ ⟨[0, 1, 2, 3], []⟩ (by decide)).1 even_fourWays
  have hstored : processStored doubling fourWays ⟨4, 0⟩ [0, 1, 2, 3] =
      .error .danglingPointer := rfl
  rw [hstored] at hrun
  cases hrun

end SelfTraining.Route
