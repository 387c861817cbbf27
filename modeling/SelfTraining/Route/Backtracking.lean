import SelfTraining.Route.RingSearch

/-!
Backtracking restores its state.

A call that fails leaves both buffers as they were when it was made, and one that succeeds has
marked just the ways whose nodes it has appended. It comes to an end: with any fuel above the
number of unused ways, and to the same result with each.
-/

namespace SelfTraining.Route

variable {openWays : List ℤ} {ways : List Way}

/-! ### The fuel decides nothing -/

section Mono

variable {rec rec' : List Bool → List ℕ → Except Fault Tracked}
  (hrec : ∀ used nodes r, rec used nodes = .ok r → rec' used nodes = .ok r)

include hrec

lemma tryFirst_mono {is : List ℕ} {used : List Bool} {nodes : List ℕ} {r : Tracked}
    (h : tryFirst openWays ways rec is used nodes = .ok r) :
    tryFirst openWays ways rec' is used nodes = .ok r := by
  induction is generalizing used nodes with
  | nil => exact h
  | cons i is ih =>
    rw [tryFirst] at h ⊢
    split_ifs at h ⊢
    · exact ih h
    · cases hr : rec (used.set i true) (nodesAt openWays ways i) with
      | error e =>
        rw [hr] at h
        cases h
      | ok r' =>
        obtain ⟨found, used', nodes'⟩ := r'
        rw [hr] at h
        rw [hrec _ _ _ hr]
        cases found with
        | true => exact h
        | false => exact ih h

lemma tryNext_mono {tail : ℕ} {is : List ℕ} {used : List Bool} {nodes : List ℕ} {r : Tracked}
    (h : tryNext openWays ways rec tail is used nodes = .ok r) :
    tryNext openWays ways rec' tail is used nodes = .ok r := by
  induction is generalizing used nodes with
  | nil => exact h
  | cons i is ih =>
    by_cases hu : used[i]? = some false
    · by_cases hne : nodesAt openWays ways i = []
      · rw [tryNext_empty hu hne] at h
        cases h
      by_cases hgo : GoesOn (nodesAt openWays ways) tail i
      · cases hr : branch openWays ways rec tail used nodes i with
        | error e =>
          rw [tryNext_error hu hgo hr] at h
          cases h
        | ok r' =>
          obtain ⟨found, used', nodes'⟩ := r'
          have hr' := hrec _ _ _ hr
          cases found with
          | true =>
            rw [tryNext_found hu hgo hr] at h
            rwa [tryNext_found hu hgo hr']
          | false =>
            rw [tryNext_back hu hgo hr] at h
            rw [tryNext_back hu hgo hr']
            exact ih h
      · rw [tryNext_pass hne hgo] at h ⊢
        exact ih h
    · rw [tryNext_used hu] at h ⊢
      exact ih h

end Mono

lemma trackRec_mono {fuel fuel' : ℕ} (hle : fuel ≤ fuel') {used : List Bool} {nodes : List ℕ}
    {r : Tracked} (h : trackRec openWays ways fuel used nodes = .ok r) :
    trackRec openWays ways fuel' used nodes = .ok r := by
  induction fuel generalizing fuel' used nodes r with
  | zero => cases h
  | succ fuel ih =>
    obtain ⟨fuel', rfl⟩ : ∃ n, fuel' = n + 1 := ⟨fuel' - 1, by omega⟩
    have hrec : ∀ used nodes r, trackRec openWays ways fuel used nodes = .ok r →
        trackRec openWays ways fuel' used nodes = .ok r := fun _ _ _ => ih (by omega)
    cases nodes with
    | nil => exact tryFirst_mono hrec h
    | cons a l =>
      obtain ⟨head, tail, -, hl⟩ := ends_of_ne (List.cons_ne_nil a l)
      by_cases hclosed : ClosedNodes (a :: l)
      · rw [trackRec_closed hclosed] at h ⊢
        exact h
      · rw [trackRec_on hl hclosed] at h ⊢
        exact tryNext_mono hrec h

/-! ### What is marked -/

/-- The positions are those that are marked as used now and were not before. -/
structure NewlyMarked (used used' : List Bool) (marked : List ℕ) : Prop where
  distinct : marked.Nodup
  mem_iff : ∀ i, i ∈ marked ↔ used[i]? = some false ∧ used'[i]? = some true
  others : ∀ i, i ∉ marked → used'[i]? = used[i]?

lemma Extends.newlyMarked {W : ℕ → List ℕ} {used used' : List Bool} {nodes nodes' : List ℕ}
    {qs : List (ℕ × Bool)} (h : Extends W used nodes qs used' nodes') :
    NewlyMarked used used' (qs.map Prod.fst) := by
  induction h with
  | done used nodes =>
    refine ⟨List.nodup_nil, fun i => iff_of_false List.not_mem_nil ?_, fun i _ => rfl⟩
    rintro ⟨hfalse, htrue⟩
    rw [hfalse] at htrue
    cases htrue
  | @step used used' nodes nodes' q qs hu _ _ ih =>
    have hlt := (List.getElem?_eq_some_iff.mp hu).1
    have hset : (used.set q.1 true)[q.1]? = some true := List.getElem?_set_self hlt
    have hnot : q.1 ∉ qs.map Prod.fst := by
      intro hmem
      have hfalse := ((ih.mem_iff q.1).mp hmem).1
      rw [hset] at hfalse
      cases hfalse
    refine ⟨List.nodup_cons.mpr ⟨hnot, ih.distinct⟩, fun i => ?_, fun i hi => ?_⟩
    · rw [List.map_cons, List.mem_cons, ih.mem_iff, getElem?_set_used]
      by_cases hi : i = q.1
      · subst hi
        have htrue : used'[q.1]? = some true := by rw [ih.others q.1 hnot, hset]
        simp [hu, htrue]
      · simp [hi]
    · rw [List.map_cons, List.mem_cons, not_or] at hi
      rw [ih.others i hi.2, List.getElem?_set_ne (Ne.symm hi.1)]

/-! ### The result -/

/-- A call that fails has its buffers as they were; one that succeeds has appended the nodes of
the ways that it has marked, each one way round or the other. -/
structure Backtracked (W : ℕ → List ℕ) (used : List Bool) (nodes : List ℕ) (r : Tracked) :
    Prop where
  restored : r.found = false → r.used = used ∧ r.nodes = nodes
  extended : r.found = true → ∃ qs : List (ℕ × Bool),
    r.nodes = nodes ++ qs.flatMap (oriented W) ∧ NewlyMarked used r.used (qs.map Prod.fst)

/-- **Backtracking restores its state.** Among ways with nodes a call comes to an end, from
whatever is used and collected, and leaves nothing of what it has not succeeded with. -/
theorem trackRec_restores (openWays : List ℤ) (ways : List Way)
    (hne : ∀ n ∈ openWays, (wayAt ways n).nodes ≠ []) (used : List Bool) (nodes : List ℕ) :
    ∃ r, (∀ fuel, used.count false < fuel → trackRec openWays ways fuel used nodes = .ok r) ∧
      Backtracked (nodesAt openWays ways) used nodes r := by
  have hW : ∀ i < openWays.length, nodesAt openWays ways i ≠ [] := by
    intro i hi
    rw [nodesAt, List.getD_eq_getElem _ _ hi]
    exact hne _ (List.getElem_mem hi)
  obtain ⟨r, hr, hout⟩ := trackRec_spec hW _ used nodes (Nat.lt_succ_self _)
  refine ⟨r, fun fuel hfuel => trackRec_mono hfuel hr, hout.restored, fun hfound => ?_⟩
  obtain ⟨⟨qs, hext⟩, -⟩ := hout.extended hfound
  exact ⟨qs, hext.nodes_eq, hext.newlyMarked⟩

/-- A path of two ways that does not come back: the second is tried and undone. -/
theorem trackRec_restores_path : ∃ r,
    trackRec [0, 1] [⟨[1, 2]⟩, ⟨[3, 2]⟩] 3 [true, false] [1, 2] = .ok r ∧
      r.used = [true, false] ∧ r.nodes = [1, 2] := by
  obtain ⟨r, hr, hback⟩ :=
    trackRec_restores [0, 1] [⟨[1, 2]⟩, ⟨[3, 2]⟩] (by decide) [true, false] [1, 2]
  have hrun := hr 3 (by decide)
  have hfound : r.found = false := by
    have hfails : trackRec [0, 1] [⟨[1, 2]⟩, ⟨[3, 2]⟩] 3 [true, false] [1, 2] =
        .ok ⟨false, [true, false], [1, 2]⟩ := by decide
    rw [hfails] at hrun
    cases hrun
    rfl
  exact ⟨r, hrun, hback.restored hfound⟩

end SelfTraining.Route
