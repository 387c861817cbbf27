import SelfTraining.Route.Rings
import SelfTraining.Lib.Parity

/-!
What the backtracking search for one ring does.

A call either extends its nodes by a chain of ways that it marks as used, until the nodes
are closed, or leaves both buffers as it found them. When every node is an end of an even
number of unused ways, no branch ever fails: the walk can always go on until it is back.
-/

namespace SelfTraining.Route

open SelfTraining.Parity

/-! ### Pieces of a ring -/

/-- The nodes of a piece: a position, and whether its way is taken in reverse. -/
def oriented (W : ℕ → List ℕ) (q : ℕ × Bool) : List ℕ :=
  if q.2 then (W q.1).reverse else W q.1

/-- More than one node, and back at the first. -/
def ClosedNodes (nodes : List ℕ) : Prop := 1 < nodes.length ∧ nodes.head? = nodes.getLast?

/-- The buffers grow by the pieces `qs`, each an unused way that goes on where the nodes
end. -/
inductive Extends (W : ℕ → List ℕ) :
    List Bool → List ℕ → List (ℕ × Bool) → List Bool → List ℕ → Prop where
  | done (used : List Bool) (nodes : List ℕ) : Extends W used nodes [] used nodes
  | step {used used' : List Bool} {nodes nodes' : List ℕ} {q : ℕ × Bool}
      {qs : List (ℕ × Bool)} : used[q.1]? = some false →
      (nodes = [] ∨ (oriented W q).head? = nodes.getLast?) →
      Extends W (used.set q.1 true) (nodes ++ oriented W q) qs used' nodes' →
      Extends W used nodes (q :: qs) used' nodes'

section Pieces

variable {W : ℕ → List ℕ}

lemma oriented_ne_nil {q : ℕ × Bool} (h : W q.1 ≠ []) : oriented W q ≠ [] := by
  unfold oriented
  split <;> simpa using h

lemma Extends.nodes_eq {used used' : List Bool} {nodes nodes' : List ℕ} {qs : List (ℕ × Bool)}
    (h : Extends W used nodes qs used' nodes') : nodes' = nodes ++ qs.flatMap (oriented W) := by
  induction h with
  | done => simp
  | step _ _ _ ih => simp [ih]

lemma Extends.length_used {used used' : List Bool} {nodes nodes' : List ℕ}
    {qs : List (ℕ × Bool)} (h : Extends W used nodes qs used' nodes') :
    used'.length = used.length := by
  induction h with
  | done => rfl
  | step _ _ _ ih => simpa using ih

/-- Each piece begins where the one before it ends. -/
def Linked (W : ℕ → List ℕ) (qs : List (ℕ × Bool)) : Prop :=
  qs.IsChain fun a b => (oriented W a).getLast? = (oriented W b).head?

lemma getLast?_append_of_ne {l l' : List ℕ} (h : l' ≠ []) :
    (l ++ l').getLast? = l'.getLast? := by
  rw [List.getLast?_append]
  cases hl : l'.getLast? with
  | none => exact absurd (List.getLast?_eq_none_iff.mp hl) h
  | some a => rfl

lemma Extends.head_of_ne {used used' : List Bool} {nodes nodes' : List ℕ} {q : ℕ × Bool}
    {qs : List (ℕ × Bool)} (h : Extends W used nodes (q :: qs) used' nodes')
    (hne : nodes ≠ []) : (oriented W q).head? = nodes.getLast? := by
  cases h with
  | step _ hlink _ => exact hlink.resolve_left hne

lemma Extends.mem_unused {used used' : List Bool} {nodes nodes' : List ℕ}
    {qs : List (ℕ × Bool)} (h : Extends W used nodes qs used' nodes') :
    ∀ q ∈ qs, q.1 < used.length := by
  induction h with
  | done => simp
  | step hu _ _ ih =>
    intro a ha
    rcases List.mem_cons.mp ha with rfl | ha
    · exact (List.getElem?_eq_some_iff.mp hu).1
    · simpa using ih a ha

lemma getElem?_set_used {used : List Bool} {i j : ℕ} :
    (used.set i true)[j]? = some false ↔ j ≠ i ∧ used[j]? = some false := by
  by_cases hij : i = j
  · subst hij
    rw [List.getElem?_set]
    simp
  · rw [List.getElem?_set_ne hij]
    simp [Ne.symm hij]

lemma Extends.linked {used used' : List Bool} {nodes nodes' : List ℕ} {qs : List (ℕ × Bool)}
    (hW : ∀ i : ℕ, used[i]? = some false → W i ≠ []) (h : Extends W used nodes qs used' nodes') :
    Linked W qs := by
  induction h with
  | done => exact .nil
  | @step used used' nodes nodes' q qs hu _ h ih =>
    have hne := oriented_ne_nil (hW q.1 hu)
    have ih := ih fun i hi => hW i (getElem?_set_used.mp hi).2
    cases qs with
    | nil => exact .singleton q
    | cons b qs =>
      refine .cons_cons ?_ ih
      rw [h.head_of_ne (by simp [hne]), getLast?_append_of_ne hne]

end Pieces

/-! ### A call succeeds or undoes its writes -/

/-- What a call from the buffers `used` and `nodes` may come back with. -/
structure Outcome (W : ℕ → List ℕ) (used : List Bool) (nodes : List ℕ) (r : Tracked) :
    Prop where
  restored : r.found = false → r.used = used ∧ r.nodes = nodes
  extended : r.found = true →
    (∃ qs, Extends W used nodes qs r.used r.nodes) ∧ ClosedNodes r.nodes

section Spec

variable {openWays : List ℤ} {ways : List Way}
variable {rec : List Bool → List ℕ → Except Fault Tracked}

lemma getD_used {used : List Bool} {i : ℕ} (h : ¬ used.getD i true = true) :
    used[i]? = some false := by
  rw [List.getD_eq_getElem?_getD] at h
  cases hu : used[i]? with
  | none => simp [hu] at h
  | some b => cases b <;> simp_all

lemma set_set_used {used : List Bool} {i : ℕ} (h : used[i]? = some false) :
    (used.set i true).set i false = used := by
  obtain ⟨hlt, hi⟩ := List.getElem?_eq_some_iff.mp h
  rw [List.set_set]
  conv_lhs => rw [← hi]
  exact List.set_getElem_self hlt

lemma count_set_used {used : List Bool} {i : ℕ} (h : used[i]? = some false) :
    (used.set i true).count false + 1 = used.count false := by
  obtain ⟨hlt, hi⟩ := List.getElem?_eq_some_iff.mp h
  have hpos : 0 < used.count false :=
    List.count_pos_iff.mpr (hi ▸ List.getElem_mem hlt)
  rw [List.count_set hlt, hi]
  simp
  omega

/-- The piece that a call tries when the way `i` goes on from `tail`. -/
def nextPiece (W : ℕ → List ℕ) (tail i : ℕ) : ℕ × Bool :=
  (i, !decide ((W i).head? = some tail))

lemma oriented_nextPiece {W : ℕ → List ℕ} {tail i wayHead : ℕ}
    (h : (W i).head? = some wayHead) : oriented W (nextPiece W tail i) =
      if wayHead = tail then W i else (W i).reverse := by
  unfold oriented nextPiece
  by_cases ht : wayHead = tail <;> simp [h, ht]

lemma head_nextPiece {W : ℕ → List ℕ} {tail i wayHead wayTail : ℕ}
    (hh : (W i).head? = some wayHead) (hl : (W i).getLast? = some wayTail)
    (hm : wayHead = tail ∨ wayTail = tail) :
    (oriented W (nextPiece W tail i)).head? = some tail := by
  rw [oriented_nextPiece hh]
  split
  · rename_i h; rw [hh, h]
  · rename_i h; rw [List.head?_reverse, hl, hm.resolve_left h]

lemma ends_of_ne {l : List ℕ} (h : l ≠ []) :
    ∃ a b, l.head? = some a ∧ l.getLast? = some b :=
  ⟨_, _, List.head?_eq_some_head h, List.getLast?_eq_some_getLast h⟩

/-- The way `i` goes on from `tail`, one way round or the other. -/
def GoesOn (W : ℕ → List ℕ) (tail i : ℕ) : Prop :=
  (W i).head? = some tail ∨ (W i).getLast? = some tail

instance (W : ℕ → List ℕ) (tail i : ℕ) : Decidable (GoesOn W tail i) :=
  inferInstanceAs (Decidable (_ ∨ _))

lemma GoesOn.ne_nil {W : ℕ → List ℕ} {tail i : ℕ} (h : GoesOn W tail i) : W i ≠ [] := by
  rintro hnil
  simp [GoesOn, hnil] at h

lemma GoesOn.head_nextPiece {W : ℕ → List ℕ} {tail i : ℕ} (h : GoesOn W tail i) :
    (oriented W (nextPiece W tail i)).head? = some tail := by
  obtain ⟨wayHead, wayTail, hh, hl⟩ := ends_of_ne h.ne_nil
  refine Route.head_nextPiece hh hl ?_
  simpa [GoesOn, hh, hl] using h

section Turns

variable {tail i : ℕ} {is : List ℕ} {used : List Bool} {nodes : List ℕ}

lemma tryNext_used (h : used[i]? ≠ some false) :
    tryNext openWays ways rec tail (i :: is) used nodes =
      tryNext openWays ways rec tail is used nodes := by
  have hu : used.getD i true = true := by
    by_contra hn
    exact h (getD_used hn)
  simp only [tryNext, hu, if_true]

lemma tryNext_pass (hne : nodesAt openWays ways i ≠ [])
    (h : ¬ GoesOn (nodesAt openWays ways) tail i) :
    tryNext openWays ways rec tail (i :: is) used nodes =
      tryNext openWays ways rec tail is used nodes := by
  by_cases hu : used[i]? = some false
  · obtain ⟨wayHead, wayTail, hh, hl⟩ := ends_of_ne hne
    have hu' : used.getD i true = false := by simp [List.getD_eq_getElem?_getD, hu]
    have hm : ¬ (wayHead = tail ∨ wayTail = tail) := by simpa [GoesOn, hh, hl] using h
    simp only [tryNext, hu', hh, hl, hm, if_false, Bool.false_eq_true]
  · exact tryNext_used hu

/-- At a way without nodes the search asks for the ends it does not have. -/
lemma tryNext_empty (hu : used[i]? = some false) (h : nodesAt openWays ways i = []) :
    tryNext openWays ways rec tail (i :: is) used nodes = .error .emptyVector := by
  have hu' : used.getD i true = false := by simp [List.getD_eq_getElem?_getD, hu]
  simp only [tryNext, hu', h, List.head?_nil, if_false, Bool.false_eq_true]

/-- The call for a branch that takes the way `i`. -/
def branch (openWays : List ℤ) (ways : List Way)
    (rec : List Bool → List ℕ → Except Fault Tracked) (tail : ℕ) (used : List Bool)
    (nodes : List ℕ) (i : ℕ) : Except Fault Tracked :=
  rec (used.set i true) (nodes ++ oriented (nodesAt openWays ways)
    (nextPiece (nodesAt openWays ways) tail i))

lemma branch_eq {wayHead : ℕ} (hh : (nodesAt openWays ways i).head? = some wayHead) :
    rec (used.set i true) (nodes ++ if wayHead = tail then nodesAt openWays ways i
      else (nodesAt openWays ways i).reverse) = branch openWays ways rec tail used nodes i := by
  unfold branch
  rw [oriented_nextPiece hh]

lemma tryNext_goesOn (hu : used[i]? = some false) (h : GoesOn (nodesAt openWays ways) tail i) :
    tryNext openWays ways rec tail (i :: is) used nodes =
      match branch openWays ways rec tail used nodes i with
      | .error e => .error e
      | .ok r => if r.found then .ok r
        else tryNext openWays ways rec tail is (r.used.set i false)
          (r.nodes.take nodes.length) := by
  obtain ⟨wayHead, wayTail, hh, hl⟩ := ends_of_ne h.ne_nil
  have hu' : used.getD i true = false := by simp [List.getD_eq_getElem?_getD, hu]
  have hm : wayHead = tail ∨ wayTail = tail := by simpa [GoesOn, hh, hl] using h
  simp only [tryNext, hu', hh, hl, hm, branch_eq hh, if_true, if_false, Bool.false_eq_true]
  cases branch openWays ways rec tail used nodes i with
  | error e => rfl
  | ok r =>
    obtain ⟨found, used', nodes'⟩ := r
    cases found <;> rfl

lemma tryNext_error (hu : used[i]? = some false) (h : GoesOn (nodesAt openWays ways) tail i)
    {e : Fault} (hr : branch openWays ways rec tail used nodes i = .error e) :
    tryNext openWays ways rec tail (i :: is) used nodes = .error e := by
  rw [tryNext_goesOn hu h, hr]

lemma tryNext_found (hu : used[i]? = some false) (h : GoesOn (nodesAt openWays ways) tail i)
    {used' : List Bool} {nodes' : List ℕ}
    (hr : branch openWays ways rec tail used nodes i = .ok ⟨true, used', nodes'⟩) :
    tryNext openWays ways rec tail (i :: is) used nodes = .ok ⟨true, used', nodes'⟩ := by
  rw [tryNext_goesOn hu h, hr]
  exact if_pos rfl

/-- After a branch that fails the loop goes on with its way unused and the nodes cut back. -/
lemma tryNext_back (hu : used[i]? = some false) (h : GoesOn (nodesAt openWays ways) tail i)
    {used' : List Bool} {nodes' : List ℕ}
    (hr : branch openWays ways rec tail used nodes i = .ok ⟨false, used', nodes'⟩) :
    tryNext openWays ways rec tail (i :: is) used nodes =
      tryNext openWays ways rec tail is (used'.set i false) (nodes'.take nodes.length) := by
  rw [tryNext_goesOn hu h, hr]
  exact if_neg Bool.false_ne_true

lemma tryNext_failed (hu : used[i]? = some false) (h : GoesOn (nodesAt openWays ways) tail i)
    (hr : branch openWays ways rec tail used nodes i =
      .ok ⟨false, used.set i true, nodes ++ oriented (nodesAt openWays ways)
        (nextPiece (nodesAt openWays ways) tail i)⟩) :
    tryNext openWays ways rec tail (i :: is) used nodes =
      tryNext openWays ways rec tail is used nodes := by
  have hback : (nodes ++ oriented (nodesAt openWays ways)
      (nextPiece (nodesAt openWays ways) tail i)).take nodes.length = nodes := List.take_left' rfl
  rw [tryNext_back hu h hr, set_set_used hu, hback]

/-- What a call is expected to do on the buffers of a branch. -/
def Calls (openWays : List ℤ) (ways : List Way)
    (rec : List Bool → List ℕ → Except Fault Tracked) (used : List Bool) : Prop :=
  ∀ i nodes, used[i]? = some false → nodes ≠ [] → ∃ r, rec (used.set i true) nodes = .ok r ∧
    Outcome (nodesAt openWays ways) (used.set i true) nodes r

/-- A branch comes back with a ring, or the loop goes on as if it had not been tried. -/
lemma Calls.branch (hrec : Calls openWays ways rec used) (is nodes : List ℕ)
    (hu : used[i]? = some false) (h : GoesOn (nodesAt openWays ways) tail i) :
    (∃ used' nodes', Route.branch openWays ways rec tail used nodes i =
        .ok ⟨true, used', nodes'⟩ ∧
      Outcome (nodesAt openWays ways) (used.set i true) (nodes ++ oriented
        (nodesAt openWays ways) (nextPiece (nodesAt openWays ways) tail i))
        ⟨true, used', nodes'⟩) ∨
    tryNext openWays ways rec tail (i :: is) used nodes =
      tryNext openWays ways rec tail is used nodes := by
  have hne : nodes ++ oriented (nodesAt openWays ways)
      (nextPiece (nodesAt openWays ways) tail i) ≠ [] := by
    simp [oriented_ne_nil (q := nextPiece _ tail i) h.ne_nil]
  obtain ⟨⟨found, used', nodes'⟩, hr, hout⟩ := hrec i _ hu hne
  cases found with
  | true => exact .inl ⟨used', nodes', hr, hout⟩
  | false =>
    obtain ⟨rfl, rfl⟩ := hout.restored rfl
    exact .inr (tryNext_failed hu h hr)

/-- Whatever `rec` returns closes its nodes or restores its buffers. -/
def Sound (openWays : List ℤ) (ways : List Way)
    (rec : List Bool → List ℕ → Except Fault Tracked) : Prop :=
  ∀ used nodes r, rec used nodes = .ok r → Outcome (nodesAt openWays ways) used nodes r

lemma tryNext_sound (hrec : Sound openWays ways rec) (hnodes : nodes.getLast? = some tail)
    {r : Tracked} (h : tryNext openWays ways rec tail is used nodes = .ok r) :
    Outcome (nodesAt openWays ways) used nodes r := by
  induction is with
  | nil =>
    cases h
    exact ⟨fun _ => ⟨rfl, rfl⟩, by simp⟩
  | cons i is ih =>
    by_cases hu : used[i]? = some false
    · by_cases hne : nodesAt openWays ways i = []
      · rw [tryNext_empty hu hne] at h
        cases h
      by_cases hgo : GoesOn (nodesAt openWays ways) tail i
      · cases hr : branch openWays ways rec tail used nodes i with
        | error e =>
          rw [tryNext_error hu hgo hr] at h
          cases h
        | ok r' =>
          obtain ⟨found, used', nodes'⟩ := r'
          have hout := hrec _ _ _ hr
          cases found with
          | true =>
            rw [tryNext_found hu hgo hr] at h
            cases h
            obtain ⟨⟨qs, hqs⟩, hcl⟩ := hout.extended rfl
            refine ⟨by simp, fun _ => ⟨⟨nextPiece _ tail i :: qs, .step hu (.inr ?_) hqs⟩, hcl⟩⟩
            rw [hgo.head_nextPiece, hnodes]
          | false =>
            obtain ⟨rfl, rfl⟩ := hout.restored rfl
            rw [tryNext_failed hu hgo hr] at h
            exact ih h
      · rw [tryNext_pass hne hgo] at h
        exact ih h
    · rw [tryNext_used hu] at h
      exact ih h

lemma tryNext_returns (hrec : Calls openWays ways rec used) (is : List ℕ)
    (hW : ∀ i ∈ is, used[i]? = some false → nodesAt openWays ways i ≠ []) :
    ∃ r, tryNext openWays ways rec tail is used nodes = .ok r := by
  induction is with
  | nil => exact ⟨_, rfl⟩
  | cons i is ih =>
    have ih := ih fun j hj => hW j (by simp [hj])
    by_cases hu : used[i]? = some false
    · by_cases hgo : GoesOn (nodesAt openWays ways) tail i
      · rcases hrec.branch is nodes hu hgo with ⟨used', nodes', hr, -⟩ | hback
        · exact ⟨_, tryNext_found hu hgo hr⟩
        · rw [hback]
          exact ih
      · rw [tryNext_pass (hW i (by simp) hu) hgo]
        exact ih
    · rw [tryNext_used hu]
      exact ih

lemma tryNext_succeeds (hrec : Calls openWays ways rec used) (is : List ℕ)
    (hW : ∀ i ∈ is, used[i]? = some false → nodesAt openWays ways i ≠ [])
    (hex : ∃ i ∈ is, used[i]? = some false ∧ GoesOn (nodesAt openWays ways) tail i ∧
      ∃ used' nodes', branch openWays ways rec tail used nodes i = .ok ⟨true, used', nodes'⟩) :
    ∃ used' nodes', tryNext openWays ways rec tail is used nodes = .ok ⟨true, used', nodes'⟩ := by
  induction is with
  | nil => simp at hex
  | cons i is ih =>
    obtain ⟨j, hj, hju, hjgo, used', nodes', hfound⟩ := hex
    by_cases hji : j = i
    · subst hji
      exact ⟨used', nodes', tryNext_found hju hjgo hfound⟩
    have ih := ih (fun k hk => hW k (by simp [hk]))
      ⟨j, (List.mem_cons.mp hj).resolve_left hji, hju, hjgo, used', nodes', hfound⟩
    by_cases hu : used[i]? = some false
    · by_cases hgo : GoesOn (nodesAt openWays ways) tail i
      · rcases hrec.branch is nodes hu hgo with ⟨used₁, nodes₁, hr, -⟩ | hback
        · exact ⟨used₁, nodes₁, tryNext_found hu hgo hr⟩
        · rw [hback]
          exact ih
      · rw [tryNext_pass (hW i (by simp) hu) hgo]
        exact ih
    · rw [tryNext_used hu]
      exact ih

/-! The loop over the first way of a ring goes the same way, without the ends. -/

lemma tryFirst_used (h : used[i]? ≠ some false) :
    tryFirst openWays ways rec (i :: is) used nodes = tryFirst openWays ways rec is used nodes := by
  have hu : used.getD i true = true := by
    by_contra hn
    exact h (getD_used hn)
  simp only [tryFirst, hu, if_true]

lemma tryFirst_error (hu : used[i]? = some false) {e : Fault}
    (hr : rec (used.set i true) (nodesAt openWays ways i) = .error e) :
    tryFirst openWays ways rec (i :: is) used nodes = .error e := by
  have hu' : used.getD i true = false := by simp [List.getD_eq_getElem?_getD, hu]
  simp only [tryFirst, hu', hr, if_false, Bool.false_eq_true]

lemma tryFirst_found (hu : used[i]? = some false) {used' : List Bool} {nodes' : List ℕ}
    (hr : rec (used.set i true) (nodesAt openWays ways i) = .ok ⟨true, used', nodes'⟩) :
    tryFirst openWays ways rec (i :: is) used nodes = .ok ⟨true, used', nodes'⟩ := by
  have hu' : used.getD i true = false := by simp [List.getD_eq_getElem?_getD, hu]
  simp only [tryFirst, hu', hr, if_false, Bool.false_eq_true]

lemma tryFirst_failed (hu : used[i]? = some false) {nodes' : List ℕ}
    (hr : rec (used.set i true) (nodesAt openWays ways i) =
      .ok ⟨false, used.set i true, nodes'⟩) :
    tryFirst openWays ways rec (i :: is) used nodes = tryFirst openWays ways rec is used [] := by
  have hu' : used.getD i true = false := by simp [List.getD_eq_getElem?_getD, hu]
  simp only [tryFirst, hu', hr, if_false, Bool.false_eq_true, set_set_used hu]

lemma tryFirst_sound (hrec : Sound openWays ways rec) {r : Tracked}
    (h : tryFirst openWays ways rec is used [] = .ok r) :
    Outcome (nodesAt openWays ways) used [] r := by
  induction is with
  | nil =>
    cases h
    exact ⟨fun _ => ⟨rfl, rfl⟩, by simp⟩
  | cons i is ih =>
    by_cases hu : used[i]? = some false
    · cases hr : rec (used.set i true) (nodesAt openWays ways i) with
      | error e =>
        rw [tryFirst_error hu hr] at h
        cases h
      | ok r' =>
        obtain ⟨found, used', nodes'⟩ := r'
        have hout := hrec _ _ _ hr
        cases found with
        | true =>
          rw [tryFirst_found hu hr] at h
          cases h
          obtain ⟨⟨qs, hqs⟩, hcl⟩ := hout.extended rfl
          refine ⟨by simp, fun _ => ⟨⟨(i, false) :: qs, .step hu (.inl rfl) ?_⟩, hcl⟩⟩
          simpa [oriented] using hqs
        | false =>
          obtain ⟨rfl, -⟩ := hout.restored rfl
          rw [tryFirst_failed hu hr] at h
          exact ih h
    · rw [tryFirst_used hu] at h
      exact ih h

lemma Calls.first (hrec : Calls openWays ways rec used) (is : List ℕ)
    (hu : used[i]? = some false) (hne : nodesAt openWays ways i ≠ []) :
    (∃ used' nodes', rec (used.set i true) (nodesAt openWays ways i) =
        .ok ⟨true, used', nodes'⟩) ∨
    tryFirst openWays ways rec (i :: is) used [] = tryFirst openWays ways rec is used [] := by
  obtain ⟨⟨found, used', nodes'⟩, hr, hout⟩ := hrec i _ hu hne
  cases found with
  | true => exact .inl ⟨used', nodes', hr⟩
  | false =>
    obtain ⟨rfl, -⟩ := hout.restored rfl
    exact .inr (tryFirst_failed hu hr)

lemma tryFirst_returns (hrec : Calls openWays ways rec used) (is : List ℕ)
    (hW : ∀ i ∈ is, used[i]? = some false → nodesAt openWays ways i ≠ []) :
    ∃ r, tryFirst openWays ways rec is used [] = .ok r := by
  induction is with
  | nil => exact ⟨_, rfl⟩
  | cons i is ih =>
    have ih := ih fun j hj => hW j (by simp [hj])
    by_cases hu : used[i]? = some false
    · rcases hrec.first is hu (hW i (by simp) hu) with ⟨used', nodes', hr⟩ | hback
      · exact ⟨_, tryFirst_found hu hr⟩
      · rw [hback]
        exact ih
    · rw [tryFirst_used hu]
      exact ih

lemma tryFirst_succeeds (hrec : Calls openWays ways rec used) (is : List ℕ)
    (hW : ∀ i ∈ is, used[i]? = some false → nodesAt openWays ways i ≠ [])
    (hex : ∃ i ∈ is, used[i]? = some false ∧ ∃ used' nodes',
      rec (used.set i true) (nodesAt openWays ways i) = .ok ⟨true, used', nodes'⟩) :
    ∃ used' nodes', tryFirst openWays ways rec is used [] = .ok ⟨true, used', nodes'⟩ := by
  induction is with
  | nil => simp at hex
  | cons i is ih =>
    obtain ⟨j, hj, hju, used', nodes', hfound⟩ := hex
    by_cases hji : j = i
    · subst hji
      exact ⟨used', nodes', tryFirst_found hju hfound⟩
    have ih := ih (fun k hk => hW k (by simp [hk]))
      ⟨j, (List.mem_cons.mp hj).resolve_left hji, hju, used', nodes', hfound⟩
    by_cases hu : used[i]? = some false
    · rcases hrec.first is hu (hW i (by simp) hu) with ⟨used₁, nodes₁, hr⟩ | hback
      · exact ⟨used₁, nodes₁, tryFirst_found hu hr⟩
      · rw [hback]
        exact ih
    · rw [tryFirst_used hu]
      exact ih

end Turns

/-! ### A whole call -/

lemma trackRec_on {fuel : ℕ} {used : List Bool} {nodes : List ℕ} {tail : ℕ}
    (hl : nodes.getLast? = some tail) (hclosed : ¬ ClosedNodes nodes) :
    trackRec openWays ways (fuel + 1) used nodes =
      tryNext openWays ways (trackRec openWays ways fuel) tail
        (List.range openWays.length) used nodes := by
  have hne : nodes ≠ [] := by rintro rfl; cases hl
  obtain ⟨head, tail', hh, hl'⟩ := ends_of_ne hne
  obtain rfl : tail = tail' := by rw [hl] at hl'; simpa using hl'
  have hnot : ¬ (head = tail ∧ 1 < nodes.length) := fun h =>
    hclosed ⟨h.2, by rw [hh, hl, h.1]⟩
  simp only [trackRec, hh, hl, hnot, if_false]

lemma trackRec_closed {fuel : ℕ} {used : List Bool} {nodes : List ℕ} (h : ClosedNodes nodes) :
    trackRec openWays ways (fuel + 1) used nodes = .ok ⟨true, used, nodes⟩ := by
  have hne : nodes ≠ [] := by
    rintro rfl
    simp [ClosedNodes] at h
  obtain ⟨head, tail, hh, hl⟩ := ends_of_ne hne
  have hht : head = tail := by simpa [hh, hl] using h.2
  simp only [trackRec, hh, hl, hht, h.1, and_self, if_true]

/-- **Nothing is left of a failed search.** Whatever ways there are, a call that returns has
closed its nodes by a chain of ways that it marks, or restored its buffers. -/
theorem trackRec_sound (fuel : ℕ) : Sound openWays ways (trackRec openWays ways fuel) := by
  induction fuel with
  | zero =>
    intro used nodes r h
    cases h
  | succ fuel ih =>
    intro used nodes r h
    cases nodes with
    | nil => exact tryFirst_sound ih h
    | cons a l =>
      obtain ⟨head, tail, -, hl⟩ := ends_of_ne (List.cons_ne_nil a l)
      by_cases hclosed : ClosedNodes (a :: l)
      · rw [trackRec_closed hclosed] at h
        cases h
        exact ⟨by simp, fun _ => ⟨⟨[], .done _ _⟩, hclosed⟩⟩
      · rw [trackRec_on hl hclosed] at h
        exact tryNext_sound ih hl h

/-- **The search for a ring**, where the unused ways have nodes. With a fuel above their
number a call comes to an end; it closes its nodes by a chain of ways that it marks, or
restores its buffers. -/
theorem trackRec_filled (fuel : ℕ) (used : List Bool) (nodes : List ℕ)
    (hW : ∀ i < openWays.length, used[i]? = some false → nodesAt openWays ways i ≠ [])
    (hfuel : used.count false < fuel) :
    ∃ r, trackRec openWays ways fuel used nodes = .ok r ∧
      Outcome (nodesAt openWays ways) used nodes r := by
  suffices hreturns : ∃ r, trackRec openWays ways fuel used nodes = .ok r by
    obtain ⟨r, hr⟩ := hreturns
    exact ⟨r, hr, trackRec_sound fuel _ _ _ hr⟩
  induction fuel generalizing used nodes with
  | zero => omega
  | succ fuel ih =>
    have hrec : Calls openWays ways (trackRec openWays ways fuel) used := by
      intro i nodes' hu _
      have hcount := count_set_used hu
      obtain ⟨r, hr⟩ := ih (used.set i true) nodes'
        (fun j hj hju => hW j hj (getElem?_set_used.mp hju).2) (by omega)
      exact ⟨r, hr, trackRec_sound fuel _ _ _ hr⟩
    have hrange : ∀ i ∈ List.range openWays.length, used[i]? = some false →
        nodesAt openWays ways i ≠ [] :=
      fun i hi => hW i (List.mem_range.mp hi)
    cases nodes with
    | nil => exact tryFirst_returns hrec _ hrange
    | cons a l =>
      obtain ⟨head, tail, -, hl⟩ := ends_of_ne (List.cons_ne_nil a l)
      by_cases hclosed : ClosedNodes (a :: l)
      · exact ⟨_, trackRec_closed hclosed⟩
      · rw [trackRec_on hl hclosed]
        exact tryNext_returns hrec _ hrange

/-- **The search for a ring** among ways that all have nodes. -/
theorem trackRec_spec (hW : ∀ i < openWays.length, nodesAt openWays ways i ≠ [])
    (fuel : ℕ) (used : List Bool) (nodes : List ℕ) (hfuel : used.count false < fuel) :
    ∃ r, trackRec openWays ways fuel used nodes = .ok r ∧
      Outcome (nodesAt openWays ways) used nodes r :=
  trackRec_filled fuel used nodes (fun i hi _ => hW i hi) hfuel

end Spec

/-! ### Even degrees leave no dead end -/

/-- The two ends of the way at position `i`. -/
def waysEnds (W : ℕ → List ℕ) (i : ℕ) : ℕ × ℕ := ((W i).headD 0, (W i).getLastD 0)

/-- The positions not used. -/
def unused (used : List Bool) : List ℕ :=
  (List.range used.length).filter fun i => !used.getD i true

lemma mem_unused {used : List Bool} {i : ℕ} : i ∈ unused used ↔ used[i]? = some false := by
  unfold unused
  rw [List.mem_filter, List.mem_range, List.getD_eq_getElem?_getD]
  constructor
  · rintro ⟨hlt, h⟩
    rw [List.getElem?_eq_getElem hlt] at h ⊢
    simpa using h
  · intro h
    exact ⟨(List.getElem?_eq_some_iff.mp h).1, by simp [h]⟩

lemma lt_of_mem_unused {used : List Bool} {i : ℕ} (h : i ∈ unused used) : i < used.length :=
  (List.getElem?_eq_some_iff.mp (mem_unused.mp h)).1

lemma unused_replicate (n : ℕ) : unused (List.replicate n false) = List.range n := by
  unfold unused
  rw [List.length_replicate]
  refine List.filter_eq_self.mpr fun i hi => ?_
  simp [List.mem_range.mp hi]

lemma nodup_unused (used : List Bool) : (unused used).Nodup :=
  List.nodup_range.filter _

lemma unused_perm {used : List Bool} {i : ℕ} (h : used[i]? = some false) :
    (unused used).Perm (i :: unused (used.set i true)) := by
  have hlt := (List.getElem?_eq_some_iff.mp h).1
  have hnot : i ∉ unused (used.set i true) := by
    rw [mem_unused, List.getElem?_set_self hlt]
    simp
  refine (List.perm_ext_iff_of_nodup (nodup_unused _)
    (List.nodup_cons.mpr ⟨hnot, nodup_unused _⟩)).mpr fun j => ?_
  rw [List.mem_cons, mem_unused, mem_unused]
  by_cases hj : j = i
  · subst hj; simp [h]
  · rw [List.getElem?_set_ne (Ne.symm hj)]
    simp [hj]

lemma Extends.unused_perm {W : ℕ → List ℕ} {used used' : List Bool} {nodes nodes' : List ℕ}
    {qs : List (ℕ × Bool)} (h : Extends W used nodes qs used' nodes') :
    (unused used).Perm (qs.map Prod.fst ++ unused used') := by
  induction h with
  | done => exact .refl _
  | step hu _ _ ih => exact (Route.unused_perm hu).trans (ih.cons _)

/-- The ends of the unused ways. -/
def unusedEnds (W : ℕ → List ℕ) (used : List Bool) : List (ℕ × ℕ) :=
  (unused used).map (waysEnds W)

section Even

variable {W : ℕ → List ℕ}

lemma waysEnds_eq {i a b : ℕ} (hh : (W i).head? = some a) (hl : (W i).getLast? = some b) :
    waysEnds W i = (a, b) := by
  unfold waysEnds
  rw [List.headD_eq_head?_getD, List.getLastD_eq_getLast?, hh, hl]
  rfl

lemma balanced_symm {es : List (ℕ × ℕ)} {h t : ℕ} (hb : Balanced es h t) :
    Balanced es t h := by
  intro v
  have := hb v
  simpa [endsAt, add_comm, add_left_comm] using this

lemma oriented_ends {q : ℕ × Bool} (hne : W q.1 ≠ []) : ∃ a b,
    (oriented W q).head? = some a ∧ (oriented W q).getLast? = some b ∧
      (waysEnds W q.1 = (a, b) ∨ waysEnds W q.1 = (b, a)) := by
  obtain ⟨a, b, hh, hl⟩ := ends_of_ne hne
  have he := waysEnds_eq hh hl
  unfold oriented
  split
  · exact ⟨b, a, by simpa using hl, by simpa using hh, .inr he⟩
  · exact ⟨a, b, hh, hl, .inl he⟩

lemma Extends.balanced {used used' : List Bool} {nodes nodes' : List ℕ}
    {qs : List (ℕ × Bool)} (hW : ∀ i < used.length, W i ≠ [])
    (h : Extends W used nodes qs used' nodes') {head tail : ℕ}
    (hh : nodes.head? = some head) (hl : nodes.getLast? = some tail)
    (hb : Balanced (unusedEnds W used) head tail) :
    nodes'.head? = some head ∧
      ∃ t, nodes'.getLast? = some t ∧ Balanced (unusedEnds W used') head t := by
  induction h generalizing tail with
  | done => exact ⟨hh, tail, hl, hb⟩
  | @step used used' nodes nodes' q qs hu hlink _ ih =>
    have hne := hW q.1 (List.getElem?_eq_some_iff.mp hu).1
    obtain ⟨a, b, ha, hb', he⟩ := oriented_ends (q := q) hne
    have hnil : nodes ≠ [] := by rintro rfl; simp at hh
    have hat : a = tail := by
      have := hlink.resolve_left hnil
      rw [ha, hl] at this
      simpa using this
    subst hat
    refine ih (by simpa using hW) ?_ ?_ (hb.walk ((Route.unused_perm hu).map _) he)
    · rw [List.head?_append, hh]; rfl
    · rw [getLast?_append_of_ne (oriented_ne_nil hne), hb']

/-- **A ring leaves even degrees.** -/
lemma Extends.even {used used' : List Bool} {nodes' : List ℕ} {qs : List (ℕ × Bool)}
    (hW : ∀ i < used.length, W i ≠ []) (h : Extends W used [] qs used' nodes')
    (hcl : ClosedNodes nodes') (hb : EvenDegrees (unusedEnds W used)) :
    EvenDegrees (unusedEnds W used') := by
  cases h with
  | done => simp [ClosedNodes] at hcl
  | @step _ _ _ _ q qs hu _ h =>
    have hne := hW q.1 (List.getElem?_eq_some_iff.mp hu).1
    obtain ⟨a, b, ha, hb', he⟩ := oriented_ends (q := q) hne
    have hbal : Balanced (unusedEnds W (used.set q.1 true)) a b := by
      have := hb.balanced ((Route.unused_perm hu).map (waysEnds W))
      rcases he with he | he
      · rwa [he] at this
      · rw [he] at this; exact balanced_symm this
    obtain ⟨hh, t, ht, hbt⟩ := h.balanced (by simpa using hW) (by simpa using ha)
      (by simpa using hb') hbal
    have : a = t := by
      have := hcl.2
      rw [hh, ht] at this
      simpa using this
    subst this
    exact balanced_self.mp hbt

/-- **No branch fails.** From a walk through ways of even degrees the search finds a ring. -/
theorem trackRec_found {openWays : List ℤ} {ways : List Way}
    (hW : ∀ i < openWays.length, nodesAt openWays ways i ≠ []) (fuel : ℕ)
    (used : List Bool) (nodes : List ℕ) {head tail : ℕ} (hlen : used.length = openWays.length)
    (hfuel : used.count false < fuel) (hsize : 1 < nodes.length)
    (hh : nodes.head? = some head) (hl : nodes.getLast? = some tail)
    (hb : Balanced (unusedEnds (nodesAt openWays ways) used) head tail) :
    ∃ used' nodes', trackRec openWays ways fuel used nodes = .ok ⟨true, used', nodes'⟩ := by
  induction fuel generalizing used nodes tail with
  | zero => omega
  | succ fuel ih =>
    by_cases hht : head = tail
    · exact ⟨used, nodes, trackRec_closed ⟨hsize, by rw [hh, hl, hht]⟩⟩
    have hclosed : ¬ ClosedNodes nodes := fun h => hht (by simpa [hh, hl] using h.2)
    have hcalls : Calls openWays ways (trackRec openWays ways fuel) used := fun i nodes' hu _ =>
      trackRec_spec hW fuel _ nodes' (by have := count_set_used hu; omega)
    rw [trackRec_on hl hclosed]
    refine tryNext_succeeds hcalls _ (fun i hi _ => hW i (List.mem_range.mp hi)) ?_
    -- the node reached has an odd number of unused ways, so at least one
    obtain ⟨e, he, hte⟩ := hb.exists_edge hht
    obtain ⟨i, hi, rfl⟩ := List.mem_map.mp he
    have hu := mem_unused.mp hi
    have hlt : i < openWays.length := hlen ▸ (List.getElem?_eq_some_iff.mp hu).1
    have hne := hW i hlt
    have hgo : GoesOn (nodesAt openWays ways) tail i := by
      obtain ⟨a, b, ha, hb'⟩ := ends_of_ne hne
      rw [waysEnds_eq ha hb'] at hte
      unfold GoesOn
      rw [ha, hb']
      simpa using hte
    obtain ⟨a, b, ha, hb', he⟩ := oriented_ends (q := nextPiece _ tail i) hne
    obtain rfl : a = tail := by
      have := hgo.head_nextPiece
      rw [ha] at this
      simpa using this
    refine ⟨i, List.mem_range.mpr hlt, hu, hgo, ?_⟩
    refine ih (used.set i true) _ (by simpa using hlen) ?_ ?_ ?_ ?_
      (hb.walk ((unused_perm hu).map _) he)
    · have := count_set_used hu
      omega
    · rw [List.length_append]; omega
    · rw [List.head?_append, hh]; rfl
    · rw [getLast?_append_of_ne (oriented_ne_nil hne), hb']

end Even

end SelfTraining.Route
