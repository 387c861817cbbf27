import SelfTraining.Chat.EventLoop

/-!
Which descriptors the server comes to serve.

`Accept` gives back 0 where `accept` has failed, and the loop asks for -1. So a failed accept
registers descriptor 0, unless that has an entry already.
-/

namespace SelfTraining.Chat

open SelfTraining.Text SelfTraining.Steps

/-- The descriptor that a successful accept returns. -/
def LoopAction.accepted : LoopAction → Option Int32
  | .accept accepted => if accepted < 0 then none else some accepted
  | _ => none

/-- The descriptors that accepts have returned. -/
def acceptedBy (as : List LoopAction) : List Int32 := as.filterMap LoopAction.accepted

/-- Everything that is served was accepted. -/
structure OnlyAccepted (as : List LoopAction) (l : EventLoop) : Prop where
  conList : ∀ fd, l.server.conList fd ≠ none → fd ∈ acceptedBy as
  epoll : ∀ fd ∈ l.server.epoll, fd ∈ acceptedBy as

/-- An accept that fails changes neither `con_list` nor the epoll set. -/
def FailureKeeps (a : LoopAction) (l l' : EventLoop) : Prop :=
  ∀ accepted < 0, a = .accept accepted →
    l'.server.conList = l.server.conList ∧ l'.server.epoll = l.server.epoll

/-- An accept that fails finds an entry for descriptor 0. -/
def FailsOnKnown (l : EventLoop) (a : LoopAction) : Prop :=
  ∀ accepted < 0, a = .accept accepted → l.server.conList 0 ≠ none

section

variable {l l' : EventLoop} {a : LoopAction} {as : List LoopAction}

lemma acceptedBy_snoc : acceptedBy (as ++ [a]) = acceptedBy as ++ a.accepted.toList := by
  unfold acceptedBy
  cases h : a.accepted <;> simp [h]

lemma accept_of_neg {accepted : Int32} (h : accepted < 0) : accept accepted = 0 := if_pos h

lemma step_served (h : l.Sound) (hstep : LoopStep a l l') :
    ((∀ fd, l'.server.conList fd ≠ none → l.server.conList fd ≠ none) ∧
      l'.server.epoll ⊆ l.server.epoll) ∨
    ∃ accepted, a = .accept accepted ∧ l'.server = l.server.add (accept accepted) := by
  cases hstep with
  | arrive => exact .inl ⟨fun _ hfd => hfd, Finset.Subset.refl _⟩
  | close => exact .inl ⟨fun _ hfd => hfd, Finset.Subset.refl _⟩
  | wait => exact .inl ⟨fun _ hfd => hfd, Finset.Subset.refl _⟩
  | @accept _ rest sql s' accepted hbatch hrun =>
    obtain rfl : l.server.add (accept accepted) = s' := by
      simpa [handleEvent, accept_ne] using hrun
    exact .inr ⟨accepted, rfl, rfl⟩
  | @handle _ fd rest sql s' loc hbatch hrun =>
    obtain ⟨x, hcon, hepoll, -⟩ := EventLoop.handle_cases hrun
    refine .inl ⟨fun g hg => ?_, ?_⟩
    · change s'.conList g ≠ none at hg
      by_cases hne : g = fd
      · -- whatever is in the batch has an entry
        subst hne
        exact h.poller.registered g (EventLoop.mem_poller_batch.mpr (by simp [hbatch]))
      · simpa [hcon, hne] using hg
    · change s'.epoll ⊆ l.server.epoll
      rw [hepoll]
      split
      · exact Finset.erase_subset _ _
      · exact Finset.Subset.refl _

lemma failureKeeps_iff (h : l.Sound) (hstep : LoopStep a l l') :
    FailureKeeps a l l' ↔ FailsOnKnown l a := by
  refine forall_congr' fun accepted => forall_congr' fun hneg => forall_congr' fun ha => ?_
  subst ha
  cases hstep with
  | @accept _ rest sql s' _ hbatch hrun =>
    obtain rfl : l.server.add (accept accepted) = s' := by
      simpa [handleEvent, accept_ne] using hrun
    rw [accept_of_neg hneg]
    constructor
    · rintro ⟨hcon, -⟩ hnone
      have hentry := congrFun hcon 0
      rw [hnone] at hentry
      simp [Server.add, Server.touch, Server.setEntry] at hentry
    · intro hknown
      obtain ⟨e, he⟩ := Option.ne_none_iff_exists'.mp hknown
      constructor
      · have hentry : l.server.entry 0 = e := by simp [Server.entry, he]
        change Function.update l.server.conList 0 (some (l.server.entry 0)) = l.server.conList
        rw [hentry, ← he, Function.update_eq_self]
      · exact Finset.insert_eq_of_mem ((h.listed 0).mpr hknown)

lemma OnlyAccepted.step (h : OnlyAccepted as l) (hs : l.Sound) (hstep : LoopStep a l l')
    (hfail : FailsOnKnown l a) : OnlyAccepted (as ++ [a]) l' := by
  have hmono : ∀ fd, fd ∈ acceptedBy as → fd ∈ acceptedBy (as ++ [a]) := by
    intro fd hfd
    rw [acceptedBy_snoc]
    exact List.mem_append_left _ hfd
  rcases step_served hs hstep with ⟨hcon, hepoll⟩ | ⟨accepted, rfl, hserver⟩
  · exact ⟨fun fd hfd => hmono fd (h.conList fd (hcon fd hfd)),
      fun fd hfd => hmono fd (h.epoll fd (hepoll hfd))⟩
  · -- the new descriptor is the one accepted, or it is 0 and known
    have hnew : accept accepted ∈ acceptedBy (as ++ [.accept accepted]) := by
      by_cases hneg : accepted < 0
      · rw [accept_of_neg hneg]
        exact hmono 0 (h.conList 0 (hfail accepted hneg rfl))
      · rw [acceptedBy_snoc]
        simp [accept, LoopAction.accepted, hneg]
    refine ⟨fun fd hfd => ?_, fun fd hfd => ?_⟩
    · rw [hserver] at hfd
      by_cases hne : fd = accept accepted
      · exact hne ▸ hnew
      · refine hmono fd (h.conList fd ?_)
        simpa [Server.add, Server.touch, Server.setEntry, hne] using hfd
    · rw [hserver] at hfd
      rcases Finset.mem_insert.mp hfd with rfl | hfd
      · exact hnew
      · exact hmono fd (h.epoll fd hfd)

end

/-! ### Runs -/

/-- **Only accepted sockets are served** in a run whose failed accepts find descriptor 0 known,
which an accept has then returned. In any run, a failed accept changes nothing if and only if
it finds descriptor 0 known. -/
theorem only_accepted_served {l₀ : EventLoop} (h0 : Idle l₀) :
    (∀ as l, Trace (fun a l l' => LoopStep a l l' ∧ FailsOnKnown l a) l₀ as l →
      OnlyAccepted as l) ∧
    ∀ as l a l', Trace LoopStep l₀ as l → LoopStep a l l' →
      (FailureKeeps a l l' ↔ FailsOnKnown l a) := by
  constructor
  · intro as l hrun
    have hinv : l.Sound ∧ OnlyAccepted as l := by
      induction hrun with
      | nil =>
        refine ⟨.of_idle h0, fun fd hfd => ?_, fun fd hfd => ?_⟩
        · exact absurd (congrFun h0.conList fd) hfd
        · simp [h0.epoll] at hfd
      | snoc _ hstep ih => exact ⟨ih.1.step hstep.1, ih.2.step ih.1 hstep.1 hstep.2⟩
    exact hinv.2
  · intro as l a l' hrun hstep
    have hs : l.Sound :=
      hrun.reaches.invariant (I := EventLoop.Sound) (.of_idle h0) fun u v hu ⟨b, hb⟩ => hu.step hb
    exact failureKeeps_iff hs hstep

/-! ### One accept -/

/-- The first client that comes in, with what `accept` returns for it. -/
def firstAccept (accepted : Int32) : EventLoop :=
  { idleLoop.report [.listening] with
    server := emptyServer.add (accept accepted)
    ready := (idleLoop.report [.listening]).added (accept accepted)
    batch := [] }

lemma firstAccept_trace (accepted : Int32) :
    Trace LoopStep idleLoop ([] ++ [.wait [.listening]] ++ [.accept accepted])
      (firstAccept accepted) := by
  have haccept : handleEvent .reference (.incoming accepted) emptyServer =
      .ok () (emptyServer.add (accept accepted)) := by
    simp [handleEvent, accept_ne, addSocketToEpoll_eq]
  exact .snoc (.snoc .nil (.wait rfl (by decide) (by decide) (by simp))) (.accept _ rfl haccept)

/-- An accept that fails has the server serve descriptor 0. -/
theorem failed_accept_served : ¬ ∀ (l₀ l : EventLoop) (as : List LoopAction), Idle l₀ →
    Trace LoopStep l₀ as l → OnlyAccepted as l := by
  intro h
  have hmem := (h _ _ _ idleLoop_idle (firstAccept_trace (-1))).conList 0 (by decide +kernel)
  revert hmem
  decide +kernel

/-- The next accept, when descriptor 0 has been accepted. -/
def nextAccept (accepted : Int32) : EventLoop :=
  { (firstAccept 0).report [.listening] with
    server := (firstAccept 0).server.add (accept accepted)
    ready := ((firstAccept 0).report [.listening]).added (accept accepted)
    batch := [] }

/-- A later accept that fails finds descriptor 0 accepted: nothing else is served, and nothing
is changed. -/
theorem only_accepted_served_first :
    OnlyAccepted [.wait [.listening], .accept 0, .wait [.listening], .accept (-1)]
      (nextAccept (-1)) ∧
    FailureKeeps (.accept (-1)) ((firstAccept 0).report [.listening]) (nextAccept (-1)) := by
  have hfirst : Trace (fun a l l' => LoopStep a l l' ∧ FailsOnKnown l a) idleLoop
      ([] ++ [.wait [.listening]] ++ [.accept 0]) (firstAccept 0) := by
    refine (firstAccept_trace 0).mono_of_mem fun a ha u v hstep =>
      ⟨hstep, fun accepted hneg heq => ?_⟩
    subst heq
    obtain rfl : accepted = 0 := by simpa using ha
    exact absurd hneg (by decide)
  have hknown : FailsOnKnown ((firstAccept 0).report [.listening]) (.accept (-1)) :=
    fun _ _ _ => by decide +kernel
  have haccept : handleEvent .reference (.incoming (-1)) (firstAccept 0).server =
      .ok () ((firstAccept 0).server.add (accept (-1))) := by
    simp [handleEvent, accept_ne, addSocketToEpoll_eq]
  have hwait :
      LoopStep (.wait [.listening]) (firstAccept 0) ((firstAccept 0).report [.listening]) :=
    .wait rfl (by decide) (by decide) (by simp)
  have hnext : LoopStep (.accept (-1)) ((firstAccept 0).report [.listening]) (nextAccept (-1)) :=
    .accept _ rfl haccept
  have hbefore := hfirst.snoc ⟨hwait, fun _ _ heq => by cases heq⟩
  exact ⟨(only_accepted_served idleLoop_idle).1 _ _ (hbefore.snoc ⟨hnext, hknown⟩),
    ((only_accepted_served idleLoop_idle).2 _ _ _ _ (hbefore.mono fun _ _ _ h => h.1) hnext).mpr
      hknown⟩

end SelfTraining.Chat
