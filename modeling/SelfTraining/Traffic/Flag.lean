import SelfTraining.Traffic.EntryOrder

/-!
Why the queue of an intersection does not come to a standstill.

The flag of an intersection is up for a reason: for a permit that is about to be given, or for
a vehicle that was let in and has not left. And whoever waits is in the queue until it is let
in, so that no promise is forgotten.
-/

namespace SelfTraining.Traffic

open Steps

namespace Crossings

variable {c d : Crossings} {e : Event}

/-- A vehicle that waits is granted entry or in the queue, and a flag that is up will come down:
it has been raised for a permit, or for a vehicle that has not left. -/
structure Live (c : Crossings) : Prop extends Lined c where
  queuedUp : ∀ v p, c.stage v = .waiting p → c.isSet p = false →
    p ∈ (c.desk (c.destination v)).waitingVehicles.promises
  owned : ∀ i, (c.desk i).isBlocked = true → (c.desk i).pc ≠ .permitEntry →
    ∃ v, c.Granted v ∧ c.destination v = i

lemma mem_promises_setDesk {i j : Id} {desk : Desk} {p : Promise}
    (h : desk.waitingVehicles = (c.desk j).waitingVehicles)
    (hp : p ∈ (c.desk i).waitingVehicles.promises) :
    p ∈ ((c.setDesk j desk).desk i).waitingVehicles.promises := by
  rwa [promises_setDesk h]

lemma Live.setPc (hc : Live c) {i : Id} {pc : ProcessPc} (hd : Lined (c.setDesk i
    { c.desk i with pc })) (hpc : (c.desk i).pc ≠ .permitEntry) :
    Live (c.setDesk i { c.desk i with pc }) where
  toLined := hd
  queuedUp v p hv hp := mem_promises_setDesk rfl (hc.queuedUp v p hv hp)
  owned j hflag hj := by
    by_cases h : j = i
    · subst h
      exact hc.owned j (by simpa using hflag) hpc
    · exact hc.owned j (by simpa [h] using hflag) (by simpa [h] using hj)

lemma Granted.keep {v : Id} (h : c.Granted v) (hstage : d.stage v = c.stage v)
    (hset : ∀ p, c.isSet p = true → d.isSet p = true) : d.Granted v := by
  rcases h with h | ⟨p, h, hp⟩
  · exact .inl (hstage.trans h)
  · exact .inr ⟨p, hstage.trans h, hset p hp⟩

lemma Granted.ne_of_driving {v w : Id} (h : c.Granted w) (hv : c.stage v = .driving) : w ≠ v := by
  rintro rfl
  exact not_granted_of_driving hv h

lemma Live.turn (hc : Live c) {v : Id} (i : Id) (hv : c.stage v = .driving) :
    Live { c with destination := Function.update c.destination v i } where
  toLined := hc.toLined.step (.turn i hv)
  queuedUp w p hw hp := by
    have hne : w ≠ v := by
      rintro rfl
      rw [hv] at hw
      cases hw
    simpa [hne] using hc.queuedUp w p hw hp
  owned j hflag hj := by
    obtain ⟨w, hw, hdest⟩ := hc.owned j hflag hj
    exact ⟨w, hw, by simpa [hw.ne_of_driving hv] using hdest⟩

lemma Live.pushBack (hc : Live c) {v : Id} (hv : c.stage v = .driving) :
    Live { (c.setStage v (.waiting ⟨v, c.calls v⟩)).setDesk (c.destination v)
        { c.desk (c.destination v) with
          waitingVehicles :=
            (c.desk (c.destination v)).waitingVehicles.pushBack v ⟨v, c.calls v⟩ } with
        calls := Function.update c.calls v (c.calls v + 1) } where
  toLined := hc.toLined.step (.pushBack hv)
  queuedUp w p hw hp := by
    by_cases h : w = v
    · subst h
      obtain rfl : (⟨w, c.calls w⟩ : Promise) = p := by simpa using hw
      simp [WaitingVehicles.pushBack]
    · have hold := hc.queuedUp w p (by simpa [h] using hw) hp
      by_cases hdest : c.destination w = c.destination v
      · rw [hdest] at hold
        simp [hdest, WaitingVehicles.pushBack, hold]
      · simpa [hdest] using hold
  owned j hflag hj := by
    obtain ⟨w, hw, hdest⟩ : ∃ w, c.Granted w ∧ c.destination w = j := by
      by_cases h : j = c.destination v
      · subst h
        exact hc.owned _ (by simpa using hflag) (by simpa using hj)
      · exact hc.owned j (by simpa [h] using hflag) (by simpa [h] using hj)
    exact ⟨w, hw.keep (by simp [hw.ne_of_driving hv]) fun _ hp => hp, hdest⟩

lemma Live.enter (hc : Live c) {v : Id} {p : Promise} (hv : c.stage v = .waiting p)
    (hp : c.isSet p = true) : Live (c.setStage v .inside) where
  toLined := hc.toLined.step (.enter hv hp)
  queuedUp w r hw hr := by
    have hne : w ≠ v := by
      rintro rfl
      simp at hw
    exact hc.queuedUp w r (by simpa [hne] using hw) hr
  owned j hflag hj := by
    obtain ⟨w, hw, hdest⟩ := hc.owned j hflag hj
    refine ⟨w, ?_, hdest⟩
    by_cases h : w = v
    · subst h
      exact .inl (by simp)
    · exact hw.keep (by simp [h]) fun _ hp => hp

lemma Live.leave (hc : Live c) {v : Id} (hv : c.stage v = .inside) :
    Live ((c.setStage v .driving).setDesk (c.destination v)
      { c.desk (c.destination v) with isBlocked := false }) where
  toLined := hc.toLined.step (.leave hv)
  queuedUp w p hw hp := by
    have hne : w ≠ v := by
      rintro rfl
      simp at hw
    have hold := hc.queuedUp w p (by simpa [hne] using hw) hp
    exact mem_promises_setDesk rfl hold
  owned j hflag hj := by
    by_cases h : j = c.destination v
    · subst h
      simp at hflag
    · obtain ⟨w, hw, hdest⟩ := hc.owned j (by simpa [h] using hflag) (by simpa [h] using hj)
      have hne : w ≠ v := by
        rintro rfl
        exact h hdest.symm
      exact ⟨w, hw.keep (by simp [hne]) fun _ hp => hp, hdest⟩

lemma Live.setIsBlocked (hc : Live c) {i : Id} (hi : (c.desk i).pc = .setIsBlocked) :
    Live (c.setDesk i { c.desk i with isBlocked := true, pc := .permitEntry }) where
  toLined := hc.toLined.step (.setIsBlocked hi)
  queuedUp v p hv hp := mem_promises_setDesk rfl (hc.queuedUp v p hv hp)
  owned j hflag hj := by
    by_cases h : j = i
    · subst h
      simp at hj
    · exact hc.owned j (by simpa [h] using hflag) (by simpa [h] using hj)

lemma Live.permitEntry (hc : Live c) {i : Id} {p : Promise} {q : WaitingVehicles}
    (hi : (c.desk i).pc = .permitEntry)
    (hq : (c.desk i).waitingVehicles.permitEntryToFirstInQueue = some (p, q)) :
    Live { c.setDesk i { c.desk i with waitingVehicles := q, pc := .getSize } with
      isSet := Function.update c.isSet p true } where
  toLined := hc.toLined.step (.permitEntry hi hq)
  queuedUp v r hv hr := by
    have hne : r ≠ p := by
      rintro rfl
      simp at hr
    have hold := hc.queuedUp v r hv (by simpa [hne] using hr)
    by_cases h : c.destination v = i
    · rw [h, permitEntry_promises hq] at hold
      simpa [h, hne] using hold
    · simpa [h] using hold
  owned j hflag hj := by
    by_cases h : j = i
    · subst h
      obtain ⟨hstage, hdest, -⟩ := hc.queued j p (by simp [permitEntry_promises hq])
      exact ⟨p.vehicle, .inr ⟨p, hstage, by simp⟩, hdest⟩
    · obtain ⟨w, hw, hdest⟩ := hc.owned j (by simpa [h] using hflag) (by simpa [h] using hj)
      refine ⟨w, hw.keep rfl fun r hr => ?_, hdest⟩
      by_cases hrp : r = p
      · simp [hrp]
      · simpa [hrp] using hr

/-- **One step keeps the queues moving.** -/
lemma Live.step (hc : Live c) (h : Step e c d) : Live d := by
  have hd := hc.toLined.step h
  cases h with
  | quiet => exact hc
  | turn i hv => exact hc.turn i hv
  | pushBack hv => exact hc.pushBack hv
  | enter hv hp => exact hc.enter hv hp
  | leave hv => exact hc.leave hv
  | getSize hi => exact hc.setPc hd (by simp [hi])
  | isBlocked hi => exact hc.setPc hd (by simp [hi])
  | setIsBlocked hi => exact hc.setIsBlocked hi
  | permitEntry hi hq => exact hc.permitEntry hi hq

end Crossings

end SelfTraining.Traffic
