import SelfTraining.Chat.EventLoop

/-!
The choice of the chat option, seen from both sides.

The client sends the option in one byte, and the server reads it into an `int` that it has
not written before, four bytes long. The bytes behind the first are whatever the client has
sent by then, and what the memory held where there is nothing more.
-/

namespace SelfTraining.Chat

open SelfTraining.Text

/-- What `SELECTCHATOPT` sends: `sizeof(option)` is one. -/
def optionBytes (option : UInt8) : Bytes := [option]

/-- The `int option` of the AUTHENTICATED branch, after its read of `data`. -/
def decodedOption (data : Bytes) (loc : Locals) : UInt32 :=
  ofLeBytes (filled (data.take (readSize .authenticated)) loc.mem)

/-- The bytes of the local `option` behind the first, before the read. -/
def HighBytesZero (loc : Locals) : Prop := ∀ i ∈ [1, 2, 3], loc.mem.getD i 0 = 0

instance (loc : Locals) : Decidable (HighBytesZero loc) := inferInstanceAs (Decidable (∀ _ ∈ _, _))

/-- The option is decoded as it was sent, its byte alone is taken from the stream, and a handling
that comes to its end logs the user out if it is 3 and otherwise not. -/
structure Agrees (option : UInt8) (more : Bytes) (loc : Locals) : Prop where
  decodes : decodedOption (optionBytes option ++ more) loc = option.toUInt32
  consumes : (optionBytes option ++ more).drop (readSize .authenticated) = more
  handled : ∀ {l l' : EventLoop} {fd : Int32} {name : Bytes},
    l.server.entry fd = (name, .authenticated) → l.buffer fd = optionBytes option ++ more →
      LoopStep (.handle fd loc) l l' →
        l'.buffer fd = more ∧ (l'.server.conList fd = none ↔ option = 3)

/-! ### What is decoded -/

lemma leaves_option {option : UInt8} {more : Bytes} {loc : Locals} :
    Leaves (optionBytes option ++ more) loc ↔
      decodedOption (optionBytes option ++ more) loc = 3 := by
  have hne : optionBytes option ++ more ≠ [] := List.cons_ne_nil _ _
  exact or_iff_right hne

lemma toUInt32_eq_three {option : UInt8} : option.toUInt32 = 3 ↔ option = 3 := by
  rw [← UInt32.toNat_inj, ← UInt8.toNat_inj]
  rfl

/-- With nothing behind it, the option has the memory's bytes above its own. -/
lemma decodedOption_alone (option : UInt8) (loc : Locals) :
    decodedOption (optionBytes option ++ []) loc =
      (option.toNat + 256 * (loc.mem.getD 1 0).toNat + 65536 * (loc.mem.getD 2 0).toNat +
        16777216 * (loc.mem.getD 3 0).toNat).toUInt32 := by
  have htake : (optionBytes option ++ []).take (readSize .authenticated) = [option] := rfl
  unfold decodedOption filled ofLeBytes
  rw [htake]
  simp [List.getD_eq_getElem?_getD]

lemma decodedOption_eq_iff (option : UInt8) (loc : Locals) :
    decodedOption (optionBytes option ++ []) loc = option.toUInt32 ↔ HighBytesZero loc := by
  have h0 := option.toNat_lt
  have h1 := (loc.mem.getD 1 0).toNat_lt
  have h2 := (loc.mem.getD 2 0).toNat_lt
  have h3 := (loc.mem.getD 3 0).toNat_lt
  have hzero : ∀ b : UInt8, b = 0 ↔ b.toNat = 0 := fun b => UInt8.toNat_inj.symm
  rw [decodedOption_alone, ← UInt32.toNat_inj]
  simp only [HighBytesZero, List.mem_cons, List.not_mem_nil, or_false, forall_eq_or_imp,
    forall_eq, hzero]
  have hmod : ∀ n : ℕ, n.toUInt32.toNat = n % 4294967296 := fun _ => rfl
  have hoption : option.toUInt32.toNat = option.toNat := rfl
  rw [hmod, hoption]
  omega

/-! ### Both sides -/

/-- **The handshake agrees** if and only if the client has sent nothing more when the server
reads, and the bytes of `option` that the read does not reach happen to be zero. -/
theorem agrees_iff (option : UInt8) (more : Bytes) (loc : Locals) :
    Agrees option more loc ↔ more = [] ∧ HighBytesZero loc := by
  constructor
  · intro h
    have hlen := congrArg List.length h.consumes
    have hsize : readSize .authenticated = 4 := rfl
    simp only [hsize, optionBytes, List.length_drop, List.length_append,
      List.length_singleton] at hlen
    obtain rfl : more = [] := List.length_eq_zero_iff.mp (by omega)
    exact ⟨rfl, (decodedOption_eq_iff option loc).mp h.decodes⟩
  · rintro ⟨rfl, hzero⟩
    have hdecodes := (decodedOption_eq_iff option loc).mpr hzero
    refine ⟨hdecodes, rfl, ?_⟩
    intro l l' fd name hentry hbuffer hstep
    cases hstep with
    | handle _ hbatch hrun =>
      constructor
      · simp [EventLoop.read, hbuffer, hentry, optionBytes, readSize]
      · obtain ⟨x, hcon, -, hnone⟩ := EventLoop.handle_cases hrun
        have hst : (l.server.entry fd).2 = .authenticated := by rw [hentry]
        have hx : x = none ↔ option = 3 := by
          rw [hnone, AsksToLeave, hbuffer, leaves_option, hdecodes, toUInt32_eq_three]
          simp [hst, optionBytes]
        simpa [hcon] using hx

/-- Where a byte of `option` above the first is not zero, a user who leaves is not logged out. -/
theorem exit_not_decoded : ¬ ∀ (option : UInt8) (more : Bytes) (loc : Locals),
    Agrees option more loc := by
  intro h
  have hdecodes := (h 3 [] ⟨0, [0, 1, 0, 0]⟩).decodes
  revert hdecodes
  decide

end SelfTraining.Chat
