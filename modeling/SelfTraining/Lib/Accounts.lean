import Mathlib.Data.List.Infix
import Mathlib.Logic.Function.Basic
import SelfTraining.Lib.Steps

/-!
A book of accounts: who has registered, with which password, and who is in over which
connection.

It is what a login service is to look like from outside. An account is opened once and stays
as it was opened; what a request is answered follows from the accounts and from who is in. How
an answer is delivered is a parameter.
-/

namespace SelfTraining.Accounts

open SelfTraining.Steps

/-- The accounts in the order in which they were opened, and the user of each connection. -/
structure Book (ν π κ : Type*) where
  accounts : List (ν × π)
  user : κ → Option ν

inductive Answer where
  | welcome
  | unknown
  | wrongPassword
  | alreadyIn
  | taken
  deriving DecidableEq

/-- What happens to the book. The requests come with what they are answered. -/
inductive Op (ν π κ ρ : Type*) where
  | register (conn : κ) (name : ν) (pass : π) (reply : ρ)
  | login (conn : κ) (name : ν) (pass : π) (reply : ρ)
  | leave (conn : κ)
  | close
  deriving DecidableEq

variable {ν π κ ρ : Type*} [DecidableEq ν] [DecidableEq κ]

namespace Book

/-- The password of the first account with this name. -/
def passOf (b : Book ν π κ) (name : ν) : Option π :=
  (b.accounts.find? fun a => a.1 = name).map Prod.snd

/-- The user is in over some connection. -/
def In (b : Book ν π κ) (name : ν) : Prop := ∃ k, b.user k = some name

def enter (b : Book ν π κ) (conn : κ) (name : ν) : Book ν π κ :=
  { b with user := Function.update b.user conn (some name) }

def openAccount (b : Book ν π κ) (name : ν) (pass : π) : Book ν π κ :=
  { b with accounts := b.accounts ++ [(name, pass)] }

/-- The steps of the book, each with its answer as `deliver` has it. -/
inductive Step (deliver : κ → Answer → ρ) : Op ν π κ ρ → Book ν π κ → Book ν π κ → Prop where
  | registered {b : Book ν π κ} {k : κ} {n : ν} {p : π} (h : b.passOf n = none) :
    Step deliver (.register k n p (deliver k .welcome)) b ((b.openAccount n p).enter k n)
  | taken {b : Book ν π κ} {k : κ} {n : ν} {p q : π} (h : b.passOf n = some q) :
    Step deliver (.register k n p (deliver k .taken)) b b
  | loggedIn {b : Book ν π κ} {k : κ} {n : ν} {p : π} (h : b.passOf n = some p)
      (hout : ¬ b.In n) : Step deliver (.login k n p (deliver k .welcome)) b (b.enter k n)
  | unknown {b : Book ν π κ} {k : κ} {n : ν} {p : π} (h : b.passOf n = none) :
    Step deliver (.login k n p (deliver k .unknown)) b b
  | wrongPassword {b : Book ν π κ} {k : κ} {n : ν} {p q : π} (h : b.passOf n = some q)
      (hne : p ≠ q) : Step deliver (.login k n p (deliver k .wrongPassword)) b b
  | alreadyIn {b : Book ν π κ} {k : κ} {n : ν} {p : π} (h : b.passOf n = some p)
      (hin : b.In n) : Step deliver (.login k n p (deliver k .alreadyIn)) b b
  | left {b : Book ν π κ} {k : κ} {n : ν} (h : b.user k = some n) :
    Step deliver (.leave k) b { b with user := Function.update b.user k none }
  | closed {b : Book ν π κ} : Step deliver .close b { b with user := fun _ => none }

end Book

/-- The account that an operation opens: a registration that is welcomed. -/
def Op.opened [DecidableEq ρ] (deliver : κ → Answer → ρ) : Op ν π κ ρ → Option (ν × π)
  | .register k n p r => if r = deliver k .welcome then some (n, p) else none
  | _ => none

section

variable {deliver : κ → Answer → ρ} {b b' : Book ν π κ} {op : Op ν π κ ρ} {ops : List (Op ν π κ ρ)}
  {n : ν} {p : π}

lemma Book.Step.accounts [DecidableEq ρ] (hd : ∀ k, Function.Injective (deliver k))
    (h : Book.Step deliver op b b') :
    b'.accounts = b.accounts ++ (op.opened deliver).toList := by
  cases h with
  | registered => simp [Op.opened, Book.openAccount, Book.enter]
  | taken => simp [Op.opened, (hd _).eq_iff]
  | loggedIn => simp [Op.opened, Book.enter]
  | unknown => simp [Op.opened]
  | wrongPassword => simp [Op.opened]
  | alreadyIn => simp [Op.opened]
  | left => simp [Op.opened]
  | closed => simp [Op.opened]

/-- **Accounts are for good**: after a run the book holds the accounts from before it, and those
whose registration was welcomed, in this order. -/
lemma accounts_of_run [DecidableEq ρ] (hd : ∀ k, Function.Injective (deliver k))
    (h : Trace (Book.Step deliver) b ops b') :
    b'.accounts = b.accounts ++ ops.filterMap (Op.opened deliver) := by
  induction h with
  | nil => simp
  | @snoc ops op u v _ hstep ih =>
    rw [hstep.accounts hd, ih, List.append_assoc, List.filterMap_append]
    cases ho : op.opened deliver <;> simp [ho]

lemma passOf_of_run [DecidableEq ρ] (hd : ∀ k, Function.Injective (deliver k))
    (h : Trace (Book.Step deliver) b ops b') (hn : b.passOf n = some p) :
    b'.passOf n = some p := by
  unfold Book.passOf at hn ⊢
  obtain ⟨a, ha, rfl⟩ := Option.map_eq_some_iff.mp hn
  rw [accounts_of_run hd h, List.find?_append, ha]
  rfl

lemma Book.Step.passOf_registered {k : κ} (hd : ∀ k, Function.Injective (deliver k))
    (h : Book.Step deliver (.register k n p (deliver k .welcome)) b b') :
    b'.passOf n = some p := by
  generalize hr : deliver k .welcome = r at h
  cases h with
  | registered hnone =>
    have hfind : b.accounts.find? (fun a => a.1 = n) = none := by
      simpa [Book.passOf] using hnone
    simp [Book.passOf, Book.enter, Book.openAccount, List.find?_append, hfind]
  | taken => exact absurd (hd k hr) (by decide)

lemma passOf_of_registered [DecidableEq ρ] (hd : ∀ k, Function.Injective (deliver k)) {k : κ}
    (h : Trace (Book.Step deliver) b ops b')
    (hmem : Op.register k n p (deliver k .welcome) ∈ ops) : b'.passOf n = some p := by
  induction h with
  | nil => cases hmem
  | @snoc ops op u v _ hstep ih =>
    rcases List.mem_append.mp hmem with hmem | hmem
    · exact passOf_of_run hd (Trace.nil.snoc hstep) (ih hmem)
    · obtain rfl := List.mem_singleton.mp hmem
      exact hstep.passOf_registered hd

lemma Book.Step.login_reply {k : κ} {q : π} {r : ρ} (hn : b.passOf n = some p)
    (h : Book.Step deliver (.login k n q r) b b') :
    (q ≠ p ∧ r = deliver k .wrongPassword) ∨ (q = p ∧ b.In n ∧ r = deliver k .alreadyIn) ∨
      (q = p ∧ ¬ b.In n ∧ r = deliver k .welcome) := by
  cases h with
  | loggedIn h hout => exact .inr (.inr ⟨Option.some.inj (h.symm.trans hn), hout, rfl⟩)
  | unknown h => rw [hn] at h; cases h
  | wrongPassword h hne => exact .inl ⟨Option.some.inj (h.symm.trans hn) ▸ hne, rfl⟩
  | alreadyIn h hin => exact .inr (.inl ⟨Option.some.inj (h.symm.trans hn), hin, rfl⟩)

lemma Book.Step.register_reply {k : κ} {q : π} {r : ρ} (hn : b.passOf n = some p)
    (h : Book.Step deliver (.register k n q r) b b') : r = deliver k .taken := by
  cases h with
  | registered h => rw [hn] at h; cases h
  | taken h => rfl

end

end SelfTraining.Accounts
