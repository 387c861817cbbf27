import Mathlib.Data.List.Basic

/-!
A bulletin board: posts are put up one after the other, each for those who are there, and
everybody reads what others have put up for them in that order.

It is what a broadcast to a changing group is to look like: whoever reads two posts reads them
in the order of the board, and nobody reads a post twice.
-/

namespace SelfTraining.Board

/-- A post with the author, and with those who are there when it is put up. -/
structure Post (ι μ : Type*) where
  author : ι
  text : μ
  present : ι → Bool

variable {ι μ : Type*} [DecidableEq ι]

def Post.signed (p : Post ι μ) : ι × μ := (p.author, p.text)

/-- What a post brings to a reader. The author does not read it. -/
def Post.bring (i : ι) (p : Post ι μ) : Option (ι × μ) :=
  if p.present i ∧ p.author ≠ i then some p.signed else none

/-- What a reader reads from the board. -/
def inbox (i : ι) (b : List (Post ι μ)) : List (ι × μ) := b.filterMap (Post.bring i)

lemma inbox_append (i : ι) (b b' : List (Post ι μ)) :
    inbox i (b ++ b') = inbox i b ++ inbox i b' := List.filterMap_append

/-- What an author has put up. -/
def textsBy (i : ι) (b : List (Post ι μ)) : List μ := (b.filter fun p => p.author = i).map Post.text

lemma textsBy_append (i : ι) (b b' : List (Post ι μ)) :
    textsBy i (b ++ b') = textsBy i b ++ textsBy i b' := by
  unfold textsBy
  rw [List.filter_append, List.map_append]

end SelfTraining.Board
