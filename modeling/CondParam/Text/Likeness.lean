import CondParam.Text

/-!
# Likeness of texts

How alike two texts are: the longest block that both have is matched, then the same is done with
what stands before it in both and with what stands behind it. The matched length, twice, against the
sum of the two lengths is the likeness. `closeMatches` lists the candidates that are like a mistyped
word, the most alike first.
-/

set_option autoImplicit false

namespace CondParam.Text

/-- How many characters two texts have in common at their fronts. -/
def commonLength : Text → Text → Nat
  | c :: cs, d :: ds => if c = d then commonLength cs ds + 1 else 0
  | _, _ => 0

/-- A block of equal characters: where it starts in each of two texts, and its length. -/
structure Block where
  left : Nat
  right : Nat
  length : Nat
  deriving DecidableEq, Repr

/-- What is left of a text from each of its characters on. -/
def endings : Text → List Text
  | [] => []
  | c :: cs => (c :: cs) :: endings cs

/-- The blocks of two texts by their starts, in the first text and then in the second. -/
def blocks (s t : Text) : List Block :=
  s.endings.zipIdx.flatMap fun (left, i) =>
    t.endings.zipIdx.map fun (right, j) => ⟨i, j, commonLength left right⟩

/-- The first of the longest blocks; the empty one if there is no other. -/
def longestBlock (s t : Text) : Block :=
  (blocks s t).foldl (fun best b => if best.length < b.length then b else best) ⟨0, 0, 0⟩

/-- The number of characters matched; `fuel` bounds how often texts are cut. -/
def matchedFrom : Nat → Text → Text → Nat
  | 0, _, _ => 0
  | fuel + 1, s, t =>
    let b := longestBlock s t
    if b.length = 0 then 0
    else
      matchedFrom fuel (s.take b.left) (t.take b.right) + b.length +
        matchedFrom fuel (s.drop (b.left + b.length)) (t.drop (b.right + b.length))

/-- The number of characters matched; every cut makes the first text shorter. -/
def matched (s t : Text) : Nat := matchedFrom s.length s t

/-- Likeness of at least three fifths. -/
def isClose (s t : Text) : Bool := 3 * (s.length + t.length) ≤ 10 * matched s t

/-- `s` is at least as like to `word` as `t` is; of two that are equally like, the greater one comes
first. -/
def closerOrEqual (word s t : Text) : Bool :=
  let this := matched s word * (t.length + word.length)
  let that := matched t word * (s.length + word.length)
  decide (that < this) || (decide (this = that) && le t s)

/-- The candidates that are close to a word, at most three, the closest first. -/
def closeMatches (word : Text) (candidates : List Text) : List Text :=
  ((candidates.filter fun c => isClose c word).mergeSort (closerOrEqual word)).take 3

end CondParam.Text
