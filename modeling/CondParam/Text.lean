import CondParam.Text.Space

/-!
# Text

A text is its list of code points: every column, width and offset of this library counts them.
String literals stand for texts wherever a text is expected.
-/

set_option autoImplicit false

namespace CondParam

abbrev Text := List CodePoint

namespace Text

/-- The text of characters. -/
def ofChars (cs : List Char) : Text := cs.map .char

/-- The characters of a text; none if half of a surrogate pair stands alone in it. -/
def chars? : Text → Option (List Char)
  | [] => some []
  | .char c :: cs => (chars? cs).map (c :: ·)
  | .half _ :: _ => none

end Text

instance : Coe String Text := ⟨fun s => Text.ofChars s.toList⟩

namespace Text

/-- The pieces one after another. -/
def concat (parts : List Text) : Text := parts.flatten

/-- The pieces with `sep` between neighbours. -/
def join (sep : Text) (parts : List Text) : Text := List.intercalate sep parts

/-- Nothing but white space. -/
def isBlank (t : Text) : Bool := t.all isSpace

/-- `t` without the white space at its end. -/
def stripEnd (t : Text) : Text := (t.reverse.dropWhile isSpace).reverse

/-- `t` without the white space at its two ends. -/
def strip (t : Text) : Text := stripEnd (t.dropWhile isSpace)

/-- The pieces between the occurrences of `sep`; there is one more of them than of `sep`. -/
def splitOn (sep : CodePoint) : Text → List Text
  | [] => [[]]
  | c :: cs =>
    if c = sep then [] :: splitOn sep cs
    else match splitOn sep cs with
      | [] => [[c]]
      | piece :: rest => (c :: piece) :: rest

/-- `t` followed by as many blanks as make it `width` characters long. -/
def padRight (width : Nat) (t : Text) : Text := t ++ List.replicate (width - t.length) (.char ' ')

/-- How many bytes the text takes in a file. -/
def utf8Size (t : Text) : Nat := t.foldl (fun n c => n + c.utf8Size) 0

/-- A natural number in decimal. -/
def ofNat (n : Nat) : Text := ofChars (Nat.toDigits 10 n)

/-- An integer in decimal. -/
def ofInt : Int → Text
  | .ofNat n => ofNat n
  | .negSucc n => '-' :: ofNat (n + 1)

/-- The order of texts by code points: at the first difference the smaller one decides, and a text
comes before its continuations. -/
def le : Text → Text → Bool
  | [], _ => true
  | _ :: _, [] => false
  | c :: cs, d :: ds => decide (c.toNat < d.toNat) || (c == d && le cs ds)

/-- How many characters `s` has up to and including the first occurrence of `mark` in it. -/
def through (mark : Text) : Text → Option Nat
  | [] => if mark.isEmpty then some 0 else none
  | c :: cs =>
    if mark.isPrefixOf (c :: cs) then some mark.length else (through mark cs).map (· + 1)

@[simp] theorem chars?_ofChars (cs : List Char) : chars? (ofChars cs) = some cs := by
  induction cs with
  | nil => rfl
  | cons c cs ih => simpa [ofChars, chars?] using ih

@[simp] theorem concat_nil : concat [] = [] := rfl

@[simp] theorem concat_cons (t : Text) (ts : List Text) : concat (t :: ts) = t ++ concat ts := rfl

theorem le_refl (t : Text) : le t t = true := by
  induction t with
  | nil => rfl
  | cons c cs ih => simp [le, ih]

theorem le_total (s t : Text) : (le s t || le t s) = true := by
  induction s generalizing t with
  | nil => simp [le]
  | cons c cs ih =>
    cases t with
    | nil => simp [le]
    | cons d ds =>
      have := ih ds
      by_cases h : c = d
      · subst h
        simpa [le] using this
      · have : c.toNat ≠ d.toNat := fun e => h (CodePoint.toNat_inj.1 e)
        simp only [le, Bool.or_eq_true, decide_eq_true_eq]
        omega

theorem le_trans {s t u : Text} (hst : le s t = true) (htu : le t u = true) : le s u = true := by
  induction s generalizing t u with
  | nil => rfl
  | cons c cs ih =>
    match t, u with
    | [], _ => simp [le] at hst
    | _ :: _, [] => simp [le] at htu
    | d :: ds, e :: es =>
      simp only [le, Bool.or_eq_true, decide_eq_true_eq, Bool.and_eq_true, beq_iff_eq] at hst htu ⊢
      rcases hst with h₁ | ⟨rfl, h₁⟩ <;> rcases htu with h₂ | ⟨rfl, h₂⟩
      · exact .inl (by omega)
      · exact .inl h₁
      · exact .inl h₂
      · exact .inr ⟨rfl, ih h₁ h₂⟩

theorem le_antisymm {s t : Text} (hst : le s t = true) (hts : le t s = true) : s = t := by
  induction s generalizing t with
  | nil =>
    cases t with
    | nil => rfl
    | cons d ds => simp [le] at hts
  | cons c cs ih =>
    cases t with
    | nil => simp [le] at hst
    | cons d ds =>
      simp only [le, Bool.or_eq_true, decide_eq_true_eq, Bool.and_eq_true, beq_iff_eq] at hst hts
      rcases hst with h₁ | ⟨rfl, h₁⟩
      · rcases hts with h₂ | ⟨rfl, _⟩ <;> omega
      · rcases hts with h₂ | ⟨_, h₂⟩
        · omega
        · rw [ih h₁ h₂]

theorem splitOn_ne_nil (sep : CodePoint) (t : Text) : splitOn sep t ≠ [] := by
  cases t with
  | nil => simp [splitOn]
  | cons c cs => simp only [splitOn]; split <;> (try split) <;> simp

end Text

/-- A value and how many characters were read for it. -/
structure Read (α : Type) where
  value : α
  length : Nat
  deriving DecidableEq, Repr

/-- The value with `n` more characters read. -/
def Read.plus {α : Type} (n : Nat) (r : Read α) : Read α := { r with length := r.length + n }

end CondParam
