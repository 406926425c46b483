import CondParam.Sorting
import Mathlib.Data.List.Basic

/-!
# Stable sorts

`IsStableSort le key reverse items sorted` says what a sort is to do: `sorted` has the same items,
its keys never fall (never rise, if the sort is reversed), and items with tied keys stand as they
stood. Where the keys have an order (`KeyOrder`) there is exactly one such list
(`IsStableSort.eq`), and `sortBy` finds it (`isStableSort_sortBy`). So a sort changes nothing if and
only if the keys are in order already (`sortBy_eq_self_iff`), and that is what its report says.
-/

set_option autoImplicit false

namespace CondParam

/-! ## Orders of keys -/

/-- Keys with an order: any two of them compare. Distinct keys may be tied. -/
structure KeyOrder {κ : Type} (le : κ → κ → Bool) : Prop where
  trans : ∀ a b c, le a b = true → le b c = true → le a c = true
  total : ∀ a b, (le a b || le b a) = true

theorem keyOrder_text : KeyOrder Text.le := ⟨fun _ _ _ => Text.le_trans, Text.le_total⟩

theorem keyOrder_int : KeyOrder fun m n : Int => decide (m ≤ n) := by
  constructor
  · intro a b c hab hbc
    simp only [decide_eq_true_eq] at hab hbc ⊢
    omega
  · intro a b
    simp only [Bool.or_eq_true, decide_eq_true_eq]
    omega

section
variable {α κ : Type} (le : κ → κ → Bool)

/-- The order in the direction of a sort. -/
def directed (reverse : Bool) (k k' : κ) : Bool := if reverse then le k' k else le k k'

/-- Neither key has to stand before the other. -/
def tied (k k' : κ) : Bool := le k k' && le k' k

/-- The keys never fall, or never rise. -/
def KeysInOrder (reverse : Bool) (keys : List κ) : Prop :=
  keys.Pairwise fun k k' => directed le reverse k k' = true

instance (reverse : Bool) (keys : List κ) : Decidable (KeysInOrder le reverse keys) :=
  inferInstanceAs (Decidable (keys.Pairwise _))

/-- The items with a key that is tied with `k`, in their order. -/
def tiedItems (key : α → κ) (k : κ) (items : List α) : List α :=
  items.filter fun a => tied le (key a) k

/-- What a stable sort by keys makes of items. -/
structure IsStableSort (key : α → κ) (reverse : Bool) (items sorted : List α) : Prop where
  perm : sorted.Perm items
  inOrder : KeysInOrder le reverse (sorted.map key)
  stable : ∀ k, tiedItems le key k sorted = tiedItems le key k items

end

namespace KeyOrder

variable {α κ : Type} {le : κ → κ → Bool} (h : KeyOrder le)
include h

theorem refl (k : κ) : le k k = true := by simpa using h.total k k

theorem directed (reverse : Bool) : KeyOrder (directed le reverse) := by
  cases reverse with
  | false => exact h
  | true => exact ⟨fun a b c hab hbc => h.trans c b a hbc hab, fun a b => h.total b a⟩

theorem on (key : α → κ) : KeyOrder fun a b => le (key a) (key b) :=
  ⟨fun a b c => h.trans (key a) (key b) (key c), fun a b => h.total (key a) (key b)⟩

theorem tied_self (k : κ) : tied le k k = true := by simp [tied, h.refl k]

end KeyOrder

section
variable {α κ : Type} {le : κ → κ → Bool}

/-- Tied keys may stand in either order, in both directions. -/
theorem tied_iff {k k' : κ} (reverse : Bool) :
    tied le k k' = true ↔ directed le reverse k k' = true ∧ directed le reverse k' k = true := by
  cases reverse <;> simp [tied, directed, and_comm]

theorem mem_tiedItems {key : α → κ} {k : κ} {items : List α} {a : α} :
    a ∈ tiedItems le key k items ↔ a ∈ items ∧ tied le (key a) k = true := List.mem_filter

theorem tiedItems_cons_of_tied {key : α → κ} {k : κ} {a : α} (h : tied le (key a) k = true)
    (items : List α) : tiedItems le key k (a :: items) = a :: tiedItems le key k items :=
  List.filter_cons_of_pos h

theorem tiedItems_cons_of_not {key : α → κ} {k : κ} {a : α} (h : tied le (key a) k = false)
    (items : List α) : tiedItems le key k (a :: items) = tiedItems le key k items :=
  List.filter_cons_of_neg (by simp [h])

theorem keysInOrder_map {reverse : Bool} {key : α → κ} {items : List α} :
    KeysInOrder le reverse (items.map key) ↔
      items.Pairwise fun a b => directed le reverse (key a) (key b) = true :=
  List.pairwise_map

/-! ## Sorting -/

theorem sortBy_perm (le : κ → κ → Bool) (key : α → κ) (reverse : Bool) (items : List α) :
    (sortBy le key reverse items).Perm items := List.mergeSort_perm items _

variable (h : KeyOrder le) (key : α → κ) (reverse : Bool) (items : List α)
include h

theorem keysInOrder_sortBy : KeysInOrder le reverse ((sortBy le key reverse items).map key) := by
  obtain ⟨htrans, htotal⟩ := (h.directed reverse).on key
  exact keysInOrder_map.2 (List.pairwise_mergeSort htrans htotal items)

/-- **Items with tied keys keep their order**, in both directions. -/
theorem tiedItems_sortBy (k : κ) :
    tiedItems le key k (sortBy le key reverse items) = tiedItems le key k items := by
  obtain ⟨htrans, htotal⟩ := (h.directed reverse).on key
  -- The tied items are in order as they stand, so the sort has them as a sublist.
  have hp : (tiedItems le key k items).Pairwise
      fun a b => directed le reverse (key a) (key b) = true := by
    refine List.pairwise_of_forall_mem_list fun a ha b hb => ?_
    have hak := (tied_iff reverse).1 (mem_tiedItems.1 ha).2
    have hbk := (tied_iff reverse).1 (mem_tiedItems.1 hb).2
    exact (h.directed reverse).trans _ k _ hak.1 hbk.2
  have hs : (tiedItems le key k items).Sublist (sortBy le key reverse items) :=
    List.sublist_mergeSort htrans htotal hp List.filter_sublist
  have hst : (tiedItems le key k items).Sublist
      (tiedItems le key k (sortBy le key reverse items)) := by
    have hf := hs.filter fun a => tied le (key a) k
    rwa [tiedItems, List.filter_filter, funext fun a => Bool.and_self _] at hf
  exact (hst.eq_of_length ((sortBy_perm le key reverse items).filter _).length_eq.symm).symm

theorem isStableSort_sortBy : IsStableSort le key reverse items (sortBy le key reverse items) :=
  ⟨sortBy_perm le key reverse items, keysInOrder_sortBy h key reverse items,
    tiedItems_sortBy h key reverse items⟩

end

/-! ## One result -/

section
variable {α κ : Type} {le : κ → κ → Bool} (h : KeyOrder le) {key : α → κ} {reverse : Bool}
include h

theorem mem_of_tiedItems_eq {s t : List α} {a : α} (ha : a ∈ s)
    (hst : tiedItems le key (key a) s = tiedItems le key (key a) t) : a ∈ t := by
  have hs : a ∈ tiedItems le key (key a) s := mem_tiedItems.2 ⟨ha, h.tied_self _⟩
  rw [hst] at hs
  exact (mem_tiedItems.1 hs).1

/-- Lists in order with the same tied items are the same: the first items of the two stand before
each other, so they are tied, and each is the first of its tied items. -/
theorem eq_of_tiedItems_eq {s t : List α} (hs : KeysInOrder le reverse (s.map key))
    (ht : KeysInOrder le reverse (t.map key))
    (hst : ∀ k, tiedItems le key k s = tiedItems le key k t) : s = t := by
  rw [keysInOrder_map] at hs ht
  induction s generalizing t with
  | nil =>
    cases t with
    | nil => rfl
    | cons b t => cases mem_of_tiedItems_eq h (.head t) (hst (key b)).symm
  | cons a s ih =>
    cases t with
    | nil => cases mem_of_tiedItems_eq h (.head s) (hst (key a))
    | cons b t =>
      obtain ⟨ha, hs'⟩ := List.pairwise_cons.1 hs
      obtain ⟨hb, ht'⟩ := List.pairwise_cons.1 ht
      have hba : tied le (key b) (key a) = true := by
        rcases List.mem_cons.1 (mem_of_tiedItems_eq h (.head s) (hst (key a))) with he | hat
        · rw [he]
          exact h.tied_self _
        · rcases List.mem_cons.1 (mem_of_tiedItems_eq h (.head t) (hst (key b)).symm) with he | hbs
          · rw [he]
            exact h.tied_self _
          · exact (tied_iff reverse).2 ⟨hb a hat, ha b hbs⟩
      have hf := hst (key a)
      rw [tiedItems_cons_of_tied (h.tied_self _), tiedItems_cons_of_tied hba] at hf
      obtain ⟨rfl, -⟩ := List.cons.inj hf
      refine congrArg (a :: ·) (ih hs' ht' fun k => ?_)
      have hk := hst k
      cases hak : tied le (key a) k with
      | true =>
        rw [tiedItems_cons_of_tied hak, tiedItems_cons_of_tied hak] at hk
        exact (List.cons.inj hk).2
      | false => rwa [tiedItems_cons_of_not hak, tiedItems_cons_of_not hak] at hk

/-- **There is one stable sort of a list.** -/
theorem IsStableSort.eq {items s t : List α} (hs : IsStableSort le key reverse items s)
    (ht : IsStableSort le key reverse items t) : s = t :=
  eq_of_tiedItems_eq h hs.inOrder ht.inOrder fun k => (hs.stable k).trans (ht.stable k).symm

/-- **A sort changes nothing if and only if there is nothing to sort.** -/
theorem sortBy_eq_self_iff {items : List α} :
    sortBy le key reverse items = items ↔ KeysInOrder le reverse (items.map key) := by
  constructor
  · intro he
    rw [← he]
    exact keysInOrder_sortBy h key reverse items
  · intro ho
    exact (isStableSort_sortBy h key reverse items).eq h ⟨.refl items, ho, fun _ => rfl⟩

end

/-! ## Reports -/

namespace SortCall

variable (c : SortCall)

theorem alreadySorted_iff (h : KeyOrder c.le) :
    c.event.alreadySorted = true ↔ KeysInOrder c.le c.reverse (c.items.map c.key) := by
  let := c.itemEq
  have he : c.event.alreadySorted = true ↔ sortBy c.le c.key c.reverse c.items = c.items :=
    decide_eq_true_iff
  rw [he]
  exact sortBy_eq_self_iff h

/-- **A sort is stable, and reports exactly whether it had anything to do.** It gives back the same
items with their keys in order, and items with tied keys as they stood, in both directions; there is
no other list like this. What it reports as sorted already are the items with keys in order, and its
own result is. -/
theorem sort_stable (h : KeyOrder c.le) (s : SortScopes) :
    let sorted := (c.perform s).1
    let again : SortCall := { c with items := sorted }
    sorted.Perm c.items ∧ KeysInOrder c.le c.reverse (sorted.map c.key) ∧
    (∀ k, tiedItems c.le c.key k sorted = tiedItems c.le c.key k c.items) ∧
    (∀ other, IsStableSort c.le c.key c.reverse c.items other → other = sorted) ∧
    (∀ inner outer, s.events = inner :: outer →
      (c.perform s).2.events = (inner ++ [c.event]) :: outer) ∧
    (c.event.alreadySorted = true ↔ KeysInOrder c.le c.reverse (c.items.map c.key)) ∧
    (again.perform s).1 = sorted ∧ again.event.alreadySorted = true := by
  intro sorted again
  have hsort : IsStableSort c.le c.key c.reverse c.items sorted :=
    isStableSort_sortBy h c.key c.reverse c.items
  refine ⟨hsort.perm, hsort.inOrder, hsort.stable, fun other hother => hother.eq h hsort,
    fun inner outer he => ?_, c.alreadySorted_iff h, (sortBy_eq_self_iff h).2 hsort.inOrder,
    (again.alreadySorted_iff h).2 hsort.inOrder⟩
  show (s.record c.event).events = _
  rw [SortScopes.record, he]

/-- Numbers by decreasing squares: those with the same square stay as they are. -/
theorem sort_stable_squares :
    let le (m n : Int) : Bool := decide (m ≤ n)
    let square (n : Int) : Int := n * n
    let c : SortCall := ⟨Int, Int, le, "squares", square, true, [1, -2, 2, -1, 3]⟩
    KeyOrder c.le ∧ (c.perform {}).1 = ([3, -2, 2, 1, -1] : List Int) ∧
      c.event.alreadySorted = false ∧
      { c with items := (c.perform {}).1 }.event.alreadySorted = true := by
  intro le square c
  obtain ⟨-, -, -, hunique, -, hflag, -, hagain⟩ := sort_stable c keyOrder_int {}
  refine ⟨keyOrder_int, (hunique [3, -2, 2, 1, -1] ⟨by decide, by decide, fun k => ?_⟩).symm, ?_,
    hagain⟩
  · have hk : (fun n => tied le (square n) k) = fun n => decide (k = square n) := by
      funext n
      rw [Bool.eq_iff_iff]
      simp only [tied, le, Bool.and_eq_true, decide_eq_true_eq]
      exact ⟨fun ⟨h₁, h₂⟩ => Int.le_antisymm h₂ h₁,
        fun he => ⟨Int.le_of_eq he.symm, Int.le_of_eq he⟩⟩
    show List.filter (fun n => tied le (square n) k) _ = List.filter _ _
    rw [hk]
    by_cases hs : k = 1 ∨ k = 4 ∨ k = 9
    · rcases hs with rfl | rfl | rfl <;> decide
    · simp only [not_or] at hs
      simp [c, square, hs]
  · rw [← Bool.not_eq_true, hflag]
    decide

end SortCall

end CondParam
