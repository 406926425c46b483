import CondParam.Proofs.Balanced
import CondParam.Proofs.Context

/-!
# The attributes before a block

Square groups before the keyword are the attributes of the block, with white space and comments
between them. A backtick at the end of a line, which is trivia between declarations, drops the
attributes before it. So all groups are attributes only where no line is continued behind one of
them (`locateBlock_attributes_iff`).
-/

set_option autoImplicit false

namespace CondParam

/-- The groups behind the last line that is continued are attributes, and without such a line all
are. -/
theorem locateFrom_interleave {groups gaps : List Text} (hgroups : ∀ g ∈ groups, IsGroup .square g)
    (hgaps : ∀ w ∈ gaps, Trivia true w) (hlen : gaps.length = groups.length) (old : List Text)
    (t : Text) :
    ∃ k ≤ groups.length,
      locateFrom old false (interleave groups gaps ++ t) =
        locateFrom (if k = 0 then old ++ groups else groups.drop k) false t ∧
      (∀ w ∈ gaps.drop k, Trivia false w) ∧
      (k = 0 ∨ ∃ w, gaps[k - 1]? = some w ∧ ¬ Trivia false w) := by
  induction groups generalizing gaps old with
  | nil =>
    obtain rfl := List.length_eq_zero_iff.1 hlen
    exact ⟨0, Nat.le_refl 0, by simp [interleave], by simp, .inl rfl⟩
  | cons g groups ih =>
    cases gaps with
    | nil => cases hlen
    | cons w gaps =>
      obtain ⟨hg, hgroups⟩ := List.forall_mem_cons.1 hgroups
      obtain ⟨hw, hgaps⟩ := List.forall_mem_cons.1 hgaps
      obtain ⟨keeps, hkeeps, hskip⟩ := locateFrom_keeps hw
      obtain ⟨k, hk, hl, hrest, hlast⟩ := ih hgroups hgaps (Nat.succ.inj hlen)
        (if keeps then old ++ [g] else [])
      rw [interleave_cons, List.append_assoc, List.append_assoc, locateFrom_group hg, hskip, hl]
      cases k with
      | succ k =>
        -- a later line is the last one
        refine ⟨k + 2, Nat.succ_le_succ hk, ?_, hrest, .inr ?_⟩
        · rw [if_neg (by omega), if_neg (by omega), List.drop_succ_cons]
        · exact hlast.resolve_left (by omega)
      | zero =>
        cases keeps with
        | true =>
          refine ⟨0, Nat.zero_le _, ?_, ?_, .inl rfl⟩
          · simp
          · exact List.forall_mem_cons.2 ⟨hkeeps.1 rfl, hrest⟩
        | false =>
          refine ⟨1, Nat.succ_le_succ (Nat.zero_le _), ?_, hrest, .inr ⟨w, rfl, ?_⟩⟩
          · simp
          · exact fun hf => Bool.false_ne_true (hkeeps.2 hf)

/-- A text that ends where its first group does is a group. -/
theorem isGroup_of_groupEnd {b : Bracket} {g : Text} (hg : g.head? = some b.opening)
    (he : groupEnd b g 0 = .ok g.length) : IsGroup b g := by
  obtain ⟨r, rfl⟩ := List.head?_eq_some_iff.1 hg
  have hb := ((groupEnd_eq_ok_iff rfl).1 he).2
  rw [List.extract_eq_take_drop, Nat.sub_zero, List.drop_zero, List.take_length] at hb
  exact balanced_iff.1 hb

/-- **Which groups before the keyword are attributes**: those behind the last line that is
continued. The block is found in any case. -/
theorem locateBlock_attributes_iff {lead kw rest : Text} {groups gaps : List Text}
    (hlead : Trivia true lead)
    (hgroups : ∀ g ∈ groups, g.head? = some (.char '[') ∧ groupEnd .square g 0 = .ok g.length)
    (hgaps : ∀ w ∈ gaps, Trivia true w) (hlen : gaps.length = groups.length)
    (hkw : IsKeyword kw) :
    let text := lead ++ interleave groups gaps ++ kw ++ .char '(' :: rest
    (∃ k ≤ groups.length, locateBlock text = .ok (some ⟨groups.drop k, rest⟩) ∧
      (∀ w ∈ gaps.drop k, Trivia false w) ∧
      (k = 0 ∨ ∃ w, gaps[k - 1]? = some w ∧ ¬ Trivia false w)) ∧
    (locateBlock text = .ok (some ⟨groups, rest⟩) ↔ ∀ w ∈ gaps, Trivia false w) := by
  intro text
  have hsquare : ∀ g ∈ groups, IsGroup .square g := fun g hg =>
    isGroup_of_groupEnd (hgroups g hg).1 (hgroups g hg).2
  have htext : text = lead ++ (interleave groups gaps ++ (kw ++ .char '(' :: rest)) := by
    simp [text]
  obtain ⟨k, hk, hl, hrest, hlast⟩ :=
    locateFrom_interleave hsquare hgaps hlen [] (kw ++ .char '(' :: rest)
  have hlocate : locateBlock text = .ok (some ⟨groups.drop k, rest⟩) := by
    rw [locateBlock, htext, locateFrom_trivia hlead, hl, locateFrom_keyword hkw]
    cases k <;> rfl
  refine ⟨⟨k, hk, hlocate, hrest, hlast⟩, ?_⟩
  rw [hlocate]
  constructor
  · intro h
    obtain ⟨hd, -⟩ := Located.mk.inj (Option.some.inj (Except.ok.inj h))
    have hl := congrArg List.length hd
    rw [List.length_drop] at hl
    obtain rfl : k = 0 := by omega
    exact hrest
  · intro h
    rcases hlast with rfl | ⟨w, hw, hn⟩
    · rfl
    · exact absurd (h w (List.mem_of_getElem? hw)) hn

/-- Comments behind two attributes, and a continued line before them. -/
theorem locateBlock_attributes_iff_comments :
    let groups : List Text := ["[OutputType([int])]", "[CmdletBinding()]"]
    let gaps : List Text := ["<#[a]#>", " # param(\n"]
    (∀ g ∈ groups, g.head? = some (.char '[') ∧ groupEnd .square g 0 = .ok g.length) ∧
      (∀ w ∈ gaps, Trivia false w) ∧
      locateBlock "`\n[OutputType([int])]<#[a]#>[CmdletBinding()] # param(\nParam ($A)" =
        .ok (some ⟨groups, "$A)"⟩) := by
  intro groups gaps
  have hlead : Trivia true "`\n" := .continued rfl (.inl rfl) .nil
  have hblock : Trivia false "<#[a]#>" :=
    .block (s := "[a]#>") (.next (by decide) (.next (by decide) (.next (by decide) .here))) .nil
  have hline : Trivia false " # param(\n" := .space rfl (.line (s := " param(") (by decide) .nil)
  have hgaps : ∀ w ∈ gaps, Trivia false w :=
    List.forall_mem_cons.2 ⟨hblock, List.forall_mem_singleton.2 hline⟩
  have hgroups : ∀ g ∈ groups, g.head? = some (.char '[') ∧
      groupEnd .square g 0 = .ok g.length := by
    have h₁ : groupEnd .square "[OutputType([int])]" 0 = .ok 19 :=
      eq_ok_of_toOption (by decide +kernel)
    have h₂ : groupEnd .square "[CmdletBinding()]" 0 = .ok 17 :=
      eq_ok_of_toOption (by decide +kernel)
    exact List.forall_mem_cons.2 ⟨⟨rfl, h₁⟩, List.forall_mem_singleton.2 ⟨rfl, h₂⟩⟩
  have hkw : IsKeyword "Param " := ⟨"Param", " ", rfl, rfl, rfl⟩
  exact ⟨hgroups, hgaps, (@locateBlock_attributes_iff _ _ "$A)" _ _ hlead hgroups
    (fun w hw => (hgaps w hw).wrap) rfl hkw).2.2 hgaps⟩

/-- A line that is continued behind an attribute is trivia, and the attribute is lost. -/
theorem locateBlock_continued_line :
    Trivia true "`\n" ∧ groupEnd .square "[CmdletBinding()]" 0 = .ok 17 ∧
      locateBlock "[CmdletBinding()]`\nparam($A)" = .ok (some ⟨[], "$A)"⟩) :=
  ⟨.continued rfl (.inl rfl) .nil, eq_ok_of_toOption (by decide +kernel),
    eq_ok_of_toOption (by decide +kernel)⟩

end CondParam
