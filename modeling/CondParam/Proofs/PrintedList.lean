import CondParam.Proofs.KeptText
import CondParam.Proofs.StandsAlone

/-!
# Printed argument lists

Arguments are printed with a comma and a blank between them, the positional ones first. If such a
list is read as the arguments that were printed, no comment was cut out of it, since the `#` would
be missing (`comment_notMem`), and each argument stands alone (`standsAlone_of_list`).
-/

set_option autoImplicit false

namespace CondParam

/-! ## Printed arguments -/

namespace IsArgument

variable {x w : Text} {a : Argument}

theorem ne_nil (h : IsArgument x a) : x ≠ [] := by
  cases h with
  | positional he _ _ => exact he
  | flag hn =>
    rintro rfl
    cases hn
  | assigned _ _ _ _ => simp

theorem head_append (h : IsArgument x a) (hs : x.strip = x) (r : Text) :
    ∀ c ∈ (x ++ r).head?, isSpace c = false := by
  obtain ⟨d, x, rfl⟩ := List.exists_cons_of_ne_nil h.ne_nil
  exact (Text.strip_eq_self_iff.1 hs).1

/-- An argument is read from its text. -/
theorem readArgument (h : IsArgument x a) (hs : x.strip = x) (hw : w.isBlank = true) :
    readArgument (w ++ x) = .ok a := by
  have hx : (w ++ x).strip = x := (Text.strip_append_of_isBlank hw).trans hs
  have hne : x.isEmpty = false := by simpa using h.ne_nil
  cases h with
  | positional _ hi ha =>
    simp [CondParam.readArgument, hx, hne, splitAssignment?_eq_none ha, hi]
  | flag hn =>
    have ha : ¬ StartsAssignment x := by
      rintro ⟨name', w, r, rfl, -⟩
      have := Text.isNameChar_of_isIdentifier hn (.char '=') (by simp)
      cases this
    simp [CondParam.readArgument, hx, hne, splitAssignment?_eq_none ha, hn]
  | @assigned name u r hn hu hr hr' =>
    have hv : r.strip.isEmpty = false := by simpa using hr'
    simp [CondParam.readArgument, hx, hne, splitAssignment?_assign hn hu hr, hv]

/-- A printed argument is one. -/
theorem print (h : IsArgument x a) : IsArgument (a.print .single) a := by
  cases h with
  | positional he hi ha => exact .positional he hi ha
  | flag hn =>
    have he : (Argument.named ⟨x, none⟩).print .single = x := List.append_nil x
    rw [he]
    exact .flag hn
  | @assigned name u r hn hu hr hr' =>
    have hv : (Text.strip (.char ' ' :: r.strip)) = r.strip :=
      (Text.strip_append_of_isBlank (w := [.char ' ']) rfl).trans r.strip_strip
    have ha : IsArgument (name ++ (([.char ' '] : Text) ++ .char '=' :: .char ' ' :: r.strip))
        (.named ⟨name, some (Text.strip (.char ' ' :: r.strip))⟩) :=
      .assigned hn rfl (by simp) (by rwa [hv])
    rwa [hv] at ha

theorem strip_print (h : IsArgument x a) (hs : x.strip = x) :
    (a.print .single).strip = a.print .single := by
  cases h with
  | positional _ _ _ => exact hs
  | flag hn =>
    have he : (Argument.named ⟨x, none⟩).print .single = x := List.append_nil x
    rw [he, hs]
  | @assigned name u r hn hu hr hr' =>
    have he : (Argument.named ⟨name, some r.strip⟩).print .single =
        (name ++ [.char ' ', .char '=', .char ' ']) ++ r.strip := by
      simp [Argument.print, NamedArgument.print, Spacing.assign, Spacing.single, Text.ofChars]
    obtain ⟨c, t, rfl, hc, -⟩ := Text.exists_of_isIdentifier hn
    refine Text.strip_eq_self_iff.2 ⟨?_, ?_⟩
    · rintro d ⟨⟩
      exact isSpace_of_isNameChar (isNameChar_of_isNameStart hc)
    · rw [he, List.getLast?_append_of_ne_nil _ hr']
      exact (Text.strip_eq_self_iff.1 r.strip_strip).2

end IsArgument

/-! ## Pieces of a printed list -/

theorem Text.blank_append_inj {w w' x x' : Text} (hw : w.isBlank = true) (hw' : w'.isBlank = true)
    (hx : ∀ c ∈ x.head?, isSpace c = false) (hx' : ∀ c ∈ x'.head?, isSpace c = false)
    (h : w ++ x = w' ++ x') : w = w' ∧ x = x' := by
  have ht := congrArg (List.takeWhile isSpace) h
  rw [Text.takeWhile_append_stop (Text.isBlank_iff.1 hw) hx,
    Text.takeWhile_append_stop (Text.isBlank_iff.1 hw') hx'] at ht
  subst ht
  exact ⟨rfl, List.append_cancel_left h⟩

theorem isSpace_head_cons {c : CodePoint} (h : isSpace c = false) (y : Text) :
    ∀ d ∈ (c :: y).head?, isSpace d = false := by
  rintro d ⟨⟩
  exact h

/-- Nothing but an argument itself stands before the comma behind it. -/
theorem eq_nil_of_stops {w r tail : Text} (hw : w.isBlank = true) (hr : Stops r)
    (ht : Stops tail) (h : w ++ r = tail) : w = [] ∧ r = tail :=
  Text.blank_append_inj hw rfl hr.isSpace_head ht.isSpace_head h

theorem Text.head?_append_strip {t : Text} (h : t.strip ≠ []) (r : Text) :
    ∀ c ∈ (t.strip ++ r).head?, isSpace c = false := by
  obtain ⟨d, s, hd⟩ := List.exists_cons_of_ne_nil h
  have hs := (Text.strip_eq_self_iff.1 t.strip_strip).1
  rw [hd] at hs ⊢
  exact hs

/-- A piece of a printed list that is read as the argument printed there is its text. -/
theorem IsArgument.eq_print {x w r tail : Text} {a : Argument} (h : IsArgument x a)
    (hw : w.isBlank = true) (hr : Stops r) (ht : Stops tail)
    (he : x ++ (w ++ r) = a.print .single ++ tail) : x ++ w = a.print .single ∧ r = tail := by
  cases h with
  | positional _ _ _ =>
    obtain ⟨rfl, rfl⟩ := eq_nil_of_stops hw hr ht (List.append_cancel_left he)
    exact ⟨List.append_nil _, rfl⟩
  | flag _ =>
    have he := List.append_cancel_left (he.trans (List.append_assoc _ [] tail))
    obtain ⟨rfl, rfl⟩ := eq_nil_of_stops hw hr ht he
    exact ⟨rfl, rfl⟩
  | @assigned name u v _ hu _ hv =>
    obtain ⟨u₁, u₂, hu₁, hu₂, hve⟩ := v.exists_strip
    have hhead := Text.head?_append_strip hv
    generalize v.strip = e at hve hhead he ⊢
    subst hve
    have hp : (Argument.named ⟨name, some e⟩).print .single =
        name ++ ([.char ' '] ++ .char '=' :: ([.char ' '] ++ e)) := rfl
    have he : name ++ (u ++ .char '=' :: (u₁ ++ (e ++ (u₂ ++ (w ++ r))))) =
        name ++ ([.char ' '] ++ .char '=' :: ([.char ' '] ++ (e ++ tail))) := by
      simpa [hp] using he
    have hsign := isSpace_head_cons (c := .char '=') rfl
    obtain ⟨rfl, he₁⟩ :=
      Text.blank_append_inj hu rfl (hsign _) (hsign _) (List.append_cancel_left he)
    obtain ⟨rfl, he₂⟩ :=
      Text.blank_append_inj hu₁ rfl (hhead _) (hhead _) (List.cons.inj he₁).2
    have hb : Text.isBlank (u₂ ++ w) = true := by
      rw [Text.isBlank, List.all_append]
      exact Bool.and_eq_true_iff.2 ⟨hu₂, hw⟩
    have he₃ := List.append_cancel_left he₂
    rw [← List.append_assoc] at he₃
    obtain ⟨hnil, rfl⟩ := eq_nil_of_stops hb hr ht he₃
    obtain ⟨rfl, rfl⟩ := List.append_eq_nil_iff.1 hnil
    exact ⟨by simp [hp], rfl⟩

/-- A front without commas and parentheses ends before what follows an argument. -/
theorem exists_of_append_stops {p q y tail : Text} (ht : Stops tail)
    (hq : ∀ c ∈ q, ¬ (c = ',' ∨ c = ')')) (h : q ++ y = p ++ tail) :
    ∃ p', p = q ++ p' ∧ y = p' ++ tail := by
  rcases List.append_eq_append_iff.1 h with ⟨p', rfl, rfl⟩ | ⟨q', rfl, he⟩
  · exact ⟨p', rfl, rfl⟩
  · obtain ⟨c, tail, rfl, hc⟩ := ht
    cases q' with
    | nil => exact ⟨[], by simp, he.symm⟩
    | cons d q' =>
      obtain ⟨rfl, -⟩ := List.cons.inj he
      exact absurd hc (hq c (by simp))

theorem ne_stop_of_notMem {c : CodePoint} (h : c ∉ lexicalMarks ∧ c ≠ ',') :
    ¬ (c = ',' ∨ c = ')') := by
  rintro (rfl | rfl)
  · exact h.2 rfl
  · exact h.1 (by decide)

/-- No flag is read where a positional argument was printed. -/
theorem Kept.not_flag {s p x w r tail : Text} (hk : Kept s p) (hi : p.isIdentifier = false)
    (hps : p.strip = p) (hn : x.isIdentifier = true) (hw : w.isBlank = true) (hr : Stops r)
    (ht : Stops tail) (he : x ++ (w ++ r) = p ++ tail) : False := by
  have hq : ∀ c ∈ x ++ w, c ∉ lexicalMarks ∧ c ≠ ',' := by
    intro c hc
    rcases List.mem_append.1 hc with hc | hc
    · exact ordinary_of_isIdentifier hn c hc
    · exact ordinary_of_isBlank hw c hc
  rw [← List.append_assoc] at he
  obtain ⟨p', rfl, hr'⟩ := exists_of_append_stops ht (fun c hc => ne_stop_of_notMem (hq c hc)) he
  cases p' with
  | nil =>
    -- the name fills the printed argument, which is then no positional one
    rw [List.append_nil] at hi hps
    cases hl : w.getLast? with
    | none =>
      rw [List.getLast?_eq_none_iff.1 hl, List.append_nil, hn] at hi
      cases hi
    | some c =>
      have hs := (Text.strip_eq_self_iff.1 hps).2 c (by rw [List.getLast?_append, hl]; rfl)
      rw [Text.isBlank_iff.1 hw c (List.mem_of_getLast? hl)] at hs
      cases hs
  | cons c p' =>
    -- a comma or a parenthesis stands behind the name, where a span starts
    obtain ⟨ts, v, v', hv, hts, hspans⟩ := hk
    have hts : ts.flatten = v ++ (x ++ w) ++ c :: (p' ++ v') := by simpa using hts
    have hu : ∀ d ∈ v ++ (x ++ w), d ∉ lexicalMarks := by
      intro d hd
      rcases List.mem_append.1 hd with hd | hd
      · exact (ordinary_of_isBlank hv d hd).1
      · exact (hq d hd).1
    obtain ⟨t, -, hm, -⟩ := exists_span_behind (fun t ht => (hspans t ht).1) hu hts
    obtain ⟨d, r, rfl, hd⟩ := hr
    obtain ⟨rfl, -⟩ := List.cons.inj hr'
    exact (hspans _ hm).1.head_ne hd

/-- Where an assignment is read, one was printed. -/
theorem startsAssignment_of_append {name u v y p tail : Text} (hn : name.isIdentifier = true)
    (hu : u.isBlank = true) (hv : v.head? ≠ some (.char '=')) (hv' : v ≠ []) (ht : Stops tail)
    (he : name ++ (u ++ .char '=' :: (v ++ y)) = p ++ tail) : StartsAssignment p := by
  have hq : ∀ c : CodePoint, c ∈ name ++ (u ++ [.char '=']) → ¬ (c = ',' ∨ c = ')') := by
    intro c hc
    rcases List.mem_append.1 hc with hc | hc
    · exact ne_stop_of_notMem (ordinary_of_isIdentifier hn c hc)
    · rcases List.mem_append.1 hc with hc | hc
      · exact ne_stop_of_notMem (ordinary_of_isBlank hu c hc)
      · cases List.mem_singleton.1 hc
        decide
  have he : name ++ (u ++ [.char '=']) ++ (v ++ y) = p ++ tail := by simpa using he
  obtain ⟨p', rfl, he'⟩ := exists_of_append_stops ht hq he
  refine ⟨name, u, p', by simp, hn, hu, ?_⟩
  obtain ⟨c, v, rfl⟩ := List.exists_cons_of_ne_nil hv'
  cases p' with
  | nil => simp
  | cons d p' =>
    obtain ⟨rfl, -⟩ := List.cons.inj he'
    exact hv

/-- No named argument is read where a positional one was printed. -/
theorem Kept.not_named {s p x w r tail : Text} {n : NamedArgument} (hk : Kept s p)
    (hp : IsArgument p (.positional p)) (hps : p.strip = p) (h : IsArgument x (.named n))
    (hw : w.isBlank = true) (hr : Stops r) (ht : Stops tail)
    (he : x ++ (w ++ r) = p ++ tail) : False := by
  obtain ⟨hi, ha⟩ : p.isIdentifier = false ∧ ¬ StartsAssignment p := by
    cases hp with
    | positional _ hi ha => exact ⟨hi, ha⟩
  cases h with
  | flag hn => exact hk.not_flag hi hps hn hw hr ht he
  | @assigned name u v hn hu hv hv' =>
    have hne : v ≠ [] := fun e => hv' (by rw [e]; rfl)
    rw [List.append_assoc, List.append_assoc] at he
    exact ha (startsAssignment_of_append hn hu hv hne ht he)

/-- The arguments with the positional ones first. -/
def positionalFirst (args : List Argument) : List Argument :=
  (positionalArguments args).map .positional ++ (namedArguments args).map .named

theorem Text.join_cons (sep y : Text) (ys : List Text) :
    Text.join sep (y :: ys) = y ++ ys.flatMap (sep ++ ·) := by
  induction ys generalizing y with
  | nil => rw [Text.join_singleton, List.flatMap_nil, List.append_nil]
  | cons y' ys ih => rw [Text.join_cons_cons, ih, List.flatMap_cons, List.append_assoc]

/-- What is printed behind the first argument of a list. -/
def printedRest (xs : List Argument) : Text :=
  (xs.map (·.print .single)).flatMap (fun y => .char ',' :: .char ' ' :: y) ++
    [.char ')', .char ']']

theorem stops_printedRest (xs : List Argument) : Stops (printedRest xs) :=
  (stops_closing _).commas (.char ' ' :: ·) _

theorem commas_cons (x : Argument) (xs : List Argument) :
    Spacing.single.commas ((x :: xs).map (·.print .single)) ++ [.char ')', .char ']'] =
      x.print .single ++ printedRest xs := by
  rw [List.map_cons, Spacing.commas, Text.join_cons, List.append_assoc]
  rfl

/-- The blanks before a piece are those before what is printed there. -/
theorem exists_of_strip {k b r y : Text} (hb : b.isBlank = true)
    (hk : ∀ r : Text, ∀ c ∈ (k.strip ++ r).head?, isSpace c = false)
    (hy : ∀ c ∈ y.head?, isSpace c = false) (h : k ++ r = b ++ y) :
    ∃ w : Text, w.isBlank = true ∧ k = b ++ (k.strip ++ w) ∧ k.strip ++ (w ++ r) = y := by
  obtain ⟨w, w', hw, hw', he⟩ := k.exists_strip
  have h : w ++ (k.strip ++ (w' ++ r)) = b ++ y := by
    rw [← h]
    nth_rewrite 2 [he]
    simp
  obtain ⟨rfl, hx⟩ := Text.blank_append_inj hw hb (hk _) hy h
  exact ⟨w', hw', he, hx⟩

/-- A positional argument as an annotation has it: kept of the text `s`. -/
structure IsPositional (s e : Text) : Prop where
  kept : Kept s e
  strip_eq : e.strip = e
  isArgument : IsArgument e (.positional e)

/-- The piece at the front of a printed list holds the argument printed there. -/
theorem positionalFirst_cons {s k b r : Text} {a : Argument} {args : List Argument}
    (ha : IsArgument k.strip a) (hp : ∀ e ∈ positionalArguments (a :: args), IsPositional s e)
    (hb : b.isBlank = true) (hr : Stops r)
    (he : k ++ r = b ++ (Spacing.single.commas ((positionalFirst (a :: args)).map
      (·.print .single)) ++ [.char ')', .char ']'])) :
    positionalFirst (a :: args) = a :: positionalFirst args := by
  cases a with
  | positional e => rfl
  | named n =>
    have hl : positionalFirst (.named n :: args) = (positionalArguments args).map .positional ++
        .named n :: (namedArguments args).map .named := rfl
    cases hes : positionalArguments args with
    | nil =>
      rw [hl, positionalFirst, hes]
      rfl
    | cons e es =>
      rw [hl, hes, List.map_cons, List.cons_append, commas_cons] at he
      have hpos : IsPositional s e := hp e (hes ▸ .head _)
      obtain ⟨w, hw, -, he⟩ := exists_of_strip hb (ha.head_append k.strip_strip)
        (hpos.isArgument.head_append hpos.strip_eq _) he
      exact (hpos.kept.not_named hpos.isArgument hpos.strip_eq ha hw hr (stops_printedRest _)
        he).elim

/-- **The pieces of a printed list stand alone**, if they are read as the arguments printed. -/
theorem standsAlone_of_pieces {s z k b : Text} {ks : List Text} {args : List Argument}
    (hf : List.Forall₂ (fun k a => IsArgument (Text.strip k) a) (k :: ks) args)
    (hp : ∀ e ∈ positionalArguments args, IsPositional s e)
    (hk : ∀ k' ∈ k :: ks, StandsAlone true k') (hb : b.isBlank = true)
    (he : k ++ (ks.flatMap (.char ',' :: ·) ++ .char ')' :: z) =
      b ++ (Spacing.single.commas ((positionalFirst args).map (·.print .single)) ++
        [.char ')', .char ']'])) :
    (∀ x ∈ positionalFirst args, StandsAlone true (x.print .single)) ∧ z = [.char ']'] := by
  induction args generalizing k ks b with
  | nil => cases hf
  | cons a args ih =>
    obtain ⟨ha, hrest⟩ := List.forall₂_cons.1 hf
    obtain ⟨hk₁, hks⟩ := List.forall_mem_cons.1 hk
    have hr : Stops (ks.flatMap (.char ',' :: ·) ++ .char ')' :: z) :=
      (stops_closing z).commas (fun k => k) ks
    have hl := positionalFirst_cons ha hp hb hr he
    rw [hl, commas_cons] at he
    obtain ⟨w, hw, hkw, he⟩ := exists_of_strip hb (ha.head_append k.strip_strip)
      (ha.print.head_append (ha.strip_print k.strip_strip) _) he
    obtain ⟨hx, htail⟩ := ha.eq_print hw hr (stops_printedRest _) he
    rw [hx] at hkw
    have hfirst : StandsAlone true (a.print .single) :=
      .of_isBlank_append hb (hkw ▸ hk₁)
    rw [hl, List.forall_mem_cons]
    have hp : ∀ e ∈ positionalArguments args, IsPositional s e := by
      intro e he
      obtain ⟨x, hx, hxe⟩ := List.mem_filterMap.1 he
      exact hp e (List.mem_filterMap.2 ⟨x, .tail _ hx, hxe⟩)
    cases hrest with
    | nil => exact ⟨⟨hfirst, by simp [positionalFirst, positionalArguments, namedArguments]⟩,
        (List.cons.inj htail).2⟩
    | @cons k' a' ks args ha' hrest =>
      cases hxs : positionalFirst (a' :: args) with
      | nil =>
        rw [hxs] at htail
        cases htail
      | cons x xs =>
        have hnext : k' ++ (ks.flatMap (.char ',' :: ·) ++ .char ')' :: z) =
            ([.char ' '] : Text) ++ (Spacing.single.commas ((positionalFirst (a' :: args)).map
              (·.print .single)) ++ [.char ')', .char ']']) := by
          rw [hxs, commas_cons]
          rw [hxs] at htail
          simpa [printedRest] using htail
        obtain ⟨hargs, hz⟩ := ih (.cons ha' hrest) hp hks rfl hnext
        exact ⟨⟨hfirst, hxs ▸ hargs⟩, hz⟩

/-! ## No comment is lost -/

/-- What is cut out of a list: its comments. -/
def cutOut (spans : List Span) : Text :=
  spans.flatMap fun
    | .comment t => t
    | _ => []

/-- How often a `#` stands in a text. -/
def hashes (t : Text) : Nat := t.count (.char '#')

@[simp] theorem hashes_nil : hashes [] = 0 := rfl

@[simp] theorem hashes_append (s t : Text) : hashes (s ++ t) = hashes s + hashes t :=
  List.count_append

theorem hashes_cons_of_ne {c : CodePoint} (h : c ≠ .char '#') (t : Text) :
    hashes (c :: t) = hashes t :=
  List.count_cons_of_ne h

theorem hashes_of_isBlank {w : Text} (hw : w.isBlank = true) : hashes w = 0 := by
  refine List.count_eq_zero.2 fun hm => ?_
  cases Text.isBlank_iff.1 hw _ hm

theorem hashes_strip (t : Text) : hashes t.strip = hashes t := by
  obtain ⟨w, w', hw, hw', he⟩ := t.exists_strip
  nth_rewrite 2 [he]
  rw [hashes_append, hashes_append, hashes_of_isBlank hw, hashes_of_isBlank hw', Nat.zero_add,
    Nat.add_zero]

@[simp] theorem cutOut_code (t : Text) (spans : List Span) :
    cutOut (.code t :: spans) = cutOut spans := rfl

@[simp] theorem cutOut_comma (spans : List Span) : cutOut (.comma :: spans) = cutOut spans := rfl

@[simp] theorem cutOut_comment (t : Text) (spans : List Span) :
    cutOut (.comment t :: spans) = t ++ cutOut spans := rfl

/-- Each `#` of a list is kept in a piece or cut out with a comment. -/
theorem ArgumentList.hashes_eq {fresh : Bool} {spans : List Span} {s : Text}
    (h : ArgumentList fresh spans s) (offset : Nat) (piece : Piece) :
    hashes piece.text + hashes s =
      hashes ((piecesFrom offset piece spans).flatMap (·.text)) + hashes (cutOut spans) := by
  induction h generalizing offset piece with
  | close => rw [piecesFrom, List.flatMap_singleton]; rfl
  | @comma _ spans r _ ih =>
    have hi := ih (offset + 1) ⟨offset + 1, []⟩
    rw [hashes_nil] at hi
    rw [hashes_cons_of_ne (by decide), piecesFrom, List.flatMap_cons, hashes_append, cutOut_comma]
    omega
  | @comment _ _ s _ _ _ ih =>
    have hi := ih (offset + s.length) piece
    rw [piecesFrom, cutOut_comment, hashes_append, hashes_append]
    omega
  | item _ _ _ _ _ ih =>
    rw [piecesFrom, cutOut_code, ← ih, hashes_append, hashes_append, Nat.add_assoc]
  | group _ _ ih =>
    rw [piecesFrom, cutOut_code, ← ih, ← List.cons_append, hashes_append, hashes_append,
      Nat.add_assoc]

theorem ArgumentList.hash_mem {fresh : Bool} {spans : List Span} {s t : Text}
    (h : ArgumentList fresh spans s) (ht : .comment t ∈ spans) : .char '#' ∈ t := by
  induction h with
  | close => cases ht
  | comma _ ih => exact ih (List.mem_of_ne_of_mem (by simp) ht)
  | comment hs _ ih =>
    rcases List.mem_cons.1 ht with he | ht
    · cases he
      cases hs with
      | block _ => exact .tail _ (.head _)
      | line _ _ _ => exact .head _
    · exact ih ht
  | item _ _ _ _ _ ih => exact ih (List.mem_of_ne_of_mem (by simp) ht)
  | group _ _ ih => exact ih (List.mem_of_ne_of_mem (by simp) ht)

theorem IsArgument.hashes_print {k : Text} {a : Argument} (h : IsArgument k.strip a) :
    hashes (a.print .single) = hashes k := by
  rw [← hashes_strip k]
  generalize k.strip = x at h
  cases h with
  | positional _ _ _ => rfl
  | flag _ => exact congrArg hashes (List.append_nil x)
  | @assigned name u v _ hu _ _ =>
    have hp : (Argument.named ⟨name, some v.strip⟩).print .single =
        name ++ ([.char ' '] ++ .char '=' :: ([.char ' '] ++ v.strip)) := rfl
    rw [hp]
    simp [hashes_cons_of_ne, hashes_of_isBlank hu, hashes_strip]

theorem positionalFirst_perm (args : List Argument) : (positionalFirst args).Perm args := by
  induction args with
  | nil => exact .nil
  | cons a args ih =>
    cases a with
    | positional e => exact ih.cons _
    | named n => exact List.perm_middle.trans (ih.cons _)

theorem hashes_commas (ts : List Text) :
    hashes (Spacing.single.commas ts) = hashes ts.flatten := by
  cases ts with
  | nil => rfl
  | cons t ts =>
    rw [Spacing.commas, Text.join_cons, List.flatten_cons, hashes_append, hashes_append]
    congr 1
    induction ts with
    | nil => rfl
    | cons t ts ih =>
      rw [List.flatMap_cons, List.flatten_cons, hashes_append, hashes_append, hashes_append, ih]
      exact congrArg (· + _) (Nat.zero_add _)

theorem hashes_pieces {pieces : List Piece} {args : List Argument}
    (h : List.Forall₂ (fun p a => IsArgument (Text.strip (Piece.text p)) a) pieces args) :
    hashes (pieces.flatMap (·.text)) = hashes (args.flatMap (·.print .single)) := by
  induction h with
  | nil => rfl
  | cons ha _ ih =>
    rw [List.flatMap_cons, List.flatMap_cons, hashes_append, hashes_append, ha.hashes_print, ih]

/-- **A printed list that is read as it was printed has no comments.** -/
theorem comment_notMem {spans : List Span} {s z : Text} {args : List Argument}
    (h : ArgumentList true spans s)
    (hf : List.Forall₂ (fun p a => IsArgument (Text.strip (Piece.text p)) a)
      (piecesFrom 0 ⟨0, []⟩ spans) args)
    (he : s ++ z = Spacing.single.commas ((positionalFirst args).map (·.print .single)) ++
      [.char ')', .char ']']) (t : Text) : .comment t ∉ spans := by
  have hprinted : hashes s + hashes z = hashes (args.flatMap (·.print .single)) := by
    have hs := congrArg hashes he
    rw [hashes_append, hashes_append, hashes_commas, ← List.flatMap_def] at hs
    exact hs.trans (((positionalFirst_perm args).flatMap_right _).count_eq _)
  have hcut := h.hashes_eq 0 ⟨0, []⟩
  rw [hashes_nil, hashes_pieces hf] at hcut
  intro ht
  have hhash : 0 < hashes (cutOut spans) :=
    List.count_pos_iff.2 (List.mem_flatMap.2 ⟨_, ht, h.hash_mem ht⟩)
  omega

/-! ## Arguments that stand alone -/

/-- The list that is read where arguments were printed is the printed one, and its arguments stand
alone. -/
theorem standsAlone_of_list {s args z : Text} {spans : List Span} {arguments : List Argument}
    (hl : ArgumentList true spans args)
    (hf : List.Forall₂ (fun p a => readArgument p.text = .ok a) (argumentPieces spans) arguments)
    (hp : ∀ e ∈ positionalArguments arguments, IsPositional s e)
    (he : args ++ z = Spacing.single.commas ((positionalFirst arguments).map (·.print .single)) ++
      [.char ')', .char ']']) :
    (∀ x ∈ positionalFirst arguments, StandsAlone true (x.print .single)) ∧ z = [.char ']'] := by
  rcases argumentPieces_eq spans with hpieces | hpieces
  · rw [hpieces] at hf
    cases hf
    have he : args ++ z = ([.char ')'] : Text) ++ [.char ']'] := he
    have hlength : args.length = 1 := by
      have hg := hl.groupRest.groupTail z
      rw [he] at hg
      have hc : GroupRest .paren true [.char ')'] := .close
      exact Except.ok.inj (hg.symm.trans (hc.groupTail _))
    exact ⟨fun x hx => absurd hx List.not_mem_nil, (List.append_inj he hlength).2⟩
  · rw [hpieces] at hf
    replace hf := hf.imp fun _ _ => readArgument_ok
    obtain ⟨k, ks, rfl, hk, hks, htexts⟩ := hl.exists_pieces (comment_notMem hl hf he)
    have hf : List.Forall₂ (fun k a => IsArgument (Text.strip k) a) (k :: ks) arguments := by
      have ht : (piecesFrom 0 ⟨0, []⟩ spans).map (·.text) = k :: ks := htexts 0 ⟨0, []⟩
      rw [← ht, List.forall₂_map_left_iff]
      exact hf
    rw [List.append_assoc, List.append_assoc] at he
    exact standsAlone_of_pieces (b := []) hf hp (List.forall_mem_cons.2 ⟨hk, hks⟩) rfl he

end CondParam
