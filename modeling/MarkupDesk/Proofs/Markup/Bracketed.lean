import MarkupDesk.Proofs.Markup.Lines

/-!
# Documents written tag by tag

A document is often given as a sequence of tags in brackets, with any blanks before,
between and after them (`Spread`).  The pieces of such a document are the insides of
its tags, but for the outermost two brackets, which the first and the last piece keep
(`pieces_spread`).  Where the first tag is no end tag, those two brackets make no
difference to the depth of any line.  So up to the line end that the last line of a
document lacks, the formatted document consists of the lines of the insides
(`format_spread`).
-/
namespace MarkupDesk.Markup.Chars

open Text

/-- A tag: its inside in brackets. -/
def bracket (inside : List Char) : List Char := '<' :: (inside ++ ['>'])

/-- The text consists of these parts in order, with any blanks before, between and
after them. -/
inductive Spread : List (List Char) → List Char → Prop
  | done (blanks : List Char) (hblanks : blanks.all isBlank = true) : Spread [] blanks
  | next (blanks part : List Char) {parts : List (List Char)} {s : List Char}
      (hblanks : blanks.all isBlank = true) (hs : Spread parts s) :
      Spread (part :: parts) (blanks ++ (part ++ s))

/-- The texts, the last of them with a `>` after it. -/
def closeLast : List (List Char) → List (List Char)
  | [] => []
  | [text] => [text ++ ['>']]
  | text :: next :: rest => text :: closeLast (next :: rest)

theorem closeLast_append_singleton (texts : List (List Char)) (last : List Char) :
    closeLast (texts ++ [last]) = texts ++ [last ++ ['>']] := by
  induction texts with
  | nil => rfl
  | cons text texts ih =>
    cases texts with
    | nil => rfl
    | cons next rest => exact congrArg (text :: ·) ih

/-! ## The pieces -/

/-- A spread of tags, apart from the blanks at its ends, is a woven text in brackets. -/
theorem Spread.exists_woven {inside : List Char} {insides : List (List Char)} {s : List Char}
    (h : Spread ((inside :: insides).map bracket) s) :
    ∃ b e links, b.all isBlank = true ∧ e.all isBlank = true ∧ links.map Link.piece = insides ∧
      s = b ++ '<' :: (woven inside links ++ ['>']) ++ e := by
  induction insides generalizing inside s with
  | nil =>
    cases h with
    | next _ _ hb hs =>
      cases hs with
      | done _ he => exact ⟨_, _, [], hb, he, rfl, by simp [bracket, woven]⟩
  | cons next rest ih =>
    cases h with
    | next _ _ hb hs =>
      obtain ⟨b', e, links, hb', he, hlinks, rfl⟩ := ih hs
      refine ⟨_, e, ⟨b', next, hb'⟩ :: links, hb, he, by rw [List.map_cons, hlinks], ?_⟩
      simp [bracket, woven, Link.chars]

/-- The last piece of a woven text takes what follows the text. -/
theorem woven_append_gt (first : List Char) (links : List Link) :
    ∃ first' links', woven first links ++ ['>'] = woven first' links' ∧
      first' :: links'.map Link.piece = closeLast (first :: links.map Link.piece) := by
  rcases List.eq_nil_or_concat links with rfl | ⟨init, l, rfl⟩
  · exact ⟨first ++ ['>'], [], by simp [woven], rfl⟩
  · rw [List.concat_eq_append]
    refine ⟨first, init ++ [⟨l.between, l.piece ++ ['>'], l.blank⟩], ?_, ?_⟩
    · simp [woven, Link.chars]
    · simp only [List.map_append, List.map_singleton, ← List.cons_append,
        closeLast_append_singleton]

theorem not_startsBlank_lt_cons (s : List Char) : ¬ StartsBlank ('<' :: s) :=
  fun h => absurd (StartsBlank.of_append_cons (s := []) isBlank_lt h) (by decide)

theorem not_endsBlank_append_gt (s : List Char) : ¬ EndsBlank (s ++ ['>']) :=
  fun h => absurd (EndsBlank.of_append_cons isBlank_gt h) (by decide)

/-- In brackets at their two ends, texts without boundaries can be tags. -/
theorem areTags_closeLast {inside : List Char} {insides : List (List Char)}
    (h : ∀ p ∈ inside :: insides, ¬ HasBoundary p) :
    AreTags (closeLast (('<' :: inside) :: insides)) := by
  have hopen : ¬ HasBoundary ('<' :: inside) :=
    mt (hasBoundary_lt_cons_iff inside).mp (h inside (List.mem_cons_self ..))
  rcases List.eq_nil_or_concat insides with rfl | ⟨init, last, rfl⟩
  · refine ⟨List.cons_ne_nil _ _, ?_, ?_, ?_⟩
    · exact List.forall_mem_singleton.mpr
        (mt (hasBoundary_append_right_iff (by decide) _).mp hopen)
    · rintro p ⟨⟩
      exact not_startsBlank_lt_cons _
    · rintro p ⟨⟩
      exact not_endsBlank_append_gt ('<' :: inside)
  · rw [List.concat_eq_append] at h ⊢
    rw [← List.cons_append, closeLast_append_singleton]
    refine ⟨List.cons_ne_nil _ _, ?_, ?_, ?_⟩
    · intro p hp
      rw [List.cons_append, List.mem_cons, List.mem_append, List.mem_singleton] at hp
      rcases hp with rfl | hp | rfl
      · exact hopen
      · exact h p (List.mem_cons_of_mem _ (List.mem_append_left _ hp))
      · exact fun hb => h last (by simp) ((hasBoundary_append_right_iff (by decide) _).mp hb)
    · rintro p ⟨⟩
      exact not_startsBlank_lt_cons _
    · intro p hp
      rw [List.getLast?_concat] at hp
      obtain rfl : last ++ ['>'] = p := Option.some.inj hp
      exact not_endsBlank_append_gt last

/-- **The pieces of a document that is written tag by tag** are the insides of its
tags; the first one keeps its `<`, and the last one its `>`. -/
theorem pieces_spread {inside : List Char} {insides : List (List Char)} {s : List Char}
    (hsolid : ∀ p ∈ inside :: insides, ¬ HasBoundary p)
    (h : Spread ((inside :: insides).map bracket) s) :
    pieces s = closeLast (('<' :: inside) :: insides) := by
  obtain ⟨b, e, links, hb, he, rfl, rfl⟩ := h.exists_woven
  obtain ⟨first', links', hwoven, hpieces⟩ := woven_append_gt ('<' :: inside) links
  have htags : AreTags (first' :: links'.map Link.piece) := by
    rw [hpieces]
    exact areTags_closeLast hsolid
  have hminify : minify (b ++ '<' :: (woven inside links ++ ['>']) ++ e) =
      minify (woven first' links') := by
    rw [minify_append_of_blank hb he, ← hwoven]
    rfl
  rw [pieces, hminify, ← pieces, pieces_woven htags, hpieces]

/-! ## The lines -/

theorem kind_eq_closing_iff {text : List Char} : kind text = .closing ↔ closes text = true := by
  unfold kind
  split
  · simpa
  · rename_i h
    refine iff_of_false ?_ h
    repeat' split
    all_goals exact Kind.noConfusion

theorem depthAt_of_ne {k : Kind} (hk : k ≠ .closing) (depth : Nat) : depthAt depth k = depth := by
  cases k with
  | closing => exact absurd rfl hk
  | _ => rfl

theorem depthAfter_of_ne {k : Kind} (hk : k ≠ .opening) (depth : Nat) :
    depthAfter depth k = depth := by
  cases k with
  | opening => exact absurd rfl hk
  | _ => rfl

theorem closes_append_gt (text : List Char) : closes (text ++ ['>']) = closes text := by
  rcases text with _ | ⟨c, _ | ⟨d, rest⟩⟩
  · rfl
  · by_cases hc : c = '/'
    · subst hc
      decide
    · simp [closes, hc]
  · by_cases hc : c = '/'
    · subst hc
      rfl
    · simp [closes, hc]

theorem selfCloses_lt_cons (text : List Char) : selfCloses ('<' :: text) = selfCloses text := by
  rw [selfCloses, List.reverse_cons, List.dropWhile_append, selfCloses]
  cases text.reverse.dropWhile (· == '>') with
  | nil => decide
  | cons c rest => rfl

/-- The bracket that the first tag keeps does not change its kind, unless it is an end
tag. -/
theorem kind_lt_cons {text : List Char} (hcloses : closes text = false)
    (hhead : text.head? ≠ some '<') : kind ('<' :: text) = kind text := by
  have hbody : body text = text := by
    unfold body
    split
    · exact absurd rfl hhead
    · rfl
  have hopen : closes ('<' :: text) = false := rfl
  rw [kind, kind, hopen, hcloses, hbody, selfCloses_lt_cons]
  rfl

/-- The bracket that the last tag keeps shows in its own line only. -/
theorem exists_lines_closeLast (depth : Nat) (text : List Char) (rest : List (List Char)) :
    ∃ u, lines depth (text :: rest) = u ++ lineEnding.toList ∧
      lines depth (closeLast (text :: rest)) = u ++ '>' :: lineEnding.toList := by
  induction rest generalizing depth text with
  | nil =>
    -- A `>` at its end can change the kind of a tag, but it makes no end tag of it.
    have hdepth : depthAt depth (kind (text ++ ['>'])) = depthAt depth (kind text) := by
      by_cases hc : closes text = true
      · rw [kind_eq_closing_iff.mpr hc, kind_eq_closing_iff.mpr (by rwa [closes_append_gt])]
      · rw [depthAt_of_ne (mt kind_eq_closing_iff.mp hc),
          depthAt_of_ne (mt kind_eq_closing_iff.mp (by rwa [closes_append_gt]))]
    refine ⟨indent (depthAt depth (kind text)) ++ '<' :: (text ++ ['>']), ?_, ?_⟩
    · simp [lines, line]
    · simp [closeLast, lines, line, hdepth]
  | cons next rest ih =>
    obtain ⟨u, hu, hlast⟩ := ih (depthAfter (depthAt depth (kind text)) (kind text)) next
    refine ⟨line (depthAt depth (kind text)) text ++ u, ?_, ?_⟩
    · rw [lines, hu, List.append_assoc]
    · rw [closeLast, lines, hlast, List.append_assoc]

/-- **The formatted form of a document that is written tag by tag** consists of the
lines of the insides of its tags, without the last line end. -/
theorem format_spread {inside : List Char} {insides : List (List Char)} {s : List Char}
    (hsolid : ∀ p ∈ inside :: insides, ¬ HasBoundary p) (hcloses : closes inside = false)
    (hhead : inside.head? ≠ some '<') (h : Spread ((inside :: insides).map bracket) s) :
    format s ++ lineEnding.toList = lines 0 (inside :: insides) := by
  obtain ⟨u, hu, hlast⟩ := exists_lines_closeLast 0 ('<' :: inside) insides
  have hfirst : lines 0 (('<' :: inside) :: insides) = '<' :: lines 0 (inside :: insides) := by
    rw [lines, lines, kind_lt_cons hcloses hhead, depthAt_zero]
    rfl
  rw [hfirst] at hu
  -- The first bracket belongs to the lines before the last bracket, so it can go.
  cases u with
  | nil => exact absurd (List.head_eq_of_cons_eq hu) (by decide)
  | cons c u =>
    obtain ⟨rfl, hlines⟩ := List.cons.inj hu
    have hformat : format s = u := by
      rw [format, pieces_spread hsolid h, hlast, List.cons_append, unwrap_cons_append]
    rw [hformat]
    exact hlines.symm

end MarkupDesk.Markup.Chars
