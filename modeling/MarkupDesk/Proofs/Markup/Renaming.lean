import MarkupDesk.Proofs.Markup.Forest
import MarkupDesk.Proofs.Markup.Siblings
import MarkupDesk.Proofs.Text.Margins

/-!
# Calling elements by other names

A name of XML may begin with any letter, whatever its script, and with an underscore or a
colon.  The formatter takes a tag for a start tag or an end tag only if its name begins with a
word character, which is an ASCII letter or an underscore.  An element that is called
otherwise is laid out all the same, but what is in it stands no further in than the element
itself (`XmlName.inward`).

So the indentation of a document depends on what its elements are called
(`not_forall_indents_rename`), and `indents_rename_iff` says how far: when elements are called
by other names, all lines keep their indentation exactly if every element with children keeps
its kind of name.
-/
namespace MarkupDesk.Markup

open Text Chars

/-! ## Names -/

/-- The characters that a name can begin with. -/
def isNameStart (c : Char) : Bool :=
  let n := c.toNat
  c.isAlpha || c == '_' || c == ':' || (0xC0 ≤ n && n ≤ 0xD6) || (0xD8 ≤ n && n ≤ 0xF6) ||
    (0xF8 ≤ n && n ≤ 0x2FF) || (0x370 ≤ n && n ≤ 0x37D) || (0x37F ≤ n && n ≤ 0x1FFF) ||
    (0x200C ≤ n && n ≤ 0x200D) || (0x2070 ≤ n && n ≤ 0x218F) || (0x2C00 ≤ n && n ≤ 0x2FEF) ||
    (0x3001 ≤ n && n ≤ 0xD7FF) || (0xF900 ≤ n && n ≤ 0xFDCF) || (0xFDF0 ≤ n && n ≤ 0xFFFD) ||
    (0x10000 ≤ n && n ≤ 0xEFFFF)

/-- The characters that a name can have. -/
def isNameChar (c : Char) : Bool :=
  let n := c.toNat
  isNameStart c || c.isDigit || c == '-' || c == '.' || n == 0xB7 || (0x300 ≤ n && n ≤ 0x36F) ||
    (0x203F ≤ n && n ≤ 0x2040)

/-- A name of an element. -/
structure XmlName where
  chars : List Char
  starts : chars.head?.any isNameStart = true
  valid : chars.all isNameChar = true

namespace XmlName

variable (n : XmlName)

/-- How much further in the children of an element with this name stand. -/
def inward : Nat := if StartsWord n.chars then 1 else 0

theorem inward_eq_iff {m n : XmlName} :
    m.inward = n.inward ↔ (StartsWord m.chars ↔ StartsWord n.chars) := by
  by_cases hm : StartsWord m.chars <;> by_cases hn : StartsWord n.chars <;> simp [inward, hm, hn]

theorem not_mem {c : Char} (hc : isNameChar c = false) : c ∉ n.chars := by
  intro hmem
  have hname := List.all_eq_true.mp n.valid c hmem
  rw [hc] at hname
  cases hname

theorem plain : Plain n.chars := by
  intro c hmem
  constructor <;> rintro rfl <;> exact n.not_mem (by decide) hmem

theorem exists_cons : ∃ c rest, n.chars = c :: rest ∧ isNameChar c = true := by
  cases hchars : n.chars with
  | nil =>
    have hstarts := n.starts
    rw [hchars] at hstarts
    cases hstarts
  | cons c rest => exact ⟨c, rest, rfl, List.all_eq_true.mp n.valid c (by simp [hchars])⟩

theorem head?_append_ne {c : Char} (hc : isNameChar c = false) (s : List Char) :
    (n.chars ++ s).head? ≠ some c := by
  obtain ⟨d, rest, hchars, hd⟩ := n.exists_cons
  rw [hchars]
  rintro ⟨⟩
  rw [hc] at hd
  cases hd

theorem startsWord_append_iff (s : List Char) :
    StartsWord (n.chars ++ s) ↔ StartsWord n.chars := by
  obtain ⟨d, rest, hchars, _⟩ := n.exists_cons
  rw [hchars]
  rfl

end XmlName

/-! ## The kinds of the tags -/

namespace Chars

theorem startsWord_of_opens {s : List Char} (h : opens s = true) : StartsWord s := by
  cases s with
  | nil => cases h
  | cons c rest => exact ⟨c, rfl, (Bool.and_eq_true_iff.mp h).1⟩

/-- Only what looks like a start tag is taken for one. -/
theorem opens_body_of_kind {s : List Char} (h : kind s = .opening) : opens (body s) = true := by
  unfold kind at h
  split at h
  · cases h
  · split at h
    · cases h
    · split at h
      · cases h
      · split at h
        · assumption
        · split at h <;> cases h

theorem kind_slash_cons_ne_opening (s : List Char) : kind ('/' :: s) ≠ .opening := by
  intro hkind
  obtain ⟨c, hc, hword⟩ := startsWord_of_opens (opens_body_of_kind hkind)
  cases hc
  cases hword

end Chars

namespace XmlName

variable (n : XmlName)

/-- A tag that begins with a name is no end tag, and it is a start tag only if the name begins
with a word character. -/
theorem kind_append_ne {s : List Char}
    (h : StartsWord n.chars → opens (n.chars ++ s) = false) :
    kind (n.chars ++ s) ≠ .opening ∧ kind (n.chars ++ s) ≠ .closing := by
  obtain ⟨c, rest, hchars, hc⟩ := n.exists_cons
  constructor
  · intro hkind
    have hbody : body (n.chars ++ s) = n.chars ++ s := by
      have hne : c ≠ '<' := by
        rintro rfl
        cases hc
      simp [hchars, body, hne]
    have hopens := opens_body_of_kind hkind
    rw [hbody] at hopens
    have hword := (n.startsWord_append_iff s).mp (startsWord_of_opens hopens)
    rw [h hword] at hopens
    cases hopens
  · rw [ne_eq, kind_eq_closing_iff]
    have hne : c ≠ '/' := by
      rintro rfl
      cases hc
    simp [hchars, closes, hne]

theorem kind_slash_cons_eq_closing_iff (s : List Char) :
    kind ('/' :: (n.chars ++ s)) = .closing ↔ StartsWord n.chars := by
  obtain ⟨c, rest, hchars, _⟩ := n.exists_cons
  rw [kind_eq_closing_iff, hchars]
  constructor
  · exact fun hword => ⟨c, rfl, hword⟩
  · rintro ⟨_, ⟨⟩, hword⟩
    exact hword

end XmlName

/-! ## Elements -/

/-- What follows the name in a tag. -/
structure TagRest where
  chars : List Char
  plain : Plain chars
  open_end : chars.getLast? ≠ some '/'

/-- An element that is called by a name: with elements in it, with a text, or empty. -/
inductive NamedElement where
  | full (name : XmlName) (trail : TagRest) (children : List NamedElement) (space : Blanks)
  | text (name : XmlName) (trail : TagRest) (content : Content) (space : Blanks)
  | empty (name : XmlName) (trail : TagRest)

namespace NamedElement

mutual

/-- The parts of an element in the order of the document: its tags, or the whole of an element
with a text. -/
def parts : NamedElement → List (List Char)
  | full name trail children space =>
    bracket (name.chars ++ trail.chars) ::
      (partsAll children ++ [bracket ('/' :: (name.chars ++ space.chars))])
  | text name trail content space =>
    [bracket (name.chars ++ trail.chars) ++ content.chars ++
      bracket ('/' :: (name.chars ++ space.chars))]
  | empty name trail => [bracket (name.chars ++ trail.chars ++ ['/'])]

/-- The parts of a sequence of elements. -/
def partsAll : List NamedElement → List (List Char)
  | [] => []
  | e :: es => e.parts ++ partsAll es

end

mutual

/-- The element and those in it, called by other names. -/
def rename (call : XmlName → XmlName) : NamedElement → NamedElement
  | full name trail children space => full (call name) trail (renameAll call children) space
  | text name trail content space => text (call name) trail content space
  | empty name trail => empty (call name) trail

/-- The elements of a sequence, called by other names. -/
def renameAll (call : XmlName → XmlName) : List NamedElement → List NamedElement
  | [] => []
  | e :: es => e.rename call :: renameAll call es

end

mutual

/-- The names of the elements that have children. -/
def parents : NamedElement → List XmlName
  | full name _ children _ => (if children.isEmpty then [] else [name]) ++ parentsAll children
  | text .. => []
  | empty .. => []

/-- The names of the elements with children in a sequence. -/
def parentsAll : List NamedElement → List XmlName
  | [] => []
  | e :: es => e.parents ++ parentsAll es

end

mutual

/-- The margins of the lines of an element at this depth.  A tag, and the text of an element,
can have line ends of their own; the margins of the lines after these are what they are. -/
def margins (depth : Nat) : NamedElement → List Nat
  | full name trail children space =>
    2 * depth :: (laterMargins trail.chars ++
      (marginsAll (depth + name.inward) children ++ 2 * depth :: laterMargins space.chars))
  | text _ trail content space =>
    2 * depth ::
      (laterMargins trail.chars ++ (laterMargins content.chars ++ laterMargins space.chars))
  | empty _ trail => 2 * depth :: laterMargins trail.chars

/-- The margins of the lines of a sequence of elements at this depth. -/
def marginsAll (depth : Nat) : List NamedElement → List Nat
  | [] => []
  | e :: es => e.margins depth ++ marginsAll depth es

end

end NamedElement

/-! ## The lines of an element -/

theorem Plain.append {s t : List Char} (hs : Plain s) (ht : Plain t) : Plain (s ++ t) :=
  fun c hc => (List.mem_append.mp hc).elim (hs c) (ht c)

theorem Blanks.plain (b : Blanks) : Plain b.chars := by
  intro c hmem
  constructor
  · rintro rfl
    exact b.not_mem isBlank_lt hmem
  · rintro rfl
    exact b.not_mem isBlank_gt hmem

namespace XmlName

variable (n : XmlName) (trail : TagRest) (space : Blanks)

theorem plain_start : Plain (n.chars ++ trail.chars) := n.plain.append trail.plain

theorem plain_finish : Plain (n.chars ++ space.chars) := n.plain.append space.plain

theorem getLast?_start_ne : (n.chars ++ trail.chars).getLast? ≠ some '/' := by
  rw [List.getLast?_append]
  intro h
  rcases Option.or_eq_some_iff.mp h with h | ⟨_, h⟩
  · exact trail.open_end h
  · exact n.not_mem (by decide) (List.mem_of_getLast? h)

theorem kind_start (hword : StartsWord n.chars) : kind (n.chars ++ trail.chars) = .opening :=
  OpenLabel.kind_chars
    ⟨⟨_, hword.append trail.chars, n.plain_start trail⟩, n.getLast?_start_ne trail⟩

theorem solid_start : ¬ HasBoundary (n.chars ++ trail.chars) :=
  not_hasBoundary_of_gt_not_mem (not_mem_of_plain (n.plain_start trail)).2

theorem solid_finish : ¬ HasBoundary ('/' :: (n.chars ++ space.chars)) :=
  not_hasBoundary_of_gt_not_mem (by simp [(not_mem_of_plain (n.plain_finish space)).2])

theorem head?_start_ne : (n.chars ++ trail.chars).head? ≠ some '<' :=
  n.head?_append_ne (by decide) _

/-- **The children of an element stand further in only if its name begins with a word
character.**  Otherwise neither of its tags changes the depth. -/
theorem exists_laysOut_full {parts insides : List (List Char)} {rows : Nat → List (List Char)}
    (h : LaysOut parts rows insides) :
    ∃ insides', LaysOut
      (bracket (n.chars ++ trail.chars) ::
        (parts ++ [bracket ('/' :: (n.chars ++ space.chars))]))
      (fun depth => Node.row depth (bracket (n.chars ++ trail.chars)) ::
        (rows (depth + n.inward) ++
          [Node.row depth (bracket ('/' :: (n.chars ++ space.chars)))])) insides' := by
  by_cases hword : StartsWord n.chars
  · have hinward : n.inward = 1 := if_pos hword
    rw [hinward]
    exact ⟨_, .container (n.kind_start trail hword)
      ((n.kind_slash_cons_eq_closing_iff _).mpr hword) (n.solid_start trail)
      (n.solid_finish space) (n.head?_start_ne trail) h⟩
  · have hinward : n.inward = 0 := if_neg hword
    rw [hinward]
    have hkind := n.kind_append_ne (s := trail.chars) fun hword' => absurd hword' hword
    have hstart := LaysOut.single hkind.1 hkind.2 (n.solid_start trail) (n.head?_start_ne trail)
    have hfinish := LaysOut.single (kind_slash_cons_ne_opening _)
      (mt (n.kind_slash_cons_eq_closing_iff _).mp hword) (n.solid_finish space)
      fun hhead => absurd (Option.some.inj hhead) (by decide)
    exact ⟨_, hstart.append (h.append hfinish)⟩

end XmlName

/-- A line shows of its tag only what stands after the line ends in it. -/
theorem margins_row (depth : Nat) (inside : List Char) :
    Text.margins (Node.row depth (bracket inside)) = 2 * depth :: laterMargins inside := by
  have hspaces : '\r' ∉ List.replicate (2 * depth) ' ' := by simp [List.mem_replicate]
  have hmargin : margin (Node.row depth (bracket inside)) = 2 * depth :=
    margin_replicate_append_cons (by decide) _ _
  have hlater : laterMargins (Node.row depth (bracket inside)) = laterMargins inside := by
    rw [Node.row, laterMargins_append_of_not_mem hspaces, bracket,
      laterMargins_cons_of_ne (by decide), laterMargins_append_cons (by decide) (by decide),
      laterMargins_cons_of_ne (by decide)]
    exact List.append_nil _
  rw [Text.margins, hmargin, hlater]

theorem bracket_append_append_bracket (a t b : List Char) :
    bracket a ++ t ++ bracket b = bracket (a ++ '>' :: (t ++ '<' :: b)) := by
  simp [bracket]

namespace XmlName

variable (n : XmlName)

/-- **A name does not show in any margin.** -/
theorem laterMargins_append (s : List Char) : laterMargins (n.chars ++ s) = laterMargins s :=
  laterMargins_append_of_not_mem (n.not_mem (by decide)) s

theorem laterMargins_slash_cons (s : List Char) :
    laterMargins ('/' :: (n.chars ++ s)) = laterMargins s := by
  rw [laterMargins_cons_of_ne (by decide), n.laterMargins_append]

theorem laterMargins_text (trail : TagRest) (content : Content) (space : Blanks) :
    laterMargins (n.chars ++ trail.chars ++
        '>' :: (content.chars ++ '<' :: '/' :: (n.chars ++ space.chars))) =
      laterMargins trail.chars ++ (laterMargins content.chars ++ laterMargins space.chars) := by
  rw [List.append_assoc, n.laterMargins_append,
    laterMargins_append_cons (by decide) (by decide), laterMargins_cons_of_ne (by decide),
    laterMargins_append_cons (by decide) (by decide), laterMargins_cons_of_ne (by decide),
    n.laterMargins_slash_cons]

theorem laterMargins_empty (trail : TagRest) :
    laterMargins (n.chars ++ trail.chars ++ ['/']) = laterMargins trail.chars := by
  rw [List.append_assoc, n.laterMargins_append, laterMargins_append_cons (by decide) (by decide)]
  exact List.append_nil _

theorem opens_text_eq_false {s t : List Char} (ht : t ≠ []) (hword : StartsWord n.chars) :
    opens (n.chars ++ (s ++ '>' :: t)) = false := by
  rw [← List.append_assoc]
  exact not_opens_append_gt ((hword.append s).append _) ht

theorem opens_empty_eq_false {s : List Char} (hword : StartsWord n.chars) :
    opens (n.chars ++ (s ++ ['/'])) = false := by
  rw [← List.append_assoc, ← Bool.not_eq_true, opens_iff_of_startsWord ((hword.append s).append _)]
  exact fun hopens => hopens.1 List.getLast?_concat

end XmlName

namespace NamedElement

theorem exists_laysOut_text (n : XmlName) (trail : TagRest) (content : Content) (space : Blanks) :
    ∃ insides rows, LaysOut (text n trail content space).parts rows insides ∧
      ∀ depth, (rows depth).flatMap Text.margins = (text n trail content space).margins depth := by
  have hkind := n.kind_append_ne (s := trail.chars ++
    '>' :: (content.chars ++ '<' :: '/' :: (n.chars ++ space.chars)))
    (n.opens_text_eq_false (by simp))
  rw [← List.append_assoc] at hkind
  refine ⟨_, _, .text (n.plain_start trail) (n.plain_finish space) (n.head?_start_ne trail) hkind,
    fun depth => ?_⟩
  rw [bracket_append_append_bracket, List.flatMap_singleton, margins_row, n.laterMargins_text]
  rfl

theorem exists_laysOut_empty (n : XmlName) (trail : TagRest) :
    ∃ insides rows, LaysOut (empty n trail).parts rows insides ∧
      ∀ depth, (rows depth).flatMap Text.margins = (empty n trail).margins depth := by
  have hkind := n.kind_append_ne (s := trail.chars ++ ['/']) n.opens_empty_eq_false
  rw [← List.append_assoc] at hkind
  have hplain : Plain (n.chars ++ trail.chars ++ ['/']) := (n.plain_start trail).append (by decide)
  have hsolid := not_hasBoundary_of_gt_not_mem (not_mem_of_plain hplain).2
  have hhead : (n.chars ++ trail.chars ++ ['/']).head? ≠ some '<' := by
    rw [List.append_assoc]
    exact n.head?_append_ne (by decide) _
  refine ⟨_, _, .single hkind.1 hkind.2 hsolid hhead, fun depth => ?_⟩
  rw [List.flatMap_singleton, margins_row, n.laterMargins_empty]
  rfl

mutual

/-- **The lines of an element have its margins.**  The proof follows the nesting, with what
comes after the element left open in `LaysOut`. -/
theorem exists_laysOut : ∀ e : NamedElement,
    ∃ insides rows, LaysOut e.parts rows insides ∧
      ∀ depth, (rows depth).flatMap Text.margins = e.margins depth
  | full name trail children space => by
    obtain ⟨insides, rows, h, hmargins⟩ := exists_laysOutAll children
    obtain ⟨insides', h'⟩ := name.exists_laysOut_full trail space h
    refine ⟨insides', _, h', fun depth => ?_⟩
    rw [List.flatMap_cons, List.flatMap_append, hmargins, List.flatMap_singleton, margins_row,
      margins_row, name.laterMargins_append, name.laterMargins_slash_cons]
    rfl
  | text name trail content space => exists_laysOut_text name trail content space
  | empty name trail => exists_laysOut_empty name trail

theorem exists_laysOutAll : ∀ es : List NamedElement,
    ∃ insides rows, LaysOut (partsAll es) rows insides ∧
      ∀ depth, (rows depth).flatMap Text.margins = marginsAll depth es
  | [] => ⟨_, _, .nil, fun _ => rfl⟩
  | e :: es => by
    obtain ⟨insides, rows, h, hmargins⟩ := exists_laysOut e
    obtain ⟨insides', rows', h', hmargins'⟩ := exists_laysOutAll es
    refine ⟨_, _, h.append h', fun depth => ?_⟩
    rw [List.flatMap_append, hmargins, hmargins']
    rfl

end

theorem parts_ne_nil (e : NamedElement) : e.parts ≠ [] := by
  cases e <;> exact List.cons_ne_nil _ _

/-- **The margins of a formatted document** are those that its elements have by their names. -/
theorem margins_format {root : NamedElement} {document : String}
    (h : Spread root.parts document.toList) :
    Text.margins (format document).toList = root.margins 0 := by
  obtain ⟨insides, rows, hlays, hmargins⟩ := root.exists_laysOut
  cases insides with
  | nil => exact absurd hlays.parts_eq.symm root.parts_ne_nil
  | cons inside insides =>
    have hstarts := hlays.starts inside rfl
    have hlines := format_spread hlays.solid hstarts.1 hstarts.2 (hlays.parts_eq ▸ h)
    have hrows := hlays.lines_append 0 []
    rw [List.append_nil, ← hlines, lines, List.append_nil] at hrows
    have hends : Text.margins (Chars.format document.toList ++ lineEnding.toList) =
        Text.margins ((rows 0).flatMap (· ++ lineEnding.toList)) := congrArg _ hrows
    have hline : lineEnding.toList = ['\r', '\n'] := rfl
    rw [hline, margins_append_lineEnd, margins_flatMap_lineEnd, hmargins] at hends
    rw [toList_format]
    exact List.append_cancel_right hends

/-! ## Other names -/

mutual

/-- Called by other names, an element has as many lines. -/
theorem length_margins_rename (call : XmlName → XmlName) (depth depth' : Nat) :
    ∀ e : NamedElement, ((e.rename call).margins depth').length = (e.margins depth).length
  | full name trail children space => by
    have h := length_marginsAll_renameAll call (depth + name.inward)
      (depth' + (call name).inward) children
    simp [rename, margins, h]
  | text .. => by simp [rename, margins]
  | empty .. => by simp [rename, margins]

theorem length_marginsAll_renameAll (call : XmlName → XmlName) (depth depth' : Nat) :
    ∀ es : List NamedElement,
      (marginsAll depth' (renameAll call es)).length = (marginsAll depth es).length
  | [] => rfl
  | e :: es => by
    have h := length_margins_rename call depth depth' e
    have h' := length_marginsAll_renameAll call depth depth' es
    simp [renameAll, marginsAll, h, h']

end

mutual

/-- **The margins of an element stay** exactly if its depth does, and every element with
children lets these stand as much further in as before.  The proof follows the nesting: the
first line of an element tells its depth, and so the first child tells the name around it. -/
theorem margins_rename_iff (call : XmlName → XmlName) (depth depth' : Nat) :
    ∀ e : NamedElement, (e.rename call).margins depth' = e.margins depth ↔
      depth' = depth ∧ ∀ n ∈ e.parents, (call n).inward = n.inward
  | full name trail children space => by
    have hchildren := marginsAll_renameAll_iff call (depth + name.inward)
      (depth' + (call name).inward) children
    have hlength := length_marginsAll_renameAll call (depth + name.inward)
      (depth' + (call name).inward) children
    rw [rename, margins, margins, List.cons.injEq, List.append_right_inj,
      List.append_eq_append_iff_of_size_eq_left hlength, hchildren, List.cons.injEq,
      Nat.mul_left_cancel_iff Nat.two_pos, parents]
    cases children with
    | nil => simp [parentsAll]
    | cons child rest =>
      simp only [List.isEmpty_cons, Bool.false_eq_true, if_false, List.singleton_append,
        List.forall_mem_cons]
      constructor
      · rintro ⟨rfl, ⟨hinward, hrest⟩, _⟩
        exact ⟨rfl, Nat.add_left_cancel (hinward (List.cons_ne_nil _ _)), hrest⟩
      · rintro ⟨rfl, hinward, hrest⟩
        exact ⟨rfl, ⟨fun _ => by rw [hinward], hrest⟩, rfl, trivial⟩
  | text .. => by
    rw [rename, margins, margins, List.cons.injEq, Nat.mul_left_cancel_iff Nat.two_pos, parents]
    simp
  | empty .. => by
    rw [rename, margins, margins, List.cons.injEq, Nat.mul_left_cancel_iff Nat.two_pos, parents]
    simp

theorem marginsAll_renameAll_iff (call : XmlName → XmlName) (depth depth' : Nat) :
    ∀ es : List NamedElement, marginsAll depth' (renameAll call es) = marginsAll depth es ↔
      (es ≠ [] → depth' = depth) ∧ ∀ n ∈ parentsAll es, (call n).inward = n.inward
  | [] => by simp [renameAll, marginsAll, parentsAll]
  | e :: es => by
    have hlength := length_margins_rename call depth depth' e
    rw [renameAll, marginsAll, marginsAll, List.append_eq_append_iff_of_size_eq_left hlength,
      margins_rename_iff call depth depth' e, marginsAll_renameAll_iff call depth depth' es,
      parentsAll, List.forall_mem_append]
    constructor
    · rintro ⟨⟨hdepth, he⟩, _, hes⟩
      exact ⟨fun _ => hdepth, he, hes⟩
    · rintro ⟨hdepth, he, hes⟩
      have hdepth' := hdepth (List.cons_ne_nil _ _)
      exact ⟨⟨hdepth', he⟩, fun _ => hdepth', hes⟩

end

end NamedElement

/-- How far each line of a text is indented. -/
def indents (text : String) : List Nat := Text.margins text.toList

/-- **When the elements of a document are called by other names, its lines keep their
indentation exactly if every element with children keeps its kind of name**: one that begins
with a word character, or one that does not. -/
theorem indents_rename_iff {root : NamedElement} (call : XmlName → XmlName)
    {document renamed : String} (h : Spread root.parts document.toList)
    (h' : Spread (root.rename call).parts renamed.toList) :
    indents (format renamed) = indents (format document) ↔
      ∀ n ∈ root.parents, (StartsWord (call n).chars ↔ StartsWord n.chars) := by
  rw [indents, indents, NamedElement.margins_format h, NamedElement.margins_format h',
    NamedElement.margins_rename_iff]
  simp [XmlName.inward_eq_iff]

/-- An element with a text and an empty one may be called anything, and the root may be called
by a longer name. -/
theorem indents_rename_iff_leaves :
    let a : XmlName := ⟨"a".toList, by decide, by decide⟩
    let b : XmlName := ⟨"b".toList, by decide, by decide⟩
    let root : NamedElement := .full a ⟨[], by decide, by decide⟩
      [.text b ⟨[], by decide, by decide⟩ ⟨"t".toList, by decide, by decide⟩ .none,
        .empty b ⟨[], by decide, by decide⟩] .none
    let call : XmlName → XmlName := fun n =>
      if n.chars = "a".toList then ⟨"_a.1".toList, by decide, by decide⟩
      else ⟨"été".toList, by decide, by decide⟩
    Spread root.parts "<a><b>t</b><b/></a>".toList ∧
      Spread (root.rename call).parts "<_a.1> <été>t</été> <été/> </_a.1>".toList ∧
      (∀ n ∈ root.parents, (StartsWord (call n).chars ↔ StartsWord n.chars)) ∧
      indents (format "<_a.1> <été>t</été> <été/> </_a.1>") =
        indents (format "<a><b>t</b><b/></a>") := by
  intro a b root call
  have h : Spread root.parts "<a><b>t</b><b/></a>".toList :=
    .next [] _ rfl <| .next [] _ rfl <| .next [] _ rfl <| .next [] _ rfl <| .done [] rfl
  have h' : Spread (root.rename call).parts "<_a.1> <été>t</été> <été/> </_a.1>".toList :=
    .next [] _ rfl <| .next [' '] _ rfl <| .next [' '] _ rfl <| .next [' '] _ rfl <| .done [] rfl
  have hparents : ∀ n ∈ root.parents, (StartsWord (call n).chars ↔ StartsWord n.chars) := by
    intro n hn
    obtain rfl : n = a := List.mem_singleton.mp hn
    decide
  exact ⟨h, h', hparents, (indents_rename_iff call h h').mpr hparents⟩

/-- **Indentation depends on what elements are called.**  A letter outside of ASCII at the
beginning of its name, and nothing in an element stands further in. -/
theorem not_forall_indents_rename :
    ¬ ∀ (root : NamedElement) (call : XmlName → XmlName) (document renamed : String),
      Spread root.parts document.toList → Spread (root.rename call).parts renamed.toList →
        indents (format renamed) = indents (format document) := by
  intro h
  let e : XmlName := ⟨"e".toList, by decide, by decide⟩
  let b : XmlName := ⟨"b".toList, by decide, by decide⟩
  let root : NamedElement :=
    .full e ⟨[], by decide, by decide⟩ [.empty b ⟨[], by decide, by decide⟩] .none
  let call : XmlName → XmlName := fun n =>
    if n.chars = "e".toList then ⟨"é".toList, by decide, by decide⟩ else n
  have hsame := h root call "<e><b/></e>" "<é><b/></é>"
    (.next [] _ rfl <| .next [] _ rfl <| .next [] _ rfl <| .done [] rfl)
    (.next [] _ rfl <| .next [] _ rfl <| .next [] _ rfl <| .done [] rfl)
  have hdocument : indents (format "<e><b/></e>") = [0, 2, 0] := by decide +kernel
  have hrenamed : indents (format "<é><b/></é>") = [0, 0, 0] := by decide +kernel
  rw [hdocument, hrenamed] at hsame
  exact absurd hsame (by decide)

end MarkupDesk.Markup
