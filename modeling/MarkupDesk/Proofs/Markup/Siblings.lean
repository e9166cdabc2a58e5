import MarkupDesk.Proofs.Markup.Mixed

/-!
# Siblings

The elements of a document with mixed content: an element is empty, or has children, which are
texts and elements in turn.  Attribute values and texts may have a `>` in them.  Written down, an
element is a sequence of marks (`Element.marks`), and its tags close what they open
(`Element.balanced_marks`).

The formatter does not know which tags belong to one element.  Siblings have the same
indentation when every line between the beginning of the first and that of the second is
honest, and the end tag of the root is at the margin when every line before it is
(`siblings_aligned`); in general the indentation of the second sibling is the depth that the
lines from the first one on leave behind.  A `>` in an attribute value is enough for a line that
is not honest (`not_forall_siblings_aligned`).
-/
namespace MarkupDesk.Markup

open Text Chars

/-! ## Elements -/

/-- A text of blanks. -/
structure Blanks where
  chars : List Char
  blank : chars.all isBlank = true

/-- A text between two tags. -/
structure CharData where
  chars : List Char
  lt_not_mem : '<' ∉ chars

/-- The name of an element. -/
structure Name where
  chars : List Char
  startsWord : StartsWord chars
  plain : ∀ c ∈ chars, c ≠ '<' ∧ c ≠ '>' ∧ c ≠ '/'

/-- An attribute: its name and equals sign, with the blanks around them, and its value in
quotation marks. -/
structure Attribute where
  key : List Char
  quote : Char
  value : List Char
  key_plain : Plain key
  quote_eq : quote = '"' ∨ quote = '\''
  value_ok : '<' ∉ value ∧ quote ∉ value

/-- What a start tag or an empty tag says. -/
structure StartTag where
  name : Name
  attributes : List Attribute
  space : Blanks

mutual

/-- An element with its tags. -/
inductive Element where
  | empty (tag : StartTag)
  | full (tag : StartTag) (children : Children) (space : Blanks)

/-- Texts and elements in turn. -/
inductive Children where
  | done (text : CharData)
  | child (text : CharData) (element : Element) (rest : Children)

end

theorem Blanks.not_mem {c : Char} (hc : isBlank c = false) (b : Blanks) : c ∉ b.chars := by
  intro hmem
  have hblank := List.all_eq_true.mp b.blank c hmem
  rw [hc] at hblank
  cases hblank

/-- Blanks are a text. -/
def Blanks.charData (b : Blanks) : CharData := ⟨b.chars, b.not_mem isBlank_lt⟩

/-- No blanks. -/
def Blanks.none : Blanks := ⟨[], List.all_nil⟩

/-- No text. -/
def CharData.none : CharData := Blanks.none.charData

/-- The tag that says this name and nothing else. -/
def StartTag.plain (n : Name) : StartTag := ⟨n, [], .none⟩

/-- The characters of an attribute. -/
def Attribute.chars (a : Attribute) : List Char := a.key ++ a.quote :: (a.value ++ [a.quote])

/-- The characters of a start tag between its brackets. -/
def StartTag.label (t : StartTag) : List Char :=
  t.name.chars ++ t.attributes.flatMap Attribute.chars ++ t.space.chars

mutual

/-- The characters of an element. -/
def Element.chars : Element → List Char
  | .empty tag => bracket (tag.label ++ ['/'])
  | .full tag children space =>
    bracket tag.label ++ children.chars ++ bracket ('/' :: (tag.name.chars ++ space.chars))

/-- The characters of a list of children. -/
def Children.chars : Children → List Char
  | .done text => text.chars
  | .child text element rest => text.chars ++ element.chars ++ rest.chars

end

/-! ## Elements as marks -/

/-- No slash and no `>` stands at the end. -/
def EndsPlain (s : List Char) : Prop := ∀ c ∈ s.getLast?, c ≠ '/' ∧ c ≠ '>'

theorem EndsPlain.append {s t : List Char} (hs : EndsPlain s) (ht : EndsPlain t) :
    EndsPlain (s ++ t) := by
  intro c hc
  rw [List.getLast?_append, Option.mem_def, Option.or_eq_some_iff] at hc
  rcases hc with hc | ⟨_, hc⟩
  · exact ht c hc
  · exact hs c hc

theorem Blanks.endsPlain (b : Blanks) : EndsPlain b.chars := by
  intro c hc
  have hmem := List.mem_of_getLast? hc
  constructor <;> rintro rfl
  · exact b.not_mem (by decide) hmem
  · exact b.not_mem isBlank_gt hmem

theorem Name.endsPlain (n : Name) : EndsPlain n.chars :=
  fun c hc => (n.plain c (List.mem_of_getLast? hc)).2.symm

theorem Attribute.endsPlain (a : Attribute) : EndsPlain a.chars := by
  intro c hc
  rw [chars, ← List.cons_append, ← List.append_assoc, List.getLast?_concat] at hc
  obtain rfl : a.quote = c := Option.some.inj hc
  rcases a.quote_eq with h | h <;> rw [h] <;> decide

theorem StartTag.endsPlain_label (t : StartTag) : EndsPlain t.label := by
  have hattributes (as : List Attribute) : EndsPlain (as.flatMap Attribute.chars) := by
    induction as with
    | nil => rintro c ⟨⟩
    | cons a as ih => exact a.endsPlain.append ih
  exact (t.name.endsPlain.append (hattributes t.attributes)).append t.space.endsPlain

theorem Name.lt_not_mem (n : Name) : '<' ∉ n.chars := fun hmem => (n.plain _ hmem).1 rfl

theorem Attribute.lt_not_mem (a : Attribute) : '<' ∉ a.chars := by
  have hkey : '<' ∉ a.key := (not_mem_of_plain a.key_plain).1
  have hquote : '<' ≠ a.quote := by rcases a.quote_eq with h | h <;> rw [h] <;> decide
  simp [chars, hkey, hquote, a.value_ok.1]

/-- The tag with the text after it. -/
def StartTag.mark (t : StartTag) (role : Role) (text : CharData) : Mark where
  role := role
  label := t.label
  text := text.chars
  startsWord := by
    rw [label, List.append_assoc]
    exact t.name.startsWord.append _
  label_lt := by
    have hattributes : '<' ∉ t.attributes.flatMap Attribute.chars := by
      rw [List.mem_flatMap]
      rintro ⟨a, _, hmem⟩
      exact a.lt_not_mem hmem
    simp [label, t.name.lt_not_mem, hattributes, t.space.not_mem isBlank_lt]
  label_end := t.endsPlain_label
  text_lt := text.lt_not_mem

/-- The end tag with the text after it. -/
def Name.endMark (n : Name) (space : Blanks) (text : CharData) : Mark where
  role := .finish
  label := n.chars ++ space.chars
  text := text.chars
  startsWord := n.startsWord.append _
  label_lt := by simp [n.lt_not_mem, space.not_mem isBlank_lt]
  label_end := n.endsPlain.append space.endsPlain
  text_lt := text.lt_not_mem

/-- The text before the first element. -/
def Children.lead : Children → CharData
  | .done text => text
  | .child text _ _ => text

@[simp] theorem Children.lead_child (text : CharData) (e : Element) (rest : Children) :
    (Children.child text e rest).lead = text := rfl

mutual

/-- The marks of an element that has this text after it. -/
def Element.marks (after : CharData) : Element → List Mark
  | .empty tag => [tag.mark .empty after]
  | .full tag children space =>
    tag.mark .start children.lead :: (children.marks ++ [tag.name.endMark space after])

/-- The marks of the elements in it. -/
def Children.marks : Children → List Mark
  | .done _ => []
  | .child _ element rest => element.marks rest.lead ++ rest.marks

end

mutual

theorem Element.charsOf_marks (after : CharData) :
    ∀ e : Element, charsOf (e.marks after) = e.chars ++ after.chars
  | .empty tag => by
    simp [Element.marks, Element.chars, Mark.chars, Mark.inside, StartTag.mark]
  | .full tag children space => by
    have hchildren := Children.charsOf_marks children
    simp only [Element.marks, Element.chars, charsOf_cons, charsOf_append, charsOf_nil,
      List.append_nil, ← hchildren]
    simp [Mark.chars, Mark.inside, StartTag.mark, Name.endMark]

theorem Children.charsOf_marks : ∀ c : Children, c.lead.chars ++ charsOf c.marks = c.chars
  | .done text => by simp [Children.marks, Children.chars, Children.lead]
  | .child text element rest => by
    have helement := Element.charsOf_marks rest.lead element
    have hrest := Children.charsOf_marks rest
    rw [Children.marks, charsOf_append, helement, Children.chars, ← hrest]
    simp

end

/-! ## The nesting of elements -/

/-- The tags of these marks close what they open, and nothing else. -/
structure Balanced (marks : List Mark) : Prop where
  nonneg : ∀ p, p <+: marks → 0 ≤ nesting p
  nesting_eq : nesting marks = 0

namespace Balanced

theorem nil : Balanced [] where
  nonneg := by
    intro p hp
    rw [List.prefix_nil.mp hp]
    exact Int.le_refl 0
  nesting_eq := rfl

theorem append {marks marks' : List Mark} (h : Balanced marks) (h' : Balanced marks') :
    Balanced (marks ++ marks') where
  nonneg := by
    rintro p ⟨t, ht⟩
    -- A prefix ends among the first marks, or has all of them.
    rcases List.append_eq_append_iff.mp ht with ⟨u, hu, _⟩ | ⟨u, rfl, hu⟩
    · exact h.nonneg p ⟨u, hu.symm⟩
    · rw [nesting_append, h.nesting_eq, Int.zero_add]
      exact h'.nonneg u ⟨t, hu.symm⟩
  nesting_eq := by rw [nesting_append, h.nesting_eq, h'.nesting_eq, Int.add_zero]

theorem empty {m : Mark} (hm : m.role = .empty) : Balanced [m] where
  nonneg := by
    intro p hp
    rcases List.prefix_cons_iff.mp hp with rfl | ⟨q, rfl, hq⟩
    · exact Int.le_refl 0
    · rw [List.prefix_nil.mp hq, nesting_cons, hm, nesting_nil]
      decide
  nesting_eq := by
    rw [nesting_cons, hm, nesting_nil]
    rfl

/-- Up to the end tag, the start tag in front of balanced marks keeps one element open. -/
theorem nonneg_cons {m : Mark} {marks p : List Mark} (hm : m.role = .start) (h : Balanced marks)
    (hp : p <+: m :: marks) : 0 ≤ nesting p := by
  rcases List.prefix_cons_iff.mp hp with rfl | ⟨q, rfl, hq⟩
  · exact Int.le_refl 0
  · have hnonneg := h.nonneg q hq
    rw [nesting_cons, hm, Role.nesting]
    omega

theorem nesting_cons_eq {m : Mark} {marks : List Mark} (hm : m.role = .start) (h : Balanced marks) :
    nesting (m :: marks) = 1 := by
  rw [nesting_cons, hm, h.nesting_eq]
  rfl

theorem enclose {m m' : Mark} {marks : List Mark} (hm : m.role = .start) (hm' : m'.role = .finish)
    (h : Balanced marks) : Balanced (m :: (marks ++ [m'])) := by
  have hnesting : nesting (m :: marks ++ [m']) = 0 := by
    rw [nesting_append, nesting_cons_eq hm h, nesting_cons, hm', nesting_nil]
    rfl
  -- Only the end tag closes what the start tag opened.
  refine ⟨fun p hp => ?_, hnesting⟩
  rcases List.prefix_concat_iff.mp (List.cons_append ▸ hp) with rfl | hp
  · exact Int.le_of_eq hnesting.symm
  · exact nonneg_cons hm h hp

end Balanced

mutual

/-- **The tags of an element close what they open.** -/
theorem Element.balanced_marks (after : CharData) : ∀ e : Element, Balanced (e.marks after)
  | .empty tag => by
    rw [Element.marks]
    exact .empty rfl
  | .full tag children space => by
    rw [Element.marks]
    exact .enclose rfl rfl (Children.balanced_marks children)

theorem Children.balanced_marks : ∀ c : Children, Balanced c.marks
  | .done _ => .nil
  | .child _ element rest => by
    rw [Children.marks]
    exact (Element.balanced_marks rest.lead element).append (Children.balanced_marks rest)

end

/-! ## Places in an element -/

/-- After these marks there is this element, and then the rest of it. -/
inductive Children.Holds : Children → List Mark → Element → Children → Prop
  | here (text : CharData) (e : Element) (rest : Children) : Holds (.child text e rest) [] e rest
  | later (text : CharData) (e : Element) {rest : Children} {before : List Mark} {e' : Element}
      {rest' : Children} (h : Holds rest before e' rest') :
      Holds (.child text e rest) (e.marks rest.lead ++ before) e' rest'

/-- After these marks of the element its children begin, or those of an element in it. -/
inductive Element.Encloses : Element → List Mark → Children → Prop
  | own (tag : StartTag) (children : Children) (space : Blanks) :
      Encloses (.full tag children space) [tag.mark .start children.lead] children
  | deeper (tag : StartTag) (space : Blanks) {children : Children} {before : List Mark}
      {e : Element} {rest : Children} {before' : List Mark} {children' : Children}
      (h : children.Holds before e rest) (h' : e.Encloses before' children') :
      Encloses (.full tag children space) (tag.mark .start children.lead :: (before ++ before'))
        children'

/-- Two elements side by side: the first comes after the marks `before`, and the second
after the marks `between` that begin with those of the first. -/
inductive Element.Siblings (root : Element) : List Mark → List Mark → Prop
  | intro {before before₁ before₂ : List Mark} {children rest₁ rest₂ : Children}
      {first second : Element} (h : root.Encloses before children)
      (h₁ : children.Holds before₁ first rest₁) (h₂ : rest₁.Holds before₂ second rest₂) :
      Siblings root (before ++ before₁) (first.marks rest₁.lead ++ before₂)

/-- These are the marks before the end tag of the element. -/
inductive Element.EndsAfter : Element → List Mark → Prop
  | full (tag : StartTag) (children : Children) (space : Blanks) :
      EndsAfter (.full tag children space) (tag.mark .start children.lead :: children.marks)

theorem Element.exists_marks_cons (e : Element) (after : CharData) :
    ∃ m ms, e.marks after = m :: ms ∧ m.role ≠ .finish := by
  cases e with
  | empty tag => exact ⟨_, _, rfl, nofun⟩
  | full tag children space => exact ⟨_, _, rfl, nofun⟩

/-- What comes before and after an element in the marks of its siblings; those before are
marks of whole elements. -/
theorem Children.Holds.marks_eq {c : Children} {before : List Mark} {e : Element} {rest : Children}
    (h : c.Holds before e rest) :
    c.marks = before ++ (e.marks rest.lead ++ rest.marks) ∧ Balanced before := by
  induction h with
  | here text e rest => exact ⟨by rw [Children.marks]; rfl, .nil⟩
  | @later text e rest _ _ _ _ ih =>
    exact ⟨by rw [Children.marks, ih.1, List.append_assoc],
      (e.balanced_marks rest.lead).append ih.2⟩

theorem Element.Encloses.exists_marks {root : Element} {before : List Mark} {c : Children}
    (h : root.Encloses before c) (after : CharData) :
    ∃ more, root.marks after = before ++ (c.marks ++ more) := by
  induction h generalizing after with
  | own tag c space => exact ⟨[tag.name.endMark space after], rfl⟩
  | @deeper tag space _ _ _ rest _ _ h _ ih =>
    obtain ⟨more, hmore⟩ := ih rest.lead
    rw [Element.marks, h.marks_eq.1, hmore]
    exact ⟨more ++ (rest.marks ++ [tag.name.endMark space after]), by simp⟩

/-- The marks of a document with two siblings in it. -/
theorem Element.Siblings.exists_marks {root : Element} {before between : List Mark}
    (h : root.Siblings before between) (after : CharData) :
    ∃ m ms m' ms', between = m :: ms ∧ m.role ≠ .finish ∧ m'.role ≠ .finish ∧
      root.marks after = before ++ (between ++ m' :: ms') ∧ Balanced between := by
  cases h with
  | @intro _ _ before₂ _ rest₁ rest₂ first second h h₁ h₂ =>
    obtain ⟨more, hmore⟩ := h.exists_marks after
    obtain ⟨m, ms, hfirst, hm⟩ := first.exists_marks_cons rest₁.lead
    obtain ⟨m', ms', hsecond, hm'⟩ := second.exists_marks_cons rest₂.lead
    refine ⟨m, ms ++ before₂, m', ms' ++ (rest₂.marks ++ more), by rw [hfirst]; rfl, hm, hm', ?_,
      (first.balanced_marks _).append h₂.marks_eq.2⟩
    rw [hmore, h₁.marks_eq.1, h₂.marks_eq.1, hsecond]
    simp

theorem Element.EndsAfter.exists_marks {root : Element} {before : List Mark}
    (h : root.EndsAfter before) (after : CharData) :
    ∃ m ms m', before = m :: ms ∧ m.role = .start ∧ m'.role = .finish ∧
      root.marks after = before ++ [m'] ∧ Balanced ms := by
  obtain ⟨tag, c, space⟩ := h
  exact ⟨_, _, _, rfl, rfl, rfl, rfl, c.balanced_marks⟩

/-! ## Whole documents -/

theorem Element.whole_marks (e : Element) {after : CharData} (h : visible after.chars = []) :
    Whole (e.marks after) := by
  have hclosed {m : Mark} (hm : m.text = after.chars) : m.Closed := by
    rw [Mark.Closed, Mark.chars, visible_append, hm, h, List.append_nil, bracket,
      ← List.cons_append, visible_append, visible_cons_of_not_blank isBlank_gt, visible_nil,
      List.getLast?_concat]
  cases e with
  | empty tag =>
    rw [Element.marks]
    rintro m ⟨⟩
    exact hclosed rfl
  | full tag c space =>
    rw [Element.marks, ← List.cons_append]
    intro m hm
    rw [List.getLast?_concat] at hm
    obtain rfl := Option.some.inj hm
    exact hclosed rfl

section Document

variable {document : String} {root : Element} {lead trail : Blanks}
  (h : document.toList = lead.chars ++ root.chars ++ trail.chars)

include h

theorem toList_eq_marks : document.toList = lead.chars ++ charsOf (root.marks trail.charData) := by
  rw [h, Element.charsOf_marks, List.append_assoc]
  rfl

/-- The marks of a document that begin a line, and their indentation. -/
theorem startsLine_iff_of_marks {before more : List Mark} {m : Mark} {n : Nat}
    (hmarks : root.marks trail.charData = before ++ m :: more) :
    StartsLine document (lead.chars ++ charsOf before) n ↔
      Whole before ∧ n = indentAt before m := by
  have hdocument := toList_eq_marks h
  have hwhole : Whole (root.marks trail.charData) :=
    root.whole_marks (visible_eq_nil_iff.mpr trail.blank)
  obtain ⟨first, others, hroot, hfirst⟩ := root.exists_marks_cons trail.charData
  have hhead : ∀ first ∈ (root.marks trail.charData).head?, first.role ≠ .finish := by
    rw [hroot]
    rintro _ ⟨⟩
    exact hfirst
  rw [hmarks] at hdocument hwhole hhead
  exact startsLine_iff lead.blank hdocument hwhole hhead

/-- Two siblings that begin a line: the lines from the first one on lead from the depth of one
to that of the other. -/
theorem siblings_depth {before between : List Mark} {m n : Nat}
    (hsiblings : root.Siblings before between)
    (hfirst : StartsLine document (lead.chars ++ charsOf before) m)
    (hsecond : StartsLine document (lead.chars ++ charsOf (before ++ between)) n) :
    m = 2 * depthOver 0 before ∧ n = 2 * depthOver (depthOver 0 before) between := by
  obtain ⟨m₁, ms₁, m₂, ms₂, hbetween, hm₁, hm₂, hmarks, _⟩ :=
    hsiblings.exists_marks trail.charData
  have hmarks₁ : root.marks trail.charData = before ++ m₁ :: (ms₁ ++ m₂ :: ms₂) := by
    rw [hmarks, hbetween, List.cons_append]
  -- For the second sibling, the marks of the first are among those before it.
  have hmarks₂ : root.marks trail.charData = before ++ between ++ m₂ :: ms₂ := by
    rw [hmarks, List.append_assoc]
  obtain ⟨hbefore, h₁⟩ := (startsLine_iff_of_marks h hmarks₁).mp hfirst
  obtain ⟨_, h₂⟩ := (startsLine_iff_of_marks h hmarks₂).mp hsecond
  rw [indentAt, if_neg hm₁] at h₁
  rw [indentAt, if_neg hm₂, depthOver_append hbefore] at h₂
  exact ⟨h₁, h₂⟩

theorem siblings_eq_of_honest {before between : List Mark} {m n : Nat}
    (hsiblings : root.Siblings before between)
    (hfirst : StartsLine document (lead.chars ++ charsOf before) m)
    (hsecond : StartsLine document (lead.chars ++ charsOf (before ++ between)) n)
    (hhonest : ∀ row ∈ rows between, Honest row) : m = n := by
  obtain ⟨_, _, _, _, _, _, _, _, hbalanced⟩ := hsiblings.exists_marks trail.charData
  obtain ⟨rfl, rfl⟩ := siblings_depth h hsiblings hfirst hsecond
  have hdepth : (depthOver (depthOver 0 before) between : Int) =
      (depthOver 0 before : Int) + nesting between :=
    depthOver_eq hhonest fun p hp => by
      have := hbalanced.nonneg p hp
      omega
  rw [hbalanced.nesting_eq] at hdepth
  omega

theorem endTag_depth {before : List Mark} {n : Nat} (hend : root.EndsAfter before)
    (hline : StartsLine document (lead.chars ++ charsOf before) n) :
    n = 2 * (depthOver 0 before - 1) := by
  obtain ⟨_, _, m', _, _, hrole, hmarks, _⟩ := hend.exists_marks trail.charData
  obtain ⟨_, hdepth⟩ := (startsLine_iff_of_marks h hmarks).mp hline
  rwa [indentAt, if_pos hrole] at hdepth

theorem endTag_eq_of_honest {before : List Mark} {n : Nat} (hend : root.EndsAfter before)
    (hline : StartsLine document (lead.chars ++ charsOf before) n)
    (hhonest : ∀ row ∈ rows before, Honest row) : n = 0 := by
  obtain ⟨m, ms, _, hbefore, hstart, _, _, hbalanced⟩ := hend.exists_marks trail.charData
  have hdepth : (depthOver 0 before : Int) = (0 : Nat) + nesting before :=
    depthOver_eq hhonest fun p hp => by
      rw [hbefore] at hp
      have := Balanced.nonneg_cons hstart hbalanced hp
      omega
  rw [hbefore, Balanced.nesting_cons_eq hstart hbalanced, ← hbefore] at hdepth
  have hn := endTag_depth h hend hline
  omega

end Document

/-- **Siblings have the same indentation where every line from the first to the second is
honest**, and the end tag of the root is at the margin where every line before it is.  In
general their indentations are those of the depths that the lines before them leave behind. -/
theorem siblings_aligned {document : String} {root : Element} {lead trail : Blanks}
    (h : document.toList = lead.chars ++ root.chars ++ trail.chars) :
    (∀ before between m n, root.Siblings before between →
      StartsLine document (lead.chars ++ charsOf before) m →
      StartsLine document (lead.chars ++ charsOf (before ++ between)) n →
        (m = 2 * depthOver 0 before ∧ n = 2 * depthOver (depthOver 0 before) between) ∧
          ((∀ row ∈ rows between, Honest row) → m = n)) ∧
    ∀ before n, root.EndsAfter before → StartsLine document (lead.chars ++ charsOf before) n →
      n = 2 * (depthOver 0 before - 1) ∧ ((∀ row ∈ rows before, Honest row) → n = 0) := by
  refine ⟨fun before between m n hsiblings hfirst hsecond => ⟨?_, ?_⟩,
    fun before n hend hline => ⟨?_, ?_⟩⟩
  · exact siblings_depth h hsiblings hfirst hsecond
  · exact siblings_eq_of_honest h hsiblings hfirst hsecond
  · exact endTag_depth h hend hline
  · exact endTag_eq_of_honest h hend hline

/-- Mixed content in one line and a `>` in an empty tag do no harm. -/
theorem siblings_aligned_mixed :
    let a : Name := ⟨['a'], by decide, by simp⟩
    let x : Attribute := ⟨" x=".toList, '"', ['>'], by decide, by decide, by decide⟩
    let first : Element := .full (.plain a)
      (.child ⟨"1 > 0".toList, by decide⟩ (.empty (.plain a)) (.done ⟨['t'], by decide⟩)) .none
    let second : Element := .empty ⟨a, [x], .none⟩
    let root : Element :=
      .full (.plain a) (.child .none first (.child .none second (.done .none))) .none
    let document := "<a><a>1 > 0<a/>t</a><a x=\">\"/></a>\n"
    let before := [(StartTag.plain a).mark .start .none]
    let between := first.marks .none
    let inside := before ++ (between ++ second.marks .none)
    format document = "<a>\r\n  <a>1 > 0<a/>t</a>\r\n  <a x=\">\"/>\r\n</a>" ∧
      root.Siblings before between ∧ StartsLine document (charsOf before) 2 ∧
      (∀ n, StartsLine document (charsOf (before ++ between)) n → n = 2) ∧
      root.EndsAfter inside ∧ ∀ n, StartsLine document (charsOf inside) n → n = 0 := by
  intro a x first second root document before between inside
  have h : document.toList =
      Blanks.none.chars ++ root.chars ++ (Blanks.mk ['\n'] (by decide)).chars := by
    decide +kernel
  have hformat : format document =
      "<a>\r\n  <a>1 > 0<a/>t</a>\r\n  <a x=\">\"/>\r\n</a>" := by
    decide +kernel
  have hsiblings : root.Siblings before between := .intro (.own ..) (.here ..) (.here ..)
  have hline : StartsLine document (charsOf before) 2 :=
    ⟨"<a>\r\n".toList, "a>1 > 0<a/>t</a>\r\n  <a x=\">\"/>\r\n</a>".toList,
      by rw [hformat]; decide, .inr (by decide), by decide⟩
  have hend : root.EndsAfter inside := .full ..
  refine ⟨hformat, hsiblings, hline, fun n hn => ?_, hend, fun n hn => ?_⟩
  · exact (((siblings_aligned h).1 before between 2 n hsiblings hline hn).2
      (by decide +kernel)).symm
  · exact ((siblings_aligned h).2 inside n hend hn).2 (by decide +kernel)

/-- **Not all siblings have the same indentation**, and not every end tag of a root is at the
margin.  A `>` in the value of an attribute hides a start tag, and a `>` after an empty tag
makes it look like one. -/
theorem not_forall_siblings_aligned :
    (¬ ∀ (root : Element) (document : String), document.toList = root.chars →
      ∀ before between m n, root.Siblings before between →
        StartsLine document (charsOf before) m →
        StartsLine document (charsOf (before ++ between)) n → m = n) ∧
    ¬ ∀ (root : Element) (document : String), document.toList = root.chars →
      ∀ before n, root.EndsAfter before → StartsLine document (charsOf before) n → n = 0 := by
  let r : StartTag := .plain ⟨['r'], by decide, by simp⟩
  let a : Name := ⟨['a'], by decide, by simp⟩
  let c : StartTag := .plain ⟨['c'], by decide, by simp⟩
  refine ⟨fun h => ?_, fun h => ?_⟩
  · let x : Attribute := ⟨" x=".toList, '"', ['>'], by decide, by decide, by decide⟩
    let first : Element := .full ⟨a, [x], .none⟩ (.done .none) .none
    let second : Element := .full c (.done .none) .none
    let root : Element := .full r (.child .none first (.child .none second (.done .none))) .none
    have hformat : format "<r><a x=\">\"></a><c></c></r>" =
        "<r>\r\n  <a x=\">\">\r\n</a>\r\n<c>\r\n</c>\r\n</r>" := by decide +kernel
    have hsiblings : root.Siblings [r.mark .start .none] (first.marks .none) :=
      .intro (.own ..) (.here ..) (.here ..)
    have heq := h root "<r><a x=\">\"></a><c></c></r>" (by decide +kernel) _ _ 2 0 hsiblings
      ⟨"<r>\r\n".toList, "a x=\">\">\r\n</a>\r\n<c>\r\n</c>\r\n</r>".toList,
        by rw [hformat]; decide, .inr (by decide), by decide⟩
      ⟨"<r>\r\n  <a x=\">\">\r\n</a>\r\n".toList, "c>\r\n</c>\r\n</r>".toList,
        by rw [hformat]; decide, .inr (by decide), by decide⟩
    exact absurd heq (by decide)
  · let root : Element := .full r (.child .none (.empty (.plain a))
      (.child ⟨['>'], by decide⟩ (.empty c) (.done .none))) .none
    have hformat : format "<r><a/>><c/></r>" = "<r>\r\n  <a/>>\r\n    <c/>\r\n  </r>" := by
      decide +kernel
    have heq := h root "<r><a/>><c/></r>" (by decide +kernel) _ 2 (.full ..)
      ⟨"<r>\r\n  <a/>>\r\n    <c/>\r\n".toList, "/r>".toList,
        by rw [hformat]; decide, .inr (by decide), by decide⟩
    exact absurd heq (by decide)

end MarkupDesk.Markup
