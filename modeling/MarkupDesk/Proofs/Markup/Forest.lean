import MarkupDesk.Proofs.Markup.Bracketed

/-!
# Nested documents

A nested document is a sequence of nodes: containers with nodes inside, elements with
a text, self-closing elements, and remarks (comments, declarations and processing
instructions).  `Node.partsAll` writes such a sequence down part by part, a part being
a tag or a whole text element.  `Node.prettyAll` is the layout that its nesting asks
for: each part on a line of its own, two spaces further in for each container around it.

The formatter sees no nodes.  That it arrives at the same layout (`format_spread_parts`)
is shown node by node: the tags of a node, at whatever depth they stand and whatever
comes after them, become the lines of its layout and leave the depth as it was
(`LaysOut`).
-/
namespace MarkupDesk.Markup

open Text

/-! ## Nodes -/

/-- The text has no angle brackets. -/
def Plain (s : List Char) : Prop := ∀ c ∈ s, c ≠ '<' ∧ c ≠ '>'

instance (s : List Char) : Decidable (Plain s) := List.decidableBAll _ s

/-- The text begins with a word character. -/
def StartsWord (s : List Char) : Prop := ∃ c ∈ s.head?, isWord c = true

instance (s : List Char) : Decidable (StartsWord s) :=
  decidable_of_iff _ (Option.any_eq_true isWord s.head?)

/-- What a tag says: it begins with a word character and has no brackets. -/
structure Label where
  chars : List Char
  startsWord : StartsWord chars
  plain : Plain chars

/-- What the start tag of a container says. -/
structure OpenLabel extends Label where
  open_end : chars.getLast? ≠ some '/'

/-- The text of a text element. -/
structure Content where
  chars : List Char
  plain : Plain chars
  visible : chars.all isBlank = false

/-- What the end tag of a text element says. -/
structure EndLabel where
  chars : List Char
  nonempty : chars ≠ []
  plain : Plain chars

/-- What a comment, a declaration or a processing instruction says. -/
structure Remark where
  chars : List Char
  marked : chars.head? = some '!' ∨ chars.head? = some '?'
  solid : ¬ Chars.HasBoundary chars

/-- A node of a nested document. -/
inductive Node where
  | container (start : OpenLabel) (children : List Node) (finish : Label)
  | text (start : Label) (content : Content) (finish : EndLabel)
  | selfClosing (label : Label)
  | remark (r : Remark)

namespace Node

open Chars

mutual

/-- The parts of a node in the order of the document: its tags, or the whole of a text
element. -/
def parts : Node → List (List Char)
  | container start children finish =>
    bracket start.chars :: (partsAll children ++ [bracket ('/' :: finish.chars)])
  | text start content finish =>
    [bracket start.chars ++ content.chars ++ bracket ('/' :: finish.chars)]
  | selfClosing label => [bracket (label.chars ++ ['/'])]
  | remark r => [bracket r.chars]

/-- The parts of a sequence of nodes. -/
def partsAll : List Node → List (List Char)
  | [] => []
  | n :: ns => n.parts ++ partsAll ns

end

/-- A line at this depth: two spaces for each level, and the part. -/
def row (depth : Nat) (part : List Char) : List Char := List.replicate (2 * depth) ' ' ++ part

mutual

/-- The lines of a node at this depth. -/
def pretty (depth : Nat) : Node → List (List Char)
  | container start children finish =>
    row depth (bracket start.chars) ::
      (prettyAll (depth + 1) children ++ [row depth (bracket ('/' :: finish.chars))])
  | text start content finish =>
    [row depth (bracket start.chars ++ content.chars ++ bracket ('/' :: finish.chars))]
  | selfClosing label => [row depth (bracket (label.chars ++ ['/']))]
  | remark r => [row depth (bracket r.chars)]

/-- The lines of a sequence of nodes at this depth. -/
def prettyAll (depth : Nat) : List Node → List (List Char)
  | [] => []
  | n :: ns => n.pretty depth ++ prettyAll depth ns

end

end Node

/-! ## Labels and the kinds of their tags -/

theorem StartsWord.exists_cons {s : List Char} (h : StartsWord s) :
    ∃ c rest, s = c :: rest ∧ isWord c = true := by
  obtain ⟨c, hc, hword⟩ := h
  obtain ⟨rest, hrest⟩ := List.head?_eq_some_iff.mp (Option.mem_def.mp hc)
  exact ⟨c, rest, hrest, hword⟩

theorem StartsWord.append {s : List Char} (h : StartsWord s) (t : List Char) :
    StartsWord (s ++ t) := by
  obtain ⟨c, rest, rfl, hword⟩ := h.exists_cons
  exact ⟨c, rfl, hword⟩

theorem ne_of_isWord {c d : Char} (hc : isWord c = true) (hd : isWord d = false) : c ≠ d := by
  rintro rfl
  rw [hc] at hd
  cases hd

theorem StartsWord.head?_ne {s : List Char} (h : StartsWord s) : s.head? ≠ some '<' := by
  obtain ⟨c, rest, rfl, hword⟩ := h.exists_cons
  exact fun hc => ne_of_isWord hword (by decide) (Option.some.inj hc)

namespace Chars

theorem not_mem_of_plain {s : List Char} (h : Plain s) : '<' ∉ s ∧ '>' ∉ s :=
  ⟨fun hmem => (h _ hmem).1 rfl, fun hmem => (h _ hmem).2 rfl⟩

/-- A text that begins with a word character is a start tag, or has no depth of its
own. -/
theorem kind_of_startsWord {s : List Char} (h : StartsWord s) :
    kind s = if opens s then .opening else if selfCloses s then .selfClosing else .other := by
  obtain ⟨c, rest, rfl, hword⟩ := h.exists_cons
  have hcloses : closes (c :: rest) = false := by
    have := ne_of_isWord hword (d := '/') (by decide)
    simp [closes, this]
  have hbody : body (c :: rest) = c :: rest := by
    have := ne_of_isWord hword (d := '<') (by decide)
    simp [body, this]
  have hquestion := ne_of_isWord hword (d := '?') (by decide)
  have hbang := ne_of_isWord hword (d := '!') (by decide)
  simp [kind, hcloses, hbody, hquestion, hbang]

/-- A text that begins with a word character is that of a start tag when it has no `>` but
at its end, and no slash there. -/
theorem opens_iff_of_startsWord {s : List Char} (h : StartsWord s) :
    opens s = true ↔ s.getLast? ≠ some '/' ∧ '>' ∉ s.dropLast := by
  obtain ⟨c, rest, rfl, hword⟩ := h.exists_cons
  cases rest with
  | nil => simp [opens, hword, ne_of_isWord hword (d := '/') (by decide)]
  | cons d rest => simp [opens, hword, (ne_of_isWord hword (d := '>') (by decide)).symm]

theorem not_opens_append_gt {s t : List Char} (h : StartsWord (s ++ '>' :: t)) (ht : t ≠ []) :
    opens (s ++ '>' :: t) = false := by
  rw [← Bool.not_eq_true, opens_iff_of_startsWord h,
    List.dropLast_append_of_ne_nil (List.cons_ne_nil _ _), List.dropLast_cons_of_ne_nil ht]
  exact fun hopens => hopens.2 (by simp)

end Chars

open Chars

theorem Label.opens_append_slash (l : Label) : opens (l.chars ++ ['/']) = false := by
  rw [← Bool.not_eq_true, opens_iff_of_startsWord (l.startsWord.append _)]
  exact fun hopens => hopens.1 List.getLast?_concat

theorem OpenLabel.opens_chars (l : OpenLabel) : opens l.chars = true :=
  (opens_iff_of_startsWord l.startsWord).mpr
    ⟨l.open_end, fun hmem => (not_mem_of_plain l.plain).2 (List.dropLast_subset _ hmem)⟩

/-- What stands in a text element comes after its start tag, so no end tag can open
there. -/
theorem Content.opensAfterBlanks_append (t : Content) (s : List Char) :
    opensAfterBlanks (t.chars ++ s) = false := by
  have hempty : (t.chars.dropWhile isBlank).isEmpty = false := by
    rw [List.isEmpty_eq_false_iff, ne_eq, dropWhile_isBlank_eq_nil_iff, t.visible]
    decide
  rw [opensAfterBlanks, List.dropWhile_append, hempty, if_neg Bool.false_ne_true]
  cases h : t.chars.dropWhile isBlank with
  | nil =>
    rw [h] at hempty
    cases hempty
  | cons c rest =>
    have hmem : c ∈ t.chars := (List.dropWhile_sublist isBlank).subset (h ▸ List.mem_cons_self ..)
    simpa using (t.plain c hmem).1

theorem not_hasBoundary_text {start finish : List Char} (hstart : Plain start) (content : Content)
    (hfinish : Plain finish) :
    ¬ HasBoundary (start ++ '>' :: (content.chars ++ '<' :: '/' :: finish)) := by
  have hrest : '>' ∉ content.chars ++ '<' :: '/' :: finish := by
    simp [(not_mem_of_plain content.plain).2, (not_mem_of_plain hfinish).2]
  rw [hasBoundary_append_left_iff (not_mem_of_plain hstart).2, hasBoundary_cons_iff,
    content.opensAfterBlanks_append]
  simpa using not_hasBoundary_of_gt_not_mem hrest

/-! ## Layout node by node -/

/-- The parts of some nodes, which have these insides, become these rows at every
depth, and the depth is afterwards what it was before. -/
structure LaysOut (parts : List (List Char)) (rows : Nat → List (List Char))
    (insides : List (List Char)) : Prop where
  parts_eq : insides.map bracket = parts
  solid : ∀ b ∈ insides, ¬ HasBoundary b
  starts : ∀ b ∈ insides.head?, closes b = false ∧ b.head? ≠ some '<'
  lines_append : ∀ depth rest, lines depth (insides ++ rest) =
    (rows depth).flatMap (· ++ lineEnding.toList) ++ lines depth rest

theorem line_eq_row (depth : Nat) (inside : List Char) :
    line depth inside = Node.row depth (bracket inside) ++ lineEnding.toList := by
  rw [line, indent_eq_replicate, Node.row, bracket]
  simp

namespace LaysOut

theorem nil : LaysOut [] (fun _ => []) [] where
  parts_eq := rfl
  solid := by simp
  starts := by simp
  lines_append := fun _ _ => rfl

theorem append {parts parts' insides insides' : List (List Char)}
    {rows rows' : Nat → List (List Char)} (h : LaysOut parts rows insides)
    (h' : LaysOut parts' rows' insides') :
    LaysOut (parts ++ parts') (fun depth => rows depth ++ rows' depth) (insides ++ insides') where
  parts_eq := by rw [List.map_append, h.parts_eq, h'.parts_eq]
  solid := fun b hb => (List.mem_append.mp hb).elim (h.solid b) (h'.solid b)
  starts := by
    intro b hb
    cases insides with
    | nil => exact h'.starts b hb
    | cons c insides => exact h.starts b hb
  lines_append := by
    intro depth rest
    rw [List.append_assoc, h.lines_append, h'.lines_append, List.flatMap_append, List.append_assoc]

/-- A tag that is neither a start tag nor an end tag. -/
theorem single {inside : List Char} (hopening : kind inside ≠ .opening)
    (hclosing : kind inside ≠ .closing) (hsolid : ¬ HasBoundary inside)
    (hhead : inside.head? ≠ some '<') :
    LaysOut [bracket inside] (fun depth => [Node.row depth (bracket inside)]) [inside] where
  parts_eq := rfl
  solid := List.forall_mem_singleton.mpr hsolid
  starts := by
    rintro b ⟨⟩
    exact ⟨Bool.eq_false_iff.mpr (mt kind_eq_closing_iff.mpr hclosing), hhead⟩
  lines_append := by
    intro depth rest
    rw [List.singleton_append, lines, depthAt_of_ne hclosing, depthAfter_of_ne hopening,
      line_eq_row]
    simp

/-- A text element, which has no depth of its own either. -/
theorem text {start finish : List Char} {content : Content} (hstart : Plain start)
    (hfinish : Plain finish) (hhead : start.head? ≠ some '<')
    (hkind : kind (start ++ '>' :: (content.chars ++ '<' :: '/' :: finish)) ≠ .opening ∧
      kind (start ++ '>' :: (content.chars ++ '<' :: '/' :: finish)) ≠ .closing) :
    LaysOut [bracket start ++ content.chars ++ bracket ('/' :: finish)]
      (fun depth => [Node.row depth (bracket start ++ content.chars ++ bracket ('/' :: finish))])
      [start ++ '>' :: (content.chars ++ '<' :: '/' :: finish)] := by
  have hinside : bracket (start ++ '>' :: (content.chars ++ '<' :: '/' :: finish)) =
      bracket start ++ content.chars ++ bracket ('/' :: finish) := by
    simp [bracket]
  have hhead' : (start ++ '>' :: (content.chars ++ '<' :: '/' :: finish)).head? ≠ some '<' := by
    cases start with
    | nil => exact fun h => absurd (Option.some.inj h) (by decide)
    | cons c rest => exact hhead
  have h := single hkind.1 hkind.2 (not_hasBoundary_text hstart content hfinish) hhead'
  rwa [hinside] at h

/-- A start tag, nodes one level further in, and an end tag. -/
theorem container {start finish : List Char} {parts insides : List (List Char)}
    {rows : Nat → List (List Char)} (hstart : kind start = .opening)
    (hfinish : kind ('/' :: finish) = .closing) (hsolid : ¬ HasBoundary start)
    (hsolid' : ¬ HasBoundary ('/' :: finish)) (hhead : start.head? ≠ some '<')
    (h : LaysOut parts rows insides) :
    LaysOut (bracket start :: (parts ++ [bracket ('/' :: finish)]))
      (fun depth => Node.row depth (bracket start) ::
        (rows (depth + 1) ++ [Node.row depth (bracket ('/' :: finish))]))
      (start :: (insides ++ ['/' :: finish])) where
  parts_eq := by rw [List.map_cons, List.map_append, h.parts_eq, List.map_singleton]
  solid := by
    rw [List.forall_mem_cons, List.forall_mem_append, List.forall_mem_singleton]
    exact ⟨hsolid, h.solid, hsolid'⟩
  starts := by
    rintro b ⟨⟩
    have hcloses : kind start ≠ .closing := by simp [hstart]
    exact ⟨Bool.eq_false_iff.mpr (mt kind_eq_closing_iff.mpr hcloses), hhead⟩
  lines_append := by
    intro depth rest
    rw [List.cons_append, lines, hstart, List.append_assoc]
    -- The start tag leaves the depth one level further in, and the end tag takes it back.
    show line depth start ++ lines (depth + 1) (insides ++ ([_] ++ rest)) = _
    rw [h.lines_append, List.singleton_append, lines, hfinish]
    show _ ++ (_ ++ (line depth _ ++ lines depth rest)) = _
    simp [line_eq_row]

end LaysOut

/-! ## Whole documents -/

/-- The kind of a tag that begins with a word character and is no start tag. -/
theorem Label.kind_append_ne (l : Label) {s : List Char} (h : opens (l.chars ++ s) = false) :
    kind (l.chars ++ s) ≠ .opening ∧ kind (l.chars ++ s) ≠ .closing := by
  rw [kind_of_startsWord (l.startsWord.append s), h]
  constructor <;> cases selfCloses (l.chars ++ s) <;> decide

theorem OpenLabel.kind_chars (l : OpenLabel) : kind l.chars = .opening := by
  rw [kind_of_startsWord l.startsWord, l.opens_chars, if_pos rfl]

theorem Label.kind_slash_cons (l : Label) : kind ('/' :: l.chars) = .closing := by
  obtain ⟨c, rest, hchars, hword⟩ := l.startsWord.exists_cons
  rw [kind_eq_closing_iff, hchars]
  exact hword

theorem Remark.kind_chars_ne (r : Remark) : kind r.chars ≠ .opening ∧ kind r.chars ≠ .closing := by
  rcases r.marked with h | h <;> obtain ⟨rest, hrest⟩ := List.head?_eq_some_iff.mp h <;>
    rw [hrest] <;> constructor <;> exact Kind.noConfusion

theorem Remark.head?_ne (r : Remark) : r.chars.head? ≠ some '<' := by
  rcases r.marked with h | h <;> rw [h] <;> decide

theorem laysOut_text (start : Label) (content : Content) (finish : EndLabel) :
    LaysOut (Node.text start content finish).parts
      (fun depth => (Node.text start content finish).pretty depth)
      [start.chars ++ '>' :: (content.chars ++ '<' :: '/' :: finish.chars)] := by
  have hopens :
      opens (start.chars ++ '>' :: (content.chars ++ '<' :: '/' :: finish.chars)) = false :=
    not_opens_append_gt (start.startsWord.append _) (by simp)
  exact .text start.plain finish.plain start.startsWord.head?_ne (start.kind_append_ne hopens)

mutual

/-- **The tags of a node become the lines of its layout.**  The proof follows the
nesting; what comes after the node is left open in `LaysOut`, so that siblings can be
put together. -/
theorem Node.exists_laysOut : ∀ n : Node,
    ∃ insides, LaysOut n.parts (fun depth => n.pretty depth) insides
  | .container start children finish => by
    obtain ⟨insides, h⟩ := Node.exists_laysOutAll children
    have hfinish : '>' ∉ '/' :: finish.chars := by simp [(not_mem_of_plain finish.plain).2]
    exact ⟨_, .container start.kind_chars finish.kind_slash_cons
      (not_hasBoundary_of_gt_not_mem (not_mem_of_plain start.plain).2)
      (not_hasBoundary_of_gt_not_mem hfinish) start.startsWord.head?_ne h⟩
  | .text start content finish => ⟨_, laysOut_text start content finish⟩
  | .selfClosing label => by
    have hkind := label.kind_append_ne label.opens_append_slash
    have hgt : '>' ∉ label.chars ++ ['/'] := by simp [(not_mem_of_plain label.plain).2]
    exact ⟨_, .single hkind.1 hkind.2 (not_hasBoundary_of_gt_not_mem hgt)
      (label.startsWord.append _).head?_ne⟩
  | .remark r => ⟨_, .single r.kind_chars_ne.1 r.kind_chars_ne.2 r.solid r.head?_ne⟩

theorem Node.exists_laysOutAll : ∀ ns : List Node,
    ∃ insides, LaysOut (Node.partsAll ns) (fun depth => Node.prettyAll depth ns) insides
  | [] => ⟨_, .nil⟩
  | n :: ns => by
    obtain ⟨insides, h⟩ := Node.exists_laysOut n
    obtain ⟨insides', h'⟩ := Node.exists_laysOutAll ns
    exact ⟨_, h.append h'⟩

end

theorem Node.parts_ne_nil (n : Node) : n.parts ≠ [] := by
  cases n <;> exact List.cons_ne_nil _ _

theorem Node.pretty_ne_nil (depth : Nat) (n : Node) : n.pretty depth ≠ [] := by
  cases n <;> exact List.cons_ne_nil _ _

theorem intercalate_append_self {sep : List Char} {texts : List (List Char)} (h : texts ≠ []) :
    List.intercalate sep texts ++ sep = texts.flatMap (· ++ sep) := by
  induction texts with
  | nil => exact absurd rfl h
  | cons t texts ih =>
    cases texts with
    | nil => simp
    | cons u texts =>
      rw [List.intercalate_cons_cons, List.append_assoc, ih (List.cons_ne_nil u texts)]
      simp

/-- **The formatter lays out every nested document by its nesting.**  However the parts
of the nodes are spread over the document, with whatever blanks between them, each part
gets a line of its own, two spaces further in for each container around it. -/
theorem format_spread_parts {nodes : List Node} (hne : nodes ≠ []) {document : String}
    (h : Spread (Node.partsAll nodes) document.toList) :
    format document = "\r\n".intercalate ((Node.prettyAll 0 nodes).map String.ofList) := by
  obtain ⟨n, ns, rfl⟩ := List.exists_cons_of_ne_nil hne
  obtain ⟨insides, hlays⟩ := Node.exists_laysOutAll (n :: ns)
  have hparts := hlays.parts_eq
  cases insides with
  | nil => exact absurd hparts.symm (List.append_ne_nil_of_left_ne_nil n.parts_ne_nil _)
  | cons inside insides =>
    have hstarts := hlays.starts inside rfl
    have hlines := format_spread hlays.solid hstarts.1 hstarts.2 (hparts ▸ h)
    have hpretty : Node.prettyAll 0 (n :: ns) ≠ [] :=
      List.append_ne_nil_of_left_ne_nil (n.pretty_ne_nil 0) _
    have hrows := hlays.lines_append 0 []
    rw [List.append_nil, ← hlines, lines, List.append_nil, ← intercalate_append_self hpretty]
      at hrows
    rw [← String.toList_inj, toList_format, String.toList_intercalate, List.map_map,
      List.append_cancel_right hrows]
    simp [Function.comp_def, lineEnding]

/-- A declaration, a container and what is in it, unevenly spaced. -/
theorem format_spread_parts_uneven :
    let a : Label := ⟨"a".toList, by decide, by decide⟩
    let nodes := [.remark ⟨"?xml?".toList, by decide, by decide⟩,
      .container ⟨a, by decide⟩
        [.text a ⟨"t".toList, by decide, by decide⟩ ⟨"a".toList, by decide, by decide⟩,
          .selfClosing a] a]
    nodes ≠ [] ∧
      Spread (Node.partsAll nodes) " <?xml?><a>\n\n<a>t</a>\t<a/></a> ".toList ∧
      format " <?xml?><a>\n\n<a>t</a>\t<a/></a> " =
        "<?xml?>\r\n<a>\r\n  <a>t</a>\r\n  <a/>\r\n</a>" := by
  intro a nodes
  have h : Spread (Node.partsAll nodes) " <?xml?><a>\n\n<a>t</a>\t<a/></a> ".toList :=
    .next [' '] _ rfl <| .next [] _ rfl <| .next ['\n', '\n'] _ rfl <| .next ['\t'] _ rfl <|
      .next [] _ rfl <| .done [' '] rfl
  have hpretty : "\r\n".intercalate ((Node.prettyAll 0 nodes).map String.ofList) =
      "<?xml?>\r\n<a>\r\n  <a>t</a>\r\n  <a/>\r\n</a>" := by decide +kernel
  exact ⟨List.cons_ne_nil _ _, h, (format_spread_parts (List.cons_ne_nil _ _) h).trans hpretty⟩

end MarkupDesk.Markup
