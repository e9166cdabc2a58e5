import MarkupDesk.Text.Blank
import MarkupDesk.Text.Search

/-!
# Code fences

A reply may come wrapped in a code fence: a line of three backticks, with or
without a language, before the payload and a line of three backticks after it.
`unfence` takes off exactly these lines and the blanks around what is left;
anything else passes through trimmed.
-/
namespace MarkupDesk.Fence

open Text

/-- Three backticks. -/
def mark : List Char := ['\x60', '\x60', '\x60']

/-- Takes off the line that consists of `opening`, if the text starts with it. -/
def dropOpening (opening s : List Char) : List Char :=
  (after? (opening ++ ['\n']) s).getD s

/-- Takes off the closing line, if the text ends with it. -/
def dropClosing (s : List Char) : List Char :=
  (before? ('\n' :: mark) s).getD s

/-- The characters of a text without its fence; `language` is the tag that the
opening line may carry. -/
def strip (language s : List Char) : List Char :=
  let payload :=
    if (mark ++ language).isPrefixOf s then dropClosing (dropOpening (mark ++ language) s)
    else if mark.isPrefixOf s then dropClosing (dropOpening mark s)
    else s
  trim payload

example : strip "xml".toList "\x60\x60\x60xml\n<a/>\n\x60\x60\x60".toList = "<a/>".toList := by
  decide

end MarkupDesk.Fence

namespace MarkupDesk

/-- The payload of a reply whose fence, if it has one, is tagged with `language` or
untagged. -/
def unfence (language reply : String) : String :=
  String.ofList (Fence.strip language.toList reply.toList)

end MarkupDesk
