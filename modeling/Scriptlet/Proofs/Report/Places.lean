import Scriptlet.Command.Session
import Scriptlet.Proofs.Evaluation.Provenance
import Scriptlet.Proofs.Parse.SourceOrder
import Scriptlet.Proofs.Text.Lookup

namespace Scriptlet

/-!
# Every report shows a line of the text

A position is no more than a byte offset and a file name, and it travels far: from
the scanner into tokens, from tokens into trees, with trees into functions, and
from any of them into a diagnostic.  At the end of every such way it is still the
start of a token of the text that is reported on.  So the offset is one of that
text, and the report shows the line that the token starts on.
-/

namespace Diagnostic

/-- The report on the diagnostic ends with an excerpt from the text. -/
def ShowsLine (content : String) (diagnostic : Diagnostic) : Prop :=
  ∃ place,
    Text.placeAt? content diagnostic.position.offset.toNat = some place ∧
      ∀ style,
        (Excerpt.ofPlace place).lines style <:+ diagnostic.report style content

/--
The diagnostic is reported at the start of a token of the text, in the file of the
text, and with a line of the text.
-/
structure PointsInto
    (content file : String)
    (token : Token)
    (diagnostic : Diagnostic) :
    Prop where
  member : token ∈ tokenize content file
  position : diagnostic.position = token.start
  inFile : diagnostic.position.file = file
  shown : diagnostic.ShowsLine content

/-- A diagnostic at the start of a token of a text points into the text. -/
theorem pointsInto_of_mem
    {content file : String}
    {token : Token}
    {diagnostic : Diagnostic}
    (small : content.utf8ByteSize < UInt32.size)
    (member : token ∈ tokenize content file)
    (position : diagnostic.position = token.start) :
    diagnostic.PointsInto content file token := by
  obtain ⟨inFile, le⟩ := Token.start_of_mem_tokenize small member
  rw [← position] at inFile le
  obtain ⟨place, found⟩ :=
    Option.ne_none_iff_exists'.mp
      (mt Text.placeAt?_eq_none_iff.mp (Nat.not_lt.mpr le))
  refine ⟨member, position, inFile, place, found, fun style => ?_⟩
  simp only [report, found]
  exact List.suffix_append _ _

end Diagnostic

section Texts

variable {content file : String}

/-- In a new session there is no function. -/
theorem Session.new_writtenIn (nodes : List Expression) :
    new.heap.WrittenIn nodes := by
  intro id scope isScope
  have created : new.heap = (Heap.empty.add (Scope.enclosedIn none)).2 := rfl
  rw [created, Heap.getElem?_add] at isScope
  split at isScope
  · cases isScope
    intro binding member
    cases member
  · simp [Heap.empty] at isScope

end Texts

end Scriptlet
